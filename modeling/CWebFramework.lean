import CWebFramework.Misc.BufferOperations
import CWebFramework.Misc.HashMap
import CWebFramework.Http.Rejection
import CWebFramework.Http.Pipelining
import CWebFramework.Http.VirtualServer
import CWebFramework.Http.ResponseHead
import CWebFramework.Http.NotModified
import CWebFramework.Http.RedirectTemplate
import CWebFramework.Http.RangeFilter
import CWebFramework.WebSocket.Utf8
import CWebFramework.WebSocket.Compression
import CWebFramework.Connection.References
import CWebFramework.Connection.Wakeup
import CWebFramework.Database.QueryValues
import CWebFramework.Database.MysqlIdentifier
import CWebFramework.Database.SqliteStatements
import CWebFramework.Model.ListQuery
import CWebFramework.Model.DeleteByParams
import CWebFramework.Json.TokenPool
import CWebFramework.View.Loop
import CWebFramework.Misc.Base64Lines
import CWebFramework.Jwt.Acceptance
import CWebFramework.Storage.Containment
import CWebFramework.Storage.FileChanges
import CWebFramework.Storage.Substring
import CWebFramework.HttpClient.Provenance
import CWebFramework.Ratelimiter.Window
import CWebFramework.Ratelimiter.Refill
import CWebFramework.Ratelimiter.Cleanup
import CWebFramework.Http.UrlencodedRoundTrip
import CWebFramework.Http.ContentDisposition
import CWebFramework.Http.MultipartBlocks
import CWebFramework.Http.PrimitiveRoute
import CWebFramework.HttpClient.ChunkedReading
import CWebFramework.HttpClient.SelfInvoke
import CWebFramework.Storage.Signature
import CWebFramework.Migrate.Up
import CWebFramework.Smtp.Mail
import CWebFramework.Smtp.ReplyReading
import CWebFramework.Smtp.BodyCanon
import CWebFramework.Taskmanager.Calc
import CWebFramework.Model.TimeText
import CWebFramework.Domain.Template
import CWebFramework.Translation.Placeholders
