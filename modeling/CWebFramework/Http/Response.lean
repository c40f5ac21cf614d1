import CWebFramework.Http.Redirect
import CWebFramework.Misc.Bufo
import CWebFramework.Misc.Numerals

/-!
# Responses

The part of `httpresponse.c` that handlers and filters use: the header list
with its flags for transfer and content encoding, the body, and the responses
that the server prepares itself.  Handlers reach it through the function
pointers of `httpresponse_t`.

Memory allocation is assumed to succeed up to the limit of `bufo_alloc`.
-/

namespace CWebFramework.Http

/-! ## Status lines -/

/-- The cases of `httpresponse_status_string`. -/
def statusStrings : List (Nat × String) := [ (100, "100 Continue\r\n"),
  (101, "101 Switching Protocols\r\n"),
  (102, "102 Processing\r\n"),
  (103, "103 Early Hints\r\n"),
  (200, "200 OK\r\n"),
  (201, "201 Created\r\n"),
  (202, "202 Accepted\r\n"),
  (203, "203 Non-Authoritative Information\r\n"),
  (204, "204 No Content\r\n"),
  (205, "205 Reset Content\r\n"),
  (206, "206 Partial Content\r\n"),
  (207, "207 Multi-Status\r\n"),
  (208, "208 Already Reported\r\n"),
  (226, "226 IM Used\r\n"),
  (300, "300 Multiple Choices\r\n"),
  (301, "301 Moved Permanently\r\n"),
  (302, "302 Found\r\n"),
  (303, "303 See Other\r\n"),
  (304, "304 Not Modified\r\n"),
  (305, "305 Use Proxy\r\n"),
  (306, "306 Switch Proxy\r\n"),
  (307, "307 Temporary Redirect\r\n"),
  (308, "308 Permanent Redirect\r\n"),
  (400, "400 Bad Request\r\n"),
  (401, "401 Unauthorized\r\n"),
  (402, "402 Payment Required\r\n"),
  (403, "403 Forbidden\r\n"),
  (404, "404 Not Found\r\n"),
  (405, "405 Method Not Allowed\r\n"),
  (406, "406 Not Acceptable\r\n"),
  (407, "407 Proxy Authentication Required\r\n"),
  (408, "408 Request Timeout\r\n"),
  (409, "409 Conflict\r\n"),
  (410, "410 Gone\r\n"),
  (411, "411 Length Required\r\n"),
  (412, "412 Precondition Failed\r\n"),
  (413, "413 Payload Too Large\r\n"),
  (414, "414 URI Too Long\r\n"),
  (415, "415 Unsupported Media Type\r\n"),
  (416, "416 Range Not Satisfiable\r\n"),
  (417, "417 Expectation Failed\r\n"),
  (418, "418 I'm a teapot\r\n"),
  (421, "421 Misdirected Request\r\n"),
  (422, "422 Unprocessable Entity\r\n"),
  (423, "423 Locked\r\n"),
  (424, "424 Failed Dependency\r\n"),
  (426, "426 Upgrade Required\r\n"),
  (428, "428 Precondition Required\r\n"),
  (429, "429 Too Many Requests\r\n"),
  (431, "431 Request Header Fields Too Large\r\n"),
  (451, "451 Unavailable For Legal Reasons\r\n"),
  (500, "500 Internal Server Error\r\n"),
  (501, "501 Not Implemented\r\n"),
  (502, "502 Bad Gateway\r\n"),
  (503, "503 Service Unavailable\r\n"),
  (504, "504 Gateway Timeout\r\n"),
  (505, "505 HTTP Version Not Supported\r\n"),
  (506, "506 Variant Also Negotiates\r\n"),
  (507, "507 Insufficient Storage\r\n"),
  (508, "508 Loop Detected\r\n"),
  (510, "510 Not Extended\r\n"),
  (511, "511 Network Authentication Required\r\n")]

/-- The cases of `httpresponse_status_length`. -/
def statusLengths : List (Nat × Nat) := [
  (100, 14), (101, 25), (102, 16), (103, 17), (200, 8), (201, 13),
  (202, 14), (203, 35), (204, 16), (205, 19), (206, 21), (207, 18),
  (208, 22), (226, 13), (300, 22), (301, 23), (302, 11), (303, 15),
  (304, 18), (305, 15), (306, 18), (307, 24), (308, 24), (400, 17),
  (401, 18), (402, 22), (403, 15), (404, 15), (405, 24), (406, 20),
  (407, 35), (408, 21), (409, 14), (410, 10), (411, 21), (412, 25),
  (413, 23), (414, 18), (415, 28), (416, 27), (417, 24), (418, 18),
  (421, 25), (422, 26), (423, 12), (424, 23), (426, 22), (428, 27),
  (429, 23), (431, 37), (451, 35), (500, 27), (501, 21), (502, 17),
  (503, 25), (504, 21), (505, 32), (506, 29), (507, 26), (508, 19),
  (510, 18), (511, 37)]

def statusString (code : Nat) : Option Bytes := (statusStrings.lookup code).map ascii

def statusLength (code : Nat) : Nat := (statusLengths.lookup code).getD 0

/-! ## The response -/

/-- `transfer_encoding_t`, as far as the server uses it. -/
inductive TransferEncoding where
  | none
  | chunked
  deriving DecidableEq, Repr

/-- `content_encoding_t`, as far as the server uses it. -/
inductive ContentEncoding where
  | none
  | gzip
  deriving DecidableEq, Repr

/-- An open `file_t`: the size and the time are those of `fstat` at the
opening, the content is what `pread` reads. -/
structure ResponseFile where
  content : Bytes
  size : Nat
  mtime : Nat
  deriving DecidableEq, Repr

/-- `httpresponse_t`. `file` is present when `file_.fd > -1`. -/
structure Response where
  statusCode : Nat
  transferEncoding : TransferEncoding
  contentEncoding : ContentEncoding
  headers : List Header
  body : Bufo
  file : Option ResponseFile
  range : Bool
  lastModified : Bool
  deriving DecidableEq, Repr

def httpresponseCreate : Response where
  statusCode := 200
  transferEncoding := .none
  contentEncoding := .none
  headers := []
  body := bufoInit
  file := none
  range := false
  lastModified := false

def Response.dataSize (response : Response) : Nat :=
  match response.file with
  | some file => file.size
  | none => response.body.size

/-- What the server is configured with: the types of `env()->main.gzip`. -/
structure ResponseEnv where
  gzip : List Bytes

/-! ## Headers -/

def cmpstrLower (left right : Bytes) : Bool := cmpstrnLower (cstring left) (cstring right)

def tryEnableGzip (env : ResponseEnv) (response : Response) (directive : Bytes) : Response :=
  if response.range then response
  else if env.gzip.any (cmpstrLower · directive) then
    { response with contentEncoding := .gzip, transferEncoding := .chunked }
  else response

def tryEnableTe (response : Response) (directive : Bytes) : Response :=
  if response.range then response
  else if ! cmpstrLower directive (ascii "chunked") then response
  else { response with transferEncoding := .chunked }

/-- What the end of `__httpresponse_headern_add` makes of the flags. -/
def headerEffect (env : ResponseEnv) (response : Response) (header : Header) : Response :=
  if response.range then response
  else if cmpstrLower header.key (ascii "Content-Type") &&
      decide (1024 ≤ response.dataSize) then
    tryEnableGzip env response header.value
  else if cmpstrLower header.key (ascii "Transfer-Encoding") then
    tryEnableTe response header.value
  else if cmpstrLower header.key (ascii "Content-Encoding") &&
      cmpstrLower header.value (ascii "gzip") then
    { response with contentEncoding := .gzip }
  else response

def headernAdd (env : ResponseEnv) (response : Response) (key value : Bytes) : Response :=
  if response.range && (cmpstrnLower key (ascii "Transfer-Encoding") ||
        cmpstrnLower key (ascii "Content-Encoding")) then
    response
  else
    let header : Header := { key := key, value := value }
    headerEffect env
      { response with headers := response.headers ++ [header] } header

/-- `__httpresponse_header_add`. The arguments are C strings. -/
def headerAdd (env : ResponseEnv) (response : Response) (key value : Bytes) : Response :=
  headernAdd env response (cstring key) (cstring value)

/-! ## Bodies -/

def httpresponseRedirect (env : ResponseEnv) (response : Response)
    (path : Bytes) (status : Nat) : Response :=
  let response := headerAdd env { response with statusCode := status } (ascii "Location") path
  if redirectIsExternal (cstring path) then
    headerAdd env response (ascii "Connection") (ascii "Close")
  else response

end CWebFramework.Http
