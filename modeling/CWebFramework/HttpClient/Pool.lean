import CWebFramework.Misc.Numerals
import CWebFramework.Transition.Runs

/-!
# The connection pool of the HTTP client

`httpclientpool.c` and the functions of `httpclient.c` that take a connection
from the pool and give it back.  A connection is a number; the handshakes are
kept in the order of these numbers, with the settings of the client that has
performed them.  Every function of the pool runs under its mutex, so an
interleaving of clients is a list of such actions.
-/

namespace CWebFramework.HttpClient

open Transition

/-! ## The pool -/

def poolConnectionTtl : Int := 300

def poolMaxConnectionsPerHost : Nat := 8

structure PooledConnection where
  connection : Nat
  useSsl : Bool
  expiresAt : Int
  busy : Bool
  deriving DecidableEq, Repr

abbrev Pool := Bytes → Option (List PooledConnection)

def makeHostKey (host : Bytes) (port : Nat) : Bytes := host ++ Byte.colon :: decimal port

def Pool.set (pool : Pool) (key : Bytes) (connections : List PooledConnection) : Pool :=
  fun other => if other = key then some connections else pool other

/-- The loop of `httpclientpool_acquire`: connections that are not alive are
removed on the way. -/
def acquireLoop (now : Int) (alive : Nat → Bool) (useSsl : Bool) :
    List PooledConnection → List PooledConnection × Option Nat
  | [] => ([], none)
  | pooled :: rest =>
    if pooled.busy || decide (pooled.expiresAt ≤ now) || pooled.useSsl != useSsl then
      let behind := acquireLoop now alive useSsl rest
      (pooled :: behind.1, behind.2)
    else if alive pooled.connection then
      ({ pooled with busy := true } :: rest, some pooled.connection)
    else acquireLoop now alive useSsl rest

def httpclientpoolAcquire (now : Int) (alive : Nat → Bool) (pool : Pool)
    (host : Bytes) (port : Nat) (useSsl : Bool) : Pool × Option Nat :=
  match pool (makeHostKey host port) with
  | none => (pool, none)
  | some connections =>
    let found := acquireLoop now alive useSsl connections
    (pool.set (makeHostKey host port) found.1, found.2)

/-- The loop of `httpclientpool_release` over the connections that are in the
pool. -/
def releaseLoop (now : Int) (connection : Nat) :
    List PooledConnection → Option (List PooledConnection)
  | [] => none
  | pooled :: rest =>
    if pooled.connection = connection then
      some ({ pooled with
        busy := false
        expiresAt := now + poolConnectionTtl } :: rest)
    else (releaseLoop now connection rest).map (pooled :: ·)

/-- `httpclientpool_release`. A connection beyond the limit is closed. -/
def httpclientpoolRelease (now : Int) (pool : Pool) (host : Bytes)
    (port : Nat) (connection : Nat) (useSsl : Bool) : Pool :=
  let key := makeHostKey host port
  let connections := (pool key).getD []
  match releaseLoop now connection connections with
  | some released => pool.set key released
  | none =>
    if poolMaxConnectionsPerHost ≤ connections.length then
      pool.set key connections
    else
      pool.set key
        ({ connection := connection
           useSsl := useSsl
           expiresAt := now + poolConnectionTtl
           busy := false } :: connections)

def httpclientpoolDiscard (pool : Pool) (host : Bytes) (port : Nat) (connection : Nat) : Pool :=
  match pool (makeHostKey host port) with
  | none => pool
  | some connections =>
    pool.set (makeHostKey host port) (connections.eraseP (·.connection == connection))

def httpclientpoolCleanupExpired (now : Int) (pool : Pool) : Pool :=
  fun key =>
    (pool key).bind fun connections =>
      let kept := connections.filter fun pooled =>
        pooled.busy || decide (now < pooled.expiresAt)
      if kept = [] then none else some kept

/-! ## Clients -/

/-- The fields of `httpclient_t` that decide about a connection. -/
structure Client where
  host : Bytes
  port : Nat
  useSsl : Bool
  verifyPeer : Bool
  caPath : Option Bytes
  connection : Option Nat
  deriving DecidableEq, Repr

def httpclientCreate : Client where
  host := []
  port := 0
  useSsl := false
  verifyPeer := true
  caPath := none
  connection := none

/-- With whom and how a connection was established. -/
structure Handshake where
  host : Bytes
  port : Nat
  useSsl : Bool
  verifyPeer : Bool
  caPath : Option Bytes
  deriving DecidableEq, Repr

def Client.handshake (client : Client) : Handshake where
  host := client.host
  port := client.port
  useSsl := client.useSsl
  verifyPeer := client.verifyPeer
  caPath := client.caPath

structure World where
  pool : Pool
  clients : Nat → Client
  handshakes : List Handshake

def World.start : World where
  pool _ := none
  clients _ := httpclientCreate
  handshakes := []

def World.update (world : World) (number : Nat) (client : Client) : World :=
  { world with
    clients := fun other =>
      if other = number then client else world.clients other }

/-- The calls of the clients.  What `time`, `poll` and the network answer is
part of an action. -/
inductive Action where
  | setVerify (client : Nat) (verify : Bool) (caPath : Option Bytes)
  | setUrl (client : Nat) (host : Bytes) (port : Nat) (useSsl : Bool)
  | createConnection (client : Nat) (now : Int) (alive : Nat → Bool) (established : Bool)
  | freeConnection (client : Nat) (now : Int) (keepAlive : Bool)
  | discardConnection (client : Nat)
  | cleanupExpired (now : Int)

def createConnection (world : World) (number : Nat) (now : Int)
    (alive : Nat → Bool) (established : Bool) : World :=
  let client := world.clients number
  match httpclientpoolAcquire now alive world.pool client.host client.port client.useSsl with
  | (pool, some connection) =>
    { world with pool := pool }.update number
      { client with connection := some connection }
  | (pool, none) =>
    if established then
      { world with
        pool := pool
        handshakes := world.handshakes ++ [client.handshake] }.update number
        { client with connection := some world.handshakes.length }
    else { world with pool := pool }

/-- One call.  `set_verify` and `set_url` do not run while the client sends a
request; a request is sent over the connection of the client. -/
def perform (world : World) : Action → Option World
  | .setVerify number verify caPath =>
    let client := world.clients number
    if client.connection = none then
      some (world.update number
        { client with verifyPeer := verify, caPath := caPath })
    else none
  | .setUrl number host port useSsl =>
    let client := world.clients number
    if client.connection = none then
      some (world.update number
        { client with host := host, port := port, useSsl := useSsl })
    else none
  | .createConnection number now alive established =>
    if (world.clients number).connection = none then
      some (createConnection world number now alive established)
    else none
  | .freeConnection number now keepAlive =>
    let client := world.clients number
    client.connection.map fun connection =>
      { world with
        pool :=
          if keepAlive then
            httpclientpoolRelease now world.pool client.host client.port connection client.useSsl
          else
            httpclientpoolDiscard world.pool client.host client.port
              connection }.update number { client with connection := none }
  | .discardConnection number =>
    let client := world.clients number
    client.connection.map fun connection =>
      { world with
        pool := httpclientpoolDiscard world.pool client.host client.port
          connection }.update number { client with connection := none }
  | .cleanupExpired now =>
    some { world with pool := httpclientpoolCleanupExpired now world.pool }

def clients : System World Action where
  perform := perform

end CWebFramework.HttpClient
