/-
Sioxx.EngineIO.HttpRequest — one HTTP request of the polling transport
(`http_polling_transport::request`, `async_request` and
`async_request_operation`).

`request` runs on a thread of the transport and throws. On the
application's `io_context` each request is an operation of its own, with
one asynchronous operation after the other, and ends in its handler. Any
number of operations can be under way, and their results come in any
order.

A request is the calls that build it: `fields` are those of `set`, in
order, also where a later one replaces an earlier one. Both modes write the
same, so what they put on the wire is a list of `Wire`. An event is on it
from the moment the operation is started, whether it succeeds or not.

Outside the model: the bytes of a message, `prepare_payload`, limits of the
parser, certificates beyond `verify_tls_`, and what a handler does, which
is further actions. At a proxy that refuses, `fail` is called before
`finish`; that its error handler throws, and `finish` is not reached, is
left out. Closing the sockets of an operation (`cancel`) makes
its operation under way fail sooner or later, which any result can do here.
-/
import Sioxx.EngineIO.Proxy
import Sioxx.Lib.Run

namespace Sioxx

open Lib

inductive HttpMethod where
  | get
  | post
  | connect
  deriving DecidableEq, Repr

structure HttpRequest where
  method : HttpMethod
  target : Bytes
  fields : List (Bytes × Bytes)
  body : Bytes := []
  deriving DecidableEq, Repr

structure HttpResponse where
  status : Nat
  body : Bytes
  deriving DecidableEq, Repr

/-- An operation on the network, in the order they come. -/
inductive HttpOp where
  | resolve
  | connect
  | proxyWrite
  | proxyRead
  | sslHandshake
  | write
  | read
  /-- Only `request` ends the stream before it returns. -/
  | shutdown
  deriving DecidableEq, Repr

/-- What others can see of a request. -/
inductive Wire where
  | resolve (host port : Bytes)
  | connect (host port : Bytes)
  /-- A message on the TCP stream. -/
  | clear (r : HttpRequest)
  /-- A TLS handshake, with the server's name and whether it is verified. -/
  | sslHandshake (serverName : Bytes) (verify : Bool)
  /-- A message inside TLS. -/
  | secure (r : HttpRequest)
  deriving DecidableEq, Repr

/-- What a transport is set up with before it sends requests. -/
structure HttpConfig where
  url : UrlParts
  proxy : Option ProxyConfig := none
  extraHeaders : List (Bytes × Bytes) := []
  verifyTls : Bool := true

def hostField : Bytes := ascii "Host"

def userAgentField : Bytes := ascii "User-Agent"

def contentTypeField : Bytes := ascii "Content-Type"

def proxyAuthorizationField : Bytes := ascii "Proxy-Authorization"

/-- `if (!authorization.empty()) set(proxy_authorization, authorization)` -/
def proxyAuthorization (proxy : ProxyConfig) : List (Bytes × Bytes) :=
  if proxy.authorization.isEmpty then [] else [(proxyAuthorizationField, proxy.authorization)]

/-- The CONNECT request of `establish_proxy_tunnel` and
`write_proxy_connect`. -/
def connectRequest (url : UrlParts) (proxy : ProxyConfig) : HttpRequest where
  method := .connect
  target := connectAuthority url
  fields := [(hostField, connectAuthority url), (userAgentField, ascii "sioxx-client")] ++
    proxyAuthorization proxy

namespace HttpConfig

variable (t : HttpConfig)

def endpoint : UrlParts :=
  match t.proxy with
  | some proxy => proxy.endpoint
  | none => t.url

/-- The fields of a request that is not a CONNECT. -/
def requestFields : List (Bytes × Bytes) :=
  [(hostField, authority t.url), (userAgentField, ascii "sioxx-client"),
    (contentTypeField, ascii "text/plain; charset=UTF-8")] ++
  (match t.proxy with
    | some proxy => if t.url.tls then [] else proxyAuthorization proxy
    | none => []) ++
  t.extraHeaders

/-- The target for the proxy is in absolute form, unless there is a tunnel. -/
def requestTarget (target : Bytes) : Bytes :=
  if t.proxy.isSome && !t.url.tls then absoluteHttpTarget t.url target else target

def httpRequest (method : HttpMethod) (target body : Bytes) : HttpRequest where
  method := method
  target := t.requestTarget target
  fields := t.requestFields
  body := body

end HttpConfig

/-! ## `request` -/

/-- The results of the operations of one `request`. -/
structure Network where
  /-- The text of the exception, if the operation throws. -/
  throws : HttpOp → Option Bytes := fun _ => none
  /-- Does `SSL_set_tlsext_host_name` take the host? -/
  serverName : Bool := true
  proxyStatus : Nat := 200
  response : HttpResponse

namespace Network

variable {α : Type} (net : Network)

/-- An operation that puts `started` on the wire, and what comes behind it. -/
def attempt (op : HttpOp) (started : List Wire) (behind : List Wire × Except Bytes α) :
    List Wire × Except Bytes α :=
  match net.throws op with
  | some what => (started, .error what)
  | none => (started ++ behind.1, behind.2)

end Network

/-- `if (status / 100 != 2) throw std::runtime_error(..)` -/
def proxyRefused (status : Nat) : Bytes :=
  ascii "proxy CONNECT returned HTTP " ++ decimal status

namespace HttpConfig

variable (t : HttpConfig) (net : Network)

/-- `establish_proxy_tunnel`, before what comes behind it. -/
def throughTunnel {α : Type} (behind : List Wire × Except Bytes α) :
    List Wire × Except Bytes α :=
  match t.proxy with
  | none => behind
  | some proxy =>
    net.attempt .proxyWrite [.clear (connectRequest t.url proxy)] <|
    net.attempt .proxyRead [] <|
    if net.proxyStatus / 100 ≠ 2 then ([], .error (proxyRefused net.proxyStatus)) else behind

/-- `http_polling_transport::request` -/
def request (method : HttpMethod) (target body : Bytes) :
    List Wire × Except Bytes HttpResponse :=
  let endpoint := t.endpoint
  let req := t.httpRequest method target body
  net.attempt .resolve [.resolve endpoint.host endpoint.port] <|
  if !t.url.tls then
    net.attempt .connect [.connect endpoint.host endpoint.port] <|
    net.attempt .write [.clear req] <|
    net.attempt .read [] <|
    net.attempt .shutdown [] ([], .ok net.response)
  else if !net.serverName then ([], .error (ascii "unable to set TLS server name"))
  else
    net.attempt .connect [.connect endpoint.host endpoint.port] <|
    t.throughTunnel net <|
    net.attempt .sslHandshake [.sslHandshake t.url.host t.verifyTls] <|
    net.attempt .write [.secure req] <|
    net.attempt .read [] <|
    net.attempt .shutdown [] ([], .ok net.response)

end HttpConfig

/-! ## `async_request_operation` -/

/-- The result of an asynchronous operation. -/
inductive HttpCompletion where
  | success
  /-- Resolved, and then `SSL_set_tlsext_host_name` fails. -/
  | noServerName (what : Bytes)
  | answered (status : Nat)
  | response (response : HttpResponse)
  | error (what : Bytes)
  deriving DecidableEq, Repr

/-- What the handler is called with. -/
inductive RequestResult where
  | response (response : HttpResponse)
  | error (what : Bytes)
  /-- `net::error::operation_aborted`, after `transport->fail`. -/
  | aborted
  deriving DecidableEq, Repr

/-- An `async_request_operation`. -/
structure RequestOperation where
  method : HttpMethod
  target : Bytes
  body : Bytes
  finished : Bool := false
  /-- The calls of `handler`. -/
  handled : List RequestResult := []
  wire : List Wire := []

structure AsyncRequests where
  config : HttpConfig
  /-- All operations there have been; the position is the operation. -/
  operations : List RequestOperation := []
  /-- `external_requests_` -/
  external : List Nat := []
  /-- The asynchronous operations under way, each with its owner. -/
  outstanding : List (Nat × HttpOp) := []
  /-- The calls of `transport->fail` by an operation. -/
  failures : List Bytes := []

namespace AsyncRequests

inductive Action where
  /-- `async_request`, by whoever. -/
  | start (method : HttpMethod) (target body : Bytes)
  /-- The result of the `j`-th operation under way. -/
  | complete (j : Nat) (c : HttpCompletion)

def setOperation (s : AsyncRequests) (i : Nat) (op : RequestOperation) : AsyncRequests :=
  { s with operations := s.operations.set i op }

/-- Does somebody still own operation `j`, while `i` is running? -/
def alive (s : AsyncRequests) (i j : Nat) : Bool :=
  j == i || s.outstanding.any fun owned => owned.1 == j

def removeExternalRequest (s : AsyncRequests) (i : Nat) : AsyncRequests :=
  { s with external := s.external.filter fun j => s.alive i j && j != i }

/-- The next asynchronous operation of `i`. -/
def begin (s : AsyncRequests) (i : Nat) (op : RequestOperation) (next : HttpOp)
    (started : List Wire) : AsyncRequests :=
  { s.setOperation i { op with wire := op.wire ++ started } with
    outstanding := s.outstanding ++ [(i, next)] }

def finish (s : AsyncRequests) (i : Nat) (op : RequestOperation)
    (result : RequestResult) : AsyncRequests :=
  if op.finished then s
  else
    (s.setOperation i
      { op with finished := true, handled := op.handled ++ [result] }).removeExternalRequest i

/-- The lambda of an asynchronous operation of `i`. -/
def proceed (s : AsyncRequests) (i : Nat) (op : RequestOperation) :
    HttpOp → HttpCompletion → Option AsyncRequests
  | _, .error what => some (s.finish i op (.error what))
  | .resolve, .success =>
    let endpoint := s.config.endpoint
    some (s.begin i op .connect [.connect endpoint.host endpoint.port])
  | .resolve, .noServerName what =>
    if s.config.url.tls then some (s.finish i op (.error what)) else none
  | .connect, .success =>
    if s.config.url.tls then
      match s.config.proxy with
      | some proxy => some (s.begin i op .proxyWrite [.clear (connectRequest s.config.url proxy)])
      | none =>
        some (s.begin i op .sslHandshake [.sslHandshake s.config.url.host s.config.verifyTls])
    else
      some (s.begin i op .write [.clear (s.config.httpRequest op.method op.target op.body)])
  | .proxyWrite, .success => some (s.begin i op .proxyRead [])
  | .proxyRead, .answered status =>
    if status / 100 ≠ 2 then
      some ({ s with failures := s.failures ++
        [ascii "polling transport: " ++ proxyRefused status] }.finish i op .aborted)
    else some (s.begin i op .sslHandshake [.sslHandshake s.config.url.host s.config.verifyTls])
  | .sslHandshake, .success =>
    some (s.begin i op .write [.secure (s.config.httpRequest op.method op.target op.body)])
  | .write, .success => some (s.begin i op .read [])
  | .read, .response response => some (s.finish i op (.response response))
  | _, _ => none

def step (s : AsyncRequests) : Action → Option AsyncRequests
  | .start method target body =>
    let i := s.operations.length
    let endpoint := s.config.endpoint
    some { s with
      operations := s.operations ++
        [{ method, target, body, wire := [.resolve endpoint.host endpoint.port] }]
      external := s.external ++ [i]
      outstanding := s.outstanding ++ [(i, .resolve)] }
  | .complete j c =>
    match s.outstanding[j]? with
    | none => none
    | some (i, under) =>
      match s.operations[i]? with
      | none => none
      | some op => { s with outstanding := s.outstanding.eraseIdx j }.proceed i op under c

end AsyncRequests

end Sioxx
