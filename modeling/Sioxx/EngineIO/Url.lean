/-
Sioxx.EngineIO.Url — the URL a transport connects to (`engineio_url.cpp`,
`url_parse.cpp`).

`buildEngineioUrl` cuts the application's URI down to scheme and authority
and puts the Engine.IO path and query behind it; `parseWsUrl` takes the
outcome apart again for the transport. Both scan with positions, and `none`
is `npos`, which is larger than any position.

`std::isalnum` is that of the "C" locale. A `std::map` is the list of its
entries in the order of the keys, each key once (`QueryMap`).
-/
import Sioxx.Lib.Query

namespace Sioxx

open Lib

inductive UrlError where
  /-- `std::invalid_argument("sioxx: invalid url, missing scheme: " + url)` -/
  | missingScheme (url : Bytes)
  /-- `std::invalid_argument("sioxx: reserved Engine.IO query parameter: " + key)` -/
  | reservedParameter (key : Bytes)
  deriving DecidableEq, Repr

/-! ## `url_parse.cpp` -/

structure UrlParts where
  scheme : Bytes
  host : Bytes
  port : Bytes
  target : Bytes
  tls : Bool
  deriving DecidableEq, Repr

def schemeSeparator : Bytes := ascii "://"

def slash : UInt8 := byteOf '/'

def colon : UInt8 := byteOf ':'

/-- The position of the colon before the port. -/
def portColon (authority : Bytes) : Option Nat :=
  match findLast colon authority with
  | none => none
  | some last =>
    match findFrom authority (byteOf ']') 0 with
    | none => some last
    -- IPv6 literal with a port after the closing ']', e.g. [::1]:8080
    | some bracket => if bracket < last then findFrom authority colon bracket else some last

/-- Host and port of an authority. -/
def hostAndPort (authority : Bytes) (tls : Bool) : Bytes × Bytes :=
  match portColon authority with
  | some i => (authority.take i, authority.drop (i + 1))
  | none => (authority, if tls then ascii "443" else ascii "80")

def parseWsUrl (url : Bytes) : Except UrlError UrlParts :=
  match findText schemeSeparator url with
  | none => .error (.missingScheme url)
  | some schemeEnd =>
    let scheme := url.take schemeEnd
    let tls := scheme == ascii "wss" || scheme == ascii "https"
    let hostStart := schemeEnd + 3
    let pathStart := findFrom url slash hostStart
    let authority :=
      match pathStart with
      | none => url.drop hostStart
      | some i => substr url hostStart (i - hostStart)
    let target :=
      match pathStart with
      | none => ascii "/"
      | some i => url.drop i
    let (host, port) := hostAndPort authority tls
    .ok { scheme, host, port, target, tls }

/-! ## `engineio_url.cpp` -/

/-- `std::isalnum` -/
def isAlnum (b : UInt8) : Bool :=
  isDigit b || decide (65 ≤ b.toNat ∧ b.toNat ≤ 90) || decide (97 ≤ b.toNat ∧ b.toNat ≤ 122)

/-- The bytes `encode_query_component` writes as they are. -/
def unescaped (b : UInt8) : Bool :=
  isAlnum b || b == byteOf '-' || b == byteOf '.' || b == byteOf '_' || b == byteOf '~'

def encodeQueryComponent (value : Bytes) : Bytes := percentEncode unescaped value

/-- A `std::map<std::string, std::string>`. -/
structure QueryMap where
  entries : List (Bytes × Bytes)
  ordered : entries.Pairwise fun a b => a.1 < b.1

/-- The parameters the client itself sets. -/
def reservedKeys : List Bytes := [ascii "EIO", ascii "transport", ascii "sid"]

/-- What stands before the first `://`, if there is one. -/
def uriScheme (uri : Bytes) : Bytes :=
  match findText schemeSeparator uri with
  | none => []
  | some schemeEnd => uri.take schemeEnd

/-- The URI with a WebSocket scheme. -/
def withWsScheme (uri : Bytes) : Bytes :=
  let scheme := uriScheme uri
  if scheme = ascii "http" then ascii "ws" ++ uri.drop 4
  else if scheme = ascii "https" then ascii "wss" ++ uri.drop 5
  else if scheme ≠ ascii "ws" ∧ scheme ≠ ascii "wss" then ascii "ws://" ++ uri
  else uri

/-- Scheme and authority. -/
def urlBase (url : Bytes) : Bytes :=
  let authorityStart :=
    match findText schemeSeparator url with
    | some schemeEnd => schemeEnd + 3
    | none => 2  -- `npos + 3`
  let pathStart := (findFrom url slash authorityStart).getD url.length
  let queryStart := (findFrom url (byteOf '?') authorityStart).getD url.length
  url.take (min pathStart queryStart)

/-- The path with a slash at both ends. -/
def normalizedPath (path : Bytes) : Bytes :=
  let path := if path.isEmpty then ascii "/socket.io/" else path
  let path := if path.head? ≠ some slash then slash :: path else path
  if path.getLast? ≠ some slash then path ++ [slash] else path

/-- The loop over the query map. -/
def appendQuery : Bytes → List (Bytes × Bytes) → Except UrlError Bytes
  | base, [] => .ok base
  | base, (key, value) :: rest =>
    if key ∈ reservedKeys then .error (.reservedParameter key)
    else
      appendQuery
        (base ++ (ascii "&" ++ encodeQueryComponent key ++ ascii "=" ++ encodeQueryComponent value))
        rest

def buildEngineioUrl (uri path : Bytes) (query : QueryMap) (transport : Bytes) :
    Except UrlError Bytes :=
  let base := urlBase (withWsScheme uri) ++ normalizedPath path
  let base := base ++ (ascii "?EIO=4&transport=" ++ encodeQueryComponent transport)
  appendQuery base query.entries

end Sioxx
