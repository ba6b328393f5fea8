/-
Sioxx.EngineIO.Proxy — the proxy of a transport (`proxy.cpp`).

`makeProxyConfig` is called with the application's options before a
transport connects. A proxy is an `http://` URI of an authority alone;
everything else is an exception. The three functions below it are what the
transports tell the proxy about the server.
-/
import Sioxx.EngineIO.Polling
import Sioxx.EngineIO.Url

namespace Sioxx

open Lib

structure ProxyConfig where
  endpoint : UrlParts
  authorization : Bytes
  deriving DecidableEq, Repr

inductive ProxyError where
  /-- `std::invalid_argument("sioxx: proxy URI must not contain a query or fragment")` -/
  | queryOrFragment
  | url (error : UrlError)
  /-- `std::invalid_argument("sioxx: proxy URI must use http://")` -/
  | scheme
  /-- `std::invalid_argument("sioxx: proxy URI must not contain a path")` -/
  | path
  deriving DecidableEq, Repr

/-- `uri.find_first_of("?#", i) != npos` -/
def hasQueryOrFragment (uri : Bytes) (i : Nat) : Bool :=
  (uri.drop i).any fun b => b == byteOf '?' || b == byteOf '#'

/-- The value of `Proxy-Authorization`; empty without credentials. -/
def basicAuthorization (username password : Bytes) : Bytes :=
  if !username.isEmpty || !password.isEmpty then
    ascii "Basic " ++ base64Encode (username ++ ascii ":" ++ password)
  else []

def makeProxyConfig (uri username password : Bytes) : Except ProxyError (Option ProxyConfig) :=
  if uri.isEmpty then .ok none
  else if (findText schemeSeparator uri).any fun schemeEnd =>
      hasQueryOrFragment uri (schemeEnd + 3) then
    .error .queryOrFragment
  else
    match parseWsUrl uri with
    | .error error => .error (.url error)
    | .ok endpoint =>
      if endpoint.scheme ≠ ascii "http" then .error .scheme
      else if endpoint.target ≠ ascii "/" then .error .path
      else .ok (some { endpoint, authorization := basicAuthorization username password })

def authority (url : UrlParts) : Bytes :=
  let defaultPort := (!url.tls && url.port == ascii "80") || (url.tls && url.port == ascii "443")
  if defaultPort then url.host else url.host ++ ascii ":" ++ url.port

def connectAuthority (url : UrlParts) : Bytes := url.host ++ ascii ":" ++ url.port

def absoluteHttpTarget (url : UrlParts) (target : Bytes) : Bytes :=
  (if url.tls then ascii "https://" else ascii "http://") ++ authority url ++ target

end Sioxx
