/-
Sioxx.EngineIO.HttpRequestTheorems — requests on the application's
`io_context`, and what both kinds of request show the network.

While an operation is under way, the wire of its request is determined by
the configuration (`HttpConfig.wireAt`). That is true of `request`
(`request_wire`) and of every `async_request_operation` (`Inv.under`), and
the results below are read off it.

  * `run_handled` — each request has one asynchronous operation under way
    until its handler is called, once.
  * `run_as_request`, `request_as_run` — the requests of the two modes are
    the same, with the same on the wire and the same results.
  * `requests_private` — in either mode, who gets to see what.
-/
import Sioxx.EngineIO.HttpRequest
import Mathlib.Data.List.Nodup
import Mathlib.Data.List.Perm.Basic

namespace Sioxx

open Lib

/-! ## What is on the wire -/

namespace HttpConfig

variable (t : HttpConfig) (r : HttpRequest)

def tunnelWire : List Wire :=
  match t.proxy with
  | some proxy => [.clear (connectRequest t.url proxy)]
  | none => []

def openingWire : List Wire :=
  [.resolve t.endpoint.host t.endpoint.port, .connect t.endpoint.host t.endpoint.port]

/-- The events up to and with an operation. -/
def wireAt : HttpOp → List Wire
  | .resolve => [.resolve t.endpoint.host t.endpoint.port]
  | .connect => t.openingWire
  | .proxyWrite => t.openingWire ++ t.tunnelWire
  | .proxyRead => t.openingWire ++ t.tunnelWire
  | .sslHandshake =>
    t.openingWire ++ t.tunnelWire ++ [.sslHandshake t.url.host t.verifyTls]
  | _ =>
    if t.url.tls then
      t.openingWire ++ t.tunnelWire ++ [.sslHandshake t.url.host t.verifyTls, .secure r]
    else t.openingWire ++ [.clear r]

/-- Does a request come to this operation? -/
def reaches : HttpOp → Bool
  | .proxyWrite => t.url.tls && t.proxy.isSome
  | .proxyRead => t.url.tls && t.proxy.isSome
  | .sslHandshake => t.url.tls
  | .shutdown => false
  | _ => true

/-- The wire up to some operation. -/
def Shows (wire : List Wire) : Prop := ∃ op, t.reaches op = true ∧ wire = t.wireAt r op

/-! ## `request` -/

variable {t r} {α : Type} {net : Network} {op : HttpOp} {before started : List Wire}
  {behind : List Wire × Except Bytes α}

/-- An operation that throws ends the wire. -/
theorem attempt_shows (hthrown : t.Shows r (before ++ started))
    (hbehind : t.Shows r (before ++ started ++ behind.1)) :
    t.Shows r (before ++ (net.attempt op started behind).1) := by
  unfold Network.attempt
  split
  · exact hthrown
  · rw [← List.append_assoc]
    exact hbehind

/-- Reading shows nothing. -/
theorem attempt_silent (hthrown : t.Shows r before) (hbehind : t.Shows r (before ++ behind.1)) :
    t.Shows r (before ++ (net.attempt op [] behind).1) := by
  refine attempt_shows ?_ ?_ <;> rw [List.append_nil]
  · exact hthrown
  · exact hbehind

/-- The end of a request, in the clear or inside TLS. -/
theorem written_shows (h : t.Shows r (before ++ started)) :
    t.Shows r (before ++ (net.attempt .write started <| net.attempt .read [] <|
      net.attempt .shutdown [] ([], Except.ok net.response)).1) := by
  refine attempt_shows h (attempt_silent h (attempt_silent h ?_))
  rw [List.append_nil]
  exact h

/-- The TLS handshake and the request inside TLS. -/
theorem secured_shows (htls : t.url.tls = true)
    (hbefore : before = t.openingWire ++ t.tunnelWire) :
    t.Shows r (before ++
      (net.attempt .sslHandshake [.sslHandshake t.url.host t.verifyTls] <|
        net.attempt .write [.secure r] <| net.attempt .read [] <|
        net.attempt .shutdown [] ([], Except.ok net.response)).1) := by
  refine attempt_shows ⟨.sslHandshake, htls, by rw [hbefore]; rfl⟩ (written_shows ?_)
  exact ⟨.write, rfl, by simp [wireAt, htls, hbefore]⟩

theorem request_shows (net : Network) (method : HttpMethod) (target body : Bytes) :
    t.Shows (t.httpRequest method target body) (t.request net method target body).1 := by
  unfold request
  rw [← List.nil_append (Prod.fst _)]
  refine attempt_shows ⟨.resolve, rfl, rfl⟩ ?_
  have hconnect : t.Shows (t.httpRequest method target body)
      ([] ++ [.resolve t.endpoint.host t.endpoint.port] ++
        [.connect t.endpoint.host t.endpoint.port]) := ⟨.connect, rfl, rfl⟩
  cases htls : t.url.tls with
  | false =>
    rw [Bool.not_false, if_pos rfl]
    refine attempt_shows hconnect (written_shows ?_)
    exact ⟨.write, rfl, by simp [wireAt, htls, openingWire]⟩
  | true =>
    rw [Bool.not_true, if_neg Bool.false_ne_true]
    split
    · exact ⟨.resolve, rfl, rfl⟩
    refine attempt_shows hconnect ?_
    unfold throughTunnel
    cases hproxy : t.proxy with
    | none => exact secured_shows htls (by simp [openingWire, tunnelWire, hproxy])
    | some proxy =>
      have hreaches : (t.url.tls && t.proxy.isSome) = true := by
        rw [htls, hproxy]
        rfl
      have htunnel : t.Shows (t.httpRequest method target body)
          ([] ++ [.resolve t.endpoint.host t.endpoint.port] ++
            [.connect t.endpoint.host t.endpoint.port] ++
            [.clear (connectRequest t.url proxy)]) :=
        ⟨.proxyRead, hreaches, by simp [wireAt, openingWire, tunnelWire, hproxy]⟩
      refine attempt_shows htunnel (attempt_silent htunnel ?_)
      split
      · rw [List.append_nil]
        exact htunnel
      · exact secured_shows htls (by simp [openingWire, tunnelWire, hproxy])

/-- The network on which one operation throws. -/
def throwingAt (op : HttpOp) (what : Bytes) : Network where
  throws := fun o => if o = op then some what else none
  response := ⟨200, []⟩

theorem request_throwingAt {op : HttpOp} (h : t.reaches op = true) (what : Bytes)
    (method : HttpMethod) (target body : Bytes) :
    t.request (throwingAt op what) method target body
      = (t.wireAt (t.httpRequest method target body) op, .error what) := by
  cases op <;> cases htls : t.url.tls <;> cases hproxy : t.proxy <;>
    simp_all [reaches, request, throughTunnel, Network.attempt, throwingAt, wireAt, openingWire,
      tunnelWire]

theorem request_noServerName (htls : t.url.tls = true) (method : HttpMethod)
    (target body : Bytes) :
    t.request { serverName := false, response := ⟨200, []⟩ } method target body
      = (t.wireAt (t.httpRequest method target body) .resolve,
        .error (ascii "unable to set TLS server name")) := by
  simp [request, Network.attempt, htls, wireAt]

theorem request_refused (h : t.reaches .proxyRead = true) {status : Nat}
    (hstatus : status / 100 ≠ 2) (method : HttpMethod) (target body : Bytes) :
    t.request { proxyStatus := status, response := ⟨200, []⟩ } method target body
      = (t.wireAt (t.httpRequest method target body) .proxyRead,
        .error (proxyRefused status)) := by
  obtain ⟨htls, hproxy⟩ := Bool.and_eq_true_iff.mp h
  obtain ⟨proxy, hproxy⟩ := Option.isSome_iff_exists.mp hproxy
  simp [request, throughTunnel, Network.attempt, htls, hproxy, hstatus, wireAt, openingWire,
    tunnelWire]

theorem request_response (response : HttpResponse) (method : HttpMethod) (target body : Bytes) :
    t.request { response } method target body
      = (t.wireAt (t.httpRequest method target body) .read, .ok response) := by
  cases htls : t.url.tls <;> cases hproxy : t.proxy <;>
    simp [request, throughTunnel, Network.attempt, htls, hproxy, wireAt, openingWire, tunnelWire]

/-! ## Who gets to see what -/

/-- What a request with the configuration may show. -/
inductive Seen (t : HttpConfig) (r : HttpRequest) : Wire → Prop
  | resolve : Seen t r (.resolve t.endpoint.host t.endpoint.port)
  | connect : Seen t r (.connect t.endpoint.host t.endpoint.port)
  | tunnel (proxy : ProxyConfig) (htls : t.url.tls = true) (hproxy : t.proxy = some proxy) :
      Seen t r (.clear (connectRequest t.url proxy))
  | sslHandshake (htls : t.url.tls = true) : Seen t r (.sslHandshake t.url.host t.verifyTls)
  | secure (htls : t.url.tls = true) : Seen t r (.secure r)
  | clear (htls : t.url.tls = false) : Seen t r (.clear r)

theorem seen_opening {event : Wire} (h : event ∈ t.openingWire) : Seen t r event := by
  simp only [openingWire, List.mem_cons, List.not_mem_nil, or_false] at h
  rcases h with rfl | rfl
  · exact .resolve
  · exact .connect

theorem seen_tunnel (htls : t.url.tls = true) {event : Wire}
    (h : event ∈ t.openingWire ++ t.tunnelWire) : Seen t r event := by
  rcases List.mem_append.mp h with h | h
  · exact seen_opening h
  · cases hproxy : t.proxy with
    | none =>
      rw [tunnelWire, hproxy] at h
      cases h
    | some proxy =>
      rw [tunnelWire, hproxy] at h
      cases List.mem_singleton.mp h
      exact .tunnel proxy htls hproxy

theorem wireAt_write : t.wireAt r .write
    = if t.url.tls then
        t.openingWire ++ t.tunnelWire ++ [.sslHandshake t.url.host t.verifyTls, .secure r]
      else t.openingWire ++ [.clear r] := rfl

theorem seen_wireAt (hreaches : t.reaches op = true) {event : Wire}
    (h : event ∈ t.wireAt r op) : Seen t r event := by
  have hwritten (h : event ∈ t.wireAt r .write) : Seen t r event := by
    rw [wireAt_write] at h
    split at h
    · rename_i htls
      rcases List.mem_append.mp h with h | h
      · exact seen_tunnel htls h
      · simp only [List.mem_cons, List.not_mem_nil, or_false] at h
        rcases h with rfl | rfl
        · exact .sslHandshake htls
        · exact .secure htls
    · rename_i htls
      rcases List.mem_append.mp h with h | h
      · exact seen_opening h
      · cases List.mem_singleton.mp h
        exact .clear (Bool.eq_false_iff.mpr htls)
  cases op with
  | resolve =>
    cases List.mem_singleton.mp h
    exact .resolve
  | connect => exact seen_opening h
  | proxyWrite | proxyRead => exact seen_tunnel (Bool.and_eq_true_iff.mp hreaches).1 h
  | sslHandshake =>
    rcases List.mem_append.mp h with h | h
    · exact seen_tunnel hreaches h
    · cases List.mem_singleton.mp h
      exact .sslHandshake hreaches
  | write | read => exact hwritten h
  | shutdown => cases hreaches

/-- A request inside TLS comes after the handshake, and after the CONNECT of
the tunnel if there is a proxy. -/
theorem secure_last (hreaches : t.reaches op = true) {m : HttpRequest}
    (h : .secure m ∈ t.wireAt r op) :
    t.wireAt r op = t.openingWire ++ t.tunnelWire ++
      [.sslHandshake t.url.host t.verifyTls, .secure m] := by
  have hseen : Seen t r (.secure m) := seen_wireAt hreaches h
  cases hseen with
  | secure htls =>
    cases op with
    | write => rw [wireAt_write, if_pos htls]
    | read => exact wireAt_write.trans (if_pos htls)
    | shutdown => cases hreaches
    | resolve | connect | proxyWrite | proxyRead | sslHandshake =>
      cases hproxy : t.proxy <;>
        simp [wireAt, openingWire, tunnelWire, hproxy] at h

theorem proxyAuthorization_value {proxy : ProxyConfig} {field : Bytes × Bytes}
    (h : field ∈ proxyAuthorization proxy) :
    field = (proxyAuthorizationField, proxy.authorization) := by
  unfold proxyAuthorization at h
  split at h
  · cases h
  · exact List.mem_singleton.mp h

/-- The field `Proxy-Authorization` of the CONNECT. -/
theorem connectRequest_authorization {proxy : ProxyConfig} {url : UrlParts} {value : Bytes}
    (h : (proxyAuthorizationField, value) ∈ (connectRequest url proxy).fields) :
    value = proxy.authorization := by
  rcases List.mem_append.mp h with h | h
  · simp only [List.mem_cons, List.not_mem_nil, or_false, Prod.mk.injEq] at h
    rcases h with ⟨h, -⟩ | ⟨h, -⟩ <;> exact absurd h (by decide)
  · exact congrArg Prod.snd (proxyAuthorization_value h)

/-- A request has one of its own if there is a proxy and no tunnel. -/
theorem requestFields_authorization {value : Bytes}
    (h : (proxyAuthorizationField, value) ∈ t.requestFields) :
    (proxyAuthorizationField, value) ∈ t.extraHeaders ∨
      t.url.tls = false ∧ ∃ proxy, t.proxy = some proxy ∧ value = proxy.authorization := by
  rcases List.mem_append.mp h with h | h
  · rcases List.mem_append.mp h with h | h
    · simp only [List.mem_cons, List.not_mem_nil, or_false, Prod.mk.injEq] at h
      rcases h with ⟨h, -⟩ | ⟨h, -⟩ | ⟨h, -⟩ <;> exact absurd h (by decide)
    · cases hproxy : t.proxy with
      | none =>
        rw [hproxy] at h
        cases h
      | some proxy =>
        rw [hproxy] at h
        dsimp only at h
        split at h
        · cases h
        · rename_i htls
          exact .inr ⟨Bool.eq_false_iff.mpr htls, proxy, rfl,
            congrArg Prod.snd (proxyAuthorization_value h)⟩
  · exact .inl h

/-- Who gets to see what of a request. -/
structure Private (t : HttpConfig) (r : HttpRequest) (wire : List Wire) : Prop where
  /-- Names are resolved and connections made for the endpoint alone. -/
  endpoint : ∀ host port, .resolve host port ∈ wire ∨ .connect host port ∈ wire →
    host = t.endpoint.host ∧ port = t.endpoint.port
  /-- In the clear go the request of a plain URL, and the CONNECT. -/
  clear : ∀ m, .clear m ∈ wire → t.url.tls = false ∧ m = r ∨
    t.url.tls = true ∧ ∃ proxy, t.proxy = some proxy ∧ m = connectRequest t.url proxy
  /-- The handshake is for the host of the URL, with or without a proxy. -/
  handshake : ∀ name verify, .sslHandshake name verify ∈ wire →
    name = t.url.host ∧ verify = t.verifyTls
  /-- Inside TLS goes the request, after all there is to set up. -/
  secure : ∀ m, .secure m ∈ wire → t.url.tls = true ∧ m = r ∧
    wire = t.openingWire ++ t.tunnelWire ++ [.sslHandshake t.url.host t.verifyTls, .secure m]
  /-- The credentials of the proxy go to the proxy. -/
  clearCredentials : ∀ m value, .clear m ∈ wire →
    (proxyAuthorizationField, value) ∈ m.fields →
    (proxyAuthorizationField, value) ∈ t.extraHeaders ∨
      ∃ proxy, t.proxy = some proxy ∧ value = proxy.authorization
  /-- They do not go through the tunnel. -/
  secureCredentials : ∀ m value, .secure m ∈ wire →
    (proxyAuthorizationField, value) ∈ m.fields →
    (proxyAuthorizationField, value) ∈ t.extraHeaders

theorem private_wireAt (hreaches : t.reaches op = true) {method : HttpMethod}
    {target body : Bytes} :
    Private t (t.httpRequest method target body)
      (t.wireAt (t.httpRequest method target body) op) := by
  have hseen (event : Wire) (h : event ∈ t.wireAt (t.httpRequest method target body) op) :
      Seen t (t.httpRequest method target body) event := seen_wireAt hreaches h
  refine ⟨?_, ?_, ?_, ?_, ?_, ?_⟩
  · rintro host port (h | h)
    · cases hseen _ h
      exact ⟨rfl, rfl⟩
    · cases hseen _ h
      exact ⟨rfl, rfl⟩
  · intro m h
    cases hseen _ h with
    | tunnel proxy htls hproxy => exact .inr ⟨htls, proxy, hproxy, rfl⟩
    | clear htls => exact .inl ⟨htls, rfl⟩
  · intro name verify h
    cases hseen _ h
    exact ⟨rfl, rfl⟩
  · intro m h
    have hlast := secure_last hreaches h
    cases hseen _ h with
    | secure htls => exact ⟨htls, rfl, hlast⟩
  · intro m value h hfield
    cases hseen _ h with
    | tunnel proxy htls hproxy =>
      exact .inr ⟨proxy, hproxy, connectRequest_authorization hfield⟩
    | clear htls =>
      exact (requestFields_authorization hfield).imp_right fun hproxy => hproxy.2
  · intro m value h hfield
    cases hseen _ h with
    | secure htls =>
      refine (requestFields_authorization hfield).resolve_right fun hproxy => ?_
      cases hproxy.1.symm.trans htls

theorem request_private (t : HttpConfig) (net : Network) (method : HttpMethod)
    (target body : Bytes) :
    Private t (t.httpRequest method target body) (t.request net method target body).1 := by
  obtain ⟨op, hreaches, hwire⟩ := request_shows (t := t) net method target body
  rw [hwire]
  exact private_wireAt hreaches

end HttpConfig

namespace AsyncRequests

variable {s s' : AsyncRequests}

/-! ## What a step does -/

def requestOf (s : AsyncRequests) (op : RequestOperation) : HttpRequest :=
  s.config.httpRequest op.method op.target op.body

/-- The operations that are still to come, with the one under way. -/
def remaining : HttpOp → Nat
  | .resolve => 7
  | .connect => 6
  | .proxyWrite => 5
  | .proxyRead => 4
  | .sslHandshake => 3
  | .write => 2
  | .read => 1
  | .shutdown => 1

theorem remaining_pos (under : HttpOp) : 0 < remaining under := by
  cases under <;> decide

/-- The wire of a request while `under` is under way. -/
def At (s : AsyncRequests) (op : RequestOperation) (under : HttpOp) : Prop :=
  s.config.reaches under = true ∧ op.wire = s.config.wireAt (s.requestOf op) under

/-- How a request ends whose operation `under` was under way. -/
inductive Ending (t : HttpConfig) (failures : List Bytes) (under : HttpOp) : RequestResult → Prop
  | error (what : Bytes) : Ending t failures under (.error what)
  | noServerName (what : Bytes) (hunder : under = .resolve) (htls : t.url.tls = true) :
      Ending t failures under (.error what)
  | refused (status : Nat) (hunder : under = .proxyRead) (hstatus : status / 100 ≠ 2)
      (hfailure : ascii "polling transport: " ++ proxyRefused status ∈ failures) :
      Ending t failures under .aborted
  | response (response : HttpResponse) (hunder : under = .read) :
      Ending t failures under (.response response)

/-- A lambda starts the next operation, or ends the request. -/
theorem proceed_cases {i : Nat} {op : RequestOperation} {under : HttpOp} {c : HttpCompletion}
    (h : s.proceed i op under c = some s') :
    (∃ next started, s' = s.begin i op next started ∧ remaining next < remaining under ∧
      (s.At op under → s.At { op with wire := op.wire ++ started } next)) ∨
    ∃ result failures, s' = { s with failures }.finish i op result ∧
      s.failures <+: failures ∧ Ending s.config failures under result := by
  cases c with
  | error what =>
    have hend : some (s.finish i op (.error what)) = some s' := by
      cases under <;> exact h
    cases hend
    exact .inr ⟨_, s.failures, rfl, List.prefix_rfl, .error what⟩
  | success =>
    cases under with
    | resolve =>
      cases h
      exact .inl ⟨_, _, rfl, by decide, fun hat => ⟨rfl, by rw [hat.2]; rfl⟩⟩
    | connect =>
      simp only [proceed] at h
      split at h
      · rename_i htls
        split at h
        · rename_i proxy hproxy
          cases h
          refine .inl ⟨_, _, rfl, by decide, fun hat => ⟨?_, ?_⟩⟩
          · simp [HttpConfig.reaches, htls, hproxy]
          · simp [hat.2, HttpConfig.wireAt, HttpConfig.tunnelWire, hproxy]
        · rename_i hproxy
          cases h
          refine .inl ⟨_, _, rfl, by decide, fun hat => ⟨htls, ?_⟩⟩
          simp [hat.2, HttpConfig.wireAt, HttpConfig.tunnelWire, hproxy]
      · rename_i htls
        cases h
        refine .inl ⟨_, _, rfl, by decide, fun hat => ⟨rfl, ?_⟩⟩
        simp [hat.2, HttpConfig.wireAt, htls, requestOf]
    | proxyWrite =>
      cases h
      exact .inl ⟨_, _, rfl, by decide, fun hat =>
        ⟨hat.1, by rw [List.append_nil, hat.2]; rfl⟩⟩
    | sslHandshake =>
      cases h
      refine .inl ⟨_, _, rfl, by decide, fun hat => ⟨rfl, ?_⟩⟩
      have htls : s.config.url.tls = true := hat.1
      simp [hat.2, HttpConfig.wireAt, htls, requestOf]
    | write =>
      cases h
      exact .inl ⟨_, _, rfl, by decide, fun hat =>
        ⟨hat.1, by rw [List.append_nil, hat.2]; rfl⟩⟩
    | proxyRead | read | shutdown => cases h
  | noServerName what =>
    cases under with
    | resolve =>
      simp only [proceed] at h
      split at h
      · rename_i htls
        cases h
        exact .inr ⟨_, s.failures, rfl, List.prefix_rfl, .noServerName what rfl htls⟩
      · cases h
    | _ => cases h
  | answered status =>
    cases under with
    | proxyRead =>
      simp only [proceed] at h
      split at h
      · rename_i hstatus
        cases h
        refine .inr ⟨_, _, rfl, List.prefix_append _ _, .refused status rfl hstatus ?_⟩
        exact List.mem_append_right _ List.mem_cons_self
      · cases h
        refine .inl ⟨_, _, rfl, by decide, fun hat => ⟨?_, ?_⟩⟩
        · exact (Bool.and_eq_true_iff.mp hat.1).1
        · rw [hat.2]
          rfl
    | _ => cases h
  | response response =>
    cases under with
    | read =>
      cases h
      exact .inr ⟨_, s.failures, rfl, List.prefix_rfl, .response response rfl⟩
    | _ => cases h

theorem Ending.mono {t : HttpConfig} {failures failures' : List Bytes} {under : HttpOp}
    {result : RequestResult} (h : Ending t failures under result) (hle : failures <+: failures') :
    Ending t failures' under result := by
  cases h with
  | error what => exact .error what
  | noServerName what hunder htls => exact .noServerName what hunder htls
  | refused status hunder hstatus hfailure =>
    exact .refused status hunder hstatus (hle.subset hfailure)
  | response response hunder => exact .response response hunder

/-! ## The invariant -/

def unfinished (operations : List RequestOperation) (i : Nat) : Bool :=
  operations[i]?.any fun op => !op.finished

theorem unfinished_iff {operations : List RequestOperation} {i : Nat} {op : RequestOperation}
    (h : operations[i]? = some op) : unfinished operations i = !op.finished := by
  rw [unfinished, h, Option.any_some]

theorem unfinished_set {operations : List RequestOperation} {i : Nat} {op : RequestOperation}
    (h : operations[i]? = some op) (op' : RequestOperation) (k : Nat) :
    unfinished (operations.set i op') k
      = if k = i then !op'.finished else unfinished operations k := by
  by_cases hk : k = i
  · subst hk
    have hlt := (List.getElem?_eq_some_iff.mp h).1
    rw [if_pos rfl, unfinished, List.getElem?_set_self hlt, Option.any_some]
  · rw [if_neg hk, unfinished, List.getElem?_set_ne (Ne.symm hk), unfinished]

/-- The requests whose handler has not been called. -/
def pending (operations : List RequestOperation) : List Nat :=
  (List.range operations.length).filter (unfinished operations)

theorem pending_nodup (operations : List RequestOperation) : (pending operations).Nodup :=
  List.nodup_range.filter _

theorem pending_set {operations : List RequestOperation} {i : Nat} {op op' : RequestOperation}
    (h : operations[i]? = some op) (hsame : op'.finished = op.finished) :
    pending (operations.set i op') = pending operations := by
  unfold pending
  rw [List.length_set]
  refine List.filter_congr fun k _ => ?_
  rw [unfinished_set h]
  split
  · rename_i hk
    rw [hk, hsame, unfinished_iff h]
  · rfl

theorem pending_finish {operations : List RequestOperation} {i : Nat}
    {op op' : RequestOperation} (h : operations[i]? = some op) (hfinished : op'.finished = true) :
    pending (operations.set i op') = (pending operations).filter (· != i) := by
  unfold pending
  rw [List.length_set, List.filter_filter]
  refine List.filter_congr fun k _ => ?_
  rw [unfinished_set h]
  by_cases hk : k = i
  · simp [hk, hfinished]
  · simp [hk]

theorem pending_append {operations : List RequestOperation} {op : RequestOperation}
    (h : op.finished = false) :
    pending (operations ++ [op]) = pending operations ++ [operations.length] := by
  have hlast : unfinished (operations ++ [op]) operations.length = true := by
    rw [unfinished_iff List.getElem?_concat_length, h]
    rfl
  unfold pending
  rw [List.length_append, List.length_singleton, List.range_succ, List.filter_append,
    List.filter_singleton, hlast]
  refine congrArg (· ++ [operations.length]) (List.filter_congr fun k hk => ?_)
  rw [unfinished, List.getElem?_append_left (List.mem_range.mp hk), unfinished]

theorem mem_pending_iff {operations : List RequestOperation} {i : Nat} {op : RequestOperation}
    (h : operations[i]? = some op) : i ∈ pending operations ↔ op.finished = false := by
  have hlt := (List.getElem?_eq_some_iff.mp h).1
  rw [pending, List.mem_filter, List.mem_range, unfinished_iff h, Bool.not_eq_true']
  exact ⟨fun hi => hi.2, fun hi => ⟨hlt, hi⟩⟩

/-- What every step keeps. -/
structure Inv (s : AsyncRequests) : Prop where
  handled : ∀ op ∈ s.operations, op.handled.length = if op.finished then 1 else 0
  external : s.external = pending s.operations
  outstanding : (s.outstanding.map Prod.fst).Perm s.external
  under : ∀ owned ∈ s.outstanding, ∀ op, s.operations[owned.1]? = some op → s.At op owned.2
  ended : ∀ op ∈ s.operations, ∀ result ∈ op.handled,
    ∃ under, s.At op under ∧ Ending s.config s.failures under result

section Completed

variable {i : Nat} {op : RequestOperation} {under : HttpOp} {p q : List (Nat × HttpOp)}

/-- The owner of an operation under way has not ended, and has no other. -/
theorem Inv.owner (hi : Inv s) (hout : s.outstanding = p ++ (i, under) :: q)
    (hop : s.operations[i]? = some op) :
    op.finished = false ∧ op.handled = [] ∧
      ((p ++ q).map Prod.fst).Perm ((pending s.operations).filter (· != i)) := by
  have hperm := hi.outstanding
  rw [hout, hi.external, List.map_append, List.map_cons] at hperm
  have hmem : i ∈ pending s.operations :=
    hperm.subset (List.mem_append_right _ List.mem_cons_self)
  have hunfinished := (mem_pending_iff hop).mp hmem
  have hhandled := hi.handled op (List.mem_of_getElem? hop)
  rw [hunfinished, if_neg Bool.false_ne_true] at hhandled
  refine ⟨hunfinished, List.length_eq_zero_iff.mp hhandled, ?_⟩
  have hfirst := (List.perm_middle.symm.trans hperm).erase i
  rw [List.erase_cons_head, (pending_nodup _).erase_eq_filter] at hfirst
  rw [List.map_append]
  exact hfirst

theorem Inv.owner_ne (hi : Inv s) (hout : s.outstanding = p ++ (i, under) :: q)
    (hop : s.operations[i]? = some op) {owned : Nat × HttpOp} (h : owned ∈ p ++ q) :
    owned.1 ≠ i := by
  have hmem := (hi.owner hout hop).2.2.subset (List.mem_map_of_mem h)
  simpa using (List.mem_filter.mp hmem).2

/-- The other operations under way are those of requests that stay as they
are. -/
theorem Inv.under_set (hi : Inv s) (hout : s.outstanding = p ++ (i, under) :: q)
    (hop : s.operations[i]? = some op) (op' : RequestOperation) :
    ∀ owned ∈ p ++ q, ∀ x, (s.operations.set i op')[owned.1]? = some x → s.At x owned.2 := by
  intro owned howned x hx
  rw [List.getElem?_set_ne (hi.owner_ne hout hop howned).symm] at hx
  refine hi.under owned ?_ x hx
  rw [hout]
  rcases List.mem_append.mp howned with hp | hq
  · exact List.mem_append_left _ hp
  · exact List.mem_append_right _ (List.mem_cons_of_mem _ hq)

theorem begin_inv (hi : Inv s) (hout : s.outstanding = p ++ (i, under) :: q)
    (hop : s.operations[i]? = some op) {next : HttpOp} {started : List Wire}
    (hat : s.At { op with wire := op.wire ++ started } next) :
    Inv ({ s with outstanding := p ++ q }.begin i op next started) := by
  obtain ⟨-, hhandled, -⟩ := hi.owner hout hop
  have hlt := (List.getElem?_eq_some_iff.mp hop).1
  refine ⟨?_, ?_, ?_, ?_, ?_⟩
  · intro x hx
    rcases List.mem_or_eq_of_mem_set hx with hx | rfl
    · exact hi.handled x hx
    · exact hi.handled op (List.mem_of_getElem? hop)
  · have hsame : pending (s.operations.set i { op with wire := op.wire ++ started })
        = pending s.operations := pending_set hop rfl
    exact hi.external.trans hsame.symm
  · have hperm := hi.outstanding
    rw [hout, List.map_append, List.map_cons] at hperm
    refine List.Perm.trans ?_ hperm
    show ((p ++ q ++ [(i, next)]).map Prod.fst).Perm _
    rw [List.map_append, List.map_append]
    exact (List.perm_append_singleton _ _).trans List.perm_middle.symm
  · intro owned howned x hx
    rcases List.mem_append.mp howned with howned | howned
    · exact hi.under_set hout hop _ owned howned x hx
    · cases List.mem_singleton.mp howned
      have hself : x = { op with wire := op.wire ++ started } :=
        Option.some.inj (hx.symm.trans (List.getElem?_set_self hlt))
      rw [hself]
      exact hat
  · intro x hx result hresult
    rcases List.mem_or_eq_of_mem_set hx with hx | rfl
    · exact hi.ended x hx result hresult
    · change result ∈ op.handled at hresult
      rw [hhandled] at hresult
      cases hresult

theorem finish_inv (hi : Inv s) (hout : s.outstanding = p ++ (i, under) :: q)
    (hop : s.operations[i]? = some op) {result : RequestResult} {failures : List Bytes}
    (hle : s.failures <+: failures) (hend : Ending s.config failures under result) :
    Inv ({ s with outstanding := p ++ q, failures }.finish i op result) := by
  obtain ⟨hunfinished, hhandled, hperm⟩ := hi.owner hout hop
  -- Every other operation that has not ended is owned by one under way.
  have hexternal : s.external.filter (fun j =>
      (j == i || (p ++ q).any fun owned => owned.1 == j) && j != i)
      = (pending s.operations).filter (· != i) := by
    rw [hi.external]
    refine List.filter_congr fun j hj => ?_
    by_cases hji : j = i
    · simp [hji]
    · have hne : (j != i) = true := by simpa using hji
      have howned := hperm.symm.subset (List.mem_filter.mpr ⟨hj, hne⟩)
      have hany : ((p ++ q).any fun owned => owned.1 == j) = true := by
        obtain ⟨owned, hmem, howner⟩ := List.mem_map.mp howned
        exact List.any_eq_true.mpr ⟨owned, hmem, beq_iff_eq.mpr howner⟩
      rw [hany, hne, Bool.or_true, Bool.and_true]
  unfold finish
  rw [hunfinished, if_neg Bool.false_ne_true]
  refine ⟨?_, ?_, ?_, ?_, ?_⟩
  · intro x hx
    rcases List.mem_or_eq_of_mem_set hx with hx | rfl
    · exact hi.handled x hx
    · rw [hhandled]
      rfl
  · exact hexternal.trans (pending_finish hop rfl).symm
  · refine hperm.trans ?_
    rw [← hexternal]
    exact List.Perm.refl _
  · exact hi.under_set hout hop _
  · intro x hx y hy
    rcases List.mem_or_eq_of_mem_set hx with hx | rfl
    · obtain ⟨u, hat, hended⟩ := hi.ended x hx y hy
      exact ⟨u, hat, hended.mono hle⟩
    · rw [hhandled] at hy
      cases List.mem_singleton.mp hy
      refine ⟨under, ?_, hend⟩
      refine hi.under (i, under) ?_ op hop
      rw [hout]
      exact List.mem_append_right _ List.mem_cons_self

end Completed

/-- A result belongs to an operation under way, which is under way no
longer. -/
theorem step_complete {j : Nat} {c : HttpCompletion} (h : step s (.complete j c) = some s') :
    ∃ p i under q op, s.outstanding = p ++ (i, under) :: q ∧ s.operations[i]? = some op ∧
      { s with outstanding := p ++ q }.proceed i op under c = some s' := by
  simp only [step] at h
  split at h
  · cases h
  · rename_i i under hj
    split at h
    · cases h
    · rename_i op hop
      obtain ⟨p, q, hout, -, herase⟩ := pool_split hj
      rw [herase] at h
      exact ⟨p, i, under, q, op, hout, hop, h⟩

theorem start_inv (hi : Inv s) (method : HttpMethod) (target body : Bytes)
    (h : step s (.start method target body) = some s') : Inv s' := by
  cases h
  have hnew : ∀ op ∈ s.outstanding, op.1 < s.operations.length := by
    intro owned howned
    have hmem := hi.outstanding.subset (List.mem_map_of_mem howned)
    rw [hi.external, pending, List.mem_filter, List.mem_range] at hmem
    exact hmem.1
  refine ⟨?_, ?_, ?_, ?_, ?_⟩
  · intro op hop
    rcases List.mem_append.mp hop with hop | hop
    · exact hi.handled op hop
    · cases List.mem_singleton.mp hop
      rfl
  · show s.external ++ [s.operations.length] = _
    rw [hi.external]
    exact (pending_append rfl).symm
  · show ((s.outstanding ++ [(s.operations.length, HttpOp.resolve)]).map Prod.fst).Perm
      (s.external ++ [s.operations.length])
    rw [List.map_append]
    exact hi.outstanding.append_right _
  · intro owned howned op hop
    rcases List.mem_append.mp howned with howned | howned
    · rw [List.getElem?_append_left (hnew owned howned)] at hop
      exact hi.under owned howned op hop
    · cases List.mem_singleton.mp howned
      rw [List.getElem?_concat_length] at hop
      cases hop
      exact ⟨rfl, rfl⟩
  · intro op hop result hresult
    rcases List.mem_append.mp hop with hop | hop
    · exact hi.ended op hop result hresult
    · cases List.mem_singleton.mp hop
      cases hresult

theorem step_inv {a : Action} (hi : Inv s) (h : step s a = some s') : Inv s' := by
  cases a with
  | start method target body => exact start_inv hi method target body h
  | complete j c =>
    obtain ⟨p, i, under, q, op, hout, hop, hproceed⟩ := step_complete h
    rcases proceed_cases hproceed with
      ⟨next, started, rfl, -, hnext⟩ | ⟨result, failures, rfl, hle, hend⟩
    · have hat : s.At op under := by
        refine hi.under (i, under) ?_ op hop
        rw [hout]
        exact List.mem_append_right _ List.mem_cons_self
      exact begin_inv hi hout hop (hnext hat)
    · exact finish_inv hi hout hop hle hend

theorem inv_initial (t : HttpConfig) : Inv { config := t } := by
  refine ⟨?_, rfl, List.Perm.refl _, ?_, ?_⟩ <;> intro x hx <;> cases hx

theorem step_config {a : Action} (h : step s a = some s') : s'.config = s.config := by
  cases a with
  | start method target body =>
    cases h
    rfl
  | complete j c =>
    obtain ⟨p, i, under, q, op, hout, hop, hproceed⟩ := step_complete h
    rcases proceed_cases hproceed with ⟨next, started, rfl, -, -⟩ | ⟨result, failures, rfl, -, -⟩
    · rfl
    · unfold finish
      split <;> rfl

variable {t : HttpConfig} {as : List Action}

theorem run_inv (h : run step { config := t } as = some s) : Inv s ∧ s.config = t := by
  refine run_preserves (fun s => Inv s ∧ s.config = t) ?_ ⟨inv_initial t, rfl⟩ h
  intro s a s' hi hs
  exact ⟨step_inv hi.1 hs, (step_config hs).trans hi.2⟩

/-! ## Each request is answered once -/

def Action.isCompletion : Action → Bool
  | .start _ _ _ => false
  | .complete _ _ => true

/-- The results that can still come. -/
def potential : List (Nat × HttpOp) → Nat
  | [] => 0
  | owned :: rest => remaining owned.2 + potential rest

theorem potential_append (p q : List (Nat × HttpOp)) :
    potential (p ++ q) = potential p + potential q := by
  induction p with
  | nil => simp [potential]
  | cons owned p ih => rw [List.cons_append, potential, potential, ih, Nat.add_assoc]

theorem potential_split (p q : List (Nat × HttpOp)) (i : Nat) (under : HttpOp) :
    potential (p ++ (i, under) :: q) = remaining under + potential (p ++ q) := by
  rw [potential_append, potential_append, potential]
  exact Nat.add_left_comm _ _ _

theorem step_potential {a : Action} (h : step s a = some s') :
    (if a.isCompletion then 1 else 0) + potential s'.outstanding + 7 * s.operations.length
      ≤ potential s.outstanding + 7 * s'.operations.length := by
  cases a with
  | start method target body =>
    cases h
    show 0 + potential (s.outstanding ++ [(s.operations.length, HttpOp.resolve)]) + _ ≤
      _ + 7 * (s.operations ++ [_]).length
    rw [potential_append, List.length_append, List.length_singleton]
    simp only [potential, remaining]
    omega
  | complete j c =>
    obtain ⟨p, i, under, q, op, hout, hop, hproceed⟩ := step_complete h
    have hpos := remaining_pos under
    rw [hout, potential_split, Action.isCompletion, if_pos rfl]
    rcases proceed_cases hproceed with
      ⟨next, started, rfl, hlt, -⟩ | ⟨result, failures, rfl, -, -⟩
    · show 1 + potential (p ++ q ++ [(i, next)]) + _ ≤
        _ + 7 * (s.operations.set i _).length
      rw [potential_append, List.length_set]
      simp only [potential]
      omega
    · have hlength : ({ s with outstanding := p ++ q, failures }.finish i op
          result).operations.length = s.operations.length := by
        unfold finish
        split
        · rfl
        · exact List.length_set
      have hrest : ({ s with outstanding := p ++ q, failures }.finish i op
          result).outstanding = p ++ q := by
        unfold finish
        split <;> rfl
      rw [hlength, hrest]
      omega

theorem run_potential : ∀ {as : List Action} {s s' : AsyncRequests}, run step s as = some s' →
    as.countP Action.isCompletion + potential s'.outstanding + 7 * s.operations.length
      ≤ potential s.outstanding + 7 * s'.operations.length
  | [], s, s', h => by
      cases h
      simp
  | a :: as, s, s', h => by
      obtain ⟨s₁, ha, hrest⟩ := run_cons_iff.mp h
      have hstep := step_potential ha
      have ih := run_potential hrest
      rw [List.countP_cons]
      omega

/-- Requests in any number and order, and results in any order: the handler
of each is called at most once. `external_requests_` holds those it has not
been called for, in order, and these are the owners of the asynchronous
operations under way, one each; no request takes more than seven. -/
theorem run_handled (h : run step { config := t } as = some s) :
    (∀ op ∈ s.operations, op.handled.length = if op.finished then 1 else 0) ∧
      s.external = (List.range s.operations.length).filter (unfinished s.operations) ∧
      (s.outstanding.map Prod.fst).Perm s.external ∧
      as.countP Action.isCompletion ≤ 7 * s.operations.length := by
  obtain ⟨hi, -⟩ := run_inv h
  have hcount := run_potential h
  refine ⟨hi.handled, hi.external, hi.outstanding, ?_⟩
  simp only [potential, List.length_nil] at hcount
  omega

def proxied : HttpConfig where
  url := { scheme := ascii "https", host := ascii "a.b", port := ascii "443",
           target := ascii "/", tls := true }
  proxy := some { endpoint := { scheme := ascii "http", host := ascii "p", port := ascii "80",
                                target := ascii "/", tls := false },
                  authorization := ascii "Basic dTpw" }

/-- Two requests through a proxy, which refuses the second while the first
waits for its response. -/
def twoRequests : List Action :=
  [.start .get (ascii "/x") [], .complete 0 .success, .complete 0 .success,
    .start .post (ascii "/y") (ascii "2"), .complete 1 .success, .complete 0 .success,
    .complete 0 .success, .complete 0 (.answered 200), .complete 1 .success, .complete 0 .success,
    .complete 1 (.answered 407), .complete 0 .success, .complete 0 (.response ⟨200, ascii "3"⟩)]

theorem run_handled_twoRequests :
    ∃ s, run step { config := proxied } (twoRequests.take 12) = some s ∧ s.external = [0] ∧
      (s.outstanding.map Prod.fst).Perm s.external := by
  have hreached : (run step { config := proxied } (twoRequests.take 12)).any
      (fun s => s.external = [0]) = true := by decide +kernel
  obtain ⟨s, hrun, hfacts⟩ := (Option.any_eq_true _ _).mp hreached
  exact ⟨s, hrun, of_decide_eq_true hfacts, (run_handled hrun).2.2.1⟩

/-! ## Both modes make the same requests -/

/-- What `request` returns or throws, for what a handler is called with. -/
inductive SameEnd (failures : List Bytes) : RequestResult → Except Bytes HttpResponse → Prop
  | response (response : HttpResponse) : SameEnd failures (.response response) (.ok response)
  | error (what : Bytes) : SameEnd failures (.error what) (.error what)
  | noServerName (what : Bytes) :
      SameEnd failures (.error what) (.error (ascii "unable to set TLS server name"))
  | refused (status : Nat)
      (hfailure : ascii "polling transport: " ++ proxyRefused status ∈ failures) :
      SameEnd failures .aborted (.error (proxyRefused status))

theorem Ending.as_request {failures : List Bytes} {under : HttpOp} {result : RequestResult}
    (hend : Ending t failures under result) (hreaches : t.reaches under = true)
    (method : HttpMethod) (target body : Bytes) :
    ∃ net : Network, net.throws .shutdown = none ∧
      (t.request net method target body).1
        = t.wireAt (t.httpRequest method target body) under ∧
      SameEnd failures result (t.request net method target body).2 := by
  cases hend with
  | error what =>
    have hne : HttpOp.shutdown ≠ under := by
      rintro rfl
      cases hreaches
    refine ⟨HttpConfig.throwingAt under what, if_neg hne, ?_, ?_⟩ <;>
      rw [HttpConfig.request_throwingAt hreaches]
    exact .error what
  | noServerName what hunder htls =>
    subst hunder
    refine ⟨{ serverName := false, response := ⟨200, []⟩ }, rfl, ?_, ?_⟩ <;>
      rw [HttpConfig.request_noServerName htls]
    exact .noServerName what
  | refused status hunder hstatus hfailure =>
    subst hunder
    refine ⟨{ proxyStatus := status, response := ⟨200, []⟩ }, rfl, ?_, ?_⟩ <;>
      rw [HttpConfig.request_refused hreaches hstatus]
    exact .refused status hfailure
  | response response hunder =>
    subst hunder
    refine ⟨{ response }, rfl, ?_, ?_⟩ <;> rw [HttpConfig.request_response]
    exact .response response

/-- Whatever else is under way: a request whose handler has been called is
one that `request` could have made, with the same on the wire and the same
result. -/
theorem run_as_request (h : run step { config := t } as = some s) {op : RequestOperation}
    (hop : op ∈ s.operations) {result : RequestResult} (hresult : result ∈ op.handled) :
    ∃ net : Network, net.throws .shutdown = none ∧
      (t.request net op.method op.target op.body).1 = op.wire ∧
      SameEnd s.failures result (t.request net op.method op.target op.body).2 := by
  obtain ⟨hi, rfl⟩ := run_inv h
  obtain ⟨under, ⟨hreaches, hwire⟩, hend⟩ := hi.ended op hop result hresult
  obtain ⟨net, hshutdown, hsame, hresult⟩ :=
    hend.as_request hreaches op.method op.target op.body
  exact ⟨net, hshutdown, hsame.trans hwire.symm, hresult⟩

theorem run_as_request_twoRequests :
    ∃ s op, run step { config := proxied } twoRequests = some s ∧ op ∈ s.operations ∧
      ∃ net, (proxied.request net op.method op.target op.body).1 = op.wire ∧
        SameEnd s.failures .aborted (proxied.request net op.method op.target op.body).2 := by
  have hreached : (run step { config := proxied } twoRequests).any
      (fun s => ∃ op ∈ s.operations, .aborted ∈ op.handled) = true := by decide +kernel
  obtain ⟨s, hrun, hfacts⟩ := (Option.any_eq_true _ _).mp hreached
  obtain ⟨op, hop, hresult⟩ := of_decide_eq_true hfacts
  obtain ⟨net, -, hsame⟩ := run_as_request hrun hop hresult
  exact ⟨s, op, hrun, hop, net, hsame⟩

section OneRequest

variable (t) (method : HttpMethod) (target body : Bytes)

/-- One request, with an operation under way. -/
def single (wire : List Wire) (under : HttpOp) : AsyncRequests where
  config := t
  operations := [{ method, target, body, wire }]
  external := [0]
  outstanding := [(0, under)]

/-- The request can end as `request` does, with what was on the wire
before. -/
def Ends (s : AsyncRequests) (before : List Wire)
    (outcome : List Wire × Except Bytes HttpResponse) : Prop :=
  ∃ as s' op result, run step s as = some s' ∧ s'.operations = [op] ∧
    op.wire = before ++ outcome.1 ∧ op.handled = [result] ∧ SameEnd s'.failures result outcome.2

variable {t method target body} {net : Network} {under : HttpOp} {before started : List Wire}
  {behind : List Wire × Except Bytes HttpResponse}

theorem Ends.of_step {a : Action} (hs : step s a = some s') (h : Ends s' before behind) :
    Ends s before behind := by
  obtain ⟨as, u, op, result, hrun, hends⟩ := h
  exact ⟨a :: as, u, op, result, run_cons_iff.mpr ⟨s', hs, hrun⟩, hends⟩

/-- The last step of a request. -/
theorem single_finish {c : HttpCompletion} {wire : List Wire} {result : RequestResult}
    {failures : List Bytes} {outcome : Except Bytes HttpResponse}
    (hs : step (single t method target body wire under) (.complete 0 c)
      = some { config := t, failures,
               operations := [{ method, target, body, wire, finished := true,
                                handled := [result] }] })
    (hsame : SameEnd failures result outcome) :
    Ends (single t method target body wire under) wire ([], outcome) := by
  refine ⟨[.complete 0 c], _, _, _, run_cons_iff.mpr ⟨_, hs, rfl⟩, rfl, ?_, rfl, hsame⟩
  exact (List.append_nil wire).symm

/-- An operation that throws is one that fails. -/
theorem attempt_ends
    (hbehind : Ends (single t method target body (before ++ started) under)
      (before ++ started) behind) :
    Ends (single t method target body (before ++ started) under) before
      (net.attempt under started behind) := by
  unfold Network.attempt
  split
  · rename_i what hthrows
    have hs : step (single t method target body (before ++ started) under)
        (.complete 0 (.error what))
        = some { config := t, failures := [],
                 operations := [{ method, target, body, wire := before ++ started,
                                  finished := true, handled := [.error what] }] } := by
      cases under <;> rfl
    obtain ⟨as, u, op, result, hrun, hop, hwire, hends⟩ := single_finish hs (.error what)
    exact ⟨as, u, op, result, hrun, hop, hwire.trans (List.append_nil _), hends⟩
  · obtain ⟨as, u, op, result, hrun, hop, hwire, hends⟩ := hbehind
    exact ⟨as, u, op, result, hrun, hop, hwire.trans (List.append_assoc _ _ _), hends⟩

theorem attempt_ends_silent (hbehind : Ends (single t method target body before under)
      before behind) :
    Ends (single t method target body before under) before (net.attempt under [] behind) := by
  have h : Ends (single t method target body (before ++ []) under) before
      (net.attempt under [] behind) := by
    refine attempt_ends ?_
    rw [List.append_nil]
    exact hbehind
  rw [List.append_nil] at h
  exact h

theorem written_ends (hshutdown : net.throws .shutdown = none) :
    Ends (single t method target body (before ++ started) .write) before
      (net.attempt .write started <| net.attempt .read [] <|
        net.attempt .shutdown [] ([], .ok net.response)) := by
  have hwritten : step (single t method target body (before ++ started) .write)
      (.complete 0 .success) = some (single t method target body (before ++ started) .read) := by
    simp [step, single, proceed, begin, setOperation]
  have hread : step (single t method target body (before ++ started) .read)
      (.complete 0 (.response net.response))
      = some { config := t, failures := [],
               operations := [{ method, target, body, wire := before ++ started,
                                finished := true, handled := [.response net.response] }] } :=
    rfl
  have hsilent : net.attempt .shutdown [] ([], Except.ok net.response)
      = ([], .ok net.response) := by
    rw [Network.attempt, hshutdown, List.nil_append]
  rw [hsilent]
  exact attempt_ends (.of_step hwritten (attempt_ends_silent
    (single_finish hread (.response net.response))))

theorem secured_ends (hshutdown : net.throws .shutdown = none) :
    Ends (single t method target body
        (before ++ [.sslHandshake t.url.host t.verifyTls]) .sslHandshake) before
      (net.attempt .sslHandshake [.sslHandshake t.url.host t.verifyTls] <|
        net.attempt .write [.secure (t.httpRequest method target body)] <|
        net.attempt .read [] <| net.attempt .shutdown [] ([], .ok net.response)) := by
  have hs : step (single t method target body
      (before ++ [.sslHandshake t.url.host t.verifyTls]) .sslHandshake) (.complete 0 .success)
      = some (single t method target body (before ++ [.sslHandshake t.url.host t.verifyTls] ++
          [.secure (t.httpRequest method target body)]) .write) := rfl
  exact attempt_ends (.of_step hs (written_ends hshutdown))

/-- From the connection on, on TLS. -/
theorem connected_ends (htls : t.url.tls = true) (hshutdown : net.throws .shutdown = none) :
    Ends (single t method target body (before ++ [.connect t.endpoint.host t.endpoint.port])
        .connect) before
      (net.attempt .connect [.connect t.endpoint.host t.endpoint.port] <|
        t.throughTunnel net <|
        net.attempt .sslHandshake [.sslHandshake t.url.host t.verifyTls] <|
        net.attempt .write [.secure (t.httpRequest method target body)] <|
        net.attempt .read [] <| net.attempt .shutdown [] ([], .ok net.response)) := by
  cases hproxy : t.proxy with
  | none =>
    have hs : step (single t method target body
        (before ++ [.connect t.endpoint.host t.endpoint.port]) .connect) (.complete 0 .success)
        = some (single t method target body (before ++
            [.connect t.endpoint.host t.endpoint.port] ++
            [.sslHandshake t.url.host t.verifyTls]) .sslHandshake) := by
      simp [step, single, proceed, begin, setOperation, htls, hproxy]
    simp only [HttpConfig.throughTunnel, hproxy]
    exact attempt_ends (.of_step hs (secured_ends hshutdown))
  | some proxy =>
    have hconnected : step (single t method target body
        (before ++ [.connect t.endpoint.host t.endpoint.port]) .connect) (.complete 0 .success)
        = some (single t method target body (before ++
            [.connect t.endpoint.host t.endpoint.port] ++ [.clear (connectRequest t.url proxy)])
            .proxyWrite) := by
      simp [step, single, proceed, begin, setOperation, htls, hproxy]
    have hwritten (wire : List Wire) : step (single t method target body wire .proxyWrite)
        (.complete 0 .success) = some (single t method target body wire .proxyRead) := by
      simp [step, single, proceed, begin, setOperation]
    simp only [HttpConfig.throughTunnel, hproxy]
    refine attempt_ends (.of_step hconnected (attempt_ends (.of_step (hwritten _)
      (attempt_ends_silent ?_))))
    split
    · rename_i hstatus
      refine single_finish (c := .answered net.proxyStatus) ?_
        (.refused net.proxyStatus (List.mem_singleton.mpr rfl))
      simp [step, single, proceed, finish, setOperation, removeExternalRequest, hstatus]
    · rename_i hstatus
      refine .of_step (a := .complete 0 (.answered net.proxyStatus)) ?_ (secured_ends hshutdown)
      simp [step, single, proceed, begin, setOperation, hstatus]

/-- Whatever `request` shows and returns, up to a failing end of the stream,
`async_request` can show and pass to its handler. -/
theorem request_as_run (t : HttpConfig) (net : Network) (hshutdown : net.throws .shutdown = none)
    (method : HttpMethod) (target body : Bytes) :
    ∃ as s op result, run step { config := t } as = some s ∧ s.operations = [op] ∧
      op.wire = (t.request net method target body).1 ∧ op.handled = [result] ∧
      SameEnd s.failures result (t.request net method target body).2 := by
  have hstart : step { config := t } (.start method target body)
      = some (single t method target body
          ([] ++ [.resolve t.endpoint.host t.endpoint.port]) .resolve) := rfl
  have hresolved (wire : List Wire) : step (single t method target body wire .resolve)
      (.complete 0 .success) = some (single t method target body
        (wire ++ [.connect t.endpoint.host t.endpoint.port]) .connect) := rfl
  suffices hends : Ends { config := t } [] (t.request net method target body) from hends
  refine .of_step hstart ?_
  unfold HttpConfig.request
  refine attempt_ends ?_
  cases htls : t.url.tls with
  | false =>
    have hconnected (wire : List Wire) : step (single t method target body wire .connect)
        (.complete 0 .success) = some (single t method target body
          (wire ++ [.clear (t.httpRequest method target body)]) .write) := by
      simp [step, single, proceed, begin, setOperation, htls]
    rw [Bool.not_false, if_pos rfl]
    exact .of_step (hresolved _)
      (attempt_ends (.of_step (hconnected _) (written_ends hshutdown)))
  | true =>
    rw [Bool.not_true, if_neg Bool.false_ne_true]
    split
    · have hs (wire : List Wire) : step (single t method target body wire .resolve)
          (.complete 0 (.noServerName []))
          = some { config := t, failures := [],
                   operations := [{ method, target, body, wire, finished := true,
                                    handled := [.error []] }] } := by
        simp [step, single, proceed, finish, setOperation, removeExternalRequest, htls]
      exact single_finish (hs _) (.noServerName [])
    · exact .of_step (hresolved _) (connected_ends htls hshutdown)

end OneRequest

theorem request_as_run_refused :
    ∃ as s op result, run step { config := proxied } as = some s ∧ s.operations = [op] ∧
      op.wire = (proxied.request { proxyStatus := 407, response := ⟨200, []⟩ } .get
        (ascii "/x") []).1 ∧ op.handled = [result] ∧
      SameEnd s.failures result (proxied.request { proxyStatus := 407, response := ⟨200, []⟩ }
        .get (ascii "/x") []).2 := by
  exact request_as_run proxied { proxyStatus := 407, response := ⟨200, []⟩ } rfl .get
    (ascii "/x") []

/-! ## What a request shows -/

theorem Inv.shown (hi : Inv s) {op : RequestOperation} (hop : op ∈ s.operations) :
    ∃ under, s.At op under := by
  obtain ⟨i, hget⟩ := List.mem_iff_getElem?.mp hop
  cases hfinished : op.finished with
  | false =>
    have hpending := (mem_pending_iff hget).mpr hfinished
    rw [← hi.external] at hpending
    obtain ⟨owned, howned, howner⟩ := List.mem_map.mp (hi.outstanding.symm.subset hpending)
    exact ⟨owned.2, hi.under owned howned op (by rw [howner]; exact hget)⟩
  | true =>
    have hlength := hi.handled op hop
    rw [hfinished, if_pos rfl] at hlength
    obtain ⟨result, hresult⟩ := List.length_eq_one_iff.mp hlength
    obtain ⟨under, hat, -⟩ := hi.ended op hop result (by simp [hresult])
    exact ⟨under, hat⟩

/-- **Who gets to see what**, in either mode, however a request ends and
whatever else is under way. -/
theorem requests_private (t : HttpConfig) :
    (∀ net method target body, HttpConfig.Private t (t.httpRequest method target body)
      (t.request net method target body).1) ∧
    ∀ as s, run step { config := t } as = some s → ∀ op ∈ s.operations,
      HttpConfig.Private t (t.httpRequest op.method op.target op.body) op.wire := by
  refine ⟨HttpConfig.request_private t, fun as s h op hop => ?_⟩
  obtain ⟨hi, rfl⟩ := run_inv h
  obtain ⟨under, hreaches, hwire⟩ := hi.shown hop
  rw [hwire]
  exact HttpConfig.private_wireAt hreaches

theorem requests_private_twoRequests :
    ∃ s op, run step { config := proxied } twoRequests = some s ∧ op ∈ s.operations ∧
      op.wire.length = 5 ∧
      HttpConfig.Private proxied (proxied.httpRequest op.method op.target op.body) op.wire := by
  have hreached : (run step { config := proxied } twoRequests).any
      (fun s => ∃ op ∈ s.operations, op.wire.length = 5) = true := by decide +kernel
  obtain ⟨s, hrun, hfacts⟩ := (Option.any_eq_true _ _).mp hreached
  obtain ⟨op, hop, hlength⟩ := of_decide_eq_true hfacts
  exact ⟨s, op, hrun, hop, hlength, (requests_private proxied).2 twoRequests s hrun op hop⟩

end AsyncRequests

end Sioxx
