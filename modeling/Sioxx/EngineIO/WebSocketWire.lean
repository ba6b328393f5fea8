/-
Sioxx.EngineIO.WebSocketWire — what a `websocket_transport` shows the
network on its way to the server.

The operations of the chain are those of `WebSocketLoop`; here each of them
is what it puts on the wire. `set_proxy` and the other setters come before
`connect`. Through a proxy there is a tunnel for plain URLs, too, other than
for the requests of the polling transport.

The fields of the handshake are those the transport sets; `version` stands
for `BOOST_BEAST_VERSION_STRING`. What follows the handshake is frames.

  * `run_wire` — in every run the wire is the beginning of one list, nothing
    is behind the CONNECT before the proxy agrees, and the credentials of the
    proxy are nowhere else.
-/
import Sioxx.EngineIO.HttpRequestTheorems
import Sioxx.EngineIO.WebSocketLoopTheorems
import Mathlib.Data.List.Infix

namespace Sioxx

open Lib

namespace HttpConfig

variable (t : HttpConfig) (version : Bytes)

/-- The request of `async_handshake(url_.host, url_.target)`, after the
decorator. -/
def upgradeRequest : HttpRequest where
  method := .get
  target := t.url.target
  fields := [(hostField, t.url.host), (userAgentField, version ++ ascii " sioxx-client")] ++
    t.extraHeaders

def upgradeWire : List Wire :=
  if t.url.tls then [.secure (t.upgradeRequest version)] else [.clear (t.upgradeRequest version)]

/-- What an operation of the chain puts on the wire. -/
def opWire : WsOp → List Wire
  | .resolve => [.resolve t.endpoint.host t.endpoint.port]
  | .connect => [.connect t.endpoint.host t.endpoint.port]
  | .proxyWrite => t.tunnelWire
  | .proxyRead => []
  | .sslHandshake => [.sslHandshake t.url.host t.verifyTls]
  | .handshake => t.upgradeWire version
  | .read => []

/-- The wire of a connection up to its first frame. -/
def connectionWire : List Wire :=
  t.openingWire ++ t.tunnelWire ++
    (if t.url.tls then [.sslHandshake t.url.host t.verifyTls] else []) ++ t.upgradeWire version

theorem flatMap_opChain :
    (opChain t.url.tls t.proxy.isSome).flatMap (t.opWire version) = t.connectionWire version := by
  unfold opChain connectionWire openingWire
  cases hproxy : t.proxy with
  | none => cases t.url.tls <;> simp [opWire, tunnelWire, hproxy]
  | some proxy => cases t.url.tls <;> simp [opWire, tunnelWire, hproxy]

theorem flatMap_reads (n : Nat) :
    (List.replicate n WsOp.read).flatMap (t.opWire version) = [] := by
  rw [List.flatMap_eq_nil_iff]
  intro op hop
  rw [List.eq_of_mem_replicate hop]
  rfl

/-- What a connection may show. -/
inductive StreamSeen : Wire → Prop
  | resolve : StreamSeen (.resolve t.endpoint.host t.endpoint.port)
  | connect : StreamSeen (.connect t.endpoint.host t.endpoint.port)
  | tunnel (proxy : ProxyConfig) (hproxy : t.proxy = some proxy) :
      StreamSeen (.clear (connectRequest t.url proxy))
  | sslHandshake (htls : t.url.tls = true) :
      StreamSeen (.sslHandshake t.url.host t.verifyTls)
  | secure (htls : t.url.tls = true) : StreamSeen (.secure (t.upgradeRequest version))
  | clear (htls : t.url.tls = false) : StreamSeen (.clear (t.upgradeRequest version))

variable {t version}

theorem streamSeen_tunnel {event : Wire} (h : event ∈ t.tunnelWire) :
    StreamSeen t version event := by
  cases hproxy : t.proxy with
  | none =>
    rw [tunnelWire, hproxy] at h
    cases h
  | some proxy =>
    rw [tunnelWire, hproxy] at h
    cases List.mem_singleton.mp h
    exact .tunnel proxy hproxy

theorem streamSeen_upgrade {event : Wire} (h : event ∈ t.upgradeWire version) :
    StreamSeen t version event := by
  unfold upgradeWire at h
  split at h
  · rename_i htls
    cases List.mem_singleton.mp h
    exact .secure htls
  · rename_i htls
    cases List.mem_singleton.mp h
    exact .clear (Bool.eq_false_iff.mpr htls)

theorem streamSeen_opWire {op : WsOp} (hop : op = .sslHandshake → t.url.tls = true)
    {event : Wire} (h : event ∈ t.opWire version op) : StreamSeen t version event := by
  cases op with
  | resolve =>
    cases List.mem_singleton.mp h
    exact .resolve
  | connect =>
    cases List.mem_singleton.mp h
    exact .connect
  | proxyWrite => exact streamSeen_tunnel h
  | sslHandshake =>
    cases List.mem_singleton.mp h
    exact .sslHandshake (hop rfl)
  | handshake => exact streamSeen_upgrade h
  | proxyRead | read => cases h

/-- The upgrade has no field of the proxy. -/
theorem upgradeRequest_authorization {value : Bytes}
    (h : (proxyAuthorizationField, value) ∈ (t.upgradeRequest version).fields) :
    (proxyAuthorizationField, value) ∈ t.extraHeaders := by
  rcases List.mem_append.mp h with h | h
  · simp only [List.mem_cons, List.not_mem_nil, or_false, Prod.mk.injEq] at h
    rcases h with ⟨h, -⟩ | ⟨h, -⟩ <;> exact absurd h (by decide)
  · exact h

/-- Who gets to see what of a connection. -/
structure StreamPrivate (t : HttpConfig) (version : Bytes) (wire : List Wire) : Prop where
  /-- Names are resolved and connections made for the endpoint alone. -/
  endpoint : ∀ host port, .resolve host port ∈ wire ∨ .connect host port ∈ wire →
    host = t.endpoint.host ∧ port = t.endpoint.port
  /-- In the clear go the CONNECT, and the upgrade to a plain URL. -/
  clear : ∀ m, .clear m ∈ wire → (∃ proxy, t.proxy = some proxy ∧ m = connectRequest t.url proxy) ∨
    t.url.tls = false ∧ m = t.upgradeRequest version
  handshake : ∀ name verify, .sslHandshake name verify ∈ wire →
    t.url.tls = true ∧ name = t.url.host ∧ verify = t.verifyTls
  secure : ∀ m, .secure m ∈ wire → t.url.tls = true ∧ m = t.upgradeRequest version
  /-- The credentials of the proxy are in the CONNECT. -/
  credentials : ∀ m value, .clear m ∈ wire ∨ .secure m ∈ wire →
    (proxyAuthorizationField, value) ∈ m.fields →
    (proxyAuthorizationField, value) ∈ t.extraHeaders ∨
      ∃ proxy, t.proxy = some proxy ∧ m = connectRequest t.url proxy ∧
        value = proxy.authorization

theorem streamPrivate_of_seen {wire : List Wire}
    (hseen : ∀ event ∈ wire, StreamSeen t version event) : StreamPrivate t version wire := by
  refine ⟨?_, ?_, ?_, ?_, ?_⟩
  · rintro host port (h | h)
    · cases hseen _ h
      exact ⟨rfl, rfl⟩
    · cases hseen _ h
      exact ⟨rfl, rfl⟩
  · intro m h
    cases hseen _ h with
    | tunnel proxy hproxy => exact .inl ⟨proxy, hproxy, rfl⟩
    | clear htls => exact .inr ⟨htls, rfl⟩
  · intro name verify h
    cases hseen _ h with
    | sslHandshake htls => exact ⟨htls, rfl, rfl⟩
  · intro m h
    cases hseen _ h with
    | secure htls => exact ⟨htls, rfl⟩
  · rintro m value (h | h) hfield
    · cases hseen _ h with
      | tunnel proxy hproxy =>
        exact .inr ⟨proxy, hproxy, rfl, connectRequest_authorization hfield⟩
      | clear htls => exact .inl (upgradeRequest_authorization hfield)
    · cases hseen _ h with
      | secure htls => exact .inl (upgradeRequest_authorization hfield)

end HttpConfig

namespace WebSocketLoop

variable {t : HttpConfig} {version : Bytes} {as : List Action} {s : WebSocketLoop}

/-- The wire of a connection. -/
def wire (s : WebSocketLoop) (t : HttpConfig) (version : Bytes) : List Wire :=
  s.ops.flatMap (t.opWire version)

/-- An operation behind the tunnel comes after the answer of the proxy. -/
theorem Chained.answered (hc : Chained s) (hproxied : s.proxied = true) {op : WsOp}
    (hop : op ∈ s.ops) (hbehind : op = .sslHandshake ∨ op = .handshake ∨ op = .read) :
    ∃ status, .proxyAnswered status ∈ s.completions ∧ status / 100 = 2 := by
  have hearly : ∀ k < 4, opAt s.tls s.proxied k ≠ .sslHandshake ∧
      opAt s.tls s.proxied k ≠ .handshake ∧ opAt s.tls s.proxied k ≠ .read := by
    rw [hproxied]
    cases s.tls <;> decide
  have hread : opAt s.tls s.proxied 3 = .proxyRead := by
    rw [hproxied]
    cases s.tls <;> rfl
  have hlong : 4 < s.ops.length := by
    rw [hc.ops] at hop
    obtain ⟨k, hk, rfl⟩ := List.mem_map.mp hop
    by_contra hshort
    obtain ⟨hssl, hhandshake, hreading⟩ := hearly k (by have := List.mem_range.mp hk; omega)
    rcases hbehind with h | h | h
    · exact hssl h
    · exact hhandshake h
    · exact hreading h
  have hdone : 3 < s.completions.length := by
    have hcount := hc.count
    split at hcount <;> omega
  -- The fourth result is that of the proxy.
  have hfourth : s.completions[3].op = .proxyRead := by
    have hmap : (s.completions.map WsCompletion.op)[3]? = some .proxyRead := by
      rw [hc.done, List.getElem?_map, List.getElem?_range hdone, Option.map_some, hread]
    rw [List.getElem?_map, List.getElem?_eq_getElem hdone, Option.map_some] at hmap
    exact Option.some.inj hmap
  have hsucceeds : s.completions[3].succeeds = true := by
    refine hc.succeeded _ ?_
    refine List.mem_take_iff_getElem.mpr ⟨3, by omega, rfl⟩
  have hmem : s.completions[3] ∈ s.completions := List.getElem_mem hdone
  cases hanswer : s.completions[3] with
  | proxyAnswered status =>
    rw [hanswer] at hmem hsucceeds
    exact ⟨status, hmem, beq_iff_eq.mp hsucceeds⟩
  | error op text =>
    rw [hanswer] at hsucceeds
    cases hsucceeds
  | resolved | noServerName _ | connected | proxyWritten | secured | upgraded | message _ _ =>
    rw [hanswer] at hfourth
    cases hfourth

/-- **Who gets to see what** of a WebSocket connection, in every run: the
wire is the beginning of `connectionWire`, and behind a proxy nothing but
the CONNECT is on it before the proxy has answered with 2xx. -/
theorem run_wire (hrun : run step (init t.url.tls t.proxy.isSome) as = some s) :
    s.wire t version <+: t.connectionWire version ∧
      HttpConfig.StreamPrivate t version (s.wire t version) ∧
      (t.proxy.isSome = true → ∀ op ∈ s.ops, op = .sslHandshake ∨ op = .handshake ∨ op = .read →
        ∃ status, .proxyAnswered status ∈ s.completions ∧ status / 100 = 2) := by
  have hc := (run_inv hrun).chained
  obtain ⟨htls, hproxied⟩ := run_config hrun
  have hops : s.ops <+: opChain t.url.tls t.proxy.isSome ++ List.replicate s.ops.length .read := by
    have hinitial := ops_initial s.tls s.proxied s.ops.length
    rw [← hc.ops, htls, hproxied] at hinitial
    exact hinitial
  refine ⟨?_, HttpConfig.streamPrivate_of_seen fun event hevent => ?_,
    fun hproxy op hop hbehind => hc.answered (hproxied.trans hproxy) hop hbehind⟩
  · have hwire := List.IsPrefix.flatMap hops (t.opWire version)
    rw [List.flatMap_append, t.flatMap_reads, List.append_nil, t.flatMap_opChain] at hwire
    exact hwire
  · obtain ⟨op, hop, hshown⟩ := List.mem_flatMap.mp hevent
    refine HttpConfig.streamSeen_opWire (fun hssl => ?_) hshown
    by_contra hplain
    have hmem := hops.subset hop
    rw [hssl, Bool.eq_false_iff.mpr hplain] at hmem
    rcases List.mem_append.mp hmem with hmem | hmem
    · cases t.proxy.isSome <;> simp [opChain] at hmem
    · cases List.eq_of_mem_replicate hmem

/-- A TLS connection through a proxy, up to its TLS handshake. -/
theorem run_wire_tunnel :
    ∃ s, run step (init true true)
        [.connect, .start, .complete .resolved, .turn, .complete .connected, .turn,
          .complete .proxyWritten, .turn, .complete (.proxyAnswered 200), .turn] = some s ∧
      (s.wire AsyncRequests.proxied []).length = 4 ∧
      HttpConfig.StreamPrivate AsyncRequests.proxied [] (s.wire AsyncRequests.proxied []) := by
  obtain ⟨s, hrun, hlength⟩ : ∃ s, run step (init true true)
      [.connect, .start, .complete .resolved, .turn, .complete .connected, .turn,
        .complete .proxyWritten, .turn, .complete (.proxyAnswered 200), .turn] = some s ∧
      (s.wire AsyncRequests.proxied []).length = 4 := ⟨_, rfl, rfl⟩
  exact ⟨s, hrun, hlength, (run_wire (t := AsyncRequests.proxied) hrun).2.1⟩

end WebSocketLoop

end Sioxx
