/-
Sioxx.Client.AckExchangeTheorems — an acknowledgement answers its own event.

Three lists are received one from the other: the peer's dispatches from the
events handed over, its ACK packets from the dispatches, and the ACKs of
the emitting socket from those packets. Their composition is the round
trip, and since no two emissions share an id, no id comes back twice.

  * `Issued`, `Tracked` — what the emitting socket knows about the ids it
    gave out.
  * `answers_received` — the peer answers a dispatch once, with its first
    reply.
  * `Wired`, `Told` — what every step keeps.
  * `acks_matched`, `acks_complete` — whom an ACK tells what, and that
    nobody is left out once everything has arrived.
-/
import Sioxx.Client.AckExchange
import Sioxx.Client.EndToEnd
import Sioxx.Lib.Channel
import Sioxx.Socket.AckIdsTheorems
import Sioxx.Socket.EventsTheorems
import Sioxx.Socket.OutboxSimulation

namespace Sioxx

open Lib

/-! ## The ids of the emitting socket -/

/-- The id of an emission that asks for an acknowledgement. -/
def Outgoing.ackId (out : Outgoing) : Option Int :=
  if 0 ≤ out.packet.id then some out.packet.id else none

namespace Machine

variable {m m' : Machine}

structure Issued (m : Machine) : Prop where
  shaped : ∀ out ∈ m.emitted, ∃ event data,
    out.packet = Socket.eventPacket m.sock.nsp event data out.packet.id
  ids : (m.emitted.filterMap Outgoing.ackId).Nodup
  pending : ∀ id callback, m.sock.pendingAcks.lookup id = some callback →
    ∃ out ∈ m.emitted, out.packet.id = id ∧ out.emission = callback ∧ out.timed = false
  waiting : ∀ out ∈ m.emitted, 0 ≤ out.packet.id → out.timed = false →
    m.sock.pendingAcks.lookup out.packet.id = some out.emission ∨
      ∃ ack ∈ m.acks, ack.id = out.packet.id

theorem init_issued (nsp : Bytes) : (init nsp).Issued where
  shaped := fun _ h => absurd h List.not_mem_nil
  ids := List.nodup_nil
  pending := fun _ _ h => by simp [init] at h
  waiting := fun _ h => absurd h List.not_mem_nil

/-- A step that emits nothing and leaves the plain callbacks alone. -/
theorem Issued.frame (h : m.Issued) (hnsp : m'.sock.nsp = m.sock.nsp)
    (hemitted : m'.emitted = m.emitted) (hpending : m'.sock.pendingAcks = m.sock.pendingAcks)
    (hacks : m.acks <+: m'.acks) : m'.Issued := by
  constructor
  · rw [hemitted, hnsp]
    exact h.shaped
  · rw [hemitted]
    exact h.ids
  · rw [hemitted, hpending]
    exact h.pending
  · rw [hemitted, hpending]
    intro out hout hid hplain
    rcases h.waiting out hout hid hplain with hlookup | ⟨ack, hack, heq⟩
    · exact .inl hlookup
    · exact .inr ⟨ack, hacks.subset hack, heq⟩

theorem ids_append {out : Outgoing} (h : m.Issued) (hreg : m.timedAcks.Registry)
    (hid : out.packet.id = -1 ∨ out.packet.id = m.sock.nextAckId) :
    ((m.emitted ++ [out]).filterMap Outgoing.ackId).Nodup := by
  have hlt : ∀ id ∈ m.emitted.filterMap Outgoing.ackId, id < m.sock.nextAckId := by
    intro id hmem
    obtain ⟨o, ho, hkey⟩ := List.mem_filterMap.mp hmem
    unfold Outgoing.ackId at hkey
    split at hkey
    · cases hkey
      exact hreg.emittedIds o ho
    · cases hkey
  rw [List.filterMap_append]
  rcases hid with hid | hid
  · have hnone : out.ackId = none := by
      rw [Outgoing.ackId, hid]
      rfl
    simp only [List.filterMap_cons, hnone, List.filterMap_nil, List.append_nil]
    exact h.ids
  · have hnonneg : 0 ≤ m.sock.nextAckId := hreg.nextId
    have hsome : out.ackId = some m.sock.nextAckId := by
      rw [Outgoing.ackId, hid, if_pos hnonneg]
    simp only [List.filterMap_cons, hsome, List.filterMap_nil]
    refine List.nodup_append.mpr ⟨h.ids, List.nodup_singleton _, ?_⟩
    rintro id hmem _ hlast rfl
    rw [List.mem_singleton.mp hlast] at hmem
    exact absurd (hlt _ hmem) (Int.lt_irrefl _)

/-- An emission that no plain callback waits for. -/
theorem Issued.emit {out : Outgoing} (h : m.Issued) (hreg : m.timedAcks.Registry)
    (hnsp : m'.sock.nsp = m.sock.nsp) (hemitted : m'.emitted = m.emitted ++ [out])
    (hpending : m'.sock.pendingAcks = m.sock.pendingAcks) (hacks : m'.acks = m.acks)
    (hshape : ∃ event data, out.packet = Socket.eventPacket m.sock.nsp event data out.packet.id)
    (hid : out.packet.id = -1 ∨ out.packet.id = m.sock.nextAckId)
    (hkind : out.packet.id = -1 ∨ out.timed = true) : m'.Issued := by
  constructor
  · rw [hemitted, hnsp]
    intro o ho
    rcases List.mem_append.mp ho with ho | ho
    · exact h.shaped o ho
    · rw [List.mem_singleton.mp ho]
      exact hshape
  · rw [hemitted]
    exact ids_append h hreg hid
  · rw [hemitted, hpending]
    intro id callback hlookup
    obtain ⟨o, ho, hrest⟩ := h.pending id callback hlookup
    exact ⟨o, List.mem_append_left _ ho, hrest⟩
  · rw [hemitted, hpending, hacks]
    intro o ho hnonneg hplain
    rcases List.mem_append.mp ho with ho | ho
    · exact h.waiting o ho hnonneg hplain
    · rw [List.mem_singleton.mp ho] at hnonneg hplain
      rcases hkind with hkind | hkind
      · omega
      · rw [hplain] at hkind
        cases hkind

/-- An emission with a plain callback. -/
theorem Issued.register {out : Outgoing} (h : m.Issued) (hreg : m.timedAcks.Registry)
    (hnsp : m'.sock.nsp = m.sock.nsp) (hemitted : m'.emitted = m.emitted ++ [out])
    (hpending : m'.sock.pendingAcks = m.sock.pendingAcks.insert m.sock.nextAckId out.emission)
    (hacks : m'.acks = m.acks)
    (hshape : ∃ event data, out.packet = Socket.eventPacket m.sock.nsp event data out.packet.id)
    (hid : out.packet.id = m.sock.nextAckId) (hplain : out.timed = false) : m'.Issued := by
  constructor
  · rw [hemitted, hnsp]
    intro o ho
    rcases List.mem_append.mp ho with ho | ho
    · exact h.shaped o ho
    · rw [List.mem_singleton.mp ho]
      exact hshape
  · rw [hemitted]
    exact ids_append h hreg (.inr hid)
  · rw [hemitted, hpending]
    intro id callback hlookup
    by_cases hnew : id = m.sock.nextAckId
    · rw [hnew, AList.lookup_insert, Option.some.injEq] at hlookup
      exact ⟨out, List.mem_append_right _ List.mem_cons_self, hid.trans hnew.symm, hlookup, hplain⟩
    · rw [AList.lookup_insert_ne hnew] at hlookup
      obtain ⟨o, ho, hrest⟩ := h.pending id callback hlookup
      exact ⟨o, List.mem_append_left _ ho, hrest⟩
  · rw [hemitted, hpending, hacks]
    intro o ho hnonneg hkind
    rcases List.mem_append.mp ho with ho | ho
    · have hlt : o.packet.id < m.sock.nextAckId := hreg.emittedIds o ho
      rw [AList.lookup_insert_ne (Int.ne_of_lt hlt)]
      exact h.waiting o ho hnonneg hkind
    · rw [List.mem_singleton.mp ho, hid, AList.lookup_insert]
      exact .inl rfl

theorem step_issued {a : Action} (h : m.Issued) (hreg : m.timedAcks.Registry)
    (hstep : m.step a = some m') : m'.Issued := by
  cases step_cases hstep with
  | emit t event data =>
    exact h.emit hreg rfl rfl rfl rfl ⟨event, data, rfl⟩ (.inl rfl) (.inl rfl)
  | registerAck t event data =>
    exact h.register hreg rfl rfl rfl rfl ⟨event, data, rfl⟩ rfl rfl
  | registerTimed t event data =>
    exact h.emit hreg rfl rfl rfl rfl ⟨event, data, rfl⟩ (.inr rfl) (.inr rfl)
  | ackPlain id data callback htimed hlookup =>
    refine ⟨h.shaped, h.ids, fun k cb hk => h.pending k cb (lookup_erase_some hk).2,
      fun out hout hnonneg hplain => ?_⟩
    by_cases hid : out.packet.id = id
    · exact .inr ⟨_, List.mem_append_right _ List.mem_cons_self, hid.symm⟩
    · rcases h.waiting out hout hnonneg hplain with hwait | ⟨ack, hack, heq⟩
      · refine .inl ?_
        show (m.sock.pendingAcks.erase id).lookup out.packet.id = some out.emission
        rw [AList.lookup_erase_ne hid]
        exact hwait
      · exact .inr ⟨ack, List.mem_append_left _ hack, heq⟩
  | ackTimed | ackUnknown => exact h.frame rfl rfl rfl (List.prefix_append ..)
  | _ => exact h.frame rfl rfl rfl List.prefix_rfl

/-- A timed emission is registered, and its callback is in the table until
it is spent. -/
structure Tracked (m : Machine) : Prop where
  registered : ∀ r ∈ m.registered, ∃ out ∈ m.emitted, out.packet.id = r.id ∧
    out.emission = r.callback ∧ out.timed = true
  waiting : ∀ out ∈ m.emitted, out.timed = true →
    m.sock.timedAcks.lookup out.packet.id = some out.emission ∨ out.emission ∈ m.timedAcks.spent

theorem init_tracked (nsp : Bytes) : (init nsp).Tracked where
  registered := fun _ h => absurd h List.not_mem_nil
  waiting := fun _ h => absurd h List.not_mem_nil

/-- The next id is not in the table of timed callbacks. -/
theorem Sound.nextAckId_not_mem (h : m.Sound) : m.sock.nextAckId ∉ m.sock.timedAcks := by
  intro hmem
  obtain ⟨callback, hlookup⟩ := Option.isSome_iff_exists.mp (AList.lookup_isSome.mpr hmem)
  obtain ⟨r, hr, hid, -⟩ := h.1.scheduled.table _ _ hlookup
  exact absurd hid (Int.ne_of_lt (h.1.registry.ids r hr).2)

/-- An emission that is not timed. -/
theorem Tracked.emit {out : Outgoing} (h : m.Tracked) (hplain : out.timed = false)
    (hemitted : m'.emitted = m.emitted ++ [out]) (hregistered : m'.registered = m.registered)
    (htable : m'.sock.timedAcks = m.sock.timedAcks)
    (hspent : m'.timedAcks.spent = m.timedAcks.spent) : m'.Tracked := by
  constructor
  · rw [hregistered, hemitted]
    intro r hr
    obtain ⟨o, ho, hrest⟩ := h.registered r hr
    exact ⟨o, List.mem_append_left _ ho, hrest⟩
  · rw [hemitted, htable, hspent]
    intro o ho htimed
    rcases List.mem_append.mp ho with ho | ho
    · exact h.waiting o ho htimed
    · rw [List.mem_singleton.mp ho, hplain] at htimed
      cases htimed

theorem Tracked.quiet {a : Action} (h : m.Tracked) (hstep : m.step a = some m')
    (hemitted : m'.emitted = m.emitted) (hregistered : m'.registered = m.registered)
    (hnext : m'.sock.nextAckId = m.sock.nextAckId) : m'.Tracked := by
  have htimed := step_timedAcks hstep
  constructor
  · rw [hregistered, hemitted]
    exact h.registered
  · rw [hemitted]
    intro out hout hkind
    rcases h.waiting out hout hkind with hlookup | hspent
    · exact (htimed.frame hnext).2 _ _ hlookup
    · exact .inr (htimed.spent_mono hspent)

theorem step_tracked {a : Action} (h : m.Tracked) (hsound : m.Sound)
    (hstep : m.step a = some m') : m'.Tracked := by
  cases step_cases hstep with
  | emit t event data => exact h.emit rfl rfl rfl rfl rfl
  | registerAck t event data => exact h.emit rfl rfl rfl rfl rfl
  | registerTimed t event data deadline =>
    refine ⟨fun r hr => ?_, fun out hout htimed => ?_⟩
    · rcases List.mem_append.mp hr with hr | hr
      · obtain ⟨out, hout, hrest⟩ := h.registered r hr
        exact ⟨out, List.mem_append_left _ hout, hrest⟩
      · rw [List.mem_singleton.mp hr]
        exact ⟨_, List.mem_append_right _ List.mem_cons_self, rfl, rfl, rfl⟩
    · show (emplace m.sock.timedAcks m.sock.nextAckId m.emitted.length).lookup out.packet.id
        = some out.emission ∨ out.emission ∈ m.timedAcks.spent
      rw [emplace, if_neg hsound.nextAckId_not_mem]
      rcases List.mem_append.mp hout with hout | hout
      · have hlt : out.packet.id < m.sock.nextAckId := hsound.1.registry.emittedIds out hout
        rw [AList.lookup_insert_ne (Int.ne_of_lt hlt)]
        exact h.waiting out hout htimed
      · rw [List.mem_singleton.mp hout]
        exact .inl (AList.lookup_insert _)
  | _ => exact h.quiet hstep rfl rfl rfl

/-- The table of timed callbacks gets the next id, if any. -/
theorem step_timed_lookup {a : Action} (hstep : m.step a = some m') {id : Int} {callback : Nat}
    (hlookup : m'.sock.timedAcks.lookup id = some callback) :
    m.sock.timedAcks.lookup id = some callback ∨ id = m.sock.nextAckId := by
  cases step_cases hstep with
  | registerTimed t event data deadline => exact (lookup_emplace hlookup).imp_right And.left
  | registerAck t event data => exact .inl hlookup
  | _ => exact .inl (((step_timedAcks hstep).frame rfl).1 id callback hlookup)

theorem step_dispatchAck_lookup {id : Int} {data : Json}
    (hstep : m.step (.dispatchAck id data) = some m') : m'.sock.timedAcks.lookup id = none := by
  cases step_cases hstep with
  | ackTimed _ _ callback => exact AList.lookup_erase _ _
  | ackPlain _ _ callback htimed => exact htimed
  | ackUnknown _ _ htimed => exact htimed

/-! ## What a step of the emitting socket shows outside -/

/-- Events handed over stay handed over. -/
theorem step_handed {a : Action} (hstep : m.step a = some m') :
    ∃ more, m'.handed = m.handed ++ more := by
  have hsent : ∃ more, m'.sent = m.sent ++ more := by
    cases step_cases hstep with
    | send | connect | disconnectSend | flushSent | flushAbort => exact ⟨[_], rfl⟩
    | _ => exact ⟨[], (List.append_nil _).symm⟩
  obtain ⟨more, hsent⟩ := hsent
  exact ⟨more.filterMap Sent.outgoing, by rw [handed, hsent, List.filterMap_append]; rfl⟩

theorem step_nsp {a : Action} (hstep : m.step a = some m') : m'.sock.nsp = m.sock.nsp := by
  cases step_cases hstep <;> rfl

/-- Only the connection brings an ACK. -/
theorem step_acks {a : Action} (hstep : m.step a = some m') (ha : a.isIncoming = false) :
    m'.acks = m.acks := by
  cases step_cases hstep with
  | ackTimed | ackPlain | ackUnknown => cases ha
  | _ => rfl

theorem step_dispatchAck {id : Int} {data : Json}
    (hstep : m.step (.dispatchAck id data) = some m') :
    m'.acks = m.acks ++ [⟨id, data, m.now⟩] ∧ m'.emitted = m.emitted ∧ m'.handed = m.handed := by
  cases step_cases hstep <;> exact ⟨rfl, rfl, rfl⟩

/-- What is handed over was emitted, each emission once. -/
theorem Sound.handed_subperm (h : m.Sound) : m.handed.Subperm m.emitted := by
  obtain ⟨-, hconserved, -⟩ := h.2.laws
  have hstored : m.handed.Sublist m.outbox.stored :=
    ((List.sublist_append_left _ _).trans (List.sublist_append_left _ _)).trans
      (List.sublist_append_left _ _)
  exact List.subperm_of_subset (hconserved.once.sublist hstored) fun out hout =>
    hconserved.storedIssued out (hstored.subset hout)

theorem handed_ids (hsound : m.Sound) (h : m.Issued) :
    (m.handed.filterMap Outgoing.ackId).Nodup := by
  obtain ⟨l, hperm, hsub⟩ := hsound.handed_subperm
  exact (hperm.filterMap _).nodup_iff.mp (h.ids.sublist (hsub.filterMap _))

/-- A plain callback that waits is found. -/
theorem plainCall_of_waiting (hsound : m.Sound) {out : Outgoing} (hout : out ∈ m.emitted)
    (hplain : out.timed = false)
    (hlookup : m.sock.pendingAcks.lookup out.packet.id = some out.emission) (data : Json) :
    m.sock.plainCall out.packet.id data m.now = some ⟨out.packet.id, out.emission, data⟩ := by
  have htimed : m.sock.timedAcks.lookup out.packet.id = none := by
    cases hentry : m.sock.timedAcks.lookup out.packet.id with
    | none => rfl
    | some callback =>
      obtain ⟨r, hr, hid, -⟩ := hsound.1.scheduled.table _ _ hentry
      have hown := hsound.1.registry.own out hout r hr hid.symm
      rw [hplain] at hown
      cases hown.2
  simp only [Socket.plainCall, Socket.dispatchAck, htimed, hlookup]

/-- A plain callback is found in the table. -/
theorem plainCall_some {s : Socket} {id : Int} {data : Json} {now : Time} {c : PlainCall}
    (h : s.plainCall id data now = some c) :
    c.id = id ∧ c.data = data ∧ s.pendingAcks.lookup id = some c.callback := by
  simp only [Socket.plainCall, Socket.dispatchAck] at h
  cases htimed : s.timedAcks.lookup id with
  | some callback => simp [htimed] at h
  | none =>
    cases hpending : s.pendingAcks.lookup id with
    | none => simp [htimed, hpending] at h
    | some callback =>
      simp only [htimed, hpending, Option.some.injEq] at h
      subst h
      exact ⟨rfl, rfl, rfl⟩

end Machine

/-! ## The peer's answers -/

namespace Events

variable {callable : Nat → Bool} {nsp : Bytes} {s s' : Events}

/-- What a dispatch was called with. -/
def Dispatch.asked (d : Dispatch) : Bytes × Json × Int := (d.event, d.data, d.ackId)

/-- `b` answers dispatch `d` with its first reply. -/
def AnswersWith (nsp : Bytes) (d : Dispatch) (b : SentAck) : Prop :=
  ∃ reply, d.replies.head? = some reply ∧ 0 ≤ d.ackId ∧
    b.packet = { type := .ack, nsp, id := d.ackId, data := .arr (ackArguments reply) }

theorem map_asked_set {ds : List Dispatch} {i : Nat} {d d' : Dispatch} (hd : ds[i]? = some d)
    (hasked : d'.asked = d.asked) : (ds.set i d').map Dispatch.asked = ds.map Dispatch.asked := by
  obtain ⟨hlt, rfl⟩ := List.getElem?_eq_some_iff.mp hd
  rw [List.map_set, hasked]
  have hlt' : i < (ds.map Dispatch.asked).length := by rwa [List.length_map]
  have hget : (ds.map Dispatch.asked)[i] = ds[i].asked := List.getElem_map _
  rw [← hget, List.set_getElem_self hlt']

/-- Only the connection brings an event, and ACK packets stay sent. -/
theorem step_asked {a : Action} (hstep : step callable s a = some s')
    (ha : a.isIncoming = false) :
    s'.dispatches.map Dispatch.asked = s.dispatches.map Dispatch.asked ∧
      ∃ more, s'.acks = s.acks ++ more := by
  have hnone : ∃ more, s.acks = s.acks ++ more := ⟨[], (List.append_nil _).symm⟩
  cases a with
  | change change =>
    simp only [step] at hstep
    split at hstep
    · cases hstep
      exact ⟨rfl, hnone⟩
    · cases hstep
  | dispatch event data ackId => cases ha
  | callNamed i throws =>
    simp only [step] at hstep
    split at hstep
    · cases hstep
    · rename_i d hd
      split at hstep
      · split at hstep <;> cases hstep <;> exact ⟨map_asked_set hd rfl, hnone⟩
      · cases hstep
  | callAny i =>
    simp only [step] at hstep
    split at hstep
    · cases hstep
    · rename_i d hd
      split at hstep
      · cases hstep
        exact ⟨map_asked_set hd rfl, hnone⟩
      · cases hstep
  | acknowledge i data =>
    simp only [step] at hstep
    split at hstep
    · cases hstep
    · rename_i d hd
      split at hstep
      · cases hstep
        unfold acknowledgeStep
        simp only
        split
        · exact ⟨map_asked_set hd rfl, hnone⟩
        · split <;> exact ⟨map_asked_set hd rfl, hnone⟩
      · cases hstep
  | sendAck j =>
    simp only [step] at hstep
    split at hstep
    · cases hstep
    · cases hstep
      split
      · exact ⟨rfl, _, rfl⟩
      · exact ⟨rfl, hnone⟩
  | releaseSocket =>
    simp only [step] at hstep
    split at hstep
    · cases hstep
      exact ⟨rfl, hnone⟩
    · cases hstep
  | releaseClient =>
    cases hstep
    exact ⟨rfl, hnone⟩

theorem step_dispatch {event : Bytes} {data : Json} {ackId : Int}
    (hstep : step callable s (.dispatch event data ackId) = some s') :
    s'.dispatches.map Dispatch.asked
      = s.dispatches.map Dispatch.asked ++ [(event, data, ackId)] ∧ s'.acks = s.acks := by
  simp only [step] at hstep
  split at hstep
  · cases hstep
    exact ⟨by rw [List.map_append]; rfl, rfl⟩
  · cases hstep

/-- A dispatch is answered by one ACK packet. -/
theorem answers_received (h : Inv callable nsp s) :
    Received (AnswersWith nsp) s.dispatches (s.acks.map SentAck.dispatch) s.acks := by
  have hdispatch : ∀ a ∈ s.acks, ∃ d, s.dispatches[a.dispatch]? = some d ∧
      s.acksOf a.dispatch = d.answer nsp a.dispatch := by
    intro a ha
    have hlt := h.known a (List.mem_append_left _ ha)
    refine ⟨s.dispatches[a.dispatch], List.getElem?_eq_getElem hlt, ?_⟩
    refine (h.acksOf_eq (List.getElem?_eq_getElem hlt)).resolve_left fun hnil => ?_
    exact List.filter_eq_nil_iff.mp hnil a ha (beq_self_eq_true _)
  constructor
  · rw [List.nodup_iff_count_le_one]
    intro i
    rw [List.count, List.countP_map, List.countP_eq_length_filter]
    show (s.acksOf i).length ≤ 1
    cases hacks : s.acksOf i with
    | nil => exact Nat.zero_le 1
    | cons a rest =>
      have ha : a ∈ s.acksOf i := hacks ▸ List.mem_cons_self
      obtain ⟨hmem, hi⟩ := List.mem_filter.mp ha
      obtain ⟨d, -, hanswer⟩ := hdispatch a hmem
      rw [beq_iff_eq.mp hi, hacks] at hanswer
      rw [hanswer]
      rcases d.answer_cases nsp i with hnone | ⟨b, hone⟩
      · rw [hnone]
        exact Nat.zero_le 1
      · rw [hone]
        exact Nat.le_refl 1
  · rw [List.forall₂_map_left_iff, List.forall₂_same]
    intro a ha
    obtain ⟨d, hd, hanswer⟩ := hdispatch a ha
    refine ⟨d, hd, ?_⟩
    have hmem : a ∈ d.answer nsp a.dispatch :=
      hanswer ▸ List.mem_filter.mpr ⟨ha, beq_self_eq_true _⟩
    unfold Dispatch.answer at hmem
    cases hreplies : d.replies with
    | nil =>
      rw [hreplies] at hmem
      cases hmem
    | cons reply rest =>
      rw [hreplies] at hmem
      have hasked := (h.answered _ d hd).asked (by rw [hreplies]; exact List.cons_ne_nil _ _)
      exact ⟨reply, by rw [hreplies]; rfl, hasked,
        congrArg SentAck.packet (List.mem_singleton.mp hmem)⟩

end Events

/-! ## What the connection delivers -/

theorem delivered_type (text : Bool) {p : Packet} (htype : p.type = .event ∨ p.type = .ack) :
    (delivered text p).type = p.type.digit ∨
      (delivered text p).type = (JsonParser.binaryVariant p.type true).digit := by
  cases text with
  | false => exact .inl rfl
  | true =>
    rcases SentPacket.received_type p with h | h
    · exact .inr (congrArg (fun type => (PacketType.digit type : Int)) h)
    · refine .inl ((congrArg (fun type => (PacketType.digit type : Int)) h).trans ?_)
      rcases htype with htype | htype <;> rw [htype] <;> rfl

theorem delivered_data (text : Bool) (p : Packet) :
    (delivered text p).data = p.data ∧ (delivered text p).id = p.id := by
  cases text <;> exact ⟨rfl, rfl⟩

theorem dispatchPacket_delivered_event (text : Bool) (nsp event : Bytes) (data : Json) (id : Int) :
    ∃ nsp', dispatchPacket (delivered text (Socket.eventPacket nsp event data id))
      = some (.event nsp' event (eventArgs data) id) := by
  obtain ⟨args, hargs, harr⟩ := eventData_eq event data
  obtain ⟨hdata, hid⟩ := delivered_data text (Socket.eventPacket nsp event data id)
  have hcall := dispatchPacket_event (delivered_type text (.inl rfl)) (hdata.trans harr)
  rw [hid] at hcall
  exact ⟨_, hcall.trans (by rw [hargs]; rfl)⟩

theorem dispatchPacket_delivered_ack {text : Bool} {p : Packet} (htype : p.type = .ack)
    (hid : 0 ≤ p.id) :
    ∃ nsp', dispatchPacket (delivered text p) = some (.ack nsp' p.id p.data) := by
  obtain ⟨hdata, hsame⟩ := delivered_data text p
  have hdelivered := delivered_type text (.inr htype)
  rw [htype] at hdelivered
  have hcall := SentPacket.dispatchPacket_ack hdelivered (hsame ▸ hid)
  rw [hdata, hsame] at hcall
  exact ⟨_, hcall⟩

namespace AckExchange

variable {callable : Nat → Bool} {text : Bool} {nsp : Bytes} {s s' : AckExchange}

/-! ## The steps of the exchange -/

inductive Step (callable : Nat → Bool) (text : Bool) (s : AckExchange) : AckExchange → Prop
  | request (a : Sioxx.Action) (m : Machine) (ha : a.isIncoming = false)
      (hstep : s.requester.step a = some m) : Step callable text s { s with requester := m }
  | respond (a : Events.Action) (r : Events) (ha : a.isIncoming = false)
      (hstep : s.responder.step callable a = some r) :
      Step callable text s { s with responder := r }
  | arriveEvent (k : Nat) (out : Outgoing) (nsp event : Bytes) (data : Json) (ackId : Int)
      (r : Events) (hk : s.requester.handed[k]? = some out) (hnew : k ∉ s.arrived)
      (hcall : dispatchPacket (delivered text out.packet) = some (.event nsp event data ackId))
      (hstep : s.responder.step callable (.dispatch event data ackId) = some r) :
      Step callable text s { s with responder := r, arrived := s.arrived ++ [k] }
  | arriveAck (k : Nat) (b : Events.SentAck) (nsp : Bytes) (id : Int) (data : Json) (m : Machine)
      (hk : s.responder.acks[k]? = some b) (hnew : k ∉ s.returned)
      (hcall : dispatchPacket (delivered text b.packet) = some (.ack nsp id data))
      (hstep : s.requester.step (.dispatchAck id data) = some m) :
      Step callable text s { s with
        requester := m, returned := s.returned ++ [k]
        called := s.called ++ (s.requester.sock.plainCall id data s.requester.now).toList }

theorem step_cases {a : Action} (h : step callable text s a = some s') :
    Step callable text s s' := by
  cases a with
  | request a =>
    simp only [step] at h
    split at h
    · cases h
    · rename_i ha
      obtain ⟨m, hm, rfl⟩ := Option.map_eq_some_iff.mp h
      exact .request a m (Bool.eq_false_iff.mpr ha) hm
  | respond a =>
    simp only [step] at h
    split at h
    · cases h
    · rename_i ha
      obtain ⟨r, hr, rfl⟩ := Option.map_eq_some_iff.mp h
      exact .respond a r (Bool.eq_false_iff.mpr ha) hr
  | arriveEvent k =>
    simp only [step] at h
    split at h
    · cases h
    · rename_i out hk
      split at h
      · cases h
      · rename_i hnew
        unfold arriveEventStep at h
        split at h
        · rename_i nsp event data ackId hcall
          split at h
          · obtain ⟨r, hr, rfl⟩ := Option.map_eq_some_iff.mp h
            exact .arriveEvent k out nsp event data ackId r hk hnew hcall hr
          · cases h
        · cases h
  | arriveAck k =>
    simp only [step] at h
    split at h
    · cases h
    · rename_i b hk
      split at h
      · cases h
      · rename_i hnew
        unfold arriveAckStep at h
        split at h
        · rename_i nsp id data hcall
          split at h
          · obtain ⟨m, hm, rfl⟩ := Option.map_eq_some_iff.mp h
            exact .arriveAck k b nsp id data m hk hnew hcall hm
          · cases h
        · cases h

/-! ## What is received -/

/-- The event `out` is, as a listener gets it. -/
def IsEvent (nsp : Bytes) (out : Outgoing) (asked : Bytes × Json × Int) : Prop :=
  out.packet = Socket.eventPacket nsp asked.1 asked.2.1 asked.2.2

def IsAck (b : Events.SentAck) (ack : ReceivedAck) : Prop :=
  ack.id = b.packet.id ∧ ack.data = b.packet.data

structure Wired (callable : Nat → Bool) (nsp : Bytes) (s : AckExchange) : Prop where
  sound : s.requester.Sound
  issued : s.requester.Issued
  tracked : s.requester.Tracked
  named : s.requester.sock.nsp = nsp
  responder : Events.Inv callable nsp s.responder
  events : Received (IsEvent nsp) s.requester.handed s.arrived
    (s.responder.dispatches.map Events.Dispatch.asked)
  acks : Received IsAck s.responder.acks s.returned s.requester.acks

theorem init_wired (callable : Nat → Bool) (nsp : Bytes) : Wired callable nsp (init nsp) where
  sound := Machine.sound_init nsp
  issued := Machine.init_issued nsp
  tracked := Machine.init_tracked nsp
  named := rfl
  responder := Events.inv_init nsp
  events := .start
  acks := .start

/-- The arguments are in an array, also where `emit` was given none. -/
theorem eventPacket_eventArgs (nsp event : Bytes) (data : Json) (id : Int) :
    Socket.eventPacket nsp event (eventArgs data) id = Socket.eventPacket nsp event data id := by
  cases data <;> rfl

theorem Wired.isEvent {out : Outgoing} {nsp' event : Bytes} {data : Json} {ackId : Int}
    (h : Wired callable nsp s) (hout : out ∈ s.requester.emitted)
    (hcall : dispatchPacket (delivered text out.packet) = some (.event nsp' event data ackId)) :
    IsEvent nsp out (event, data, ackId) := by
  obtain ⟨event', data', hpacket⟩ := h.issued.shaped out hout
  rw [h.named] at hpacket
  obtain ⟨nsp'', hsame⟩ :=
    dispatchPacket_delivered_event text nsp event' data' out.packet.id
  rw [← hpacket, hcall] at hsame
  cases hsame
  exact hpacket.trans (eventPacket_eventArgs nsp event data' _).symm

theorem Wired.answer {b : Events.SentAck} (h : Wired callable nsp s)
    (hb : b ∈ s.responder.acks) :
    ∃ d ∈ s.responder.dispatches, Events.AnswersWith nsp d b :=
  (Events.answers_received h.responder).origin hb

theorem Wired.isAck {b : Events.SentAck} {nsp' : Bytes} {id : Int} {data : Json}
    (h : Wired callable nsp s) (hb : b ∈ s.responder.acks)
    (hcall : dispatchPacket (delivered text b.packet) = some (.ack nsp' id data)) (now : Time) :
    IsAck b ⟨id, data, now⟩ := by
  obtain ⟨d, -, reply, -, hid, hpacket⟩ := h.answer hb
  have htype : b.packet.type = .ack := by rw [hpacket]
  have hnonneg : 0 ≤ b.packet.id := by rw [hpacket]; exact hid
  obtain ⟨nsp'', hsame⟩ := @dispatchPacket_delivered_ack text b.packet htype hnonneg
  rw [hcall] at hsame
  cases hsame
  exact ⟨rfl, rfl⟩

theorem step_wired (h : Wired callable nsp s) (hstep : Step callable text s s') :
    Wired callable nsp s' := by
  cases hstep with
  | request a m ha hm =>
    obtain ⟨more, hhanded⟩ := Machine.step_handed hm
    refine ⟨Machine.step_sound h.sound hm, Machine.step_issued h.issued h.sound.1.registry hm,
      Machine.step_tracked h.tracked h.sound hm, (Machine.step_nsp hm).trans h.named, h.responder,
      ?_, ?_⟩
    · show Received _ m.handed _ _
      rw [hhanded]
      exact h.events.send more
    · show Received _ _ _ m.acks
      rw [Machine.step_acks hm ha]
      exact h.acks
  | respond a r ha hr =>
    obtain ⟨hasked, more, hacks⟩ := Events.step_asked hr ha
    refine ⟨h.sound, h.issued, h.tracked, h.named, h.responder.step hr, ?_, ?_⟩
    · show Received _ _ _ (r.dispatches.map _)
      rw [hasked]
      exact h.events
    · show Received _ r.acks _ _
      rw [hacks]
      exact h.acks.send more
  | arriveEvent k out nsp' event data ackId r hk hnew hcall hr =>
    obtain ⟨hasked, hacks⟩ := Events.step_dispatch hr
    have hout := h.sound.handed_subperm.subset (List.mem_of_getElem? hk)
    refine ⟨h.sound, h.issued, h.tracked, h.named, h.responder.step hr, ?_, ?_⟩
    · show Received _ _ _ (r.dispatches.map _)
      rw [hasked]
      exact h.events.receive hk hnew (h.isEvent hout hcall)
    · show Received _ r.acks _ _
      rw [hacks]
      exact h.acks
  | arriveAck k b nsp' id data m hk hnew hcall hm =>
    obtain ⟨hacks, -, hhanded⟩ := Machine.step_dispatchAck hm
    refine ⟨Machine.step_sound h.sound hm, Machine.step_issued h.issued h.sound.1.registry hm,
      Machine.step_tracked h.tracked h.sound hm, (Machine.step_nsp hm).trans h.named, h.responder,
      ?_, ?_⟩
    · show Received _ m.handed _ _
      rw [hhanded]
      exact h.events
    · show Received _ _ _ m.acks
      rw [hacks]
      exact h.acks.receive hk hnew (h.isAck (List.mem_of_getElem? hk) hcall _)

/-! ## The round trip -/

/-- The peer's listeners were called with the event of `out`, and the first
reply to it is in `data`. -/
def Answered (nsp : Bytes) (s : AckExchange) (out : Outgoing) (data : Json) : Prop :=
  ∃ d ∈ s.responder.dispatches, 0 ≤ d.ackId ∧
    out.packet = Socket.eventPacket nsp d.event d.data d.ackId ∧
    ∃ reply, d.replies.head? = some reply ∧ data = .arr (Events.ackArguments reply)

/-- The ACKs, each from the event it answers. -/
theorem Wired.roundTrip (h : Wired callable nsp s) :
    ∃ taken, Received (fun out (ack : ReceivedAck) => out.ackId = some ack.id ∧
      Answered nsp s out ack.data) s.requester.handed taken s.requester.acks := by
  have hround := (h.events.of_map.trans (Events.answers_received h.responder)).trans h.acks
  refine ⟨_, hround.imp ?_⟩
  rintro out - ack ⟨b, -, ⟨d, hd, hevent, reply, hreply, hid, hpacket⟩, hsameId, hsameData⟩
  rw [hpacket] at hsameId hsameData
  have hout : out.packet.id = d.ackId := congrArg Packet.id hevent
  refine ⟨?_, d, hd, hid, hevent, reply, hreply, hsameData⟩
  rw [Outgoing.ackId, hout, if_pos hid, hsameId]

theorem ackId_some {out : Outgoing} {id : Int} :
    out.ackId = some id ↔ out.packet.id = id ∧ 0 ≤ id := by
  unfold Outgoing.ackId
  split
  · rename_i hid
    rw [Option.some.injEq]
    exact ⟨fun h => ⟨h, h ▸ hid⟩, And.left⟩
  · rename_i hid
    refine ⟨fun h => (by cases h), fun h => absurd ?_ hid⟩
    rw [h.1]
    exact h.2

/-- No id comes back twice. -/
theorem Wired.acks_nodup (h : Wired callable nsp s) :
    (s.requester.acks.map ReceivedAck.id).Nodup := by
  obtain ⟨taken, hround⟩ := h.roundTrip
  have hkeys := hround.keys_nodup (g := fun ack => some ack.id) (fun _ _ hr => hr.1)
    (Machine.handed_ids h.sound h.issued)
  rwa [List.filterMap_eq_map'] at hkeys

/-- An ACK answers an emission. -/
theorem Wired.emission {ack : ReceivedAck} (h : Wired callable nsp s)
    (hack : ack ∈ s.requester.acks) :
    ∃ out ∈ s.requester.emitted, out.packet.id = ack.id ∧ 0 ≤ ack.id ∧
      Answered nsp s out ack.data := by
  obtain ⟨taken, hround⟩ := h.roundTrip
  obtain ⟨out, hout, hid, hanswered⟩ := hround.origin hack
  obtain ⟨hsame, hnonneg⟩ := ackId_some.mp hid
  exact ⟨out, h.sound.handed_subperm.subset hout, hsame, hnonneg, hanswered⟩

/-! ## Who is told -/

structure Told (s : AckExchange) : Prop where
  /-- A callback is called for an ACK, and for one that nobody else is. -/
  calls : (s.called.map fun c => (c.id, c.data)).Sublist
    (s.requester.acks.map fun ack => (ack.id, ack.data))
  own : ∀ c ∈ s.called, ∃ out ∈ s.requester.emitted, out.packet.id = c.id ∧
    out.emission = c.callback ∧ out.timed = false
  all : ∀ ack ∈ s.requester.acks, ∀ out ∈ s.requester.emitted, out.packet.id = ack.id →
    out.timed = false → ∃ c ∈ s.called, c.callback = out.emission ∧ c.data = ack.data
  done : ∀ ack ∈ s.requester.acks, s.requester.sock.timedAcks.lookup ack.id = none

theorem init_told (nsp : Bytes) : Told (init nsp) where
  calls := .refl _
  own := fun _ h => absurd h List.not_mem_nil
  all := fun _ h => absurd h List.not_mem_nil
  done := fun _ h => absurd h List.not_mem_nil

/-- The timed callback of an ACK that has come back stays out of the table. -/
theorem Told.stays {a : Sioxx.Action} {m : Machine} (h : Told s) (hwired : Wired callable nsp s)
    (hm : s.requester.step a = some m) {ack : ReceivedAck} (hack : ack ∈ s.requester.acks) :
    m.sock.timedAcks.lookup ack.id = none := by
  obtain ⟨out, hout, hid, -⟩ := hwired.emission hack
  have hlt : out.packet.id < s.requester.sock.nextAckId :=
    hwired.sound.1.registry.emittedIds out hout
  cases hlookup : m.sock.timedAcks.lookup ack.id with
  | none => rfl
  | some callback =>
    rcases Machine.step_timed_lookup hm hlookup with hbefore | hnext
    · rw [h.done ack hack] at hbefore
      cases hbefore
    · omega

/-- A step of the emitting socket gives no id a second time. -/
theorem Told.request {a : Sioxx.Action} {m : Machine} (h : Told s)
    (hwired : Wired callable nsp s) (hm : s.requester.step a = some m)
    (ha : a.isIncoming = false) : Told { s with requester := m } := by
  have hacks : m.acks = s.requester.acks := Machine.step_acks hm ha
  have hlist : s.requester.emitted <+: m.emitted := (Machine.step_timedAcks hm).history.1
  refine ⟨?_, fun c hc => ?_, fun ack hack out hout hid hplain => ?_, fun ack hack => ?_⟩
  · show List.Sublist _ (m.acks.map _)
    rw [hacks]
    exact h.calls
  · obtain ⟨out, hout, hrest⟩ := h.own c hc
    exact ⟨out, hlist.subset hout, hrest⟩
  · change ack ∈ m.acks at hack
    rw [hacks] at hack
    refine h.all ack hack out ?_ hid hplain
    -- an id that was acknowledged belongs to an emission of before
    obtain ⟨before, hbefore, hsame, hnonneg, -⟩ := hwired.emission hack
    have hids := (Machine.step_issued hwired.issued hwired.sound.1.registry hm).ids
    obtain ⟨more, hmore⟩ := hlist
    rw [← hmore, List.filterMap_append] at hids
    rw [← hmore] at hout
    refine (List.mem_append.mp hout).resolve_right fun hnew => ?_
    have hfirst : ack.id ∈ s.requester.emitted.filterMap Outgoing.ackId :=
      List.mem_filterMap.mpr ⟨before, hbefore, ackId_some.mpr ⟨hsame, hnonneg⟩⟩
    have hagain : ack.id ∈ more.filterMap Outgoing.ackId :=
      List.mem_filterMap.mpr ⟨out, hnew, ackId_some.mpr ⟨hid, hnonneg⟩⟩
    exact (List.nodup_append.mp hids).2.2 _ hfirst _ hagain rfl
  · change ack ∈ m.acks at hack
    rw [hacks] at hack
    exact h.stays hwired hm hack

/-- An ACK that comes back is for the one callback that waits for it. -/
theorem Told.arriveAck {k : Nat} {id : Int} {data : Json} {m : Machine} (h : Told s)
    (hwired : Wired callable nsp s) (hm : s.requester.step (.dispatchAck id data) = some m)
    (hs' : s' = { s with
      requester := m, returned := s.returned ++ [k]
      called := s.called ++ (s.requester.sock.plainCall id data s.requester.now).toList })
    (hwired' : Wired callable nsp s') : Told s' := by
  obtain ⟨hacks, hemitted, -⟩ := Machine.step_dispatchAck hm
  have hfresh := hwired'.acks_nodup
  have hemission : ∀ ack ∈ s'.requester.acks, ∃ out ∈ s'.requester.emitted,
      out.packet.id = ack.id ∧ 0 ≤ ack.id ∧ Answered nsp s' out ack.data :=
    fun ack hack => hwired'.emission hack
  subst hs'
  simp only at hfresh hemission
  rw [hacks] at hfresh hemission
  constructor
  · show List.Sublist (List.map _ (s.called ++ _)) (m.acks.map _)
    rw [hacks, List.map_append, List.map_append]
    refine h.calls.append ?_
    cases hcall : s.requester.sock.plainCall id data s.requester.now with
    | none => exact List.nil_sublist _
    | some c =>
      obtain ⟨hid, hdata, -⟩ := Machine.plainCall_some hcall
      rw [Option.toList_some, List.map_singleton, List.map_singleton, hid, hdata]
  · intro c hc
    show ∃ out ∈ m.emitted, _
    rw [hemitted]
    rcases List.mem_append.mp hc with hc | hc
    · exact h.own c hc
    · obtain ⟨hid, -, hlookup⟩ := Machine.plainCall_some (Option.mem_toList.mp hc)
      obtain ⟨out, hout, hsame, hcallback, hplain⟩ := hwired.issued.pending id c.callback hlookup
      exact ⟨out, hout, hsame.trans hid.symm, hcallback, hplain⟩
  · intro ack hack out hout hid hplain
    change ack ∈ m.acks at hack
    change out ∈ m.emitted at hout
    rw [hemitted] at hout
    rw [hacks] at hack
    obtain ⟨-, -, -, hnonneg, -⟩ := hemission ack hack
    rcases List.mem_append.mp hack with hack | hack
    · obtain ⟨c, hc, hrest⟩ := h.all ack hack out hout hid hplain
      exact ⟨c, List.mem_append_left _ hc, hrest⟩
    · obtain rfl := List.mem_singleton.mp hack
      change out.packet.id = id at hid
      -- no ACK with this id came before, so the callback still waits
      have hlookup := (hwired.issued.waiting out hout (hid ▸ hnonneg) hplain).resolve_right (by
        rintro ⟨before, hbefore, hsame⟩
        rw [List.map_append] at hfresh
        refine (List.nodup_append.mp hfresh).2.2 _ (List.mem_map_of_mem hbefore) _
          (List.mem_map_of_mem List.mem_cons_self) (hsame.trans hid))
      have hcall := Machine.plainCall_of_waiting hwired.sound hout hplain hlookup data
      rw [hid] at hcall
      refine ⟨⟨id, out.emission, data⟩, List.mem_append_right _ ?_, rfl, rfl⟩
      rw [hcall]
      exact List.mem_cons_self
  · intro ack hack
    change ack ∈ m.acks at hack
    rw [hacks] at hack
    rcases List.mem_append.mp hack with hack | hack
    · exact h.stays hwired hm hack
    · rw [List.mem_singleton.mp hack]
      exact Machine.step_dispatchAck_lookup hm

def Inv (callable : Nat → Bool) (nsp : Bytes) (s : AckExchange) : Prop :=
  Wired callable nsp s ∧ Told s

theorem step_inv (h : Inv callable nsp s) (hstep : Step callable text s s') :
    Inv callable nsp s' := by
  obtain ⟨hwired, htold⟩ := h
  have hwired' := step_wired hwired hstep
  refine ⟨hwired', ?_⟩
  cases hstep with
  | request a m ha hm => exact htold.request hwired hm ha
  | respond | arriveEvent => exact ⟨htold.calls, htold.own, htold.all, htold.done⟩
  | arriveAck k b nsp' id data m hk hnew hcall hm => exact htold.arriveAck hwired hm rfl hwired'

theorem run_inv {as : List Action} (hrun : run (step callable text) (init nsp) as = some s) :
    Inv callable nsp s :=
  run_preserves (Inv callable nsp) (fun _ _ _ hi h => step_inv hi (step_cases h))
    ⟨init_wired callable nsp, init_told nsp⟩ hrun

/-! ## The theorems -/

/-- What the two sockets have to do with each other. -/
structure Matched (nsp : Bytes) (s : AckExchange) : Prop where
  /-- The listeners are called with the events that were emitted, each
  emission at most once. -/
  dispatched : ∃ outs, outs.Subperm s.requester.emitted ∧ List.Forall₂
    (fun out (d : Events.Dispatch) =>
      out.packet = Socket.eventPacket nsp d.event d.data d.ackId) outs s.responder.dispatches
  acks : ∀ ack ∈ s.requester.acks, ∃ out ∈ s.requester.emitted, out.packet.id = ack.id ∧
    Answered nsp s out ack.data
  once : (s.requester.acks.map ReceivedAck.id).Nodup
  /-- A plain callback gets the first reply to its own event. -/
  plain : ∀ c ∈ s.called, ∃ out ∈ s.requester.emitted, out.emission = c.callback ∧
    Answered nsp s out c.data
  /-- So does a timed one that is told of an acknowledgement. -/
  timed : ∀ i ∈ s.requester.invoked, i.claim.status = .acknowledged →
    ∃ out ∈ s.requester.emitted, out.emission = i.claim.callback ∧
      Answered nsp s out i.claim.data
  /-- No callback is called twice. -/
  told : (s.called.map PlainCall.callback ++
    s.requester.invoked.map (·.claim.callback)).Nodup

theorem Inv.plain (h : Inv callable nsp s) {c : PlainCall} (hc : c ∈ s.called) :
    ∃ out ∈ s.requester.emitted, out.emission = c.callback ∧ Answered nsp s out c.data := by
  obtain ⟨hwired, htold⟩ := h
  obtain ⟨ack, hack, hsame⟩ := List.mem_map.mp (htold.calls.subset (List.mem_map_of_mem hc))
  obtain ⟨hid, hdata⟩ := Prod.mk.inj hsame
  obtain ⟨out, hout, houtId, hcallback, -⟩ := htold.own c hc
  obtain ⟨out', hout', hid', hnonneg, hanswered⟩ := hwired.emission hack
  have heq : out = out' := eq_of_filterMap_nodup hwired.issued.ids hout hout'
    (ackId_some.mpr ⟨houtId.trans hid.symm, hnonneg⟩) (ackId_some.mpr ⟨hid', hnonneg⟩)
  refine ⟨out, hout, hcallback, ?_⟩
  rw [heq, ← hdata]
  exact hanswered

theorem Inv.timed (h : Inv callable nsp s) {i : Invocation} (hi : i ∈ s.requester.invoked)
    (hstatus : i.claim.status = .acknowledged) :
    ∃ out ∈ s.requester.emitted, out.emission = i.claim.callback ∧
      Answered nsp s out i.claim.data := by
  obtain ⟨hwired, -⟩ := h
  have hlaw := hwired.sound.1
  obtain ⟨r, hr, -, hcallback, hwhy⟩ := hlaw.outcomes.invoked i hi
  rw [hstatus] at hwhy
  obtain ⟨-, ack, hack, hid, hdata, -⟩ := hwhy
  obtain ⟨out, hout, hsame, -, hanswered⟩ := hwired.emission hack
  have hown := hlaw.registry.own out hout r hr (hsame.trans hid)
  refine ⟨out, hout, hown.1.trans hcallback, ?_⟩
  rw [← hdata]
  exact hanswered

/-- The number of an emission is its own. -/
theorem Wired.emission_inj (h : Wired callable nsp s) {out out' : Outgoing}
    (hout : out ∈ s.requester.emitted) (hout' : out' ∈ s.requester.emitted)
    (hsame : out.emission = out'.emission) : out = out' := by
  have hnumbers : (s.requester.emitted.map Outgoing.emission).Nodup :=
    h.sound.1.registry.numbered ▸ List.nodup_range
  exact List.inj_on_of_nodup_map hnumbers hout hout' hsame

theorem Inv.told (h : Inv callable nsp s) :
    (s.called.map PlainCall.callback ++ s.requester.invoked.map (·.claim.callback)).Nodup := by
  obtain ⟨hwired, htold⟩ := h
  have hlaw := hwired.sound.1
  have hids : (s.called.map PlainCall.id).Nodup := by
    have hsub := htold.calls.map Prod.fst
    rw [List.map_map, List.map_map] at hsub
    exact hwired.acks_nodup.sublist hsub
  refine List.nodup_append.mpr ⟨?_, ?_, ?_⟩
  · refine List.Nodup.map_on (fun c hc c' hc' hsame => ?_) hids.of_map
    obtain ⟨out, hout, hid, hcallback, -⟩ := htold.own c hc
    obtain ⟨out', hout', hid', hcallback', -⟩ := htold.own c' hc'
    have heq := hwired.emission_inj hout hout'
      (hcallback.trans (hsame.trans hcallback'.symm))
    exact List.inj_on_of_nodup_map hids hc hc' (by rw [← hid, ← hid', heq])
  · have hspent : (s.requester.invoked.map (·.claim.callback)).Sublist
        s.requester.timedAcks.spent :=
      (List.sublist_append_right _ _).trans (List.sublist_append_left _ _)
    exact hlaw.outcomes.once.sublist hspent
  · rintro callback hcalled _ hinvoked rfl
    obtain ⟨c, hc, rfl⟩ := List.mem_map.mp hcalled
    obtain ⟨i, hi, hsame⟩ := List.mem_map.mp hinvoked
    obtain ⟨out, hout, -, hcallback, hplain⟩ := htold.own c hc
    obtain ⟨r, hr, -, hr', -⟩ := hlaw.outcomes.invoked i hi
    obtain ⟨out', hout', -, hnumber, htimed⟩ := hwired.tracked.registered r hr
    have heq : out = out' := hwired.emission_inj hout hout'
      (hcallback.trans (hsame.symm.trans (hr'.symm.trans hnumber.symm)))
    rw [heq, htimed] at hplain
    cases hplain

/-- **An acknowledgement answers its own event.** Whatever the order in
which the threads of both sockets, the deadlines and the packets come: the
dispatches are of the emitted events, each at most once; an ACK that comes
back has the id of one emission and the first reply to that event, and no id
comes back twice; and so a callback is told the first reply to its own
event, by one call. -/
theorem acks_matched {as : List Action}
    (hrun : run (step callable text) (init nsp) as = some s) : Matched nsp s := by
  have h := run_inv hrun
  obtain ⟨outs, hsub, hmade⟩ := h.1.events.of_map.subperm
  refine ⟨⟨outs, hsub.trans h.1.sound.handed_subperm, hmade⟩, fun ack hack => ?_, h.1.acks_nodup,
    fun c hc => h.plain hc, fun i hi hstatus => h.timed hi hstatus, h.told⟩
  obtain ⟨out, hout, hid, -, hanswered⟩ := h.1.emission hack
  exact ⟨out, hout, hid, hanswered⟩

/-- Two emissions, one of them timed. The second arrives first and is
answered twice, and the answers overtake each other on their way back. -/
def twoQuestions : List Action :=
  [.respond (.change (.on (ascii "question") (.ack 1))), .request (.markConnected true),
    .request (.task 0 false), .request (.emitAck 0 (ascii "question") (.int 1)),
    .request (.register 0), .request (.decide 0), .request (.send 0),
    .request (.emitTimed 1 (ascii "question") .null 5 true), .request (.register 1),
    .request (.decide 1), .request (.send 1), .arriveEvent 1, .arriveEvent 0,
    .respond (.callNamed 0 false), .respond (.callNamed 1 false),
    .respond (.acknowledge 1 (.bool true)), .respond (.acknowledge 0 .null),
    .respond (.acknowledge 0 (.bool false)), .respond (.sendAck 0), .respond (.sendAck 0),
    .arriveAck 1, .arriveAck 0, .request (.task 0 false)]

theorem acks_matched_twoQuestions :
    ∃ s, run (step (fun _ => true) true) (init (ascii "/")) twoQuestions = some s ∧
      s.called.map PlainCall.callback = [0] ∧
      s.requester.invoked.map (·.claim.callback) = [1] ∧ Matched (ascii "/") s := by
  have hreached : (run (step (fun _ => true) true) (init (ascii "/")) twoQuestions).any (fun s =>
      s.called.map PlainCall.callback = [0] ∧
      s.requester.invoked.map (·.claim.callback) = [1]) = true := by decide +kernel
  obtain ⟨s, hrun, hfacts⟩ := (Option.any_eq_true _ _).mp hreached
  obtain ⟨hcalled, hinvoked⟩ := of_decide_eq_true hfacts
  exact ⟨s, hrun, hcalled, hinvoked, acks_matched hrun⟩

/-- Nothing is on its way, and the peer's socket has not been destroyed. -/
structure Settled (s : AckExchange) : Prop where
  events : ∀ k < s.requester.handed.length, k ∈ s.arrived
  acks : ∀ k < s.responder.acks.length, k ∈ s.returned
  replies : s.responder.replying = []
  alive : s.responder.alive = true

/-- The dispatch of an event that was answered sent its ACK packet. -/
theorem Wired.sentAck (h : Wired callable nsp s) (hsettled : s.Settled) {i : Nat}
    {d : Events.Dispatch} (hd : s.responder.dispatches[i]? = some d) {reply : Json}
    (hreply : d.replies.head? = some reply) :
    ∃ b ∈ s.responder.acks, b.packet.id = d.ackId ∧
      b.packet.data = .arr (Events.ackArguments reply) := by
  have hanswer := h.responder.answers_eq hsettled.alive hd
  obtain ⟨rest, hreplies⟩ : ∃ rest, d.replies = reply :: rest := List.head?_eq_some_iff.mp hreply
  have hpending : s.responder.pendingOf i = [] := by
    simp [Events.pendingOf, Events.pending, hsettled.replies]
  rw [hpending, List.append_nil, Events.Dispatch.answer, hreplies] at hanswer
  obtain ⟨b, hone, hid, hdata⟩ : ∃ b, s.responder.acksOf i = [b] ∧ b.packet.id = d.ackId ∧
      b.packet.data = .arr (Events.ackArguments reply) := ⟨_, hanswer, rfl, rfl⟩
  have hmem : b ∈ s.responder.acksOf i := hone ▸ List.mem_cons_self
  exact ⟨b, (List.mem_filter.mp hmem).1, hid, hdata⟩

/-- **Nobody is left out.** When nothing is on its way any more, and the
peer's socket still exists, every event that was handed over has been given
to `dispatch_event`; if a listener replied to it, its ACK has come back with
the first reply, and its callback has been called with it, or, if it is a
timed one, it is acknowledged, expired or cancelled. -/
theorem acks_complete {as : List Action}
    (hrun : run (step callable text) (init nsp) as = some s) (hsettled : s.Settled) :
    ∀ out ∈ s.requester.handed, ∃ d ∈ s.responder.dispatches,
      out.packet = Socket.eventPacket nsp d.event d.data d.ackId ∧
      ∀ reply, d.replies.head? = some reply →
        (∃ ack ∈ s.requester.acks, ack.id = out.packet.id ∧
          ack.data = .arr (Events.ackArguments reply)) ∧
        (out.timed = false → ∃ c ∈ s.called, c.callback = out.emission ∧
          c.data = .arr (Events.ackArguments reply)) ∧
        (out.timed = true → out.emission ∈ s.requester.timedAcks.spent) := by
  obtain ⟨hwired, htold⟩ := run_inv hrun
  intro out hout
  obtain ⟨k, hk⟩ := List.getElem?_of_mem hout
  have hlt := (List.getElem?_eq_some_iff.mp hk).1
  obtain ⟨d, hd, hevent⟩ := hwired.events.of_map.arrived hk (hsettled.events k hlt)
  refine ⟨d, hd, hevent, fun reply hreply => ?_⟩
  obtain ⟨i, hi⟩ := List.getElem?_of_mem hd
  obtain ⟨b, hb, hid, hdata⟩ := hwired.sentAck hsettled hi hreply
  obtain ⟨j, hj⟩ := List.getElem?_of_mem hb
  obtain ⟨ack, hack, hsameId, hsameData⟩ :=
    hwired.acks.arrived hj (hsettled.acks j (List.getElem?_eq_some_iff.mp hj).1)
  have hackId : ack.id = out.packet.id := by
    rw [hsameId, hid, hevent]
    rfl
  have hackData := hsameData.trans hdata
  have hemitted := hwired.sound.handed_subperm.subset hout
  refine ⟨⟨ack, hack, hackId, hackData⟩, fun hplain => ?_, fun htimed => ?_⟩
  · obtain ⟨c, hc, hcallback, hcall⟩ := htold.all ack hack out hemitted hackId.symm hplain
    exact ⟨c, hc, hcallback, hcall.trans hackData⟩
  · refine (hwired.tracked.waiting out hemitted htimed).resolve_left fun hlookup => ?_
    rw [← hackId, htold.done ack hack] at hlookup
    cases hlookup

theorem acks_complete_twoQuestions :
    ∃ s, run (step (fun _ => true) true) (init (ascii "/")) twoQuestions = some s ∧
      s.requester.handed.length = 2 ∧
      ∀ out ∈ s.requester.handed, ∃ d ∈ s.responder.dispatches,
        out.packet = Socket.eventPacket (ascii "/") d.event d.data d.ackId ∧
        ∀ reply, d.replies.head? = some reply →
          (∃ ack ∈ s.requester.acks, ack.id = out.packet.id ∧
            ack.data = .arr (Events.ackArguments reply)) ∧
          (out.timed = false → ∃ c ∈ s.called, c.callback = out.emission ∧
            c.data = .arr (Events.ackArguments reply)) ∧
          (out.timed = true → out.emission ∈ s.requester.timedAcks.spent) := by
  have hreached : (run (step (fun _ => true) true) (init (ascii "/")) twoQuestions).any (fun s =>
      s.requester.handed.length = 2 ∧ s.arrived = [1, 0] ∧ s.responder.acks.length = 2 ∧
      s.returned = [1, 0] ∧ s.responder.replying.isEmpty = true ∧
      s.responder.alive = true) = true := by decide +kernel
  obtain ⟨s, hrun, hfacts⟩ := (Option.any_eq_true _ _).mp hreached
  obtain ⟨hhanded, harrived, hacks, hreturned, hreplying, halive⟩ := of_decide_eq_true hfacts
  refine ⟨s, hrun, hhanded,
    acks_complete hrun ⟨?_, ?_, List.isEmpty_iff.mp hreplying, halive⟩⟩
  · rw [hhanded, harrived]
    decide
  · rw [hacks, hreturned]
    decide

end AckExchange

end Sioxx
