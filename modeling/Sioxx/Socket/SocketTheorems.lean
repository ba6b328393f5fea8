/-
Sioxx.Socket.SocketTheorems — what each section of a socket can do.

One lemma for each outcome of a section: under which conditions it comes
about and what the socket is afterwards. The proofs about the machine use
these and do not open the definitions.
-/
import Sioxx.Socket.Socket

namespace Sioxx

open Lib

/-! ## The containers -/

theorem lookup_emplace {κ ν : Type} [DecidableEq κ] {m : AList (fun _ : κ => ν)} {key k : κ}
    {value v : ν} (h : (emplace m key value).lookup k = some v) :
    m.lookup k = some v ∨ (k = key ∧ v = value) := by
  unfold emplace at h
  split at h
  · exact .inl h
  · by_cases hk : k = key
    · subst hk
      rw [AList.lookup_insert] at h
      exact .inr ⟨rfl, (Option.some.inj h).symm⟩
    · rw [AList.lookup_insert_ne hk] at h
      exact .inl h

theorem mem_emplace {κ ν : Type} [DecidableEq κ] {m : AList (fun _ : κ => ν)} {key k : κ}
    {value : ν} : k ∈ emplace m key value ↔ k = key ∨ k ∈ m := by
  unfold emplace
  split
  · rename_i hkey
    exact ⟨.inr, fun h => h.elim (fun hk => hk ▸ hkey) id⟩
  · exact AList.mem_insert m

theorem lookup_erase_some {κ ν : Type} [DecidableEq κ] {m : AList (fun _ : κ => ν)} {key k : κ}
    {v : ν} (h : (m.erase key).lookup k = some v) : k ≠ key ∧ m.lookup k = some v := by
  by_cases hk : k = key
  · subst hk
    rw [AList.lookup_erase] at h
    cases h
  · rw [AList.lookup_erase_ne hk] at h
    exact ⟨hk, h⟩

namespace AckScheduler

theorem mem_ordered_add {s : AckScheduler} {id : Int} {deadline : Time} {entry : Time × Int}
    (h : entry ∈ (s.add id deadline).ordered) : entry ∈ s.ordered ∨ entry = (deadline, id) := by
  unfold add at h
  simp only at h
  split at h
  · exact .inl h
  · rw [List.mem_orderedInsert] at h
    exact h.symm

/-- `expired` is true of a deadline that passed and of a missing one. -/
theorem expired_true {s : AckScheduler} {id : Int} {now : Time} (h : s.expired id now = true) :
    id ∉ s.deadlines ∨ ∃ deadline, s.deadlines.lookup id = some deadline ∧ deadline ≤ now := by
  unfold expired at h
  split at h
  · exact .inl (AList.lookup_eq_none.mp ‹_›)
  · exact .inr ⟨_, ‹_›, of_decide_eq_true h⟩

/-- What `remove` reports: a missing deadline, or how the one it dropped
compares with the clock. -/
theorem remove_fst (s : AckScheduler) (id : Int) (now : Time) :
    (id ∉ s.deadlines ∧ (s.remove id now).1 = true) ∨
      ∃ deadline, s.deadlines.lookup id = some deadline ∧
        (s.remove id now).1 = decide (deadline ≤ now) := by
  unfold remove
  cases h : s.deadlines.lookup id with
  | none => exact .inl ⟨AList.lookup_eq_none.mp h, rfl⟩
  | some deadline => exact .inr ⟨deadline, rfl, rfl⟩

/-- `remove` drops entries of its id only. -/
theorem remove_snd (s : AckScheduler) (id : Int) (now : Time) :
    (∀ k d, (s.remove id now).2.deadlines.lookup k = some d → s.deadlines.lookup k = some d) ∧
      (∀ k, k ≠ id → k ∈ s.deadlines → k ∈ (s.remove id now).2.deadlines) ∧
      (∀ entry ∈ (s.remove id now).2.ordered, entry ∈ s.ordered) := by
  unfold remove
  cases h : s.deadlines.lookup id with
  | none => exact ⟨fun _ _ hk => hk, fun _ _ hk => hk, fun _ he => he⟩
  | some deadline =>
    refine ⟨fun k d hk => (lookup_erase_some hk).2, fun k hne hk => ?_, fun entry he => ?_⟩
    · exact AList.mem_erase.mpr ⟨hne, hk⟩
    · exact (List.mem_filter.mp he).1

/-- A popped id was the first in order of expiry and its deadline passed. -/
theorem pop_some {s s' : AckScheduler} {now : Time} {id : Int} (h : s.pop now = some (id, s')) :
    ∃ deadline rest, s.ordered = (deadline, id) :: rest ∧ deadline ≤ now ∧
      s' = { deadlines := s.deadlines.erase id, ordered := rest } := by
  unfold pop at h
  split at h
  · cases h
  · split at h
    · cases h
    · rename_i deadline first rest hordered
      split at h
      · cases h
      · rename_i hdue
        simp only [Option.some.injEq, Prod.mk.injEq] at h
        obtain ⟨rfl, rfl⟩ := h
        exact ⟨deadline, rest, hordered, Nat.le_of_not_lt hdue, rfl⟩

end AckScheduler

namespace Socket

/-! ## Emitting -/

theorem foldl_push (items arr : List Json) :
    items.foldl (fun arr v => arr ++ [v]) arr = arr ++ items := by
  induction items generalizing arr with
  | nil => exact (List.append_nil arr).symm
  | cons v items ih => rw [List.foldl_cons, ih, List.append_assoc, List.singleton_append]

theorem pushArguments_eq (event : Bytes) (data : Json) :
    pushArguments event data = eventData event data := by
  cases data with
  | arr items => simp only [pushArguments, eventData, foldl_push, List.nil_append,
      List.singleton_append]
  | _ => rfl

theorem insertArguments_eq (event : Bytes) (data : Json) :
    insertArguments event data = eventData event data := by
  cases data with
  | arr items => simp [insertArguments, eventData]
  | _ => rfl

/-- The three overloads of `emit` build one packet. -/
theorem emitPackets_eq (nsp event : Bytes) (data : Json) (id : Int) :
    emitPacket nsp event data = eventPacket nsp event data (-1) ∧
    emitAckPacket nsp event data id = eventPacket nsp event data id ∧
    emitTimedPacket nsp event data id = eventPacket nsp event data id := by
  refine ⟨?_, ?_, ?_⟩
  · rw [emitPacket, eventPacket, pushArguments_eq]
  · rw [emitAckPacket, eventPacket, pushArguments_eq]
  · rw [emitTimedPacket, eventPacket, insertArguments_eq]

theorem registerTimedAck_some {s sock : Socket} {deadline : Time} {callback : Nat} {id : Int}
    (h : s.registerTimedAck deadline callback = some (id, sock)) :
    s.timedAcksClosed = false ∧ id = s.nextAckId ∧
      sock = { s with nextAckId := s.nextAckId + 1,
                      timedAcks := emplace s.timedAcks s.nextAckId callback,
                      ackScheduler := s.ackScheduler.add s.nextAckId deadline } := by
  unfold registerTimedAck at h
  split at h
  · cases h
  · rename_i hclosed
    simp only [Option.some.injEq, Prod.mk.injEq] at h
    exact ⟨Bool.eq_false_iff.mpr hclosed, h.1.symm, h.2.symm⟩

/-! ## Acknowledgements -/

theorem expireAck_some {s sock : Socket} {id : Int} {callback : Nat}
    (h : s.expireAck id = (some callback, sock)) :
    s.timedAcks.lookup id = some callback ∧
      sock = { s with timedAcks := s.timedAcks.erase id,
                      activeTimedAcks := s.activeTimedAcks + 1 }.dropBuffered id := by
  unfold expireAck at h
  split at h
  · cases h
  · simp only [Prod.mk.injEq, Option.some.injEq] at h
    obtain ⟨rfl, rfl⟩ := h
    exact ⟨‹_›, rfl⟩

/-! ## Connecting and flushing -/

theorem markConnected_flush {s sock : Socket} {connected : Bool}
    (h : s.markConnected connected = (true, sock)) :
    connected = true ∧ s.connected = false ∧ s.flushingSendBuffer = false ∧
      sock = { s with connected := true, flushingSendBuffer := true } := by
  unfold markConnected at h
  split at h
  · rename_i hcond
    simp only [Bool.and_eq_true, Bool.not_eq_true'] at hcond
    obtain ⟨⟨rfl, hwas⟩, hflag⟩ := hcond
    cases h
    exact ⟨rfl, hwas, hflag, rfl⟩
  · cases h

theorem markConnected_noFlush {s sock : Socket} {connected : Bool}
    (h : s.markConnected connected = (false, sock)) :
    (connected = false ∨ s.connected = true ∨ s.flushingSendBuffer = true) ∧
      sock = { s with connected } := by
  unfold markConnected at h
  split at h
  · cases h
  · rename_i hcond
    cases h
    refine ⟨?_, rfl⟩
    cases connected with
    | false => exact .inl rfl
    | true =>
      cases hwas : s.connected with
      | true => exact .inr (.inl rfl)
      | false => exact .inr (.inr (by simpa [hwas] using hcond))

theorem flushTurn_done {s sock : Socket} {now : Time} (h : s.flushTurn now = (.done, sock)) :
    (s.connected = false ∨ s.sendBuffer = []) ∧ sock = { s with flushingSendBuffer := false } := by
  unfold flushTurn at h
  cases hc : s.connected with
  | false =>
    simp only [hc, Prod.mk.injEq] at h
    exact ⟨.inl rfl, h.2.symm⟩
  | true =>
    cases hb : s.sendBuffer with
    | nil =>
      simp only [hc, hb, Prod.mk.injEq] at h
      exact ⟨.inr rfl, h.2.symm⟩
    | cons out rest =>
      simp only [hc, hb, Prod.mk.injEq] at h
      split_ifs at h <;> cases h.1

/-- A turn sends the first packet if the socket is connected and the
packet's own timed acknowledgement has not expired. -/
theorem flushTurn_send_iff {s : Socket} {now : Time} {out : Outgoing} :
    (∃ sock, s.flushTurn now = (.send out, sock)) ↔
      s.connected = true ∧ ∃ rest, s.sendBuffer = out :: rest ∧
        ¬ (out.packet.id ∈ s.timedAcks ∧ s.ackScheduler.expired out.packet.id now = true) := by
  unfold flushTurn
  split
  · rename_i first rest hc hb
    simp only [hc, hb, Prod.mk.injEq, List.cons.injEq, true_and]
    split_ifs with hexpired
    · simp only [Bool.and_eq_true, decide_eq_true_eq] at hexpired
      refine ⟨?_, ?_⟩
      · rintro ⟨_, hsend, -⟩
        cases hsend
      · rintro ⟨_, ⟨rfl, -⟩, hlive⟩
        exact absurd hexpired hlive
    · simp only [Bool.and_eq_true, decide_eq_true_eq] at hexpired
      refine ⟨?_, ?_⟩
      · rintro ⟨_, hsend, -⟩
        cases hsend
        exact ⟨rest, ⟨rfl, rfl⟩, hexpired⟩
      · rintro ⟨_, ⟨rfl, rfl⟩, -⟩
        exact ⟨_, rfl, rfl⟩
  · rename_i hno
    refine ⟨?_, ?_⟩
    · rintro ⟨_, hsend⟩
      cases hsend
    · rintro ⟨hc, rest, hb, -⟩
      exact absurd hb (hno out rest hc)

/-- A turn that takes the first packet out sends it, or gives it up when
its own timed acknowledgement has expired. -/
theorem flushTurn_popped {s sock : Socket} {now : Time} {turn : FlushTurn}
    (h : s.flushTurn now = (turn, sock)) (hturn : turn ≠ .done) :
    ∃ out rest, s.connected = true ∧ s.sendBuffer = out :: rest ∧
      sock = { s with sendBuffer := rest } ∧
      (turn = .send out ∨ (turn = .expire out ∧ out.packet.id ∈ s.timedAcks ∧
        s.ackScheduler.expired out.packet.id now = true)) := by
  unfold flushTurn at h
  split at h
  · rename_i out rest hc hb
    simp only [Prod.mk.injEq] at h
    obtain ⟨rfl, rfl⟩ := h
    refine ⟨out, rest, hc, hb, rfl, ?_⟩
    split_ifs with hexpired
    · simp only [Bool.and_eq_true, decide_eq_true_eq] at hexpired
      exact .inr ⟨rfl, hexpired⟩
    · exact .inl rfl
  · simp only [Prod.mk.injEq] at h
    exact absurd h.1.symm hturn

end Socket

end Sioxx
