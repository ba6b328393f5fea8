/-
Sioxx.Socket.AckIdsTheorems — acknowledgement ids are usable until the
counter wraps.

The ids are handed out in the order of the counter (`Counted`), so the
first 2^31 of them are 0, 1, 2, … and the next one is the smallest `int`.
Up to there every table entry belongs to the one emission with its id
(`Owned`), and a registration never finds its id taken.

`step_keepsPending` and `step_assigns` say what a step can do to
`pending_acks_` and the counter; what it can do to `timed_acks_` is in
`TimedAcks.Step`.
-/
import Sioxx.Parser.MsgpackTheorems
import Sioxx.Socket.AckIds

namespace Sioxx

open Lib

/-! ## What a step does to the timed table -/

namespace TimedAcks

variable {v v' : TimedAcks}

/-- A callback that has left the table stays out. -/
theorem Step.spent_mono (h : Step v v') {callback : Nat} (hmem : callback ∈ v.spent) :
    callback ∈ v'.spent := by
  simp only [spent, List.mem_append, List.mem_map] at hmem ⊢
  cases h with
  | expire id cb caller expiring claims hid hlookup hexpiring hclaims =>
    rcases hmem with (⟨c, hc, rfl⟩ | hmem) | hmem
    · exact .inl (.inl ⟨c, hclaims.mem_iff.mpr (List.mem_cons_of_mem _ hc), rfl⟩)
    · exact .inl (.inr hmem)
    · exact .inr hmem
  | acknowledge id data cb claim hlookup hclaim =>
    rcases hmem with (⟨c, hc, rfl⟩ | hmem) | hmem
    · exact .inl (.inl ⟨c, List.mem_append_left _ hc, rfl⟩)
    · exact .inl (.inr hmem)
    · exact .inr hmem
  | invoke caller claim claims hclaims =>
    rcases hmem with (⟨c, hc, rfl⟩ | ⟨i, hi, rfl⟩) | hmem
    · rcases List.mem_cons.mp (hclaims.mem_iff.mp hc) with rfl | hc
      · exact .inl (.inr ⟨⟨caller, claim, v.now⟩, by simp, rfl⟩)
      · exact .inl (.inl ⟨c, hc, rfl⟩)
    · exact .inl (.inr ⟨i, List.mem_append_left _ hi, rfl⟩)
    · exact .inr hmem
  | cancel =>
    rcases hmem with hmem | hmem
    · exact .inl hmem
    · exact .inr (List.mem_append_left _ hmem)
  | emit | emitAck | register | tick | pop | giveUp | lose | ignoreAck | skip => exact hmem

/-- Emissions and ACKs are only ever added. -/
theorem Step.history (h : Step v v') : v.emitted <+: v'.emitted ∧ v.acks <+: v'.acks := by
  cases h with
  | emit | emitAck | register => exact ⟨List.prefix_append .., List.prefix_rfl⟩
  | acknowledge | ignoreAck => exact ⟨List.prefix_rfl, List.prefix_append ..⟩
  | tick | pop | giveUp | lose | expire | invoke | cancel | skip =>
    exact ⟨List.prefix_rfl, List.prefix_rfl⟩

/-- The callback of an erased entry is spent, the others stay. -/
theorem kept_of_erase {table : AList (fun _ : Int => Nat)} {spent : List Nat} {id : Int}
    {callback : Nat} (hlookup : table.lookup id = some callback) (hspent : callback ∈ spent)
    {k : Int} {cb : Nat} (hk : table.lookup k = some cb) :
    (table.erase id).lookup k = some cb ∨ cb ∈ spent := by
  by_cases hne : k = id
  · subst hne
    rw [hlookup] at hk
    cases hk
    exact .inr hspent
  · rw [AList.lookup_erase_ne hne]
    exact .inl hk

/-- A step that leaves the counter alone only takes entries out, and then
their callbacks are spent. -/
theorem Step.frame (h : Step v v') (hnext : v'.nextId = v.nextId) :
    (∀ id callback, v'.table.lookup id = some callback → v.table.lookup id = some callback) ∧
    (∀ id callback, v.table.lookup id = some callback →
      v'.table.lookup id = some callback ∨ callback ∈ v'.spent) := by
  cases h with
  | emitAck => exact absurd hnext (by simp)
  | register => exact absurd hnext (by simp)
  | expire id callback caller expiring claims hid hlookup hexpiring hclaims =>
    refine ⟨fun k cb hk => (lookup_erase_some hk).2, fun k cb hk => ?_⟩
    refine kept_of_erase hlookup ?_ hk
    simp only [spent, List.mem_append, List.mem_map]
    exact .inl (.inl ⟨_, hclaims.mem_iff.mpr (List.mem_cons_self ..), rfl⟩)
  | acknowledge id data callback claim hlookup hclaim =>
    refine ⟨fun k cb hk => (lookup_erase_some hk).2, fun k cb hk => ?_⟩
    refine kept_of_erase hlookup ?_ hk
    simp only [spent, List.mem_append, List.mem_map]
    refine .inl (.inl ⟨(.dispatcher, claim), by simp, ?_⟩)
    rw [hclaim]
    split <;> rfl
  | cancel =>
    refine ⟨fun k cb hk => by simp at hk, fun k cb hk => .inr ?_⟩
    simp only [spent, List.mem_append, List.mem_map]
    exact .inr (.inr ⟨⟨k, cb⟩, AList.mem_lookup_iff.mp hk, rfl⟩)
  | emit | tick | pop | giveUp | lose | ignoreAck | invoke | skip =>
    exact ⟨fun _ _ hk => hk, fun _ _ hk => .inl hk⟩

end TimedAcks

/-! ## What a step does to the counter and the plain table -/

namespace Machine

variable {m m' : Machine}

theorem emitters_setPc (m : Machine) (t : Nat) (pc : EmitPc) :
    (m.setPc t pc).emitters t = pc := by
  rw [setPc]
  exact Function.update_self t pc m.emitters

/-- What can happen to the untimed acknowledgements when no id is handed
out: an entry leaves the table when an ACK with its id arrives. -/
structure KeepsPending (m m' : Machine) : Prop where
  nextAckId : m'.sock.nextAckId = m.sock.nextAckId
  shrinks : ∀ id callback, m'.sock.pendingAcks.lookup id = some callback →
    m.sock.pendingAcks.lookup id = some callback
  kept : ∀ id callback, m.sock.pendingAcks.lookup id = some callback →
    m'.sock.pendingAcks.lookup id = some callback ∨
      ∃ ack, m'.acks = m.acks ++ [ack] ∧ ack.id = id

theorem KeepsPending.of_eq (hnext : m'.sock.nextAckId = m.sock.nextAckId)
    (hpending : m'.sock.pendingAcks = m.sock.pendingAcks) : KeepsPending m m' where
  nextAckId := hnext
  shrinks := fun id callback hk => by
    rw [← hpending]
    exact hk
  kept := fun id callback hk => by
    rw [hpending]
    exact .inl hk

theorem step_keepsPending {a : Action} (h : m.step a = some m') (ha : m.assigning a = none) :
    KeepsPending m m' := by
  cases step_cases h with
  | registerAck t event data hpc =>
    simp only [assigning, hpc] at ha
    cases ha
  | registerTimed t event data deadline hpc hopen =>
    simp only [assigning, hpc, hopen] at ha
    cases ha
  | ackPlain id data callback htimed hlookup =>
    refine ⟨rfl, fun k cb hk => (lookup_erase_some hk).2, fun k cb hk => ?_⟩
    by_cases hne : k = id
    · subst hne
      exact .inr ⟨_, rfl, rfl⟩
    · refine .inl ?_
      show (m.sock.pendingAcks.erase id).lookup k = some cb
      rw [AList.lookup_erase_ne hne]
      exact hk
  | _ => exact .of_eq rfl rfl

/-- What handing out an id does. -/
structure Assigns (m m' : Machine) (timed : Bool) : Prop where
  nextAckId : m'.sock.nextAckId = m.sock.nextAckId + 1
  acks : m'.acks = m.acks
  emitted : ∃ out, m'.emitted = m.emitted ++ [out] ∧ out.packet.id = m.sock.nextAckId
  pending : m'.sock.pendingAcks =
    if timed then m.sock.pendingAcks
    else m.sock.pendingAcks.insert m.sock.nextAckId m.emitted.length
  timedAcks : m'.sock.timedAcks =
    if timed then emplace m.sock.timedAcks m.sock.nextAckId m.emitted.length
    else m.sock.timedAcks

theorem step_assigns {a : Action} {timed : Bool} (h : m.step a = some m')
    (ha : m.assigning a = some timed) : Assigns m m' timed := by
  cases step_cases h with
  | registerAck t event data hpc =>
    simp only [assigning, hpc] at ha
    cases ha
    exact ⟨rfl, rfl, ⟨_, rfl, rfl⟩, rfl, rfl⟩
  | registerTimed t event data deadline hpc hopen =>
    simp only [assigning, hpc, hopen] at ha
    cases ha
    exact ⟨rfl, rfl, ⟨_, rfl, rfl⟩, rfl, rfl⟩
  | refuseTimed t event data deadline hpc hclosed =>
    simp only [assigning, hpc, hclosed] at ha
    cases ha
  | _ => cases ha

end Machine

/-! ## The ids are those of the counter -/

namespace IntMachine

variable {s s' : IntMachine} {a : Action}

/-- A step of the machine is one of `Machine`, with the counter wrapped. -/
theorem step_cases (h : s.step a = some s') : ∃ m, s.machine.step a = some m ∧
    ((s.machine.assigning a = none ∧ s' = ⟨m.wrapped, s.assigned⟩) ∨
      ∃ timed, s.machine.assigning a = some timed ∧
        s' = ⟨m.wrapped, s.assigned ++ [s.assignment timed]⟩) := by
  unfold step at h
  split at h
  · cases h
  · rename_i m hm
    cases h
    refine ⟨m, hm, ?_⟩
    cases s.machine.assigning a with
    | none => exact .inl ⟨rfl, rfl⟩
    | some timed => exact .inr ⟨timed, rfl, rfl⟩

structure Counted (s : IntMachine) : Prop where
  ids : s.assigned.map Assignment.id
    = (List.range s.assigned.length).map fun (k : Nat) => Json.wrapInt k
  next : s.machine.sock.nextAckId = Json.wrapInt s.assigned.length

theorem counted_init (nsp : Bytes) : (init nsp).Counted where
  ids := rfl
  next := by
    show (0 : Int) = Json.wrapInt 0
    decide

theorem Counted.step (h : s.Counted) (hstep : s.step a = some s') : s'.Counted := by
  obtain ⟨m, hm, ⟨ha, rfl⟩ | ⟨timed, ha, rfl⟩⟩ := step_cases hstep
  · refine ⟨h.ids, ?_⟩
    show Json.wrapInt m.sock.nextAckId = _
    rw [(Machine.step_keepsPending hm ha).nextAckId, h.next, Json.wrapInt_eq (Json.wrapInt_fits _)]
  · constructor
    · rw [List.map_append, List.length_append, List.length_singleton, List.range_succ,
        List.map_append, h.ids, List.map_singleton, List.map_singleton]
      exact congrArg _ (congrArg (fun i => [i]) h.next)
    · show Json.wrapInt m.sock.nextAckId = _
      rw [(Machine.step_assigns hm ha).nextAckId, h.next, List.length_append,
        List.length_singleton]
      unfold Json.wrapInt
      omega

theorem counted_run {nsp : Bytes} {as : List Action} (h : run step (init nsp) as = some s) :
    s.Counted :=
  run_preserves Counted (fun _ _ _ hc hstep => hc.step hstep) (counted_init nsp) h

/-- The counter has not wrapped. -/
def InRange (s : IntMachine) : Prop := s.assigned.length ≤ 2 ^ 31

theorem wrapInt_natCast {k : Nat} (h : k < 2 ^ 31) : Json.wrapInt k = k := by
  apply Json.wrapInt_eq
  unfold Json.FitsInt
  omega

theorem Counted.ids_eq (h : s.Counted) (hrange : s.InRange) :
    s.assigned.map Assignment.id = (List.range s.assigned.length).map Nat.cast := by
  rw [h.ids]
  refine List.map_congr_left fun k hk => wrapInt_natCast ?_
  exact Nat.lt_of_lt_of_le (List.mem_range.mp hk) hrange

theorem Counted.id_mem (h : s.Counted) (hrange : s.InRange) {r : Assignment}
    (hr : r ∈ s.assigned) : ∃ k : Nat, k < s.assigned.length ∧ r.id = k := by
  have hmem : r.id ∈ s.assigned.map Assignment.id := List.mem_map_of_mem hr
  rw [h.ids_eq hrange, List.mem_map] at hmem
  obtain ⟨k, hk, hid⟩ := hmem
  exact ⟨k, List.mem_range.mp hk, hid.symm⟩

/-- No two assignments share an id. -/
theorem Counted.id_inj (h : s.Counted) (hrange : s.InRange) {r r' : Assignment}
    (hr : r ∈ s.assigned) (hr' : r' ∈ s.assigned) (hid : r.id = r'.id) : r = r' := by
  have hnodup : (s.assigned.map Assignment.id).Nodup := by
    rw [h.ids_eq hrange]
    exact List.nodup_range.map Nat.cast_injective
  exact List.inj_on_of_nodup_map hnodup hr hr' hid

/-- The next id is a new one. -/
theorem Counted.next_fresh (h : s.Counted) (hlt : s.assigned.length < 2 ^ 31) {r : Assignment}
    (hr : r ∈ s.assigned) : r.id ≠ s.machine.sock.nextAckId := by
  obtain ⟨k, hk, hid⟩ := h.id_mem (Nat.le_of_lt hlt) hr
  rw [hid, h.next, wrapInt_natCast hlt]
  omega

/-- The first id after 2^31 others is negative. -/
theorem Counted.negative (h : s.Counted) (hrange : ¬ s.InRange) : ∃ r ∈ s.assigned, r.id < 0 := by
  have hmem : Json.wrapInt (2 ^ 31 : Nat) ∈ s.assigned.map Assignment.id := by
    rw [h.ids]
    exact List.mem_map_of_mem (List.mem_range.mpr (Nat.lt_of_not_le hrange))
  obtain ⟨r, hr, hid⟩ := List.mem_map.mp hmem
  refine ⟨r, hr, ?_⟩
  rw [hid]
  decide

/-! ## Every table entry is that of one assignment -/

/-- The table has entries of assignments of its kind. -/
def Owns (assigned : List Assignment) (timed : Bool) (table : AList (fun _ : Int => Nat)) : Prop :=
  ∀ id callback, table.lookup id = some callback →
    ∃ r ∈ assigned, r.id = id ∧ r.emission = callback ∧ r.timed = timed

theorem Owns.append {assigned : List Assignment} {timed : Bool}
    {table : AList (fun _ : Int => Nat)} (h : Owns assigned timed table) (r : Assignment) :
    Owns (assigned ++ [r]) timed table := by
  intro id callback hlookup
  obtain ⟨r', hr', hrest⟩ := h id callback hlookup
  exact ⟨r', List.mem_append_left _ hr', hrest⟩

theorem Owns.insert {assigned : List Assignment} {timed : Bool}
    {table : AList (fun _ : Int => Nat)} (h : Owns assigned timed table) {r : Assignment}
    (hr : r.timed = timed) : Owns (assigned ++ [r]) timed (table.insert r.id r.emission) := by
  intro id callback hlookup
  by_cases hid : id = r.id
  · subst hid
    rw [AList.lookup_insert] at hlookup
    exact ⟨r, by simp, rfl, Option.some.inj hlookup, hr⟩
  · rw [AList.lookup_insert_ne hid] at hlookup
    exact h.append r id callback hlookup

theorem Owns.not_mem {assigned : List Assignment} {timed : Bool}
    {table : AList (fun _ : Int => Nat)} (h : Owns assigned timed table) {id : Int}
    (hid : ∀ r ∈ assigned, r.id ≠ id) : id ∉ table := by
  intro hmem
  obtain ⟨callback, hlookup⟩ := Option.isSome_iff_exists.mp (AList.lookup_isSome.mpr hmem)
  obtain ⟨r, hr, hrid, -⟩ := h id callback hlookup
  exact hid r hr hrid

/-- An assignment is outstanding, or something took it out of its table. -/
def Waiting (m : Machine) (r : Assignment) : Prop :=
  (r.timed = false ∧ (m.sock.pendingAcks.lookup r.id = some r.emission ∨
    ∃ ack ∈ m.acks.drop r.acksBefore, ack.id = r.id)) ∨
  (r.timed = true ∧ (m.sock.timedAcks.lookup r.id = some r.emission ∨
    r.emission ∈ m.timedAcks.spent))

structure Owned (s : IntMachine) : Prop where
  fresh : ∀ r ∈ s.assigned, r.id ∉ r.outstanding
  emitted : ∀ r ∈ s.assigned, ∃ out, s.machine.emitted[r.emission]? = some out ∧
    out.packet.id = r.id
  pending : Owns s.assigned false s.machine.sock.pendingAcks
  timed : Owns s.assigned true s.machine.sock.timedAcks
  acksBefore : ∀ r ∈ s.assigned, r.acksBefore ≤ s.machine.acks.length
  waiting : ∀ r ∈ s.assigned, Waiting s.machine r

theorem owned_init (nsp : Bytes) : (init nsp).Owned where
  fresh := fun r hr => absurd hr List.not_mem_nil
  emitted := fun r hr => absurd hr List.not_mem_nil
  pending := fun id callback h => by simp [init, Machine.init] at h
  timed := fun id callback h => by simp [init, Machine.init] at h
  acksBefore := fun r hr => absurd hr List.not_mem_nil
  waiting := fun r hr => absurd hr List.not_mem_nil

theorem acked_mono {acks acks' : List ReceivedAck} (h : acks <+: acks') {n : Nat} {id : Int}
    (hack : ∃ ack ∈ acks.drop n, ack.id = id) : ∃ ack ∈ acks'.drop n, ack.id = id := by
  obtain ⟨ack, hmem, hid⟩ := hack
  obtain ⟨more, rfl⟩ := h
  refine ⟨ack, ?_, hid⟩
  rw [List.drop_append]
  exact List.mem_append_left _ hmem

theorem emitted_mono {l l' : List Outgoing} (h : l <+: l') {n : Nat} {id : Int}
    (hout : ∃ out, l[n]? = some out ∧ out.packet.id = id) :
    ∃ out, l'[n]? = some out ∧ out.packet.id = id := by
  obtain ⟨out, hget, hid⟩ := hout
  obtain ⟨more, rfl⟩ := h
  refine ⟨out, ?_, hid⟩
  rw [List.getElem?_append_left (List.getElem?_eq_some_iff.mp hget).1]
  exact hget

theorem Owned.quiet (h : s.Owned) {m : Machine} (hm : s.machine.step a = some m)
    (ha : s.machine.assigning a = none) : Owned ⟨m.wrapped, s.assigned⟩ := by
  have hstep := Machine.step_timedAcks hm
  have hpending := Machine.step_keepsPending hm ha
  obtain ⟨hshrinks, hkept⟩ := hstep.frame hpending.nextAckId
  obtain ⟨hemitted, hacks⟩ := hstep.history
  refine ⟨h.fresh, fun r hr => emitted_mono hemitted (h.emitted r hr),
    fun id callback hlookup => h.pending id callback (hpending.shrinks id callback hlookup),
    fun id callback hlookup => h.timed id callback (hshrinks id callback hlookup),
    fun r hr => Nat.le_trans (h.acksBefore r hr) hacks.length_le, fun r hr => ?_⟩
  rcases h.waiting r hr with ⟨hplain, hlookup | hack⟩ | ⟨htimed, hlookup | hspent⟩
  · refine .inl ⟨hplain, ?_⟩
    rcases hpending.kept r.id r.emission hlookup with hlookup | ⟨ack, hnew, hid⟩
    · exact .inl hlookup
    · -- this step's ACK comes after those before the assignment
      refine .inr ⟨ack, ?_, hid⟩
      show ack ∈ m.acks.drop r.acksBefore
      rw [hnew, List.drop_append_of_le_length (h.acksBefore r hr)]
      simp
  · exact .inl ⟨hplain, .inr (acked_mono hacks hack)⟩
  · exact .inr ⟨htimed, hkept r.id r.emission hlookup⟩
  · exact .inr ⟨htimed, .inr (hstep.spent_mono hspent)⟩

/-- What an assignment finds, and what it leaves of the others. -/
theorem Waiting.assign {m m' : Machine} {timed : Bool} {r : Assignment} (h : Waiting m r)
    (hassigns : Machine.Assigns m m' timed) (hstep : TimedAcks.Step m.timedAcks m'.timedAcks)
    (hnew : m.sock.nextAckId ∉ m.sock.timedAcks) (hne : r.id ≠ m.sock.nextAckId) :
    Waiting m' r := by
  rcases h with ⟨hplain, hlookup | hack⟩ | ⟨htimed, hlookup | hspent⟩
  · refine .inl ⟨hplain, .inl ?_⟩
    rw [hassigns.pending]
    split
    · exact hlookup
    · rw [AList.lookup_insert_ne hne]
      exact hlookup
  · refine .inl ⟨hplain, .inr ?_⟩
    rw [hassigns.acks]
    exact hack
  · refine .inr ⟨htimed, .inl ?_⟩
    rw [hassigns.timedAcks]
    split
    · rw [emplace, if_neg hnew, AList.lookup_insert_ne hne]
      exact hlookup
    · exact hlookup
  · exact .inr ⟨htimed, .inr (hstep.spent_mono hspent)⟩

theorem waiting_assignment {m : Machine} {timed : Bool}
    (hassigns : Machine.Assigns s.machine m timed)
    (hnew : s.machine.sock.nextAckId ∉ s.machine.sock.timedAcks) :
    Waiting m (s.assignment timed) := by
  cases timed with
  | false =>
    refine .inl ⟨rfl, .inl ?_⟩
    rw [hassigns.pending]
    exact AList.lookup_insert _
  | true =>
    refine .inr ⟨rfl, .inl ?_⟩
    rw [hassigns.timedAcks, if_pos rfl, emplace, if_neg hnew]
    exact AList.lookup_insert _

theorem Owned.assign (h : s.Owned) (hcounted : s.Counted) (hlt : s.assigned.length < 2 ^ 31)
    {m : Machine} {timed : Bool} (hm : s.machine.step a = some m)
    (ha : s.machine.assigning a = some timed) :
    Owned ⟨m.wrapped, s.assigned ++ [s.assignment timed]⟩ := by
  have hstep := Machine.step_timedAcks hm
  have hassigns := Machine.step_assigns hm ha
  have hne : ∀ r ∈ s.assigned, r.id ≠ s.machine.sock.nextAckId :=
    fun r hr => hcounted.next_fresh hlt hr
  have hpending := h.pending.not_mem hne
  have htimed := h.timed.not_mem hne
  obtain ⟨out, hout, hid⟩ := hassigns.emitted
  constructor
  case fresh =>
    intro r hr
    rcases List.mem_append.mp hr with hr | hr
    · exact h.fresh r hr
    · rw [List.mem_singleton.mp hr]
      intro hmem
      rcases List.mem_append.mp hmem with hmem | hmem
      · exact hpending (AList.mem_keys.mpr hmem)
      · exact htimed (AList.mem_keys.mpr hmem)
  case emitted =>
    intro r hr
    rcases List.mem_append.mp hr with hr | hr
    · exact emitted_mono hstep.history.1 (h.emitted r hr)
    · rw [List.mem_singleton.mp hr]
      refine ⟨out, ?_, hid⟩
      show m.emitted[s.machine.emitted.length]? = some out
      rw [hout, List.getElem?_concat_length]
  case pending =>
    show Owns _ false m.sock.pendingAcks
    rw [hassigns.pending]
    cases timed with
    | false => exact h.pending.insert rfl
    | true => exact h.pending.append _
  case timed =>
    show Owns _ true m.sock.timedAcks
    rw [hassigns.timedAcks]
    cases timed with
    | false => exact h.timed.append _
    | true =>
      rw [if_pos rfl, emplace, if_neg htimed]
      exact h.timed.insert rfl
  case acksBefore =>
    intro r hr
    show r.acksBefore ≤ m.acks.length
    rw [hassigns.acks]
    rcases List.mem_append.mp hr with hr | hr
    · exact h.acksBefore r hr
    · rw [List.mem_singleton.mp hr]
      exact Nat.le_refl _
  case waiting =>
    intro r hr
    show Waiting m r
    rcases List.mem_append.mp hr with hr | hr
    · exact (h.waiting r hr).assign hassigns hstep htimed (hne r hr)
    · rw [List.mem_singleton.mp hr]
      exact waiting_assignment hassigns htimed

/-- What every run keeps. -/
def Inv (s : IntMachine) : Prop := s.Counted ∧ (s.InRange → s.Owned)

theorem Inv.step (h : s.Inv) (hstep : s.step a = some s') : s'.Inv := by
  refine ⟨h.1.step hstep, fun hrange => ?_⟩
  obtain ⟨m, hm, ⟨ha, rfl⟩ | ⟨timed, ha, rfl⟩⟩ := step_cases hstep
  · exact (h.2 hrange).quiet hm ha
  · have hlt : s.assigned.length < 2 ^ 31 := by
      have hle : (s.assigned ++ [s.assignment timed]).length ≤ 2 ^ 31 := hrange
      rw [List.length_append, List.length_singleton] at hle
      exact hle
    exact (h.2 (Nat.le_of_lt hlt)).assign h.1 hlt hm ha

theorem inv_run {nsp : Bytes} {as : List Action} (h : run step (init nsp) as = some s) : s.Inv :=
  run_preserves Inv (fun _ _ _ hi hstep => hi.step hstep)
    ⟨counted_init nsp, fun _ => owned_init nsp⟩ h

/-! ## Usable ids -/

theorem carriesId {packet : Packet} (h : 0 ≤ packet.id) : CarriesId packet := by
  constructor
  · intro type attachments
    simp [JsonParser.header, h]
  · refine ⟨_, rfl, ?_⟩
    rw [if_pos h]
    split
    · rfl
    · rfl

section Usable

variable (hcounted : s.Counted) (hrange : s.InRange) (howned : s.Owned)

include hcounted hrange howned

/-- The tables have no id in common. -/
theorem lookup_apart {id : Int} {callback : Nat}
    (h : s.machine.sock.pendingAcks.lookup id = some callback) :
    s.machine.sock.timedAcks.lookup id = none := by
  cases htimed : s.machine.sock.timedAcks.lookup id with
  | none => rfl
  | some other =>
    obtain ⟨r, hr, hid, -, hplain⟩ := howned.pending id callback h
    obtain ⟨r', hr', hid', -, htimed⟩ := howned.timed id other htimed
    have hsame := hcounted.id_inj hrange hr hr' (hid.trans hid'.symm)
    rw [hsame, htimed] at hplain
    cases hplain

theorem completes_of_owned {r : Assignment} (hr : r ∈ s.assigned) (now : Time) :
    (s.machine.sock.dispatchAck r.id now).1.callback = some r.emission ∨
      (∃ ack ∈ s.machine.acks.drop r.acksBefore, ack.id = r.id) ∨
      (r.timed = true ∧ r.emission ∈ s.machine.timedAcks.spent) := by
  rcases howned.waiting r hr with ⟨-, hlookup | hack⟩ | ⟨htimed, hlookup | hspent⟩
  · refine .inl ?_
    rw [Socket.dispatchAck, lookup_apart hcounted hrange howned hlookup, hlookup]
    rfl
  · exact .inr (.inl hack)
  · refine .inl ?_
    rw [Socket.dispatchAck, hlookup]
    rfl
  · exact .inr (.inr ⟨htimed, hspent⟩)

theorem answers_of_owned {id : Int} {now : Time} {callback : Nat}
    (h : (s.machine.sock.dispatchAck id now).1.callback = some callback) :
    ∃ r ∈ s.assigned, r.id = id ∧ r.emission = callback ∧
      ∀ r' ∈ s.assigned, r'.id = id → r' = r := by
  have howner : ∃ r ∈ s.assigned, r.id = id ∧ r.emission = callback := by
    unfold Socket.dispatchAck at h
    cases htimed : s.machine.sock.timedAcks.lookup id with
    | some other =>
      rw [htimed] at h
      cases h
      obtain ⟨r, hr, hid, hemission, -⟩ := howned.timed id callback htimed
      exact ⟨r, hr, hid, hemission⟩
    | none =>
      cases hplain : s.machine.sock.pendingAcks.lookup id with
      | some other =>
        rw [htimed, hplain] at h
        cases h
        obtain ⟨r, hr, hid, hemission, -⟩ := howned.pending id callback hplain
        exact ⟨r, hr, hid, hemission⟩
      | none =>
        rw [htimed, hplain] at h
        cases h
  obtain ⟨r, hr, hid, hemission⟩ := howner
  refine ⟨r, hr, hid, hemission, fun r' hr' hid' => ?_⟩
  exact hcounted.id_inj hrange hr' hr (hid'.trans hid.symm)

theorem usableIds_of_owned : s.UsableIds where
  nonneg := by
    intro r hr
    obtain ⟨k, -, hid⟩ := hcounted.id_mem hrange hr
    rw [hid]
    exact Int.natCast_nonneg k
  fresh := howned.fresh
  carried := by
    intro r hr
    obtain ⟨out, hout, hid⟩ := howned.emitted r hr
    obtain ⟨k, -, hk⟩ := hcounted.id_mem hrange hr
    refine ⟨out, hout, hid, carriesId ?_⟩
    rw [hid, hk]
    exact Int.natCast_nonneg k
  completes := fun r hr now => completes_of_owned hcounted hrange howned hr now
  answers := fun id now callback h => answers_of_owned hcounted hrange howned h

end Usable

theorem Counted.not_usableIds (h : s.Counted) (hrange : ¬ s.InRange) : ¬ s.UsableIds := by
  intro husable
  obtain ⟨r, hr, hneg⟩ := h.negative hrange
  exact absurd (husable.nonneg r hr) (Int.not_le.mpr hneg)

/-- **Ids are usable up to the range of the counter.** After any
interleaving of the sections of a socket, the ids handed out are
non-negative, new when they are handed out, on the wire, and answered by
their own ACKs, exactly if no more than 2^31 of them were handed out. -/
theorem usableIds_iff {nsp : Bytes} {as : List Action} {s : IntMachine}
    (h : run step (init nsp) as = some s) : s.UsableIds ↔ s.assigned.length ≤ 2 ^ 31 := by
  obtain ⟨hcounted, howned⟩ := inv_run h
  constructor
  · intro husable
    by_contra hrange
    exact hcounted.not_usableIds hrange husable
  · intro hrange
    exact usableIds_of_owned hcounted hrange (howned hrange)

/-- An untimed emission that is answered, and a timed one that is not. -/
def twoAcks : List Action :=
  [.emitAck 0 (ascii "a") .null, .register 0, .decide 0,
   .emitTimed 1 (ascii "b") .null 5 true, .register 1, .decide 1, .dispatchAck 0 (.int 7)]

theorem usableIds_iff_twoAcks : ∃ s, run step (init (ascii "/")) twoAcks = some s ∧
    s.assigned.map Assignment.id = [0, 1] ∧ s.UsableIds := by
  exact ⟨_, rfl, rfl, (@usableIds_iff (ascii "/") twoAcks _ rfl).mpr (by decide)⟩

/-! ## The counter wraps -/

/-- An emission with an acknowledgement, on a socket that is not connected. -/
def oneEmission : List Action := [.emitAck 0 (ascii "a") .null, .register 0, .decide 0]

/-- Thread 0 is at `pc`, and nobody is inside a section. -/
structure At (s : IntMachine) (pc : EmitPc) : Prop where
  emitters : s.machine.emitters 0 = pc
  mutex : s.machine.mutex = none
  connected : s.machine.sock.connected = false

theorem At.emitAck (h : s.At .idle) (event : Bytes) (data : Json) :
    ∃ s', s.step (.emitAck 0 event data) = some s' ∧ s'.At (.registering event data) ∧
      s'.assigned = s.assigned := by
  refine ⟨⟨(s.machine.setPc 0 (.registering event data)).wrapped, s.assigned⟩, ?_,
    ⟨Machine.emitters_setPc s.machine 0 _, h.mutex, h.connected⟩, rfl⟩
  simp only [step, Machine.step, h.emitters, Machine.assigning]

theorem At.register {event : Bytes} {data : Json} (h : s.At (.registering event data)) :
    ∃ s' out, s.step (.register 0) = some s' ∧ s'.At (.deciding out) ∧
      s'.assigned.length = s.assigned.length + 1 := by
  have hm : ∃ m out, s.machine.step (.register 0) = some m ∧ m.emitters 0 = .deciding out ∧
      m.mutex = none ∧ m.sock.connected = false := by
    simp only [Machine.step, Machine.registerStep, h.emitters, Machine.locked, h.mutex, if_true]
    refine ⟨_, s.machine.outgoing 0 event data s.machine.sock.nextAckId false, rfl, ?_,
      h.mutex, h.connected⟩
    exact Machine.emitters_setPc s.machine 0 _
  obtain ⟨m, out, hm, hpc, hmutex, hdown⟩ := hm
  refine ⟨⟨m.wrapped, s.assigned ++ [s.assignment false]⟩, out, ?_, ⟨hpc, hmutex, hdown⟩, ?_⟩
  · simp only [step, hm, Machine.assigning, h.emitters]
  · rw [List.length_append, List.length_singleton]

theorem At.decide {out : Outgoing} (h : s.At (.deciding out)) :
    ∃ s', s.step (.decide 0) = some s' ∧ s'.At .idle ∧ s'.assigned = s.assigned := by
  have hbuffer : s.machine.sock.mustBuffer = true := by
    rw [Socket.mustBuffer, h.connected]
    rfl
  have hm : ∃ m, s.machine.step (.decide 0) = some m ∧ m.emitters 0 = .idle ∧
      m.mutex = none ∧ m.sock.connected = false := by
    simp only [Machine.step, Machine.decideStep, h.emitters, Machine.locked, h.mutex, if_true,
      Machine.bufferOrSend, hbuffer]
    exact ⟨_, rfl, Machine.emitters_setPc s.machine 0 _, h.mutex, h.connected⟩
  obtain ⟨m, hm, hpc, hmutex, hdown⟩ := hm
  refine ⟨⟨m.wrapped, s.assigned⟩, ?_, ⟨hpc, hmutex, hdown⟩, rfl⟩
  simp only [step, hm, Machine.assigning]

theorem At.run_oneEmission (h : s.At .idle) : ∃ s', run step s oneEmission = some s' ∧ s'.At .idle ∧
    s'.assigned.length = s.assigned.length + 1 := by
  obtain ⟨s₁, hstep₁, h₁, hassigned₁⟩ := h.emitAck (ascii "a") .null
  obtain ⟨s₂, out, hstep₂, h₂, hlength⟩ := h₁.register
  obtain ⟨s₃, hstep₃, h₃, hassigned₃⟩ := h₂.decide
  refine ⟨s₃, ?_, h₃, ?_⟩
  · exact run_cons_iff.mpr ⟨s₁, hstep₁, run_cons_iff.mpr ⟨s₂, hstep₂,
      run_cons_iff.mpr ⟨s₃, hstep₃, rfl⟩⟩⟩
  · rw [hassigned₃, hlength, hassigned₁]

theorem At.run_emissions (n : Nat) (h : s.At .idle) :
    ∃ s', run step s (List.replicate n oneEmission).flatten = some s' ∧
      s'.assigned.length = s.assigned.length + n := by
  induction n generalizing s with
  | zero => exact ⟨s, rfl, rfl⟩
  | succ n ih =>
    obtain ⟨s₁, hrun₁, h₁, hlength₁⟩ := h.run_oneEmission
    obtain ⟨s₂, hrun₂, hlength₂⟩ := ih h₁
    refine ⟨s₂, ?_, ?_⟩
    · rw [List.replicate_succ, List.flatten_cons]
      exact run_append hrun₁ hrun₂
    · omega

/-- After 2^31 + 1 emissions the ids are not usable. -/
theorem emissions_not_usable :
    ∃ s, run step (init (ascii "/")) (List.replicate (2 ^ 31 + 1) oneEmission).flatten = some s ∧
      ¬ s.UsableIds := by
  have hidle : (init (ascii "/")).At .idle := ⟨rfl, rfl, rfl⟩
  obtain ⟨s, hrun, hlength⟩ := hidle.run_emissions (2 ^ 31 + 1)
  refine ⟨s, hrun, (counted_run hrun).not_usableIds ?_⟩
  have hassigned : (init (ascii "/")).assigned.length = 0 := rfl
  unfold InRange
  omega

end IntMachine

end Sioxx
