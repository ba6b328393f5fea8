/-
Sioxx.Socket.TimedAck — timed acknowledgements on their own.

`TimedAcks` has what decides the fate of a timed acknowledgement: the
table of callbacks, the scheduler, the clock, the ids on their way to
`expire_ack`, and the claimed callbacks that wait to be run. `Step` says
what can happen to it. Four kinds of thread take callbacks out of the
table; the others only see that they are gone.

The laws come in three groups, each built on the one before:

  * `Registry` — ids and callbacks belong to one registration each;
  * `Scheduled` — table and scheduler hold registered entries, and an
    entry of the table that has no deadline in the scheduler is one whose
    deadline passed, because only the worker's pop takes a deadline and
    leaves the callback;
  * `Outcomes` — a claimed or run callback has its reason, and is neither
    in the table nor anywhere else a second time.
-/
import Sioxx.Socket.Machine
import Sioxx.Socket.SocketTheorems
import Mathlib.Data.List.Nodup
import Mathlib.Data.List.Perm.Basic

namespace Sioxx

structure TimedAcks where
  table : AList (fun _ : Int => Nat)
  scheduler : AckScheduler
  nextId : Int
  now : Time
  emitted : List Outgoing
  registered : List Registration
  acks : List ReceivedAck
  /-- Ids that a thread is about to pass to `expire_ack`. -/
  expiring : List Int
  claims : List (Caller × Claim)
  invoked : List Invocation
  cancelled : List Nat

namespace TimedAcks

/-- The callbacks that have left the table. -/
def spent (v : TimedAcks) : List Nat :=
  v.claims.map (·.2.callback) ++ v.invoked.map (·.claim.callback) ++ v.cancelled

/-- What can happen to the timed acknowledgements. -/
inductive Step : TimedAcks → TimedAcks → Prop
  | emit (v : TimedAcks) (out : Outgoing) (hnumber : out.emission = v.emitted.length)
      (hid : out.packet.id = -1) :
      Step v { v with emitted := v.emitted ++ [out] }
  | emitAck (v : TimedAcks) (out : Outgoing) (hnumber : out.emission = v.emitted.length)
      (hid : out.packet.id = v.nextId) :
      Step v { v with emitted := v.emitted ++ [out], nextId := v.nextId + 1 }
  | register (v : TimedAcks) (out : Outgoing) (deadline : Time)
      (hnumber : out.emission = v.emitted.length) (hid : out.packet.id = v.nextId)
      (htimed : out.timed = true) :
      Step v { v with
        emitted := v.emitted ++ [out], nextId := v.nextId + 1,
        table := emplace v.table v.nextId v.emitted.length,
        scheduler := v.scheduler.add v.nextId deadline,
        registered := v.registered ++ [⟨v.nextId, v.emitted.length, deadline⟩] }
  | tick (v : TimedAcks) (elapsed : Nat) : Step v { v with now := v.now + elapsed }
  | pop (v : TimedAcks) (id : Int) (scheduler : AckScheduler)
      (hpop : v.scheduler.pop v.now = some (id, scheduler)) :
      Step v { v with scheduler, expiring := v.expiring ++ [id] }
  | giveUp (v : TimedAcks) (id : Int) (expiring : List Int) (hmem : id ∈ v.table)
      (hexpired : v.scheduler.expired id v.now = true)
      (hexpiring : ∀ k ∈ expiring, k = id ∨ k ∈ v.expiring) : Step v { v with expiring }
  | lose (v : TimedAcks) (expiring : List Int) (hexpiring : ∀ k ∈ expiring, k ∈ v.expiring) :
      Step v { v with expiring }
  | expire (v : TimedAcks) (id : Int) (callback : Nat) (caller : Caller) (expiring : List Int)
      (claims : List (Caller × Claim)) (hid : id ∈ v.expiring)
      (hlookup : v.table.lookup id = some callback)
      (hexpiring : ∀ k ∈ expiring, k ∈ v.expiring)
      (hclaims : claims.Perm ((caller, ⟨id, callback, .timeout, .null⟩) :: v.claims)) :
      Step v { v with table := v.table.erase id, expiring, claims }
  | acknowledge (v : TimedAcks) (id : Int) (data : Json) (callback : Nat) (claim : Claim)
      (hlookup : v.table.lookup id = some callback)
      (hclaim : claim = if (v.scheduler.remove id v.now).1 then ⟨id, callback, .timeout, .null⟩
        else ⟨id, callback, .acknowledged, data⟩) :
      Step v { v with
        table := v.table.erase id, scheduler := (v.scheduler.remove id v.now).2,
        acks := v.acks ++ [⟨id, data, v.now⟩], claims := v.claims ++ [(.dispatcher, claim)] }
  | ignoreAck (v : TimedAcks) (id : Int) (data : Json) :
      Step v { v with acks := v.acks ++ [⟨id, data, v.now⟩] }
  | invoke (v : TimedAcks) (caller : Caller) (claim : Claim) (claims : List (Caller × Claim))
      (hclaims : v.claims.Perm ((caller, claim) :: claims)) :
      Step v { v with claims, invoked := v.invoked ++ [⟨caller, claim, v.now⟩] }
  | cancel (v : TimedAcks) :
      Step v { v with
        table := ∅, scheduler := v.scheduler.clear,
        cancelled := v.cancelled ++ v.table.entries.map (·.2) }
  | skip (v : TimedAcks) : Step v v

/-! ## The laws -/

structure Registry (v : TimedAcks) : Prop where
  numbered : v.emitted.map Outgoing.emission = List.range v.emitted.length
  nextId : 0 ≤ v.nextId
  emittedIds : ∀ out ∈ v.emitted, out.packet.id < v.nextId
  ids : ∀ r ∈ v.registered, 0 ≤ r.id ∧ r.id < v.nextId
  callbacks : ∀ r ∈ v.registered, r.callback < v.emitted.length
  byId : ∀ r ∈ v.registered, ∀ r' ∈ v.registered, r.id = r'.id → r = r'
  byCallback : ∀ r ∈ v.registered, ∀ r' ∈ v.registered, r.callback = r'.callback → r = r'
  own : ∀ out ∈ v.emitted, ∀ r ∈ v.registered, out.packet.id = r.id →
    out.emission = r.callback ∧ out.timed = true

structure Scheduled (v : TimedAcks) : Prop where
  table : ∀ id callback, v.table.lookup id = some callback →
    ∃ r ∈ v.registered, r.id = id ∧ r.callback = callback
  deadlines : ∀ id deadline, v.scheduler.deadlines.lookup id = some deadline →
    ∃ r ∈ v.registered, r.id = id ∧ r.deadline = deadline
  ordered : ∀ deadline id, (deadline, id) ∈ v.scheduler.ordered →
    ∃ r ∈ v.registered, r.id = id ∧ r.deadline = deadline
  popped : ∀ r ∈ v.registered, r.id ∈ v.table →
    r.id ∈ v.scheduler.deadlines ∨ r.deadline ≤ v.now
  expiring : ∀ id ∈ v.expiring, ∃ r ∈ v.registered, r.id = id ∧ r.deadline ≤ v.now

/-- The reason a callback may be run at `time` with what its claim says. -/
def Justified (v : TimedAcks) (caller : Caller) (claim : Claim) (time : Time) : Prop :=
  ∃ r ∈ v.registered, r.id = claim.id ∧ r.callback = claim.callback ∧
    match claim.status with
    | .timeout => r.deadline ≤ time ∧ claim.data = .null
    | .acknowledged => caller = .dispatcher ∧
        ∃ ack ∈ v.acks, ack.id = r.id ∧ ack.data = claim.data ∧ ack.time < r.deadline

structure Outcomes (v : TimedAcks) : Prop where
  claims : ∀ c ∈ v.claims, v.Justified c.1 c.2 v.now
  invoked : ∀ i ∈ v.invoked, v.Justified i.caller i.claim i.time
  cancelled : ∀ callback ∈ v.cancelled, ∃ r ∈ v.registered, r.callback = callback
  once : v.spent.Nodup
  apart : ∀ id callback, v.table.lookup id = some callback → callback ∉ v.spent

structure Law (v : TimedAcks) : Prop where
  registry : v.Registry
  scheduled : v.Scheduled
  outcomes : v.Outcomes

/-! ## Registrations -/

theorem numbered_append {l : List Outgoing} {out : Outgoing}
    (h : l.map Outgoing.emission = List.range l.length) (hout : out.emission = l.length) :
    (l ++ [out]).map Outgoing.emission = List.range (l ++ [out]).length := by
  simp only [List.map_append, List.map_cons, List.map_nil, List.length_append,
    List.length_singleton, List.range_succ, h, hout]

/-- A plain emission or one with an untimed acknowledgement. -/
theorem Registry.emit {v : TimedAcks} (h : v.Registry) {out : Outgoing} {nextId : Int}
    (hnumber : out.emission = v.emitted.length)
    (hid : out.packet.id = -1 ∨ out.packet.id = v.nextId)
    (hnext : v.nextId ≤ nextId) (hlt : out.packet.id < nextId) :
    Registry { v with emitted := v.emitted ++ [out], nextId } where
  numbered := numbered_append h.numbered hnumber
  nextId := le_trans h.nextId hnext
  emittedIds := by
    intro o ho
    rcases List.mem_append.mp ho with ho | ho
    · exact lt_of_lt_of_le (h.emittedIds o ho) hnext
    · rw [List.mem_singleton.mp ho]
      exact hlt
  ids := fun r hr => ⟨(h.ids r hr).1, lt_of_lt_of_le (h.ids r hr).2 hnext⟩
  callbacks := fun r hr => by
    have := h.callbacks r hr
    simp only [List.length_append, List.length_singleton]
    omega
  byId := h.byId
  byCallback := h.byCallback
  own := by
    intro o ho r hr heq
    rcases List.mem_append.mp ho with ho | ho
    · exact h.own o ho r hr heq
    · -- its id is that of no registration
      rw [List.mem_singleton.mp ho] at heq
      have hr' := h.ids r hr
      omega

theorem Registry.register {v : TimedAcks} (h : v.Registry) {out : Outgoing} {deadline : Time}
    (hnumber : out.emission = v.emitted.length) (hid : out.packet.id = v.nextId)
    (htimed : out.timed = true) {table : AList (fun _ : Int => Nat)} {scheduler : AckScheduler} :
    Registry { v with
      emitted := v.emitted ++ [out], nextId := v.nextId + 1, table, scheduler,
      registered := v.registered ++ [⟨v.nextId, v.emitted.length, deadline⟩] } where
  numbered := numbered_append h.numbered hnumber
  nextId := by
    have := h.nextId
    show 0 ≤ v.nextId + 1
    omega
  emittedIds := by
    intro o ho
    show o.packet.id < v.nextId + 1
    rcases List.mem_append.mp ho with ho | ho
    · have := h.emittedIds o ho
      omega
    · rw [List.mem_singleton.mp ho, hid]
      omega
  ids := by
    intro r hr
    show 0 ≤ r.id ∧ r.id < v.nextId + 1
    rcases List.mem_append.mp hr with hr | hr
    · have := h.ids r hr
      omega
    · have := h.nextId
      rw [List.mem_singleton.mp hr]
      exact ⟨this, Int.lt_succ v.nextId⟩
  callbacks := by
    intro r hr
    show r.callback < (v.emitted ++ [out]).length
    rw [List.length_append, List.length_singleton]
    rcases List.mem_append.mp hr with hr | hr
    · have := h.callbacks r hr
      omega
    · rw [List.mem_singleton.mp hr]
      simp
  byId := by
    intro r hr r' hr' heq
    rcases List.mem_append.mp hr with hr | hr <;> rcases List.mem_append.mp hr' with hr' | hr'
    · exact h.byId r hr r' hr' heq
    · rw [List.mem_singleton.mp hr'] at heq
      exact absurd heq (ne_of_lt (h.ids r hr).2)
    · rw [List.mem_singleton.mp hr] at heq
      exact absurd heq.symm (ne_of_lt (h.ids r' hr').2)
    · rw [List.mem_singleton.mp hr, List.mem_singleton.mp hr']
  byCallback := by
    intro r hr r' hr' heq
    rcases List.mem_append.mp hr with hr | hr <;> rcases List.mem_append.mp hr' with hr' | hr'
    · exact h.byCallback r hr r' hr' heq
    · rw [List.mem_singleton.mp hr'] at heq
      exact absurd heq (Nat.ne_of_lt (h.callbacks r hr))
    · rw [List.mem_singleton.mp hr] at heq
      exact absurd heq.symm (Nat.ne_of_lt (h.callbacks r' hr'))
    · rw [List.mem_singleton.mp hr, List.mem_singleton.mp hr']
  own := by
    intro o ho r hr heq
    rcases List.mem_append.mp ho with ho | ho <;> rcases List.mem_append.mp hr with hr | hr
    · exact h.own o ho r hr heq
    · rw [List.mem_singleton.mp hr] at heq
      exact absurd heq (ne_of_lt (h.emittedIds o ho))
    · rw [List.mem_singleton.mp ho, hid] at heq
      exact absurd heq.symm (ne_of_lt (h.ids r hr).2)
    · rw [List.mem_singleton.mp ho, List.mem_singleton.mp hr]
      exact ⟨hnumber, htimed⟩

/-- A step that leaves emissions, registrations and the counter alone. -/
theorem Registry.frame {v v' : TimedAcks} (h : v.Registry) (hemitted : v'.emitted = v.emitted)
    (hregistered : v'.registered = v.registered) (hnext : v'.nextId = v.nextId) : v'.Registry := by
  constructor
  · rw [hemitted]; exact h.numbered
  · rw [hnext]; exact h.nextId
  · rw [hemitted, hnext]; exact h.emittedIds
  · rw [hregistered, hnext]; exact h.ids
  · rw [hregistered, hemitted]; exact h.callbacks
  · rw [hregistered]; exact h.byId
  · rw [hregistered]; exact h.byCallback
  · rw [hemitted, hregistered]; exact h.own

theorem Step.registry {v v' : TimedAcks} (hstep : Step v v') (h : v.Registry) : v'.Registry := by
  cases hstep with
  | emit out hnumber hid =>
    have := h.nextId
    exact h.emit hnumber (.inl hid) le_rfl (by omega)
  | emitAck out hnumber hid => exact h.emit hnumber (.inr hid) (by omega) (by omega)
  | register out deadline hnumber hid htimed => exact h.register hnumber hid htimed
  | tick | pop | giveUp | lose | expire | acknowledge | ignoreAck | invoke | cancel | skip =>
    exact h.frame rfl rfl rfl

/-! ## Table and scheduler -/

/-- Most steps only take entries away or let time pass. -/
theorem Scheduled.shrink {v v' : TimedAcks} (h : v.Scheduled)
    (hregistered : v'.registered = v.registered) (hnow : v.now ≤ v'.now)
    (htable : ∀ id c, v'.table.lookup id = some c → v.table.lookup id = some c)
    (hdeadlines : ∀ id d, v'.scheduler.deadlines.lookup id = some d →
      v.scheduler.deadlines.lookup id = some d)
    (hordered : ∀ entry ∈ v'.scheduler.ordered, entry ∈ v.scheduler.ordered)
    (hkeep : ∀ r ∈ v.registered, r.id ∈ v'.table → r.id ∈ v.scheduler.deadlines →
      r.id ∈ v'.scheduler.deadlines ∨ r.deadline ≤ v'.now)
    (hexpiring : ∀ id ∈ v'.expiring, id ∈ v.expiring ∨
      ∃ r ∈ v.registered, r.id = id ∧ r.deadline ≤ v'.now) : v'.Scheduled where
  table := fun id c hc => by
    rw [hregistered]
    exact h.table id c (htable id c hc)
  deadlines := fun id d hd => by
    rw [hregistered]
    exact h.deadlines id d (hdeadlines id d hd)
  ordered := fun d id he => by
    rw [hregistered]
    exact h.ordered d id (hordered _ he)
  popped := fun r hr hmem => by
    rw [hregistered] at hr
    obtain ⟨c, hc⟩ := Option.isSome_iff_exists.mp (AList.lookup_isSome.mpr hmem)
    have hmem' : r.id ∈ v.table := AList.lookup_isSome.mp (by rw [htable _ c hc]; rfl)
    rcases h.popped r hr hmem' with hd | hd
    · exact hkeep r hr hmem hd
    · exact .inr (le_trans hd hnow)
  expiring := fun id hid => by
    rw [hregistered]
    rcases hexpiring id hid with hid | hr
    · obtain ⟨r, hr, hrid, hdue⟩ := h.expiring id hid
      exact ⟨r, hr, hrid, le_trans hdue hnow⟩
    · exact hr

theorem Scheduled.register {v : TimedAcks} (h : v.Scheduled) {out : Outgoing} {deadline : Time} :
    Scheduled { v with
      emitted := v.emitted ++ [out], nextId := v.nextId + 1,
      table := emplace v.table v.nextId v.emitted.length,
      scheduler := v.scheduler.add v.nextId deadline,
      registered := v.registered ++ [⟨v.nextId, v.emitted.length, deadline⟩] } where
  table := by
    intro id c hc
    rcases lookup_emplace hc with hc | ⟨rfl, rfl⟩
    · obtain ⟨r, hr, hrc⟩ := h.table id c hc
      exact ⟨r, List.mem_append_left _ hr, hrc⟩
    · exact ⟨_, List.mem_append_right _ (List.mem_singleton.mpr rfl), rfl, rfl⟩
  deadlines := by
    intro id d hd
    rcases lookup_emplace hd with hd | ⟨rfl, rfl⟩
    · obtain ⟨r, hr, hrd⟩ := h.deadlines id d hd
      exact ⟨r, List.mem_append_left _ hr, hrd⟩
    · exact ⟨_, List.mem_append_right _ (List.mem_singleton.mpr rfl), rfl, rfl⟩
  ordered := by
    intro d id he
    rcases AckScheduler.mem_ordered_add he with he | he
    · obtain ⟨r, hr, hrd⟩ := h.ordered d id he
      exact ⟨r, List.mem_append_left _ hr, hrd⟩
    · cases he
      exact ⟨_, List.mem_append_right _ (List.mem_singleton.mpr rfl), rfl, rfl⟩
  popped := by
    intro r hr hmem
    show r.id ∈ emplace v.scheduler.deadlines v.nextId deadline ∨ r.deadline ≤ v.now
    rw [mem_emplace]
    rcases mem_emplace.mp hmem with hid | hmem
    · exact .inl (.inl hid)
    · rcases List.mem_append.mp hr with hr | hr
      · exact (h.popped r hr hmem).imp .inr id
      · rw [List.mem_singleton.mp hr]
        exact .inl (.inl rfl)
  expiring := by
    intro id hid
    obtain ⟨r, hr, hdue⟩ := h.expiring id hid
    exact ⟨r, List.mem_append_left _ hr, hdue⟩

/-- An id of the table that the scheduler calls expired is past its
deadline. -/
theorem Scheduled.due_of_expired {v : TimedAcks} (h : v.Scheduled) {id : Int} (hmem : id ∈ v.table)
    (hexpired : id ∉ v.scheduler.deadlines ∨
      ∃ d, v.scheduler.deadlines.lookup id = some d ∧ d ≤ v.now) :
    ∃ r ∈ v.registered, r.id = id ∧ r.deadline ≤ v.now := by
  rcases hexpired with hmissing | ⟨d, hd, hdue⟩
  · obtain ⟨c, hc⟩ := Option.isSome_iff_exists.mp (AList.lookup_isSome.mpr hmem)
    obtain ⟨r, hr, rfl, -⟩ := h.table id c hc
    exact ⟨r, hr, rfl, (h.popped r hr hmem).resolve_left hmissing⟩
  · obtain ⟨r, hr, hrid, rfl⟩ := h.deadlines id d hd
    exact ⟨r, hr, hrid, hdue⟩

theorem Step.scheduled {v v' : TimedAcks} (hstep : Step v v') (hreg : v.Registry)
    (h : v.Scheduled) : v'.Scheduled := by
  cases hstep with
  | emit | emitAck | ignoreAck | invoke | skip =>
    exact h.shrink rfl le_rfl (fun _ _ hc => hc) (fun _ _ hd => hd) (fun _ he => he)
      (fun _ _ _ hd => .inl hd) (fun _ hid => .inl hid)
  | register out deadline hnumber hid htimed => exact h.register
  | tick elapsed =>
    exact h.shrink rfl (Nat.le_add_right _ _) (fun _ _ hc => hc) (fun _ _ hd => hd)
      (fun _ he => he) (fun _ _ _ hd => .inl hd) (fun _ hid => .inl hid)
  | pop id scheduler hpop =>
    obtain ⟨d, rest, hordered, hdue, rfl⟩ := AckScheduler.pop_some hpop
    obtain ⟨r₀, hr₀, hid₀, hd₀⟩ := h.ordered d id (by rw [hordered]; simp)
    refine h.shrink rfl le_rfl (fun _ _ hc => hc) (fun _ _ hd => (lookup_erase_some hd).2) ?_ ?_ ?_
    · intro entry he
      rw [hordered]
      exact List.mem_cons_of_mem _ he
    · intro r hr _ hmem
      by_cases hrid : r.id = id
      · -- the popped deadline is this registration's own
        right
        rw [hreg.byId r hr r₀ hr₀ (hrid.trans hid₀.symm), hd₀]
        exact hdue
      · exact .inl (AList.mem_erase.mpr ⟨hrid, hmem⟩)
    · intro k hk
      rcases List.mem_append.mp hk with hk | hk
      · exact .inl hk
      · rw [List.mem_singleton.mp hk]
        exact .inr ⟨r₀, hr₀, hid₀, by rw [hd₀]; exact hdue⟩
  | giveUp id expiring hmem hexpired hexpiring =>
    refine h.shrink rfl le_rfl (fun _ _ hc => hc) (fun _ _ hd => hd) (fun _ he => he)
      (fun _ _ _ hd => .inl hd) ?_
    intro k hk
    rcases hexpiring k hk with rfl | hk
    · exact .inr (h.due_of_expired hmem (AckScheduler.expired_true hexpired))
    · exact .inl hk
  | lose expiring hexpiring =>
    exact h.shrink rfl le_rfl (fun _ _ hc => hc) (fun _ _ hd => hd) (fun _ he => he)
      (fun _ _ _ hd => .inl hd) (fun k hk => .inl (hexpiring k hk))
  | expire id callback caller expiring claims hid hlookup hexpiring hclaims =>
    exact h.shrink rfl le_rfl (fun _ _ hc => (lookup_erase_some hc).2) (fun _ _ hd => hd)
      (fun _ he => he) (fun _ _ _ hd => .inl hd) (fun k hk => .inl (hexpiring k hk))
  | acknowledge id data callback claim hlookup hclaim =>
    obtain ⟨hdeadlines, hkeep, hordered⟩ := AckScheduler.remove_snd v.scheduler id v.now
    refine h.shrink rfl le_rfl (fun _ _ hc => (lookup_erase_some hc).2) hdeadlines hordered ?_
      (fun k hk => .inl hk)
    intro r _ hmem hd
    exact .inl (hkeep r.id (AList.mem_erase.mp hmem).1 hd)
  | cancel =>
    refine h.shrink rfl le_rfl (fun _ _ hc => ?_) (fun _ _ hd => ?_) (fun _ he => ?_)
      (fun _ _ hmem _ => ?_) (fun _ hid => .inl hid)
    · cases hc
    · cases hd
    · cases he
    · exact absurd hmem (AList.notMem_empty _)

/-! ## Outcomes -/

theorem Justified.mono {v v' : TimedAcks} {caller : Caller} {claim : Claim} {time time' : Time}
    (h : v.Justified caller claim time) (hregistered : ∀ r ∈ v.registered, r ∈ v'.registered)
    (hacks : ∀ ack ∈ v.acks, ack ∈ v'.acks) (htime : time ≤ time') :
    v'.Justified caller claim time' := by
  obtain ⟨r, hr, hid, hcallback, hwhy⟩ := h
  refine ⟨r, hregistered r hr, hid, hcallback, ?_⟩
  cases hstatus : claim.status with
  | timeout =>
    rw [hstatus] at hwhy
    exact ⟨le_trans hwhy.1 htime, hwhy.2⟩
  | acknowledged =>
    rw [hstatus] at hwhy
    obtain ⟨hcaller, ack, hack, hfits⟩ := hwhy
    exact ⟨hcaller, ack, hacks ack hack, hfits⟩

theorem Outcomes.spent_registered {v : TimedAcks} (h : v.Outcomes) {callback : Nat}
    (hmem : callback ∈ v.spent) : ∃ r ∈ v.registered, r.callback = callback := by
  unfold spent at hmem
  rcases List.mem_append.mp hmem with hmem | hmem
  · rcases List.mem_append.mp hmem with hmem | hmem
    · obtain ⟨c, hc, rfl⟩ := List.mem_map.mp hmem
      obtain ⟨r, hr, -, hcallback, -⟩ := h.claims c hc
      exact ⟨r, hr, hcallback⟩
    · obtain ⟨i, hi, rfl⟩ := List.mem_map.mp hmem
      obtain ⟨r, hr, -, hcallback, -⟩ := h.invoked i hi
      exact ⟨r, hr, hcallback⟩
  · exact h.cancelled callback hmem

/-- A step after which the same callbacks are spent and no callback is new
to the table. -/
theorem Outcomes.frame {v v' : TimedAcks} (h : v.Outcomes)
    (hregistered : ∀ r ∈ v.registered, r ∈ v'.registered) (hacks : ∀ ack ∈ v.acks, ack ∈ v'.acks)
    (hnow : v.now ≤ v'.now) (hclaims : v'.claims = v.claims) (hinvoked : v'.invoked = v.invoked)
    (hcancelled : v'.cancelled = v.cancelled)
    (htable : ∀ id c, v'.table.lookup id = some c → v.table.lookup id = some c ∨ c ∉ v.spent) :
    v'.Outcomes where
  claims := fun c hc => by
    rw [hclaims] at hc
    exact (h.claims c hc).mono hregistered hacks hnow
  invoked := fun i hi => by
    rw [hinvoked] at hi
    exact (h.invoked i hi).mono hregistered hacks le_rfl
  cancelled := fun c hc => by
    rw [hcancelled] at hc
    obtain ⟨r, hr, hrc⟩ := h.cancelled c hc
    exact ⟨r, hregistered r hr, hrc⟩
  once := by
    rw [spent, hclaims, hinvoked, hcancelled]
    exact h.once
  apart := fun id c hc => by
    rw [spent, hclaims, hinvoked, hcancelled]
    rcases htable id c hc with hc | hc
    · exact h.apart id c hc
    · exact hc

/-- Taking a callback out of the table, with a reason. -/
theorem Outcomes.claim {v v' : TimedAcks} (h : v.Outcomes) (hreg : v.Registry)
    (hsched : v.Scheduled) {id : Int} (caller : Caller) (claim : Claim)
    (hlookup : v.table.lookup id = some claim.callback)
    (hregistered : v'.registered = v.registered) (hacks : ∀ ack ∈ v.acks, ack ∈ v'.acks)
    (hnow : v'.now = v.now) (hclaims : v'.claims.Perm ((caller, claim) :: v.claims))
    (hinvoked : v'.invoked = v.invoked) (hcancelled : v'.cancelled = v.cancelled)
    (htable : v'.table = v.table.erase id) (hwhy : v'.Justified caller claim v'.now) :
    v'.Outcomes := by
  have hspent : v'.spent.Perm (claim.callback :: v.spent) := by
    unfold spent
    rw [hinvoked, hcancelled]
    exact ((hclaims.map _).append_right _).append_right _
  have hkeep : ∀ r ∈ v.registered, r ∈ v'.registered := fun r hr => by rw [hregistered]; exact hr
  constructor
  · intro c hc
    rcases List.mem_cons.mp (hclaims.mem_iff.mp hc) with rfl | hc
    · exact hwhy
    · exact (h.claims c hc).mono hkeep hacks (le_of_eq hnow.symm)
  · intro i hi
    rw [hinvoked] at hi
    exact (h.invoked i hi).mono hkeep hacks le_rfl
  · intro c hc
    rw [hcancelled] at hc
    rw [hregistered]
    exact h.cancelled c hc
  · exact hspent.nodup_iff.mpr (List.nodup_cons.mpr ⟨h.apart id _ hlookup, h.once⟩)
  · intro k c hc
    rw [htable] at hc
    obtain ⟨hne, hc⟩ := lookup_erase_some hc
    rw [hspent.mem_iff, List.mem_cons]
    rintro (rfl | hmem)
    · -- one callback, one registration, one id
      obtain ⟨r, hr, hrid, hrc⟩ := hsched.table k _ hc
      obtain ⟨r', hr', hrid', hrc'⟩ := hsched.table id _ hlookup
      have heq := hreg.byCallback r hr r' hr' (hrc.trans hrc'.symm)
      exact hne (by rw [← hrid, heq, hrid'])
    · exact h.apart k c hc hmem

/-- The claim of `dispatch_ack`: acknowledged strictly before the
deadline, and otherwise a timeout. -/
theorem acknowledge_justified {v : TimedAcks} (hreg : v.Registry) (hsched : v.Scheduled)
    {id : Int} {data : Json} {callback : Nat} {claim : Claim}
    (hlookup : v.table.lookup id = some callback)
    (hclaim : claim = if (v.scheduler.remove id v.now).1 then ⟨id, callback, .timeout, .null⟩
      else ⟨id, callback, .acknowledged, data⟩)
    {v' : TimedAcks} (hregistered : v'.registered = v.registered)
    (hack : ⟨id, data, v.now⟩ ∈ v'.acks) : v'.Justified .dispatcher claim v.now := by
  have hmem : id ∈ v.table := AList.lookup_isSome.mp (by rw [hlookup]; rfl)
  obtain ⟨r, hr, hid, hcallback⟩ := hsched.table id callback hlookup
  rcases AckScheduler.remove_fst v.scheduler id v.now with ⟨hmissing, htrue⟩ | ⟨d, hd, hval⟩
  · rw [htrue, if_pos rfl] at hclaim
    subst hclaim
    obtain ⟨r', hr', hid', hdue⟩ := hsched.due_of_expired hmem (.inl hmissing)
    rw [hreg.byId r' hr' r hr (hid'.trans hid.symm)] at hdue
    exact ⟨r, by rw [hregistered]; exact hr, hid, hcallback, hdue, rfl⟩
  · obtain ⟨r', hr', hid', rfl⟩ := hsched.deadlines id d hd
    obtain rfl := hreg.byId r' hr' r hr (hid'.trans hid.symm)
    refine ⟨r', by rw [hregistered]; exact hr, ?_⟩
    rw [hval] at hclaim
    by_cases hdue : r'.deadline ≤ v.now
    · rw [if_pos (decide_eq_true hdue)] at hclaim
      subst hclaim
      exact ⟨hid, hcallback, hdue, rfl⟩
    · rw [if_neg (by simpa using hdue)] at hclaim
      subst hclaim
      exact ⟨hid, hcallback, rfl, ⟨id, data, v.now⟩, hack, hid.symm, rfl, Nat.lt_of_not_le hdue⟩

/-- The callbacks of the table are distinct. -/
theorem table_callbacks_nodup {v : TimedAcks} (hreg : v.Registry) (hsched : v.Scheduled) :
    (v.table.entries.map (·.2)).Nodup := by
  have hentries : v.table.entries.Nodup := List.NodupKeys.nodup v.table.nodupKeys
  refine hentries.map_on ?_
  intro x hx y hy heq
  obtain ⟨r, hr, hrid, hrc⟩ := hsched.table x.1 x.2 (AList.mem_lookup_iff.mpr hx)
  obtain ⟨r', hr', hrid', hrc'⟩ := hsched.table y.1 y.2 (AList.mem_lookup_iff.mpr hy)
  have hsame := hreg.byCallback r hr r' hr' (by rw [hrc, hrc', heq])
  exact Sigma.ext (by rw [← hrid, ← hrid', hsame]) (heq_of_eq heq)

theorem Outcomes.cancel {v : TimedAcks} (h : v.Outcomes) (hreg : v.Registry)
    (hsched : v.Scheduled) :
    Outcomes { v with
      table := ∅, scheduler := v.scheduler.clear,
      cancelled := v.cancelled ++ v.table.entries.map (·.2) } where
  claims := fun c hc => (h.claims c hc).mono (fun _ hr => hr) (fun _ ha => ha) le_rfl
  invoked := fun i hi => (h.invoked i hi).mono (fun _ hr => hr) (fun _ ha => ha) le_rfl
  cancelled := by
    intro c hc
    rcases List.mem_append.mp hc with hc | hc
    · exact h.cancelled c hc
    · obtain ⟨entry, hentry, rfl⟩ := List.mem_map.mp hc
      obtain ⟨r, hr, -, hrc⟩ := hsched.table entry.1 entry.2 (AList.mem_lookup_iff.mpr hentry)
      exact ⟨r, hr, hrc⟩
  once := by
    have happend : (v.spent ++ v.table.entries.map (·.2)).Nodup := by
      refine List.Nodup.append h.once (table_callbacks_nodup hreg hsched) ?_
      intro c hc hc'
      obtain ⟨entry, hentry, rfl⟩ := List.mem_map.mp hc'
      exact h.apart entry.1 entry.2 (AList.mem_lookup_iff.mpr hentry) hc
    simpa [spent] using happend
  apart := fun _ _ hc => by cases hc

theorem Step.outcomes {v v' : TimedAcks} (hstep : Step v v') (hreg : v.Registry)
    (hsched : v.Scheduled) (h : v.Outcomes) : v'.Outcomes := by
  cases hstep with
  | emit | emitAck | pop | giveUp | lose | skip =>
    exact h.frame (fun _ hr => hr) (fun _ ha => ha) le_rfl rfl rfl rfl (fun _ _ hc => .inl hc)
  | register out deadline hnumber hid htimed =>
    refine h.frame (fun _ hr => List.mem_append_left _ hr) (fun _ ha => ha) le_rfl rfl rfl rfl ?_
    intro id c hc
    rcases lookup_emplace hc with hc | ⟨-, rfl⟩
    · exact .inl hc
    · -- the emission is new, and every spent callback is registered
      right
      intro hspent
      obtain ⟨r, hr, hrc⟩ := h.spent_registered hspent
      exact absurd hrc (Nat.ne_of_lt (hreg.callbacks r hr))
  | tick elapsed =>
    exact h.frame (fun _ hr => hr) (fun _ ha => ha) (Nat.le_add_right _ _) rfl rfl rfl
      (fun _ _ hc => .inl hc)
  | expire id callback caller expiring claims hid hlookup hexpiring hclaims =>
    refine h.claim hreg hsched caller ⟨id, callback, .timeout, .null⟩ hlookup
      rfl (fun _ ha => ha) rfl hclaims rfl rfl rfl ?_
    obtain ⟨r, hr, hrid, hdue⟩ := hsched.expiring id hid
    obtain ⟨r', hr', hrid', hrc'⟩ := hsched.table id callback hlookup
    rw [hreg.byId r hr r' hr' (hrid.trans hrid'.symm)] at hdue
    exact ⟨r', hr', hrid', hrc', hdue, rfl⟩
  | acknowledge id data callback claim hlookup hclaim =>
    have hcallback : claim.callback = callback := by
      rw [hclaim]
      split <;> rfl
    refine h.claim hreg hsched .dispatcher claim (by rw [hcallback]; exact hlookup)
      rfl (fun _ ha => List.mem_append_left _ ha) rfl (List.perm_append_singleton _ _) rfl rfl rfl
      ?_
    exact acknowledge_justified hreg hsched hlookup hclaim rfl
      (List.mem_append_right _ (List.mem_singleton.mpr rfl))
  | ignoreAck id data =>
    exact h.frame (fun _ hr => hr) (fun _ ha => List.mem_append_left _ ha) le_rfl rfl rfl rfl
      (fun _ _ hc => .inl hc)
  | invoke caller claim claims hclaims =>
    have hspent : ({ v with claims, invoked := v.invoked ++ [⟨caller, claim, v.now⟩] } :
        TimedAcks).spent.Perm v.spent := by
      simp only [spent, List.map_append, List.map_cons, List.map_nil]
      have hmap := hclaims.map (fun c : Caller × Claim => c.2.callback)
      refine List.Perm.append_right _ ?_
      refine List.Perm.trans ?_ (hmap.symm.append_right _)
      rw [← List.append_assoc]
      exact List.perm_append_singleton _ _
    have hjust := h.claims (caller, claim) (hclaims.mem_iff.mpr List.mem_cons_self)
    constructor
    · intro c hc
      exact h.claims c (hclaims.mem_iff.mpr (List.mem_cons_of_mem _ hc))
    · intro i hi
      rcases List.mem_append.mp hi with hi | hi
      · exact h.invoked i hi
      · rw [List.mem_singleton.mp hi]
        exact hjust
    · exact h.cancelled
    · exact hspent.nodup_iff.mpr h.once
    · intro id c hc hmem
      exact h.apart id c hc (hspent.mem_iff.mp hmem)
  | cancel => exact h.cancel hreg hsched

/-- The history only grows. -/
theorem Step.mono {v v' : TimedAcks} (hstep : Step v v') :
    (∀ r ∈ v.registered, r ∈ v'.registered) ∧ (∀ ack ∈ v.acks, ack ∈ v'.acks) ∧
      (∀ c ∈ v.cancelled, c ∈ v'.cancelled) ∧ v.now ≤ v'.now := by
  cases hstep with
  | register =>
    exact ⟨fun _ hr => List.mem_append_left _ hr, fun _ ha => ha, fun _ hc => hc, le_rfl⟩
  | tick elapsed =>
    exact ⟨fun _ hr => hr, fun _ ha => ha, fun _ hc => hc, Nat.le_add_right _ _⟩
  | acknowledge | ignoreAck =>
    exact ⟨fun _ hr => hr, fun _ ha => List.mem_append_left _ ha, fun _ hc => hc, le_rfl⟩
  | cancel =>
    exact ⟨fun _ hr => hr, fun _ ha => ha, fun _ hc => List.mem_append_left _ hc, le_rfl⟩
  | emit | emitAck | pop | giveUp | lose | expire | invoke | skip =>
    exact ⟨fun _ hr => hr, fun _ ha => ha, fun _ hc => hc, le_rfl⟩

/-- **The laws of timed acknowledgements** are kept by every step. -/
theorem Step.law {v v' : TimedAcks} (hstep : Step v v') (h : v.Law) : v'.Law where
  registry := hstep.registry h.registry
  scheduled := hstep.scheduled h.registry h.scheduled
  outcomes := hstep.outcomes h.registry h.scheduled h.outcomes

end TimedAcks

end Sioxx
