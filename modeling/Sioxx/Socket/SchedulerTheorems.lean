/-
Sioxx.Socket.SchedulerTheorems — the two indexes of the scheduler and the
table of the socket.

The scheduler keeps its deadlines by id and in the order of expiry, and the
socket keeps the callbacks. The two are changed under different locks, and
`expire_ack` of a flushing thread leaves its deadline in the scheduler on
purpose. `scheduling` says what still holds between them after any run:

  * the two indexes have the same entries (`AckScheduler.Indexed`), so the
    worker finds a first entry whenever there is a deadline;
  * a callback without a deadline is the one the worker has just popped
    (`Watched`), so no timed emission is forgotten;
  * what the worker pops is due and nothing scheduled is before it.
-/
import Sioxx.Socket.TimedAckTheorems

namespace Sioxx

open Lib

/-! ## The order of expiry -/

instance : IsTrans (Time × Int) expiresBefore where
  trans a b c hab hbc := by
    rcases hab with hab | ⟨hab, hid⟩ <;> rcases hbc with hbc | ⟨hbc, hid'⟩
    · exact .inl (lt_trans hab hbc)
    · exact .inl (hbc ▸ hab)
    · exact .inl (hab ▸ hbc)
    · exact .inr ⟨hab.trans hbc, le_trans hid hid'⟩

instance : Std.Total expiresBefore where
  total a b := by
    rcases lt_trichotomy a.1 b.1 with hlt | heq | hgt
    · exact .inl (.inl hlt)
    · exact (le_total a.2 b.2).imp (fun hid => .inr ⟨heq, hid⟩) fun hid => .inr ⟨heq.symm, hid⟩
    · exact .inr (.inl hgt)

namespace AckScheduler

/-! ## Two indexes -/

/-- Both indexes hold the same entries, and the second one in order. -/
structure Indexed (s : AckScheduler) : Prop where
  same : ∀ deadline id, (deadline, id) ∈ s.ordered ↔ s.deadlines.lookup id = some deadline
  sorted : s.ordered.Pairwise expiresBefore
  once : s.ordered.Nodup

theorem indexed_empty : Indexed {} := ⟨by simp, List.Pairwise.nil, List.nodup_nil⟩

variable {s s' : AckScheduler}

/-- A new id gets its deadline in both. -/
theorem Indexed.add (h : s.Indexed) {id : Int} (hnew : id ∉ s.deadlines) (deadline : Time) :
    (s.add id deadline).Indexed := by
  have hnone : s.deadlines.lookup id = none := AList.lookup_eq_none.mpr hnew
  have hfresh : ∀ d, (d, id) ∉ s.ordered := by
    intro d hmem
    rw [h.same d id, hnone] at hmem
    cases hmem
  have hordered : (s.add id deadline).ordered
      = s.ordered.orderedInsert expiresBefore (deadline, id) := if_neg (hfresh deadline)
  have hdeadlines : (s.add id deadline).deadlines = s.deadlines.insert id deadline := if_neg hnew
  refine ⟨fun d k => ?_, ?_, ?_⟩
  · rw [hordered, hdeadlines, List.mem_orderedInsert, Prod.mk.injEq]
    by_cases hk : k = id
    · subst hk
      rw [AList.lookup_insert, Option.some.injEq]
      constructor
      · rintro (⟨rfl, -⟩ | hmem)
        · rfl
        · exact absurd hmem (hfresh d)
      · rintro rfl
        exact .inl ⟨rfl, rfl⟩
    · rw [AList.lookup_insert_ne hk, ← h.same d k]
      exact or_iff_right fun heq => hk heq.2
  · rw [hordered]
    exact List.Pairwise.orderedInsert _ _ h.sorted
  · rw [hordered, (List.perm_orderedInsert expiresBefore (deadline, id) s.ordered).nodup_iff]
    exact List.nodup_cons.mpr ⟨hfresh deadline, h.once⟩

/-- Taking an entry out of the one index by its id and out of the other by
what it is. -/
theorem Indexed.erase (h : s.Indexed) {id : Int} {deadline : Time} {rest : List (Time × Int)}
    (hentry : s.deadlines.lookup id = some deadline) (hrest : rest.Sublist s.ordered)
    (hmem : ∀ entry, entry ∈ rest ↔ entry ∈ s.ordered ∧ entry ≠ (deadline, id)) :
    Indexed { deadlines := s.deadlines.erase id, ordered := rest } := by
  refine ⟨fun d k => ?_, h.sorted.sublist hrest, h.once.sublist hrest⟩
  rw [hmem, h.same d k]
  by_cases hk : k = id
  · subst hk
    rw [AList.lookup_erase, hentry]
    simp only [Option.some.injEq, ne_eq, Prod.mk.injEq, and_true, reduceCtorEq, iff_false, not_and,
      not_not]
    exact Eq.symm
  · rw [AList.lookup_erase_ne hk]
    exact and_iff_left fun heq => hk (Prod.mk.injEq .. ▸ heq : d = deadline ∧ k = id).2

theorem Indexed.remove (h : s.Indexed) (id : Int) (now : Time) : (s.remove id now).2.Indexed := by
  unfold AckScheduler.remove
  cases hentry : s.deadlines.lookup id with
  | none => exact h
  | some deadline =>
    refine h.erase hentry List.filter_sublist fun entry => ?_
    simp [List.mem_filter]

/-- The worker pops the entry that is due first. -/
theorem Indexed.pop (h : s.Indexed) {now : Time} {id : Int} (hpop : s.pop now = some (id, s')) :
    s'.Indexed ∧ ∃ deadline, s.deadlines.lookup id = some deadline ∧ deadline ≤ now ∧
      (∀ entry ∈ s.ordered, expiresBefore (deadline, id) entry) ∧
      s'.deadlines = s.deadlines.erase id := by
  obtain ⟨deadline, rest, hordered, hdue, rfl⟩ := pop_some hpop
  have hentry : s.deadlines.lookup id = some deadline := by
    rw [← h.same deadline id, hordered]
    exact List.mem_cons_self
  have honce := h.once
  have hsorted := h.sorted
  rw [hordered] at honce hsorted
  refine ⟨h.erase hentry ?_ fun entry => ?_, deadline, hentry, hdue, ?_, rfl⟩
  · rw [hordered]
    exact List.sublist_cons_self _ _
  · rw [hordered, List.mem_cons]
    constructor
    · intro hmem
      refine ⟨.inr hmem, ?_⟩
      rintro rfl
      exact (List.nodup_cons.mp honce).1 hmem
    · rintro ⟨heq | hmem, hne⟩
      · exact absurd heq hne
      · exact hmem
  · intro entry hmem
    rw [hordered, List.mem_cons] at hmem
    rcases hmem with rfl | hmem
    · exact .inr ⟨rfl, le_rfl⟩
    · exact (List.pairwise_cons.mp hsorted).1 entry hmem

/-- Whenever there is a deadline, `*ordered.begin()` exists. -/
theorem Indexed.ordered_ne_nil (h : s.Indexed) (hsome : s.deadlines ≠ ∅) : s.ordered ≠ [] := by
  intro hnil
  apply hsome
  apply AList.ext
  refine List.eq_nil_iff_forall_not_mem.mpr ?_
  rintro ⟨id, deadline⟩ hmem
  have hentry := (h.same deadline id).mpr (AList.mem_lookup_iff.mpr hmem)
  rw [hnil] at hentry
  cases hentry

end AckScheduler

/-! ## The scheduler of a socket -/

/-- An id that is not given out yet has no deadline. -/
theorem TimedAcks.nextId_fresh {v : TimedAcks} (h : v.Law) : v.nextId ∉ v.scheduler.deadlines := by
  intro hmem
  obtain ⟨deadline, hd⟩ := Option.isSome_iff_exists.mp (AList.lookup_isSome.mpr hmem)
  obtain ⟨r, hr, hid, -⟩ := h.scheduled.deadlines _ deadline hd
  have hlt := (h.registry.ids r hr).2
  omega

theorem TimedAcks.Step.indexed {v v' : TimedAcks} (hstep : TimedAcks.Step v v') (hlaw : v.Law)
    (h : v.scheduler.Indexed) : v'.scheduler.Indexed := by
  cases hstep with
  | register out deadline hnumber hid htimed => exact h.add (nextId_fresh hlaw) deadline
  | pop id scheduler hpop => exact (h.pop hpop).1
  | acknowledge id data callback claim hlookup hclaim => exact h.remove id v.now
  | cancel => exact AckScheduler.indexed_empty
  | emit | emitAck | tick | giveUp | lose | expire | ignoreAck | invoke | skip => exact h

/-! ## The table of a socket -/

/-- The id the deadline worker has popped and not yet passed to
`expire_ack`. -/
def Task.poppedId : Task → Option Int
  | .workerExpiring id => some id
  | _ => none

namespace Machine

/-- Every callback has a deadline, or the worker has just popped it. -/
def Watched (m : Machine) : Prop :=
  ∀ id ∈ m.sock.timedAcks, id ∈ m.sock.ackScheduler.deadlines ∨
    id ∈ m.tasks.filterMap Task.poppedId

variable {m m' : Machine}

/-- A step that takes nothing from the scheduler or the worker. -/
theorem Watched.frame (h : m.Watched)
    (htable : ∀ id, id ∈ m'.sock.timedAcks → id ∈ m.sock.timedAcks)
    (hdeadlines : m'.sock.ackScheduler = m.sock.ackScheduler)
    (hpopped : ∀ id ∈ m.tasks.filterMap Task.poppedId, id ∈ m'.tasks.filterMap Task.poppedId) :
    m'.Watched := by
  intro id hid
  rw [hdeadlines]
  exact (h id (htable id hid)).imp_right (hpopped id)

/-- Only the task that holds a popped id can let go of it. -/
theorem popped_of_task (id : Int) {i : Nat} {task : Task} (htask : m.tasks[i]? = some task)
    (hne : task.poppedId ≠ some id) (hid : id ∈ m.tasks.filterMap Task.poppedId) :
    (∀ b : Task, id ∈ (m.tasks.set i b).filterMap Task.poppedId) ∧
      id ∈ (m.tasks.eraseIdx i).filterMap Task.poppedId := by
  obtain ⟨p, q, hall, hset, herase⟩ := pool_filterMap Task.poppedId htask
  have hrest : id ∈ p ∨ id ∈ q := by
    rw [hall, List.mem_append, List.mem_append, Option.mem_toList] at hid
    rcases hid with (hp | hown) | hq
    · exact .inl hp
    · exact absurd hown hne
    · exact .inr hq
  refine ⟨fun b => ?_, ?_⟩
  · rw [hset, List.append_assoc, List.mem_append, List.mem_append]
    exact hrest.imp_right .inr
  · rw [herase, List.mem_append]
    exact hrest

theorem popped_addTask (task : Task) {id : Int} (hid : id ∈ m.tasks.filterMap Task.poppedId) :
    id ∈ (m.tasks ++ [task]).filterMap Task.poppedId := by
  rw [List.filterMap_append]
  exact List.mem_append_left _ hid

theorem step_watched {a : Action} (hw : m.Watched) (h : m.step a = some m') : m'.Watched := by
  cases step_cases h with
  | registerTimed =>
    intro k hk
    rcases mem_emplace.mp hk with hnew | hold
    · exact .inl (mem_emplace.mpr (.inl hnew))
    · exact (hw k hold).imp_left fun hd => mem_emplace.mpr (.inr hd)
  | startFlush => exact hw.frame (fun _ hk => hk) rfl fun k hk => popped_addTask _ hk
  | flushEnd i throws htask | flushAbort i out htask | flushThrow i claim htask
  | callbackEnd i throws caller claim htask =>
    refine hw.frame (fun _ hk => hk) rfl fun k hk => ?_
    exact (popped_of_task k htask (by simp [Task.poppedId]) hk).2
  | flushPop i throws out rest htask | flushExpire i throws out rest htask
  | flushSent i out htask | flushLost i throws out htask | invoke i throws caller claim htask
  | flushResume i claim htask =>
    refine hw.frame (fun _ hk => hk) rfl fun k hk => ?_
    exact (popped_of_task k htask (by simp [Task.poppedId]) hk).1 _
  | workerLost i throws id htask hlookup =>
    -- the worker lets go of an id that is in the table no more
    intro k hk
    refine (hw k hk).imp_right fun hmem => ?_
    refine (popped_of_task k htask ?_ hmem).2
    rintro ⟨⟩
    exact AList.lookup_eq_none.mp hlookup hk
  | claim i throws caller id callback task htask hwho =>
    intro k hk
    obtain ⟨hne, hk⟩ := AList.mem_erase.mp hk
    refine (hw k hk).imp_right fun hmem => (popped_of_task k htask ?_ hmem).1 _
    rcases hwho with ⟨-, out, rfl, -⟩ | ⟨-, rfl⟩
    · simp [Task.poppedId]
    · rintro ⟨⟩
      exact hne rfl
  | ackTimed id =>
    intro k hk
    obtain ⟨hne, hk⟩ := AList.mem_erase.mp hk
    rcases hw k hk with hd | hd
    · exact .inl ((AckScheduler.remove_snd m.sock.ackScheduler id m.now).2.1 k hne hd)
    · exact .inr (popped_addTask _ hd)
  | workerPop id scheduler hworker hpop =>
    -- the worker keeps the id it pops until `expire_ack`
    obtain ⟨deadline, rest, -, -, rfl⟩ := AckScheduler.pop_some hpop
    intro k hk
    show k ∈ m.sock.ackScheduler.deadlines.erase id ∨
      k ∈ (m.tasks ++ [Task.workerExpiring id]).filterMap Task.poppedId
    by_cases hne : k = id
    · right
      rw [List.filterMap_append, List.mem_append]
      right
      simp [Task.poppedId, hne]
    · rcases hw k hk with hd | hd
      · exact .inl (AList.mem_erase.mpr ⟨hne, hd⟩)
      · exact .inr (popped_addTask _ hd)
  | cancel =>
    intro id hid
    exact absurd hid (AList.notMem_empty _)
  | _ => exact hw.frame (fun _ hk => hk) rfl fun _ hk => hk

/-! ## Every run -/

/-- How the scheduler and the table of a socket stand to each other. -/
structure Scheduling (m : Machine) : Prop where
  /-- `ordered` is the set of the pairs of `deadlines`. -/
  indexed : m.sock.ackScheduler.Indexed
  /-- `*ordered.begin()` exists whenever the worker looks at it. -/
  first : m.sock.ackScheduler.deadlines ≠ ∅ → m.sock.ackScheduler.ordered ≠ []
  /-- No callback is without a deadline but the one that is being expired. -/
  watched : ∀ id ∈ m.sock.timedAcks,
    id ∈ m.sock.ackScheduler.deadlines ∨ .workerExpiring id ∈ m.tasks
  /-- What the worker pops is due, and nothing scheduled is before it. -/
  pops : ∀ m', m.step .workerPop = some m' → ∃ id deadline,
    m.sock.ackScheduler.deadlines.lookup id = some deadline ∧ deadline ≤ m.now ∧
    (∀ entry ∈ m.sock.ackScheduler.ordered, expiresBefore (deadline, id) entry) ∧
    m'.sock.ackScheduler.deadlines = m.sock.ackScheduler.deadlines.erase id ∧
    m'.tasks = m.tasks ++ [.workerExpiring id]

theorem workerPop_due (hindexed : m.sock.ackScheduler.Indexed)
    (h : m.step .workerPop = some m') : ∃ id deadline,
      m.sock.ackScheduler.deadlines.lookup id = some deadline ∧ deadline ≤ m.now ∧
      (∀ entry ∈ m.sock.ackScheduler.ordered, expiresBefore (deadline, id) entry) ∧
      m'.sock.ackScheduler.deadlines = m.sock.ackScheduler.deadlines.erase id ∧
      m'.tasks = m.tasks ++ [.workerExpiring id] := by
  cases step_cases h with
  | workerPop id scheduler hworker hpop =>
    obtain ⟨-, deadline, hentry, hdue, hfirst, herased⟩ := hindexed.pop hpop
    exact ⟨id, deadline, hentry, hdue, hfirst, herased, rfl⟩

/-- **No timed emission is stranded**, after any interleaving of the
sections of a socket and its deadline worker. -/
theorem scheduling {nsp : Bytes} {as : List Action} {m : Machine}
    (h : run step (init nsp) as = some m) : Scheduling m := by
  have hall : m.timedAcks.Law ∧ m.sock.ackScheduler.Indexed ∧ m.Watched :=
    run_preserves (fun m => m.timedAcks.Law ∧ m.sock.ackScheduler.Indexed ∧ m.Watched)
      (fun m a m' hm hstep => ⟨(step_timedAcks hstep).law hm.1,
        (step_timedAcks hstep).indexed hm.1 hm.2.1, step_watched hm.2.2 hstep⟩)
      ⟨timedAcks_law_init nsp, AckScheduler.indexed_empty,
        fun _ hid => absurd hid (AList.notMem_empty _)⟩ h
  obtain ⟨-, hindexed, hwatched⟩ := hall
  refine ⟨hindexed, hindexed.ordered_ne_nil, fun id hid => ?_, fun m' => workerPop_due hindexed⟩
  refine (hwatched id hid).imp_right fun hpopped => ?_
  obtain ⟨task, hmem, htask⟩ := List.mem_filterMap.mp hpopped
  cases task with
  | workerExpiring k =>
    cases htask
    exact hmem
  | _ => cases htask

/-- Two timed emissions; the first one expires in the flush, which leaves
its deadline, and the second one is popped. -/
def staleDeadline : List Action :=
  [.emitTimed 0 (ascii "a") .null 2 true, .register 0, .decide 0,
   .emitTimed 1 (ascii "b") .null 1 true, .register 1, .decide 1,
   .tick 3000000, .markConnected true, .task 0 false, .task 0 false, .workerPop]

theorem scheduling_staleDeadline : ∃ m, run step (init (ascii "/")) staleDeadline = some m ∧
    m.sock.ackScheduler.ordered = [(2000000, 0)] ∧ m.sock.timedAcks.lookup 0 = none ∧
    m.sock.timedAcks.lookup 1 = some 1 ∧ Scheduling m :=
  ⟨_, rfl, rfl, rfl, rfl, @scheduling (ascii "/") staleDeadline _ rfl⟩

end Machine

end Sioxx
