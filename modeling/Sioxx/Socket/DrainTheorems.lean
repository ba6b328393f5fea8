/-
Sioxx.Socket.DrainTheorems — `sync_close` drains the timed callbacks.

`Drain` is what `cancel_timed_acks`, `wait_for_timed_acks` and
`resume_timed_acks` look at: whether new timed emissions are refused, the
table of callbacks, the counter `active_timed_acks_`, and how many threads
are inside `invoke_timed_ack`. `step_drain` shows every step of the machine
as one step of it.

The counter is raised under the lock together with the removal from the
table, and lowered by the thread that raised it, so it is the number of
threads inside (`Drain.Law`). While emissions are refused the table is
empty and nobody can enter.
-/
import Sioxx.Socket.TimedAckTheorems

namespace Sioxx

open Lib

/-- The callback a thread has claimed and not finished. -/
def Task.activeClaim : Task → Option Claim
  | .claimed _ claim => some claim
  | .running _ claim => some claim
  | _ => none

def Action.resumes : Action → Bool
  | .resumeTimedAcks => true
  | _ => false

structure Drain where
  closed : Bool
  table : AList (fun _ : Int => Nat)
  active : Nat
  inside : Nat

namespace Drain

/-- What can happen; the label says whether it is `resume_timed_acks`. -/
inductive Step : Bool → Drain → Drain → Prop
  | quiet (v : Drain) : Step false v v
  | register (v : Drain) (table : AList (fun _ : Int => Nat)) (hopen : v.closed = false) :
      Step false v { v with table }
  | claim (v : Drain) (id : Int) (hmem : id ∈ v.table) :
      Step false v { v with
        table := v.table.erase id, active := v.active + 1, inside := v.inside + 1 }
  | finish (v : Drain) (inside : Nat) (hinside : v.inside = inside + 1) :
      Step false v { v with active := v.active - 1, inside }
  | cancel (v : Drain) : Step false v { v with closed := true, table := ∅ }
  | resume (v : Drain) : Step true v { v with closed := false }

theorem Step.of_eq {v v' : Drain} (h : v' = v) : Step false v v' := by
  rw [h]
  exact .quiet v

structure Law (v : Drain) : Prop where
  counted : v.active = v.inside
  refused : v.closed = true → v.table = ∅

variable {v v' : Drain} {resumes : Bool}

theorem Step.law (hstep : Step resumes v v') (h : v.Law) : v'.Law := by
  have hcounted := h.counted
  cases hstep with
  | quiet => exact h
  | register _ table hopen =>
    refine ⟨hcounted, fun hclosed => ?_⟩
    rw [show v.closed = true from hclosed] at hopen
    cases hopen
  | claim _ id hmem =>
    refine ⟨congrArg (· + 1) hcounted, fun hclosed => ?_⟩
    rw [h.refused hclosed] at hmem
    exact absurd hmem (AList.notMem_empty id)
  | finish _ inside hinside =>
    refine ⟨?_, h.refused⟩
    show v.active - 1 = inside
    omega
  | cancel => exact ⟨hcounted, fun _ => rfl⟩
  | resume => exact ⟨hcounted, fun hclosed => by cases hclosed⟩

/-- While emissions are refused nobody enters. -/
theorem Step.refusing (hstep : Step false v v') (h : v.Law) (hclosed : v.closed = true) :
    v'.closed = true ∧ v'.inside ≤ v.inside := by
  cases hstep with
  | claim _ id hmem =>
    rw [h.refused hclosed] at hmem
    exact absurd hmem (AList.notMem_empty id)
  | finish _ inside hinside =>
    refine ⟨hclosed, ?_⟩
    show inside ≤ v.inside
    omega
  | quiet => exact ⟨hclosed, Nat.le_refl _⟩
  | register => exact ⟨hclosed, Nat.le_refl _⟩
  | cancel => exact ⟨rfl, Nat.le_refl _⟩

end Drain

/-! ## The steps of a machine -/

namespace Machine

def drain (m : Machine) : Drain where
  closed := m.sock.timedAcksClosed
  table := m.sock.timedAcks
  active := m.sock.activeTimedAcks
  inside := (m.tasks.filterMap Task.activeClaim).length

/-- `wait_for_timed_acks`: it returns while it holds `mutex_`, with the
counter at zero. -/
def waitForTimedAcks (m : Machine) : Option Machine :=
  if m.sock.activeTimedAcks = 0 then m.locked m else none

theorem mem_drain_table {m : Machine} {id : Int} {callback : Nat}
    (hlookup : m.sock.timedAcks.lookup id = some callback) : id ∈ m.drain.table := by
  refine AList.lookup_isSome.mp ?_
  show (m.sock.timedAcks.lookup id).isSome = true
  rw [hlookup]
  rfl

/-- `expire_ack` takes a callback. -/
theorem claim_drain {m : Machine} {i : Nat} {caller : Caller} {id : Int} {callback : Nat}
    {task : Task} {sock : Socket} (htask : m.tasks[i]? = some task)
    (hout : task.activeClaim = none) (hlookup : m.sock.timedAcks.lookup id = some callback)
    (hsock : sock = { m.sock with
      timedAcks := m.sock.timedAcks.erase id
      activeTimedAcks := m.sock.activeTimedAcks + 1 }.dropBuffered id) :
    Drain.Step false m.drain
      ((m.setTask i (.claimed caller ⟨id, callback, .timeout, .null⟩)).removing sock
        (fun b => b.packet.id = id) .expiry).drain := by
  subst hsock
  obtain ⟨p, q, hall, hset, -⟩ := pool_filterMap Task.activeClaim htask
  have hclaim := Drain.Step.claim m.drain id (mem_drain_table hlookup)
  convert hclaim using 1
  simp only [drain, removing, setTask, hset, hall, hout, Socket.dropBuffered]
  simp only [Task.activeClaim, Option.toList_some, Option.toList_none, List.append_nil,
    List.length_append, List.length_singleton]
  congr 1
  omega

/-- A callback returns, or throws. -/
theorem finish_drain {m m' : Machine} {i : Nat} {caller : Caller} {claim : Claim}
    (htask : m.tasks[i]? = some (.running caller claim))
    (hsock : m'.sock = m.sock.finishTimedAck)
    (htasks : m'.tasks = m.tasks.set i .flushing ∨ m'.tasks = m.tasks.eraseIdx i) :
    Drain.Step false m.drain m'.drain := by
  obtain ⟨p, q, hall, hset, herase⟩ := pool_filterMap Task.activeClaim htask
  have hinside : m.drain.inside = (p ++ q).length + 1 := by
    simp only [drain, hall, Task.activeClaim, Option.toList_some, List.length_append,
      List.length_singleton]
    omega
  have hleft : m'.tasks.filterMap Task.activeClaim = p ++ q := by
    rcases htasks with htasks | htasks
    · rw [htasks, hset]
      simp [Task.activeClaim]
    · rw [htasks, herase]
  have hfinish := Drain.Step.finish m.drain (p ++ q).length hinside
  convert hfinish using 1
  simp only [drain, hsock, hleft, Socket.finishTimedAck]

/-- One step of the machine is one step of its drain. -/
theorem step_drain {m m' : Machine} {a : Action} (h : m.step a = some m') :
    Drain.Step a.resumes m.drain m'.drain := by
  cases step_cases h with
  | registerTimed t event data deadline hpc hopen => exact Drain.Step.register m.drain _ hopen
  | startFlush | workerPop =>
    refine .of_eq ?_
    simp [drain, addTask, Task.activeClaim]
  | flushEnd i throws htask | flushAbort i out htask | workerLost i throws id htask =>
    refine .of_eq ?_
    simp only [drain, endTask, (pool_filterMap_same Task.activeClaim htask).2 rfl]
  | flushPop i throws out rest htask =>
    refine .of_eq ?_
    simp only [drain, setTask,
      (pool_filterMap_same Task.activeClaim htask).1 (.flushSending out) rfl]
  | flushExpire i throws out rest htask =>
    refine .of_eq ?_
    simp only [drain, setTask,
      (pool_filterMap_same Task.activeClaim htask).1 (.flushExpiring out) rfl]
  | flushSent i out htask | flushLost i throws out htask =>
    refine .of_eq ?_
    simp only [drain, setTask, (pool_filterMap_same Task.activeClaim htask).1 .flushing rfl]
  | claim i throws caller id callback task htask hwho hlookup =>
    refine claim_drain htask ?_ hlookup rfl
    rcases hwho with ⟨-, out, rfl, -⟩ | ⟨-, rfl⟩ <;> rfl
  | invoke i throws caller claim htask =>
    refine .of_eq ?_
    simp only [drain, setTask,
      (pool_filterMap_same Task.activeClaim htask).1 (.running caller claim) rfl]
  | flushResume i claim htask => exact finish_drain htask rfl (.inl rfl)
  | flushThrow i claim htask | callbackEnd i throws caller claim htask =>
    exact finish_drain htask rfl (.inr rfl)
  | ackTimed id data callback hlookup =>
    have hclaim : Drain.Step (Action.dispatchAck id data).resumes m.drain _ :=
      Drain.Step.claim m.drain id (mem_drain_table hlookup)
    convert hclaim using 1
    simp only [drain, removing, addTask, List.filterMap_append, Socket.dropBuffered]
    simp [Task.activeClaim]
  | cancel => exact Drain.Step.cancel m.drain
  | resume => exact Drain.Step.resume m.drain
  | _ => exact .of_eq rfl

/-! ## Every run -/

theorem drain_law_init (nsp : Bytes) : (init nsp).drain.Law := ⟨rfl, fun h => by cases h⟩

theorem drain_law {nsp : Bytes} {as : List Action} {m : Machine}
    (h : run step (init nsp) as = some m) : m.drain.Law :=
  run_preserves (fun m => m.drain.Law) (fun _ _ _ hlaw hstep => (step_drain hstep).law hlaw)
    (drain_law_init nsp) h

/-- The callbacks claimed so far: those about to be called, and those that
have been. -/
def claimedCallbacks (m : Machine) : List Nat :=
  (m.tasks.filterMap Task.waitingClaim).map (·.2.callback) ++ m.invoked.map (·.claim.callback)

/-- No action of the run accepts timed emissions again. -/
def NoResume (as : List Action) : Prop := ∀ a ∈ as, a.resumes = false

/-- Emissions are refused, and what was known when they began to be: who
is inside, and who had been claimed. -/
structure Refusing (m₀ m : Machine) : Prop where
  law : m.drain.Law
  closed : m.sock.timedAcksClosed = true
  inside : m.drain.inside ≤ m₀.drain.inside
  claimed : m.claimedCallbacks.Perm m₀.claimedCallbacks
  invoked : m₀.invoked <+: m.invoked

/-- With an empty table nothing is claimed, only called. -/
theorem claimed_of_empty {v v' : TimedAcks} (hstep : TimedAcks.Step v v') (hempty : v.table = ∅) :
    (v'.claims.map (·.2.callback) ++ v'.invoked.map (·.claim.callback)).Perm
      (v.claims.map (·.2.callback) ++ v.invoked.map (·.claim.callback)) ∧
    v.invoked <+: v'.invoked := by
  cases hstep with
  | expire id callback caller expiring claims hid hlookup hexpiring hclaims =>
    rw [hempty] at hlookup
    cases hlookup
  | acknowledge id data callback claim hlookup hclaim =>
    rw [hempty] at hlookup
    cases hlookup
  | invoke caller claim claims hclaims =>
    refine ⟨?_, List.prefix_append _ _⟩
    have hmap := hclaims.map (fun c : Caller × Claim => c.2.callback)
    simp only [List.map_append, List.map_cons, List.map_nil]
    refine List.Perm.trans ?_ (hmap.symm.append_right _)
    rw [← List.append_assoc]
    exact List.perm_append_singleton _ _
  | emit | emitAck | register | tick | pop | giveUp | lose | ignoreAck | cancel | skip =>
    exact ⟨List.Perm.refl _, List.prefix_refl _⟩

theorem Refusing.step {m₀ m m' : Machine} {a : Action} (h : Refusing m₀ m)
    (ha : a.resumes = false) (hstep : m.step a = some m') : Refusing m₀ m' := by
  have hdrain := step_drain hstep
  rw [ha] at hdrain
  obtain ⟨hclosed, hinside⟩ := hdrain.refusing h.law h.closed
  obtain ⟨hclaimed, hinvoked⟩ := claimed_of_empty (step_timedAcks hstep) (h.law.refused h.closed)
  exact ⟨hdrain.law h.law, hclosed, hinside.trans h.inside, hclaimed.trans h.claimed,
    h.invoked.trans hinvoked⟩

theorem Refusing.run {m₀ m m' : Machine} {as : List Action} (h : Refusing m₀ m)
    (has : NoResume as) (hrun : Lib.run Machine.step m as = some m') : Refusing m₀ m' := by
  induction as generalizing m with
  | nil =>
    cases hrun
    exact h
  | cons a as ih =>
    obtain ⟨mid, hstep, hrest⟩ := run_cons_iff.mp hrun
    exact ih (h.step (has a List.mem_cons_self) hstep)
      (fun b hb => has b (List.mem_cons_of_mem a hb)) hrest

/-- A callback that is about to be called is inside. -/
theorem waiting_of_inside {m : Machine} (h : m.drain.inside = 0) :
    m.tasks.filterMap Task.waitingClaim = [] := by
  have hnone := List.filterMap_eq_nil_iff.mp (List.eq_nil_of_length_eq_zero h)
  refine List.filterMap_eq_nil_iff.mpr fun task htask => ?_
  have := hnone task htask
  cases task with
  | claimed caller claim => cases this
  | _ => rfl

theorem refusing_refl {m : Machine} (hlaw : m.drain.Law) (hclosed : m.sock.timedAcksClosed = true) :
    Refusing m m :=
  ⟨hlaw, hclosed, Nat.le_refl _, List.Perm.refl _, List.prefix_refl _⟩

/-- What `sync_close` relies on, at a state of the socket. -/
structure Drains (m : Machine) : Prop where
  /-- The counter is the number of claimed callbacks that have not
  finished, so `finish_timed_ack` never takes it below zero. -/
  counted : m.sock.activeTimedAcks = (m.tasks.filterMap Task.activeClaim).length
  finishing : ∀ (i : Nat) (caller : Caller) (claim : Claim),
    m.tasks[i]? = some (.running caller claim) → 0 < m.sock.activeTimedAcks
  /-- After `cancel_timed_acks`, and until `resume_timed_acks`, nothing is
  claimed; once `wait_for_timed_acks` has returned, no callback is running
  and none is called. -/
  drained : ∀ (m₁ m₂ : Machine) (as : List Action), m.step .cancelTimedAcks = some m₁ →
    NoResume as → run step m₁ as = some m₂ →
    m₂.claimedCallbacks.Perm m₁.claimedCallbacks ∧
    (m₂.waitForTimedAcks = some m₂ → ∀ (m₃ : Machine) (bs : List Action), NoResume bs →
      run step m₂ bs = some m₃ →
      m₃.tasks.filterMap Task.activeClaim = [] ∧ m₃.invoked = m₂.invoked)

/-- **Draining.** In every state of every interleaving of the sections of a
socket, with callbacks that return or throw. -/
theorem drains (nsp : Bytes) (as : List Action) (m : Machine)
    (h : run step (init nsp) as = some m) : Drains m where
  counted := (drain_law h).counted
  finishing := by
    intro i caller claim htask
    obtain ⟨p, q, hall, -, -⟩ := pool_filterMap Task.activeClaim htask
    rw [show m.sock.activeTimedAcks = _ from (drain_law h).counted]
    simp only [drain, hall, Task.activeClaim, Option.toList_some, List.length_append,
      List.length_singleton]
    omega
  drained := by
    intro m₁ m₂ bs hcancel hbs hrun
    have hlaw₁ : m₁.drain.Law := (step_drain hcancel).law (drain_law h)
    have hclosed : m₁.sock.timedAcksClosed = true := by
      obtain ⟨-, rfl⟩ := locked_eq_some hcancel
      rfl
    have h₂ := (refusing_refl hlaw₁ hclosed).run hbs hrun
    refine ⟨h₂.claimed, fun hwait m₃ cs hcs hrun₃ => ?_⟩
    have hzero : m₂.drain.inside = 0 := by
      rw [← h₂.law.counted]
      unfold waitForTimedAcks at hwait
      split at hwait
      · assumption
      · cases hwait
    have h₃ := (refusing_refl h₂.law h₂.closed).run hcs hrun₃
    have hzero₃ : m₃.drain.inside = 0 := by
      have := h₃.inside
      omega
    refine ⟨List.eq_nil_of_length_eq_zero hzero₃, ?_⟩
    -- the calls made so far are a front part, and as many as there are now
    have hclaimed := h₃.claimed.length_eq
    simp only [claimedCallbacks, waiting_of_inside hzero, waiting_of_inside hzero₃, List.map_nil,
      List.nil_append, List.length_map] at hclaimed
    exact (h₃.invoked.eq_of_length hclaimed.symm).symm

/-- An acknowledged callback is inside while another emission waits. -/
def callbackInside : List Action :=
  [.emitTimed 0 (ascii "a") .null 1 true, .register 0, .decide 0,
   .emitTimed 0 (ascii "b") .null 1 true, .register 0, .decide 0,
   .dispatchAck 0 (.int 7), .task 0 false]

/-- It throws after the cancellation; only then does the wait return, and
a late acknowledgement of the other emission calls nobody. -/
theorem drains_callbackInside : ∃ m m₁ m₂ m₃, run step (init (ascii "/")) callbackInside = some m ∧
    m.sock.activeTimedAcks = 1 ∧ m.step .cancelTimedAcks = some m₁ ∧
    m₁.waitForTimedAcks.isSome = false ∧ run step m₁ [.task 0 true] = some m₂ ∧
    m₂.waitForTimedAcks = some m₂ ∧ run step m₂ [.dispatchAck 1 (.int 8)] = some m₃ ∧
    m₃.invoked = m₂.invoked ∧ Drains m :=
  ⟨_, _, _, _, rfl, rfl, rfl, rfl, rfl, rfl, rfl, rfl,
    drains (ascii "/") callbackInside _ rfl⟩

end Machine

end Sioxx
