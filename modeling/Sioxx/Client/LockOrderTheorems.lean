/-
Sioxx.Client.LockOrderTheorems — the threads of a client never deadlock on
its mutexes.

The operations of `LockTrace` nest their sections in the order of
`Mutex.rank`, so threads that run them, in any number and however they are
scheduled, are threads that lock in order. That is said of the mutexes
alone: of operations that come to no join and to no wait on a condition
(`WaitFree`). The join of `reconnect_thread_` inside its section can deadlock
(`ReconnectJoinTheorems`).

A listener that calls the library continues the trace of its own thread.
That keeps to the order when it runs without a lock. So the exception is the
disconnect listener that `on_engineio_close` calls under `sockets_mutex_`:
if it may call the library, a thread can wait for itself
(`deadlockFree_iff`).
-/
import Sioxx.Lib.LockOrder
import Sioxx.Client.LockTraceTheorems

namespace Sioxx

open Lib

abbrev Trace := List (LockAction Mutex UserCallback Socket)

namespace Operation

/-- No section of `mark_connected(false)` under `sockets_mutex_` finds its
socket connected and with a disconnect listener. -/
def Unannounced (op : Operation) (rounds : Nat) (w : World ClientImpl) (c : ClientImpl) : Prop :=
  op.reportsClose = true → ∀ s, SawUnder .sockets s (op.trace rounds w c) → ¬ s.AnnouncesDisconnect

end Operation

/-- The traces of the operations, in every world in which they wait for
mutexes only. -/
def OperationTrace (t : Trace) : Prop := ∃ (op : Operation) (rounds : Nat) (w : World ClientImpl)
  (c : ClientImpl), WaitFree (op.trace rounds w c) ∧ t = op.trace rounds w c

/-- Those that call no listener under a lock. -/
def UnlockedTrace (t : Trace) : Prop := ∃ (op : Operation) (rounds : Nat) (w : World ClientImpl)
  (c : ClientImpl), WaitFree (op.trace rounds w c) ∧ op.Unannounced rounds w c ∧
    t = op.trace rounds w c

/-- What a thread does: operations one after the other, whose listeners
leave the library alone, or may call it in turn where no lock is held. -/
inductive ThreadTrace : Trace → Prop where
  | passive {ts : List Trace} : (∀ t ∈ ts, OperationTrace t) → ThreadTrace ts.flatten
  | calling {ts : List Trace} {t : Trace} : (∀ u ∈ ts, UnlockedTrace u) →
      Spliced UnlockedTrace ts.flatten t → ThreadTrace t

theorem operationTrace_bracketed {t : Trace} (ht : OperationTrace t) :
    Bracketed Mutex.rank 0 t ∧ WaitFree t := by
  obtain ⟨op, rounds, w, c, hwait, rfl⟩ := ht
  exact ⟨(op.trace_whole rounds w c).1, hwait⟩

theorem unlockedTrace_bracketed {t : Trace} (ht : UnlockedTrace t) :
    Bracketed Mutex.rank 0 t ∧ WaitFree t ∧ CallbacksFree t := by
  obtain ⟨op, rounds, w, c, hwait, hquiet, rfl⟩ := ht
  obtain ⟨hbracketed, haccounted⟩ := op.trace_whole rounds w c
  refine ⟨hbracketed, hwait, haccounted.callbacksFree_iff.mpr ?_⟩
  exact fun s hs hannounces => hquiet hannounces.1 s hs hannounces.2

/-- A call of `socket()` that waits for nothing. -/
theorem socketCall_waitFree : WaitFree ((Operation.socket [] false).trace 0 {} {}) := by
  decide +kernel

theorem threadTrace_inOrder {t : Trace} (ht : ThreadTrace t) : InOrder Mutex.rank [] t := by
  cases ht with
  | @passive ts hts =>
    induction ts with
    | nil => rfl
    | cons u ts ih =>
      obtain ⟨hbracketed, hwait⟩ := operationTrace_bracketed (hts u List.mem_cons_self)
      exact inOrder_append (bracketed_inOrder hbracketed hwait)
        (ih fun v hv => hts v (List.mem_cons_of_mem _ hv))
  | @calling ts _ hts hs =>
    obtain ⟨hbracketed, hwait, hfree⟩ := flatten_callbacksFree fun u hu =>
      unlockedTrace_bracketed (hts u hu)
    exact spliced_inOrder (fun _ => unlockedTrace_bracketed) hs
      (bracketed_inOrder hbracketed hwait) hfree

variable {as : List (LockStep Mutex UserCallback Socket)}
  {threads : List (LockThread Mutex UserCallback Socket)}

theorem threads_inOrder (hstart : Meets interleave (Starts ThreadTrace) [] as)
    (hrun : run interleave [] as = some threads) : Ordered Mutex.rank threads := by
  refine run_inOrder (hstart.mono fun threads a ha => ?_) hrun
  cases a with
  | start t => exact threadTrace_inOrder ha
  | turn i => trivial

/-- **No deadlock on mutexes.** However threads that wait for mutexes only
are scheduled, each mutex is held once at most, as long as a thread is
unfinished some thread can go on, and whatever has been begun can be brought
to an end that leaves no mutex locked; no schedule is longer than what is
left to do. -/
theorem threads_deadlockFree (hstart : Meets interleave (Starts ThreadTrace) [] as)
    (hrun : run interleave [] as = some threads) :
    (heldLocks threads).Nodup ∧
    ((∃ x ∈ threads, x.todo ≠ []) → ∃ i threads', interleave threads (.turn i) = some threads') ∧
    (∃ (is : List Nat) (threads' : List (LockThread Mutex UserCallback Socket)),
      run interleave threads (is.map .turn) = some threads' ∧ Finished threads' ∧
        heldLocks threads' = []) ∧
    ∀ (is : List Nat) threads', run interleave threads (is.map .turn) = some threads' →
      is.length + remaining threads' = remaining threads := by
  have hordered := threads_inOrder hstart hrun
  refine ⟨run_exclusive hrun, exists_turn hordered, ?_, fun is threads' h => turns_remaining is h⟩
  obtain ⟨is, threads', hturns, hfinished⟩ := exists_completion hordered
  exact ⟨is, threads', hturns, hfinished,
    heldLocks_of_finished (turns_inOrder hordered is hturns) hfinished⟩

/-- Two threads emit at once, and one has the socket's mutex. -/
theorem emissions_deadlockFree :
    let t := (Operation.emit [] [] .null).trace 0 {} {}
    ∃ threads, run interleave [] [.start t, .start t, .turn 1] = some threads ∧
      (heldLocks threads).Nodup ∧
      ((∃ x ∈ threads, x.todo ≠ []) →
        ∃ i threads', interleave threads (.turn i) = some threads') ∧
      (∃ (is : List Nat) (threads' : List (LockThread Mutex UserCallback Socket)),
        run interleave threads (is.map .turn) = some threads' ∧ Finished threads' ∧
          heldLocks threads' = []) ∧
      ∀ (is : List Nat) threads', run interleave threads (is.map .turn) = some threads' →
        is.length + remaining threads' = remaining threads := by
  intro t
  have ht : ThreadTrace t := by
    have hwait : WaitFree t := by decide +kernel
    have h := @ThreadTrace.passive [t] (by simpa using ⟨_, _, _, _, hwait, rfl⟩)
    simpa using h
  have hstart : Meets interleave (Starts ThreadTrace) [] [.start t, .start t, .turn 1] :=
    ⟨ht, fun _ _ => ⟨ht, fun threads _ => meets_turns ThreadTrace [1] threads⟩⟩
  exact ⟨_, rfl, threads_deadlockFree hstart rfl⟩

/-- **Listeners that call the library.** Let an operation wait for mutexes
only. Threads that run it with listeners that may make any unlocked call,
beside any others, never deadlock exactly if the operation runs no
disconnect listener under `sockets_mutex_`. -/
theorem deadlockFree_iff (op : Operation) (rounds : Nat) (w : World ClientImpl) (c : ClientImpl)
    (hwait : WaitFree (op.trace rounds w c)) :
    (∀ as threads, Meets interleave (Starts fun t =>
        Spliced UnlockedTrace (op.trace rounds w c) t ∨ ThreadTrace t) [] as →
      run interleave [] as = some threads → (∃ x ∈ threads, x.todo ≠ []) →
        ∃ i threads', interleave threads (.turn i) = some threads') ↔
      op.Unannounced rounds w c := by
  constructor
  · intro hall hreports s hs hannounces
    rcases (op.trace_whole rounds w c).2 with ⟨-, hunder⟩ | ⟨hno, -⟩
    · -- the listener calls `socket()`, whose thread then waits for itself
      have hcall : UnlockedTrace ((Operation.socket [] false).trace 0 {} {}) :=
        ⟨_, _, _, _, socketCall_waitFree, fun h => (by cases h), rfl⟩
      obtain ⟨t', h', hinlined, hm, hl⟩ :=
        relock_inlined (S := fun v => v = [] ∨ UnlockedTrace v) (.inl rfl) (.inr hcall) [] hunder
      have hwait' : WaitFree t' := by
        refine inlined_waitFree (fun v hv => ?_) hinlined hwait
        rcases hv with rfl | hv
        · simp [WaitFree]
        · exact (unlockedTrace_bracketed hv).2.1
      obtain ⟨is, x, hrun, hleft, hstuck⟩ := stuck_of_relock hwait' ⟨h', _, hm, hl⟩
      have hstart := And.intro (Or.inl (b := ThreadTrace t') (Spliced.of_inlined hinlined))
        fun threads (_ : interleave [] (.start t') = some threads) => meets_turns (fun t =>
          Spliced UnlockedTrace (op.trace rounds w c) t ∨ ThreadTrace t) is threads
      obtain ⟨i, threads', hturn⟩ := hall (.start t' :: is.map .turn) [x] hstart
        (run_cons_iff.mpr ⟨_, rfl, hrun⟩) ⟨x, List.mem_singleton_self x, hleft⟩
      rw [hstuck i] at hturn
      cases hturn
    · exact hno s hs ⟨hreports, hannounces⟩
  · intro hquiet as threads hstart hrun hleft
    refine exists_turn (threads_inOrder (hstart.mono fun threads a ha => ?_) hrun) hleft
    cases a with
    | start t =>
      rcases ha with hs | ht
      · refine @ThreadTrace.calling [op.trace rounds w c] _ ?_ (by simpa using hs)
        intro u hu
        rw [List.mem_singleton.mp hu]
        exact ⟨op, rounds, w, c, hwait, hquiet, rfl⟩
      · exact ht
    | turn i => trivial

/-- A connection closes while a namespace with a disconnect listener is
connected, and nothing is to be reconnected. -/
def closedOnce : Operation × World ClientImpl × ClientImpl :=
  (.engineioClose, { choose := fun n => decide (n = 1) },
    { sockets := AList.singleton (ascii "/") { connected := true, onDisconnect := some 0 } })

theorem deadlockFree_iff_closedOnce :
    (∀ as threads, Meets interleave (Starts fun t =>
        Spliced UnlockedTrace (closedOnce.1.trace 0 closedOnce.2.1 closedOnce.2.2) t ∨
          ThreadTrace t) [] as →
      run interleave [] as = some threads → (∃ x ∈ threads, x.todo ≠ []) →
        ∃ i threads', interleave threads (.turn i) = some threads') ↔
      closedOnce.1.Unannounced 0 closedOnce.2.1 closedOnce.2.2 :=
  deadlockFree_iff _ _ _ _ (by decide +kernel)

end Sioxx
