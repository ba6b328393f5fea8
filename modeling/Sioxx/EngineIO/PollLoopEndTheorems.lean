/-
Sioxx.EngineIO.PollLoopEndTheorems — how the reading loop of
`http_polling_transport` ends, and the two ways to run it.

  * `run_closing` — once `closing_` is set one more handler call can come,
    on the strand none; the closing is reported once, unless the error
    handler throws, and the loop ends only then or by an exception on the
    strand.
  * `managed_simulates` — on the strand the loop does nothing that it could
    not do with threads of its own.
  * `closing_ends` — once the last request is answered, the loop leaves.
-/
import Sioxx.EngineIO.PollLoopTheorems

namespace Sioxx

open Lib

namespace LoopPc

/-- The call of the error handler it will make. -/
def owesError : LoopPc → Nat
  | .reporting _ => 1
  | _ => 0

/-- Is a call of a handler next? -/
def beforeCall : LoopPc → Bool
  | .opening _ => true
  | .passing _ _ _ => true
  | _ => false

/-- After a call, before `closing_` is read again. -/
def afterCall : LoopPc → Bool
  | .opened _ => true
  | .handling _ => true
  | .reading _ => true
  | .ended => true
  | _ => false

/-- Has the request under way been answered? -/
def hasAnswer : LoopPc → Bool
  | .idle => false
  | .started => false
  | .requesting _ => false
  | _ => true

end LoopPc

namespace PollEvent

def isClosed : PollEvent → Bool
  | .closed _ => true
  | _ => false

def isFailed : PollEvent → Bool
  | .failed _ => true
  | _ => false

end PollEvent

namespace PollLoop

variable {T : JsonText} {what : JsonError → Bytes}

/-! ## The end -/

/-- The calls of the open or message handler that come after one of the
close handler. -/
def callsAfterClosed (log : List PollEvent) : Nat :=
  ((log.dropWhile (!·.isClosed)).filterMap PollEvent.toCall).length

theorem callsAfterClosed_snoc (log : List PollEvent) (e : PollEvent) :
    callsAfterClosed (log ++ [e]) ≤
      callsAfterClosed log + if log.any PollEvent.isClosed then e.toCall.toList.length else 0 := by
  induction log with
  | nil => cases e <;> simp [callsAfterClosed, PollEvent.isClosed, PollEvent.toCall]
  | cons x log ih =>
    cases hx : x.isClosed with
    | true =>
      have hkeep : ∀ l : List PollEvent, (x :: l).dropWhile (!·.isClosed) = x :: l := by
        intro l
        simp [hx]
      rw [callsAfterClosed, callsAfterClosed, List.cons_append, hkeep, hkeep, ← List.cons_append,
        filterMap_concat, List.length_append]
      simp [hx]
    | false =>
      have hdrop : ∀ l, callsAfterClosed (x :: l) = callsAfterClosed l := by
        intro l
        simp [callsAfterClosed, hx]
      rw [List.cons_append, hdrop, hdrop]
      simpa [hx] using ih

theorem callsAfterClosed_append (log : List PollEvent) {events : List PollEvent}
    (hevents : ∀ e ∈ events, e.toCall = none) :
    callsAfterClosed (log ++ events) ≤ callsAfterClosed log := by
  induction events generalizing log with
  | nil => simp
  | cons e events ih =>
    have hfirst := callsAfterClosed_snoc log e
    have hrest := ih (log ++ [e]) fun x hx => hevents x (List.mem_cons_of_mem _ hx)
    rw [List.append_assoc] at hrest
    simp only [hevents e List.mem_cons_self, Option.toList_none, List.length_nil, ite_self,
      Nat.add_zero] at hfirst
    exact Nat.le_trans hrest hfirst

theorem countP_between {α : Type} (p : α → Bool) (l m l' : List α) :
    (l ++ m ++ l').countP p = (l ++ l').countP p + m.countP p := by
  simp only [List.countP_append]
  omega

/-- What the winner of `closing_` has left to do. -/
def Queued (s : PollLoop) : Prop :=
  s.pending = [] ∨ ∃ (failed : Option Bytes) (reason : Bytes),
    s.pending = (failed.map PollEvent.failed).toList ++ [.closed reason]

/-- Calls of the close handler, made or to come; one that an exception of
the error handler has dropped counts too. -/
def closedCount (s : PollLoop) : Nat :=
  (s.log ++ s.pending).countP PollEvent.isClosed + s.pc.owes + if s.interrupted then 1 else 0

def failedCount (s : PollLoop) : Nat :=
  (s.log ++ s.pending).countP PollEvent.isFailed + s.pc.owesError

/-- The close handler is called once `closing_` is set, by its winner, and
no more than one call of another handler can be left. -/
structure Closes (s : PollLoop) : Prop where
  closed : s.closedCount = if s.closing then 1 else 0
  failed : s.failedCount ≤ if s.closing then 1 else 0
  queued : s.Queued
  reported : s.interrupted = true ∨ s.pc.owesError < s.pc.owes →
    s.log.any PollEvent.isFailed = true
  late : s.late ≤ if s.closing then 1 else 0
  settled : s.late = 1 → s.pc.afterCall = true
  strand : s.mode = .callerOwned → s.late = 0 ∧ (s.closing = true → s.pc.beforeCall = false)
  ended : s.pc = .ended → s.closing = true ∨ s.escaped = true
  escaped : s.escaped = true → s.mode = .callerOwned
  after : callsAfterClosed s.log ≤ s.late

theorem Closes.closing_of_late {s : PollLoop} (hc : Closes s) (h : s.late = 1) :
    s.closing = true := by
  by_contra hclosing
  have hle := hc.late
  simp [h, hclosing] at hle

/-- Before `closing_` is set there is no notice, and none to come. -/
theorem Closes.no_notice {s : PollLoop} (hc : Closes s) (hclosing : s.closing = false) :
    (s.log ++ s.pending).countP PollEvent.isClosed = 0 ∧
      (s.log ++ s.pending).countP PollEvent.isFailed = 0 ∧ s.pc.owes = 0 ∧ s.late = 0 ∧
      s.interrupted = false := by
  have hclosed := hc.closed
  have hfailed := hc.failed
  have hlate := hc.late
  rw [hclosing] at hclosed hfailed hlate
  simp only [closedCount, failedCount, Bool.false_eq_true, if_false] at hclosed hfailed hlate
  refine ⟨by omega, by omega, by omega, by omega, ?_⟩
  by_contra hthrown
  rw [if_pos (by simpa using hthrown)] at hclosed
  omega

/-- Only the winner of `closing_` has notices. -/
theorem Closes.closing_of_mem {s : PollLoop} (hc : Closes s) {e : PollEvent}
    (he : e ∈ s.log ++ s.pending) (hkind : e.toCall = none ∧ e.toRequest = none) :
    s.closing = true := by
  by_contra hclosing
  obtain ⟨hclosed, hfailed, -⟩ := hc.no_notice (by simpa using hclosing)
  rw [List.countP_eq_zero] at hclosed hfailed
  cases e with
  | get target => cases hkind.2
  | opened => cases hkind.1
  | message payload isBinary => cases hkind.1
  | failed message => exact hfailed _ he rfl
  | closed reason => exact hclosed _ he rfl

theorem Closes.none_closed {s : PollLoop} (hc : Closes s) (hclosing : s.closing = false) :
    s.log.any PollEvent.isClosed = false := by
  have hcount := (hc.no_notice hclosing).1
  rw [List.countP_append] at hcount
  have hzero : s.log.countP PollEvent.isClosed = 0 := by omega
  simpa [List.countP_eq_zero] using hzero

/-- Before `closing_` is set nothing is queued. -/
theorem Closes.none_pending {s : PollLoop} (hc : Closes s) (hclosing : s.closing = false) :
    s.pending = [] := by
  rcases hc.queued with hnone | ⟨failed, reason, hpending⟩
  · exact hnone
  · have hcount := (hc.no_notice hclosing).1
    rw [hpending, List.countP_eq_zero] at hcount
    exact absurd rfl (hcount (.closed reason) (by simp))

/-- While `fail` owes the call of the close handler nobody else does. -/
theorem Closes.of_owes {s : PollLoop} (hc : Closes s) (howes : s.pc.owes = 1) :
    s.closing = true ∧ (s.log ++ s.pending).countP PollEvent.isClosed = 0 ∧
      s.interrupted = false := by
  have hclosed := hc.closed
  rw [closedCount, howes] at hclosed
  have hclosing : s.closing = true := by
    by_contra hnot
    rw [if_neg hnot] at hclosed
    omega
  rw [hclosing, if_pos rfl] at hclosed
  refine ⟨hclosing, by omega, ?_⟩
  by_contra hthrown
  rw [if_pos (by simpa using hthrown)] at hclosed
  omega

/-- A request or a move of the loop, which makes no notice and no call. -/
theorem Closes.of_move {s s' : PollLoop} (hc : Closes s) (events : List PollEvent)
    (hlog : s'.log = s.log ++ events)
    (hsilent : ∀ e ∈ events, e.toCall = none ∧ e.isClosed = false ∧ e.isFailed = false)
    (hsame : s'.pending = s.pending ∧ s'.closing = s.closing ∧ s'.late = s.late ∧
      s'.mode = s.mode ∧ s'.interrupted = s.interrupted)
    (howes : s'.pc.owes = s.pc.owes ∧ s'.pc.owesError = s.pc.owesError)
    (hsettled : s.closing = true → s.pc.afterCall = true → s'.pc.afterCall = true)
    (hbefore : s.mode = .callerOwned → s.closing = true → s'.pc.beforeCall = false)
    (hended : s'.pc = .ended → s'.closing = true ∨ s'.escaped = true)
    (hescaped : s'.escaped = true → s'.mode = .callerOwned) : Closes s' := by
  obtain ⟨hpending, hclosing, hlate, hmode, hthrown⟩ := hsame
  have hcount : ∀ p : PollEvent → Bool, (∀ e ∈ events, p e = false) →
      (s'.log ++ s'.pending).countP p = (s.log ++ s.pending).countP p := by
    intro p hp
    have hzero : events.countP p = 0 := by simpa [List.countP_eq_zero] using hp
    rw [hlog, hpending, countP_between, hzero, Nat.add_zero]
  constructor
  · rw [closedCount, hcount _ fun e he => (hsilent e he).2.1, howes.1, hthrown, hclosing]
    exact hc.closed
  · rw [failedCount, hcount _ fun e he => (hsilent e he).2.2, howes.2, hclosing]
    exact hc.failed
  · rw [Queued, hpending]
    exact hc.queued
  · rw [hthrown, howes.1, howes.2, hlog, List.any_append]
    exact fun h => by rw [hc.reported h, Bool.true_or]
  · rw [hlate, hclosing]
    exact hc.late
  · rw [hlate]
    exact fun h => hsettled (hc.closing_of_late h) (hc.settled h)
  · rw [hmode, hlate, hclosing]
    exact fun h => ⟨(hc.strand h).1, hbefore h⟩
  · exact hended
  · exact hescaped
  · rw [hlate]
    rw [hlog]
    exact Nat.le_trans (callsAfterClosed_append _ fun e he => (hsilent e he).1) hc.after

/-- The loop moves from one place to another. -/
theorem Closes.of_goto {s s' : PollLoop} (hc : Closes s)
    (hsame : s'.log = s.log ∧ s'.pending = s.pending ∧ s'.closing = s.closing ∧
      s'.late = s.late ∧ s'.mode = s.mode ∧ s'.escaped = s.escaped ∧
      s'.interrupted = s.interrupted)
    (howes : s'.pc.owes = s.pc.owes ∧ s'.pc.owesError = s.pc.owesError)
    (hsettled : s.closing = true → s.pc.afterCall = true → s'.pc.afterCall = true)
    (hbefore : s.mode = .callerOwned → s.closing = true → s'.pc.beforeCall = false)
    (hended : s'.pc = .ended → s.closing = true ∨ s.escaped = true) : Closes s' := by
  obtain ⟨hlog, hpending, hclosing, hlate, hmode, hescaped, hthrown⟩ := hsame
  refine hc.of_move [] (by rw [hlog, List.append_nil]) (by simp)
    ⟨hpending, hclosing, hlate, hmode, hthrown⟩ howes hsettled hbefore ?_ ?_
  · rw [hclosing, hescaped]
    exact hended
  · rw [hmode, hescaped]
    exact hc.escaped

/-- A call of the open or message handler. -/
theorem Closes.of_call {s : PollLoop} (hc : Closes s) {event : PollEvent} {c : Option Write}
    (hevent : event.toCall = some c) {pc : LoopPc} (hbefore : s.pc.beforeCall = true)
    (hafter : (∃ body, pc = .opened body) ∨ ∃ rest, pc = .handling rest) :
    Closes (s.call event pc) := by
  have hkind : event.isClosed = false ∧ event.isFailed = false := by
    cases event with
    | closed reason => cases hevent
    | failed message => cases hevent
    | _ => exact ⟨rfl, rfl⟩
  have howes : s.pc.owes = 0 ∧ s.pc.owesError = 0 ∧ s.pc.afterCall = false := by
    cases hpc : s.pc with
    | opening body => exact ⟨rfl, rfl, rfl⟩
    | passing payload isBinary rest => exact ⟨rfl, rfl, rfl⟩
    | _ => simp [hpc, LoopPc.beforeCall] at hbefore
  have hpc : pc.owes = 0 ∧ pc.owesError = 0 ∧ pc.afterCall = true ∧ pc.beforeCall = false ∧
      pc ≠ .ended := by
    rcases hafter with ⟨body, rfl⟩ | ⟨rest, rfl⟩ <;> exact ⟨rfl, rfl, rfl, rfl, by simp⟩
  -- a call with `closing_` set is the first
  have hlate : s.late = 0 := by
    have hle := hc.late
    by_contra hne
    have hone : s.late = 1 := by split at hle <;> omega
    have habsurd := hc.settled hone
    simp [howes.2.2] at habsurd
  have hcount : ∀ p : PollEvent → Bool, p event = false →
      (s.log ++ [event] ++ s.pending).countP p = (s.log ++ s.pending).countP p := by
    intro p hp
    rw [countP_between, List.countP_singleton, hp]
    rfl
  constructor
  · show (s.log ++ [event] ++ s.pending).countP _ + pc.owes + _ = _
    have hold := hc.closed
    rw [closedCount, howes.1] at hold
    rw [hcount _ hkind.1, hpc.1]
    exact hold
  · show (s.log ++ [event] ++ s.pending).countP _ + pc.owesError ≤ _
    have hold := hc.failed
    rw [failedCount, howes.2.1] at hold
    rw [hcount _ hkind.2, hpc.2.1]
    exact hold
  · exact hc.queued
  · show s.interrupted = true ∨ pc.owesError < pc.owes → (s.log ++ [event]).any _ = true
    rw [hpc.1, hpc.2.1, List.any_append]
    exact fun h => by rw [hc.reported (.inl (h.resolve_right (by omega))), Bool.true_or]
  · show (if s.closing then s.late + 1 else s.late) ≤ if s.closing then 1 else 0
    split <;> omega
  · exact fun _ => hpc.2.2.1
  · intro hmode
    have hopen : s.closing = false := by
      by_contra hclosing
      have hnot := (hc.strand hmode).2 (by simpa using hclosing)
      simp [hbefore] at hnot
    refine ⟨?_, fun _ => hpc.2.2.2.1⟩
    show (if s.closing then s.late + 1 else s.late) = 0
    rw [hopen, hlate]
    rfl
  · exact fun h => absurd h hpc.2.2.2.2
  · exact hc.escaped
  · show callsAfterClosed (s.log ++ [event]) ≤ if s.closing then s.late + 1 else s.late
    have hsnoc := callsAfterClosed_snoc s.log event
    have hold := hc.after
    rw [hevent] at hsnoc
    cases hclosing : s.closing with
    | true =>
      simp only [Option.toList_some, List.length_singleton, if_true] at hsnoc ⊢
      split at hsnoc <;> omega
    | false =>
      simp only [hc.none_closed hclosing, Bool.false_eq_true, if_false] at hsnoc ⊢
      omega

/-- The winner of `closing_` goes on with its notices. -/
theorem Closes.of_notice {s s' : PollLoop} (hc : Closes s) {now : List PollEvent}
    (hlog : s'.log = s.log ++ now) (hnow : ∀ e ∈ now, e.toCall = none)
    (hsame : s'.late = s.late ∧ s'.mode = s.mode)
    (hclosing : s'.closing = true) (hclosed : s'.closedCount = 1) (hfailed : s'.failedCount ≤ 1)
    (hqueued : s'.Queued)
    (hreported : s'.interrupted = true ∨ s'.pc.owesError < s'.pc.owes →
      s'.log.any PollEvent.isFailed = true)
    (hsettled : s.late = 1 → s'.pc.afterCall = true)
    (hbefore : s.mode = .callerOwned → s'.pc.beforeCall = false)
    (hescaped : s'.escaped = true → s.escaped = true ∨ s.mode = .callerOwned) : Closes s' := by
  obtain ⟨hlate, hmode⟩ := hsame
  constructor
  · rw [hclosing]
    exact hclosed
  · rw [hclosing]
    exact hfailed
  · exact hqueued
  · exact hreported
  · rw [hlate, hclosing]
    refine Nat.le_trans hc.late ?_
    split <;> simp
  · rw [hlate]
    exact hsettled
  · rw [hmode, hlate]
    exact fun h => ⟨(hc.strand h).1, fun _ => hbefore h⟩
  · exact fun _ => .inl hclosing
  · rw [hmode]
    exact fun h => (hescaped h).elim hc.escaped id
  · rw [hlate, hlog]
    exact Nat.le_trans (callsAfterClosed_append _ hnow) hc.after

theorem owesError_of_owes {pc : LoopPc} (h : pc.owes = 0) : pc.owesError = 0 := by
  cases pc with
  | reporting message => cases h
  | _ => rfl

/-- No call comes where `close` can come on the strand. -/
theorem beforeCall_of_admitsClose {pc : LoopPc} (h : pc.admitsClose = true) :
    pc.beforeCall = false := by
  cases pc with
  | opening body => cases h
  | passing payload isBinary rest => cases h
  | _ => rfl

/-- The exchange of the loop. -/
theorem claimed_closes {s : PollLoop} (message : Bytes) (hc : Closes s)
    (hclosing : s.closing = false) :
    Closes { s with closing := true, state := .closed, pc := .reporting message } := by
  obtain ⟨hclosed, hfailed, -, hlate, hthrown⟩ := hc.no_notice hclosing
  refine hc.of_notice (List.append_nil _).symm (by simp) ⟨rfl, rfl⟩ rfl ?_ ?_ hc.queued ?_
    (fun h => by omega) (fun _ => rfl) .inl
  · show (s.log ++ s.pending).countP _ + 1 + (if s.interrupted then 1 else 0) = 1
    rw [hclosed, hthrown]
    rfl
  · show (s.log ++ s.pending).countP _ + 1 ≤ 1
    omega
  · exact fun h => hc.reported (.inl (h.resolve_right (Nat.lt_irrefl 1)))

/-- The loop calls the error handler. -/
theorem report_closes {s : PollLoop} {message : Bytes} (hc : Closes s)
    (hpc : s.pc = .reporting message) :
    Closes { s with pc := .reported message, log := s.log ++ [.failed message] } := by
  obtain ⟨hclosing, hclosed, hthrown⟩ := hc.of_owes (by rw [hpc]; rfl)
  have hfailed := hc.failed
  rw [failedCount, hclosing, if_pos rfl, hpc] at hfailed
  refine hc.of_notice rfl (by simp [PollEvent.toCall]) ⟨rfl, rfl⟩ hclosing ?_ ?_ hc.queued ?_
    (fun h => ?_) (fun _ => rfl) .inl
  · show (s.log ++ [PollEvent.failed message] ++ s.pending).countP _ + 1 + _ = 1
    rw [countP_between, hclosed, hthrown]
    rfl
  · show (s.log ++ [PollEvent.failed message] ++ s.pending).countP _ + 0 ≤ 1
    rw [countP_between]
    exact hfailed
  · show _ → (s.log ++ [PollEvent.failed message]).any PollEvent.isFailed = true
    rw [List.any_append]
    exact fun _ => Bool.or_true _
  · have habsurd := hc.settled h
    rw [hpc] at habsurd
    cases habsurd

/-- The loop calls the close handler. -/
theorem reported_closes {s : PollLoop} {message : Bytes} (hc : Closes s)
    (hpc : s.pc = .reported message) :
    Closes { s with pc := .ended, log := s.log ++ [.closed message] } := by
  obtain ⟨hclosing, hclosed, hthrown⟩ := hc.of_owes (by rw [hpc]; rfl)
  have hfailed := hc.failed
  rw [failedCount, hclosing, if_pos rfl, hpc] at hfailed
  refine hc.of_notice rfl (by simp [PollEvent.toCall]) ⟨rfl, rfl⟩ hclosing ?_ ?_ hc.queued ?_
    (fun _ => rfl) (fun _ => rfl) .inl
  · show (s.log ++ [PollEvent.closed message] ++ s.pending).countP _ + 0 + _ = 1
    rw [countP_between, hclosed, hthrown]
    rfl
  · show (s.log ++ [PollEvent.closed message] ++ s.pending).countP _ + 0 ≤ 1
    rw [countP_between]
    exact hfailed
  · show s.interrupted = true ∨ 0 < 0 → _
    rw [hthrown]
    exact fun h => by rcases h with h | h <;> cases h

/-- The error handler of the loop throws. It has been called, and the close
handler will not be. -/
theorem abandon_closes {s : PollLoop} {message : Bytes} (hc : Closes s)
    (hpc : s.pc = .reported message) : Closes s.abandon := by
  obtain ⟨hclosing, hclosed, hthrown⟩ := hc.of_owes (by rw [hpc]; rfl)
  have hfailed := hc.failed
  rw [failedCount, hclosing, if_pos rfl, hpc] at hfailed
  refine hc.of_notice (List.append_nil _).symm (by simp) ⟨rfl, rfl⟩ hclosing ?_ hfailed hc.queued
    (fun _ => hc.reported (.inr ?_)) (fun _ => rfl) (fun _ => rfl) (fun h => ?_)
  · show (s.log ++ s.pending).countP _ + 0 + 1 = 1
    rw [hclosed]
  · rw [hpc]
    exact Nat.one_pos
  · simpa [abandon] using h

theorem claim_queued (s : PollLoop) (failed : Option Bytes) (reason : Bytes)
    (hpending : s.pending = []) :
    (s.claim ((failed.map PollEvent.failed).toList ++ [.closed reason])).Queued := by
  cases hmode : s.mode with
  | managed => exact .inr ⟨failed, reason, by simp [claim, hmode, hpending]⟩
  | callerOwned => exact .inl (by simp [claim, hmode, hpending])

/-- `close`, or `fail` of the writing side, is first at `closing_`. -/
theorem claim_closes {s : PollLoop} (hc : Closes s) (shutdownOnce : Bool)
    (failed : Option Bytes) (reason : Bytes) (hclosing : s.closing = false)
    (hstrand : s.mode = .callerOwned → s.pc.admitsClose = true) :
    Closes ({ s with shutdownOnce }.claim
      ((failed.map PollEvent.failed).toList ++ [PollEvent.closed reason])) := by
  obtain ⟨now, later, hlog, hpending, hevents⟩ :=
    @claim_log { s with shutdownOnce } ((failed.map .failed).toList ++ [.closed reason])
  obtain ⟨hclosed, hfailed, howes, hlate, hthrown⟩ := hc.no_notice hclosing
  have hnone := hc.none_pending hclosing
  obtain ⟨hset, hpc, hkept, hmode, hescaped, -, -, -, hinterrupted⟩ :=
    claim_frame { s with shutdownOnce }
      ((failed.map PollEvent.failed).toList ++ [PollEvent.closed reason])
  dsimp only at hlog hpending hpc hkept hmode hescaped hinterrupted
  have hcount : ∀ p : PollEvent → Bool,
      (s.log ++ now ++ (s.pending ++ later)).countP p = (s.log ++ s.pending).countP p +
        ((failed.map PollEvent.failed).toList ++ [PollEvent.closed reason]).countP p := by
    intro p
    rw [← hevents]
    simp only [List.countP_append]
    omega
  have hone : ((failed.map PollEvent.failed).toList ++ [PollEvent.closed reason]).countP
      PollEvent.isClosed = 1 ∧
    ((failed.map PollEvent.failed).toList ++ [PollEvent.closed reason]).countP
      PollEvent.isFailed ≤ 1 := by
    cases failed with
    | none => exact ⟨rfl, Nat.zero_le 1⟩
    | some message => exact ⟨rfl, Nat.le_refl 1⟩
  refine hc.of_notice hlog (fun e he => ?_) ⟨hkept, hmode⟩ hset ?_ ?_
    (claim_queued _ failed reason hnone) ?_ (fun h => by omega) (fun h => ?_)
    (fun h => .inl (hescaped ▸ h))
  · exact (claim_notices failed reason e (hevents ▸ List.mem_append_left _ he)).1
  · rw [closedCount, hlog, hpending, hpc, hinterrupted, hcount, hone.1, hclosed, howes, hthrown]
    rfl
  · rw [failedCount, hlog, hpending, hpc, hcount, hfailed, owesError_of_owes howes]
    have := hone.2
    omega
  · rw [hinterrupted, hpc, howes, hthrown]
    exact fun h => by rcases h with h | h <;> cases h
  · rw [hpc]
    exact beforeCall_of_admitsClose (hstrand h)

/-- The same on the strand, where the error handler throws. -/
theorem claimThrows_closes {s : PollLoop} (hc : Closes s) (message : Bytes)
    (hclosing : s.closing = false) (hmode : s.mode = .callerOwned)
    (hstrand : s.pc.admitsClose = true) :
    Closes { s.claim [.failed message] with interrupted := true, escaped := true } := by
  obtain ⟨hclosed, hfailed, howes, hlate, -⟩ := hc.no_notice hclosing
  have hclaim : s.claim [.failed message]
      = { s with closing := true, state := .closed, log := s.log ++ [.failed message] } := by
    rw [claim, hmode]
  rw [hclaim]
  refine hc.of_notice rfl (by simp [PollEvent.toCall]) ⟨rfl, rfl⟩ rfl ?_ ?_ hc.queued
    (fun _ => ?_) (fun h => by omega) (fun _ => beforeCall_of_admitsClose hstrand)
    (fun _ => .inr hmode)
  · show (s.log ++ [PollEvent.failed message] ++ s.pending).countP _ + s.pc.owes + 1 = 1
    rw [countP_between, hclosed, howes]
    rfl
  · show (s.log ++ [PollEvent.failed message] ++ s.pending).countP _ + s.pc.owesError ≤ 1
    rw [countP_between, hfailed, owesError_of_owes howes]
    exact Nat.le_refl 1
  · show (s.log ++ [PollEvent.failed message]).any PollEvent.isFailed = true
    rw [List.any_append]
    exact Bool.or_true _

/-- The winner of `closing_` calls its next handler. -/
theorem notify_closes {s : PollLoop} {event : PollEvent} {pending : List PollEvent}
    (hn : Notices s) (hc : Closes s) (hpending : s.pending = event :: pending) :
    Closes { s with pending, log := s.log ++ [event] } := by
  have hclosing : s.closing = true :=
    hc.closing_of_mem (e := event) (by simp [hpending]) (hn event (by simp [hpending]))
  have hmoved : s.log ++ [event] ++ pending = s.log ++ s.pending := by simp [hpending]
  have hclosed := hc.closed
  have hfailed := hc.failed
  rw [closedCount, hclosing, if_pos rfl] at hclosed
  rw [failedCount, hclosing, if_pos rfl] at hfailed
  refine hc.of_notice rfl ?_ ⟨rfl, rfl⟩ hclosing ?_ ?_ ?_ ?_ hc.settled
    (fun hmode => (hc.strand hmode).2 hclosing) .inl
  · intro e he
    rw [List.mem_singleton.mp he]
    exact (hn event (by simp [hpending])).1
  · rw [closedCount, hmoved]
    exact hclosed
  · rw [failedCount, hmoved]
    exact hfailed
  · -- what is left of a queue is one
    rcases hc.queued with hnone | ⟨failed, reason, hqueue⟩
    · rw [hnone] at hpending
      cases hpending
    · rw [hpending] at hqueue
      cases failed with
      | none => exact .inl (List.cons.inj hqueue).2
      | some message => exact .inr ⟨none, reason, (List.cons.inj hqueue).2⟩
  · intro h
    show (s.log ++ [event]).any PollEvent.isFailed = true
    rw [List.any_append, hc.reported h, Bool.true_or]

/-- It calls the error handler, which throws, and leaves the close handler
out. -/
theorem notifyThrows_closes {s : PollLoop} {message : Bytes} {pending : List PollEvent}
    (hc : Closes s) (hpending : s.pending = .failed message :: pending) :
    Closes { s with pending := [], interrupted := true, log := s.log ++ [.failed message] } := by
  obtain ⟨reason, rfl⟩ : ∃ reason, pending = [.closed reason] := by
    rcases hc.queued with hnone | ⟨failed, reason, hqueue⟩
    · rw [hnone] at hpending
      cases hpending
    · rw [hpending] at hqueue
      cases failed with
      | none => cases (List.cons.inj hqueue).1
      | some other => exact ⟨reason, (List.cons.inj hqueue).2⟩
  have hclosing : s.closing = true :=
    hc.closing_of_mem (e := .failed message) (by simp [hpending]) ⟨rfl, rfl⟩
  have hclosed := hc.closed
  have hfailed := hc.failed
  rw [closedCount, hclosing, if_pos rfl, hpending, List.countP_append] at hclosed
  rw [failedCount, hclosing, if_pos rfl, hpending, List.countP_append] at hfailed
  have hqueued : [PollEvent.failed message, .closed reason].countP PollEvent.isClosed = 1 ∧
      [PollEvent.failed message, .closed reason].countP PollEvent.isFailed = 1 := ⟨rfl, rfl⟩
  rw [hqueued.1] at hclosed
  rw [hqueued.2] at hfailed
  refine hc.of_notice rfl (by simp [PollEvent.toCall]) ⟨rfl, rfl⟩ hclosing ?_ ?_ (.inl rfl)
    (fun _ => ?_) hc.settled (fun hmode => (hc.strand hmode).2 hclosing) .inl
  · show (s.log ++ [PollEvent.failed message] ++ []).countP _ + s.pc.owes + 1 = 1
    rw [List.append_nil, List.countP_append]
    show s.log.countP _ + 0 + s.pc.owes + 1 = 1
    omega
  · show (s.log ++ [PollEvent.failed message] ++ []).countP _ + s.pc.owesError ≤ 1
    rw [List.append_nil, List.countP_append]
    exact hfailed
  · show (s.log ++ [PollEvent.failed message]).any PollEvent.isFailed = true
    rw [List.any_append]
    exact Bool.or_true _

theorem step_closes {s s' : PollLoop} (hn : Notices s) (hc : Closes s)
    (hstep : Step T s s') : Closes s' := by
  have hget : ∀ target e, e ∈ [PollEvent.get target] →
      e.toCall = none ∧ e.isClosed = false ∧ e.isFailed = false := by
    intro target e he
    rw [List.mem_singleton.mp he]
    exact ⟨rfl, rfl, rfl⟩
  have hstay : ∀ {s : PollLoop}, s.log = s.log ∧ s.pending = s.pending ∧
      s.closing = s.closing ∧ s.late = s.late ∧ s.mode = s.mode ∧ s.escaped = s.escaped ∧
      s.interrupted = s.interrupted := ⟨rfl, rfl, rfl, rfl, rfl, rfl, rfl⟩
  cases hstep with
  | keep state shutdownOnce =>
    exact hc.of_goto hstay ⟨rfl, rfl⟩ (fun _ => id) (fun h => (hc.strand h).2) hc.ended
  | connect hpc =>
    exact hc.of_goto hstay (by rw [hpc]; exact ⟨rfl, rfl⟩) (by rw [hpc]; exact fun _ => id)
      (fun _ _ => rfl) (fun h => by cases h)
  | start hpc =>
    exact hc.of_move _ rfl (hget s.target) ⟨rfl, rfl, rfl, rfl, rfl⟩
      (by rw [hpc]; exact ⟨rfl, rfl⟩) (by rw [hpc]; exact fun _ => id) (fun _ _ => rfl)
      (fun h => by cases h) hc.escaped
  | answer reply hpc =>
    exact hc.of_goto hstay (by rw [hpc]; exact ⟨rfl, rfl⟩) (by rw [hpc]; exact fun _ => id)
      (fun _ _ => rfl) (fun h => by cases h)
  | leave howes hclosing =>
    exact hc.of_goto hstay ⟨howes.symm, (owesError_of_owes howes).symm⟩ (fun _ _ => rfl)
      (fun _ _ => rfl) (fun _ => .inl hclosing)
  | escape howes hmode =>
    exact hc.of_move [] (List.append_nil _).symm (by simp) ⟨rfl, rfl, rfl, rfl, rfl⟩
      ⟨howes.symm, (owesError_of_owes howes).symm⟩ (fun _ _ => rfl) (fun _ _ => rfl)
      (fun _ => .inr rfl) (fun _ => hmode)
  | fails message howes hearly =>
    refine hc.of_goto hstay ⟨howes.symm, (owesError_of_owes howes).symm⟩
      (fun hclosing hafter => ?_) (fun _ _ => rfl) (fun h => by cases h)
    rcases hearly with hnot | ⟨reply, hpc⟩
    · rw [hnot] at hclosing
      cases hclosing
    · rw [hpc] at hafter
      cases hafter
  | opens body hpc hstrand =>
    refine hc.of_goto hstay (by rw [hpc]; exact ⟨rfl, rfl⟩) (by rw [hpc]; exact fun _ => id)
      (fun hmode hclosing => ?_) (fun h => by cases h)
    rw [hstrand hmode] at hclosing
    cases hclosing
  | callOpened hpc => exact hc.of_call rfl (by rw [hpc]; rfl) (.inl ⟨_, rfl⟩)
  | deliver hclosing hpc =>
    refine hc.of_goto hstay ?_ (fun _ _ => rfl) (fun _ _ => rfl) (fun h => by cases h)
    rcases hpc with hpc | ⟨reply, hpc⟩ <;> rw [hpc] <;> exact ⟨rfl, rfl⟩
  | poll hclosing hpc =>
    refine hc.of_move _ rfl (hget _) ⟨rfl, rfl, rfl, rfl, rfl⟩ (by rw [hpc]; exact ⟨rfl, rfl⟩)
      (fun hset => ?_) (fun _ _ => rfl) (fun h => by cases h) hc.escaped
    rw [hclosing] at hset
    cases hset
  | skip hclosing hpc _ _ =>
    exact hc.of_goto hstay (by rw [hpc]; exact ⟨rfl, rfl⟩) (fun _ _ => rfl) (fun _ _ => rfl)
      (fun h => by cases h)
  | pass hclosing hpc _ _ =>
    have hclear : s.closing ≠ true := by simp [hclosing]
    exact hc.of_goto hstay (by rw [hpc]; exact ⟨rfl, rfl⟩) (fun hset => absurd hset hclear)
      (fun _ hset => absurd hset hclear) (fun h => by cases h)
  | message hpc => exact hc.of_call rfl (by rw [hpc]; rfl) (.inr ⟨_, rfl⟩)
  | returns hpc =>
    exact hc.of_goto hstay (by rw [hpc]; exact ⟨rfl, rfl⟩) (fun _ _ => rfl) (fun _ _ => rfl)
      (fun h => by cases h)
  | claimed _ hclosing => exact claimed_closes _ hc hclosing
  | report hpc => exact report_closes hc hpc
  | reported hpc => exact reported_closes hc hpc
  | claim shutdownOnce failed reason hclosing hstrand =>
    exact claim_closes hc shutdownOnce failed reason hclosing hstrand
  | notify hpending => exact notify_closes hn hc hpending
  | abandons hpc => exact abandon_closes hc hpc
  | claimThrows message hclosing hmode hstrand =>
    exact claimThrows_closes hc message hclosing hmode hstrand
  | notifyThrows hpending => exact notifyThrows_closes hc hpending

theorem init_closes (mode : PollingMode) (target : Bytes) : Closes (init mode target) where
  closed := rfl
  failed := Nat.le_refl 0
  queued := .inl rfl
  reported := fun h => by rcases h with h | h <;> cases h
  late := Nat.le_refl 0
  settled := fun h => by cases h
  strand := fun _ => ⟨rfl, fun h => by cases h⟩
  ended := fun h => by cases h
  escaped := fun h => by cases h
  after := Nat.le_refl 0

variable {mode : PollingMode} {target : Bytes} {as : List Action} {s : PollLoop}

theorem run_closes (hrun : run (step T what) (init mode target) as = some s) : Closes s :=
  (run_preserves (fun s => Notices s ∧ Closes s)
    (fun _ _ _ hi h => ⟨step_notices hi.1 (step_cases h), step_closes hi.1 hi.2 (step_cases h)⟩)
    ⟨(init_inv (T := T) mode target).notices, init_closes mode target⟩ hrun).2

/-- **The end.** In every run the close handler is called at most once, and
if `closing_` is set it has been called, or its call is under way, unless
the error handler has been called and has thrown: then there is none. After
it at most one call of the open or message handler comes, on the strand
none. The loop ends only if `closing_` is set, or an exception left it on
the strand. -/
theorem run_closing (hrun : run (step T what) (init mode target) as = some s) :
    (s.interrupted = false → (s.log ++ s.pending).countP PollEvent.isClosed + s.pc.owes
        = (if s.closing then 1 else 0)) ∧
      (s.interrupted = true → s.closing = true ∧ s.log.any PollEvent.isFailed = true ∧
        (s.log ++ s.pending).countP PollEvent.isClosed + s.pc.owes = 0) ∧
      callsAfterClosed s.log ≤ 1 ∧
      (s.mode = .callerOwned → callsAfterClosed s.log = 0 ∧ s.late = 0) ∧
      (s.pc = .ended → s.closing = true ∨ s.escaped = true ∧ s.mode = .callerOwned) := by
  have hc := run_closes hrun
  have hlate : s.late ≤ 1 := Nat.le_trans hc.late (by split <;> simp)
  have hclosed := hc.closed
  refine ⟨fun hthrown => ?_, fun hthrown => ?_, Nat.le_trans hc.after hlate, fun hmode => ?_,
    fun hpc => ?_⟩
  · rw [closedCount, hthrown] at hclosed
    exact hclosed
  · rw [closedCount, hthrown, if_pos rfl] at hclosed
    cases hclosing : s.closing with
    | true =>
      rw [hclosing, if_pos rfl] at hclosed
      exact ⟨rfl, hc.reported (.inl hthrown), by omega⟩
    | false =>
      rw [hclosing, if_neg (by simp)] at hclosed
      omega
  · have hzero := (hc.strand hmode).1
    have hafter := hc.after
    exact ⟨by omega, hzero⟩
  · exact (hc.ended hpc).imp id fun h => ⟨h, hc.escaped h⟩

/-- `close` comes between the handshake's answer and the open handler. -/
theorem run_closing_late :
    let as : List Action :=
      [.connect, .start, .answer (.response 200 []), .turn, .close, .notify, .turn, .turn]
    ∃ s, run (step ReferenceText.referenceText fun _ => []) (init .managed (ascii "/")) as
        = some s ∧
      (s.interrupted = false → (s.log ++ s.pending).countP PollEvent.isClosed + s.pc.owes
        = (if s.closing then 1 else 0)) ∧
      (s.interrupted = true → s.closing = true ∧ s.log.any PollEvent.isFailed = true ∧
        (s.log ++ s.pending).countP PollEvent.isClosed + s.pc.owes = 0) ∧
      callsAfterClosed s.log ≤ 1 ∧
      (s.mode = .callerOwned → callsAfterClosed s.log = 0 ∧ s.late = 0) ∧
      (s.pc = .ended → s.closing = true ∨ s.escaped = true ∧ s.mode = .callerOwned) := by
  intro as
  obtain ⟨s, hrun⟩ : ∃ s, run (step ReferenceText.referenceText fun _ => [])
      (init .managed (ascii "/")) as = some s := ⟨_, rfl⟩
  exact ⟨s, hrun, run_closing hrun⟩

/-- There the bound is reached. -/
example :
    (run (step ReferenceText.referenceText fun _ => []) (init .managed (ascii "/"))
      [.connect, .start, .answer (.response 200 []), .turn, .close, .notify, .turn]).map
        (fun s => callsAfterClosed s.log) = some 1 := rfl

/-- The handshake fails, and the error handler throws. -/
example :
    (run (step ReferenceText.referenceText fun _ => []) (init .managed (ascii "/"))
      [.connect, .start, .answer (.response 404 []), .turn, .turn, .turn, .throw []]).map
        (fun s => (s.closing, s.interrupted, s.log.countP PollEvent.isClosed))
      = some (true, true, 0) := rfl

/-! ## Both modes -/

/-- The same loop with threads of its own, at some place. -/
def asManaged (s : PollLoop) (pc : LoopPc) : PollLoop := { s with mode := .managed, pc }

/-- On the strand the loop may have left already where the thread has not
read `closing_` yet. -/
structure Simulates (s m : PollLoop) : Prop where
  mode : s.mode = .callerOwned
  pending : s.pending = []
  escaped : s.escaped = false
  same : ∃ pc, m = s.asManaged pc ∧ (pc = s.pc ∨ s.pc = .ended ∧ s.closing = true)

theorem run_one {s s' : PollLoop} {a : Action} (h : s.step T what a = some s') :
    run (step T what) s [a] = some s' := run_cons_iff.mpr ⟨s', h, rfl⟩

theorem raise_callerOwned {s : PollLoop} (hmode : s.mode = .callerOwned) (text : Bytes) :
    (s.raise text).escaped = true := by
  rw [raise, hmode]

/-- With `closing_` set the thread is left where it is. -/
theorem simulates_leave {s m : PollLoop} (hs : Simulates s m) (hclosing : s.closing = true) :
    Simulates (s.goto .ended) m := by
  obtain ⟨hmode, hpending, hescaped, pc, rfl, -⟩ := hs
  exact ⟨hmode, hpending, hescaped, pc, rfl, .inr ⟨rfl, hclosing⟩⟩

theorem respond_asManaged (s : PollLoop) (handshake : Bool) (status : Nat) (body : Bytes) :
    (s.asManaged s.pc).respond handshake status body
      = (s.respond handshake status body).asManaged (s.respond handshake status body).pc := by
  unfold respond
  split
  · rfl
  · split <;> rfl

theorem readPacket_asManaged {s : PollLoop} {packet : Bytes} {rest : List Bytes}
    (hmode : s.mode = .callerOwned) (hstays : (s.readPacket T what packet rest).escaped = false) :
    (s.asManaged s.pc).readPacket T what packet rest
      = (s.readPacket T what packet rest).asManaged (s.readPacket T what packet rest).pc := by
  have hsame : (s.asManaged s.pc).transport.noteHandshake T packet
      = s.transport.noteHandshake T packet := rfl
  unfold readPacket at hstays ⊢
  rw [hsame]
  cases hnote : s.transport.noteHandshake T packet with
  | error e =>
    rw [hnote] at hstays
    simp [raise_callerOwned hmode] at hstays
  | ok transport =>
    dsimp only
    cases packetCall packet with
    | none => rfl
    | some write => rfl

theorem answeredStep_asManaged {s : PollLoop} {handshake : Bool} {reply : PollReply}
    (hmode : s.mode = .callerOwned) (hclosing : s.closing = false) :
    (s.asManaged s.pc).answeredStep handshake reply
      = (s.answeredStep handshake reply).asManaged (s.answeredStep handshake reply).pc := by
  cases reply with
  | error text => simp [answeredStep, hmode, raise, unlessClosing, hclosing, asManaged, goto]
  | response status body =>
    have hstrand : s.answeredStep handshake (.response status body)
        = s.respond handshake status body := by
      simp [answeredStep, hmode, unlessClosing, hclosing]
    rw [hstrand, ← respond_asManaged]
    have hopen : (s.asManaged s.pc).closing = false := hclosing
    cases handshake with
    | true => rfl
    | false =>
      show (s.asManaged s.pc).unlessClosing _ = _
      rw [unlessClosing, if_neg (by simp [hopen])]

/-- A turn on the strand leaves the loop, or is a turn of the thread. -/
theorem turn_asManaged {s s' : PollLoop} (hmode : s.mode = .callerOwned)
    (h : s.turnStep T what = some s') (hstays : s'.escaped = false) :
    (s.closing = true ∧ s' = s.goto .ended) ∨
      (s.asManaged s.pc).turnStep T what = some (s'.asManaged s'.pc) := by
  cases hclosing : s.closing with
  | true =>
    cases hpc : s.pc with
    | answered handshake reply =>
      simp only [turnStep, hpc, Option.some.injEq] at h
      refine .inl ⟨rfl, ?_⟩
      rw [← h]
      cases reply <;> simp [answeredStep, hmode, unlessClosing, hclosing]
    | opened body =>
      exact .inl ⟨rfl, by simpa [turnStep, hpc, unlessClosing, hclosing] using h.symm⟩
    | reading rest =>
      cases rest <;>
        exact .inl ⟨rfl, by simpa [turnStep, hpc, unlessClosing, hclosing] using h.symm⟩
    | failing message =>
      exact .inl ⟨rfl, by simpa [turnStep, hpc, unlessClosing, hclosing] using h.symm⟩
    | opening body =>
      simp only [turnStep, hpc, Option.some.injEq] at h
      subst h
      exact .inr rfl
    | passing payload isBinary rest =>
      simp only [turnStep, hpc, Option.some.injEq] at h
      subst h
      exact .inr rfl
    | handling rest =>
      simp only [turnStep, hpc, Option.some.injEq] at h
      subst h
      exact .inr rfl
    | reporting message =>
      simp only [turnStep, hpc, Option.some.injEq] at h
      subst h
      exact .inr rfl
    | reported message =>
      simp only [turnStep, hpc, Option.some.injEq] at h
      subst h
      exact .inr rfl
    | _ => simp [turnStep, hpc] at h
  | false =>
    right
    cases hpc : s.pc with
    | answered handshake reply =>
      simp only [turnStep, hpc, Option.some.injEq] at h
      subst h
      rw [← hpc, ← answeredStep_asManaged hmode hclosing, hpc]
      rfl
    | opened body =>
      simp only [turnStep, hpc, unlessClosing, hclosing] at h
      cases h
      simp [turnStep, asManaged, unlessClosing, hclosing, deliver]
    | reading rest =>
      cases rest with
      | nil =>
        simp only [turnStep, hpc, unlessClosing, hclosing] at h
        cases h
        simp [turnStep, asManaged, unlessClosing, hclosing, request]
      | cons packet rest =>
        simp only [turnStep, hpc, unlessClosing, hclosing, Bool.false_eq_true, if_false,
          Option.some.injEq] at h
        subst h
        rw [← hpc, ← readPacket_asManaged hmode hstays, hpc]
        simp [turnStep, asManaged, unlessClosing, hclosing]
    | failing message =>
      simp only [turnStep, hpc, unlessClosing, hclosing] at h
      cases h
      simp [turnStep, asManaged, unlessClosing, hclosing]
    | opening body =>
      simp only [turnStep, hpc, Option.some.injEq] at h
      subst h
      rfl
    | passing payload isBinary rest =>
      simp only [turnStep, hpc, Option.some.injEq] at h
      subst h
      rfl
    | handling rest =>
      simp only [turnStep, hpc, Option.some.injEq] at h
      subst h
      rfl
    | reporting message =>
      simp only [turnStep, hpc, Option.some.injEq] at h
      subst h
      rfl
    | reported message =>
      simp only [turnStep, hpc, Option.some.injEq] at h
      subst h
      rfl
    | _ => simp [turnStep, hpc] at h

theorem step_frame {s s' : PollLoop} (hstep : Step T s s') :
    s'.mode = s.mode ∧ (s.mode = .callerOwned → s.pending = [] → s'.pending = []) ∧
      (s.escaped = true → s'.escaped = true) := by
  cases hstep with
  | claim shutdownOnce failed reason _ _ =>
    obtain ⟨-, -, -, hmode, hescaped, -⟩ := claim_frame { s with shutdownOnce }
      ((failed.map PollEvent.failed).toList ++ [PollEvent.closed reason])
    refine ⟨hmode, fun h hnone => ?_, fun h => hescaped.trans h⟩
    simp [PollLoop.claim, h, hnone]
  | notify hpending =>
    refine ⟨rfl, fun _ hnone => ?_, id⟩
    rw [hnone] at hpending
    cases hpending
  | escape _ _ => exact ⟨rfl, fun _ h => h, fun _ => rfl⟩
  | abandons _ => exact ⟨rfl, fun _ h => h, fun h => by simp [abandon, h]⟩
  | claimThrows message _ hmode _ =>
    exact ⟨by simp [PollLoop.claim, hmode], fun _ h => by simp [PollLoop.claim, hmode, h],
      fun _ => rfl⟩
  | notifyThrows _ => exact ⟨rfl, fun _ _ => rfl, id⟩
  | _ => exact ⟨rfl, fun _ h => h, id⟩

/-- What another thread, or a handler, does to both. -/
theorem claim_simulates {s m : PollLoop} (hs : Simulates s m) (shutdownOnce : Bool)
    (events : List PollEvent) {a : Action}
    (hm : m.step T what a = some ({ m with shutdownOnce }.claim events)) :
    ∃ bs m', run (step T what) m bs = some m' ∧
      Simulates ({ s with shutdownOnce }.claim events) m' := by
  obtain ⟨hmode, hpending, hescaped, pc, rfl, hpc⟩ := hs
  have hnotify : ∀ (pending : List PollEvent) (l : PollLoop), l.pending = pending →
      run (step T what) l (pending.map fun _ => .notify)
        = some { l with pending := [], log := l.log ++ pending } := by
    intro pending
    induction pending with
    | nil =>
      intro l hl
      rw [List.map_nil, run_nil, List.append_nil, ← hl]
    | cons e pending ih =>
      intro l hl
      refine run_cons_iff.mpr ⟨{ l with pending, log := l.log ++ [e] }, ?_, ?_⟩
      · simp only [step, hl]
      · rw [ih _ rfl]
        simp
  refine ⟨a :: events.map fun _ => .notify, _, run_cons_iff.mpr ⟨_, hm, hnotify events _ ?_⟩, ?_⟩
  · simp [PollLoop.claim, asManaged, hpending]
  · refine ⟨by simp [PollLoop.claim, hmode], by simp [PollLoop.claim, hmode, hpending],
      by simp [PollLoop.claim, hmode, hescaped], pc, ?_, ?_⟩
    · simp [PollLoop.claim, asManaged, hmode, hpending]
    · refine hpc.imp (fun h => ?_) fun h => ⟨?_, ?_⟩ <;> simp [PollLoop.claim, hmode, h]

/-- What leaves both alone. -/
theorem keep_simulates {s m : PollLoop} (hs : Simulates s m) (state : TransportState)
    (shutdownOnce : Bool) :
    Simulates { s with state, shutdownOnce } { m with state, shutdownOnce } := by
  obtain ⟨hmode, hpending, hescaped, pc, rfl, hpc⟩ := hs
  exact ⟨hmode, hpending, hescaped, pc, rfl, hpc⟩

theorem step_simulates {s s' m : PollLoop} {a : Action} (hs : Simulates s m)
    (h : s.step T what a = some s') (hstays : s'.escaped = false) :
    ∃ bs m', run (step T what) m bs = some m' ∧ Simulates s' m' := by
  have hstep := step_cases h
  obtain ⟨hframe, hnone, -⟩ := step_frame hstep
  have hmode' : s'.mode = .callerOwned := hframe.trans hs.mode
  have hpending' : s'.pending = [] := hnone hs.mode hs.pending
  -- a step of the loop: the two are at the same place
  have hmove : ∀ pc, m = s.asManaged pc → pc = s.pc → ∀ b,
      (s.asManaged s.pc).step T what b = some (s'.asManaged s'.pc) →
      ∃ bs m', run (step T what) m bs = some m' ∧ Simulates s' m' := by
    rintro pc rfl rfl b hb
    exact ⟨[b], _, run_one hb, ⟨hmode', hpending', hstays, _, rfl, .inl rfl⟩⟩
  obtain ⟨pc, hm, hpc⟩ := hs.same
  have hfields : m.closing = s.closing ∧ m.shutdownOnce = s.shutdownOnce ∧ m.mode = .managed := by
    rw [hm]
    exact ⟨rfl, rfl, rfl⟩
  cases a with
  | connect =>
    simp only [step] at h
    split at h
    · cases h
      exact ⟨[], m, rfl, hs⟩
    · rename_i hclosing
      split at h
      · rename_i hidle
        cases h
        refine hmove pc hm (hpc.resolve_right fun hend => ?_) .connect ?_
        · rw [hidle] at hend
          cases hend.1
        · simp [step, asManaged, hidle, hclosing]
      · cases h
  | start =>
    simp only [step] at h
    split at h
    · rename_i hstarted
      cases h
      refine hmove pc hm (hpc.resolve_right fun hend => ?_) .start ?_
      · rw [hstarted] at hend
        cases hend.1
      · simp [step, asManaged, hstarted, request]
    · cases h
  | answer reply =>
    simp only [step] at h
    split at h
    · rename_i handshake hrequesting
      cases h
      refine hmove pc hm (hpc.resolve_right fun hend => ?_) (.answer reply) ?_
      · rw [hrequesting] at hend
        cases hend.1
      · simp [step, asManaged, hrequesting, goto]
    · cases h
  | turn =>
    rcases turn_asManaged hs.mode h hstays with ⟨hclosing, rfl⟩ | hturn
    · exact ⟨[], m, rfl, simulates_leave hs hclosing⟩
    · refine hmove pc hm (hpc.resolve_right fun hend => ?_) .turn hturn
      simp [step, turnStep, hend.1] at h
  | throw text =>
    -- on the strand an exception leaves
    have hescaped : s'.escaped = true := by
      simp only [step] at h
      split at h
      · cases h
        exact raise_callerOwned hs.mode text
      · cases h
        exact raise_callerOwned hs.mode text
      · cases h
        simp [abandon, hs.mode]
      · cases h
    rw [hescaped] at hstays
    cases hstays
  | close =>
    simp only [step] at h
    split at h
    · cases h
    · split at h
      · cases h
        exact ⟨[], m, rfl, hs⟩
      · rename_i honce
        split at h
        · rename_i hclosing
          cases h
          refine ⟨[.close], _, run_one ?_, keep_simulates hs .closed true⟩
          simp [step, hfields, honce, hclosing]
        · rename_i hclosing
          cases h
          refine claim_simulates hs true _ (a := .close) ?_
          simp [step, hfields, honce, hclosing]
  | fail message =>
    simp only [step] at h
    split at h
    · cases h
    · split at h
      · cases h
        exact ⟨[], m, rfl, hs⟩
      · rename_i hclosing
        cases h
        refine claim_simulates hs s.shutdownOnce _ (a := .fail message) ?_
        have hm' : m.step T what (.fail message)
            = some (m.claim [.failed message, .closed message]) := by
          simp [step, hfields.1, hfields.2.2, hclosing]
        rw [← hfields.2.1]
        exact hm'
  | failThrowing message =>
    simp only [step] at h
    split at h
    · cases h
    · cases h
      cases hstays
  | notify =>
    simp only [step, hs.pending] at h
    cases h
  | notifyThrowing =>
    simp only [step, hs.pending] at h
    cases h

theorem run_simulates {s s' m : PollLoop} (hs : Simulates s m)
    (hrun : run (step T what) s as = some s') (hstays : s'.escaped = false) :
    ∃ bs m', run (step T what) m bs = some m' ∧ Simulates s' m' := by
  induction as generalizing s m with
  | nil =>
    cases hrun
    exact ⟨[], m, rfl, hs⟩
  | cons a as ih =>
    obtain ⟨t, hstep, hrest⟩ := run_cons_iff.mp hrun
    have hinside : t.escaped = false := by
      by_contra hleft
      have hkept : s'.escaped = true :=
        run_preserves (·.escaped = true) (fun _ _ _ h hs => (step_frame (step_cases hs)).2.2 h)
          (by simpa using hleft) hrest
      rw [hstays] at hkept
      cases hkept
    obtain ⟨bs, m', hm, hs'⟩ := step_simulates hs hstep hinside
    obtain ⟨cs, m'', hm', hs''⟩ := ih hs' hrest
    exact ⟨bs ++ cs, m'', run_append hm hm', hs''⟩

/-- **Both modes.** Whatever is requested and called on the strand, in any
run that no exception leaves, is requested and called in the same order in
some run with threads of its own. -/
theorem managed_simulates (hrun : run (step T what) (init .callerOwned target) as = some s)
    (hstays : s.escaped = false) :
    ∃ bs m, run (step T what) (init .managed target) bs = some m ∧ m.log = s.log ∧
      m.bodies = s.bodies ∧ m.closing = s.closing ∧ m.state = s.state ∧ m.pending = [] := by
  have hstart : Simulates (init .callerOwned target) (init .managed target) :=
    ⟨rfl, rfl, rfl, .idle, rfl, .inl rfl⟩
  obtain ⟨bs, m, hm, hs⟩ := run_simulates hstart hrun hstays
  obtain ⟨pc, rfl, -⟩ := hs.same
  exact ⟨bs, _, hm, rfl, rfl, rfl, rfl, hs.pending⟩

/-- A poll that fails on the strand. -/
theorem managed_simulates_failure :
    let as : List Action := [.connect, .start, .answer (.error (ascii "eof")), .turn, .turn]
    ∃ s, run (step ReferenceText.referenceText fun _ => []) (init .callerOwned (ascii "/")) as
        = some s ∧
      ∃ bs m, run (step ReferenceText.referenceText fun _ => []) (init .managed (ascii "/")) bs
          = some m ∧ m.log = s.log ∧ m.bodies = s.bodies ∧ m.closing = s.closing ∧
        m.state = s.state ∧ m.pending = [] := by
  intro as
  obtain ⟨s, hrun, hstays⟩ : ∃ s, run (step ReferenceText.referenceText fun _ => [])
      (init .callerOwned (ascii "/")) as = some s ∧ s.escaped = false := ⟨_, rfl, rfl⟩
  exact ⟨s, hrun, managed_simulates hrun hstays⟩

/-! ## Leaving -/

/-- Turns that lead to the end of the loop. -/
def EndsWithin (T : JsonText) (what : JsonError → Bytes) (s : PollLoop) (n : Nat) : Prop :=
  ∃ k s', k ≤ n ∧ run (step T what) s (List.replicate k .turn) = some s' ∧ s'.pc = .ended ∧
    s'.requests = s.requests

theorem endsWithin_of_turn {s t : PollLoop} {n : Nat} (hturn : s.turnStep T what = some t)
    (hrequests : t.requests = s.requests) (ht : t.EndsWithin T what n) :
    s.EndsWithin T what (n + 1) := by
  obtain ⟨k, s', hk, hrun, hpc, hsame⟩ := ht
  exact ⟨k + 1, s', by omega, run_cons_iff.mpr ⟨t, hturn, hrun⟩, hpc, hsame.trans hrequests⟩

theorem endsWithin_ended {s : PollLoop} (hpc : s.pc = .ended) (n : Nat) :
    s.EndsWithin T what n := ⟨0, s, Nat.zero_le n, rfl, hpc, rfl⟩

/-- Where `closing_` is read next, the loop leaves. -/
theorem endsWithin_leave {s u : PollLoop} (hclosing : s.closing = true)
    (hturn : s.turnStep T what = some (s.unlessClosing u)) (n : Nat) :
    s.EndsWithin T what (n + 1) := by
  rw [unlessClosing, if_pos hclosing] at hturn
  exact endsWithin_of_turn hturn rfl (endsWithin_ended rfl n)

theorem endsWithin_reading {s : PollLoop} (hclosing : s.closing = true) {rest : List Bytes}
    (hpc : s.pc = .reading rest) (n : Nat) : s.EndsWithin T what (n + 1) := by
  cases rest with
  | nil => exact endsWithin_leave hclosing (by rw [turnStep, hpc]) n
  | cons packet rest => exact endsWithin_leave hclosing (by rw [turnStep, hpc]) n

theorem endsWithin_handling {s : PollLoop} (hclosing : s.closing = true) {rest : List Bytes}
    (hpc : s.pc = .handling rest) (n : Nat) : s.EndsWithin T what (n + 2) :=
  endsWithin_of_turn (t := s.goto (.reading rest)) (by rw [turnStep, hpc]) rfl
    (endsWithin_reading (s := s.goto (.reading rest)) hclosing rfl n)

theorem endsWithin_opening {s : PollLoop} (hclosing : s.closing = true) {body : Bytes}
    (hpc : s.pc = .opening body) (n : Nat) : s.EndsWithin T what (n + 2) :=
  let t := s.call .opened (.opened body)
  endsWithin_of_turn (t := t) (by rw [turnStep, hpc])
    (requests_of_log rfl (silent rfl))
    (endsWithin_leave (s := t) (u := t.deliver body) hclosing rfl n)

theorem endsWithin_failing {s : PollLoop} (hclosing : s.closing = true) {message : Bytes}
    (hpc : s.pc = .failing message) (n : Nat) : s.EndsWithin T what (n + 1) :=
  endsWithin_leave hclosing (by rw [turnStep, hpc]) n

theorem endsWithin_reported {s : PollLoop} {message : Bytes} (hpc : s.pc = .reported message)
    (n : Nat) : s.EndsWithin T what (n + 1) :=
  let t := { s with pc := .ended, log := s.log ++ [PollEvent.closed message] }
  endsWithin_of_turn (t := t) (by rw [turnStep, hpc])
    (requests_of_log rfl (silent rfl)) (endsWithin_ended (s := t) rfl n)

theorem endsWithin_answered {s : PollLoop} (hclosing : s.closing = true) {handshake : Bool}
    {reply : PollReply} (hpc : s.pc = .answered handshake reply) : s.EndsWithin T what 3 := by
  have hturn : s.turnStep T what = some (s.answeredStep handshake reply) := by rw [turnStep, hpc]
  unfold answeredStep at hturn
  split at hturn
  · rename_i text hmode
    rw [raise, hmode] at hturn
    exact endsWithin_leave hclosing hturn 2
  · exact endsWithin_leave hclosing hturn 2
  · split at hturn
    · -- the handshake is let through
      rename_i status body hmode hfirst
      rw [respond] at hturn
      split at hturn
      · let t := s.goto (.failing (returnedHttp true status))
        exact endsWithin_of_turn hturn rfl (endsWithin_failing (s := t) hclosing rfl 1)
      · let t := { s with state := .open, pc := .opening body }
        rw [if_pos rfl] at hturn
        exact endsWithin_of_turn hturn rfl (endsWithin_opening (s := t) hclosing rfl 0)
    · exact endsWithin_leave hclosing hturn 2
  · exact endsWithin_leave hclosing hturn 2

/-- **The thread comes back.** Once `closing_` is set and the request has
been answered, the loop leaves within three turns, and makes no other
request. -/
theorem closing_ends (s : PollLoop) (hclosing : s.closing = true)
    (hpc : s.pc.hasAnswer = true) : s.EndsWithin T what 3 := by
  cases hat : s.pc with
  | idle => simp [hat, LoopPc.hasAnswer] at hpc
  | started => simp [hat, LoopPc.hasAnswer] at hpc
  | requesting handshake => simp [hat, LoopPc.hasAnswer] at hpc
  | answered handshake reply => exact endsWithin_answered hclosing hat
  | opening body => exact endsWithin_opening hclosing hat 1
  | opened body => exact endsWithin_leave hclosing (by rw [turnStep, hat]) 2
  | reading rest => exact endsWithin_reading hclosing hat 2
  | passing payload isBinary rest =>
    let t := s.call (.message payload isBinary) (.handling rest)
    exact endsWithin_of_turn (t := t) (by rw [turnStep, hat])
      (requests_of_log rfl (silent rfl))
      (endsWithin_handling (s := t) hclosing rfl 0)
  | handling rest => exact endsWithin_handling hclosing hat 1
  | failing message => exact endsWithin_failing hclosing hat 2
  | reporting message =>
    let t := { s with pc := .reported message, log := s.log ++ [PollEvent.failed message] }
    exact endsWithin_of_turn (t := t) (by rw [turnStep, hat])
      (requests_of_log rfl (silent rfl))
      (endsWithin_reported (s := t) rfl 1)
  | reported message => exact endsWithin_reported hat 2
  | ended => exact endsWithin_ended hat 3

/-- The handshake is answered after `close`. -/
theorem closing_ends_handshake :
    let s : PollLoop :=
      { mode := .managed, target := ascii "/", closing := true,
        pc := .answered true (.response 200 []) }
    s.EndsWithin ReferenceText.referenceText (fun _ => []) 3 :=
  closing_ends _ rfl rfl

end PollLoop

end Sioxx
