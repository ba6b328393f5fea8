/-
Sioxx.EngineIO.WebSocketLoopTheorems — what the chain of a
`websocket_transport` does, in what order, and how it ends.

`Step` says once what a step can do; every law is a case analysis over it.

  * `run_operations` — the operations come in one order, one at a time, each
    after the success of the one before: nothing goes to the server through
    a proxy that has not agreed to the tunnel.
  * `run_handlers` — the handlers are called for the results, in their
    order: open once, the messages that were read, and the end of the read.
  * `run_shutdown` — a `close` lets one more call through at most, and none
    once the shutdown has run.
-/
import Mathlib.Data.List.Induction
import Mathlib.Logic.Function.Iterate
import Sioxx.EngineIO.WebSocketLoop
import Sioxx.Lib.Run

namespace Sioxx

open Lib

namespace WsOp

/-- The operation after a success. -/
def next (tls proxied : Bool) : WsOp → WsOp
  | .resolve => .connect
  | .connect => if proxied then .proxyWrite else if tls then .sslHandshake else .handshake
  | .proxyWrite => .proxyRead
  | .proxyRead => if tls then .sslHandshake else .handshake
  | .sslHandshake => .handshake
  | .handshake => .read
  | .read => .read

/-- Does the deadline run meanwhile? -/
def timed (tls : Bool) : WsOp → Bool
  | .connect => true
  | .proxyWrite => tls
  | .proxyRead => tls
  | .sslHandshake => true
  | _ => false

end WsOp

/-- The operations of a connection. -/
def opChain (tls proxied : Bool) : List WsOp :=
  [.resolve, .connect] ++ (if proxied then [.proxyWrite, .proxyRead] else []) ++
    (if tls then [.sslHandshake] else []) ++ [.handshake]

/-- The operation at a position. -/
def opAt (tls proxied : Bool) (n : Nat) : WsOp := (WsOp.next tls proxied)^[n] .resolve

namespace WsCompletion

def succeeds : WsCompletion → Bool
  | .noServerName _ => false
  | .proxyAnswered status => status / 100 == 2
  | .error _ _ => false
  | _ => true

/-- The call it is for. -/
def event : WsCompletion → Option WsEvent
  | .upgraded => some .opened
  | .message payload isBinary => some (.message payload isBinary)
  | .error .read reason => some (.closed reason)
  | _ => none

/-- The error it is reported with. -/
def failure : WsCompletion → Option Bytes
  | .noServerName text => some (ascii "sni: " ++ text)
  | .proxyAnswered status =>
    if status / 100 ≠ 2 then some (ascii "proxy CONNECT returned HTTP " ++ decimal status) else none
  | .error .read _ => none
  | .error op text => some (op.name ++ ascii ": " ++ text)
  | _ => none

end WsCompletion

namespace WsPc

/-- The operation it is about. -/
def op : WsPc → Option WsOp
  | .pending op => some op
  | .completed c => some c.op
  | .greeting => some .handshake
  | .opening => some .handshake
  | .opened => some .handshake
  | .passing _ _ => some .read
  | .handling => some .read
  | .losing _ => some .read
  | .lost _ => some .read
  | .parting _ => some .read
  | .parted => some .read
  | _ => none

def unstarted : WsPc → Bool
  | .idle => true
  | .posted => true
  | _ => false

def isPending : WsPc → Bool
  | .pending _ => true
  | _ => false

/-- Have all results been successes? -/
def accepting : WsPc → Bool
  | .idle => true
  | .posted => true
  | .pending _ => true
  | .greeting => true
  | .opening => true
  | .opened => true
  | .passing _ _ => true
  | .handling => true
  | _ => false

/-- The calls that are still to be made for the results. -/
def owed : WsPc → Option (List WsEvent)
  | .completed c => some c.event.toList
  | .greeting => some [.opened]
  | .opening => some [.opened]
  | .passing payload isBinary => some [.message payload isBinary]
  | .losing reason => some [.closed reason]
  | .lost reason => some [.closed reason]
  | .parting reason => some [.closed reason]
  | .ended => none
  | _ => some []

/-- The error that is still to be passed to `fail`. -/
def unreported : WsPc → List Bytes
  | .completed c => c.failure.toList
  | _ => []

/-- Is a handler called before `closing_` is read again? -/
def beforeCall : WsPc → Bool
  | .greeting => true
  | .opening => true
  | .passing _ _ => true
  | .parting _ => true
  | _ => false

/-- Is `closing_` read next? -/
def reads : WsPc → Bool
  | .completed _ => true
  | .opened => true
  | .handling => true
  | .lost _ => true
  | _ => false

end WsPc

namespace FailPc

/-- The error it is about to report. -/
def owed : FailPc → List Bytes
  | .failing what => [what]
  | .marking what => [what]
  | .reporting what => [what]
  | .reported => []

def beforeCall : FailPc → Bool
  | .marking _ => true
  | .reporting _ => true
  | _ => false

end FailPc

namespace WsEvent

def toFailure : WsEvent → Option Bytes
  | .failed what => some what
  | _ => none

/-- A call of another handler than the error handler. -/
def isCall : WsEvent → Bool
  | .failed _ => false
  | _ => true

end WsEvent

namespace WebSocketLoop

/-! ## What a step does -/

inductive Step : WebSocketLoop → WebSocketLoop → Prop where
  | keep {s : WebSocketLoop} : Step s s
  | connect {s : WebSocketLoop} : s.closing = false → s.pc = .idle →
      Step s { s with state := .connecting, pc := .posted }
  | start {s : WebSocketLoop} : s.pc = .posted → Step s (s.begin .resolve)
  | complete {s : WebSocketLoop} (c : WsCompletion) : s.pc = .pending c.op →
      Step s { s with pc := .completed c, completions := s.completions ++ [c] }
  | leave {s : WebSocketLoop} : s.failure = none → s.closing = true → s.pc.reads = true →
      Step s (s.goto .ended)
  | begins {s : WebSocketLoop} {c : WsCompletion} (stream deadline : Bool) :
      s.failure = none → s.closing = false → s.pc = .completed c → c.succeeds = true →
      c.event = none → c.failure = none →
      (s.deadline = c.op.timed s.tls →
        deadline = (c.op.next s.tls s.proxied).timed s.tls) →
      Step s ({ s with stream, deadline }.begin (c.op.next s.tls s.proxied))
  | fails {s : WebSocketLoop} {c : WsCompletion} (stream : Bool) (what : Bytes) :
      s.failure = none → s.closing = false → s.pc = .completed c → c.failure = some what →
      Step s ({ s with stream }.fails what)
  | upgraded {s : WebSocketLoop} : s.failure = none → s.closing = false →
      s.pc = .completed .upgraded → Step s (s.goto .greeting)
  | greet {s : WebSocketLoop} : s.failure = none → s.pc = .greeting →
      Step s { s with state := .open, pc := .opening }
  | callOpened {s : WebSocketLoop} : s.failure = none → s.pc = .opening →
      Step s ((s.call .opened).goto .opened)
  | reads {s : WebSocketLoop} : s.failure = none → s.closing = false →
      s.pc = .opened ∨ s.pc = .handling → Step s (s.begin .read)
  | message {s : WebSocketLoop} {payload : Bytes} {isBinary : Bool} : s.failure = none →
      s.closing = false → s.pc = .completed (.message payload isBinary) →
      Step s (s.goto (.passing payload isBinary))
  | callMessage {s : WebSocketLoop} {payload : Bytes} {isBinary : Bool} : s.failure = none →
      s.pc = .passing payload isBinary →
      Step s ((s.call (.message payload isBinary)).goto .handling)
  | readFails {s : WebSocketLoop} {reason : Bytes} : s.failure = none → s.closing = false →
      s.pc = .completed (.error .read reason) → Step s (s.goto (.losing reason))
  | lose {s : WebSocketLoop} {reason : Bytes} : s.failure = none → s.pc = .losing reason →
      Step s { s with state := .closed, pc := .lost reason }
  | part {s : WebSocketLoop} {reason : Bytes} : s.failure = none → s.closing = false →
      s.pc = .lost reason → Step s (s.goto (.parting reason))
  | callClosed {s : WebSocketLoop} {reason : Bytes} : s.failure = none → s.pc = .parting reason →
      Step s ((s.call (.closed reason)).goto .parted)
  | parted {s : WebSocketLoop} : s.failure = none → s.pc = .parted → Step s (s.goto .ended)
  | dropFailure {s : WebSocketLoop} {what : Bytes} : s.failure = some (.failing what) →
      s.closing = true → Step s { s with failure := none }
  | markFailure {s : WebSocketLoop} {what : Bytes} : s.failure = some (.failing what) →
      s.closing = false → Step s { s with failure := some (.marking what) }
  | storeFailure {s : WebSocketLoop} {what : Bytes} : s.failure = some (.marking what) →
      Step s { s with state := .closed, failure := some (.reporting what) }
  | callFailed {s : WebSocketLoop} {what : Bytes} : s.failure = some (.reporting what) →
      Step s { s.call (.failed what) with failure := some .reported }
  | endFailure {s : WebSocketLoop} (escaped : Bool) : s.failure = some .reported →
      Step s { s with failure := none, escaped }
  | throws {s : WebSocketLoop} : s.failure = none → s.pc.inHandler = true →
      Step s { s with pc := .ended, escaped := true }
  | writeFails {s : WebSocketLoop} (what : Bytes) : s.failure = none → s.closing = false →
      s.pc.free = true →
      Step s { s with failure := some (.failing what), writeErrors := s.writeErrors ++ [what] }
  | mark {s : WebSocketLoop} : s.shutdown = .none →
      Step s { s with closing := true, shutdown := .marked }
  | postShutdown {s : WebSocketLoop} : s.shutdown = .marked →
      Step s { s with state := .closing, shutdown := .posted }
  | shutInHandler {s : WebSocketLoop} : s.shutdown = .none →
      s.failure = some .reported ∨ s.failure = none ∧ s.pc.inHandler = true →
      Step s ({ s with closing := true }.shutdownOnIoThread)
  | shut {s : WebSocketLoop} : s.shutdown = .posted → s.failure = none → s.pc.free = true →
      Step s s.shutdownOnIoThread

theorem unlessClosing_step {s next : WebSocketLoop} (hfail : s.failure = none)
    (hreads : s.pc.reads = true) (hnext : s.closing = false → Step s next) :
    Step s (s.unlessClosing next) := by
  unfold unlessClosing
  split
  · rename_i hclosing
    exact .leave hfail hclosing hreads
  · rename_i hclosing
    exact hnext (by simpa using hclosing)

theorem proceed_step {s : WebSocketLoop} {c : WsCompletion} (hfail : s.failure = none)
    (hclosing : s.closing = false) (hpc : s.pc = .completed c) : Step s (s.proceed c) := by
  cases c with
  | resolved => exact .begins true true hfail hclosing hpc rfl rfl rfl fun _ => rfl
  | noServerName text => exact .fails true _ hfail hclosing hpc rfl
  | connected =>
    have hstep := Step.begins s.stream (s.tls && s.deadline) hfail hclosing hpc rfl rfl rfl
      fun hdeadline => by
        rw [hdeadline]
        cases s.tls <;> cases s.proxied <;> rfl
    have hproceed : s.proceed .connected = { s with
        deadline := s.tls && s.deadline }.begin (WsOp.next s.tls s.proxied .connect) := by
      simp only [proceed, startHandshake, WsOp.next]
      cases s.proxied <;> rfl
    rw [hproceed]
    exact hstep
  | proxyWritten => exact .begins s.stream s.deadline hfail hclosing hpc rfl rfl rfl id
  | proxyAnswered status =>
    simp only [proceed]
    split
    · rename_i hrefused
      exact .fails s.stream _ hfail hclosing hpc (if_pos hrefused)
    · rename_i hagreed
      have hsucceeds : (WsCompletion.proxyAnswered status).succeeds = true := by
        simpa [WsCompletion.succeeds] using hagreed
      refine .begins s.stream s.deadline hfail hclosing hpc hsucceeds rfl (if_neg hagreed) ?_
      intro hdeadline
      rw [hdeadline]
      cases s.tls <;> rfl
  | secured => exact .begins s.stream false hfail hclosing hpc rfl rfl rfl fun _ => rfl
  | upgraded => exact .upgraded hfail hclosing hpc
  | message payload isBinary => exact .message hfail hclosing hpc
  | error op text =>
    cases op with
    | read => exact .readFails hfail hclosing hpc
    | _ => exact .fails s.stream _ hfail hclosing hpc rfl

theorem chainTurn_cases {s s' : WebSocketLoop} (hfail : s.failure = none)
    (h : s.chainTurn = some s') : Step s s' := by
  unfold chainTurn at h
  split at h
  · rename_i c hpc
    cases h
    exact unlessClosing_step hfail (by rw [hpc]; rfl) fun hclosing =>
      proceed_step hfail hclosing hpc
  · rename_i hpc
    cases h
    exact .greet hfail hpc
  · rename_i hpc
    cases h
    exact .callOpened hfail hpc
  · rename_i hpc
    cases h
    exact unlessClosing_step hfail (by rw [hpc]; rfl) fun hclosing =>
      .reads hfail hclosing (.inl hpc)
  · rename_i payload isBinary hpc
    cases h
    exact .callMessage hfail hpc
  · rename_i hpc
    cases h
    exact unlessClosing_step hfail (by rw [hpc]; rfl) fun hclosing =>
      .reads hfail hclosing (.inr hpc)
  · rename_i reason hpc
    cases h
    exact .lose hfail hpc
  · rename_i reason hpc
    cases h
    exact unlessClosing_step hfail (by rw [hpc]; rfl) fun hclosing => .part hfail hclosing hpc
  · rename_i reason hpc
    cases h
    exact .callClosed hfail hpc
  · rename_i hpc
    cases h
    exact .parted hfail hpc
  · cases h

theorem failTurn_step {s : WebSocketLoop} {pc : FailPc} (hfail : s.failure = some pc) :
    Step s (s.failTurn pc) := by
  cases pc with
  | failing what =>
    simp only [failTurn]
    split
    · rename_i hclosing
      exact .dropFailure hfail hclosing
    · rename_i hclosing
      exact .markFailure hfail (by simpa using hclosing)
  | marking what => exact .storeFailure hfail
  | reporting what => exact .callFailed hfail
  | reported => exact .endFailure s.escaped hfail

/-- Nothing but a `Step` is ever done. -/
theorem step_cases {s s' : WebSocketLoop} {a : Action} (h : s.step a = some s') : Step s s' := by
  cases a with
  | connect =>
    simp only [step] at h
    split at h
    · cases h
      exact .keep
    · rename_i hclosing
      split at h
      · rename_i hpc
        cases h
        exact .connect (by simpa using hclosing) hpc
      · cases h
  | start =>
    simp only [step] at h
    split at h
    · rename_i hposted
      cases h
      exact .start hposted.1
    · cases h
  | complete c =>
    simp only [step] at h
    split at h
    · rename_i hpending
      cases h
      exact .complete c hpending.1
    · cases h
  | turn =>
    simp only [step] at h
    split at h
    · rename_i pc hfail
      cases h
      exact failTurn_step hfail
    · rename_i hfail
      exact chainTurn_cases hfail h
  | throw =>
    simp only [step] at h
    split at h
    · rename_i hfail
      cases h
      exact .endFailure true hfail
    · split at h
      · rename_i hhandler
        cases h
        exact .throws hhandler.1 hhandler.2
      · cases h
  | writeFails text =>
    simp only [step] at h
    split at h
    · rename_i hstrand
      cases h
      split
      · exact .keep
      · rename_i hclosing
        exact .writeFails _ hstrand.2.1 (by simpa using hclosing) hstrand.2.2
    · cases h
  | close =>
    simp only [step] at h
    split at h
    · rename_i hshutdown
      cases h
      exact .mark hshutdown
    · cases h
      exact .keep
  | postShutdown =>
    simp only [step] at h
    split at h
    · rename_i hshutdown
      cases h
      exact .postShutdown hshutdown
    · cases h
  | closeInHandler =>
    simp only [step] at h
    split at h
    · rename_i hhandler
      split at h
      · rename_i hshutdown
        cases h
        exact .shutInHandler hshutdown hhandler
      · cases h
      · cases h
        exact .keep
    · cases h
  | shutdown =>
    simp only [step] at h
    split at h
    · rename_i hposted
      cases h
      exact .shut hposted.1 hposted.2.1 hposted.2.2
    · cases h

/-! ## The order of the operations -/

/-- The operations so far are the first of the chain, all results but the
last are successes, and the deadline is the one of the last operation. -/
structure Chained (s : WebSocketLoop) : Prop where
  ops : s.ops = (List.range s.ops.length).map (opAt s.tls s.proxied)
  done : s.completions.map WsCompletion.op
    = (List.range s.completions.length).map (opAt s.tls s.proxied)
  count : s.ops.length = s.completions.length + (if s.pc.isPending then 1 else 0)
  last : ∀ op, s.pc.op = some op →
    ∃ n, s.ops.length = n + 1 ∧ opAt s.tls s.proxied n = op
  unstarted : s.pc.unstarted = true → s.ops = [] ∧ s.deadline = false
  good : ∀ c ∈ s.completions.dropLast, c.succeeds = true
  accepting : s.pc.accepting = true → ∀ c ∈ s.completions, c.succeeds = true
  current : ∀ c, s.pc = .completed c → ∃ before, s.completions = before ++ [c]
  deadline : ∀ op, s.pc.op = some op → s.deadline = op.timed s.tls

theorem opAt_succ (tls proxied : Bool) (n : Nat) :
    opAt tls proxied (n + 1) = (opAt tls proxied n).next tls proxied :=
  Function.iterate_succ_apply' _ _ _

theorem map_range_succ (f : Nat → WsOp) (n : Nat) :
    (List.range (n + 1)).map f = (List.range n).map f ++ [f n] := by
  rw [List.range_succ, List.map_append, List.map_singleton]

theorem init_chained (tls proxied : Bool) : Chained (init tls proxied) where
  ops := rfl
  done := rfl
  count := rfl
  last := fun _ h => by cases h
  unstarted := fun _ => ⟨rfl, rfl⟩
  good := fun _ h => by cases h
  accepting := fun _ _ h => by cases h
  current := fun _ h => by cases h
  deadline := fun _ h => by cases h

/-- What `fail` and `close` do is no matter of the chain. -/
theorem Chained.frame {s s' : WebSocketLoop} (hc : Chained s) (htls : s'.tls = s.tls)
    (hproxied : s'.proxied = s.proxied) (hpc : s'.pc = s.pc) (hops : s'.ops = s.ops)
    (hdone : s'.completions = s.completions) (hdeadline : s'.deadline = s.deadline) :
    Chained s' := by
  obtain ⟨h1, h2, h3, h4, h5, h6, h7, h8, h9⟩ := hc
  constructor <;> rw [hpc] at * <;> simp only [htls, hproxied, hops, hdone, hdeadline] <;>
    assumption

/-- The chain goes on without an operation. -/
theorem Chained.move {s s' : WebSocketLoop} (hc : Chained s) (htls : s'.tls = s.tls)
    (hproxied : s'.proxied = s.proxied) (hops : s'.ops = s.ops)
    (hdone : s'.completions = s.completions) (hdeadline : s'.deadline = s.deadline)
    (hbefore : s.pc.isPending = false) (hafter : s'.pc.isPending = false)
    (hop : s'.pc.op = none ∨ s'.pc.op = s.pc.op)
    (hunstarted : s'.pc.unstarted = true → s.pc.unstarted = true)
    (haccepting : s'.pc.accepting = true → ∀ c ∈ s.completions, c.succeeds = true)
    (hcompleted : ∀ c, s'.pc ≠ .completed c) : Chained s' := by
  have hlast : ∀ op, s'.pc.op = some op → s.pc.op = some op := by
    intro op h
    rcases hop with hnone | hsame
    · rw [hnone] at h
      cases h
    · rw [← hsame, h]
  have hcount := hc.count
  rw [hbefore] at hcount
  constructor <;> simp only [htls, hproxied, hops, hdone, hdeadline]
  · exact hc.ops
  · exact hc.done
  · rw [hafter]
    exact hcount
  · exact fun op h => hc.last op (hlast op h)
  · exact fun h => hc.unstarted (hunstarted h)
  · exact hc.good
  · exact haccepting
  · exact fun c h => absurd h (hcompleted c)
  · exact fun op h => hc.deadline op (hlast op h)

/-- The chain ends. -/
theorem Chained.ends {s s' : WebSocketLoop} (hc : Chained s) (htls : s'.tls = s.tls)
    (hproxied : s'.proxied = s.proxied) (hops : s'.ops = s.ops)
    (hdone : s'.completions = s.completions) (hdeadline : s'.deadline = s.deadline)
    (hbefore : s.pc.isPending = false) (hended : s'.pc = .ended) : Chained s' := by
  refine hc.move htls hproxied hops hdone hdeadline hbefore ?_ (.inl ?_) ?_ ?_ ?_ <;> rw [hended]
  · rfl
  · rfl
  · exact fun h => by cases h
  · exact fun h => by cases h
  · exact fun _ h => by cases h

/-- The next operation of the chain. -/
theorem Chained.begin {s : WebSocketLoop} (hc : Chained s) (stream deadline : Bool) {op : WsOp}
    (hpc : s.pc.isPending = false) (hop : op = opAt s.tls s.proxied s.ops.length)
    (hall : ∀ c ∈ s.completions, c.succeeds = true) (hdeadline : deadline = op.timed s.tls) :
    Chained ({ s with stream, deadline }.begin op) where
  ops := by
    show s.ops ++ [op] = (List.range (s.ops ++ [op]).length).map (opAt s.tls s.proxied)
    rw [List.length_append, List.length_singleton, map_range_succ, ← hc.ops, hop]
  done := hc.done
  count := by
    have hcount := hc.count
    rw [hpc] at hcount
    simpa [WebSocketLoop.begin, WsPc.isPending] using hcount
  last := by
    intro op' h
    cases h
    exact ⟨s.ops.length, by simp [WebSocketLoop.begin], hop.symm⟩
  unstarted := fun h => by cases h
  good := hc.good
  accepting := fun _ => hall
  current := fun _ h => by cases h
  deadline := by
    intro op' h
    cases h
    exact hdeadline

/-- The operation after the one the chain is at. -/
theorem Chained.next {s : WebSocketLoop} (hc : Chained s) {op : WsOp} (h : s.pc.op = some op) :
    op.next s.tls s.proxied = opAt s.tls s.proxied s.ops.length := by
  obtain ⟨n, hlength, hat⟩ := hc.last op h
  rw [hlength, opAt_succ, hat]

/-- With the last result a success, all are. -/
theorem Chained.all_succeed {s : WebSocketLoop} (hc : Chained s) {c : WsCompletion}
    (hpc : s.pc = .completed c) (hsucceeds : c.succeeds = true) :
    ∀ c ∈ s.completions, c.succeeds = true := by
  obtain ⟨before, hbefore⟩ := hc.current c hpc
  have hgood := hc.good
  rw [hbefore, List.dropLast_concat] at hgood
  intro c' hc'
  rw [hbefore, List.mem_append, List.mem_singleton] at hc'
  rcases hc' with hmem | rfl
  · exact hgood c' hmem
  · exact hsucceeds

/-- The result of the last operation comes in. -/
theorem Chained.complete {s : WebSocketLoop} (hc : Chained s) {c : WsCompletion}
    (hpc : s.pc = .pending c.op) :
    Chained { s with pc := .completed c, completions := s.completions ++ [c] } := by
  have hop : s.pc.op = some c.op := by rw [hpc]; rfl
  have hcount : s.ops.length = s.completions.length + 1 := by
    rw [hc.count, hpc]
    rfl
  have hat : opAt s.tls s.proxied s.completions.length = c.op := by
    obtain ⟨n, hlength, hat⟩ := hc.last c.op hop
    have hn : n = s.completions.length := by omega
    rw [← hn, hat]
  constructor
  · exact hc.ops
  · show (s.completions ++ [c]).map _ = (List.range (s.completions ++ [c]).length).map _
    rw [List.length_append, List.length_singleton, map_range_succ, ← hc.done, hat,
      List.map_append, List.map_singleton]
  · simpa [WsPc.isPending] using hcount
  · rintro op h
    cases h
    exact hc.last c.op hop
  · exact fun h => by cases h
  · show ∀ c' ∈ (s.completions ++ [c]).dropLast, c'.succeeds = true
    rw [List.dropLast_concat]
    exact hc.accepting (by rw [hpc]; rfl)
  · exact fun h => by cases h
  · rintro c' h
    cases h
    exact ⟨s.completions, rfl⟩
  · rintro op h
    cases h
    exact hc.deadline c.op hop

theorem WsPc.isPending_of_reads {pc : WsPc} (h : pc.reads = true) : pc.isPending = false := by
  cases pc with
  | pending op => cases h
  | _ => rfl

theorem WsPc.isPending_of_inHandler {pc : WsPc} (h : pc.inHandler = true) :
    pc.isPending = false := by
  cases pc with
  | pending op => cases h
  | _ => rfl

theorem step_chained {s s' : WebSocketLoop} (hc : Chained s) (h : Step s s') : Chained s' := by
  have hmove : ∀ {pc p : WsPc}, s.pc = pc → pc.isPending = false → p.isPending = false →
      p.op = none ∨ p.op = pc.op → (p.unstarted = true → pc.unstarted = true) →
      (p.accepting = true → ∀ c ∈ s.completions, c.succeeds = true) →
      (∀ c, p ≠ .completed c) → Chained (s.goto p) := by
    rintro pc p rfl hbefore hafter hop hunstarted haccepting hcompleted
    exact hc.move rfl rfl rfl rfl rfl hbefore hafter hop hunstarted haccepting hcompleted
  have hquiet : ∀ {pc : WsPc}, s.pc = pc → pc.accepting = true →
      ∀ c ∈ s.completions, c.succeeds = true := by
    rintro pc rfl haccepting
    exact hc.accepting haccepting
  cases h with
  | keep => exact hc
  | connect hclosing hpc =>
    exact (hmove (p := .posted) hpc rfl rfl (.inl rfl) (fun _ => rfl) (fun _ => hquiet hpc rfl)
      (fun _ h => by cases h)).frame rfl rfl rfl rfl rfl rfl
  | start hpc =>
    obtain ⟨hops, hdeadline⟩ := hc.unstarted (by rw [hpc]; rfl)
    exact hc.begin s.stream s.deadline (by rw [hpc]; rfl) (by rw [hops]; rfl) (hquiet hpc rfl)
      hdeadline
  | complete c hpc => exact hc.complete hpc
  | leave hfail hclosing hreads =>
    exact hc.ends rfl rfl rfl rfl rfl (WsPc.isPending_of_reads hreads) rfl
  | begins stream deadline hfail hclosing hpc hsucceeds _ _ hdeadline =>
    exact hc.begin stream deadline (by rw [hpc]; rfl) (hc.next (by rw [hpc]; rfl))
      (hc.all_succeed hpc hsucceeds) (hdeadline (hc.deadline _ (by rw [hpc]; rfl)))
  | fails stream what hfail hclosing hpc hfailure =>
    exact hc.ends rfl rfl rfl rfl rfl (by rw [hpc]; rfl) rfl
  | upgraded hfail hclosing hpc =>
    exact hmove hpc rfl rfl (.inr rfl) (fun h => by cases h) (fun _ => hc.all_succeed hpc rfl)
      (fun _ h => by cases h)
  | greet hfail hpc =>
    exact (hmove (p := .opening) hpc rfl rfl (.inr rfl) (fun h => by cases h)
      (fun _ => hquiet hpc rfl) (fun _ h => by cases h)).frame rfl rfl rfl rfl rfl rfl
  | callOpened hfail hpc =>
    exact (hmove (p := .opened) hpc rfl rfl (.inr rfl) (fun h => by cases h)
      (fun _ => hquiet hpc rfl) (fun _ h => by cases h)).frame rfl rfl rfl rfl rfl rfl
  | reads hfail hclosing hpc =>
    rcases hpc with hpc | hpc
    · have hop : s.pc.op = some .handshake := by rw [hpc]; rfl
      exact hc.begin s.stream s.deadline (by rw [hpc]; rfl) (hc.next hop) (hquiet hpc rfl)
        (hc.deadline .handshake hop)
    · have hop : s.pc.op = some .read := by rw [hpc]; rfl
      exact hc.begin s.stream s.deadline (by rw [hpc]; rfl) (hc.next hop) (hquiet hpc rfl)
        (hc.deadline _ hop)
  | message hfail hclosing hpc =>
    exact hmove hpc rfl rfl (.inr rfl) (fun h => by cases h) (fun _ => hc.all_succeed hpc rfl)
      (fun _ h => by cases h)
  | callMessage hfail hpc =>
    exact (hmove (p := .handling) hpc rfl rfl (.inr rfl) (fun h => by cases h)
      (fun _ => hquiet hpc rfl) (fun _ h => by cases h)).frame rfl rfl rfl rfl rfl rfl
  | readFails hfail hclosing hpc =>
    exact hmove hpc rfl rfl (.inr rfl) (fun h => by cases h) (fun h => by cases h)
      (fun _ h => by cases h)
  | @lose reason hfail hpc =>
    exact (hmove (p := .lost reason) hpc rfl rfl (.inr rfl) (fun h => by cases h)
      (fun h => by cases h) (fun _ h => by cases h)).frame rfl rfl rfl rfl rfl rfl
  | part hfail hclosing hpc =>
    exact hmove hpc rfl rfl (.inr rfl) (fun h => by cases h) (fun h => by cases h)
      (fun _ h => by cases h)
  | callClosed hfail hpc =>
    exact (hmove (p := .parted) hpc rfl rfl (.inr rfl) (fun h => by cases h)
      (fun h => by cases h) (fun _ h => by cases h)).frame rfl rfl rfl rfl rfl rfl
  | parted hfail hpc => exact hc.ends rfl rfl rfl rfl rfl (by rw [hpc]; rfl) rfl
  | throws hfail hhandler =>
    exact hc.ends rfl rfl rfl rfl rfl (WsPc.isPending_of_inHandler hhandler) rfl
  | dropFailure _ _ => exact hc.frame rfl rfl rfl rfl rfl rfl
  | markFailure _ _ => exact hc.frame rfl rfl rfl rfl rfl rfl
  | storeFailure _ => exact hc.frame rfl rfl rfl rfl rfl rfl
  | callFailed _ => exact hc.frame rfl rfl rfl rfl rfl rfl
  | endFailure _ _ => exact hc.frame rfl rfl rfl rfl rfl rfl
  | writeFails _ _ _ _ => exact hc.frame rfl rfl rfl rfl rfl rfl
  | mark _ => exact hc.frame rfl rfl rfl rfl rfl rfl
  | postShutdown _ => exact hc.frame rfl rfl rfl rfl rfl rfl
  | shutInHandler _ _ => exact hc.frame rfl rfl rfl rfl rfl rfl
  | shut _ _ _ => exact hc.frame rfl rfl rfl rfl rfl rfl

/-! ## The calls -/

/-- The calls of the open, the message and the close handler. -/
def calls (s : WebSocketLoop) : List WsEvent := s.log.filter WsEvent.isCall

/-- The errors that were reported. -/
def failures (s : WebSocketLoop) : List Bytes := s.log.filterMap WsEvent.toFailure

/-- The error `fail` will report. -/
def owedFailure (s : WebSocketLoop) : List Bytes := (s.failure.map FailPc.owed).getD []

/-- The calls are those for the results so far, but for what is owed. -/
def Called (s : WebSocketLoop) : Prop :=
  ∃ owed, s.calls ++ owed = s.completions.filterMap WsCompletion.event ∧
    ∀ l, s.pc.owed = some l → owed = l

/-- An error is reported as often as it arose. -/
def Reported (s : WebSocketLoop) : Prop :=
  ∀ what, s.failures.count what + s.owedFailure.count what + s.pc.unreported.count what
    ≤ (s.completions.filterMap WsCompletion.failure).count what + s.writeErrors.count what

/-- A call of one of the three handlers. -/
theorem call_calls (s : WebSocketLoop) {event : WsEvent} (h : event.isCall = true) :
    (s.call event).calls = s.calls ++ [event] ∧ (s.call event).failures = s.failures := by
  constructor
  · simp [calls, call, h]
  · cases event with
    | failed what => cases h
    | _ => simp [failures, call, WsEvent.toFailure]

theorem callFailed_calls (s : WebSocketLoop) (what : Bytes) :
    (s.call (.failed what)).calls = s.calls ∧
      (s.call (.failed what)).failures = s.failures ++ [what] := by
  constructor <;> simp [calls, failures, call, WsEvent.isCall, WsEvent.toFailure]

theorem Called.frame {s s' : WebSocketLoop} (hc : Called s) (hlog : s'.calls = s.calls)
    (hdone : s'.completions = s.completions)
    (howed : ∀ l, s'.pc.owed = some l → s.pc.owed = some l) : Called s' := by
  obtain ⟨owed, hcalls, hwhich⟩ := hc
  exact ⟨owed, by rw [hlog, hdone, hcalls], fun l h => hwhich l (howed l h)⟩

/-- The call that was owed. -/
theorem Called.call {s s' : WebSocketLoop} (hc : Called s) {event : WsEvent}
    (howed : s.pc.owed = some [event]) (hlog : s'.calls = s.calls ++ [event])
    (hdone : s'.completions = s.completions) (hpaid : s'.pc.owed = some []) : Called s' := by
  obtain ⟨owed, hcalls, hwhich⟩ := hc
  refine ⟨[], ?_, fun l h => by simpa [hpaid] using h⟩
  rw [List.append_nil, hlog, hdone, ← hcalls, hwhich _ howed]

theorem Called.complete {s : WebSocketLoop} (hc : Called s) {c : WsCompletion} {op : WsOp}
    (hpc : s.pc = .pending op) :
    Called { s with pc := .completed c, completions := s.completions ++ [c] } := by
  obtain ⟨owed, hcalls, hwhich⟩ := hc
  have hnone : owed = [] := hwhich [] (by rw [hpc]; rfl)
  refine ⟨c.event.toList, ?_, fun l h => by cases h; rfl⟩
  show s.calls ++ _ = (s.completions ++ [c]).filterMap _
  rw [filterMap_concat, ← hcalls, hnone, List.append_nil]

theorem step_called {s s' : WebSocketLoop} (hc : Called s) (h : Step s s') : Called s' := by
  have hgo : ∀ {pc p : WsPc}, s.pc = pc → (∀ l, p.owed = some l → pc.owed = some l) →
      ∀ l, p.owed = some l → s.pc.owed = some l := by
    rintro pc p rfl h
    exact h
  cases h with
  | keep => exact hc
  | connect hclosing hpc => exact hc.frame rfl rfl (hgo hpc fun _ h => h)
  | start hpc => exact hc.frame rfl rfl (hgo hpc fun _ h => h)
  | complete c hpc => exact hc.complete hpc
  | leave hfail hclosing hreads => exact hc.frame rfl rfl fun _ h => by cases h
  | begins stream deadline hfail hclosing hpc _ hevent _ _ =>
    refine hc.frame rfl rfl (hgo hpc fun l h => ?_)
    rw [WsPc.owed, hevent]
    exact h
  | fails stream what hfail hclosing hpc hfailure => exact hc.frame rfl rfl fun _ h => by cases h
  | upgraded hfail hclosing hpc => exact hc.frame rfl rfl (hgo hpc fun _ h => h)
  | greet hfail hpc => exact hc.frame rfl rfl (hgo hpc fun _ h => h)
  | callOpened hfail hpc => exact hc.call (by rw [hpc]; rfl) (s.call_calls rfl).1 rfl rfl
  | reads hfail hclosing hpc =>
    rcases hpc with hpc | hpc
    · exact hc.frame rfl rfl (hgo hpc fun _ h => h)
    · exact hc.frame rfl rfl (hgo hpc fun _ h => h)
  | message hfail hclosing hpc => exact hc.frame rfl rfl (hgo hpc fun _ h => h)
  | callMessage hfail hpc => exact hc.call (by rw [hpc]; rfl) (s.call_calls rfl).1 rfl rfl
  | readFails hfail hclosing hpc => exact hc.frame rfl rfl (hgo hpc fun _ h => h)
  | lose hfail hpc => exact hc.frame rfl rfl (hgo hpc fun _ h => h)
  | part hfail hclosing hpc => exact hc.frame rfl rfl (hgo hpc fun _ h => h)
  | callClosed hfail hpc => exact hc.call (by rw [hpc]; rfl) (s.call_calls rfl).1 rfl rfl
  | parted hfail hpc => exact hc.frame rfl rfl fun _ h => by cases h
  | dropFailure _ _ => exact hc.frame rfl rfl fun _ h => h
  | markFailure _ _ => exact hc.frame rfl rfl fun _ h => h
  | storeFailure _ => exact hc.frame rfl rfl fun _ h => h
  | @callFailed what _ => exact hc.frame (s.callFailed_calls what).1 rfl fun _ h => h
  | endFailure _ _ => exact hc.frame rfl rfl fun _ h => h
  | throws hfail hhandler => exact hc.frame rfl rfl fun _ h => by cases h
  | writeFails _ _ _ _ => exact hc.frame rfl rfl fun _ h => h
  | mark _ => exact hc.frame rfl rfl fun _ h => h
  | postShutdown _ => exact hc.frame rfl rfl fun _ h => h
  | shutInHandler _ _ => exact hc.frame rfl rfl fun _ h => h
  | shut _ _ _ => exact hc.frame rfl rfl fun _ h => h

/-- Nothing is reported, and no error is forgotten but by the chain. -/
theorem Reported.frame {s s' : WebSocketLoop} (hr : Reported s) (hlog : s'.failures = s.failures)
    (hfailure : s'.owedFailure = s.owedFailure) (hdone : s'.completions = s.completions)
    (hwrites : s'.writeErrors = s.writeErrors)
    (hpc : s'.pc.unreported = [] ∨ s'.pc.unreported = s.pc.unreported) : Reported s' := by
  intro what
  have hbefore := hr what
  rw [hlog, hfailure, hdone, hwrites]
  rcases hpc with hpc | hpc
  · rw [hpc, List.count_nil]
    omega
  · rw [hpc]
    exact hbefore

theorem step_reported {s s' : WebSocketLoop} (hr : Reported s) (h : Step s s') : Reported s' := by
  cases h with
  | keep => exact hr
  | complete c hpc =>
    intro what
    have hbefore := hr what
    rw [hpc] at hbefore
    simp only [failures, owedFailure, WsPc.unreported, filterMap_concat, List.count_append,
      List.count_nil] at hbefore ⊢
    omega
  | fails stream text hfail hclosing hpc hfailure =>
    intro what
    have hbefore := hr what
    rw [hpc] at hbefore
    simp only [failures, owedFailure, WsPc.unreported, WebSocketLoop.fails, hfail, hfailure,
      FailPc.owed, Option.map_none, Option.map_some, Option.getD_none, Option.getD_some,
      Option.toList_some, List.count_nil] at hbefore ⊢
    omega
  | dropFailure hfail hclosing =>
    intro what
    have hbefore := hr what
    simp only [failures, owedFailure, hfail, FailPc.owed, Option.map_none, Option.map_some,
      Option.getD_none, Option.getD_some, List.count_nil] at hbefore ⊢
    omega
  | @callFailed text hfail =>
    intro what
    have hbefore := hr what
    have hnow : ({ s.call (.failed text) with failure := some .reported } : WebSocketLoop).failures
        = s.failures ++ [text] := (s.callFailed_calls text).2
    rw [hnow]
    simp only [owedFailure, hfail, FailPc.owed, Option.map_some, Option.getD_some,
      List.count_nil, List.count_append] at hbefore ⊢
    exact hbefore
  | writeFails text hfail hclosing hfree =>
    intro what
    have hbefore := hr what
    simp only [failures, owedFailure, hfail, FailPc.owed, Option.map_none, Option.map_some,
      Option.getD_none, Option.getD_some, List.count_nil, List.count_append] at hbefore ⊢
    omega
  | markFailure hfail hclosing =>
    exact hr.frame rfl (by simp [owedFailure, hfail, FailPc.owed]) rfl rfl (.inr rfl)
  | storeFailure hfail =>
    exact hr.frame rfl (by simp [owedFailure, hfail, FailPc.owed]) rfl rfl (.inr rfl)
  | endFailure _ hfail =>
    exact hr.frame rfl (by simp [owedFailure, hfail, FailPc.owed]) rfl rfl (.inr rfl)
  | callOpened hfail hpc => exact hr.frame (s.call_calls rfl).2 rfl rfl rfl (.inl rfl)
  | callMessage hfail hpc => exact hr.frame (s.call_calls rfl).2 rfl rfl rfl (.inl rfl)
  | callClosed hfail hpc => exact hr.frame (s.call_calls rfl).2 rfl rfl rfl (.inl rfl)
  | mark _ => exact hr.frame rfl rfl rfl rfl (.inr rfl)
  | postShutdown _ => exact hr.frame rfl rfl rfl rfl (.inr rfl)
  | shutInHandler _ _ => exact hr.frame rfl rfl rfl rfl (.inr rfl)
  | shut _ _ _ => exact hr.frame rfl rfl rfl rfl (.inr rfl)
  | _ => exact hr.frame rfl rfl rfl rfl (.inl rfl)

/-! ## The results -/

theorem succeeds_failure {c : WsCompletion} (h : c.succeeds = true) : c.failure = none := by
  cases c with
  | proxyAnswered status =>
    exact if_neg (by simpa [WsCompletion.succeeds] using h)
  | noServerName text => cases h
  | error op text => cases h
  | _ => rfl

section Chain

variable (tls proxied : Bool)

theorem opAt_chain : (List.range (opChain tls proxied).length).map (opAt tls proxied)
    = opChain tls proxied := by
  cases tls <;> cases proxied <;> rfl

theorem opAt_read (k : Nat) :
    opAt tls proxied ((opChain tls proxied).length + k) = .read := by
  induction k with
  | zero => cases tls <;> cases proxied <;> rfl
  | succ k ih => rw [← Nat.add_assoc, opAt_succ, ih, WsOp.next]

theorem opAt_handshake : opAt tls proxied ((opChain tls proxied).length - 1) = .handshake := by
  cases tls <;> cases proxied <;> rfl

/-- Before the handshake no operation is one that has a call. -/
theorem opAt_before {k : Nat} (h : k + 1 < (opChain tls proxied).length) :
    opAt tls proxied k ≠ .handshake ∧ opAt tls proxied k ≠ .read := by
  have hall : ∀ k < (opChain tls proxied).length - 1,
      opAt tls proxied k ≠ .handshake ∧ opAt tls proxied k ≠ .read := by
    cases tls <;> cases proxied <;> decide
  exact hall k (by omega)

theorem range_initial {n m : Nat} (h : n ≤ m) : List.range n <+: List.range m :=
  List.prefix_iff_eq_take.mpr (by rw [List.length_range, List.take_range, Nat.min_eq_left h])

theorem ops_initial (n : Nat) : (List.range n).map (opAt tls proxied)
    <+: opChain tls proxied ++ List.replicate n .read := by
  have hall : (List.range ((opChain tls proxied).length + n)).map (opAt tls proxied)
      = opChain tls proxied ++ List.replicate n .read := by
    rw [List.range_add, List.map_append, opAt_chain tls proxied, List.map_map]
    congr 1
    rw [List.eq_replicate_iff]
    refine ⟨by simp, fun op hop => ?_⟩
    obtain ⟨k, -, rfl⟩ := List.mem_map.mp hop
    exact opAt_read tls proxied k
  rw [← hall]
  exact (range_initial (Nat.le_add_left n _)).map _

variable {tls proxied}

/-- Successes: the calls are those of the messages, after the one of the
open handler. -/
theorem events_of_successes {l : List WsCompletion}
    (hops : l.map WsCompletion.op = (List.range l.length).map (opAt tls proxied))
    (hgood : ∀ c ∈ l, c.succeeds = true) :
    (l.length < (opChain tls proxied).length ∧ l.filterMap WsCompletion.event = []) ∨
      (opChain tls proxied).length ≤ l.length ∧ ∃ writes : List Write,
        l.filterMap WsCompletion.event
          = .opened :: writes.map fun w => .message w.1 w.2 := by
  induction l using List.reverseRecOn with
  | nil => exact .inl ⟨by simp [opChain], rfl⟩
  | append_singleton l c ih =>
    rw [List.map_append, List.map_singleton, List.length_append, List.length_singleton,
      map_range_succ] at hops
    obtain ⟨hops, hop⟩ := List.append_inj hops (by simp)
    have hsucceeds := hgood c (by simp)
    rw [List.singleton_inj] at hop
    rw [filterMap_concat, List.length_append, List.length_singleton]
    rcases ih hops fun c' hc' => hgood c' (List.mem_append_left _ hc') with
      ⟨hlength, hnone⟩ | ⟨hlength, writes, hwrites⟩
    · by_cases hlast : l.length + 1 = (opChain tls proxied).length
      · -- the WebSocket handshake
        have hhandshake : c.op = .handshake := by
          rw [hop, ← opAt_handshake tls proxied, ← hlast, Nat.add_sub_cancel]
        refine .inr ⟨by omega, [], ?_⟩
        cases c with
        | upgraded => rw [hnone]; rfl
        | error op text => cases hsucceeds
        | _ => cases hhandshake
      · obtain ⟨hnot, hread⟩ := opAt_before tls proxied (k := l.length) (by omega)
        refine .inl ⟨by omega, ?_⟩
        rw [← hop] at hnot hread
        cases c with
        | upgraded => exact absurd rfl hnot
        | message payload isBinary => exact absurd rfl hread
        | error op text => cases hsucceeds
        | _ => rw [hnone]; rfl
    · have hread : c.op = .read := by
        rw [hop, ← opAt_read tls proxied
          (l.length - (opChain tls proxied).length), Nat.add_sub_cancel' hlength]
      refine .inr ⟨by omega, ?_⟩
      cases c with
      | message payload isBinary =>
        refine ⟨writes ++ [(payload, isBinary)], ?_⟩
        rw [hwrites, List.map_append, List.cons_append]
        rfl
      | error op text => cases hsucceeds
      | _ => cases hread

end Chain

/-- What the results so far call for: the open handler, the messages and
the end of the read; or nothing, if the connection has failed. -/
theorem Chained.results {s : WebSocketLoop} (hc : Chained s) :
    (s.completions.filterMap WsCompletion.failure).length ≤ 1 ∧
      (s.completions.filterMap WsCompletion.event = [] ∨
        s.completions.filterMap WsCompletion.failure = [] ∧
        ∃ (writes : List Write) (ending : List WsEvent),
          s.completions.filterMap WsCompletion.event
            = .opened :: writes.map (fun w => .message w.1 w.2) ++ ending ∧
          ending.length ≤ 1 ∧ ∀ e ∈ ending, ∃ reason, e = .closed reason) := by
  rcases List.eq_nil_or_concat s.completions with hnil | ⟨before, c, hlast⟩
  · rw [hnil]
    exact ⟨Nat.zero_le 1, .inl rfl⟩
  rw [List.concat_eq_append] at hlast
  have hgood := hc.good
  have hdone := hc.done
  rw [hlast] at hgood hdone ⊢
  rw [List.dropLast_concat] at hgood
  rw [List.map_append, List.map_singleton, List.length_append, List.length_singleton,
    map_range_succ] at hdone
  obtain ⟨hbefore, hop⟩ := List.append_inj hdone (by simp)
  rw [List.singleton_inj] at hop
  have hnone : before.filterMap WsCompletion.failure = [] :=
    List.filterMap_eq_nil_iff.mpr fun c' hc' => succeeds_failure (hgood c' hc')
  rw [filterMap_concat, filterMap_concat, hnone, List.nil_append]
  refine ⟨by cases c.failure <;> simp, ?_⟩
  rcases events_of_successes hbefore hgood with ⟨hlength, hcalls⟩ | ⟨hlength, writes, hcalls⟩
  · -- at most the handshake has come back
    have hread : c.op ≠ .read := by
      rw [hop]
      by_cases hhandshake : before.length + 1 = (opChain s.tls s.proxied).length
      · rw [show before.length = (opChain s.tls s.proxied).length - 1 by omega,
          opAt_handshake]
        decide
      · exact (opAt_before s.tls s.proxied (by omega)).2
    rw [hcalls, List.nil_append]
    cases c with
    | upgraded => exact .inr ⟨rfl, [], [], rfl, Nat.zero_le 1, by simp⟩
    | message payload isBinary => exact absurd rfl hread
    | error op text =>
      cases op with
      | read => exact absurd rfl hread
      | _ => exact .inl rfl
    | _ => exact .inl rfl
  · -- a read
    have hread : c.op = .read := by
      rw [hop, ← opAt_read s.tls s.proxied (before.length - (opChain s.tls s.proxied).length),
        Nat.add_sub_cancel' hlength]
    rw [hcalls]
    cases c with
    | message payload isBinary =>
      refine .inr ⟨rfl, writes ++ [(payload, isBinary)], [], ?_, Nat.zero_le 1, by simp⟩
      rw [List.map_append, List.append_nil, List.cons_append]
      rfl
    | error op text =>
      cases hread
      exact .inr ⟨rfl, writes, [.closed text], rfl, Nat.le_refl 1, by simp⟩
    | _ => cases hread

/-! ## The close -/

def callsOwed (s : WebSocketLoop) : Nat :=
  (if s.pc.beforeCall then 1 else 0) + if s.failure.any FailPc.beforeCall then 1 else 0

/-- One handler runs on the strand at a time, one call can slip past a
`close`, and the shutdown comes between two handlers or inside one of the
application. -/
structure Shuts (s : WebSocketLoop) : Prop where
  strand : s.failure ≠ none → s.pc.free = true
  closing : s.closing = true ↔ s.shutdown ≠ .none
  late : s.late + (if s.closing then s.callsOwed else 0) ≤ 1
  early : s.closing = false → s.late = 0
  done : s.shutdown = .done → s.state = .closed ∧ (s.pc.free = true ∨ s.pc.inHandler = true) ∧
    (s.failure = none ∨ s.failure = some .reported)

theorem init_shuts (tls proxied : Bool) : Shuts (init tls proxied) where
  strand := fun h => absurd rfl h
  closing := by simp [init]
  late := Nat.zero_le 1
  early := fun _ => rfl
  done := fun h => by cases h

theorem free_calls {pc : WsPc} (h : pc.free = true ∨ pc.inHandler = true) :
    pc.beforeCall = false := by
  cases pc <;> simp_all [WsPc.free, WsPc.inHandler, WsPc.beforeCall]

theorem Shuts.shutdown_none {s : WebSocketLoop} (hs : Shuts s) (hclosing : s.closing = false) :
    s.shutdown = .none := by
  by_contra hshutdown
  rw [hs.closing.mpr hshutdown] at hclosing
  cases hclosing

theorem Shuts.clear_of_none {s : WebSocketLoop} (hs : Shuts s) (hshutdown : s.shutdown = .none) :
    s.closing = false := by
  by_contra hclosing
  exact hs.closing.mp (by simpa using hclosing) hshutdown

/-- While `closing_` is clear there is nothing to keep but the strand. -/
theorem Shuts.clear {s s' : WebSocketLoop} (hs : Shuts s) (hbefore : s.closing = false)
    (hclosing : s'.closing = s.closing) (hshutdown : s'.shutdown = s.shutdown)
    (hlate : s'.late = s.late) (hstrand : s'.failure ≠ none → s'.pc.free = true) : Shuts s' := by
  have hnone := hs.shutdown_none hbefore
  have hzero := hs.early hbefore
  refine ⟨hstrand, ?_, ?_, fun _ => by rw [hlate, hzero], fun h => ?_⟩
  · simp [hclosing, hshutdown, hbefore, hnone]
  · simp [hclosing, hbefore, hlate, hzero]
  · rw [hshutdown, hnone] at h
    cases h

/-- A handler goes on, whatever `closing_` is. -/
theorem Shuts.go {s s' : WebSocketLoop} (hs : Shuts s) (hclosing : s'.closing = s.closing)
    (hshutdown : s'.shutdown = s.shutdown)
    (hlate : s'.late = s.late ∧ s'.callsOwed ≤ s.callsOwed ∨
      s'.late = (if s.closing then s.late + 1 else s.late) ∧ s'.callsOwed + 1 ≤ s.callsOwed)
    (hstrand : s'.failure ≠ none → s'.pc.free = true)
    (hdone : s.shutdown = .done → s'.state = .closed ∧
      (s'.pc.free = true ∨ s'.pc.inHandler = true) ∧
      (s'.failure = none ∨ s'.failure = some .reported)) : Shuts s' := by
  have hbound := hs.late
  have hearly := hs.early
  refine ⟨hstrand, ?_, ?_, ?_, fun h => hdone (hshutdown ▸ h)⟩
  · rw [hclosing, hshutdown]
    exact hs.closing
  · rw [hclosing]
    cases hset : s.closing <;> simp only [hset, Bool.false_eq_true, if_true, if_false] at * <;>
      omega
  · rw [hclosing]
    intro hset
    rcases hlate with ⟨hsame, -⟩ | ⟨hcall, -⟩
    · rw [hsame, hearly hset]
    · rw [hcall, hset, hearly hset]
      rfl

theorem callsOwed_of_strand {s : WebSocketLoop} (hs : Shuts s) : s.callsOwed ≤ 1 := by
  unfold callsOwed
  cases hfail : s.failure with
  | none => cases s.pc.beforeCall <;> simp
  | some pc =>
    rw [free_calls (.inl (hs.strand (by simp [hfail])))]
    simp only [Bool.false_eq_true, if_false]
    split <;> simp

/-- A handler that is neither between two calls nor in one keeps the
shutdown away. -/
theorem Shuts.not_done {s : WebSocketLoop} (hs : Shuts s)
    (hpc : s.pc.free = false ∧ s.pc.inHandler = false ∨
      ∃ pc, s.failure = some pc ∧ pc ≠ .reported) : s.shutdown ≠ .done := by
  intro hdone
  obtain ⟨-, hwhere, hfail⟩ := hs.done hdone
  rcases hpc with ⟨hfree, hhandler⟩ | ⟨pc, hpc, hreported⟩
  · simp [hfree, hhandler] at hwhere
  · rw [hpc] at hfail
    simp [hreported] at hfail

theorem step_shuts {s s' : WebSocketLoop} (hs : Shuts s) (h : Step s s') : Shuts s' := by
  have hcalls : ∀ {pc p : WsPc}, s.pc = pc → s.failure = none →
      (pc.beforeCall = false → p.beforeCall = false) →
      (s.goto p).callsOwed ≤ s.callsOwed := by
    rintro pc p rfl hfail hbefore
    unfold callsOwed
    cases hcall : s.pc.beforeCall with
    | true =>
      simp only [goto, hfail, if_true]
      split <;> simp
    | false => simp [goto, hfail, hbefore hcall]
  cases h with
  | keep => exact hs
  | connect hclosing hpc => exact hs.clear hclosing rfl rfl rfl fun _ => rfl
  | start hpc =>
    refine hs.go rfl rfl (.inl ⟨rfl, ?_⟩) (fun _ => rfl) fun hdone => ?_
    · unfold callsOwed
      rw [hpc]
      exact Nat.le_refl _
    · obtain ⟨hstate, -, hfail⟩ := hs.done hdone
      exact ⟨hstate, .inl rfl, hfail⟩
  | complete c hpc =>
    refine hs.go rfl rfl (.inl ⟨rfl, ?_⟩) (fun _ => rfl) fun hdone => ?_
    · unfold callsOwed
      rw [hpc]
      exact Nat.le_refl _
    · obtain ⟨hstate, -, hfail⟩ := hs.done hdone
      exact ⟨hstate, .inl rfl, hfail⟩
  | leave hfail hclosing hreads =>
    refine hs.go rfl rfl (.inl ⟨rfl, hcalls rfl hfail fun _ => rfl⟩) (fun _ => rfl) fun hdone => ?_
    exact ⟨(hs.done hdone).1, .inl rfl, .inl hfail⟩
  | begins stream deadline hfail hclosing _ _ _ _ _ =>
    exact hs.clear hclosing rfl rfl rfl fun h => absurd hfail h
  | fails stream what hfail hclosing _ _ => exact hs.clear hclosing rfl rfl rfl fun _ => rfl
  | upgraded hfail hclosing hpc => exact hs.clear hclosing rfl rfl rfl fun h => absurd hfail h
  | reads hfail hclosing hpc => exact hs.clear hclosing rfl rfl rfl fun h => absurd hfail h
  | message hfail hclosing hpc => exact hs.clear hclosing rfl rfl rfl fun h => absurd hfail h
  | readFails hfail hclosing hpc => exact hs.clear hclosing rfl rfl rfl fun h => absurd hfail h
  | part hfail hclosing hpc => exact hs.clear hclosing rfl rfl rfl fun h => absurd hfail h
  | greet hfail hpc =>
    refine hs.go rfl rfl (.inl ⟨rfl, hcalls hpc hfail fun h => by cases h⟩)
      (fun h => absurd hfail h) fun hdone => ?_
    exact absurd hdone (hs.not_done (.inl (by rw [hpc]; exact ⟨rfl, rfl⟩)))
  | lose hfail hpc =>
    refine hs.go rfl rfl (.inl ⟨rfl, hcalls hpc hfail fun _ => rfl⟩)
      (fun h => absurd hfail h) fun hdone => ?_
    exact absurd hdone (hs.not_done (.inl (by rw [hpc]; exact ⟨rfl, rfl⟩)))
  | callOpened hfail hpc =>
    refine hs.go rfl rfl (.inr ⟨rfl, ?_⟩) (fun h => absurd hfail h) fun hdone => ?_
    · simp [callsOwed, hpc, hfail, goto, call, WsPc.beforeCall]
    · exact absurd hdone (hs.not_done (.inl (by rw [hpc]; exact ⟨rfl, rfl⟩)))
  | callMessage hfail hpc =>
    refine hs.go rfl rfl (.inr ⟨rfl, ?_⟩) (fun h => absurd hfail h) fun hdone => ?_
    · simp [callsOwed, hpc, hfail, goto, call, WsPc.beforeCall]
    · exact absurd hdone (hs.not_done (.inl (by rw [hpc]; exact ⟨rfl, rfl⟩)))
  | callClosed hfail hpc =>
    refine hs.go rfl rfl (.inr ⟨rfl, ?_⟩) (fun h => absurd hfail h) fun hdone => ?_
    · simp [callsOwed, hpc, hfail, goto, call, WsPc.beforeCall]
    · exact absurd hdone (hs.not_done (.inl (by rw [hpc]; exact ⟨rfl, rfl⟩)))
  | parted hfail hpc =>
    refine hs.go rfl rfl (.inl ⟨rfl, hcalls rfl hfail fun _ => rfl⟩) (fun _ => rfl) fun hdone => ?_
    exact ⟨(hs.done hdone).1, .inl rfl, .inl hfail⟩
  | throws hfail hhandler =>
    refine hs.go rfl rfl (.inl ⟨rfl, hcalls rfl hfail fun _ => rfl⟩) (fun _ => rfl) fun hdone => ?_
    exact ⟨(hs.done hdone).1, .inl rfl, .inl hfail⟩
  | dropFailure hfail hclosing =>
    refine hs.go rfl rfl (.inl ⟨rfl, ?_⟩) (fun h => absurd rfl h) fun hdone => ?_
    · simp [callsOwed]
    · exact absurd hdone (hs.not_done (.inr ⟨_, hfail, by simp⟩))
  | markFailure hfail hclosing =>
    exact hs.clear hclosing rfl rfl rfl fun _ => hs.strand (by simp [hfail])
  | storeFailure hfail =>
    refine hs.go rfl rfl (.inl ⟨rfl, ?_⟩) (fun _ => hs.strand (by simp [hfail])) fun hdone => ?_
    · simp [callsOwed, hfail, FailPc.beforeCall]
    · exact absurd hdone (hs.not_done (.inr ⟨_, hfail, by simp⟩))
  | callFailed hfail =>
    refine hs.go rfl rfl (.inr ⟨rfl, ?_⟩) (fun _ => hs.strand (by simp [hfail])) fun hdone => ?_
    · simp [callsOwed, hfail, call, FailPc.beforeCall]
    · exact absurd hdone (hs.not_done (.inr ⟨_, hfail, by simp⟩))
  | endFailure escaped hfail =>
    refine hs.go rfl rfl (.inl ⟨rfl, ?_⟩) (fun h => absurd rfl h) fun hdone => ?_
    · simp [callsOwed]
    · obtain ⟨hstate, hpc, -⟩ := hs.done hdone
      exact ⟨hstate, hpc, .inl rfl⟩
  | writeFails what hfail hclosing hfree => exact hs.clear hclosing rfl rfl rfl fun _ => hfree
  | mark hshutdown =>
    have hzero := hs.early (hs.clear_of_none hshutdown)
    have howed := callsOwed_of_strand hs
    refine ⟨hs.strand, by simp, ?_, (fun h => by cases h), (fun h => by cases h)⟩
    show s.late + s.callsOwed ≤ 1
    omega
  | postShutdown hshutdown =>
    refine ⟨hs.strand, ?_, hs.late, hs.early, fun h => by cases h⟩
    simp [hs.closing, hshutdown]
  | shutInHandler hshutdown hhandler =>
    have hzero := hs.early (hs.clear_of_none hshutdown)
    have hpc : s.pc.free = true ∨ s.pc.inHandler = true := by
      rcases hhandler with hfail | ⟨-, hpc⟩
      · exact .inl (hs.strand (by simp [hfail]))
      · exact .inr hpc
    have hfail : s.failure = none ∨ s.failure = some .reported :=
      hhandler.symm.imp (·.1) fun h => h
    refine ⟨hs.strand, by simp [shutdownOnIoThread], ?_, (fun h => by cases h),
      fun _ => ⟨rfl, hpc, hfail⟩⟩
    have howed : s.callsOwed = 0 := by
      rcases hfail with hfail | hfail <;> simp [callsOwed, free_calls hpc, hfail, FailPc.beforeCall]
    show s.late + s.callsOwed ≤ 1
    omega
  | shut hshutdown hfail hfree =>
    refine ⟨hs.strand, ?_, hs.late, hs.early, fun _ => ⟨rfl, .inl hfree, .inl hfail⟩⟩
    simp [shutdownOnIoThread, hs.closing, hshutdown]

/-! ## Runs -/

structure Inv (s : WebSocketLoop) : Prop where
  chained : Chained s
  called : Called s
  reported : Reported s
  shuts : Shuts s

theorem init_inv (tls proxied : Bool) : Inv (init tls proxied) where
  chained := init_chained tls proxied
  called := ⟨[], rfl, fun _ h => by cases h; rfl⟩
  reported := fun _ => Nat.le_refl _
  shuts := init_shuts tls proxied

theorem step_inv {s s' : WebSocketLoop} {a : Action} (hi : Inv s) (h : s.step a = some s') :
    Inv s' :=
  have hstep := step_cases h
  ⟨step_chained hi.chained hstep, step_called hi.called hstep, step_reported hi.reported hstep,
    step_shuts hi.shuts hstep⟩

variable {tls proxied : Bool} {as : List Action} {s : WebSocketLoop}

theorem run_inv (hrun : run step (init tls proxied) as = some s) : Inv s :=
  run_preserves Inv (fun _ _ _ hi h => step_inv hi h) (init_inv tls proxied) hrun

theorem accepting_of_isPending {pc : WsPc} (h : pc.isPending = true) : pc.accepting = true := by
  cases pc with
  | pending op => rfl
  | _ => cases h

/-- Behind an operation all results are successes. -/
theorem Chained.succeeded {s : WebSocketLoop} (hc : Chained s) :
    ∀ c ∈ s.completions.take (s.ops.length - 1), c.succeeds = true := by
  intro c hmem
  have hcount := hc.count
  cases hpending : s.pc.isPending with
  | true => exact hc.accepting (accepting_of_isPending hpending) c (List.mem_of_mem_take hmem)
  | false =>
    rw [hpending] at hcount
    have hsame : s.ops.length = s.completions.length := hcount
    refine hc.good c ?_
    rw [List.dropLast_eq_take, ← hsame]
    exact hmem

theorem run_config (hrun : run step (init tls proxied) as = some s) :
    s.tls = tls ∧ s.proxied = proxied :=
  run_preserves (fun s => s.tls = tls ∧ s.proxied = proxied)
    (fun s a s' hs h => by cases step_cases h <;> exact hs) ⟨rfl, rfl⟩ hrun

/-- **One operation after the other.** In every run the operations that
were started are the first of the chain, with reads at its end; each but
the last has come back with success, so the handshake with the server is
never begun before the proxy has answered with 2xx; and an operation under
way has the deadline that its place in the chain gives it. -/
theorem run_operations (hrun : run step (init tls proxied) as = some s) :
    s.ops <+: opChain tls proxied ++ List.replicate s.ops.length .read ∧
      s.completions.map WsCompletion.op <+: s.ops ∧
      s.ops.length ≤ s.completions.length + 1 ∧
      (∀ c ∈ s.completions.take (s.ops.length - 1), c.succeeds = true) ∧
      ∀ op, s.pc = .pending op → s.ops.getLast? = some op ∧ s.deadline = op.timed tls := by
  have hc := (run_inv hrun).chained
  obtain ⟨rfl, rfl⟩ := run_config hrun
  have hcount := hc.count
  have hlength : s.completions.length ≤ s.ops.length ∧
      s.ops.length ≤ s.completions.length + 1 := by
    split at hcount <;> omega
  refine ⟨?_, ?_, hlength.2, fun c hmem => ?_, fun op hpc => ?_⟩
  · conv_lhs => rw [hc.ops]
    exact ops_initial s.tls s.proxied s.ops.length
  · rw [hc.done, hc.ops]
    exact (range_initial hlength.1).map _
  · exact hc.succeeded c hmem
  · have hop : s.pc.op = some op := by rw [hpc]; rfl
    obtain ⟨n, hops, hat⟩ := hc.last op hop
    refine ⟨?_, hc.deadline op hop⟩
    rw [hc.ops, hops, map_range_succ, hat, List.getLast?_concat]

/-- A TLS connection through a proxy, up to its TLS handshake. -/
theorem run_operations_tunnel :
    let as : List Action :=
      [.connect, .start, .complete .resolved, .turn, .complete .connected, .turn,
        .complete .proxyWritten, .turn, .complete (.proxyAnswered 200), .turn]
    ∃ s, run step (init true true) as = some s ∧ s.pc = .pending .sslHandshake ∧
      s.ops <+: opChain true true ++ List.replicate s.ops.length .read ∧
      s.completions.map WsCompletion.op <+: s.ops ∧
      s.ops.length ≤ s.completions.length + 1 ∧
      (∀ c ∈ s.completions.take (s.ops.length - 1), c.succeeds = true) ∧
      ∀ op, s.pc = .pending op → s.ops.getLast? = some op ∧ s.deadline = op.timed true := by
  intro as
  obtain ⟨s, hrun, hpc⟩ : ∃ s, run step (init true true) as = some s ∧
      s.pc = .pending .sslHandshake := ⟨_, rfl, rfl⟩
  exact ⟨s, hrun, hpc, run_operations hrun⟩

/-- **The handlers.** In every run the open, the message and the close
handler are called for the results in their order, each once: the open
handler first, then the messages, then the end of the read; and while an
operation is under way no call is missing. An error is reported no more
often than it arose, and the connection fails once at most, before any of
those calls. -/
theorem run_handlers (hrun : run step (init tls proxied) as = some s) :
    s.calls <+: s.completions.filterMap WsCompletion.event ∧
      (∀ op, s.pc = .pending op → s.calls = s.completions.filterMap WsCompletion.event) ∧
      (∃ (writes : List Write) (ending : List WsEvent),
        s.calls <+: .opened :: writes.map (fun w => .message w.1 w.2) ++ ending ∧
        ending.length ≤ 1 ∧ ∀ e ∈ ending, ∃ reason, e = .closed reason) ∧
      (∀ what, s.failures.count what
        ≤ (s.completions.filterMap WsCompletion.failure).count what + s.writeErrors.count what) ∧
      (s.completions.filterMap WsCompletion.failure).length ≤ 1 ∧
      (s.calls = [] ∨ s.completions.filterMap WsCompletion.failure = []) := by
  have hi := run_inv hrun
  obtain ⟨owed, hcalls, howed⟩ := hi.called
  have hinitial : s.calls <+: s.completions.filterMap WsCompletion.event := ⟨owed, hcalls⟩
  obtain ⟨hlength, hresults⟩ := hi.chained.results
  refine ⟨hinitial, fun op hpc => ?_, ?_, fun what => ?_, hlength, ?_⟩
  · have hnone : owed = [] := howed [] (by rw [hpc]; rfl)
    rw [← hcalls, hnone, List.append_nil]
  · rcases hresults with hnone | ⟨-, writes, ending, hevents, hending⟩
    · rw [hnone, List.prefix_nil] at hinitial
      exact ⟨[], [], by rw [hinitial]; exact List.nil_prefix, Nat.zero_le 1, by simp⟩
    · exact ⟨writes, ending, hevents ▸ hinitial, hending⟩
  · have hreported := hi.reported what
    omega
  · rcases hresults with hnone | ⟨hnone, -⟩
    · rw [hnone, List.prefix_nil] at hinitial
      exact .inl hinitial
    · exact .inr hnone

/-- A message on a plain connection, and a write that fails. -/
theorem run_handlers_message :
    let as : List Action :=
      [.connect, .start, .complete .resolved, .turn, .complete .connected, .turn,
        .complete .upgraded, .turn, .turn, .turn, .turn, .complete (.message [7] true), .turn,
        .turn, .turn, .writeFails [], .turn, .turn, .turn]
    ∃ s, run step (init false false) as = some s ∧ s.log.length = 3 ∧
      s.calls <+: s.completions.filterMap WsCompletion.event ∧
      (∀ op, s.pc = .pending op → s.calls = s.completions.filterMap WsCompletion.event) ∧
      (∃ (writes : List Write) (ending : List WsEvent),
        s.calls <+: .opened :: writes.map (fun w => .message w.1 w.2) ++ ending ∧
        ending.length ≤ 1 ∧ ∀ e ∈ ending, ∃ reason, e = .closed reason) ∧
      (∀ what, s.failures.count what
        ≤ (s.completions.filterMap WsCompletion.failure).count what + s.writeErrors.count what) ∧
      (s.completions.filterMap WsCompletion.failure).length ≤ 1 ∧
      (s.calls = [] ∨ s.completions.filterMap WsCompletion.failure = []) := by
  intro as
  obtain ⟨s, hrun, hlog⟩ : ∃ s, run step (init false false) as = some s ∧ s.log.length = 3 :=
    ⟨_, rfl, rfl⟩
  exact ⟨s, hrun, hlog, run_handlers hrun⟩

/-- After the shutdown a step calls nothing. -/
theorem step_done {s s' : WebSocketLoop} (hi : Inv s) (hdone : s.shutdown = .done)
    (h : Step s s') : s'.shutdown = .done ∧ s'.log = s.log ∧ s'.state = .closed ∧
      (s'.ops = s.ops ∨ s.ops = [] ∧ s'.ops = [.resolve]) := by
  have hs := hi.shuts
  have hstate := (hs.done hdone).1
  have hset : s.closing = true := hs.closing.mpr (by rw [hdone]; simp)
  have hclear : s.closing = false → False := fun hclosing => by simp [hset] at hclosing
  have hpc : ∀ {pc : WsPc}, s.pc = pc → pc.free = false ∧ pc.inHandler = false → False := by
    rintro pc rfl hbusy
    exact hs.not_done (.inl hbusy) hdone
  have hfail : ∀ {pc : FailPc}, s.failure = some pc → pc ≠ .reported → False :=
    fun hfail hreported => hs.not_done (.inr ⟨_, hfail, hreported⟩) hdone
  cases h with
  | keep => exact ⟨hdone, rfl, hstate, .inl rfl⟩
  | start hposted =>
    obtain ⟨hops, -⟩ := hi.chained.unstarted (by rw [hposted]; rfl)
    refine ⟨hdone, rfl, hstate, .inr ⟨hops, ?_⟩⟩
    rw [WebSocketLoop.begin, hops]
    rfl
  | complete c _ => exact ⟨hdone, rfl, hstate, .inl rfl⟩
  | leave _ _ _ => exact ⟨hdone, rfl, hstate, .inl rfl⟩
  | parted _ _ => exact ⟨hdone, rfl, hstate, .inl rfl⟩
  | endFailure _ _ => exact ⟨hdone, rfl, hstate, .inl rfl⟩
  | throws _ _ => exact ⟨hdone, rfl, hstate, .inl rfl⟩
  | connect hclosing _ => exact (hclear hclosing).elim
  | begins _ _ _ hclosing => exact (hclear hclosing).elim
  | fails _ _ _ hclosing => exact (hclear hclosing).elim
  | upgraded _ hclosing => exact (hclear hclosing).elim
  | reads _ hclosing => exact (hclear hclosing).elim
  | message _ hclosing => exact (hclear hclosing).elim
  | readFails _ hclosing => exact (hclear hclosing).elim
  | part _ hclosing => exact (hclear hclosing).elim
  | markFailure _ hclosing => exact (hclear hclosing).elim
  | writeFails _ _ hclosing => exact (hclear hclosing).elim
  | greet _ hat => exact (hpc hat ⟨rfl, rfl⟩).elim
  | callOpened _ hat => exact (hpc hat ⟨rfl, rfl⟩).elim
  | callMessage _ hat => exact (hpc hat ⟨rfl, rfl⟩).elim
  | lose _ hat => exact (hpc hat ⟨rfl, rfl⟩).elim
  | callClosed _ hat => exact (hpc hat ⟨rfl, rfl⟩).elim
  | dropFailure hat _ => exact (hfail hat (by simp)).elim
  | storeFailure hat => exact (hfail hat (by simp)).elim
  | callFailed hat => exact (hfail hat (by simp)).elim
  | mark hshutdown => simp [hdone] at hshutdown
  | postShutdown hshutdown => simp [hdone] at hshutdown
  | shutInHandler hshutdown _ => simp [hdone] at hshutdown
  | shut hshutdown _ _ => simp [hdone] at hshutdown

theorem run_done {s t : WebSocketLoop} {bs : List Action} (hi : Inv s)
    (hdone : s.shutdown = .done) (hrun : run step s bs = some t) :
    t.log = s.log ∧ t.state = .closed ∧ (t.ops = s.ops ∨ s.ops = [] ∧ t.ops = [.resolve]) := by
  have hstart : Inv s ∧ s.shutdown = .done ∧ s.log = s.log ∧ s.state = .closed ∧
      (s.ops = s.ops ∨ s.ops = [] ∧ s.ops = [.resolve]) :=
    ⟨hi, hdone, rfl, (hi.shuts.done hdone).1, .inl rfl⟩
  have hend := run_preserves (fun m : WebSocketLoop => Inv m ∧ m.shutdown = .done ∧
    m.log = s.log ∧ m.state = .closed ∧ (m.ops = s.ops ∨ s.ops = [] ∧ m.ops = [.resolve]))
    (fun m a m' hm h => by
      obtain ⟨him, hmdone, hlog, -, hops⟩ := hm
      obtain ⟨hdone', hlog', hstate', hops'⟩ := step_done him hmdone (step_cases h)
      refine ⟨step_inv him h, hdone', hlog'.trans hlog, hstate', ?_⟩
      rcases hops' with hsame | ⟨hnone, hresolve⟩
      · rw [hsame]
        exact hops
      · refine .inr ⟨?_, hresolve⟩
        rcases hops with hops | ⟨-, hops⟩
        · rw [← hops, hnone]
        · rw [hnone] at hops
          cases hops)
    hstart hrun
  exact hend.2.2

/-- **The close.** In every run at most one call is made with `closing_`
set. Once the shutdown has run, the state is closed and stays so, nothing is
called any more, and no operation is started but the resolution that was
posted before. -/
theorem run_shutdown (hrun : run step (init tls proxied) as = some s) :
    s.late ≤ 1 ∧ (s.shutdown = .done → s.state = .closed ∧
      ∀ bs t, run step s bs = some t → t.log = s.log ∧ t.state = .closed ∧
        (t.ops = s.ops ∨ s.ops = [] ∧ t.ops = [.resolve])) := by
  have hi := run_inv hrun
  refine ⟨Nat.le_trans (Nat.le_add_right _ _) hi.shuts.late, fun hdone => ?_⟩
  exact ⟨(hi.shuts.done hdone).1, fun bs t h => run_done hi hdone h⟩

/-- `close` comes right before the open handler. -/
theorem run_shutdown_late :
    let as : List Action :=
      [.connect, .start, .complete .resolved, .turn, .complete .connected, .turn,
        .complete .upgraded, .turn, .turn, .close, .postShutdown, .turn, .turn, .shutdown]
    ∃ s, run step (init false false) as = some s ∧ s.late = 1 ∧ s.state = .closed ∧
      ∀ bs t, run step s bs = some t → t.log = s.log ∧ t.state = .closed ∧
        (t.ops = s.ops ∨ s.ops = [] ∧ t.ops = [.resolve]) := by
  intro as
  obtain ⟨s, hrun, hlate, hdone⟩ : ∃ s, run step (init false false) as = some s ∧ s.late = 1 ∧
      s.shutdown = .done := ⟨_, rfl, rfl, rfl⟩
  exact ⟨s, hrun, hlate, (run_shutdown hrun).2 hdone⟩

end WebSocketLoop

end Sioxx
