/-
Sioxx.EngineIO.PollLoopTheorems — what the reading loop of
`http_polling_transport` asks for and hands on.

`Step` says once what a step of the loop can do; every law is a case
analysis over it.

  * `run_delivers` — the message handler gets the packets of the answered
    bodies, each once and in order, after one call of the open handler.
  * `run_requests` — one GET request at a time, each with the session id
    that the bodies before it left.
-/
import Sioxx.EngineIO.PollLoop
import Sioxx.EngineIO.PollingTheorems

namespace Sioxx

open Lib

namespace LoopPc

/-- The packets of the body that are still to be read. -/
def rest : LoopPc → Option (List Bytes)
  | .idle => some []
  | .started => some []
  | .requesting _ => some []
  | .answered _ _ => some []
  | .opening _ => some []
  | .opened _ => some []
  | .reading rest => some rest
  | .passing _ _ rest => some rest
  | .handling rest => some rest
  | _ => none

/-- The calls of the message handler that are still to come for the body. -/
def upcoming : LoopPc → Option (List Write)
  | .passing payload isBinary rest => some ((payload, isBinary) :: rest.filterMap packetCall)
  | pc => pc.rest.map (·.filterMap packetCall)

/-- Has a request been made whose body has not been delivered? -/
def asked : LoopPc → Option Nat
  | .idle => some 0
  | .started => some 0
  | .requesting _ => some 1
  | .answered _ _ => some 1
  | .opening _ => some 1
  | .opened _ => some 1
  | .reading _ => some 0
  | .passing _ _ _ => some 0
  | .handling _ => some 0
  | _ => none

/-- Before the first body is delivered? -/
def first : LoopPc → Option Bool
  | .idle => some true
  | .started => some true
  | .requesting handshake => some handshake
  | .answered handshake _ => some handshake
  | .opening _ => some true
  | .opened _ => some true
  | .reading _ => some false
  | .passing _ _ _ => some false
  | .handling _ => some false
  | _ => none

/-- Has the open handler been called? -/
def hasOpened : LoopPc → Option Bool
  | .opened _ => some true
  | pc => pc.first.map (!·)

/-- The calls of the close handler the loop itself will make. -/
def owes : LoopPc → Nat
  | .reporting _ => 1
  | .reported _ => 1
  | _ => 0

theorem admitsClose_of_offStrand {pc : LoopPc} (h : pc.offStrand = true) :
    pc.admitsClose = true := by
  cases pc with
  | opening body => cases h
  | reading rest => cases h
  | passing payload isBinary rest => cases h
  | failing message => cases h
  | reporting message => cases h
  | _ => rfl

end LoopPc

/-- What `deliver` makes of the session id, packet by packet. -/
def notePackets (T : JsonText) (t : PollingTransport) (packets : List Bytes) : PollingTransport :=
  packets.foldl (fun t packet => (t.noteHandshake T packet).toOption.getD t) t

def transportAfter (T : JsonText) (bodies : List Bytes) : PollingTransport :=
  notePackets T {} (bodies.flatMap pollingSplitPayload)

/-- The calls of the message handler that a body causes. -/
def bodyCalls (body : Bytes) : List Write := (pollingSplitPayload body).filterMap packetCall

theorem notePackets_cons {T : JsonText} {t t' : PollingTransport} {packet : Bytes}
    (rest : List Bytes) (h : t.noteHandshake T packet = .ok t') :
    notePackets T t (packet :: rest) = notePackets T t' rest := by
  rw [notePackets, List.foldl_cons, h]
  rfl

/-- `deliver` does this with a body, when nothing is thrown and `closing_`
stays clear. -/
theorem deliverTo_bodyCalls (T : JsonText) (t : PollingTransport) (body : Bytes)
    (hnote : ∀ t' : PollingTransport, ∀ packet ∈ pollingSplitPayload body,
      ∃ t'', t'.noteHandshake T packet = .ok t'') :
    PollingTransport.deliverTo T notClosing recordCall t [] body
      = (notePackets T t (pollingSplitPayload body), bodyCalls body, none) := by
  have hloop : ∀ packets (n : Nat) (t : PollingTransport) (calls : List Write),
      (∀ t' : PollingTransport, ∀ packet ∈ packets, ∃ t'', t'.noteHandshake T packet = .ok t'') →
      PollingTransport.deliverToFrom T notClosing recordCall n packets t calls
        = (notePackets T t packets, calls ++ packets.filterMap packetCall, none) := by
    intro packets
    induction packets with
    | nil =>
      intro n t calls _
      simp [PollingTransport.deliverToFrom, notePackets]
    | cons packet rest ih =>
      intro n t calls hnote
      obtain ⟨t', ht'⟩ := hnote t packet List.mem_cons_self
      have hrest := fun calls => ih (n + 1) t' calls fun t p hp =>
        hnote t p (List.mem_cons_of_mem _ hp)
      have hcall : PollingTransport.callHandler recordCall n packet calls
          = (calls ++ (packetCall packet).toList, none) := by
        unfold PollingTransport.callHandler packetCall
        split
        · cases pollingDecodeBinary packet <;> simp [recordCall]
        · rfl
      have hopen : notClosing n = false := rfl
      rw [PollingTransport.deliverToFrom, hopen, ht', notePackets_cons rest ht']
      simp only [hcall, hrest]
      rw [List.filterMap_cons]
      cases packetCall packet <;> simp
  simpa [PollingTransport.deliverTo, bodyCalls] using hloop _ 0 t [] hnote

namespace PollEvent

def toRequest : PollEvent → Option Bytes
  | .get target => some target
  | _ => none

def toMessage : PollEvent → Option Write
  | .message payload isBinary => some (payload, isBinary)
  | _ => none

/-- A call of the open handler, or of the message handler. -/
def toCall : PollEvent → Option (Option Write)
  | .opened => some none
  | .message payload isBinary => some (some (payload, isBinary))
  | _ => none

end PollEvent

namespace PollLoop

variable {T : JsonText} {what : JsonError → Bytes}

/-! ## What a step does -/

inductive Step (T : JsonText) : PollLoop → PollLoop → Prop where
  | keep {s : PollLoop} (state : TransportState) (shutdownOnce : Bool) :
      Step T s { s with state, shutdownOnce }
  | connect {s : PollLoop} : s.pc = .idle →
      Step T s { s with state := .connecting, pc := .started }
  | start {s : PollLoop} : s.pc = .started → Step T s (s.request true s.target)
  | answer {s : PollLoop} {handshake : Bool} (reply : PollReply) :
      s.pc = .requesting handshake → Step T s (s.goto (.answered handshake reply))
  | leave {s : PollLoop} : s.pc.owes = 0 → s.closing = true → Step T s (s.goto .ended)
  | escape {s : PollLoop} : s.pc.owes = 0 → s.mode = .callerOwned →
      Step T s { s with pc := .ended, escaped := true }
  | fails {s : PollLoop} (message : Bytes) : s.pc.owes = 0 →
      s.closing = false ∨ (∃ reply, s.pc = .answered true reply) →
      Step T s (s.goto (.failing message))
  | opens {s : PollLoop} {reply : PollReply} (body : Bytes) : s.pc = .answered true reply →
      (s.mode = .callerOwned → s.closing = false) →
      Step T s { s with state := .open, pc := .opening body }
  | callOpened {s : PollLoop} {body : Bytes} : s.pc = .opening body →
      Step T s (s.call .opened (.opened body))
  | deliver {s : PollLoop} {body : Bytes} : s.closing = false →
      s.pc = .opened body ∨ (∃ reply, s.pc = .answered false reply) → Step T s (s.deliver body)
  | poll {s : PollLoop} : s.closing = false → s.pc = .reading [] →
      Step T s (s.request false (pollTarget s.target s.transport.sid))
  | skip {s : PollLoop} {packet : Bytes} {rest : List Bytes} {transport : PollingTransport} :
      s.closing = false → s.pc = .reading (packet :: rest) →
      s.transport.noteHandshake T packet = .ok transport → packetCall packet = none →
      Step T s { s with transport, pc := .reading rest }
  | pass {s : PollLoop} {packet payload : Bytes} {isBinary : Bool} {rest : List Bytes}
      {transport : PollingTransport} :
      s.closing = false → s.pc = .reading (packet :: rest) →
      s.transport.noteHandshake T packet = .ok transport →
      packetCall packet = some (payload, isBinary) →
      Step T s { s with transport, pc := .passing payload isBinary rest }
  | message {s : PollLoop} {payload : Bytes} {isBinary : Bool} {rest : List Bytes} :
      s.pc = .passing payload isBinary rest →
      Step T s (s.call (.message payload isBinary) (.handling rest))
  | returns {s : PollLoop} {rest : List Bytes} : s.pc = .handling rest →
      Step T s (s.goto (.reading rest))
  | claimed {s : PollLoop} {message : Bytes} : s.pc = .failing message → s.closing = false →
      Step T s { s with closing := true, state := .closed, pc := .reporting message }
  | report {s : PollLoop} {message : Bytes} : s.pc = .reporting message →
      Step T s { s with pc := .reported message, log := s.log ++ [.failed message] }
  | reported {s : PollLoop} {message : Bytes} : s.pc = .reported message →
      Step T s { s with pc := .ended, log := s.log ++ [.closed message] }
  | claim {s : PollLoop} (shutdownOnce : Bool) (failed : Option Bytes) (reason : Bytes) :
      s.closing = false → (s.mode = .callerOwned → s.pc.admitsClose = true) →
      Step T s ({ s with shutdownOnce }.claim
        ((failed.map PollEvent.failed).toList ++ [PollEvent.closed reason]))
  | notify {s : PollLoop} {event : PollEvent} {pending : List PollEvent} :
      s.pending = event :: pending → Step T s { s with pending, log := s.log ++ [event] }
  -- the error handler has thrown: in the loop, in a failed write on the strand, and in a
  -- failed write of the writing thread
  | abandons {s : PollLoop} {message : Bytes} : s.pc = .reported message →
      Step T s s.abandon
  | claimThrows {s : PollLoop} (message : Bytes) : s.closing = false → s.mode = .callerOwned →
      s.pc.admitsClose = true →
      Step T s { s.claim [.failed message] with interrupted := true, escaped := true }
  | notifyThrows {s : PollLoop} {message : Bytes} {pending : List PollEvent} :
      s.pending = .failed message :: pending →
      Step T s { s with pending := [], interrupted := true, log := s.log ++ [.failed message] }

theorem unlessClosing_step {s next : PollLoop} (howes : s.pc.owes = 0)
    (hnext : s.closing = false → Step T s next) : Step T s (s.unlessClosing next) := by
  unfold unlessClosing
  split
  · rename_i hclosing
    exact .leave howes hclosing
  · rename_i hclosing
    exact hnext (by simpa using hclosing)

theorem raise_step {s : PollLoop} (howes : s.pc.owes = 0) (text : Bytes) :
    Step T s (s.raise text) := by
  unfold raise
  split
  · exact unlessClosing_step howes fun hclosing => .fails _ howes (.inl hclosing)
  · rename_i hmode
    exact .escape howes hmode

theorem answeredStep_step {s : PollLoop} {handshake : Bool} {reply : PollReply}
    (hpc : s.pc = .answered handshake reply) : Step T s (s.answeredStep handshake reply) := by
  have howes : s.pc.owes = 0 := by rw [hpc]; rfl
  have hrespond : ∀ status body, (s.mode = .callerOwned → s.closing = false) →
      s.closing = false ∨ handshake = true → Step T s (s.respond handshake status body) := by
    intro status body hstrand hclosing
    unfold respond
    split
    · refine .fails _ howes (hclosing.imp id fun hfirst => ⟨reply, ?_⟩)
      rw [hpc, hfirst]
    · split
      · rename_i hfirst
        exact .opens body (by rw [hpc, hfirst]) hstrand
      · rename_i hfirst
        have hlater : handshake = false := by simpa using hfirst
        refine .deliver (by simpa [hlater] using hclosing) (.inr ⟨reply, ?_⟩)
        rw [hpc, hlater]
  unfold answeredStep
  split
  · exact raise_step howes _
  · exact unlessClosing_step howes fun hclosing => .fails _ howes (.inl hclosing)
  · rename_i status body hmode
    split
    · rename_i hfirst
      subst hfirst
      exact hrespond status body (by simp [hmode]) (.inr rfl)
    · rename_i hfirst
      have hlater : handshake = false := by simpa using hfirst
      subst hlater
      exact unlessClosing_step howes fun hclosing =>
        hrespond status body (fun _ => hclosing) (.inl hclosing)
  · rename_i status body hmode
    exact unlessClosing_step howes fun hclosing =>
      hrespond status body (fun _ => hclosing) (.inl hclosing)

theorem readPacket_step {s : PollLoop} {packet : Bytes} {rest : List Bytes}
    (hclosing : s.closing = false) (hpc : s.pc = .reading (packet :: rest)) :
    Step T s (s.readPacket T what packet rest) := by
  unfold readPacket
  split
  · exact raise_step (by rw [hpc]; rfl) _
  · rename_i transport hnote
    dsimp only
    split
    · rename_i hcall
      exact .skip hclosing hpc hnote hcall
    · rename_i payload isBinary hcall
      exact .pass hclosing hpc hnote hcall

theorem turn_cases {s s' : PollLoop} (h : s.turnStep T what = some s') : Step T s s' := by
  unfold turnStep at h
  split at h
  · rename_i handshake reply hpc
    cases h
    exact answeredStep_step hpc
  · rename_i body hpc
    cases h
    exact .callOpened hpc
  · rename_i body hpc
    cases h
    exact unlessClosing_step (by rw [hpc]; rfl) fun hclosing => .deliver hclosing (.inl hpc)
  · rename_i hpc
    cases h
    exact unlessClosing_step (by rw [hpc]; rfl) fun hclosing => .poll hclosing hpc
  · rename_i packet rest hpc
    cases h
    exact unlessClosing_step (by rw [hpc]; rfl) fun hclosing => readPacket_step hclosing hpc
  · rename_i payload isBinary rest hpc
    cases h
    exact .message hpc
  · rename_i rest hpc
    cases h
    exact .returns hpc
  · rename_i message hpc
    cases h
    exact unlessClosing_step (by rw [hpc]; rfl) fun hclosing => .claimed hpc hclosing
  · rename_i message hpc
    cases h
    exact .report hpc
  · rename_i message hpc
    cases h
    exact .reported hpc
  · cases h

/-- Nothing but a `Step` is ever done. -/
theorem step_cases {s s' : PollLoop} {a : Action} (h : s.step T what a = some s') :
    Step T s s' := by
  cases a with
  | connect =>
    simp only [step] at h
    split at h
    · cases h
      exact .keep s.state s.shutdownOnce
    · split at h
      · rename_i hpc
        cases h
        exact .connect hpc
      · cases h
  | start =>
    simp only [step] at h
    split at h
    · rename_i hpc
      cases h
      exact .start hpc
    · cases h
  | answer reply =>
    simp only [step] at h
    split at h
    · rename_i handshake hpc
      cases h
      exact .answer reply hpc
    · cases h
  | turn => exact turn_cases h
  | throw text =>
    simp only [step] at h
    split at h
    · rename_i body hpc
      cases h
      exact raise_step (by rw [hpc]; rfl) text
    · rename_i rest hpc
      cases h
      exact raise_step (by rw [hpc]; rfl) text
    · rename_i message hpc
      cases h
      exact .abandons hpc
    · cases h
  | close =>
    simp only [step] at h
    split at h
    · cases h
    · rename_i hstrand
      split at h
      · cases h
        exact .keep s.state s.shutdownOnce
      · split at h
        · cases h
          exact .keep .closed true
        · rename_i hclosing
          cases h
          refine .claim true none _ (by simpa using hclosing) fun hmode => ?_
          simpa [hmode] using hstrand
  | fail message =>
    simp only [step] at h
    split at h
    · cases h
    · rename_i hstrand
      split at h
      · cases h
        exact .keep s.state s.shutdownOnce
      · rename_i hclosing
        cases h
        refine .claim s.shutdownOnce (some message) _ (by simpa using hclosing) fun hmode => ?_
        exact LoopPc.admitsClose_of_offStrand (by simpa [hmode] using hstrand)
  | failThrowing message =>
    simp only [step] at h
    split at h
    · cases h
    · rename_i hnot
      obtain ⟨hmode, hoff, hclosing⟩ : s.mode ≠ .managed ∧ s.pc.offStrand = true ∧
          s.closing = false := by simpa using hnot
      cases h
      refine .claimThrows message hclosing ?_ (LoopPc.admitsClose_of_offStrand hoff)
      cases hcase : s.mode with
      | managed => exact absurd hcase hmode
      | callerOwned => rfl
  | notify =>
    simp only [step] at h
    split at h
    · cases h
    · rename_i event pending hpending
      cases h
      exact .notify hpending
  | notifyThrowing =>
    simp only [step] at h
    split at h
    · rename_i message pending hpending
      cases h
      exact .notifyThrows hpending
    · cases h

/-! ## What is handed on -/

def messages (s : PollLoop) : List Write := s.log.filterMap PollEvent.toMessage

def calls (s : PollLoop) : List (Option Write) := s.log.filterMap PollEvent.toCall

theorem silent {α : Type} {f : PollEvent → Option α} {event : PollEvent} (h : f event = none) :
    ∀ e ∈ [event], f e = none := by
  intro e he
  rw [List.mem_singleton.mp he]
  exact h

theorem messages_eq_filterMap (s : PollLoop) : s.messages = s.calls.filterMap id := by
  rw [messages, calls, List.filterMap_filterMap]
  congr 1
  funext event
  cases event <;> rfl

/-- Requests and notices are no calls. -/
theorem calls_of_log {s s' : PollLoop} {events : List PollEvent} (hlog : s'.log = s.log ++ events)
    (hevents : ∀ e ∈ events, e.toCall = none) :
    s'.messages = s.messages ∧ s'.calls = s.calls := by
  have hcalls : s'.calls = s.calls := by
    rw [calls, hlog, List.filterMap_append, List.filterMap_eq_nil_iff.mpr hevents, List.append_nil]
    rfl
  exact ⟨by rw [messages_eq_filterMap, hcalls, messages_eq_filterMap], hcalls⟩

theorem call_calls (s : PollLoop) (event : PollEvent) {c : Option Write}
    (h : event.toCall = some c) (pc : LoopPc) :
    (s.call event pc).calls = s.calls ++ [c] ∧
      (s.call event pc).messages = s.messages ++ c.toList := by
  have hcalls : (s.call event pc).calls = s.calls ++ [c] := by
    show (s.log ++ [event]).filterMap _ = _
    rw [filterMap_concat, h]
    rfl
  refine ⟨hcalls, ?_⟩
  rw [messages_eq_filterMap, hcalls, filterMap_concat, messages_eq_filterMap]
  rfl

/-- Only notices are pending, no calls and no requests. -/
def Notices (s : PollLoop) : Prop := ∀ e ∈ s.pending, e.toCall = none ∧ e.toRequest = none

theorem claim_notices (failed : Option Bytes) (reason : Bytes) :
    ∀ e ∈ (failed.map PollEvent.failed).toList ++ [PollEvent.closed reason],
      e.toCall = none ∧ e.toRequest = none := by
  cases failed <;> simp [PollEvent.toCall, PollEvent.toRequest]

theorem claim_log {s : PollLoop} {events : List PollEvent} :
    ∃ now later, (s.claim events).log = s.log ++ now ∧
      (s.claim events).pending = s.pending ++ later ∧ now ++ later = events := by
  unfold claim
  cases s.mode with
  | managed => exact ⟨[], events, by simp, rfl, rfl⟩
  | callerOwned => exact ⟨events, [], rfl, by simp, by simp⟩

/-- On the strand the handlers run at once. -/
theorem claim_strand {s : PollLoop} (hmode : s.mode = .callerOwned) (events : List PollEvent) :
    (s.claim events).log = s.log ++ events := by
  rw [claim, hmode]

/-- The rest of the loop is as it was. -/
theorem claim_frame (s : PollLoop) (events : List PollEvent) :
    (s.claim events).closing = true ∧ (s.claim events).pc = s.pc ∧
      (s.claim events).late = s.late ∧ (s.claim events).mode = s.mode ∧
      (s.claim events).escaped = s.escaped ∧ (s.claim events).transport = s.transport ∧
      (s.claim events).bodies = s.bodies ∧ (s.claim events).target = s.target ∧
      (s.claim events).interrupted = s.interrupted := by
  cases hmode : s.mode <;> simp [claim, hmode]

theorem step_notices {s s' : PollLoop} (hn : Notices s) (hstep : Step T s s') : Notices s' := by
  cases hstep with
  | claim shutdownOnce failed reason _ _ =>
    obtain ⟨now, later, -, hpending, hevents⟩ :=
      @claim_log { s with shutdownOnce } ((failed.map .failed).toList ++ [.closed reason])
    intro e he
    rw [hpending] at he
    rcases List.mem_append.mp he with he | he
    · exact hn e he
    · exact claim_notices failed reason e (hevents ▸ List.mem_append_right _ he)
  | notify hpending =>
    intro e he
    exact hn e (hpending ▸ List.mem_cons_of_mem _ he)
  | notifyThrows _ =>
    intro e he
    cases he
  | claimThrows message hclosing hmode _ =>
    intro e he
    refine hn e ?_
    simpa [claim, hmode] using he
  | _ => exact hn

/-- The message handler has been called for the bodies up to where the loop
is, after the open handler. -/
structure Delivers (s : PollLoop) : Prop where
  messages : ∃ dropped, s.messages ++ dropped = s.bodies.flatMap bodyCalls ∧
    ∀ upcoming, s.pc.upcoming = some upcoming → dropped = upcoming
  calls : ∃ hasOpened : Bool, s.calls = (if hasOpened then none :: s.messages.map some else []) ∧
    ∀ b, s.pc.hasOpened = some b → hasOpened = b

/-- The loop goes on without a call, or gives up. -/
theorem Delivers.of_same {s s' : PollLoop} (hd : Delivers s)
    (hsame : s'.messages = s.messages ∧ s'.calls = s.calls) (hbodies : s'.bodies = s.bodies)
    (hpc : s'.pc.upcoming = none ∧ s'.pc.hasOpened = none ∨
      s'.pc.upcoming = s.pc.upcoming ∧ s'.pc.hasOpened = s.pc.hasOpened) : Delivers s' := by
  obtain ⟨⟨dropped, hall, hupcoming⟩, ⟨hasOpened, hcalls, hphase⟩⟩ := hd
  constructor
  · refine ⟨dropped, by rw [hsame.1, hbodies, hall], fun upcoming h => ?_⟩
    rcases hpc with ⟨hnone, -⟩ | ⟨heq, -⟩
    · rw [hnone] at h
      cases h
    · exact hupcoming upcoming (heq ▸ h)
  · refine ⟨hasOpened, by rw [hsame.2, hsame.1, hcalls], fun b h => ?_⟩
    rcases hpc with ⟨-, hnone⟩ | ⟨-, heq⟩
    · rw [hnone] at h
      cases h
    · exact hphase b (heq ▸ h)

theorem step_delivers {s s' : PollLoop} (hn : Notices s) (hd : Delivers s)
    (hstep : Step T s s') : Delivers s' := by
  have hunchanged : ∀ {s'' : PollLoop}, s''.log = s.log →
      s''.messages = s.messages ∧ s''.calls = s.calls := by
    intro s'' hlog
    simp only [messages, calls, hlog, and_self]
  cases hstep with
  | keep state shutdownOnce => exact hd.of_same (hunchanged rfl) rfl (.inr ⟨rfl, rfl⟩)
  | connect hpc => exact hd.of_same (hunchanged rfl) rfl (.inr (by rw [hpc]; exact ⟨rfl, rfl⟩))
  | start hpc =>
    exact hd.of_same (calls_of_log rfl (silent rfl)) rfl (.inr (by rw [hpc]; exact ⟨rfl, rfl⟩))
  | answer reply hpc =>
    exact hd.of_same (hunchanged rfl) rfl (.inr (by rw [hpc]; exact ⟨rfl, rfl⟩))
  | leave _ _ => exact hd.of_same (hunchanged rfl) rfl (.inl ⟨rfl, rfl⟩)
  | escape _ _ => exact hd.of_same (hunchanged rfl) rfl (.inl ⟨rfl, rfl⟩)
  | fails message _ _ => exact hd.of_same (hunchanged rfl) rfl (.inl ⟨rfl, rfl⟩)
  | opens body hpc _ =>
    exact hd.of_same (hunchanged rfl) rfl (.inr (by rw [hpc]; exact ⟨rfl, rfl⟩))
  | @callOpened body hpc =>
    obtain ⟨⟨dropped, hall, hupcoming⟩, ⟨hasOpened, hcalls, hphase⟩⟩ := hd
    rw [hpc] at hupcoming hphase
    obtain ⟨hcall, hmessages⟩ := s.call_calls .opened rfl (.opened body)
    have hbefore : hasOpened = false := hphase false rfl
    have hnone : s.calls = [] := by rw [hcalls, hbefore]; rfl
    have hnone' : s.messages = [] := by rw [messages_eq_filterMap, hnone]; rfl
    refine ⟨⟨dropped, ?_, hupcoming⟩, ⟨true, ?_, fun b h => ?_⟩⟩
    · rw [hmessages, Option.toList_none, List.append_nil]
      exact hall
    · rw [hcall, hmessages, hnone, hnone']
      rfl
    · cases h
      rfl
  | @deliver body hclosing hpc =>
    obtain ⟨⟨dropped, hall, hupcoming⟩, ⟨hasOpened, hcalls, hphase⟩⟩ := hd
    have hbefore : s.pc.upcoming = some [] ∧ s.pc.hasOpened = some true := by
      rcases hpc with hpc | ⟨reply, hpc⟩ <;> rw [hpc] <;> exact ⟨rfl, rfl⟩
    have hdone : dropped = [] := hupcoming [] hbefore.1
    refine ⟨⟨bodyCalls body, ?_, fun upcoming h => ?_⟩, ⟨hasOpened, hcalls, fun b h => ?_⟩⟩
    · show s.messages ++ _ = (s.bodies ++ [body]).flatMap bodyCalls
      rw [List.flatMap_append, ← hall, hdone, List.append_nil]
      simp
    · cases h
      rfl
    · cases h
      exact hphase true hbefore.2
  | poll hclosing hpc =>
    exact hd.of_same (calls_of_log rfl (silent rfl)) rfl (.inr (by rw [hpc]; exact ⟨rfl, rfl⟩))
  | skip hclosing hpc hnote hcall =>
    refine hd.of_same (hunchanged rfl) rfl (.inr ?_)
    rw [hpc]
    simp [LoopPc.upcoming, LoopPc.rest, hcall, LoopPc.hasOpened, LoopPc.first]
  | pass hclosing hpc hnote hcall =>
    refine hd.of_same (hunchanged rfl) rfl (.inr ?_)
    rw [hpc]
    simp [LoopPc.upcoming, LoopPc.rest, hcall, LoopPc.hasOpened, LoopPc.first]
  | @message payload isBinary rest hpc =>
    obtain ⟨⟨dropped, hall, hupcoming⟩, ⟨hasOpened, hcalls, hphase⟩⟩ := hd
    rw [hpc] at hupcoming hphase
    obtain ⟨hcall, hmessages⟩ :=
      s.call_calls (.message payload isBinary) rfl (.handling rest)
    have hnext : dropped = (payload, isBinary) :: rest.filterMap packetCall := hupcoming _ rfl
    have hopened : hasOpened = true := hphase true rfl
    refine ⟨⟨rest.filterMap packetCall, ?_, fun upcoming h => ?_⟩,
      ⟨true, ?_, fun b h => hopened ▸ hphase b h⟩⟩
    · rw [hmessages, List.append_assoc]
      rw [hnext] at hall
      exact hall
    · cases h
      rfl
    · rw [hcall, hmessages, hcalls, hopened]
      simp
  | returns hpc =>
    exact hd.of_same (hunchanged rfl) rfl (.inr (by rw [hpc]; exact ⟨rfl, rfl⟩))
  | claimed hpc _ => exact hd.of_same (hunchanged rfl) rfl (.inl ⟨rfl, rfl⟩)
  | report hpc => exact hd.of_same (calls_of_log rfl (silent rfl)) rfl (.inl ⟨rfl, rfl⟩)
  | reported hpc => exact hd.of_same (calls_of_log rfl (silent rfl)) rfl (.inl ⟨rfl, rfl⟩)
  | claim shutdownOnce failed reason _ _ =>
    obtain ⟨now, later, hlog, -, hevents⟩ :=
      @claim_log { s with shutdownOnce } ((failed.map .failed).toList ++ [.closed reason])
    obtain ⟨-, hpc, -, -, -, -, hbodies, -⟩ := claim_frame { s with shutdownOnce } _
    refine hd.of_same (calls_of_log hlog fun e he => ?_) ?_ (.inr ?_)
    · exact (claim_notices failed reason e (hevents ▸ List.mem_append_left _ he)).1
    · exact hbodies
    · rw [hpc]
      exact ⟨rfl, rfl⟩
  | notify hpending =>
    refine hd.of_same (calls_of_log rfl fun e he => ?_) rfl (.inr ⟨rfl, rfl⟩)
    rw [List.mem_singleton.mp he]
    exact (hn _ (hpending ▸ List.mem_cons_self)).1
  | abandons _ => exact hd.of_same (hunchanged rfl) rfl (.inl ⟨rfl, rfl⟩)
  | claimThrows message _ hmode _ =>
    obtain ⟨-, hpc, -, -, -, -, hbodies, -⟩ := claim_frame s [.failed message]
    have hlog := claim_strand hmode [.failed message]
    refine hd.of_same (calls_of_log hlog (silent rfl)) hbodies (.inr ?_)
    exact ⟨by rw [hpc], by rw [hpc]⟩
  | notifyThrows _ =>
    exact hd.of_same (calls_of_log rfl (silent rfl)) rfl (.inr ⟨rfl, rfl⟩)

/-! ## What is asked for -/

def requests (s : PollLoop) : List Bytes := s.log.filterMap PollEvent.toRequest

/-- The target of the request number `k`: the first is the handshake, a
later one has the session id that the `k` bodies before it left. -/
def requestTarget (T : JsonText) (target : Bytes) (bodies : List Bytes) (k : Nat) : Bytes :=
  if k = 0 then target else pollTarget target (transportAfter T (bodies.take k)).sid

theorem requestTarget_append {target : Bytes} {bodies : List Bytes} (body : Bytes) {n : Nat}
    (hn : n ≤ bodies.length + 1) :
    (List.range n).map (requestTarget T target (bodies ++ [body]))
      = (List.range n).map (requestTarget T target bodies) := by
  refine List.map_congr_left fun k hk => ?_
  have hlt := List.mem_range.mp hk
  rw [requestTarget, requestTarget, List.take_append_of_le_length (by omega)]

theorem transportAfter_append (bodies : List Bytes) (body : Bytes) :
    transportAfter T (bodies ++ [body])
      = notePackets T (transportAfter T bodies) (pollingSplitPayload body) := by
  simp [transportAfter, notePackets, List.flatMap_append, List.foldl_append]

/-- There is one request for each body that has been delivered, and at most
one more. -/
structure Asks (T : JsonText) (s : PollLoop) : Prop where
  session : ∀ rest, s.pc.rest = some rest →
    notePackets T s.transport rest = transportAfter T s.bodies
  first : ∀ b, s.pc.first = some b → s.bodies.isEmpty = b
  requests : ∃ extra, extra ≤ 1 ∧ s.requests
      = (List.range (s.bodies.length + extra)).map (requestTarget T s.target s.bodies) ∧
    ∀ n, s.pc.asked = some n → extra = n

theorem Asks.of_same {s s' : PollLoop} (ha : Asks T s)
    (hsame : s'.transport = s.transport ∧ s'.bodies = s.bodies ∧ s'.target = s.target)
    (hrequests : s'.requests = s.requests)
    (hpc : (s'.pc.rest = none ∧ s'.pc.first = none ∧ s'.pc.asked = none) ∨
      (s'.pc.rest = s.pc.rest ∧ s'.pc.first = s.pc.first ∧ s'.pc.asked = s.pc.asked)) :
    Asks T s' := by
  obtain ⟨htransport, hbodies, htarget⟩ := hsame
  obtain ⟨extra, hle, hall, hextra⟩ := ha.requests
  rcases hpc with ⟨hrest, hfirst, hasked⟩ | ⟨hrest, hfirst, hasked⟩
  · exact ⟨by simp [hrest], by simp [hfirst],
      ⟨extra, hle, by rw [hrequests, htarget, hbodies, hall], by simp [hasked]⟩⟩
  · refine ⟨?_, ?_, ⟨extra, hle, by rw [hrequests, htarget, hbodies, hall], ?_⟩⟩
    · rw [hrest, htransport, hbodies]
      exact ha.session
    · rw [hfirst, hbodies]
      exact ha.first
    · rw [hasked]
      exact hextra

theorem requests_of_log {s s' : PollLoop} {events : List PollEvent}
    (hlog : s'.log = s.log ++ events) (hevents : ∀ e ∈ events, e.toRequest = none) :
    s'.requests = s.requests := by
  rw [requests, hlog, List.filterMap_append, List.filterMap_eq_nil_iff.mpr hevents,
    List.append_nil]
  rfl

theorem step_asks {s s' : PollLoop} (hn : Notices s) (ha : Asks T s)
    (hstep : Step T s s') : Asks T s' := by
  cases hstep with
  | keep state shutdownOnce => exact ha.of_same ⟨rfl, rfl, rfl⟩ rfl (.inr ⟨rfl, rfl, rfl⟩)
  | connect hpc =>
    exact ha.of_same ⟨rfl, rfl, rfl⟩ rfl (.inr (by rw [hpc]; exact ⟨rfl, rfl, rfl⟩))
  | start hpc =>
    obtain ⟨extra, -, hall, hextra⟩ := ha.requests
    have hempty : s.bodies = [] := List.isEmpty_iff.mp (ha.first true (by rw [hpc]; rfl))
    have hzero : extra = 0 := hextra 0 (by rw [hpc]; rfl)
    refine ⟨fun rest h => ?_, fun b h => ?_, 1, Nat.le_refl 1, ?_, fun n h => ?_⟩
    · cases h
      exact ha.session [] (by rw [hpc]; rfl)
    · cases h
      exact ha.first true (by rw [hpc]; rfl)
    · show (s.log ++ [_]).filterMap _ = (List.range (s.bodies.length + 1)).map _
      rw [filterMap_concat]
      show s.requests ++ [s.target] = _
      rw [hall, hempty, hzero]
      rfl
    · cases h
      rfl
  | answer reply hpc =>
    exact ha.of_same ⟨rfl, rfl, rfl⟩ rfl (.inr (by rw [hpc]; exact ⟨rfl, rfl, rfl⟩))
  | leave _ _ => exact ha.of_same ⟨rfl, rfl, rfl⟩ rfl (.inl ⟨rfl, rfl, rfl⟩)
  | escape _ _ => exact ha.of_same ⟨rfl, rfl, rfl⟩ rfl (.inl ⟨rfl, rfl, rfl⟩)
  | fails message _ _ => exact ha.of_same ⟨rfl, rfl, rfl⟩ rfl (.inl ⟨rfl, rfl, rfl⟩)
  | opens body hpc _ =>
    exact ha.of_same ⟨rfl, rfl, rfl⟩ rfl (.inr (by rw [hpc]; exact ⟨rfl, rfl, rfl⟩))
  | callOpened hpc =>
    exact ha.of_same ⟨rfl, rfl, rfl⟩ (requests_of_log rfl (silent rfl))
      (.inr (by rw [hpc]; exact ⟨rfl, rfl, rfl⟩))
  | @deliver body hclosing hpc =>
    obtain ⟨extra, -, hall, hextra⟩ := ha.requests
    have hbefore : s.pc.rest = some [] ∧ s.pc.asked = some 1 := by
      rcases hpc with hpc | ⟨reply, hpc⟩ <;> rw [hpc] <;> exact ⟨rfl, rfl⟩
    have hone : extra = 1 := hextra 1 hbefore.2
    refine ⟨fun rest h => ?_, fun b h => ?_, 0, Nat.zero_le 1, ?_, fun n h => ?_⟩
    · cases h
      show notePackets T s.transport _ = transportAfter T (s.bodies ++ [body])
      rw [transportAfter_append, ← ha.session [] hbefore.1]
      rfl
    · cases h
      show (s.bodies ++ [body]).isEmpty = false
      simp
    · show s.requests = (List.range ((s.bodies ++ [body]).length + 0)).map
        (requestTarget T s.target (s.bodies ++ [body]))
      rw [List.length_append, List.length_singleton, Nat.add_zero,
        requestTarget_append body (Nat.le_refl _), hall, hone]
    · cases h
      rfl
  | poll hclosing hpc =>
    obtain ⟨extra, -, hall, hextra⟩ := ha.requests
    have hzero : extra = 0 := hextra 0 (by rw [hpc]; rfl)
    have hsession : s.transport = transportAfter T s.bodies :=
      ha.session [] (by rw [hpc]; rfl)
    have hlater : s.bodies.length ≠ 0 := by
      have hne := ha.first false (by rw [hpc]; rfl)
      simpa using hne
    refine ⟨fun rest h => ?_, fun b h => ?_, 1, Nat.le_refl 1, ?_, fun n h => ?_⟩
    · cases h
      exact hsession
    · cases h
      exact ha.first false (by rw [hpc]; rfl)
    · show (s.log ++ [_]).filterMap _ = (List.range (s.bodies.length + 1)).map _
      have hlast : requestTarget T s.target s.bodies s.bodies.length
          = pollTarget s.target s.transport.sid := by
        rw [requestTarget, if_neg hlater, List.take_length, hsession]
      rw [filterMap_concat, List.range_succ, List.map_append]
      show s.requests ++ [pollTarget s.target s.transport.sid]
        = _ ++ [requestTarget T s.target s.bodies s.bodies.length]
      rw [hall, hzero, Nat.add_zero, hlast]
      rfl
    · cases h
      rfl
  | skip hclosing hpc hnote hcall =>
    refine ⟨fun rest h => ?_, fun b h => ?_, ?_⟩
    · cases h
      rw [← ha.session _ (by rw [hpc]; rfl), notePackets_cons _ hnote]
    · cases h
      exact ha.first false (by rw [hpc]; rfl)
    · obtain ⟨extra, hle, hall, hextra⟩ := ha.requests
      exact ⟨extra, hle, hall, fun n h => hextra n (by rw [hpc]; exact h)⟩
  | pass hclosing hpc hnote hcall =>
    refine ⟨fun rest h => ?_, fun b h => ?_, ?_⟩
    · cases h
      rw [← ha.session _ (by rw [hpc]; rfl), notePackets_cons _ hnote]
    · cases h
      exact ha.first false (by rw [hpc]; rfl)
    · obtain ⟨extra, hle, hall, hextra⟩ := ha.requests
      exact ⟨extra, hle, hall, fun n h => hextra n (by rw [hpc]; exact h)⟩
  | message hpc =>
    exact ha.of_same ⟨rfl, rfl, rfl⟩ (requests_of_log rfl (silent rfl))
      (.inr (by rw [hpc]; exact ⟨rfl, rfl, rfl⟩))
  | returns hpc =>
    exact ha.of_same ⟨rfl, rfl, rfl⟩ rfl (.inr (by rw [hpc]; exact ⟨rfl, rfl, rfl⟩))
  | claimed hpc _ => exact ha.of_same ⟨rfl, rfl, rfl⟩ rfl (.inl ⟨rfl, rfl, rfl⟩)
  | report hpc =>
    exact ha.of_same ⟨rfl, rfl, rfl⟩ (requests_of_log rfl (silent rfl))
      (.inl ⟨rfl, rfl, rfl⟩)
  | reported hpc =>
    exact ha.of_same ⟨rfl, rfl, rfl⟩ (requests_of_log rfl (silent rfl))
      (.inl ⟨rfl, rfl, rfl⟩)
  | claim shutdownOnce failed reason _ _ =>
    obtain ⟨now, later, hlog, -, hevents⟩ :=
      @claim_log { s with shutdownOnce } ((failed.map .failed).toList ++ [.closed reason])
    obtain ⟨-, hpc, -, -, -, htransport, hbodies, htarget, -⟩ :=
      claim_frame { s with shutdownOnce } _
    refine ha.of_same ⟨htransport, hbodies, htarget⟩ (requests_of_log hlog fun e he => ?_) (.inr ?_)
    · exact (claim_notices failed reason e (hevents ▸ List.mem_append_left _ he)).2
    · rw [hpc]
      exact ⟨rfl, rfl, rfl⟩
  | notify hpending =>
    refine ha.of_same ⟨rfl, rfl, rfl⟩ (requests_of_log rfl fun e he => ?_) (.inr ⟨rfl, rfl, rfl⟩)
    rw [List.mem_singleton.mp he]
    exact (hn _ (hpending ▸ List.mem_cons_self)).2
  | abandons _ => exact ha.of_same ⟨rfl, rfl, rfl⟩ rfl (.inl ⟨rfl, rfl, rfl⟩)
  | claimThrows message _ hmode _ =>
    obtain ⟨-, hpc, -, -, -, htransport, hbodies, htarget, -⟩ := claim_frame s [.failed message]
    have hlog := claim_strand hmode [.failed message]
    refine ha.of_same ⟨htransport, hbodies, htarget⟩ (requests_of_log hlog (silent rfl)) (.inr ?_)
    simp [hpc]
  | notifyThrows _ =>
    exact ha.of_same ⟨rfl, rfl, rfl⟩ (requests_of_log rfl (silent rfl)) (.inr ⟨rfl, rfl, rfl⟩)

/-! ## Runs -/

structure Inv (T : JsonText) (s : PollLoop) : Prop where
  notices : Notices s
  delivers : Delivers s
  asks : Asks T s

theorem init_inv (mode : PollingMode) (target : Bytes) : Inv T (init mode target) where
  notices := by simp [Notices, init]
  delivers :=
    ⟨⟨[], rfl, fun upcoming h => by cases h; rfl⟩, ⟨false, rfl, fun b h => by cases h; rfl⟩⟩
  asks :=
    ⟨fun rest h => by cases h; rfl, fun b h => by cases h; rfl,
      ⟨0, Nat.zero_le 1, rfl, fun n h => by cases h; rfl⟩⟩

theorem step_inv {s s' : PollLoop} {a : Action} (hi : Inv T s)
    (h : s.step T what a = some s') : Inv T s' :=
  have hstep := step_cases h
  ⟨step_notices hi.notices hstep, step_delivers hi.notices hi.delivers hstep,
    step_asks hi.notices hi.asks hstep⟩

variable {mode : PollingMode} {target : Bytes} {as : List Action} {s : PollLoop}

theorem run_inv (hrun : run (step T what) (init mode target) as = some s) : Inv T s :=
  run_preserves (Inv T) (fun _ _ _ hi h => step_inv hi h) (init_inv mode target) hrun

/-- **What is delivered.** In every run the message handler is called for
the packets of the answered bodies, in their order and each once, after the
one call of the open handler; whenever the loop waits for an answer it has
been called for all of them. -/
theorem run_delivers (hrun : run (step T what) (init mode target) as = some s) :
    s.messages <+: s.bodies.flatMap bodyCalls ∧
      (s.calls = [] ∨ s.calls = none :: s.messages.map some) ∧
      ∀ handshake, s.pc = .requesting handshake → s.messages = s.bodies.flatMap bodyCalls := by
  obtain ⟨⟨dropped, hall, hupcoming⟩, ⟨hasOpened, hcalls, -⟩⟩ := (run_inv hrun).delivers
  refine ⟨⟨dropped, hall⟩, ?_, fun handshake hpc => ?_⟩
  · cases hasOpened with
    | false => exact .inl hcalls
    | true => exact .inr hcalls
  · have hnone : dropped = [] := hupcoming [] (by rw [hpc]; rfl)
    rw [← hall, hnone, List.append_nil]

/-- A handshake with one message, up to the next request. -/
theorem run_delivers_message :
    let as : List Action :=
      [.connect, .start, .answer (.response 200 (ascii "42[]")), .turn, .turn, .turn, .turn,
        .turn, .turn, .turn]
    ∃ s, run (step ReferenceText.referenceText fun _ => []) (init .managed (ascii "/")) as
        = some s ∧
      s.messages <+: s.bodies.flatMap bodyCalls ∧
      (s.calls = [] ∨ s.calls = none :: s.messages.map some) ∧
      ∀ handshake, s.pc = .requesting handshake → s.messages = s.bodies.flatMap bodyCalls := by
  intro as
  obtain ⟨s, hrun⟩ : ∃ s, run (step ReferenceText.referenceText fun _ => [])
      (init .managed (ascii "/")) as = some s := ⟨_, rfl⟩
  exact ⟨s, hrun, run_delivers hrun⟩

/-- **What is asked for.** In every run there is one GET request for each
body that was delivered, and at most one more; the first is the handshake,
and each later one has the session id as the bodies before it left it. -/
theorem run_requests (hrun : run (step T what) (init mode target) as = some s) :
    s.bodies.length ≤ s.requests.length ∧ s.requests.length ≤ s.bodies.length + 1 ∧
      ∀ k (h : k < s.requests.length),
        s.requests.get ⟨k, h⟩ = requestTarget T s.target s.bodies k := by
  obtain ⟨extra, hle, hall, -⟩ := (run_inv hrun).asks.requests
  have hlength : s.requests.length = s.bodies.length + extra := by
    rw [hall, List.length_map, List.length_range]
  refine ⟨by omega, by omega, fun k h => ?_⟩
  rw [List.get_eq_getElem, List.getElem_of_eq hall, List.getElem_map, List.getElem_range]

/-- The second request of the same session. -/
theorem run_requests_message :
    let as : List Action :=
      [.connect, .start, .answer (.response 200 (ascii "42[]")), .turn, .turn, .turn, .turn,
        .turn, .turn, .turn]
    ∃ s, run (step ReferenceText.referenceText fun _ => []) (init .managed (ascii "/")) as
        = some s ∧
      s.bodies.length ≤ s.requests.length ∧ s.requests.length ≤ s.bodies.length + 1 ∧
      ∀ k (h : k < s.requests.length), s.requests.get ⟨k, h⟩
        = requestTarget ReferenceText.referenceText s.target s.bodies k := by
  intro as
  obtain ⟨s, hrun⟩ : ∃ s, run (step ReferenceText.referenceText fun _ => [])
      (init .managed (ascii "/")) as = some s := ⟨_, rfl⟩
  exact ⟨s, hrun, run_requests hrun⟩

end PollLoop

end Sioxx
