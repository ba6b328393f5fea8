/-
Sioxx.EngineIO.HeartbeatTheorems — when a heartbeat timeout ends the
session properly.

`Coherent` is the invariant of all runs; one lemma per step shows that the
step keeps it. Two of its fields count the calls of `on_close_`. On the
WebSocket transport nothing but what the reading thread had in hand at
`transport_->close()` reports the end of the session. On the polling
transport the one clear `closing_` is worth one report, whoever sets it,
and every CLOSE packet handled after the worker's decision adds one.
-/
import Sioxx.EngineIO.Heartbeat

namespace Sioxx

open Lib

namespace Session

/-- The reading thread is about to call `on_close_`. -/
def pending (s : Session) : Nat :=
  match s.io with
  | .joining .closePacket => 1
  | .joining .failure => 1
  | _ => 0

/-- Threads between setting `closing_` and their call of `on_close_`. -/
def notifying (s : Session) : Nat :=
  (if s.worker = .notifying then 1 else 0) + (if s.closer = .notifying then 1 else 0)
    + (if s.writer = .notifying then 1 else 0)

/-- The reading thread has let something through. -/
def ioReceived (s : Session) : Bool :=
  match s.io with
  | .received _ => true
  | _ => false

/-- The reading thread has nothing in hand. -/
def ioIdle (s : Session) : Bool := s.io == .reading || s.io == .ended

theorem pending_eq_zero {s : Session} (h : s.ioJoining = false) : s.pending = 0 := by
  cases hio : s.io <;> simp_all [ioJoining, pending]

theorem ioIdle_of_not {s : Session} (h : s.ioJoining = false) (hr : s.ioReceived = false) :
    s.ioIdle = true := by
  cases hio : s.io <;> simp_all [ioJoining, ioReceived, ioIdle]

/-! ## The invariant -/

structure Coherent (s : Session) : Prop where
  closer : s.engineClosing = false → s.closer = .idle
  notifier : 1 ≤ s.notifying → s.kind = .polling ∧ s.transportClosing = true ∧ s.notifying = 1
  ended : s.kind ≠ .websocket → s.io = .ended ∨ s.io = .joining .failure →
    s.transportClosing = true
  pendingClosed : s.pending = 1 → s.isOpen = false
  fresh : s.transportClosing = true → s.worker = .waiting → s.engineClosing = false →
    s.writer ≠ .notifying → s.ioReceived = false
  wasClosing : s.timedOut = true → s.wasClosing = true →
    s.transportClosing = true ∧ s.notifying = 0 ∧ s.ioIdle = true ∧ s.closes = 0
  websocket : s.kind = .websocket → s.timedOut = true →
    if s.worker = .decided then s.closes = 0
    else s.transportClosing = true ∧ s.closes + s.endInHand.toNat = s.inHand.toNat
  websocketClosed : s.kind = .websocket → s.timedOut = true → s.worker ≠ .decided →
    s.inHand = true →
      (s.ioIdle = true ∨ s.endInHand = true) ∧ (s.io ≠ .received .closePacket → s.isOpen = false)
  polling : s.kind ≠ .websocket → s.timedOut = true →
    s.closes + s.pending + s.notifying + (!s.transportClosing).toNat
      = s.lateCloses + (!s.wasClosing).toNat
  pollingClosed : s.kind ≠ .websocket → s.timedOut = true → s.wasClosing = false →
    s.transportClosing = true → s.notifying = 0 → s.reopened = false → s.isOpen = false
  reopened : s.kind ≠ .websocket → s.reopened = true →
    s.isOpen = true ∧ s.transportClosing = true ∧ s.notifying = 0 ∧ s.ioIdle = true

theorem coherent_start (kind : TransportKind) : (start kind).Coherent := by
  constructor <;> simp [start, pending, notifying, ioReceived]

/-- What is read after `closing_` is set ends the reading thread. -/
theorem receive_coherent {s s' : Session} {event : IoEvent} (hc : s.Coherent)
    (h : s.step (.receive event) = some s') : s'.Coherent := by
  obtain ⟨hcloser, hnotifier, hended, hpending, hfresh, hwas, hwebsocket, hwebsocketClosed,
    hpolling, hpollingClosed, hreopened⟩ := hc
  simp only [step] at h
  split at h
  · rename_i hio
    cases h
    simp only [pending, notifying, ioReceived, ioIdle, endInHand, hio] at *
    refine ⟨hcloser, hnotifier, ?_, ?_, ?_, ?_, ?_, ?_, ?_, hpollingClosed, ?_⟩ <;>
      simp only [pending, notifying, ioReceived, ioIdle, endInHand] <;> grind -ring -linarith -order
  · cases h

/-- A CLOSE packet and a failed read close the session here and report it in
`joined`. On the polling transport a failed read takes the clear `closing_`. -/
theorem handle_coherent {s s' : Session} (hc : s.Coherent)
    (h : s.step .handle = some s') : s'.Coherent := by
  obtain ⟨hcloser, hnotifier, hended, hpending, hfresh, hwas, hwebsocket, hwebsocketClosed,
    hpolling, hpollingClosed, hreopened⟩ := hc
  simp only [step, handleStep] at h
  split at h
  case h_4 hio =>
    -- a failed read: `closing_` is looked at once more
    split at h <;> cases h <;>
      simp only [pending, notifying, ioReceived, ioIdle, endInHand, hio] at * <;>
      constructor <;> simp only [pending, notifying, ioReceived, ioIdle, endInHand] <;>
      grind -ring -linarith -order
  case h_5 => cases h
  all_goals
    rename_i hio
    cases h
    simp only [pending, notifying, ioReceived, ioIdle, endInHand, hio] at *
    constructor <;> simp only [pending, notifying, ioReceived, ioIdle, endInHand] <;>
      grind -ring -linarith -order

/-- The report, or a new session that hides one made before. -/
theorem joined_coherent {s s' : Session} (hc : s.Coherent)
    (h : s.step .joined = some s') : s'.Coherent := by
  obtain ⟨hcloser, hnotifier, hended, hpending, hfresh, hwas, hwebsocket, hwebsocketClosed,
    hpolling, hpollingClosed, hreopened⟩ := hc
  simp only [step, joinedStep] at h
  split at h
  · rename_i hw
    split at h
    case h_4 => cases h
    all_goals
      rename_i hio
      cases h
      simp only [pending, notifying, ioReceived, ioIdle, endInHand, workerStops, stopWorker,
        otherNotifying, hio] at *
      constructor <;> simp only [pending, notifying, ioReceived, ioIdle, endInHand] <;>
        grind -ring -linarith -order
  · cases h

/-- The counts start here. -/
theorem decide_coherent {s s' : Session} (hc : s.Coherent)
    (h : s.step .decide = some s') : s'.Coherent := by
  obtain ⟨hcloser, hnotifier, hended, hpending, hfresh, hwas, hwebsocket, hwebsocketClosed,
    hpolling, hpollingClosed, hreopened⟩ := hc
  simp only [step] at h
  split at h
  · rename_i hw
    simp only [Bool.and_eq_true, decide_eq_true_eq, Bool.not_eq_true', bne_iff_ne] at hw
    obtain ⟨⟨⟨hw, he⟩, hio⟩, hwr⟩ := hw
    have hcl := hcloser he
    have hnone : s.pending = 0 := pending_eq_zero hio
    cases h
    refine ⟨hcloser, ?_, hended, hpending, by simp, fun _ hclosing => ⟨hclosing, ?_, ?_, rfl⟩,
      by simp, by simp, fun _ _ => ?_, ?_, by simp⟩
    · simp [notifying, hcl, hwr]
    · simp [notifying, hcl, hwr]
    · exact ioIdle_of_not hio (hfresh hclosing hw he hwr)
    · -- the counts start anew: what is clear at the decision is worth one report
      show 0 + s.pending + _ + _ = 0 + _
      simp [hnone, notifying, hcl, hwr]
    · intro _ _ hclear hclosing
      exact absurd hclosing (by simp_all)
  · cases h

/-- On the WebSocket transport only what is in hand is still reported; the
polling transport takes the clear `closing_`. -/
theorem workerClose_coherent {s s' : Session} (hc : s.Coherent)
    (h : s.step .workerClose = some s') : s'.Coherent := by
  obtain ⟨hcloser, hnotifier, hended, hpending, hfresh, hwas, hwebsocket, hwebsocketClosed,
    hpolling, hpollingClosed, hreopened⟩ := hc
  simp only [step] at h
  split at h
  · split at h <;> cases h <;>
      simp only [pending, notifying, ioReceived, ioIdle, endInHand] at * <;>
      constructor <;> simp only [pending, notifying, ioReceived, ioIdle, endInHand] <;>
      grind -ring -linarith -order
  · cases h

theorem workerNotify_coherent {s s' : Session} (hc : s.Coherent)
    (h : s.step .workerNotify = some s') : s'.Coherent := by
  obtain ⟨hcloser, hnotifier, hended, hpending, hfresh, hwas, hwebsocket, hwebsocketClosed,
    hpolling, hpollingClosed, hreopened⟩ := hc
  simp only [step] at h
  split at h
  · cases h
    simp only [pending, notifying, ioReceived, ioIdle, endInHand] at *
    refine ⟨hcloser, ?_, hended, ?_, ?_, ?_, ?_, ?_, ?_, ?_, ?_⟩ <;>
      simp only [pending, notifying, ioReceived, ioIdle, endInHand] <;> grind -ring -linarith -order
  · cases h

theorem applicationClose_coherent {s s' : Session} (hc : s.Coherent)
    (h : s.step .applicationClose = some s') : s'.Coherent := by
  obtain ⟨hcloser, hnotifier, hended, hpending, hfresh, hwas, hwebsocket, hwebsocketClosed,
    hpolling, hpollingClosed, hreopened⟩ := hc
  simp only [step] at h
  split at h
  · cases h
    simp only [pending, notifying, ioReceived, ioIdle, endInHand] at *
    refine ⟨?_, ?_, hended, ?_, ?_, ?_, hwebsocket, ?_, ?_, ?_, ?_⟩ <;>
      simp only [pending, notifying, ioReceived, ioIdle, endInHand] <;> grind -ring -linarith -order
  · cases h

/-- The application's `close()` can take the clear `closing_` first. -/
theorem applicationTransportClose_coherent {s s' : Session} (hc : s.Coherent)
    (h : s.step .applicationTransportClose = some s') : s'.Coherent := by
  obtain ⟨hcloser, hnotifier, hended, hpending, hfresh, hwas, hwebsocket, hwebsocketClosed,
    hpolling, hpollingClosed, hreopened⟩ := hc
  simp only [step] at h
  split at h
  · split at h <;> cases h <;>
      simp only [pending, notifying, ioReceived, ioIdle, endInHand] at * <;>
      refine ⟨?_, ?_, ?_, hpending, ?_, ?_, ?_, hwebsocketClosed, ?_, ?_, ?_⟩ <;>
      simp only [pending, notifying, ioReceived, ioIdle, endInHand] <;> grind -ring -linarith -order
  · cases h

theorem applicationNotify_coherent {s s' : Session} (hc : s.Coherent)
    (h : s.step .applicationNotify = some s') : s'.Coherent := by
  obtain ⟨hcloser, hnotifier, hended, hpending, hfresh, hwas, hwebsocket, hwebsocketClosed,
    hpolling, hpollingClosed, hreopened⟩ := hc
  simp only [step] at h
  split at h
  · cases h
    simp only [pending, notifying, ioReceived, ioIdle, endInHand, ioJoining, workerStops,
      stopWorker] at *
    refine ⟨?_, ?_, hended, ?_, ?_, ?_, ?_, ?_, ?_, ?_, ?_⟩ <;>
      simp only [pending, notifying, ioReceived, ioIdle, endInHand] <;> grind -ring -linarith -order
  · cases h

theorem writerFail_coherent {s s' : Session} (hc : s.Coherent)
    (h : s.step .writerFail = some s') : s'.Coherent := by
  obtain ⟨hcloser, hnotifier, hended, hpending, hfresh, hwas, hwebsocket, hwebsocketClosed,
    hpolling, hpollingClosed, hreopened⟩ := hc
  simp only [step] at h
  split at h
  · cases h
    simp only [pending, notifying, ioReceived, ioIdle, endInHand] at *
    refine ⟨hcloser, ?_, ?_, hpending, ?_, ?_, ?_, hwebsocketClosed, ?_, ?_, ?_⟩ <;>
      simp only [pending, notifying, ioReceived, ioIdle, endInHand] <;> grind -ring -linarith -order
  · cases h

theorem writerNotify_coherent {s s' : Session} (hc : s.Coherent)
    (h : s.step .writerNotify = some s') : s'.Coherent := by
  obtain ⟨hcloser, hnotifier, hended, hpending, hfresh, hwas, hwebsocket, hwebsocketClosed,
    hpolling, hpollingClosed, hreopened⟩ := hc
  simp only [step] at h
  split at h
  · cases h
    simp only [pending, notifying, ioReceived, ioIdle, endInHand, ioJoining, workerStops,
      stopWorker] at *
    refine ⟨hcloser, ?_, hended, ?_, ?_, ?_, ?_, ?_, ?_, ?_, ?_⟩ <;>
      simp only [pending, notifying, ioReceived, ioIdle, endInHand] <;> grind -ring -linarith -order
  · cases h

/-- Only the first `close()` on the strand finds `closing_` clear. -/
theorem strandClose_coherent {s s' : Session} (hc : s.Coherent)
    (h : s.step .strandClose = some s') : s'.Coherent := by
  obtain ⟨hcloser, hnotifier, hended, hpending, hfresh, hwas, hwebsocket, hwebsocketClosed,
    hpolling, hpollingClosed, hreopened⟩ := hc
  simp only [step] at h
  split at h
  · split at h <;> cases h
    · exact ⟨hcloser, hnotifier, hended, hpending, hfresh, hwas, hwebsocket, hwebsocketClosed,
        hpolling, hpollingClosed, hreopened⟩
    · simp only [pending, notifying, ioReceived, ioIdle, endInHand, workerStops, stopWorker] at *
      refine ⟨hcloser, ?_, ?_, ?_, ?_, ?_, ?_, ?_, ?_, ?_, ?_⟩ <;>
        simp only [pending, notifying, ioReceived, ioIdle, endInHand] <;>
        grind -ring -linarith -order
  · cases h

theorem step_coherent {s s' : Session} {a : Step} (hc : s.Coherent) (h : s.step a = some s') :
    s'.Coherent := by
  cases a with
  | receive event => exact receive_coherent hc h
  | handle => exact handle_coherent hc h
  | joined => exact joined_coherent hc h
  | decide => exact decide_coherent hc h
  | workerClose => exact workerClose_coherent hc h
  | workerNotify => exact workerNotify_coherent hc h
  | applicationClose => exact applicationClose_coherent hc h
  | applicationTransportClose => exact applicationTransportClose_coherent hc h
  | applicationNotify => exact applicationNotify_coherent hc h
  | writerFail => exact writerFail_coherent hc h
  | writerNotify => exact writerNotify_coherent hc h
  | strandClose => exact strandClose_coherent hc h

theorem run_coherent {kind : TransportKind} {steps : List Step} {s : Session}
    (h : run step (start kind) steps = some s) : s.Coherent :=
  run_preserves Coherent (fun _ _ _ hc hs => step_coherent hc hs) (coherent_start kind) h

/-! ## The end of the session -/

theorem websocket_closedOnce_iff {s : Session} (hc : s.Coherent) (hf : s.Finished)
    (hk : s.kind = .websocket) : s.ClosedOnce ↔ s.inHand = true := by
  obtain ⟨ht, hw, hio, -, -, -⟩ := hf
  have hnot : s.worker ≠ .decided := by
    intro hd
    simp [workerStops, hd] at hw
  have hcount := hc.websocket hk ht
  rw [if_neg hnot] at hcount
  have hend : s.endInHand = false := by simp [endInHand, hio]
  constructor
  · rintro ⟨-, hone⟩
    have h1 := hcount.2
    simpa [hone, hend] using h1.symm
  · intro hin
    refine ⟨(hc.websocketClosed hk ht hnot hin).2 (by simp [hio]), ?_⟩
    simpa [hend, hin] using hcount.2

theorem polling_closedOnce_iff {s : Session} (hc : s.Coherent) (hf : s.Finished)
    (hk : s.kind ≠ .websocket) :
    s.ClosedOnce ↔ s.wasClosing = false ∧ s.lateCloses = 0 ∧ s.reopened = false := by
  obtain ⟨ht, hw, hio, -, -, ho⟩ := hf
  have hclosing := hc.ended hk (.inl hio)
  have hnotify : s.notifying = 0 := by
    simp only [otherNotifying, Bool.or_eq_false_iff, beq_eq_false_iff_ne] at ho
    have hw' : s.worker ≠ .notifying := by
      intro hn
      simp [workerStops, hn] at hw
    simp [notifying, hw', ho.1, ho.2]
  have hpending : s.pending = 0 := by simp [pending, hio]
  have hcount := hc.polling hk ht
  rw [hpending, hnotify, hclosing] at hcount
  constructor
  · rintro ⟨hopen, hone⟩
    have hwas : s.wasClosing = false := by
      by_contra hwas
      have hzero := (hc.wasClosing ht (by simpa using hwas)).2.2.2
      omega
    refine ⟨hwas, ?_, ?_⟩
    · rw [hone, hwas] at hcount
      simp only [Bool.not_true, Bool.not_false, Bool.toNat_false, Bool.toNat_true] at hcount
      omega
    · by_contra hre
      have := (hc.reopened hk (by simpa using hre)).1
      simp [hopen] at this
  · rintro ⟨hwas, hlate, hre⟩
    refine ⟨hc.pollingClosed hk ht hwas hclosing hnotify hre, ?_⟩
    simpa [hwas, hlate] using hcount

end Session

end Sioxx
