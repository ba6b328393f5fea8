/-
Sioxx.EngineIO.PollingWritesTheorems — both ways of writing are the pump of
`Lib/Pump.lean`.

Each step of the transport is a step of the pump or none at all (`Pumps`),
so the law of the pump holds along every run. `fifo` reads the result off.
-/
import Sioxx.EngineIO.PollingWrites

namespace Sioxx

open Lib

namespace PollingWrites

/-! ## Each mode keeps to its own side -/

/-- What belongs to the other mode is not used, and the flag says whether a
request is in progress. -/
structure Apart (s : PollingWrites) : Prop where
  managed : s.mode = .managed → s.externalRequests = 0 ∧ s.strand = []
  callerOwned : s.mode = .callerOwned → s.writer = .ended
  flag : s.externalRequests = if s.externalWriteInProgress then 1 else 0
  clearing : s.clearing = true → s.closing = true

/-- On the strand a write that waits has a request in progress. -/
def Eager (s : PollingWrites) : Prop :=
  s.mode = .callerOwned → s.closing = false → s.writeQueue ≠ [] →
    s.externalWriteInProgress = true

/-- What was sent is queued or on its way to the queue. -/
def Sent (s : PollingWrites) : Prop := s.closing = false → s.accepted ++ s.strand = s.sends

/-- What every state has. -/
structure Law (s : PollingWrites) : Prop where
  apart : s.Apart
  eager : s.Eager
  sent : s.Sent
  reachable : Pump.Reachable Write.body s.pump

/-- The writes of the second state are reached from those of the first as
a pump reaches them. -/
def Pumps (s s' : PollingWrites) : Prop :=
  Relation.ReflTransGen (Pump.Step Write.body) s.pump s'.pump

theorem Pumps.of_eq {s s' : PollingWrites} (h : s'.pump = s.pump) : Pumps s s' := by
  unfold Pumps
  rw [h]

theorem Pumps.of_step {s s' : PollingWrites} {p : Pump Write Bytes} (h : s'.pump = p)
    (hstep : Pump.Step Write.body s.pump p) : Pumps s s' := by
  unfold Pumps
  rw [h]
  exact Relation.ReflTransGen.single hstep

variable {s s' : PollingWrites}

/-! ## The operations -/

theorem enqueue_apart (h : s.Apart) (write : Write) : (s.enqueue write).Apart := by
  unfold enqueue
  split
  · exact h
  · exact ⟨h.managed, h.callerOwned, h.flag, h.clearing⟩

theorem enqueue_sent {write : Write}
    (h : s.closing = false → s.accepted ++ write :: s.strand = s.sends) :
    (s.enqueue write).Sent := by
  unfold enqueue
  split
  · rename_i hclosing
    intro hopen
    rw [hclosing] at hopen
    cases hopen
  · intro hopen
    show s.accepted ++ [write] ++ s.strand = s.sends
    rw [List.append_assoc, List.singleton_append]
    exact h hopen

theorem enqueue_pumps (s : PollingWrites) (write : Write) : Pumps s (s.enqueue write) := by
  unfold enqueue
  split
  · exact .of_eq rfl
  · rename_i hclosing
    exact .of_step rfl (Pump.Step.accept s.pump write (Bool.eq_false_iff.mpr hclosing))

/-- What `start_next_external_write` does. -/
theorem startNextExternalWrite_cases (s : PollingWrites) :
    (s.startNextExternalWrite = s ∧
      (s.externalWriteInProgress = true ∨ s.closing = true ∨ s.writeQueue = [])) ∨
    ∃ write rest, s.externalWriteInProgress = false ∧ s.closing = false ∧
      s.writeQueue = write :: rest ∧
      s.startNextExternalWrite = { s with
        externalWriteInProgress := true, writeQueue := rest,
        bodies := s.bodies ++ [write.body], externalRequests := s.externalRequests + 1 } := by
  unfold startNextExternalWrite
  split
  · rename_i hcond
    rw [Bool.or_eq_true] at hcond
    exact .inl ⟨rfl, hcond.elim .inl fun hclosing => .inr (.inl hclosing)⟩
  · rename_i hcond
    rw [Bool.or_eq_true, not_or, Bool.not_eq_true, Bool.not_eq_true] at hcond
    split
    · rename_i hqueue
      exact .inl ⟨rfl, .inr (.inr hqueue)⟩
    · rename_i write rest hqueue
      exact .inr ⟨write, rest, hcond.1, hcond.2, hqueue, rfl⟩

theorem startNextExternalWrite_apart (h : s.Apart) (hmode : s.mode = .callerOwned) :
    s.startNextExternalWrite.Apart := by
  rcases startNextExternalWrite_cases s with ⟨heq, -⟩ | ⟨write, rest, hflag, -, -, heq⟩
  · rw [heq]
    exact h
  · rw [heq]
    refine ⟨fun hmanaged => absurd (hmode.symm.trans hmanaged) (by decide), h.callerOwned, ?_,
      h.clearing⟩
    have hnone := h.flag
    rw [hflag] at hnone
    show s.externalRequests + 1 = 1
    rw [hnone]
    rfl

theorem startNextExternalWrite_eager (s : PollingWrites) : s.startNextExternalWrite.Eager := by
  intro hmode hopen hwaiting
  rcases startNextExternalWrite_cases s with ⟨heq, hwhy⟩ | ⟨write, rest, -, -, -, heq⟩
  · rw [heq] at hopen hwaiting ⊢
    rcases hwhy with hflag | hclosing | hqueue
    · exact hflag
    · rw [hclosing] at hopen
      cases hopen
    · exact absurd hqueue hwaiting
  · rw [heq]

theorem startNextExternalWrite_sent (h : s.Sent) : s.startNextExternalWrite.Sent := by
  rcases startNextExternalWrite_cases s with ⟨heq, -⟩ | ⟨write, rest, -, -, -, heq⟩
  · rw [heq]
    exact h
  · rw [heq]
    exact h

/-- On the strand a write is taken and its request started at once. -/
theorem startNextExternalWrite_pumps (h : s.Apart) (hmode : s.mode = .callerOwned) :
    Pumps s s.startNextExternalWrite := by
  rcases startNextExternalWrite_cases s with ⟨heq, -⟩ | ⟨write, rest, hflag, -, hqueue, heq⟩
  · rw [heq]
    exact .of_eq rfl
  · have hwriter := h.callerOwned hmode
    have hnone := h.flag
    rw [hflag] at hnone
    have hidle : s.pump.inFlight = 0 := by
      show s.externalRequests + s.writer.inFlight = 0
      rw [hnone, hwriter]
      rfl
    have hhand : s.pump.held = none := by
      show s.writer.held = none
      rw [hwriter]
      rfl
    have htake : Pump.Step Write.body s.pump _ := .take s.pump write rest hqueue hhand hidle
    have hbegin : Pump.Step Write.body { s.pump with queue := rest, held := some write } _ :=
      .begin _ write rfl
    rw [heq]
    refine (Relation.ReflTransGen.single htake).tail ?_
    convert hbegin using 1
    simp only [pump, inFlight, hwriter, WritesPc.held, WritesPc.inFlight]

theorem failStep_closing (s : PollingWrites) : s.failStep.closing = true := by
  unfold failStep
  split
  · assumption
  · split <;> rfl

theorem failStep_apart (h : s.Apart) : s.failStep.Apart := by
  unfold failStep
  split
  · exact h
  · split
    · exact ⟨h.managed, h.callerOwned, h.flag, fun _ => rfl⟩
    · exact ⟨h.managed, h.callerOwned, h.flag, fun _ => rfl⟩

theorem failStep_pumps (s : PollingWrites) : Pumps s s.failStep := by
  unfold failStep
  split
  · exact .of_eq rfl
  · split
    · exact .of_step rfl (Pump.Step.stop s.pump _ (.inl rfl))
    · exact .of_step rfl (Pump.Step.stop s.pump _ (.inr rfl))

/-! ## Every run -/

theorem Law.of_parts {s₀ : PollingWrites} (h : s₀.Law) (hpumps : Pumps s₀ s) (hapart : s.Apart)
    (heager : s.Eager) (hsent : s.Sent) : s.Law :=
  ⟨hapart, heager, hsent, h.reachable.trans hpumps⟩

/-- After the transport began to close only the order is promised. -/
theorem Law.of_closing {s₀ : PollingWrites} (h : s₀.Law) (hpumps : Pumps s₀ s) (hapart : s.Apart)
    (hclosing : s.closing = true) : s.Law := by
  refine h.of_parts hpumps hapart (fun _ hopen => ?_) (fun hopen => ?_)
  · rw [hclosing] at hopen
    cases hopen
  · rw [hclosing] at hopen
    cases hopen

theorem Law.fail {s₀ : PollingWrites} (h : s₀.Law) (hpumps : Pumps s₀ s) (hapart : s.Apart) :
    s.failStep.Law :=
  h.of_closing (hpumps.trans (failStep_pumps s)) (failStep_apart hapart) (failStep_closing s)

theorem law_start (mode : PollingMode) : (start mode).Law where
  apart := by
    cases mode with
    | managed => exact ⟨fun _ => ⟨rfl, rfl⟩, fun h => (by cases h), rfl, fun h => (by cases h)⟩
    | callerOwned => exact ⟨fun _ => ⟨rfl, rfl⟩, fun _ => rfl, rfl, fun h => (by cases h)⟩
  eager := fun _ _ h => absurd rfl h
  sent := fun _ => rfl
  reachable := by
    have hstart : (start mode).pump = Pump.start := by cases mode <;> rfl
    rw [hstart]
    exact Relation.ReflTransGen.refl

theorem send_law (h : s.Law) (payload : Bytes) (isBinary : Bool)
    (hstep : s.step (.send payload isBinary) = some s') : s'.Law := by
  simp only [step] at hstep
  split at hstep
  · rename_i hmode
    cases hstep
    obtain ⟨hnone, hstrand⟩ := h.apart.managed hmode
    have hnoted : Apart { s with sends := s.sends ++ [(payload, isBinary)] } :=
      ⟨h.apart.managed, h.apart.callerOwned, h.apart.flag, h.apart.clearing⟩
    refine h.of_parts
      (enqueue_pumps { s with sends := s.sends ++ [(payload, isBinary)] } (payload, isBinary))
      (enqueue_apart hnoted _) (fun hcaller => ?_) (enqueue_sent fun hopen => ?_)
    · have hmanaged : (PollingWrites.enqueue { s with sends := s.sends ++ [(payload, isBinary)] }
          (payload, isBinary)).mode = .managed := by
        unfold enqueue
        split <;> exact hmode
      rw [hmanaged] at hcaller
      cases hcaller
    · have hsent := h.sent hopen
      rw [hstrand, List.append_nil] at hsent
      show s.accepted ++ (payload, isBinary) :: s.strand = s.sends ++ [(payload, isBinary)]
      rw [hstrand, hsent]
  · rename_i hmode
    cases hstep
    refine h.of_parts (.of_eq rfl)
      ⟨fun hmanaged => absurd (hmode.symm.trans hmanaged) (by decide), h.apart.callerOwned,
        h.apart.flag, h.apart.clearing⟩ h.eager fun hopen => ?_
    · show s.accepted ++ (s.strand ++ [(payload, isBinary)]) = s.sends ++ [(payload, isBinary)]
      rw [← List.append_assoc, h.sent hopen]

theorem strandSend_law (h : s.Law) (hstep : s.step .strandSend = some s') : s'.Law := by
  simp only [step] at hstep
  split at hstep
  · cases hstep
  · rename_i write strand hstrand
    have hmode : s.mode = .callerOwned := by
      cases hmode : s.mode with
      | managed =>
        rw [(h.apart.managed hmode).2] at hstrand
        cases hstrand
      | callerOwned => rfl
    have hpopped : Apart { s with strand } :=
      ⟨fun hmanaged => absurd (hmode.symm.trans hmanaged) (by decide), h.apart.callerOwned,
        h.apart.flag, h.apart.clearing⟩
    cases hstep
    split
    · rename_i hclosing
      exact h.of_closing (.of_eq rfl) hpopped hclosing
    · have hqueued := enqueue_apart hpopped write
      have hcaller : (PollingWrites.enqueue { s with strand } write).mode = .callerOwned := by
        unfold enqueue
        split <;> exact hmode
      refine h.of_parts ((enqueue_pumps { s with strand } write).trans
          (startNextExternalWrite_pumps hqueued hcaller))
        (startNextExternalWrite_apart hqueued hcaller) (startNextExternalWrite_eager _)
        (startNextExternalWrite_sent (enqueue_sent fun hopen => ?_))
      have hsent := h.sent hopen
      rw [hstrand] at hsent
      exact hsent

theorem takeWrite_law (h : s.Law) (hstep : s.step .takeWrite = some s') : s'.Law := by
  simp only [step] at hstep
  split at hstep
  · rename_i hwriter
    have hmode : s.mode ≠ .callerOwned := by
      intro hmode
      rw [h.apart.callerOwned hmode] at hwriter
      cases hwriter
    have hmanaged : s.mode = .managed := by
      cases hm : s.mode with
      | managed => rfl
      | callerOwned => exact absurd hm hmode
    split at hstep
    · rename_i hqueue
      split at hstep
      · rename_i hclosing
        cases hstep
        refine h.of_closing (.of_eq ?_)
          ⟨h.apart.managed, fun _ => rfl, h.apart.flag, h.apart.clearing⟩ hclosing
        simp only [pump, inFlight, hwriter]
        rfl
      · cases hstep
    · rename_i write rest hqueue
      cases hstep
      have hidle : s.pump.inFlight = 0 := by
        show s.externalRequests + s.writer.inFlight = 0
        rw [(h.apart.managed hmanaged).1, hwriter]
        rfl
      have hhand : s.pump.held = none := by
        show s.writer.held = none
        rw [hwriter]
        rfl
      refine h.of_parts (.of_step ?_ (Pump.Step.take s.pump write rest hqueue hhand hidle))
        ⟨h.apart.managed, fun hcaller => absurd hcaller hmode, h.apart.flag, h.apart.clearing⟩
        (fun hcaller => absurd hcaller hmode) h.sent
      simp only [pump, inFlight, hwriter]
      rfl
  · cases hstep

theorem startRequest_law (h : s.Law) (hstep : s.step .startRequest = some s') : s'.Law := by
  simp only [step] at hstep
  split at hstep
  · rename_i write hwriter
    cases hstep
    have hmode : s.mode ≠ .callerOwned := by
      intro hmode
      rw [h.apart.callerOwned hmode] at hwriter
      cases hwriter
    have hhand : s.pump.held = some write := by
      show s.writer.held = some write
      rw [hwriter]
      rfl
    refine h.of_parts (.of_step ?_ (Pump.Step.begin s.pump write hhand))
      ⟨h.apart.managed, fun hcaller => absurd hcaller hmode, h.apart.flag, h.apart.clearing⟩
      (fun hcaller => absurd hcaller hmode) h.sent
    simp only [pump, inFlight, hwriter]
    rfl
  · cases hstep

theorem respond_law (h : s.Law) {success : Bool} (hstep : s.step (.respond success) = some s') :
    s'.Law := by
  simp only [step, respondStep] at hstep
  split at hstep
  · rename_i hmode
    split at hstep
    · rename_i hwriter
      have hdone : Apart { s with writer := .waiting } :=
        ⟨h.apart.managed, fun hcaller => absurd (hmode.symm.trans hcaller) (by decide),
          h.apart.flag, h.apart.clearing⟩
      have hflight : s.pump.inFlight = 0 + 1 := by
        show s.externalRequests + s.writer.inFlight = 1
        rw [(h.apart.managed hmode).1, hwriter]
        rfl
      have hpumps : Pumps s { s with writer := .waiting } := by
        refine .of_step ?_ (Pump.Step.complete s.pump 0 hflight)
        simp only [pump, inFlight, hwriter, (h.apart.managed hmode).1]
        rfl
      cases hstep
      split
      · exact h.of_parts hpumps hdone h.eager h.sent
      · exact h.fail hpumps hdone
    · cases hstep
  · rename_i hmode
    split at hstep
    · cases hstep
    · rename_i hsome
      have hflag : s.externalWriteInProgress = true := by
        cases hflag : s.externalWriteInProgress with
        | true => rfl
        | false =>
          have hnone := h.apart.flag
          rw [hflag] at hnone
          exact absurd hnone hsome
      have hone : s.externalRequests = 1 := by
        rw [h.apart.flag, hflag]
        rfl
      have hdone : Apart { s with
          externalRequests := s.externalRequests - 1, externalWriteInProgress := false } :=
        ⟨fun hmanaged => absurd (hmode.symm.trans hmanaged) (by decide), h.apart.callerOwned,
          (by simp [hone]), h.apart.clearing⟩
      have hflight : s.pump.inFlight = 0 + 1 := by
        show s.externalRequests + s.writer.inFlight = 1
        rw [hone, h.apart.callerOwned hmode]
        rfl
      have hpumps : Pumps s { s with
          externalRequests := s.externalRequests - 1, externalWriteInProgress := false } := by
        refine .of_step ?_ (Pump.Step.complete s.pump 0 hflight)
        simp only [pump, inFlight, hone, h.apart.callerOwned hmode]
        rfl
      cases hstep
      split
      · rename_i hclosing
        exact h.of_closing hpumps hdone hclosing
      · split
        · exact h.of_parts (hpumps.trans (startNextExternalWrite_pumps hdone hmode))
            (startNextExternalWrite_apart hdone hmode) (startNextExternalWrite_eager _)
            (startNextExternalWrite_sent h.sent)
        · exact h.fail hpumps hdone

theorem step_law {a : Action} (h : s.Law) (hstep : s.step a = some s') : s'.Law := by
  cases a with
  | send payload isBinary => exact send_law h payload isBinary hstep
  | strandSend => exact strandSend_law h hstep
  | takeWrite => exact takeWrite_law h hstep
  | startRequest => exact startRequest_law h hstep
  | respond success => exact respond_law h hstep
  | fail =>
    cases hstep
    exact h.fail (.of_eq rfl) h.apart
  | clearQueue =>
    simp only [step] at hstep
    split at hstep
    · rename_i hclearing
      cases hstep
      have hclosing := h.apart.clearing hclearing
      refine h.of_closing (.of_step ?_ (Pump.Step.stop s.pump [] (.inr rfl)))
        ⟨h.apart.managed, h.apart.callerOwned, h.apart.flag, fun hfalse => by cases hfalse⟩ hclosing
      simp only [pump, hclosing]
      rfl
    · cases hstep
  | close =>
    simp only [step] at hstep
    split at hstep
    · cases hstep
      exact h.of_closing (.of_step rfl (Pump.Step.stop s.pump _ (.inl rfl)))
        ⟨h.apart.managed, h.apart.callerOwned, h.apart.flag, fun _ => rfl⟩ rfl
    · cases hstep
      exact h.of_closing (.of_step rfl (Pump.Step.stop s.pump [] (.inr rfl)))
        ⟨h.apart.managed, h.apart.callerOwned, h.apart.flag, fun _ => rfl⟩ rfl

/-- The writes of a transport, in a state of a run. -/
structure Fifo (s : PollingWrites) : Prop where
  /-- Both modes do what one pump does. -/
  refines : Pump.Reachable Write.body s.pump
  /-- The bodies of the requests are, in order, a front part of what was
  accepted: a text as it is, a binary payload in base64. -/
  ordered : s.bodies <+: s.accepted.map fun write =>
    if write.2 = true then pollingEncodeBinary write.1 else write.1
  /-- Until the transport closes or fails, what was sent is posted once, in
  the hand of the writer, queued, or on its way to the queue. -/
  conserved : s.closing = false →
    (s.sends.map fun write => if write.2 = true then pollingEncodeBinary write.1 else write.1)
      = s.bodies ++ (s.writer.held.toList ++ s.writeQueue ++ s.strand).map fun write =>
          if write.2 = true then pollingEncodeBinary write.1 else write.1
  /-- At most one request at a time. -/
  single : s.inFlight ≤ 1
  /-- On a caller-owned `io_context` a write that waits has a request under
  way before it. -/
  eager : s.mode = .callerOwned → s.closing = false → s.writeQueue ≠ [] → s.inFlight = 1

/-- A text is posted as it is, a binary payload in base64. -/
theorem body_eq : Write.body
    = fun write : Write => if write.2 = true then pollingEncodeBinary write.1 else write.1 := rfl

theorem Law.ordered (h : s.Law) : s.Fifo where
  refines := h.reachable
  ordered := body_eq ▸ h.reachable.law.started_prefix
  conserved := by
    intro hopen
    have hpump : s.bodies ++ (s.writer.held.toList ++ s.writeQueue).map Write.body
        = s.accepted.map Write.body := h.reachable.law.conserved hopen
    rw [← body_eq, ← h.sent hopen, List.map_append, List.map_append, ← List.append_assoc, hpump]
  single := by
    have hsingle : s.writer.held.toList.length + s.inFlight ≤ 1 := h.reachable.law.single
    omega
  eager := by
    intro hmode hopen hwaiting
    show s.externalRequests + s.writer.inFlight = 1
    rw [h.apart.callerOwned hmode, h.apart.flag, h.eager hmode hopen hwaiting]
    rfl

/-- **Writes go out in order, one at a time**, in both modes and for every
interleaving of sends and responses. -/
theorem fifo (mode : PollingMode) (as : List Action) (s : PollingWrites)
    (h : run step (start mode) as = some s) : s.Fifo :=
  (run_preserves Law (fun _ _ _ hs hstep => step_law hs hstep) (law_start mode) h).ordered

/-- A header and its attachment, and a text sent while the header is under
way. -/
def threeWrites : List Action :=
  [.send (ascii "451-[]") false, .strandSend, .send [1] true, .send (ascii "4a") false,
   .strandSend, .strandSend, .respond true]

theorem fifo_threeWrites : ∃ s, run step (start .callerOwned) threeWrites = some s ∧
    s.bodies = [ascii "451-[]", ascii "bAQ=="] ∧ s.writeQueue = [(ascii "4a", false)] ∧ s.Fifo :=
  ⟨_, rfl, rfl, rfl, fifo .callerOwned threeWrites _ rfl⟩

end PollingWrites

end Sioxx
