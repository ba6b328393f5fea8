/-
Sioxx.EngineIO.PollingCloseTheorems — the handlers of the transport are
called once.

The call that sets `closing_` owes the handlers their calls. `Told` lists
how far it has come, and `Tells` ties it to the state: which handlers were
called, and what the calls in progress have still to do. One call at most
has a duty.

`Step` has the outcomes of a step one by one, and the laws are case
analyses over it.
-/
import Sioxx.EngineIO.PollingClose

namespace Sioxx

open Lib

namespace PollingClose

/-! ## What a step can do -/

inductive Step (s : PollingClose) : Action → PollingClose → Prop
  | fail (message : Bytes) :
      Step s (.fail message) { s.addCall (.failing message) with made := s.made + 1 }
  | close (joins onStrand joining : Bool)
      (hwho : (s.mode = .managed ∧ joining = joins) ∨
        (s.mode = .callerOwned ∧ onStrand = true ∧ joining = false)) :
      Step s (.close joins onStrand) { s.addCall (.closing joining) with made := s.made + 1 }
  | post (joins : Bool) (hmode : s.mode = .callerOwned) :
      Step s (.close joins false) { s with posted := s.posted + 1, made := s.made + 1 }
  | strandClose (hposted : s.posted ≠ 0) :
      Step s .strandClose { s.addCall (.closing false) with posted := s.posted - 1 }
  | failLate (i : Nat) (throws : Bool) (message : Bytes)
      (hcall : s.calls[i]? = some (.failing message)) (hclosing : s.closing = true) :
      Step s (.call i throws) (s.endCall i)
  | failFirst (i : Nat) (throws : Bool) (message : Bytes)
      (hcall : s.calls[i]? = some (.failing message)) (hopen : s.closing = false) :
      Step s (.call i throws)
        { s.setCall i (.reporting message) with closing := true, winner := some (.fail message) }
  | report (i : Nat) (message : Bytes) (hcall : s.calls[i]? = some (.reporting message)) :
      Step s (.call i false)
        { s.setCall i (.reported message) with errors := s.errors ++ [message] }
  | reportThrows (i : Nat) (message : Bytes) (hcall : s.calls[i]? = some (.reporting message)) :
      Step s (.call i true)
        { s.endCall i with
          errors := s.errors ++ [message], interrupted := s.interrupted + 1 }
  | closeFailed (i : Nat) (throws : Bool) (message : Bytes)
      (hcall : s.calls[i]? = some (.reported message)) :
      Step s (.call i throws) { s.endCall i with closes := s.closes ++ [message] }
  | lock (i : Nat) (throws joins : Bool) (hcall : s.calls[i]? = some (.closing joins))
      (hfree : s.connectMutex = false) :
      Step s (.call i throws) { s.setCall i (.shutdown joins) with connectMutex := true }
  | shutdownAgain (i : Nat) (throws joins : Bool) (hcall : s.calls[i]? = some (.shutdown joins))
      (honce : s.shutdownOnce = true) :
      Step s (.call i throws) (s.setCall i (.unlocking false joins))
  | shutdownLate (i : Nat) (throws joins : Bool) (hcall : s.calls[i]? = some (.shutdown joins))
      (honce : s.shutdownOnce = false) (hclosing : s.closing = true) :
      Step s (.call i throws)
        { s.setCall i (.unlocking false joins) with shutdownOnce := true, closing := true }
  | shutdownFirst (i : Nat) (throws joins : Bool) (hcall : s.calls[i]? = some (.shutdown joins))
      (honce : s.shutdownOnce = false) (hopen : s.closing = false) :
      Step s (.call i throws)
        { s.setCall i (.unlocking true joins) with
          shutdownOnce := true, closing := true, winner := some .close }
  | unlock (i : Nat) (throws joins : Bool)
      (hcall : s.calls[i]? = some (.unlocking true joins)) :
      Step s (.call i throws) { s.setCall i (.notifying joins) with connectMutex := false }
  | unlockJoin (i : Nat) (throws : Bool) (hcall : s.calls[i]? = some (.unlocking false true)) :
      Step s (.call i throws) { s.setCall i .joining with connectMutex := false }
  | unlockReturn (i : Nat) (throws : Bool) (hcall : s.calls[i]? = some (.unlocking false false)) :
      Step s (.call i throws) { s.endCall i with connectMutex := false }
  | notifyJoin (i : Nat) (hcall : s.calls[i]? = some (.notifying true)) :
      Step s (.call i false)
        { s.setCall i .joining with closes := s.closes ++ [ascii "closed"] }
  | notifyReturn (i : Nat) (throws joins : Bool) (hcall : s.calls[i]? = some (.notifying joins))
      (hwhy : throws = true ∨ joins = false) :
      Step s (.call i throws) { s.endCall i with closes := s.closes ++ [ascii "closed"] }
  | lockJoin (i : Nat) (throws : Bool) (hcall : s.calls[i]? = some .joining)
      (hfree : s.connectMutex = false) :
      Step s (.call i throws) { s.setCall i .joined with connectMutex := true }
  | joined (i : Nat) (throws : Bool) (hcall : s.calls[i]? = some .joined) :
      Step s (.call i throws) { s.endCall i with connectMutex := false }

theorem callStep_cases {s s' : PollingClose} {i : Nat} {throws : Bool}
    (hstep : s.callStep i throws = some s') : s.Step (.call i throws) s' := by
  cases hcall : s.calls[i]? with
  | none => simp [callStep, hcall] at hstep
  | some pc =>
    simp only [callStep, hcall] at hstep
    cases pc with
    | failing message =>
      cases hclosing : s.closing with
      | true =>
        simp only [hclosing, if_true] at hstep
        cases hstep
        exact .failLate i throws message hcall hclosing
      | false =>
        simp only [hclosing, Bool.false_eq_true, if_false] at hstep
        cases hstep
        exact .failFirst i throws message hcall hclosing
    | reporting message =>
      cases throws with
      | true =>
        cases hstep
        exact .reportThrows i message hcall
      | false =>
        cases hstep
        exact .report i message hcall
    | reported message =>
      cases hstep
      exact .closeFailed i throws message hcall
    | closing joins =>
      cases hfree : s.connectMutex with
      | true =>
        simp only [hfree, if_true] at hstep
        cases hstep
      | false =>
        simp only [hfree, Bool.false_eq_true, if_false] at hstep
        cases hstep
        exact .lock i throws joins hcall hfree
    | shutdown joins =>
      cases honce : s.shutdownOnce with
      | true =>
        simp only [honce, if_true] at hstep
        cases hstep
        exact .shutdownAgain i throws joins hcall honce
      | false =>
        simp only [honce, Bool.false_eq_true, if_false] at hstep
        cases hclosing : s.closing with
        | true =>
          rw [hclosing] at hstep
          cases hstep
          exact .shutdownLate i throws joins hcall honce hclosing
        | false =>
          rw [hclosing] at hstep
          cases hstep
          exact .shutdownFirst i throws joins hcall honce hclosing
    | unlocking notify joins =>
      cases notify with
      | true =>
        cases hstep
        exact .unlock i throws joins hcall
      | false =>
        cases joins with
        | true =>
          cases hstep
          exact .unlockJoin i throws hcall
        | false =>
          cases hstep
          exact .unlockReturn i throws hcall
    | notifying joins =>
      cases throws with
      | true =>
        cases hstep
        exact .notifyReturn i true joins hcall (.inl rfl)
      | false =>
        cases joins with
        | true =>
          cases hstep
          exact .notifyJoin i hcall
        | false =>
          cases hstep
          exact .notifyReturn i false false hcall (.inr rfl)
    | joining =>
      cases hfree : s.connectMutex with
      | true =>
        simp only [hfree, if_true] at hstep
        cases hstep
      | false =>
        simp only [hfree, Bool.false_eq_true, if_false] at hstep
        cases hstep
        exact .lockJoin i throws hcall hfree
    | joined =>
      cases hstep
      exact .joined i throws hcall

theorem step_cases {s s' : PollingClose} {a : Action} (hstep : s.step a = some s') :
    s.Step a s' := by
  cases a with
  | fail message =>
    cases hstep
    exact .fail message
  | close joins onStrand =>
    simp only [step] at hstep
    split at hstep
    · rename_i hmode
      cases hstep
      exact .close joins onStrand joins (.inl ⟨hmode, rfl⟩)
    · rename_i hmode
      cases onStrand with
      | true =>
        cases hstep
        exact .close joins true false (.inr ⟨hmode, rfl, rfl⟩)
      | false =>
        cases hstep
        exact .post joins hmode
  | strandClose =>
    simp only [step] at hstep
    split at hstep
    · cases hstep
    · rename_i hposted
      cases hstep
      exact .strandClose hposted
  | call i throws => exact callStep_cases hstep

/-! ## What is still to be told -/

/-- How far the transport has come with telling. -/
inductive Told where
  | nothing
  | reporting (message : Bytes)
  | reported (message : Bytes)
  | failed (message : Bytes)
  /-- The error handler threw. -/
  | cut (message : Bytes)
  | closing
  | closed

namespace Told

def winner : Told → Option Winner
  | .nothing => none
  | .reporting m => some (.fail m)
  | .reported m => some (.fail m)
  | .failed m => some (.fail m)
  | .cut m => some (.fail m)
  | .closing => some .close
  | .closed => some .close

/-- The duties of all calls together. -/
def duties : Told → List Duty
  | .reporting m => [.report m]
  | .reported m => [.closeFailed m]
  | .closing => [.close]
  | _ => []

def errors : Told → List Bytes
  | .reported m => [m]
  | .failed m => [m]
  | .cut m => [m]
  | _ => []

def closes : Told → List Bytes
  | .failed m => [m]
  | .closed => [ascii "closed"]
  | _ => []

def interrupted : Told → Nat
  | .cut _ => 1
  | _ => 0

end Told

/-- What a state has told is one of these. -/
structure Tells (s : PollingClose) (told : Told) : Prop where
  closing : s.closing = told.winner.isSome
  winner : s.winner = told.winner
  duties : s.calls.filterMap ClosePc.duty = told.duties
  errors : s.errors = told.errors
  closes : s.closes = told.closes
  interrupted : s.interrupted = told.interrupted
  once : s.shutdownOnce = true → s.closing = true

/-- Until somebody has set `closing_`, every call is before its exchange. -/
def Early (s : PollingClose) : Prop :=
  s.closing = false → s.made = s.calls.length + s.posted ∧ ∀ pc ∈ s.calls, pc.early = true

/-! ## The duties of the calls -/

section Duties

variable {calls : List ClosePc} {i : Nat} {pc : ClosePc} (h : calls[i]? = some pc)

include h in
/-- The first duty of all. -/
theorem duties_first (hpc : pc.duty = none) (hnone : calls.filterMap ClosePc.duty = [])
    (next : ClosePc) : (calls.set i next).filterMap ClosePc.duty = next.duty.toList := by
  obtain ⟨p, q, hall, hset, -⟩ := pool_filterMap ClosePc.duty h
  rw [hnone, hpc] at hall
  simp only [Option.toList_none, List.append_nil] at hall
  obtain ⟨rfl, rfl⟩ := List.append_eq_nil_iff.mp hall.symm
  rw [hset, List.nil_append, List.append_nil]

include h in
/-- A call with a duty, when there is at most one. -/
theorem duties_only {duty : Duty} (hpc : pc.duty = some duty)
    (hone : (calls.filterMap ClosePc.duty).length ≤ 1) :
    calls.filterMap ClosePc.duty = [duty] ∧
      (∀ next : ClosePc, (calls.set i next).filterMap ClosePc.duty = next.duty.toList) ∧
      (calls.eraseIdx i).filterMap ClosePc.duty = [] := by
  obtain ⟨p, q, hall, hset, herase⟩ := pool_filterMap ClosePc.duty h
  rw [hpc] at hall
  rw [hall] at hone
  simp only [Option.toList_some, List.length_append, List.length_singleton] at hone
  have hp : p = [] := List.eq_nil_of_length_eq_zero (by omega)
  have hq : q = [] := List.eq_nil_of_length_eq_zero (by omega)
  subst hp hq
  refine ⟨by rw [hall]; rfl, fun next => ?_, by rw [herase]; rfl⟩
  rw [hset, List.nil_append, List.append_nil]

end Duties

theorem Told.duties_length (told : Told) : told.duties.length ≤ 1 := by
  cases told <;> simp [Told.duties]

theorem Told.eq_nothing {told : Told} (h : told.winner.isSome = false) : told = .nothing := by
  cases told <;> simp [Told.winner] at h ⊢

variable {s s' : PollingClose} {told : Told}

/-- A step that tells nothing. -/
theorem Tells.quiet (h : s.Tells told) (hclosing : s'.closing = s.closing)
    (hwinner : s'.winner = s.winner)
    (hduties : s'.calls.filterMap ClosePc.duty = s.calls.filterMap ClosePc.duty)
    (herrors : s'.errors = s.errors) (hcloses : s'.closes = s.closes)
    (hinterrupted : s'.interrupted = s.interrupted)
    (honce : s'.shutdownOnce = true → s'.closing = true) : s'.Tells told where
  closing := hclosing.trans h.closing
  winner := hwinner.trans h.winner
  duties := hduties.trans h.duties
  errors := herrors.trans h.errors
  closes := hcloses.trans h.closes
  interrupted := hinterrupted.trans h.interrupted
  once := honce

/-- A call with a duty has the only one there is. -/
theorem Tells.only (h : s.Tells told) {i : Nat} {pc : ClosePc} {duty : Duty}
    (hcall : s.calls[i]? = some pc) (hpc : pc.duty = some duty) :
    told.duties = [duty] ∧
      (∀ next : ClosePc, (s.calls.set i next).filterMap ClosePc.duty = next.duty.toList) ∧
      (s.calls.eraseIdx i).filterMap ClosePc.duty = [] := by
  have hone : (s.calls.filterMap ClosePc.duty).length ≤ 1 := by
    rw [h.duties]
    exact told.duties_length
  obtain ⟨hall, hset, herase⟩ := duties_only hcall hpc hone
  exact ⟨h.duties.symm.trans hall, hset, herase⟩

/-- Before the first exchange nothing was told. -/
theorem Tells.nothing (h : s.Tells told) (hopen : s.closing = false) : told = .nothing := by
  refine Told.eq_nothing ?_
  rw [← h.closing]
  exact hopen

/-- A step of a call that keeps its duty. -/
theorem Tells.goOn (h : s.Tells told) {i : Nat} {pc : ClosePc} (hcall : s.calls[i]? = some pc)
    (next : ClosePc) (hnext : next.duty = pc.duty) (connectMutex : Bool) :
    Tells { s.setCall i next with connectMutex } told :=
  h.quiet rfl rfl ((pool_filterMap_same ClosePc.duty hcall).1 next hnext) rfl rfl rfl h.once

/-- A call without a duty returns. -/
theorem Tells.returns (h : s.Tells told) {i : Nat} {pc : ClosePc} (hcall : s.calls[i]? = some pc)
    (hpc : pc.duty = none) (connectMutex : Bool) :
    Tells { s.endCall i with connectMutex } told :=
  h.quiet rfl rfl ((pool_filterMap_same ClosePc.duty hcall).2 hpc) rfl rfl rfl h.once

theorem Tells.add (h : s.Tells told) {pc : ClosePc} (hpc : pc.duty = none) (made posted : Nat) :
    Tells { s.addCall pc with made, posted } told := by
  refine h.quiet rfl rfl ?_ rfl rfl rfl h.once
  simp [addCall, hpc]

theorem Tells.reporting (h : s.Tells told) {i : Nat} {message : Bytes}
    (hcall : s.calls[i]? = some (.reporting message)) :
    told = .reporting message ∧ s.errors = [] ∧ s.interrupted = 0 ∧
      (∀ next : ClosePc, (s.calls.set i next).filterMap ClosePc.duty = next.duty.toList) ∧
      (s.calls.eraseIdx i).filterMap ClosePc.duty = [] := by
  obtain ⟨hduties, hset, herase⟩ := h.only hcall rfl
  obtain rfl : told = .reporting message := by
    cases told <;> simp [Told.duties] at hduties ⊢
    exact hduties
  exact ⟨rfl, h.errors, h.interrupted, hset, herase⟩

theorem Tells.reported (h : s.Tells told) {i : Nat} {message : Bytes}
    (hcall : s.calls[i]? = some (.reported message)) :
    told = .reported message ∧ s.closes = [] ∧
      (s.calls.eraseIdx i).filterMap ClosePc.duty = [] := by
  obtain ⟨hduties, -, herase⟩ := h.only hcall rfl
  obtain rfl : told = .reported message := by
    cases told <;> simp [Told.duties] at hduties ⊢
    exact hduties
  exact ⟨rfl, h.closes, herase⟩

theorem Tells.notifying (h : s.Tells told) {i : Nat} {joins : Bool}
    (hcall : s.calls[i]? = some (.notifying joins)) :
    told = .closing ∧ s.closes ++ [ascii "closed"] = [ascii "closed"] ∧
      (∀ next : ClosePc, (s.calls.set i next).filterMap ClosePc.duty = next.duty.toList) ∧
      (s.calls.eraseIdx i).filterMap ClosePc.duty = [] := by
  obtain ⟨hduties, hset, herase⟩ := h.only hcall rfl
  obtain rfl : told = .closing := by
    cases told <;> simp [Told.duties] at hduties ⊢
  refine ⟨rfl, ?_, hset, herase⟩
  rw [h.closes]
  rfl

theorem step_tells {a : Action} (h : s.Tells told) (hstep : s.step a = some s') :
    ∃ told', s'.Tells told' := by
  cases step_cases hstep with
  | fail | close | strandClose => exact ⟨told, h.add rfl _ _⟩
  | post => exact ⟨told, h.quiet rfl rfl rfl rfl rfl rfl h.once⟩
  | failLate i throws message hcall => exact ⟨told, h.returns hcall rfl _⟩
  | failFirst i throws message hcall hopen =>
    obtain rfl := h.nothing hopen
    exact ⟨.reporting message, rfl, rfl, duties_first hcall rfl h.duties _, h.errors, h.closes,
      h.interrupted, fun _ => rfl⟩
  | report i message hcall =>
    obtain ⟨rfl, herrors, -, hset, -⟩ := h.reporting hcall
    refine ⟨.reported message, h.closing, h.winner, hset _, ?_, h.closes, h.interrupted, h.once⟩
    show s.errors ++ [message] = [message]
    rw [herrors, List.nil_append]
  | reportThrows i message hcall =>
    obtain ⟨rfl, herrors, hinterrupted, -, herase⟩ := h.reporting hcall
    refine ⟨.cut message, h.closing, h.winner, herase, ?_, h.closes, ?_, h.once⟩
    · show s.errors ++ [message] = [message]
      rw [herrors, List.nil_append]
    · show s.interrupted + 1 = 1
      rw [hinterrupted]
  | closeFailed i throws message hcall =>
    obtain ⟨rfl, hcloses, herase⟩ := h.reported hcall
    refine ⟨.failed message, h.closing, h.winner, herase, h.errors, ?_, h.interrupted, h.once⟩
    show s.closes ++ [message] = [message]
    rw [hcloses, List.nil_append]
  | lock i throws joins hcall => exact ⟨told, h.goOn hcall (.shutdown joins) rfl true⟩
  | lockJoin i throws hcall => exact ⟨told, h.goOn hcall .joined rfl true⟩
  | shutdownAgain i throws joins hcall =>
    exact ⟨told, h.goOn hcall (.unlocking false joins) rfl s.connectMutex⟩
  | shutdownLate i throws joins hcall honce hclosing =>
    have hduties := (pool_filterMap_same ClosePc.duty hcall).1 (.unlocking false joins) rfl
    exact ⟨told, h.quiet hclosing.symm rfl hduties rfl rfl rfl fun _ => rfl⟩
  | shutdownFirst i throws joins hcall honce hopen =>
    obtain rfl := h.nothing hopen
    exact ⟨.closing, rfl, rfl, duties_first hcall rfl h.duties _, h.errors, h.closes,
      h.interrupted, fun _ => rfl⟩
  | unlock i throws joins hcall => exact ⟨told, h.goOn hcall (.notifying joins) rfl false⟩
  | unlockJoin i throws hcall => exact ⟨told, h.goOn hcall .joining rfl false⟩
  | unlockReturn i throws hcall | joined i throws hcall =>
    exact ⟨told, h.returns hcall rfl false⟩
  | notifyJoin i hcall =>
    obtain ⟨rfl, hcloses, hset, -⟩ := h.notifying hcall
    exact ⟨.closed, h.closing, h.winner, hset _, h.errors, hcloses, h.interrupted, h.once⟩
  | notifyReturn i throws joins hcall =>
    obtain ⟨rfl, hcloses, -, herase⟩ := h.notifying hcall
    exact ⟨.closed, h.closing, h.winner, herase, h.errors, hcloses, h.interrupted, h.once⟩

/-! ## Calls before their exchange -/

/-- `closing_` is never cleared, and who set it is settled. -/
theorem step_winner {a : Action} (hclosing : s.closing = true)
    (hstep : s.step a = some s') : s'.closing = true ∧ s'.winner = s.winner := by
  cases step_cases hstep with
  | failFirst i throws message hcall hopen | shutdownFirst i throws joins hcall honce hopen =>
    rw [hclosing] at hopen
    cases hopen
  | shutdownLate => exact ⟨rfl, rfl⟩
  | _ => exact ⟨hclosing, rfl⟩

theorem Early.add (hearly : s.Early) {pc : ClosePc} (hpc : pc.early = true) {made posted : Nat}
    (hsum : made = s.made + 1 ∧ posted = s.posted ∨ made = s.made ∧ s.posted = posted + 1) :
    Early { s.addCall pc with made, posted } := by
  intro hopen
  obtain ⟨hmade, hall⟩ := hearly hopen
  refine ⟨?_, fun pc' hmem => ?_⟩
  · show made = (s.calls ++ [pc]).length + posted
    rw [List.length_append, List.length_singleton]
    omega
  · rcases List.mem_append.mp hmem with hmem | hmem
    · exact hall pc' hmem
    · rw [List.mem_singleton.mp hmem]
      exact hpc

/-- A call goes on before its exchange. -/
theorem Early.goOn (hearly : s.Early) {i : Nat} {next : ClosePc} (hnext : next.early = true)
    (connectMutex : Bool) : Early { s.setCall i next with connectMutex } := by
  intro hopen
  obtain ⟨hmade, hall⟩ := hearly hopen
  refine ⟨by simpa [setCall] using hmade, fun pc hmem => ?_⟩
  rcases List.mem_or_eq_of_mem_set hmem with hmem | rfl
  · exact hall pc hmem
  · exact hnext

/-- A call past its exchange shows that `closing_` is set. -/
theorem Early.past (hearly : s.Early) {i : Nat} {pc : ClosePc} (hcall : s.calls[i]? = some pc)
    (hpc : pc.early = false) (hopen : s.closing = false) : False := by
  have hearly := (hearly hopen).2 pc (List.mem_of_getElem? hcall)
  rw [hpc] at hearly
  cases hearly

/-- Before the first exchange no call returns. -/
theorem step_early {a : Action} (h : s.Tells told) (hearly : s.Early)
    (hstep : s.step a = some s') : s'.Early := by
  cases step_cases hstep with
  | fail | close => exact hearly.add rfl (.inl ⟨rfl, rfl⟩)
  | post =>
    intro hopen
    obtain ⟨hmade, hall⟩ := hearly hopen
    refine ⟨?_, hall⟩
    show s.made + 1 = s.calls.length + (s.posted + 1)
    omega
  | strandClose hposted => exact hearly.add rfl (.inr ⟨rfl, by omega⟩)
  | lock => exact hearly.goOn rfl true
  | failLate i throws message hcall hclosing =>
    intro hopen
    rw [show s.closing = false from hopen] at hclosing
    cases hclosing
  | shutdownAgain i throws joins hcall honce =>
    intro hopen
    have hclosing := h.once honce
    rw [show s.closing = false from hopen] at hclosing
    cases hclosing
  | failFirst | shutdownFirst | shutdownLate =>
    intro hopen
    cases hopen
  | _ =>
    intro hopen
    exact (hearly.past ‹_› rfl hopen).elim

/-! ## Every run -/

/-- What every state has. -/
structure Law (s : PollingClose) : Prop where
  tells : ∃ told, s.Tells told
  early : s.Early

theorem law_start (mode : PollingMode) : (start mode).Law where
  tells := ⟨.nothing, rfl, rfl, rfl, rfl, rfl, rfl, fun h => by cases h⟩
  early := fun _ => ⟨rfl, fun _ h => by cases h⟩

theorem Law.step {a : Action} (h : s.Law) (hstep : s.step a = some s') : s'.Law := by
  obtain ⟨told, htold⟩ := h.tells
  exact ⟨step_tells htold hstep, step_early htold h.early hstep⟩

/-- After a `close` has won, the error handler is not called. -/
theorem Law.close_wins {as : List Action} (h : s.Law) (hwinner : s.winner = some .close)
    (hrun : run PollingClose.step s as = some s') : s'.errors = [] := by
  have hlast : s'.Law ∧ s'.winner = some .close := by
    refine run_preserves (fun s => s.Law ∧ s.winner = some .close) ?_ ⟨h, hwinner⟩ hrun
    rintro x a y ⟨hx, hxw⟩ hstep
    obtain ⟨told, htold⟩ := hx.tells
    have hclosing : x.closing = true := by
      rw [htold.closing, ← htold.winner, hxw]
      rfl
    exact ⟨hx.step hstep, (step_winner hclosing hstep).2.trans hxw⟩
  obtain ⟨told, htold⟩ := hlast.1.tells
  rw [htold.errors]
  have hclose := htold.winner.symm.trans hlast.2
  cases told <;> simp [Told.winner, Told.errors] at hclose ⊢

/-- What the handlers of the transport see. -/
structure NotifiesOnce (s : PollingClose) : Prop where
  closeAtMostOnce : s.closes.length ≤ 1
  errorAtMostOnce : s.errors.length ≤ 1
  /-- When every call has returned, and none was cut short by the error
  handler, the close handler has been called. -/
  closeOnce : 0 < s.made → s.calls = [] → s.posted = 0 → s.interrupted = 0 → s.closes.length = 1
  /-- The error handler was called by the `fail` that set `closing_`, and the
  close handler gets the same message. -/
  errorOfWinner : ∀ m ∈ s.errors, s.winner = some (.fail m) ∧ ∀ m' ∈ s.closes, m' = m
  /-- If a `close` set it, the error handler is never called. -/
  closeWins : s.winner = some .close → ∀ as s', run step s as = some s' → s'.errors = []

theorem Law.tellsOnce (h : s.Law) : s.NotifiesOnce := by
  obtain ⟨told, htold⟩ := h.tells
  refine ⟨?_, ?_, ?_, ?_, fun hwinner as s' hrun => h.close_wins hwinner hrun⟩
  · rw [htold.closes]
    cases told <;> simp [Told.closes]
  · rw [htold.errors]
    cases told <;> simp [Told.errors]
  · intro hmade hcalls hposted hinterrupted
    have hclosing : s.closing = true := by
      cases hclosing : s.closing with
      | true => rfl
      | false =>
        obtain ⟨hsum, -⟩ := h.early hclosing
        rw [hcalls, hposted] at hsum
        simp at hsum
        omega
    have hduties := htold.duties
    rw [hcalls] at hduties
    rw [htold.interrupted] at hinterrupted
    rw [htold.closing] at hclosing
    rw [htold.closes]
    cases told <;>
      simp [Told.duties, Told.interrupted, Told.winner, Told.closes]
        at hduties hinterrupted hclosing ⊢
  · intro m hm
    rw [htold.errors] at hm
    rw [htold.winner, htold.closes]
    cases told <;> simp [Told.errors, Told.winner, Told.closes] at hm ⊢
    all_goals exact hm.symm

/-- **The closure is told once**, for any number of calls in any
interleaving, in both modes. -/
theorem notifiesOnce (mode : PollingMode) (as : List Action) (s : PollingClose)
    (h : run step (start mode) as = some s) : s.NotifiesOnce :=
  (run_preserves Law (fun _ _ _ hs hstep => hs.step hstep) (law_start mode) h).tellsOnce

/-- The poll fails while a write fails and the application closes. -/
def threeEnds : List Action :=
  [.fail (ascii "poll"), .fail (ascii "write"), .close true false, .call 2 false, .call 1 false,
   .call 0 false, .call 1 false, .call 1 false, .call 0 false, .call 0 false, .call 0 false,
   .call 0 false]

theorem notifiesOnce_threeEnds : ∃ s, run step (start .managed) threeEnds = some s ∧
    s.calls = [] ∧ s.errors = [ascii "write"] ∧ s.closes = [ascii "write"] ∧ s.NotifiesOnce :=
  ⟨_, rfl, rfl, rfl, rfl, notifiesOnce .managed threeEnds _ rfl⟩

end PollingClose

end Sioxx
