/-
Sioxx.Client.ReconnectTheorems — when the reconnect protocol counts
consecutive failures.

The counter `reconnect_attempts_used_` is reset by `connect()` alone, so it
agrees with the attempts since the last open until an open follows an
attempt, and never after (`Counted`). The listeners are told the right
numbers exactly in the runs in which no close notification comes after
that.
-/
import Sioxx.Client.Reconnect

namespace Sioxx

open Lib

namespace Reconnector

variable {opts : ReconnectOptions} {s s' : Reconnector}

/-! ## The retry budget -/

/-- The counter against the attempts since the last open. -/
structure Counted (s : Reconnector) : Prop where
  agrees : s.recovered = false → s.reconnectAttemptsUsed = s.since
  ahead : s.recovered = true → (s.since : Int) < s.reconnectAttemptsUsed

theorem counted_init : Counted {} := ⟨fun _ => rfl, fun h => by cases h⟩

theorem restart_counted : s.restart.Counted := ⟨fun _ => rfl, fun h => by cases h⟩

/-- Steps that leave counter, history and log alone. -/
def SameCount (s s' : Reconnector) : Prop :=
  s'.reconnectAttemptsUsed = s.reconnectAttemptsUsed ∧ s'.since = s.since ∧
    s'.recovered = s.recovered ∧ s'.calls = s.calls

/-- What a step does to them: a close notification, the store in
`connect()`, an open, or nothing. -/
theorem step_count {a : ReconnectAction} (h : s.step opts a = some s') :
    (∃ host sample, a = .closed host sample ∧ s' = s.onEngineioClose opts host sample) ∨
    (∃ s₀, s'.SameCount s₀ ∧ (∀ host sample, a ≠ .closed host sample) ∧
      (s₀ = s ∨ s₀ = s.restart ∨
        s₀ = { s with since := 0, recovered := s.recovered || decide (0 < s.since) })) := by
  cases a with
  | closed host sample =>
    simp only [step] at h
    split at h <;> cases h
    exact .inl ⟨host, sample, rfl, rfl⟩
  | opened => exact .inr ⟨_, ⟨rfl, rfl, rfl, rfl⟩, by simp, .inr (.inr (Option.some.inj h).symm)⟩
  | store k =>
    refine .inr ⟨s.restart, ?_, by simp, .inr (.inl rfl)⟩
    simp only [step] at h
    split at h <;> cases h
    exact ⟨rfl, rfl, rfl, rfl⟩
  | connect host | syncClose host =>
    refine .inr ⟨s, ?_, by simp, .inl rfl⟩
    simp only [step] at h
    split at h <;> cases h
    exact ⟨rfl, rfl, rfl, rfl⟩
  | stopLock k =>
    refine .inr ⟨s, ?_, by simp, .inl rfl⟩
    simp only [step] at h
    split at h
    · split at h
      · split at h
        · cases h
          exact ⟨rfl, rfl, rfl, rfl⟩
        · split at h <;> cases h <;> exact ⟨rfl, rfl, rfl, rfl⟩
      · cases h
    · cases h
  | scheduleLock i =>
    refine .inr ⟨s, ?_, by simp, .inl rfl⟩
    simp only [step] at h
    split at h
    · split at h
      · split at h
        · cases h
          exact ⟨rfl, rfl, rfl, rfl⟩
        · split at h
          · cases h
            exact ⟨rfl, rfl, rfl, rfl⟩
          · split at h <;> cases h <;> exact ⟨rfl, rfl, rfl, rfl⟩
      · cases h
    · cases h
  | scheduleJoined i | stopJoined k =>
    refine .inr ⟨s, ?_, by simp, .inl rfl⟩
    simp only [step] at h
    split at h
    · split at h <;> cases h
      exact ⟨rfl, rfl, rfl, rfl⟩
    · cases h
  | close =>
    cases h
    exact .inr ⟨s, ⟨rfl, rfl, rfl, rfl⟩, by simp, .inl rfl⟩
  | workerLock w | workerWake w | workerRelock w | workerFinish w =>
    refine .inr ⟨s, ?_, by simp, .inl rfl⟩
    simp only [step] at h
    split at h <;> cases h
    exact ⟨rfl, rfl, rfl, rfl⟩

theorem Counted.same {s₀ : Reconnector} (hc : s₀.Counted) (h : s'.SameCount s₀) : s'.Counted := by
  obtain ⟨hused, hsince, hrecovered, -⟩ := h
  refine ⟨fun hr => ?_, fun hr => ?_⟩
  · rw [← hused, ← hsince]
    exact hc.agrees (hrecovered.trans hr)
  · rw [← hused, ← hsince]
    exact hc.ahead (hrecovered.trans hr)

theorem onEngineioClose_counted (hc : s.Counted) (host : Option Nat) (sample : ℚ) :
    (s.onEngineioClose opts host sample).Counted := by
  obtain ⟨hagrees, hahead⟩ := hc
  unfold onEngineioClose scheduleReconnect
  split_ifs
  · exact ⟨hagrees, hahead⟩
  · refine ⟨fun hr => ?_, fun hr => ?_⟩
    · have := hagrees hr
      simp only [Nat.cast_add, Nat.cast_one]
      omega
    · have := hahead hr
      simp only [Nat.cast_add, Nat.cast_one]
      omega
  · exact ⟨hagrees, hahead⟩

theorem step_counted {a : ReconnectAction} (hc : s.Counted) (h : s.step opts a = some s') :
    s'.Counted := by
  rcases step_count h with ⟨host, sample, -, rfl⟩ | ⟨s₀, hsame, -, hcase⟩
  · exact onEngineioClose_counted hc host sample
  · refine Counted.same ?_ hsame
    rcases hcase with rfl | rfl | rfl
    · exact hc
    · exact restart_counted
    · -- an open: the counter falls behind if an attempt came before it
      obtain ⟨hagrees, hahead⟩ := hc
      refine ⟨fun hr => ?_, fun hr => ?_⟩ <;> grind

/-- The calls of the listeners that do not count consecutive failures. -/
def miscounts (opts : ReconnectOptions) (s : Reconnector) : Nat :=
  s.calls.countP fun c => !decide (c.Consecutive opts)

/-- The call that a close notification makes, if any. -/
theorem onEngineioClose_calls (s : Reconnector) (host : Option Nat) (sample : ℚ) :
    (s.onEngineioClose opts host sample).calls =
      if s.intentionalClose = false ∧ opts.reconnectAttempts > 0 then
        if s.reconnectAttemptsUsed ≥ opts.reconnectAttempts then s.calls ++ [.fail s.since]
        else
          s.calls ++ [.reconnect s.reconnectAttemptsUsed
            (reportedDelay opts (s.reconnectAttemptsUsed + 1) sample) sample s.since]
      else s.calls := by
  unfold onEngineioClose scheduleReconnect
  split_ifs <;> rfl

/-- The counter never passes the budget. -/
def WithinBudget (opts : ReconnectOptions) (s : Reconnector) : Prop :=
  s.reconnectAttemptsUsed ≤ max 0 opts.reconnectAttempts

theorem step_withinBudget {a : ReconnectAction} (hb : s.WithinBudget opts)
    (h : s.step opts a = some s') : s'.WithinBudget opts := by
  unfold WithinBudget at *
  rcases step_count h with ⟨host, sample, -, rfl⟩ | ⟨s₀, ⟨hused, -, -, -⟩, -, hcase⟩
  · unfold onEngineioClose scheduleReconnect
    split_ifs <;> grind
  · rw [← hused]
    rcases hcase with rfl | rfl | rfl
    · exact hb
    · exact le_max_left 0 _
    · exact hb

theorem miscounts_keep {a : ReconnectAction} (hc : s.Counted) (hb : s.WithinBudget opts)
    (h : s.step opts a = some s') (hn : s.NotRecovered opts a) :
    s'.miscounts opts = s.miscounts opts := by
  rcases step_count h with ⟨host, sample, rfl, rfl⟩ | ⟨s₀, ⟨-, -, -, hcalls⟩, -, hcase⟩
  · unfold miscounts
    rw [onEngineioClose_calls]
    split_ifs with hgo hfail
    · have hagrees := hc.agrees (by rcases hn with h1 | h1 | h1 <;> grind)
      have hright : ListenerCall.Consecutive opts (.fail s.since) := by
        unfold WithinBudget at hb
        show (s.since : Int) = _
        omega
      simp [hright]
    · have hagrees := hc.agrees (by rcases hn with h1 | h1 | h1 <;> grind)
      have hright : ListenerCall.Consecutive opts (.reconnect s.reconnectAttemptsUsed
          (reportedDelay opts (s.reconnectAttemptsUsed + 1) sample) sample s.since) :=
        ⟨hagrees, rfl⟩
      simp [hright]
    · rfl
  · unfold miscounts
    rw [← hcalls]
    rcases hcase with rfl | rfl | rfl <;> rfl

theorem miscounts_bump {a : ReconnectAction} (hc : s.Counted) (hb : s.WithinBudget opts)
    (h : s.step opts a = some s') (hn : ¬ s.NotRecovered opts a) :
    s.miscounts opts < s'.miscounts opts := by
  rcases step_count h with ⟨host, sample, rfl, rfl⟩ | ⟨-, -, hnot, -⟩
  · simp only [NotRecovered, not_or, Bool.not_eq_true, Bool.not_eq_false, not_le] at hn
    obtain ⟨hopen, hbudget, hrecovered⟩ := hn
    have hahead := hc.ahead hrecovered
    unfold miscounts
    rw [onEngineioClose_calls, if_pos ⟨hopen, hbudget⟩]
    split_ifs
    · have hwrong : ¬ ListenerCall.Consecutive opts (.fail s.since) := by
        unfold WithinBudget at hb
        show ¬ (s.since : Int) = _
        omega
      simp [hwrong]
    · have hwrong : ¬ ListenerCall.Consecutive opts (.reconnect s.reconnectAttemptsUsed
          (reportedDelay opts (s.reconnectAttemptsUsed + 1) sample) sample s.since) := by
        rintro ⟨heq, -⟩
        omega
      simp [hwrong]
  · exact absurd (by cases a <;> simp_all [NotRecovered]) hn

/-- **When the retry budget counts consecutive failures.** Every call of
the reconnect and fail listeners does, exactly if no close notification
that can schedule a retry comes after an attempt was followed by an open
since the last `connect()`. -/
theorem consecutive_iff {as : List ReconnectAction} (h : run (step opts) {} as = some s) :
    (∀ c ∈ s.calls, c.Consecutive opts) ↔ Meets (step opts) (NotRecovered opts) {} as := by
  have hcount := meets_iff_count (C := NotRecovered opts)
    (fun s => s.Counted ∧ s.WithinBudget opts) (miscounts opts)
    (fun _ _ _ hi hs => ⟨step_counted hi.1 hs, step_withinBudget hi.2 hs⟩)
    (fun _ _ _ hi hs hn => miscounts_keep hi.1 hi.2 hs hn)
    (fun _ _ _ hi hs hn => miscounts_bump hi.1 hi.2 hs hn)
    as {} s ⟨counted_init, le_max_left 0 _⟩ h
  rw [hcount]
  show _ ↔ s.miscounts opts = 0
  simp [miscounts, List.countP_eq_zero]

/-- A drop, a failed attempt, another drop: the two attempts are counted. -/
theorem consecutive_iff_twoFailures :
    ∃ s, run (step { reconnectAttempts := 2 }) {}
        [.connect none, .store 0, .closed none 0, .scheduleLock 0, .workerLock 0, .workerWake 0,
          .workerRelock 0 true, .workerFinish 0, .closed none 1, .closed none 0] = some s ∧
      s.calls.length = 3 ∧
      ((∀ c ∈ s.calls, c.Consecutive { reconnectAttempts := 2 }) ↔
        Meets (step { reconnectAttempts := 2 }) (NotRecovered { reconnectAttempts := 2 }) {}
          [.connect none, .store 0, .closed none 0, .scheduleLock 0, .workerLock 0, .workerWake 0,
            .workerRelock 0 true, .workerFinish 0, .closed none 1, .closed none 0]) :=
  ⟨_, rfl, rfl, @consecutive_iff _ _ _ rfl⟩

/-- One retry is allowed. The first drop is recovered from, and at the
second one the fail listener is called although nothing has failed since. -/
theorem recoveredDrop_miscounted :
    ∃ s, run (step { reconnectAttempts := 1 }) {}
        [.connect none, .store 0, .opened, .closed none 0, .scheduleLock 0, .workerLock 0,
          .workerWake 0, .workerRelock 0 true, .workerFinish 0, .opened, .closed none 0] = some s ∧
      ListenerCall.fail 0 ∈ s.calls ∧
      ¬ ∀ c ∈ s.calls, c.Consecutive { reconnectAttempts := 1 } :=
  ⟨_, rfl, by decide +kernel, by decide +kernel⟩

end Reconnector

end Sioxx
