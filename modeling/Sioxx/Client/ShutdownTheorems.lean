/-
Sioxx.Client.ShutdownTheorems — what is left of a replacement after
`close()`.

Two of the three things `close()` promises hold in every interleaving
(`run_coherent`): the installed engine is closing, because a replacement
is installed before `close()` selects or not at all; and nothing is
installed afterwards. The third, that no transport `connect()` starting
later takes effect, can fail: the replacing thread may be past the check
of `open()` when `close()` returns, and a transport whose `close()` was
only posted still lets it through. `closeWins_iff` says that this is the
only way.
-/
import Sioxx.Client.Shutdown

namespace Sioxx

open Lib

namespace Shutdown

/-- Once `close()` has returned, the installed engine is closing, no engine
has been installed since, and no transport `connect()` that started since
has taken effect. -/
def CloseWins (m : Shutdown) : Prop :=
  m.closer = .returned → (∀ e, m.current = some e → (m.engines e).closing = true) ∧
    m.installsAfter = 0 ∧ m.lateConnects = 0

/-- When `close()` returns, the replacing thread is not between the check
of `open()` and its call of `connect()` on a transport whose `close()` is
still waiting on the strand. -/
def Stopped (m : Shutdown) (a : Action) : Prop :=
  a = .closeReturn → ∀ e, m.replacer = .opened e → (m.engines e).closePosted = false

/-! ## The invariant -/

/-- How far the closing thread has got with the engine of the replacing
thread. -/
def Reached (closer : Closer) (engine : Engine) : Prop :=
  match closer with
  | .idle | .stored | .selected _ =>
    engine.closing = false ∧ engine.transportClosing = false ∧ engine.closePosted = false
  | .claimed _ =>
    engine.closing = true ∧ engine.transportClosing = false ∧ engine.closePosted = false
  | .returning | .returned =>
    engine.closing = true ∧ engine.transportClosing = !engine.closePosted

structure Coherent (m : Shutdown) : Prop where
  stored : m.closer ≠ .idle → m.intentionalClose = true
  selected : ∀ e, m.closer = .selected e ∨ m.closer = .claimed e → m.current = some e
  claimed : ∀ e, m.closer = .claimed e → (m.engines e).closing = true
  finished : m.closer = .returning ∨ m.closer = .returned →
    ∀ e, m.current = some e → (m.engines e).closing = true
  own : ∀ e, m.replacer.engine = some e → m.current = some e ∧ Reached m.closer (m.engines e)
  /-- A late call of `connect()` finds its transport closing. -/
  late : ∀ e, m.replacer = .connecting e true → (m.engines e).transportClosing = true
  /-- So will one that is still to come. -/
  stopped : m.closer = .returned → ∀ e, m.replacer = .opened e →
    (m.engines e).transportClosing = true
  installs : m.installsAfter = 0
  connects : m.lateConnects = 0

theorem coherent_start (external usingPolling : Bool) (engine : Option Engine) (fallback : Bool) :
    (start external usingPolling engine fallback).Coherent := by
  have hengine : (start external usingPolling engine fallback).replacer.engine = none := by
    cases fallback <;> rfl
  constructor
  · intro h; exact absurd rfl h
  · rintro e (h | h) <;> cases h
  · intro e h; cases h
  · rintro (h | h) <;> cases h
  · intro e h
    rw [hengine] at h
    cases h
  · intro e h
    cases fallback <;> cases h
  · intro h; cases h
  · rfl
  · rfl

theorem Coherent.closeWins {m : Shutdown} (hm : m.Coherent) : m.CloseWins :=
  fun h => ⟨hm.finished (.inr h), hm.installs, hm.connects⟩

/-! ## Steps of the closing thread -/

/-- A change of the closing thread alone, when it has begun. -/
theorem Coherent.advance {m : Shutdown} (hm : m.Coherent) (closer : Closer)
    (hclosed : m.intentionalClose = true)
    (hselected : ∀ e, closer = .selected e ∨ closer = .claimed e → m.current = some e)
    (hclaimed : ∀ e, closer = .claimed e → (m.engines e).closing = true)
    (hfinished : closer = .returning ∨ closer = .returned →
      ∀ e, m.current = some e → (m.engines e).closing = true)
    (hown : ∀ e, m.replacer.engine = some e → Reached closer (m.engines e))
    (hstopped : closer = .returned → ∀ e, m.replacer = .opened e →
      (m.engines e).transportClosing = true) : Coherent { m with closer } where
  stored _ := hclosed
  selected := hselected
  claimed := hclaimed
  finished := hfinished
  own e h := ⟨(hm.own e h).1, hown e h⟩
  late := hm.late
  stopped := hstopped
  installs := hm.installs
  connects := hm.connects

theorem closeStore_coherent {m : Shutdown} (hm : m.Coherent) (hidle : m.closer = .idle) :
    Coherent { m with intentionalClose := true, closer := .stored } where
  stored _ := rfl
  selected := by simp
  claimed := by simp
  finished := by simp
  own e h := by
    obtain ⟨hcurrent, hreached⟩ := hm.own e h
    rw [hidle] at hreached
    exact ⟨hcurrent, hreached⟩
  late := hm.late
  stopped := by simp
  installs := hm.installs
  connects := hm.connects

theorem closeSelect_coherent {m m' : Shutdown} (hm : m.Coherent)
    (h : step m .closeSelect = some m') : m'.Coherent := by
  simp only [step] at h
  split at h
  · rename_i hstored
    have hclosed := hm.stored (by rw [hstored]; simp)
    split at h
    · rename_i hnone
      cases h
      refine hm.advance .returning hclosed (by simp) (by simp) (by simp [hnone]) ?_ (by simp)
      intro e he
      have howner := (hm.own e he).1
      rw [hnone] at howner
      cases howner
    · rename_i e hcurrent
      cases h
      refine hm.advance (.selected e) hclosed ?_ (by simp) (by simp) ?_ (by simp)
      · rintro e' (h | h)
        · cases h
          exact hcurrent
        · cases h
      · intro e' he'
        have hreached := (hm.own e' he').2
        rw [hstored] at hreached
        exact hreached
  · cases h

/-- The engine of the replacing thread, if it has one, is the installed one. -/
theorem Coherent.owner {m : Shutdown} (hm : m.Coherent) {e e' : Nat} (hcurrent : m.current = some e)
    (he' : m.replacer.engine = some e') : e' = e := by
  have h' := (hm.own e' he').1
  rw [hcurrent] at h'
  exact (Option.some.inj h').symm

/-- Before `close()` has come to the transport, no `connect()` is late. -/
theorem Coherent.not_late {m : Shutdown} (hm : m.Coherent) {e e' : Nat}
    (hcloser : m.closer = .selected e ∨ m.closer = .claimed e) :
    m.replacer ≠ .connecting e' true := by
  intro hreplacer
  have hlate := hm.late e' hreplacer
  have hreached := (hm.own e' (by rw [hreplacer]; rfl)).2
  rcases hcloser with hcloser | hcloser <;>
    · rw [hcloser] at hreached
      rw [hreached.2.1] at hlate
      cases hlate

theorem closeClaim_coherent {m m' : Shutdown} (hm : m.Coherent)
    (h : step m .closeClaim = some m') : m'.Coherent := by
  simp only [step] at h
  split at h
  · rename_i e hselected
    have hclosed := hm.stored (by rw [hselected]; simp)
    have hcurrent := hm.selected e (.inl hselected)
    have howner : ∀ e', m.replacer.engine = some e' → e' = e := fun e' => hm.owner hcurrent
    split at h
    · rename_i hclosing
      cases h
      refine hm.advance .returning hclosed (by simp) (by simp) ?_ ?_ (by simp)
      · intro _ e' he'
        rw [hcurrent] at he'
        cases he'
        exact hclosing
      · intro e' he'
        have hreached := (hm.own e' he').2
        rw [hselected, howner e' he'] at hreached
        rw [hreached.1] at hclosing
        cases hclosing
    · cases h
      exact {
        stored := fun _ => hclosed
        selected := by
          rintro e' (h | h)
          · cases h
          · cases h
            exact hcurrent
        claimed := by
          intro e' h
          cases h
          simp [setEngine]
        finished := by simp
        own := by
          intro e' he'
          obtain ⟨hcurrent', hreached⟩ := hm.own e' he'
          rw [hselected] at hreached
          refine ⟨hcurrent', ?_⟩
          rw [howner e' he'] at hreached ⊢
          simp only [setEngine, Function.update_self]
          exact ⟨rfl, hreached.2⟩
        late := fun e' he' => absurd he' (hm.not_late (.inl hselected))
        stopped := by simp
        installs := hm.installs
        connects := hm.connects }
  · cases h

theorem closeTransport_coherent {m m' : Shutdown} (hm : m.Coherent)
    (h : step m .closeTransport = some m') : m'.Coherent := by
  simp only [step] at h
  split at h
  · rename_i e hclaimed
    have hclosed := hm.stored (by rw [hclaimed]; simp)
    have hcurrent := hm.selected e (.inr hclaimed)
    have hclosing := hm.claimed e hclaimed
    have howner : ∀ e', m.replacer.engine = some e' → e' = e := fun e' => hm.owner hcurrent
    -- either way the engine is closed, at once or on the strand
    have hdone : ∀ engine : Engine, engine.closing = true →
        (∀ e', m.replacer.engine = some e' → Reached .returning engine) →
        Coherent { m.setEngine e engine with closer := .returning } := by
      intro engine hengine hreached
      exact {
        stored := fun _ => hclosed
        selected := by simp
        claimed := by simp
        finished := by
          intro _ e' he'
          have h' : m.current = some e' := he'
          rw [hcurrent] at h'
          cases h'
          simpa [setEngine] using hengine
        own := by
          intro e' he'
          refine ⟨(hm.own e' he').1, ?_⟩
          rw [howner e' he']
          simpa [setEngine] using hreached e' he'
        late := fun e' he' => absurd he' (hm.not_late (.inr hclaimed))
        stopped := by simp
        installs := hm.installs
        connects := hm.connects }
    have hbefore : ∀ e', m.replacer.engine = some e' →
        (m.engines e).transportClosing = false ∧ (m.engines e).closePosted = false := by
      intro e' he'
      have hreached := (hm.own e' he').2
      rw [hclaimed, howner e' he'] at hreached
      exact hreached.2
    split at h
    · cases h
      refine hdone _ hclosing fun e' he' => ⟨hclosing, ?_⟩
      simp only [(hbefore e' he').1, Bool.not_true]
    · cases h
      refine hdone _ hclosing fun e' he' => ⟨hclosing, ?_⟩
      simp only [(hbefore e' he').2, Bool.not_false]
  · cases h

theorem closeReturn_coherent {m m' : Shutdown} (hm : m.Coherent) (hC : m.Stopped .closeReturn)
    (h : step m .closeReturn = some m') : m'.Coherent := by
  simp only [step] at h
  split at h
  · rename_i hreturning
    cases h
    have hreached : ∀ e, m.replacer.engine = some e → Reached .returned (m.engines e) := by
      intro e he
      have hr := (hm.own e he).2
      rw [hreturning] at hr
      exact hr
    refine hm.advance .returned (hm.stored (by rw [hreturning]; simp)) (by simp) (by simp)
      (fun _ => hm.finished (.inl hreturning)) hreached ?_
    intro _ e he
    have hposted := hC rfl e he
    have hr := (hreached e (by rw [he]; rfl)).2
    rw [hposted] at hr
    exact hr
  · cases h

/-- The strand sets the flag that `close()` has promised. -/
theorem strandClose_coherent {m m' : Shutdown} {e : Nat} (hm : m.Coherent)
    (h : step m (.strandClose e) = some m') : m'.Coherent := by
  simp only [step] at h
  split at h
  · rename_i hposted
    cases h
    have hclosing : ∀ e', (Function.update m.engines e
        { m.engines e with transportClosing := true, closePosted := false } e').closing
          = (m.engines e').closing := by
      intro e'
      by_cases he : e' = e
      · subst he
        rw [Function.update_self]
      · rw [Function.update_of_ne he]
    have htransport : ∀ e', (m.engines e').transportClosing = true →
        (Function.update m.engines e
          { m.engines e with transportClosing := true, closePosted := false } e').transportClosing
            = true := by
      intro e' h'
      by_cases he : e' = e
      · subst he
        rw [Function.update_self]
      · rw [Function.update_of_ne he]
        exact h'
    exact {
      stored := hm.stored
      selected := hm.selected
      claimed := fun e' h' => (hclosing e').trans (hm.claimed e' h')
      finished := fun h' e' he' => (hclosing e').trans (hm.finished h' e' he')
      own := by
        intro e' he'
        obtain ⟨hcurrent, hreached⟩ := hm.own e' he'
        refine ⟨hcurrent, ?_⟩
        by_cases he : e' = e
        · subst he
          -- nothing is posted before `close()` has come to the transport
          have hr : Reached m.closer (m.engines e') := hreached
          simp only [setEngine, Function.update_self]
          cases hcloser : m.closer with
          | idle | stored => rw [hcloser] at hr; rw [hr.2.2] at hposted; cases hposted
          | selected _ | claimed _ => rw [hcloser] at hr; rw [hr.2.2] at hposted; cases hposted
          | returning | returned => rw [hcloser] at hr; exact ⟨hr.1, rfl⟩
        · simp only [setEngine, Function.update_of_ne he]
          exact hreached
      late := fun e' h' => htransport e' (hm.late e' h')
      stopped := fun h' e' he' => htransport e' (hm.stopped h' e' he')
      installs := hm.installs
      connects := hm.connects }
  · cases h

/-! ## Steps of the replacing thread -/

/-- A change of the replacing thread alone. -/
theorem Coherent.goOn {m : Shutdown} (hm : m.Coherent) (replacer : Replacer) (usingPolling : Bool)
    (hown : ∀ e, replacer.engine = some e → m.replacer.engine = some e)
    (hlate : ∀ e, replacer = .connecting e true → (m.engines e).transportClosing = true)
    (hstopped : m.closer = .returned → ∀ e, replacer = .opened e →
      (m.engines e).transportClosing = true) : Coherent { m with replacer, usingPolling } where
  stored := hm.stored
  selected := hm.selected
  claimed := hm.claimed
  finished := hm.finished
  own e h := hm.own e (hown e h)
  late := hlate
  stopped := hstopped
  installs := hm.installs
  connects := hm.connects

theorem Coherent.finish {m : Shutdown} (hm : m.Coherent) : Coherent { m with replacer := .done } :=
  hm.goOn .done m.usingPolling (by simp [Replacer.engine]) (by simp) (by simp)

theorem install_coherent {m : Shutdown} (hm : m.Coherent) (worker polling : Bool) :
    (m.install worker polling).Coherent := by
  unfold install
  split
  · exact hm.finish
  · rename_i hopen
    -- the client is not closed, so the closing thread has not begun
    have hidle : m.closer = .idle := by
      by_contra hnot
      exact hopen (hm.stored hnot)
    exact {
      stored := fun h => absurd hidle h
      selected := by rintro e (h | h) <;> · rw [show m.closer = _ from h] at hidle; cases hidle
      claimed := by intro e h; rw [show m.closer = _ from h] at hidle; cases hidle
      finished := by rintro (h | h) <;> · rw [show m.closer = _ from h] at hidle; cases hidle
      own := by
        intro e he
        cases he
        refine ⟨rfl, ?_⟩
        simp only [setEngine, Function.update_self, hidle]
        exact ⟨rfl, rfl, rfl⟩
      late := by simp
      stopped := by simp
      installs := by simp [hidle, hm.installs]
      connects := hm.connects }

theorem replaceStep_coherent {m m' : Shutdown} (hm : m.Coherent) (h : m.replaceStep = some m') :
    m'.Coherent := by
  unfold replaceStep at h
  split at h
  · cases h
    refine hm.goOn _ m.usingPolling ?_ ?_ ?_ <;> split <;> simp [Replacer.engine]
  · cases h
    refine hm.goOn _ m.usingPolling ?_ ?_ ?_ <;> split <;> simp [Replacer.engine]
  · split at h
    · cases h
      exact hm.finish
    · cases h
      exact hm.goOn (.building false true) true (by simp [Replacer.engine]) (by simp) (by simp)
  · cases h
    exact install_coherent hm _ _
  · rename_i worker e hinstalled
    cases h
    refine hm.goOn _ m.usingPolling ?_ ?_ ?_
    · rw [hinstalled]
      split <;> simp [Replacer.engine]
    · split <;> simp
    · split <;> simp
  · rename_i e hopening
    cases h
    refine hm.goOn _ m.usingPolling ?_ ?_ ?_
    · rw [hopening]
      split <;> simp [Replacer.engine]
    · split <;> simp
    · intro hreturned e' he'
      split at he'
      · cases he'
      · rename_i hclosing
        have hcurrent := (hm.own e (by rw [hopening]; rfl)).1
        exact absurd (hm.finished (.inr hreturned) e hcurrent) hclosing
  · rename_i e hopened
    cases h
    refine hm.goOn _ m.usingPolling ?_ ?_ (by simp)
    · rw [hopened]
      simp [Replacer.engine]
    · intro e' he'
      simp only [Replacer.connecting.injEq, decide_eq_true_eq] at he'
      obtain ⟨rfl, hreturned⟩ := he'
      exact hm.stopped hreturned e hopened
  · rename_i e late hconnecting
    cases h
    have hnone : (if (late && !(m.engines e).transportClosing) = true then m.lateConnects + 1
        else m.lateConnects) = m.lateConnects := by
      cases late with
      | false => simp
      | true => simp [hm.late e hconnecting]
    rw [hnone]
    exact hm.finish
  · cases h

theorem step_coherent (m : Shutdown) (a : Action) (m' : Shutdown) (hm : m.Coherent)
    (hC : m.Stopped a) (h : step m a = some m') : m'.Coherent := by
  cases a with
  | closeStore =>
    simp only [step] at h
    split at h
    · cases h
      exact closeStore_coherent hm ‹_›
    · cases h
  | closeSelect => exact closeSelect_coherent hm h
  | closeClaim => exact closeClaim_coherent hm h
  | closeTransport => exact closeTransport_coherent hm h
  | closeReturn => exact closeReturn_coherent hm hC h
  | replace => exact replaceStep_coherent hm h
  | replaceThrows =>
    simp only [step] at h
    split at h
    · cases h
      exact hm.finish
    · cases h
      exact hm.finish
    · cases h
  | strandClose e => exact strandClose_coherent hm h

/-! ## The theorem -/

/-- With the condition broken, the next two statements of the replacing
thread start a connection after `close()` has returned. -/
theorem not_stopped_breaks (m : Shutdown) (a : Action) (m' : Shutdown) (hm : m.Coherent)
    (hnot : ¬ m.Stopped a) (h : step m a = some m') :
    ∃ bs u, Meets step (fun _ b => b = .replace) m' bs ∧ run step m' bs = some u ∧
      ¬ u.CloseWins := by
  simp only [Stopped, Classical.not_imp, not_forall, Bool.not_eq_false] at hnot
  obtain ⟨rfl, e, hopened, hposted⟩ := hnot
  simp only [step] at h
  split at h
  · rename_i hreturning
    cases h
    have hreached := (hm.own e (by rw [hopened]; rfl)).2
    rw [hreturning] at hreached
    have htransport : (m.engines e).transportClosing = false := by
      rw [hreached.2, hposted]
      rfl
    refine ⟨[.replace, .replace],
      { m with closer := .returned, replacer := .done, lateConnects := m.lateConnects + 1 },
      ?_, ?_, ?_⟩
    · exact ⟨rfl, fun _ _ => ⟨rfl, fun _ _ => trivial⟩⟩
    · simp only [run, step, replaceStep, hopened, decide_true, htransport]
      rfl
    · intro hwins
      have hzero : m.lateConnects + 1 = 0 := (hwins rfl).2.2
      omega
  · cases h

/-- **When `close()` wins.** In every interleaving of `close()` with one
replacement, the steps meet the condition exactly if, wherever the run is
stopped and however far the replacing thread then goes on by itself, once
`close()` has returned the installed engine is closing, nothing has been
installed since, and no transport `connect()` started since has taken
effect. -/
theorem closeWins_iff (external usingPolling : Bool) (engine : Option Engine) (fallback : Bool)
    {as : List Action} {m : Shutdown}
    (h : run step (start external usingPolling engine fallback) as = some m) :
    Meets step Stopped (start external usingPolling engine fallback) as ↔
      ∀ k m bs u, run step (start external usingPolling engine fallback) (as.take k) = some m →
        Meets step (fun _ b => b = .replace) m bs → run step m bs = some u → u.CloseWins := by
  refine meets_iff_completions step_coherent (fun _ hm => hm.closeWins) ?_ not_stopped_breaks
    as _ m (coherent_start external usingPolling engine fallback) h
  rintro m _ rfl hreturn
  cases hreturn

/-- The worker has installed its engine when `close()` comes. -/
def closedAfterInstall : List Action :=
  [.replace, .replace, .replace, .closeStore, .closeSelect, .closeClaim, .closeTransport,
   .closeReturn, .replace]

theorem closeWins_iff_closedAfterInstall :
    ∃ m, run step (start false false (some {}) false) closedAfterInstall = some m ∧
      m.closer = .returned ∧ m.replacer = .done ∧
      (Meets step Stopped (start false false (some {}) false) closedAfterInstall ↔
        ∀ k m bs u, run step (start false false (some {}) false) (closedAfterInstall.take k)
          = some m → Meets step (fun _ b => b = .replace) m bs → run step m bs = some u →
          u.CloseWins) :=
  ⟨_, rfl, rfl, rfl, closeWins_iff false false (some {}) false rfl⟩

/-- On a caller-owned `io_context` the worker is past the check of `open()`
when `close()` runs from start to end; then the worker goes on. -/
def connectAfterClose : List Action :=
  [.replace, .replace, .replace, .replace, .replace, .closeStore, .closeSelect, .closeClaim,
   .closeTransport, .closeReturn, .replace, .replace]

theorem connectAfterClose_connects :
    ∃ m, run step (start true true (some { polling := true }) false) connectAfterClose = some m ∧
      m.closer = .returned ∧ m.lateConnects = 1 ∧ ¬ m.CloseWins := by
  refine ⟨_, rfl, rfl, rfl, fun hwins => ?_⟩
  have hzero := (hwins rfl).2.2
  cases hzero

end Shutdown

end Sioxx
