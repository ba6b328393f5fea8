/-
Sioxx.Client.ReplacementTheorems — the target of the client and its
fallback.

* `initialFallback_of_beforeOpen`: the client switches to polling only
  before the first open since `connect`, along every run in which, once
  there has been an open, an error finds its engine open or the fallback
  refused. The code's test does not see to that: `open_` is false for
  every fresh attempt of the reconnect worker (`failedRetry_fallsBack`).
* `aimed_of_undisputed`: after `connect(u)` the client opens `u` only and
  keeps the engine of that call until it ends, along every run in which no
  other path to a replacement is under way when `connect` stores its URI
  or is decided on while `connect` has not installed its engine. The code
  does not stop a worker unless the client was closed
  (`pendingWorker_replaces`).

Both are case analyses over what a step can do (`step_cases`).
-/
import Sioxx.Client.Replacement

namespace Sioxx

open Lib

namespace Thread

/-- In `on_engineio_close` and `schedule_reconnect`, or the worker. -/
def inReconnect : Thread → Bool
  | .closing _ | .scheduling | .spawning _ | .spawnJoin _ _ | .waiting _ | .workerInstall _
  | .workerInstalled _ _ | .workerOpen _ _ => true
  | _ => false

/-- In `handle_engineio_error` or `activate_polling_fallback`. -/
def inFallback : Thread → Bool
  | .erring _ | .erringOpen _ | .fallingBack _ | .exchanging _ | .fallbackInstall
  | .fallbackBuild _ | .fallbackOpen _ _ => true
  | _ => false

end Thread

namespace Replacement

/-! ## Threads -/

attribute [simp] Thread.call Thread.installing Thread.connecting Thread.replacing Thread.reopening
  Thread.uri Thread.subject

theorem setPool_pool (m : Replacement) (i j : Nat) (t : Thread) :
    (m.setPool i t).pool j = if j = i then t else m.pool j := by
  simp only [setPool, Function.update_apply]

/-! ## What a step can do -/

/-- Thread `i` goes on and nothing else changes. -/
inductive Moves (m : Replacement) : Thread → Thread → Prop
  | reap (call : Nat) (uri : Bytes) (hclose : m.intentionalClose = true) :
      Moves m (.connectStop call uri) (.connectReap call uri)
  | store (call : Nat) (uri : Bytes) (hopen : m.intentionalClose = false) :
      Moves m (.connectStop call uri) (.connectStore call uri)
  | reaped (call : Nat) (uri : Bytes) : Moves m (.connectReap call uri) (.connectStore call uri)
  | joined (call : Nat) (uri : Bytes) (w : Nat) (hw : m.pool w = .done) :
      Moves m (.connectJoin call uri w) (.connectStore call uri)
  | join (uri : Bytes) (w : Nat) (hopen : m.intentionalClose = false)
      (hworker : m.worker = some w) : Moves m (.spawning uri) (.spawnJoin uri w)
  | attempt (uri : Bytes) (hopen : m.intentionalClose = false) :
      Moves m (.waiting uri) (.workerInstall uri)
  | reopen (uri : Bytes) (e : Nat) (hopen : m.intentionalClose = false) :
      Moves m (.workerInstalled uri e) (.workerOpen uri e)
  | ask (e : Nat) (hpolling : m.usingPolling = false) : Moves m (.erring e) (.erringOpen e)

inductive Step (m : Replacement) : Action → Replacement → Prop
  -- The environment
  | connect (uri : Bytes) :
      Step m (.connect uri) { m.begin (.connectStop m.calls uri) with
        calls := m.calls + 1, target := none, openSeen := false }
  | close : Step m .close { m with intentionalClose := true, target := none }
  | stop : Step m .stop (m.begin .stopping)
  | opened (e : Nat) (hstarted : (m.links e).started = true) :
      Step m (.opened e)
        { m.setLink e { m.links e with isOpen := true } with openSeen := true }
  | closed (e : Nat) (hstarted : (m.links e).started = true) :
      Step m (.closed e) (m.setLink e { m.links e with isOpen := false, ended := true })
  | failed (e : Nat) (hstarted : (m.links e).started = true) :
      Step m (.failed e) (m.setLink e { m.links e with ended := true })
  | closeArrive (e : Nat) (hcurrent : m.current = some e) (hended : (m.links e).ended = true)
      (hclosed : (m.links e).isOpen = false) :
      Step m (.closeArrive e) (m.begin (.closing e))
  | errorArrive (e : Nat) (hcurrent : m.current = some e) (hended : (m.links e).ended = true) :
      Step m (.errorArrive e) (m.begin (.erring e))
  -- A thread alone
  | ends (i : Nat) (choice : Bool) : Step m (.go i choice) (m.setPool i .done)
  | moves (i : Nat) (choice : Bool) (t : Thread) (ht : m.Moves (m.pool i) t) :
      Step m (.go i choice) (m.setPool i t)
  -- `connect`
  | connectReap (i : Nat) (call : Nat) (uri : Bytes) (w : Nat)
      (hi : m.pool i = .connectReap call uri) (hworker : m.worker = some w) :
      Step m (.go i true) { m.setPool i (.connectJoin call uri w) with worker := none }
  | connectStore (i : Nat) (choice : Bool) (call : Nat) (uri : Bytes)
      (hi : m.pool i = .connectStore call uri) :
      Step m (.go i choice) { m.setPool i (.connectResume call uri) with baseUri := uri }
  | connectResume (i : Nat) (choice : Bool) (call : Nat) (uri : Bytes)
      (hi : m.pool i = .connectResume call uri) :
      Step m (.go i choice) { m.setPool i (.connectReset call uri) with intentionalClose := false }
  | connectReset (i : Nat) (choice : Bool) (call : Nat) (uri : Bytes)
      (hi : m.pool i = .connectReset call uri) :
      Step m (.go i choice)
        { m.setPool i (.connectInstall call uri) with usingPolling := m.forceHttpPolling }
  | connectInstall (i : Nat) (choice : Bool) (call : Nat) (uri : Bytes)
      (hi : m.pool i = .connectInstall call uri) :
      Step m (.go i choice)
        (m.install i (.connectOpen call uri) ((m.setPool i .done).returned call uri none))
  | connectOpen (i : Nat) (call : Nat) (uri : Bytes) (e : Nat)
      (hi : m.pool i = .connectOpen call uri e) :
      Step m (.go i true) (((m.openUri uri e).setPool i .done).returned call uri (some e))
  -- The worker
  | schedule (i : Nat) (e : Nat) (hi : m.pool i = .closing e)
      (hopen : m.intentionalClose = false) : Step m (.go i true) (m.setPool i .scheduling)
  | readUri (i : Nat) (choice : Bool) (hi : m.pool i = .scheduling) :
      Step m (.go i choice) (m.setPool i (.spawning m.baseUri))
  | spawn (i : Nat) (choice : Bool) (uri : Bytes) (hreplacing : (m.pool i).replacing = true)
      (huri : (m.pool i).uri = some uri) : Step m (.go i choice) (m.spawn i uri)
  | workerInstall (i : Nat) (choice : Bool) (uri : Bytes) (hi : m.pool i = .workerInstall uri) :
      Step m (.go i choice) (m.install i (.workerInstalled uri) (m.setPool i .done))
  | reopened (i : Nat) (choice : Bool) (uri : Bytes) (e : Nat)
      (hi : m.pool i = .workerOpen uri e ∨ m.pool i = .fallbackOpen uri e) :
      Step m (.go i choice) ((m.openUri uri e).setPool i .done)
  -- The fallback
  | fallBack (i : Nat) (choice : Bool) (e : Nat) (hi : m.pool i = .erringOpen e)
      (hclosed : (m.links e).isOpen = false) : Step m (.go i choice) (m.setPool i (.fallingBack e))
  | insist (i : Nat) (choice : Bool) (e : Nat) (hi : m.pool i = .fallingBack e)
      (hopen : m.intentionalClose = false) : Step m (.go i choice) (m.setPool i (.exchanging e))
  | exchange (i : Nat) (choice : Bool) (e : Nat) (hi : m.pool i = .exchanging e)
      (hpolling : m.usingPolling = false) :
      Step m (.go i choice) { m.setPool i .fallbackInstall with
        usingPolling := true
        lateFallbacks := if m.openSeen then m.lateFallbacks + 1 else m.lateFallbacks }
  | fallbackInstall (i : Nat) (choice : Bool) (hi : m.pool i = .fallbackInstall) :
      Step m (.go i choice) (m.install i .fallbackBuild (m.setPool i .done))
  | fallbackBuild (i : Nat) (e : Nat) (hi : m.pool i = .fallbackBuild e) :
      Step m (.go i true) (m.setPool i (.fallbackOpen m.baseUri e))
  -- `sync_close`
  | stopReap (i : Nat) (choice : Bool) (w : Nat) (hi : m.pool i = .stopping)
      (hworker : m.worker = some w) :
      Step m (.go i choice) { m.setPool i (.stopJoin w) with worker := none }

/-- A thread that looks at a flag: it returns or goes on. -/
theorem Step.look {m : Replacement} {i : Nat} {choice flag : Bool} {t : Thread}
    (ht : flag = false → m.Step (.go i choice) (m.setPool i t)) :
    m.Step (.go i choice) (m.setPool i (if flag then .done else t)) := by
  cases flag with
  | true => exact .ends i choice
  | false => exact ht rfl

/-- A thread that changes nothing else. -/
theorem Step.turn {m : Replacement} {i : Nat} {choice : Bool} {t t' : Thread} (hi : m.pool i = t)
    (ht : m.Moves t t') : m.Step (.go i choice) (m.setPool i t') :=
  .moves i choice _ (hi ▸ ht)

/-- A thread in `connect`. -/
theorem connect_cases {m m' : Replacement} {i : Nat} {choice : Bool}
    (hkind : (m.pool i).call.isSome = true)
    (h : m.goStep i choice = some m') : m.Step (.go i choice) m' := by
  cases hi : m.pool i with
  | connectStop call uri =>
    simp only [goStep, hi] at h
    cases h
    split
    · rename_i hclose
      exact Step.turn hi (.reap call uri hclose)
    · rename_i hopen
      exact Step.turn hi (.store call uri (Bool.eq_false_iff.mpr hopen))
  | connectReap call uri =>
    simp only [goStep, hi] at h
    split at h
    · cases h
      exact .connectReap i call uri _ hi ‹_›
    · cases h
      exact Step.turn hi (.reaped call uri)
  | connectJoin call uri w =>
    simp only [goStep, hi] at h
    split at h
    · rename_i hw
      cases h
      exact Step.turn hi (.joined call uri w hw)
    · cases h
  | connectStore call uri =>
    simp only [goStep, hi] at h
    cases h
    exact .connectStore i choice call uri hi
  | connectResume call uri =>
    simp only [goStep, hi] at h
    cases h
    exact .connectResume i choice call uri hi
  | connectReset call uri =>
    simp only [goStep, hi] at h
    cases h
    exact .connectReset i choice call uri hi
  | connectInstall call uri =>
    simp only [goStep, hi] at h
    cases h
    exact .connectInstall i choice call uri hi
  | connectOpen call uri e =>
    cases choice with
    | true =>
      simp only [goStep, hi] at h
      cases h
      exact .connectOpen i call uri e hi
    | false =>
      simp only [goStep, hi] at h
      cases h
      exact .ends i false
  | _ => simp [hi] at hkind

/-- A thread that reports a close, or the worker. -/
theorem reconnect_cases {m m' : Replacement} {i : Nat} {choice : Bool}
    (hkind : (m.pool i).inReconnect = true)
    (h : m.goStep i choice = some m') : m.Step (.go i choice) m' := by
  cases hi : m.pool i with
  | closing e =>
    simp only [goStep, hi] at h
    cases h
    refine .look fun htest => ?_
    simp only [Bool.or_eq_false_iff, Bool.not_eq_false'] at htest
    obtain ⟨hopen, rfl⟩ := htest
    exact .schedule i e hi hopen
  | scheduling =>
    simp only [goStep, hi] at h
    cases h
    exact .readUri i choice hi
  | spawning uri =>
    simp only [goStep, hi] at h
    split at h
    · cases h
      exact .ends i choice
    · rename_i hopen
      split at h
      · cases h
        exact .spawn i choice uri (by rw [hi]; rfl) (by rw [hi]; rfl)
      · rename_i w hworker
        cases h
        exact Step.turn hi (.join uri w (Bool.eq_false_iff.mpr hopen) hworker)
  | spawnJoin uri w =>
    simp only [goStep, hi] at h
    split at h
    · cases h
      exact .spawn i choice uri (by rw [hi]; rfl) (by rw [hi]; rfl)
    · cases h
  | waiting uri =>
    simp only [goStep, hi] at h
    cases h
    exact .look fun hopen => Step.turn hi (.attempt uri hopen)
  | workerInstall uri =>
    simp only [goStep, hi] at h
    cases h
    exact .workerInstall i choice uri hi
  | workerInstalled uri e =>
    simp only [goStep, hi] at h
    cases h
    exact .look fun hopen => Step.turn hi (.reopen uri e hopen)
  | workerOpen uri e =>
    simp only [goStep, hi] at h
    cases h
    split
    · exact .reopened i choice uri e (.inl hi)
    · exact .ends i choice
  | _ => simp [hi, Thread.inReconnect] at hkind

/-- A thread that reports an error, up to the fallback. -/
theorem fallback_cases {m m' : Replacement} {i : Nat} {choice : Bool}
    (hkind : (m.pool i).inFallback = true)
    (h : m.goStep i choice = some m') : m.Step (.go i choice) m' := by
  cases hi : m.pool i with
  | erring e =>
    simp only [goStep, hi] at h
    cases h
    exact .look fun hpolling => Step.turn hi (.ask e hpolling)
  | erringOpen e =>
    simp only [goStep, hi] at h
    cases h
    exact .look fun hclosed => .fallBack i choice e hi hclosed
  | fallingBack e =>
    simp only [goStep, hi] at h
    cases h
    exact .look fun hopen => .insist i choice e hi hopen
  | exchanging e =>
    simp only [goStep, hi] at h
    split at h
    · cases h
      exact .ends i choice
    · rename_i hpolling
      cases h
      exact .exchange i choice e hi (Bool.eq_false_iff.mpr hpolling)
  | fallbackInstall =>
    simp only [goStep, hi] at h
    cases h
    exact .fallbackInstall i choice hi
  | fallbackBuild e =>
    cases choice with
    | true =>
      simp only [goStep, hi] at h
      cases h
      exact .fallbackBuild i e hi
    | false =>
      simp only [goStep, hi] at h
      cases h
      exact .ends i false
  | fallbackOpen uri e =>
    simp only [goStep, hi] at h
    cases h
    exact .reopened i choice uri e (.inr hi)
  | _ => simp [hi, Thread.inFallback] at hkind

theorem goStep_cases {m m' : Replacement} {i : Nat} {choice : Bool}
    (h : m.goStep i choice = some m') : m.Step (.go i choice) m' := by
  by_cases hconnect : (m.pool i).call.isSome = true
  · exact connect_cases hconnect h
  by_cases hreconnect : (m.pool i).inReconnect = true
  · exact reconnect_cases hreconnect h
  by_cases hfallback : (m.pool i).inFallback = true
  · exact fallback_cases hfallback h
  cases hi : m.pool i with
  | stopping =>
    simp only [goStep, hi] at h
    split at h
    · cases h
      exact .stopReap i choice _ hi ‹_›
    · cases h
      exact .ends i choice
  | stopJoin w =>
    simp only [goStep, hi] at h
    split at h
    · cases h
      exact .ends i choice
    · cases h
  | done =>
    simp only [goStep, hi] at h
    cases h
  | _ => simp [hi, Thread.inReconnect, Thread.inFallback] at hconnect hreconnect hfallback

/-- **Every step is one of these.** -/
theorem step_cases {m m' : Replacement} {a : Action} (h : m.step a = some m') : m.Step a m' := by
  cases a with
  | connect uri =>
    cases h
    exact .connect uri
  | close =>
    cases h
    exact .close
  | stop =>
    cases h
    exact .stop
  | opened e =>
    simp only [step] at h
    split at h
    · cases h
      exact .opened e ‹_›
    · cases h
  | closed e =>
    simp only [step] at h
    split at h
    · cases h
      exact .closed e ‹_›
    · cases h
  | failed e =>
    simp only [step] at h
    split at h
    · cases h
      exact .failed e ‹_›
    · cases h
  | closeArrive e =>
    simp only [step] at h
    split at h
    · rename_i harrives
      cases h
      exact .closeArrive e harrives.1 harrives.2.1 harrives.2.2
    · cases h
  | errorArrive e =>
    simp only [step] at h
    split at h
    · rename_i harrives
      cases h
      exact .errorArrive e harrives.1 harrives.2
    · cases h
  | go i choice => exact goStep_cases h

/-! ## The fallback -/

/-- The thread will not fall back, and no `connect` is about to change
that. -/
def Refuses (m : Replacement) : Thread → Prop
  | .fallingBack _ => (∀ i, (m.pool i).call = none) ∧
      (m.usingPolling = true ∨ m.intentionalClose = true)
  | .exchanging _ => (∀ i, (m.pool i).call = none) ∧ m.usingPolling = true
  | _ => True

/-- After an open, `handle_engineio_error` finds the engine open or the
fallback refused; and an open finds no fallback that would not be. -/
def BeforeOpen (m : Replacement) : Action → Prop
  | .go i _ => ∀ e, m.pool i = .erringOpen e → m.openSeen = true →
    (m.links e).isOpen = true ∨ m.Refuses (.fallingBack e)
  | .opened _ => ∀ i, m.Refuses (m.pool i)
  | _ => True

/-- Once there has been an open, a fallback decided on will be refused. -/
def OpenLaw (m : Replacement) : Prop :=
  (m.openSeen = true → ∀ i, m.Refuses (m.pool i)) ∧ m.lateFallbacks = 0

/-- With no `connect` on its way, what refused a fallback still does. -/
theorem Refuses.mono {m m' : Replacement} {t : Thread} (h : m.Refuses t)
    (hcall : (∀ i, (m.pool i).call = none) → ∀ i, (m'.pool i).call = none)
    (hpolling : (∀ i, (m.pool i).call = none) → m.usingPolling = true → m'.usingPolling = true)
    (hclose : (∀ i, (m.pool i).call = none) → m.intentionalClose = true →
      m'.intentionalClose = true) : m'.Refuses t := by
  cases t with
  | fallingBack e =>
    obtain ⟨hnone, hflags⟩ := h
    exact ⟨hcall hnone, hflags.imp (hpolling hnone) (hclose hnone)⟩
  | exchanging e =>
    obtain ⟨hnone, hflag⟩ := h
    exact ⟨hcall hnone, hpolling hnone hflag⟩
  | _ => trivial

/-- Thread `i` goes on as `t`. It begins no call of `connect`, and the
flags are cleared by threads in `connect` only. -/
theorem OpenLaw.put {m m' : Replacement} (hm : m.OpenLaw) {i : Nat} {t : Thread}
    (hpool : m'.pool = (m.setPool i t).pool) (hopen : m'.openSeen = m.openSeen)
    (hlate : m'.lateFallbacks = m.lateFallbacks)
    (hcall : t.call = none ∨ (m.pool i).call ≠ none)
    (hflags : (m'.usingPolling = m.usingPolling ∧ m'.intentionalClose = m.intentionalClose) ∨
      (m.pool i).call ≠ none)
    (ht : m.openSeen = true → m.Refuses t) : m'.OpenLaw := by
  refine ⟨fun h j => ?_, hlate.trans hm.2⟩
  have hseen : m.openSeen = true := hopen ▸ h
  have hold : m.Refuses (m'.pool j) := by
    rw [hpool, setPool_pool]
    split
    · exact ht hseen
    · exact hm.1 hseen j
  refine hold.mono (fun hnone k => ?_) (fun hnone hp => ?_) fun hnone hc => ?_
  · rw [hpool, setPool_pool]
    split
    · exact hcall.resolve_right fun h => h (hnone i)
    · exact hnone k
  · rw [(hflags.resolve_right fun h => h (hnone i)).1]
    exact hp
  · rw [(hflags.resolve_right fun h => h (hnone i)).2]
    exact hc

/-- The same for a change of the thread alone. -/
theorem OpenLaw.setPool {m : Replacement} (hm : m.OpenLaw) {i : Nat} {t : Thread}
    (ht : m.openSeen = true → m.Refuses t) (hcall : t.call = none ∨ (m.pool i).call ≠ none) :
    (m.setPool i t).OpenLaw :=
  hm.put rfl rfl rfl hcall (.inl ⟨rfl, rfl⟩) ht

theorem install_openLaw {m refused : Replacement} (hm : m.OpenLaw) {i : Nat} {next : Nat → Thread}
    (ht : ∀ e, m.Refuses (next e))
    (hcall : ∀ e, (next e).call = none ∨ (m.pool i).call ≠ none) (hrefused : refused.OpenLaw) :
    (m.install i next refused).OpenLaw := by
  unfold install
  split
  · exact hrefused
  · exact hm.put rfl rfl rfl (hcall m.installed) (.inl ⟨rfl, rfl⟩) fun _ => ht m.installed

theorem OpenLaw.returned {m : Replacement} (hm : m.OpenLaw) (call : Nat) (uri : Bytes)
    (engine : Option Nat) : (m.returned call uri engine).OpenLaw := by
  unfold Replacement.returned
  split
  · exact hm
  · exact hm

/-- A moving thread begins no call of `connect` and no fallback. -/
theorem Moves.openLaw {m : Replacement} {i : Nat} {t : Thread} (h : m.Moves (m.pool i) t)
    (hm : m.OpenLaw) : (m.setPool i t).OpenLaw := by
  have hcalm : m.Refuses t ∧ (t.call = none ∨ (m.pool i).call ≠ none) := by
    generalize m.pool i = before at h
    cases h with
    | reap | store | reaped | joined => exact ⟨trivial, .inr (by simp)⟩
    | join | attempt | reopen | ask => exact ⟨trivial, .inl rfl⟩
  exact hm.setPool (fun _ => hcalm.1) hcalm.2

theorem step_openLaw (m : Replacement) (a : Action) (m' : Replacement) (hm : m.OpenLaw)
    (hC : m.BeforeOpen a) (h : step m a = some m') : m'.OpenLaw := by
  have hbegin : ∀ {t : Thread}, t.call = none → m.Refuses t → (m.begin t).OpenLaw :=
    fun hcall ht => hm.put rfl rfl rfl (.inl hcall) (.inl ⟨rfl, rfl⟩) fun _ => ht
  have hdone : ∀ i, (m.setPool i .done).OpenLaw := fun i =>
    hm.setPool (fun _ => trivial) (.inl rfl)
  -- what the fallback of thread `i` meets after an open
  have hrefused : ∀ {i : Nat} {t : Thread}, m.pool i = t → m.openSeen = true → m.Refuses t :=
    fun hi hopen => hi ▸ hm.1 hopen _
  cases step_cases h with
  | connect uri => exact ⟨fun hopen => (by cases hopen), hm.2⟩
  | close =>
    refine ⟨fun hopen i => ?_, hm.2⟩
    exact (hm.1 hopen i).mono (fun hnone => hnone) (fun _ hp => hp) fun _ _ => rfl
  | stop => exact hbegin rfl trivial
  | opened e =>
    refine ⟨fun _ i => ?_, hm.2⟩
    exact (hC i).mono (fun hnone => hnone) (fun _ hp => hp) fun _ hc => hc
  | closed e | failed e =>
    refine ⟨fun hopen i => ?_, hm.2⟩
    exact (hm.1 hopen i).mono (fun hnone => hnone) (fun _ hp => hp) fun _ hc => hc
  | closeArrive e | errorArrive e => exact hbegin rfl trivial
  | ends i choice => exact hdone i
  | moves i choice t ht => exact ht.openLaw hm
  | connectReap i call uri w hi hworker =>
    have hcall : (m.pool i).call ≠ none := by rw [hi]; simp
    exact hm.put rfl rfl rfl (.inr hcall) (.inr hcall) fun _ => trivial
  | connectStore i choice call uri hi | connectResume i choice call uri hi
  | connectReset i choice call uri hi =>
    have hcall : (m.pool i).call ≠ none := by rw [hi]; simp
    exact hm.put rfl rfl rfl (.inr hcall) (.inr hcall) fun _ => trivial
  | connectInstall i choice call uri hi =>
    have hcall : (m.pool i).call ≠ none := by rw [hi]; simp
    exact install_openLaw hm (fun _ => trivial) (fun _ => .inr hcall) ((hdone i).returned _ _ _)
  | connectOpen i call uri e hi =>
    have hopened : ((m.openUri uri e).setPool i .done).OpenLaw :=
      hm.put rfl rfl rfl (.inl rfl) (.inl ⟨rfl, rfl⟩) fun _ => trivial
    exact hopened.returned _ _ _
  | schedule | readUri | fallbackBuild => exact hm.setPool (fun _ => trivial) (.inl rfl)
  | spawn i choice uri hreplacing huri =>
    exact (hdone i).put (t := .waiting uri) rfl rfl rfl (.inl rfl) (.inl ⟨rfl, rfl⟩)
      fun _ => trivial
  | workerInstall i choice uri hi =>
    exact install_openLaw hm (fun _ => trivial) (fun _ => .inl rfl) (hdone i)
  | fallbackInstall i choice hi =>
    exact install_openLaw hm (fun _ => trivial) (fun _ => .inl rfl) (hdone i)
  | reopened | stopReap =>
    exact hm.put rfl rfl rfl (.inl rfl) (.inl ⟨rfl, rfl⟩) fun _ => trivial
  | fallBack i choice e hi hclosed =>
    refine hm.setPool (fun hopen => ?_) (.inl rfl)
    exact (hC e hi hopen).resolve_left (by simp [hclosed])
  | insist i choice e hi hactive =>
    refine hm.setPool (fun hopen => ?_) (.inl rfl)
    obtain ⟨hnone, hflags⟩ := hrefused hi hopen
    exact ⟨hnone, hflags.resolve_right (by simp [hactive])⟩
  | exchange i choice e hi hpolling =>
    -- not refused, so there has been no open
    have hnone : m.openSeen = false := by
      rw [Bool.eq_false_iff]
      intro hopen
      have hrefuses := (hrefused hi hopen).2
      rw [hpolling] at hrefuses
      cases hrefuses
    refine ⟨fun hopen => ?_, ?_⟩
    · have hseen : m.openSeen = true := hopen
      rw [hnone] at hseen
      cases hseen
    · simp only [hnone]
      exact hm.2

/-- **When only the initial connection falls back.** Along every run in
which, once there has been an open since `connect`, no error gets past the
test of `handle_engineio_error` unless the fallback will be refused, and
in which an open finds no fallback on its way that will not be,
`using_polling_` is set only before the first open since `connect`. -/
theorem initialFallback_of_beforeOpen {as : List Action} {m : Replacement}
    (h : run step {} as = some m) (hC : Meets step BeforeOpen {} as) : m.InitialFallback :=
  (run_invariant step_openLaw as {} m ⟨fun hopen => (by cases hopen), rfl⟩ hC h).2

/-- Thread `i` alone. -/
def goes (i n : Nat) : List Action := List.replicate n (.go i true)

/-- `connect(uri)` in thread `i`, from its call to its return. -/
def connectRun (uri : Bytes) (i : Nat) : List Action := .connect uri :: goes i 6

/-- The first connection fails and polling opens. -/
def initialFailure : List Action :=
  connectRun (ascii "v") 0 ++ [.failed 0, .errorArrive 0] ++ goes 1 7 ++ [.opened 1]

theorem initialFallback_of_beforeOpen_initialFailure :
    ∃ m, run step {} initialFailure = some m ∧ m.usingPolling = true ∧ m.openSeen = true ∧
      m.InitialFallback := by
  refine ⟨_, rfl, rfl, rfl, @initialFallback_of_beforeOpen initialFailure _ rfl ?_⟩
  have hquiet : ∀ {s : Replacement} {i : Nat} {choice : Bool}, s.openSeen = false →
      s.BeforeOpen (.go i choice) := by
    intro s i choice hclosed e hi hopen
    rw [hclosed] at hopen
    cases hopen
  refine ⟨trivial, fun s hs => ?_⟩
  cases hs
  iterate 6 refine (meets_cons_iff rfl).mpr ⟨hquiet rfl, ?_⟩
  iterate 2 refine (meets_cons_iff rfl).mpr ⟨trivial, ?_⟩
  iterate 7 refine (meets_cons_iff rfl).mpr ⟨hquiet rfl, ?_⟩
  refine (meets_cons_iff rfl).mpr ⟨fun i => ?_, trivial⟩
  rcases i with _ | _ | i <;> trivial

/-- An established connection drops, and the worker's attempt fails. -/
def failedRetry : List Action :=
  connectRun (ascii "v") 0 ++ [.opened 0, .closed 0, .closeArrive 0] ++ goes 1 3 ++ goes 2 4 ++
    [.failed 1, .errorArrive 1] ++ goes 3 4

theorem failedRetry_fallsBack :
    ∃ m, run step {} failedRetry = some m ∧ m.usingPolling = true ∧ m.openSeen = true ∧
      ¬ m.InitialFallback := by
  refine ⟨_, rfl, rfl, rfl, fun hinitial => ?_⟩
  cases hinitial

/-! ## The target -/

/-- When `connect` stores its URI, it is the last call and no other thread
is in `connect` past that point or on its way to a replacement; and who
decides on a replacement does so for the current engine, with no `connect`
about to install its own. -/
def Undisputed (m : Replacement) : Action → Prop
  | .go i choice =>
    match m.pool i with
    | .connectStore call _ => call + 1 = m.calls ∧ ∀ j, j ≠ i →
        (m.pool j).connecting = false ∧ (m.pool j).replacing = false ∧
          (m.pool j).reopening = false
    | .closing e => m.intentionalClose = true ∨ choice = false ∨
        (m.current = some e ∧ ∀ j, (m.pool j).installing = false)
    | .exchanging e => m.usingPolling = true ∨
        (m.current = some e ∧ ∀ j, (m.pool j).installing = false)
    | _ => True
  | _ => True

/-- The engine of a `connect` that has returned or is about to. -/
def Awaited (m : Replacement) (e : Nat) : Prop :=
  (∃ u, m.target = some (u, some e)) ∨ ∃ i k u, m.pool i = .connectOpen k u e

/-- Nobody is about to install for `connect`, and what is installed for it
has ended. -/
def MayReplace (m : Replacement) : Prop :=
  (∀ i, (m.pool i).installing = false) ∧
    ∀ e, m.current = some e → m.Awaited e → (m.links e).ended = true

/-- A call of `connect` that only thread `i` may be in. -/
def OwnCall (m : Replacement) (i k : Nat) : Prop :=
  k < m.calls ∧ (∀ j, j ≠ i → (m.pool j).call ≠ some k) ∧ (m.target ≠ none → k + 1 ≠ m.calls)

structure Agreed (m : Replacement) : Prop where
  /-- Every URI a thread holds is the stored one. -/
  uris : ∀ i u, (m.pool i).uri = some u → u = m.baseUri
  one : ∀ i j, (m.pool i).connecting = true → (m.pool j).connecting = true → i = j
  calls : ∀ i k, (m.pool i).call = some k → m.OwnCall i k
  /-- Who reports an end is right about it. -/
  reports : ∀ i e, (m.pool i).subject = some e → e < m.installed ∧ (m.links e).ended = true
  current_lt : ∀ e, m.current = some e → e < m.installed
  awaited_lt : ∀ e, m.Awaited e → e < m.installed
  replacing : ∀ i, (m.pool i).replacing = true → m.MayReplace
  target : ∀ u oe, m.target = some (u, oe) → u = m.baseUri ∧ ∀ i, (m.pool i).connecting = false
  aimed : m.Aimed

theorem agreed_start (f : Bool) : Agreed { forceHttpPolling := f } where
  uris := by simp
  one := by simp
  calls := by simp
  reports := by simp
  current_lt := by simp
  awaited_lt := by simp [Awaited]
  replacing := by simp
  target := by simp
  aimed := ⟨rfl, rfl⟩

/-- The fields the law is about. -/
def core (m : Replacement) :=
  (m.pool, m.baseUri, m.links, m.installed, m.current, m.calls, m.target, m.wrongUris, m.unearned)

theorem Agreed.frame {m m' : Replacement} (hm : m.Agreed) (h : m'.core = m.core) : m'.Agreed := by
  obtain ⟨_, _, _, _, _, _, _, _, _, _, _, _, _, _, _, _⟩ := m
  obtain ⟨_, _, _, _, _, _, _, _, _, _, _, _, _, _, _, _⟩ := m'
  simp only [core, Prod.mk.injEq] at h
  obtain ⟨rfl, rfl, rfl, rfl, rfl, rfl, rfl, rfl, rfl⟩ := h
  exact ⟨hm.uris, hm.one, hm.calls, hm.reports, hm.current_lt, hm.awaited_lt, hm.replacing,
    hm.target, hm.aimed⟩

/-! ### A thread moves on -/

theorem Awaited.of_setPool {m : Replacement} {i e : Nat} {t : Thread}
    (h : (m.setPool i t).Awaited e) : m.Awaited e ∨ ∃ k u, t = .connectOpen k u e := by
  rcases h with htarget | ⟨j, k, u, hj⟩
  · exact .inl (.inl htarget)
  · rw [setPool_pool] at hj
    split at hj
    · exact .inr ⟨k, u, hj⟩
    · exact .inl (.inr ⟨j, k, u, hj⟩)

theorem MayReplace.setPool {m : Replacement} (hm : m.MayReplace) {i : Nat} {t : Thread}
    (hinstalling : t.installing = true → (m.pool i).installing = true)
    (hopening : ∀ k u e, t ≠ .connectOpen k u e) : (m.setPool i t).MayReplace := by
  constructor
  · intro j
    rw [setPool_pool]
    split
    · rw [Bool.eq_false_iff]
      intro h
      have hi := hinstalling h
      rw [hm.1 i] at hi
      cases hi
    · exact hm.1 j
  · intro e hcurrent hawaited
    rcases hawaited.of_setPool with hold | ⟨k, u, ht⟩
    · exact hm.2 e hcurrent hold
    · exact absurd ht (hopening k u e)

/-- What thread `i` may go on with. -/
structure Fits (m : Replacement) (i : Nat) (t : Thread) : Prop where
  uri : ∀ u, t.uri = some u → u = m.baseUri
  connecting : t.connecting = true → (m.pool i).connecting = true
  installing : t.installing = true → (m.pool i).installing = true
  call : ∀ k, t.call = some k → m.OwnCall i k
  subject : ∀ e, t.subject = some e → e < m.installed ∧ (m.links e).ended = true
  opening : ∀ k u e, t = .connectOpen k u e →
    e < m.installed ∧ ∀ j, (m.pool j).replacing = false
  replacing : t.replacing = true → m.MayReplace

theorem Agreed.setPool {m : Replacement} (hm : m.Agreed) {i : Nat} {t : Thread}
    (ht : m.Fits i t) : (m.setPool i t).Agreed where
  uris j u hj := by
    rw [setPool_pool] at hj
    split at hj
    · exact ht.uri u hj
    · exact hm.uris j u hj
  one j j' hj hj' := by
    have hold : ∀ j, ((m.setPool i t).pool j).connecting = true →
        (m.pool j).connecting = true := by
      intro j hj
      rw [setPool_pool] at hj
      split at hj
      · rename_i hji
        exact hji ▸ ht.connecting hj
      · exact hj
    exact hm.one j j' (hold j hj) (hold j' hj')
  calls j k hj := by
    rw [setPool_pool] at hj
    split at hj
    · rename_i hji
      obtain ⟨hlt, hother, htarget⟩ := ht.call k hj
      refine ⟨hlt, fun j' hj' => ?_, htarget⟩
      rw [setPool_pool, if_neg (hji ▸ hj')]
      exact hother j' (hji ▸ hj')
    · rename_i hji
      obtain ⟨hlt, hother, htarget⟩ := hm.calls j k hj
      refine ⟨hlt, fun j' hj' => ?_, htarget⟩
      rw [setPool_pool]
      split
      · intro hcall
        exact (ht.call k hcall).2.1 j hji hj
      · exact hother j' hj'
  reports j e hj := by
    rw [setPool_pool] at hj
    split at hj
    · exact ht.subject e hj
    · exact hm.reports j e hj
  current_lt := hm.current_lt
  awaited_lt e he := by
    rcases he.of_setPool with hold | ⟨k, u, hopen⟩
    · exact hm.awaited_lt e hold
    · exact (ht.opening k u e hopen).1
  replacing j hj := by
    rw [setPool_pool] at hj
    split at hj
    · refine (ht.replacing hj).setPool ht.installing ?_
      rintro k u e rfl
      cases hj
    · refine (hm.replacing j hj).setPool ht.installing fun k u e hopen => ?_
      have hnone := (ht.opening k u e hopen).2 j
      rw [hj] at hnone
      cases hnone
  target u oe htarget := by
    obtain ⟨huri, hnone⟩ := hm.target u oe htarget
    refine ⟨huri, fun j => ?_⟩
    rw [setPool_pool]
    split
    · rw [Bool.eq_false_iff]
      intro h
      have hi := ht.connecting h
      rw [hnone i] at hi
      cases hi
    · exact hnone j
  aimed := hm.aimed

end Replacement

/-- A thread that takes on nothing new. -/
structure Thread.Within (t' t : Thread) : Prop where
  uri : ∀ u, t'.uri = some u → t.uri = some u
  connecting : t'.connecting = true → t.connecting = true
  installing : t'.installing = true → t.installing = true
  call : ∀ k, t'.call = some k → t.call = some k
  subject : ∀ e, t'.subject = some e → t.subject = some e
  opening : ∀ k u e, t' ≠ .connectOpen k u e
  replacing : t'.replacing = true → t.replacing = true

theorem Thread.done_within (t : Thread) : Thread.Within .done t := by
  constructor <;> simp

theorem Thread.uri_kind {t : Thread} {u : Bytes} (h : t.uri = some u) :
    t.connecting = true ∨ t.replacing = true ∨ t.reopening = true := by
  cases t <;> simp_all

namespace Replacement

theorem Agreed.move {m : Replacement} (hm : m.Agreed) {i : Nat} {t : Thread}
    (ht : t.Within (m.pool i)) : (m.setPool i t).Agreed :=
  hm.setPool
    { uri := fun u h => hm.uris i u (ht.uri u h)
      connecting := ht.connecting
      installing := ht.installing
      call := fun k h => hm.calls i k (ht.call k h)
      subject := fun e h => hm.reports i e (ht.subject e h)
      opening := fun k u e h => absurd h (ht.opening k u e)
      replacing := fun h => hm.replacing i (ht.replacing h) }

/-- Links only end. -/
theorem Agreed.setLinks {m : Replacement} (hm : m.Agreed) {links : Nat → Link}
    (h : ∀ e, (m.links e).ended = true → (links e).ended = true) :
    Agreed { m with links := links } where
  uris := hm.uris
  one := hm.one
  calls := hm.calls
  reports i e hi := ⟨(hm.reports i e hi).1, h e (hm.reports i e hi).2⟩
  current_lt := hm.current_lt
  awaited_lt := hm.awaited_lt
  replacing i hi :=
    ⟨(hm.replacing i hi).1, fun e hcurrent he => h e ((hm.replacing i hi).2 e hcurrent he)⟩
  target := hm.target
  aimed := hm.aimed

theorem Agreed.setLink {m : Replacement} (hm : m.Agreed) {e : Nat} {link : Link}
    (h : (m.links e).ended = true → link.ended = true) : (m.setLink e link).Agreed := by
  refine hm.setLinks fun e' hended => ?_
  rw [Function.update_apply]
  split
  · rename_i heq
    exact h (heq ▸ hended)
  · exact hended

/-- A `connect` or `close` begins. -/
theorem Agreed.noTarget {m : Replacement} (hm : m.Agreed) {calls : Nat} (hle : m.calls ≤ calls) :
    Agreed { m with calls := calls, target := none } := by
  have hawaited : ∀ e, Awaited { m with calls := calls, target := none } e → m.Awaited e := by
    rintro e (⟨u, htarget⟩ | hopen)
    · cases htarget
    · exact .inr hopen
  refine ⟨hm.uris, hm.one, fun i k hi => ?_, hm.reports, hm.current_lt,
    fun e he => hm.awaited_lt e (hawaited e he), fun i hi => ?_, by simp, hm.aimed⟩
  · obtain ⟨hlt, hother, -⟩ := hm.calls i k hi
    exact ⟨Nat.lt_of_lt_of_le hlt hle, hother, fun h => absurd rfl h⟩
  · obtain ⟨hnone, hended⟩ := hm.replacing i hi
    exact ⟨hnone, fun e hcurrent he => hended e hcurrent (hawaited e he)⟩

/-! ### Opening, returning, installing -/

theorem Agreed.openUri {m : Replacement} (hm : m.Agreed) {uri : Bytes} (e : Nat)
    (huri : uri = m.baseUri) : (m.openUri uri e).Agreed := by
  have hlinks : (m.setLink e { m.links e with started := true }).Agreed := hm.setLink fun h => h
  refine hlinks.frame ?_
  have hwrong : (m.openUri uri e).wrongUris = m.wrongUris := by
    cases htarget : m.target with
    | none => simp only [Replacement.openUri, htarget]
    | some target =>
      obtain ⟨u, oe⟩ := target
      have hsame : uri = u := huri.trans (hm.target u oe htarget).1.symm
      simp only [Replacement.openUri, htarget, if_pos hsame]
  simp only [core, hwrong]
  rfl

/-- `connect` returns from thread `i`. -/
theorem Agreed.returned {m : Replacement} (hm : m.Agreed) {i call : Nat} {uri : Bytes}
    {engine : Option Nat} (hcall : (m.pool i).call = some call)
    (huri : (m.pool i).uri = some uri) (hconnecting : (m.pool i).connecting = true)
    (hengine : ∀ e, engine = some e → m.pool i = .connectOpen call uri e) :
    ((m.setPool i .done).returned call uri engine).Agreed := by
  have hdone : (m.setPool i .done).Agreed := hm.move (Thread.done_within _)
  unfold Replacement.returned
  split
  · rename_i hlast
    have hawaited : ∀ e, Awaited { m.setPool i .done with target := some (uri, engine) } e →
        m.Awaited e := by
      rintro e (⟨u, htarget⟩ | ⟨j, k, u, hj⟩)
      · simp only [Option.some.injEq, Prod.mk.injEq] at htarget
        exact .inr ⟨i, call, uri, hengine e htarget.2⟩
      · rw [setPool_pool] at hj
        split at hj
        · cases hj
        · exact .inr ⟨j, k, u, hj⟩
    refine ⟨hdone.uris, hdone.one, fun j k hj => ?_, hdone.reports, hdone.current_lt,
      fun e he => hm.awaited_lt e (hawaited e he), fun j hj => ?_, fun u oe htarget => ?_,
      hdone.aimed⟩
    · -- the last call is the one that returned
      obtain ⟨hlt, hother, -⟩ := hdone.calls j k hj
      refine ⟨hlt, hother, fun _ hk => ?_⟩
      have hsame : k = call := Nat.succ.inj (hk.trans hlast.symm)
      rw [setPool_pool] at hj
      split at hj
      · cases hj
      · rename_i hji
        exact (hm.calls i call hcall).2.1 j hji (hsame ▸ hj)
    · have hfree := hdone.replacing j hj
      rw [setPool_pool] at hj
      split at hj
      · cases hj
      · exact ⟨hfree.1, fun e hcurrent he => (hm.replacing j hj).2 e hcurrent (hawaited e he)⟩
    · simp only [Option.some.injEq, Prod.mk.injEq] at htarget
      refine ⟨htarget.1 ▸ hm.uris i uri huri, fun j => ?_⟩
      rw [setPool_pool]
      split
      · rfl
      · rename_i hji
        rw [Bool.eq_false_iff]
        intro hj
        exact hji (hm.one j i hj hconnecting)
  · exact hdone

theorem targetStands_eq_false {m : Replacement}
    (h : ∀ u e, m.target = some (u, some e) → m.current = some e → (m.links e).ended = true) :
    m.targetStands = false := by
  unfold targetStands
  split
  · rename_i u e htarget
    by_cases hcurrent : m.current = some e
    · simp [h u e htarget hcurrent]
    · simp [hcurrent]
  · rfl

theorem MayReplace.targetStands {m : Replacement} (hm : m.MayReplace) : m.targetStands = false :=
  targetStands_eq_false fun u e htarget hcurrent => hm.2 e hcurrent (.inl ⟨u, htarget⟩)

/-- The engine is exchanged; thread `i` goes on with the new one. -/
theorem Agreed.install {m refused : Replacement} (hm : m.Agreed) {i : Nat} {next : Nat → Thread}
    (hrefused : refused.Agreed) (hstands : m.targetStands = false)
    (hnext : ∀ m' : Replacement, m'.pool = m.pool → m'.baseUri = m.baseUri →
      m'.calls = m.calls → m'.target = m.target → m'.installed = m.installed + 1 →
      m'.Fits i (next m.installed)) :
    (m.install i next refused).Agreed := by
  unfold Replacement.install
  split
  · exact hrefused
  · have hkept : ∀ e, e < m.installed →
        Function.update m.links m.installed {} e = m.links e := by
      intro e he
      exact Function.update_of_ne (Nat.ne_of_lt he) _ _
    have hexchanged : Agreed { m with
        links := Function.update m.links m.installed {}
        current := some m.installed
        installed := m.installed + 1 } :=
      { uris := hm.uris
        one := hm.one
        calls := hm.calls
        reports := by
          intro j e hj
          obtain ⟨hlt, hended⟩ := hm.reports j e hj
          exact ⟨Nat.lt_succ_of_lt hlt, (congrArg Link.ended (hkept e hlt)).trans hended⟩
        current_lt := by
          intro e he
          cases he
          exact Nat.lt_succ_self _
        awaited_lt := fun e he => Nat.lt_succ_of_lt (hm.awaited_lt e he)
        replacing := by
          intro j hj
          refine ⟨(hm.replacing j hj).1, fun e hcurrent he => ?_⟩
          -- nobody awaits the new engine yet
          cases hcurrent
          exact absurd (hm.awaited_lt _ he) (Nat.lt_irrefl _)
        target := hm.target
        aimed := hm.aimed }
    refine (hexchanged.setPool (hnext _ rfl rfl rfl rfl rfl)).frame ?_
    simp only [core, hstands]
    rfl

theorem Agreed.connectInstall {m : Replacement} (hm : m.Agreed) {i call : Nat} {uri : Bytes}
    (hi : m.pool i = .connectInstall call uri) :
    (m.install i (.connectOpen call uri) ((m.setPool i .done).returned call uri none)).Agreed := by
  have hconnecting : (m.pool i).connecting = true := by
    rw [hi]
    rfl
  have hcall : (m.pool i).call = some call := by
    rw [hi]
    rfl
  have huri : (m.pool i).uri = some uri := by
    rw [hi]
    rfl
  have hrefused : ((m.setPool i .done).returned call uri none).Agreed :=
    hm.returned hcall huri hconnecting (by simp)
  have hstands : m.targetStands = false := by
    refine targetStands_eq_false fun u e htarget _ => ?_
    rw [(hm.target u _ htarget).2 i] at hconnecting
    cases hconnecting
  have hnone : ∀ j, (m.pool j).replacing = false := by
    intro j
    rw [Bool.eq_false_iff]
    intro hj
    have hfree := (hm.replacing j hj).1 i
    rw [hi] at hfree
    cases hfree
  refine hm.install hrefused hstands fun m' hpool hbase hcalls htarget hinstalled => ?_
  refine ⟨fun u hu => ?_, fun _ => by rw [hpool]; exact hconnecting, by simp, fun k hk => ?_,
    by simp, fun k u e hopen => ?_, by simp⟩
  · cases hu
    rw [hbase]
    exact hm.uris i uri huri
  · cases hk
    unfold OwnCall
    rw [hpool, hcalls, htarget]
    exact hm.calls i call hcall
  · cases hopen
    rw [hpool, hinstalled]
    exact ⟨Nat.lt_succ_self _, hnone⟩

theorem Agreed.connectOpen {m : Replacement} (hm : m.Agreed) {i call e : Nat} {uri : Bytes}
    (hi : m.pool i = .connectOpen call uri e) :
    (((m.openUri uri e).setPool i .done).returned call uri (some e)).Agreed := by
  have hopened : (m.openUri uri e).Agreed := hm.openUri e (hm.uris i uri (by rw [hi]; rfl))
  have hpool : (m.openUri uri e).pool i = .connectOpen call uri e := hi
  refine hopened.returned ?_ ?_ ?_ fun e' he' => ?_
  · rw [hpool]
    rfl
  · rw [hpool]
    rfl
  · rw [hpool]
    rfl
  · cases he'
    exact hpool

/-! ### Deciding and storing -/

/-- A thread that only replaces. -/
theorem Agreed.setReplacing {m : Replacement} (hm : m.Agreed) {i : Nat} {t : Thread}
    (ht : t.replacing = true) (huri : ∀ u, t.uri = some u → u = m.baseUri)
    (hmay : m.MayReplace) : (m.setPool i t).Agreed := by
  refine hm.setPool ⟨huri, ?_, ?_, ?_, ?_, ?_, fun _ => hmay⟩ <;>
    cases t <;> simp_all

/-- Who reports the end of the current engine decides to replace it. -/
theorem Agreed.decide {m : Replacement} (hm : m.Agreed) {i e : Nat} {t : Thread}
    (hi : (m.pool i).subject = some e) (hcurrent : m.current = some e)
    (hnone : ∀ j, (m.pool j).installing = false) (ht : t.replacing = true)
    (huri : t.uri = none) : (m.setPool i t).Agreed := by
  refine hm.setReplacing ht (fun u hu => ?_) ⟨hnone, fun e' he' _ => ?_⟩
  · rw [huri] at hu
    cases hu
  · rw [hcurrent] at he'
    cases he'
    exact (hm.reports i e hi).2

theorem Agreed.spawn {m : Replacement} (hm : m.Agreed) {i : Nat} {uri : Bytes}
    (hreplacing : (m.pool i).replacing = true) (huri : (m.pool i).uri = some uri) :
    (m.spawn i uri).Agreed := by
  have hdone : (m.setPool i .done).Agreed := hm.move (Thread.done_within _)
  have hmay : (m.setPool i .done).MayReplace :=
    (hm.replacing i hreplacing).setPool (by simp) (by simp)
  have hworker : ((m.setPool i .done).setPool m.threads (.waiting uri)).Agreed := by
    refine hdone.setReplacing rfl (fun u hu => ?_) hmay
    cases hu
    exact hm.uris i uri huri
  exact hworker.frame rfl

/-- `base_uri_ = uri` in the last call, with the others out of the way. -/
theorem Agreed.store {m : Replacement} (hm : m.Agreed) {i call : Nat} {uri : Bytes}
    (hi : m.pool i = .connectStore call uri) (hlast : call + 1 = m.calls)
    (hother : ∀ j, j ≠ i → (m.pool j).connecting = false ∧ (m.pool j).replacing = false ∧
      (m.pool j).reopening = false) :
    Agreed { m.setPool i (.connectResume call uri) with baseUri := uri } := by
  have hcall : (m.pool i).call = some call := by
    rw [hi]
    rfl
  have hnone : m.target = none := by
    by_contra htarget
    exact (hm.calls i call hcall).2.2 htarget hlast
  have hpool : ∀ j, (m.setPool i (.connectResume call uri)).pool j
      = if j = i then .connectResume call uri else m.pool j := fun j => setPool_pool m i j _
  have hself : ∀ j, ((m.setPool i (.connectResume call uri)).pool j).connecting = true →
      j = i := by
    intro j hj
    by_contra hji
    rw [hpool, if_neg hji, (hother j hji).1] at hj
    cases hj
  have hcalls : ∀ j, ((m.setPool i (.connectResume call uri)).pool j).call
      = (m.pool j).call := by
    intro j
    rw [hpool]
    split
    · rename_i hji
      rw [hji, hcall]
      rfl
    · rfl
  have hawaited : ∀ e, Awaited { m.setPool i (.connectResume call uri) with baseUri := uri } e →
      m.Awaited e := by
    rintro e (⟨u, htarget⟩ | ⟨j, k, u, hj⟩)
    · exact .inl ⟨u, htarget⟩
    · rw [hpool] at hj
      split at hj
      · cases hj
      · exact .inr ⟨j, k, u, hj⟩
  refine ⟨fun j u hj => ?_, fun j j' hj hj' => (hself j hj).trans (hself j' hj').symm,
    fun j k hj => ?_, fun j e hj => ?_, hm.current_lt, fun e he => hm.awaited_lt e (hawaited e he),
    fun j hj => ?_, fun u oe htarget => ?_, hm.aimed⟩
  · rw [hpool] at hj
    split at hj
    · cases hj
      rfl
    · rename_i hji
      obtain ⟨hc, hr, ho⟩ := hother j hji
      rcases Thread.uri_kind hj with h | h | h
      · rw [hc] at h
        cases h
      · rw [hr] at h
        cases h
      · rw [ho] at h
        cases h
  · rw [hcalls] at hj
    obtain ⟨hlt, hfree, htarget⟩ := hm.calls j k hj
    refine ⟨hlt, fun j' hj' => ?_, htarget⟩
    rw [hcalls]
    exact hfree j' hj'
  · rw [hpool] at hj
    split at hj
    · cases hj
    · exact hm.reports j e hj
  · rw [hpool] at hj
    split at hj
    · cases hj
    · rename_i hji
      rw [(hother j hji).2.1] at hj
      cases hj
  · have hsome : m.target = some (u, oe) := htarget
    rw [hnone] at hsome
    cases hsome

/-! ### Steps -/

theorem Moves.within {m : Replacement} {t t' : Thread} (h : m.Moves t t') : t'.Within t := by
  cases h <;> constructor <;> simp

theorem step_agreed (m : Replacement) (a : Action) (m' : Replacement) (hm : m.Agreed)
    (hC : m.Undisputed a) (h : step m a = some m') : m'.Agreed := by
  -- a thread that reports the end of the current engine
  have hreport : ∀ {e : Nat} {t : Thread}, m.current = some e → (m.links e).ended = true →
      t = .closing e ∨ t = .erring e → (m.begin t).Agreed := by
    intro e t hcurrent hended ht
    have hreported : e < m.installed ∧ (m.links e).ended = true :=
      ⟨hm.current_lt e hcurrent, hended⟩
    have hbegun : (m.setPool m.threads t).Agreed := by
      refine hm.setPool ?_
      rcases ht with rfl | rfl
      · constructor <;> simp [hreported]
      · constructor <;> simp [hreported]
    exact hbegun.frame rfl
  have hdone : ∀ i, (m.setPool i .done).Agreed := fun i => hm.move (Thread.done_within _)
  have hmove : ∀ {i : Nat} {t t' : Thread}, m.pool i = t → t'.Within t →
      (m.setPool i t').Agreed :=
    fun hi ht => hm.move (hi ▸ ht)
  cases step_cases h with
  | connect uri =>
    have hcalled := hm.noTarget (Nat.le_succ m.calls)
    refine Agreed.frame (hcalled.setPool (i := m.threads) (t := .connectStop m.calls uri) ?_) rfl
    refine ⟨by simp, by simp, by simp, fun k hk => ?_, by simp, by simp, by simp⟩
    cases hk
    refine ⟨Nat.lt_succ_self _, fun j _ hj => ?_, fun h => absurd rfl h⟩
    exact Nat.lt_irrefl _ (hm.calls j _ hj).1
  | close => exact (hm.noTarget (Nat.le_refl m.calls)).frame rfl
  | stop =>
    have hbegun : (m.setPool m.threads .stopping).Agreed :=
      hm.setPool (by constructor <;> simp)
    exact hbegun.frame rfl
  | opened e hstarted =>
    have hlink : (m.setLink e { m.links e with isOpen := true }).Agreed := hm.setLink fun h => h
    exact hlink.frame rfl
  | closed e | failed e => exact hm.setLink fun _ => rfl
  | closeArrive e hcurrent hended hclosed => exact hreport hcurrent hended (.inl rfl)
  | errorArrive e hcurrent hended => exact hreport hcurrent hended (.inr rfl)
  | ends i choice => exact hdone i
  | moves i choice t ht => exact hm.move ht.within
  | connectReap i call uri w hi hworker =>
    have hmoved : (m.setPool i (.connectJoin call uri w)).Agreed :=
      hmove hi (by constructor <;> simp)
    exact hmoved.frame rfl
  | connectStore i choice call uri hi =>
    simp only [Undisputed, hi] at hC
    exact hm.store hi hC.1 hC.2
  | connectResume i choice call uri hi =>
    have hmoved : (m.setPool i (.connectReset call uri)).Agreed :=
      hmove hi (by constructor <;> simp)
    exact hmoved.frame rfl
  | connectReset i choice call uri hi =>
    have hmoved : (m.setPool i (.connectInstall call uri)).Agreed :=
      hmove hi (by constructor <;> simp)
    exact hmoved.frame rfl
  | connectInstall i choice call uri hi => exact hm.connectInstall hi
  | connectOpen i call uri e hi => exact hm.connectOpen hi
  | schedule i e hi hopen =>
    simp only [Undisputed, hi] at hC
    rcases hC with hclose | hchoice | ⟨hcurrent, hnone⟩
    · rw [hopen] at hclose
      cases hclose
    · cases hchoice
    · exact hm.decide (by rw [hi]; rfl) hcurrent hnone rfl rfl
  | readUri i choice hi =>
    refine hm.setReplacing rfl (fun u hu => ?_) (hm.replacing i (by rw [hi]; rfl))
    cases hu
    rfl
  | spawn i choice uri hreplacing huri => exact hm.spawn hreplacing huri
  | workerInstall i choice uri hi =>
    have hstands := (hm.replacing i (by rw [hi]; rfl)).targetStands
    refine hm.install (hdone i) hstands fun m' _ hbase _ _ _ => ?_
    refine ⟨fun u hu => ?_, by simp, by simp, by simp, by simp, by simp, by simp⟩
    cases hu
    rw [hbase]
    exact hm.uris i uri (by rw [hi]; rfl)
  | reopened i choice uri e hi =>
    have huri : uri = m.baseUri := by
      rcases hi with hi | hi
      · exact hm.uris i uri (by rw [hi]; rfl)
      · exact hm.uris i uri (by rw [hi]; rfl)
    exact (hm.openUri e huri).move (Thread.done_within _)
  | fallBack i choice e hi hclosed => exact hmove hi (by constructor <;> simp)
  | insist i choice e hi hopen => exact hmove hi (by constructor <;> simp)
  | exchange i choice e hi hpolling =>
    simp only [Undisputed, hi] at hC
    obtain ⟨hcurrent, hnone⟩ := hC.resolve_left (by simp [hpolling])
    have hdecided : (m.setPool i .fallbackInstall).Agreed :=
      hm.decide (by rw [hi]; rfl) hcurrent hnone rfl rfl
    exact hdecided.frame rfl
  | fallbackInstall i choice hi =>
    have hstands := (hm.replacing i (by rw [hi]; rfl)).targetStands
    refine hm.install (hdone i) hstands fun m' _ _ _ _ _ => ?_
    constructor <;> simp
  | fallbackBuild i e hi =>
    refine hm.setPool ⟨fun u hu => ?_, by simp, by simp, by simp, by simp, by simp, by simp⟩
    cases hu
    rfl
  | stopReap i choice w hi hworker =>
    have hmoved : (m.setPool i (.stopJoin w)).Agreed :=
      hmove hi (by constructor <;> simp)
    exact hmoved.frame rfl

/-- **When the last `connect` decides.** Along every run in which a
`connect` stores its URI as the last call with no other thread past that
point or on its way to a replacement, and in which replacements are
decided on for the current engine with no `connect` about to install, the
client opens URLs of the last URI only, from the return of `connect` until
the next `connect` or `close`, and does not replace the engine of that
call before it has closed or failed. -/
theorem aimed_of_undisputed (forceHttpPolling : Bool) {as : List Action} {m : Replacement}
    (h : run step { forceHttpPolling := forceHttpPolling } as = some m)
    (hC : Meets step Undisputed { forceHttpPolling := forceHttpPolling } as) : m.Aimed :=
  (run_invariant step_agreed as _ m (agreed_start forceHttpPolling) hC h).aimed

/-- The connection drops and the worker reconnects. -/
def dropped : List Action :=
  connectRun (ascii "v") 0 ++ [.opened 0, .closed 0, .closeArrive 0] ++ goes 1 3 ++ goes 2 4

theorem aimed_of_undisputed_dropped :
    ∃ m, run step { forceHttpPolling := false } dropped = some m ∧
      m.target = some (ascii "v", some 0) ∧ m.current = some 1 ∧ m.Aimed := by
  refine ⟨_, rfl, rfl, rfl, @aimed_of_undisputed false dropped _ rfl ?_⟩
  refine (meets_cons_iff rfl).mpr ⟨trivial, ?_⟩
  refine (meets_cons_iff rfl).mpr ⟨trivial, ?_⟩
  refine (meets_cons_iff rfl).mpr ⟨⟨rfl, fun j hj => ?_⟩, ?_⟩
  · cases j with
    | zero => exact absurd rfl hj
    | succ j => exact ⟨rfl, rfl, rfl⟩
  iterate 7 refine (meets_cons_iff rfl).mpr ⟨trivial, ?_⟩
  refine (meets_cons_iff rfl).mpr ⟨.inr (.inr ⟨rfl, fun j => ?_⟩), ?_⟩
  · rcases j with _ | _ | j <;> rfl
  iterate 6 refine (meets_cons_iff rfl).mpr ⟨trivial, ?_⟩
  trivial

/-- A worker for `v` is waiting out its delay when `connect(u)` runs from
start to end; then the worker goes on. -/
def pendingWorker : List Action :=
  connectRun (ascii "v") 0 ++ [.opened 0, .closed 0, .closeArrive 0] ++ goes 1 3 ++
    connectRun (ascii "u") 3 ++ goes 2 4

theorem pendingWorker_replaces :
    ∃ m, run step {} pendingWorker = some m ∧ m.target = some (ascii "u", some 1) ∧
      m.current = some 2 ∧ (m.links 1).ended = false ∧ m.wrongUris = 1 ∧ m.unearned = 1 ∧
      ¬ m.Aimed := by
  refine ⟨_, rfl, rfl, rfl, rfl, rfl, rfl, fun haimed => ?_⟩
  cases haimed.1

end Replacement

end Sioxx
