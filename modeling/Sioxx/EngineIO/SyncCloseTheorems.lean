/-
Sioxx.EngineIO.SyncCloseTheorems — when the shutdown of a managed polling
transport cannot deadlock.

The only circle the three threads can form runs through all of them: the
application joins the poll thread and holds `connect_mutex_`, the poll
worker joins the heartbeat thread, and that one waits for the mutex.
`Law` keeps this out: once the application has been through
`stop_heartbeat_timer`, nobody takes the heartbeat thread any more, and
whoever took it before is looked at when `join_threads` takes the mutex.

`noCycle_iff` gives the exact condition: `join_threads` does not take
`connect_mutex_` while the poll worker joins a heartbeat thread that has
still to take it.
-/
import Sioxx.EngineIO.SyncClose

namespace Sioxx

open Lib

/-! ## Program points -/

/-- The application holds `connect_mutex_`. -/
def ApplicationPc.holds : ApplicationPc → Bool
  | .inClose _ => true
  | .unlockClose _ _ => true
  | .joinWorkers => true
  | .joinPoll => true
  | .unlockJoin => true
  | _ => false

/-- The application is past taking `heartbeat_thread_` in
`stop_heartbeat_timer`: in the join, or after the call of `sync_close`. -/
def ApplicationPc.stopped : ApplicationPc → Bool
  | .joinHeartbeat _ => true
  | .lockClose last => last
  | .inClose last => last
  | .unlockClose last _ => last
  | .stopRequest (.handler last) => last
  | .takeHeartbeat (.handler last) => last
  | .onClose last => last
  | .lockJoin => true
  | .joinWorkers => true
  | .joinPoll => true
  | .unlockJoin => true
  | .returned => true
  | _ => false

/-- In `join_threads`, up to the join of the poll thread. -/
def ApplicationPc.joins : ApplicationPc → Bool
  | .joinWorkers => true
  | .joinPoll => true
  | _ => false

/-- The heartbeat worker holds `connect_mutex_`. -/
def HeartbeatPc.holds : HeartbeatPc → Bool
  | .inClose => true
  | .unlockClose _ => true
  | _ => false

namespace SyncClose

variable {s s' : SyncClose}

/-! ## The law -/

structure Law (s : SyncClose) : Prop where
  application : s.connectMutex = some .application ↔ s.application.holds = true
  heartbeat : s.connectMutex = some .heartbeat ↔ s.heartbeat.holds = true
  poll : s.connectMutex ≠ some .poll
  /-- Nobody takes the heartbeat thread after the application has tried. -/
  stopped : s.application.stopped = true → s.handle ≠ .held
  /-- A heartbeat thread that the poll worker joins is past the mutex. -/
  safe : s.application.joins = true → s.poll = .joinHeartbeat → s.heartbeat.beforeLock = false

theorem law_start (engineClosing transportClosing shutdownOnce : Bool) :
    (start engineClosing transportClosing shutdownOnce).Law where
  application := by simp [start, ApplicationPc.holds]
  heartbeat := by simp [start, HeartbeatPc.holds]
  poll := by simp [start]
  stopped := by simp [start, ApplicationPc.stopped]
  safe := by simp [start, ApplicationPc.joins]

theorem awaits_poll {u : Party} (h : s.awaits .poll = some u) :
    s.poll = .joinHeartbeat ∧ u = .heartbeat := by
  simp only [awaits] at h
  split at h
  · rename_i hpc
    split at h
    · cases h
    · cases h
      exact ⟨hpc, rfl⟩
  · cases h

theorem awaits_heartbeat {u : Party} (h : s.awaits .heartbeat = some u) :
    s.heartbeat = .lockClose ∧ s.connectMutex = some u := by
  simp only [awaits] at h
  split at h
  · rename_i hpc
    exact ⟨hpc, h⟩
  · cases h

theorem awaits_application {u : Party} (h : s.awaits .application = some u) :
    (s.application.holds = false ∧ s.connectMutex = some u) ∨
      (s.application.holds = false ∧ u = .heartbeat) ∨ (s.application = .joinPoll ∧ u = .poll) := by
  simp only [awaits] at h
  split at h
  · rename_i hpc
    rw [hpc]
    exact .inl ⟨rfl, h⟩
  · rename_i hpc
    rw [hpc]
    exact .inl ⟨rfl, h⟩
  · rename_i hpc
    rw [hpc]
    split at h
    · cases h
    · cases h
      exact .inr (.inl ⟨rfl, rfl⟩)
  · rename_i hpc
    split at h
    · cases h
    · cases h
      exact .inr (.inr ⟨hpc, rfl⟩)
  · cases h

/-- With the mutex in hand the application waits for the poll thread only. -/
theorem awaits_application_holds {u : Party} (hholds : s.application.holds = true)
    (h : s.awaits .application = some u) : s.application = .joinPoll ∧ u = .poll := by
  rcases awaits_application h with ⟨hfree, _⟩ | ⟨hfree, _⟩ | hjoin
  · rw [hholds] at hfree
    cases hfree
  · rw [hholds] at hfree
    cases hfree
  · exact hjoin

theorem Law.awaits_application_self (h : s.Law) : s.awaits .application ≠ some .application := by
  intro hself
  rcases awaits_application hself with ⟨hfree, hmutex⟩ | ⟨_, hno⟩ | ⟨_, hno⟩
  · rw [h.application.mp hmutex] at hfree
    cases hfree
  · cases hno
  · cases hno

/-- A heartbeat worker that waits finds the mutex with the application; if
that one waits too, it joins a poll worker that does not wait. -/
theorem Law.noCycle (h : s.Law) : s.NoCycle := by
  cases hheart : s.awaits .heartbeat with
  | none =>
    refine waitsAcyclic_of_rank (fun | .heartbeat => 0 | .poll => 1 | .application => 2) ?_
    intro t u hawaits
    cases t with
    | heartbeat =>
      rw [hheart] at hawaits
      cases hawaits
    | poll =>
      rw [(awaits_poll hawaits).2]
      decide
    | application =>
      cases u with
      | heartbeat => decide
      | poll => decide
      | application => exact absurd hawaits h.awaits_application_self
  | some owner =>
    obtain ⟨hpc, hmutex⟩ := awaits_heartbeat hheart
    have howner : owner = .application := by
      cases owner with
      | application => rfl
      | poll => exact absurd hmutex h.poll
      | heartbeat =>
        rw [h.heartbeat, hpc] at hmutex
        cases hmutex
    subst howner
    have hholds := h.application.mp hmutex
    cases happ : s.awaits .application with
    | none =>
      refine waitsAcyclic_of_rank (fun | .application => 0 | .heartbeat => 1 | .poll => 2) ?_
      intro t u hawaits
      cases t with
      | heartbeat =>
        rw [hheart] at hawaits
        cases hawaits
        decide
      | poll =>
        rw [(awaits_poll hawaits).2]
        decide
      | application =>
        rw [happ] at hawaits
        cases hawaits
    | some joined =>
      obtain ⟨hjoin, rfl⟩ := awaits_application_holds hholds happ
      refine waitsAcyclic_of_rank (fun | .poll => 0 | .application => 1 | .heartbeat => 2) ?_
      intro t u hawaits
      cases t with
      | heartbeat =>
        rw [hheart] at hawaits
        cases hawaits
        decide
      | poll =>
        have hsafe := h.safe (by rw [hjoin]; rfl) (awaits_poll hawaits).1
        rw [hpc] at hsafe
        cases hsafe
      | application =>
        rw [happ] at hawaits
        cases hawaits
        decide

/-! ## Steps of the application -/

theorem Law.moveApplication (h : s.Law) (hmutex : s'.connectMutex = s.connectMutex)
    (hpoll : s'.poll = s.poll) (hheart : s'.heartbeat = s.heartbeat)
    (hholds : s'.application.holds = s.application.holds)
    (hstopped : s'.application.stopped = true → s'.handle ≠ .held)
    (hjoins : s'.application.joins = true → s.application.joins = true) : s'.Law where
  application := by
    rw [hmutex, hholds]
    exact h.application
  heartbeat := by
    rw [hmutex, hheart]
    exact h.heartbeat
  poll := by
    rw [hmutex]
    exact h.poll
  stopped := hstopped
  safe := by
    intro hj
    rw [hpoll, hheart]
    exact h.safe (hjoins hj)

theorem Law.lockApplication (h : s.Law) (hfree : s.connectMutex = none) {pc : ApplicationPc}
    (hholds : pc.holds = true) (hstopped : pc.stopped = true → s.handle ≠ .held)
    (hjoins : pc.joins = true → s.poll = .joinHeartbeat → s.heartbeat.beforeLock = false) :
    Law { s with application := pc, connectMutex := some .application } where
  application := by simp [hholds]
  heartbeat := by
    have hno : s.heartbeat.holds ≠ true := by
      rw [Ne, ← h.heartbeat, hfree]
      simp
    simp [hno]
  poll := by simp
  stopped := hstopped
  safe := hjoins

theorem holds_of_joins {pc : ApplicationPc} (h : pc.joins = true) : pc.holds = true := by
  cases pc <;> first | rfl | cases h

/-- The application goes on between two points without the mutex. -/
theorem Law.walkApplication (h : s.Law) (hmutex : s'.connectMutex = s.connectMutex)
    (hpoll : s'.poll = s.poll) (hheart : s'.heartbeat = s.heartbeat)
    (hfrom : s.application.holds = false) (hto : s'.application.holds = false)
    (hstopped : s'.application.stopped = true → s'.handle ≠ .held) : s'.Law := by
  refine h.moveApplication hmutex hpoll hheart (hto.trans hfrom.symm) hstopped fun hjoins => ?_
  rw [holds_of_joins hjoins] at hto
  cases hto

theorem Law.unlockApplication (h : s.Law) (hheld : s.application.holds = true) {pc : ApplicationPc}
    (hholds : pc.holds = false) (hstopped : pc.stopped = true → s.handle ≠ .held) :
    Law { s with application := pc, connectMutex := none } where
  application := by simp [hholds]
  heartbeat := by
    have hno : s.heartbeat.holds ≠ true := by
      rw [Ne, ← h.heartbeat, h.application.mpr hheld]
      simp
    simp [hno]
  poll := by simp
  stopped := hstopped
  safe := by
    intro hj
    rw [holds_of_joins hj] at hholds
    cases hholds

theorem afterStop_holds (call : StopCall) : (afterStop call).holds = false := by
  cases call <;> rfl

theorem afterClose_holds (last : Bool) : (afterClose last).holds = false := by
  cases last <;> rfl

theorem afterClose_stopped (last : Bool) : (afterClose last).stopped = last := by
  cases last <;> rfl

theorem shutdown_keeps (s : SyncClose) : s.shutdown.2.connectMutex = s.connectMutex ∧
    s.shutdown.2.poll = s.poll ∧ s.shutdown.2.heartbeat = s.heartbeat ∧
    s.shutdown.2.application = s.application ∧ s.shutdown.2.handle = s.handle := by
  unfold shutdown
  split <;> exact ⟨rfl, rfl, rfl, rfl, rfl⟩

theorem applicationStep_law (h : s.Law) (hC : s.InTurn .application)
    (hstep : s.applicationStep = some s') : s'.Law := by
  have hstopped := h.stopped
  cases hpc : s.application with
  | exchange =>
    simp only [applicationStep, hpc] at hstep
    split at hstep <;>
    · cases hstep
      exact h.walkApplication rfl rfl rfl (by rw [hpc]; rfl) rfl (fun hno => by cases hno)
  | requestStop =>
    simp only [applicationStep, hpc] at hstep
    cases hstep
    exact h.walkApplication rfl rfl rfl (by rw [hpc]; rfl) rfl (fun hno => by cases hno)
  | clearOpen =>
    simp only [applicationStep, hpc] at hstep
    cases hstep
    exact h.walkApplication rfl rfl rfl (by rw [hpc]; rfl) rfl (fun hno => by cases hno)
  | lockClose last =>
    rw [hpc] at hstopped
    simp only [applicationStep, hpc] at hstep
    split at hstep
    · cases hstep
    · rename_i hfree
      cases hstep
      exact h.lockApplication hfree rfl hstopped (fun hno => by cases hno)
  | inClose last =>
    rw [hpc] at hstopped
    simp only [applicationStep, hpc] at hstep
    cases hstep
    obtain ⟨hmutex, hpoll, hheart, _, hhandle⟩ := s.shutdown_keeps
    refine h.moveApplication hmutex hpoll hheart (by rw [hpc]; rfl) ?_ (fun hno => by cases hno)
    intro hlast
    rw [hhandle]
    exact hstopped hlast
  | unlockClose last notify =>
    rw [hpc] at hstopped
    simp only [applicationStep, hpc] at hstep
    cases hstep
    cases notify with
    | false =>
      refine h.unlockApplication (by rw [hpc]; rfl) (afterClose_holds last) fun hlast => ?_
      exact hstopped ((afterClose_stopped last).symm.trans hlast)
    | true => exact h.unlockApplication (by rw [hpc]; rfl) rfl hstopped
  | stopRequest call =>
    rw [hpc] at hstopped
    simp only [applicationStep, hpc] at hstep
    cases hstep
    refine h.walkApplication rfl rfl rfl (by rw [hpc]; rfl) rfl ?_
    cases call with
    | handler last => exact hstopped
    | own => exact fun hno => by cases hno
  | takeHeartbeat call =>
    simp only [applicationStep, hpc] at hstep
    split at hstep
    · cases hstep
      refine h.walkApplication rfl rfl rfl (by rw [hpc]; rfl) rfl ?_
      intro _ hheld
      cases hheld
    · rename_i hgone
      cases hstep
      exact h.walkApplication rfl rfl rfl (by rw [hpc]; rfl) (afterStop_holds call) fun _ => hgone
  | joinHeartbeat call =>
    rw [hpc] at hstopped
    simp only [applicationStep, hpc] at hstep
    split at hstep
    · cases hstep
      exact h.walkApplication rfl rfl rfl (by rw [hpc]; rfl) (afterStop_holds call)
        fun _ => hstopped rfl
    · cases hstep
  | onClose last =>
    rw [hpc] at hstopped
    simp only [applicationStep, hpc] at hstep
    cases hstep
    refine h.walkApplication rfl rfl rfl (by rw [hpc]; rfl) (afterClose_holds last) fun hlast => ?_
    exact hstopped ((afterClose_stopped last).symm.trans hlast)
  | lockJoin =>
    rw [hpc] at hstopped
    simp only [applicationStep, hpc] at hstep
    split at hstep
    · cases hstep
    · rename_i hfree
      cases hstep
      exact h.lockApplication hfree rfl hstopped (fun _ => hC hpc)
  | joinWorkers =>
    rw [hpc] at hstopped
    simp only [applicationStep, hpc] at hstep
    cases hstep
    exact h.moveApplication rfl rfl rfl (by rw [hpc]; rfl) hstopped (fun _ => by rw [hpc]; rfl)
  | joinPoll =>
    rw [hpc] at hstopped
    simp only [applicationStep, hpc] at hstep
    split at hstep
    · cases hstep
      exact h.moveApplication rfl rfl rfl (by rw [hpc]; rfl) hstopped (fun hno => by cases hno)
    · cases hstep
  | unlockJoin =>
    rw [hpc] at hstopped
    simp only [applicationStep, hpc] at hstep
    cases hstep
    exact h.unlockApplication (by rw [hpc]; rfl) rfl hstopped
  | returned =>
    simp only [applicationStep, hpc] at hstep
    cases hstep

/-! ## Steps of the workers -/

theorem stopped_of_joins {pc : ApplicationPc} (h : pc.joins = true) : pc.stopped = true := by
  cases pc <;> first | rfl | cases h

theorem Law.movePoll (h : s.Law) (hmutex : s'.connectMutex = s.connectMutex)
    (happ : s'.application = s.application) (hheart : s'.heartbeat = s.heartbeat)
    (hhandle : s'.handle = .held → s.handle = .held)
    (hjoin : s'.poll = .joinHeartbeat → s.poll = .joinHeartbeat ∨ s.handle = .held) :
    s'.Law where
  application := by
    rw [hmutex, happ]
    exact h.application
  heartbeat := by
    rw [hmutex, hheart]
    exact h.heartbeat
  poll := by
    rw [hmutex]
    exact h.poll
  stopped := by
    intro hs hheld
    rw [happ] at hs
    exact h.stopped hs (hhandle hheld)
  safe := by
    intro hj hp
    rw [happ] at hj
    rw [hheart]
    rcases hjoin hp with hold | hheld
    · exact h.safe hj hold
    · -- in `join_threads` the thread is no longer there to be taken
      exact absurd hheld (h.stopped (stopped_of_joins hj))

theorem pollStep_law {fails : Bool} (h : s.Law) (hstep : s.pollStep fails = some s') : s'.Law := by
  cases hpc : s.poll with
  | polling =>
    simp only [pollStep, hpc] at hstep
    split at hstep
    · cases hstep
      exact h.movePoll rfl rfl rfl (fun hheld => hheld) (fun hno => by cases hno)
    · split at hstep
      · cases hstep
        exact h.movePoll rfl rfl rfl (fun hheld => hheld) (fun hno => by cases hno)
      · cases hstep
        exact h
  | failing =>
    simp only [pollStep, hpc] at hstep
    split at hstep <;>
    · cases hstep
      exact h.movePoll rfl rfl rfl (fun hheld => hheld) (fun hno => by cases hno)
  | onError =>
    simp only [pollStep, hpc] at hstep
    cases hstep
    exact h.movePoll rfl rfl rfl (fun hheld => hheld) (fun hno => by cases hno)
  | stopRequest =>
    simp only [pollStep, hpc] at hstep
    cases hstep
    exact h.movePoll rfl rfl rfl (fun hheld => hheld) (fun hno => by cases hno)
  | takeHeartbeat =>
    simp only [pollStep, hpc] at hstep
    split at hstep
    · rename_i hheld
      cases hstep
      exact h.movePoll rfl rfl rfl (fun hno => by cases hno) (fun _ => .inr hheld)
    · cases hstep
      exact h.movePoll rfl rfl rfl (fun hheld => hheld) (fun hno => by cases hno)
  | joinHeartbeat =>
    simp only [pollStep, hpc] at hstep
    split at hstep
    · cases hstep
      exact h.movePoll rfl rfl rfl (fun hheld => hheld) (fun hno => by cases hno)
    · cases hstep
  | onClose =>
    simp only [pollStep, hpc] at hstep
    cases hstep
    exact h.movePoll rfl rfl rfl (fun hheld => hheld) (fun hno => by cases hno)
  | finished =>
    simp only [pollStep, hpc] at hstep
    cases hstep

theorem Law.moveHeartbeat (h : s.Law) (hmutex : s'.connectMutex = s.connectMutex)
    (happ : s'.application = s.application) (hpoll : s'.poll = s.poll)
    (hhandle : s'.handle = .held → s.handle = .held)
    (hholds : s'.heartbeat.holds = s.heartbeat.holds)
    (hbefore : s'.heartbeat.beforeLock = true → s.heartbeat.beforeLock = true) : s'.Law where
  application := by
    rw [hmutex, happ]
    exact h.application
  heartbeat := by
    rw [hmutex, hholds]
    exact h.heartbeat
  poll := by
    rw [hmutex]
    exact h.poll
  stopped := by
    intro hs hheld
    rw [happ] at hs
    exact h.stopped hs (hhandle hheld)
  safe := by
    intro hj hp
    rw [happ] at hj
    rw [hpoll] at hp
    rw [Bool.eq_false_iff]
    intro hyes
    have hno := h.safe hj hp
    rw [hbefore hyes] at hno
    cases hno

theorem heartbeatStep_law (h : s.Law) (hstep : s.heartbeatStep = some s') : s'.Law := by
  cases hpc : s.heartbeat with
  | declared =>
    simp only [heartbeatStep, hpc] at hstep
    cases hstep
    exact h.moveHeartbeat rfl rfl rfl (fun hheld => hheld) (by rw [hpc]; rfl)
      (fun _ => by rw [hpc]; rfl)
  | lockClose =>
    simp only [heartbeatStep, hpc] at hstep
    split at hstep
    · cases hstep
    · rename_i hfree
      cases hstep
      have hno : s.application.holds ≠ true := by
        rw [Ne, ← h.application, hfree]
        simp
      exact
        { application := by simp [hno]
          heartbeat := by simp [HeartbeatPc.holds]
          poll := by simp
          stopped := h.stopped
          safe := fun _ _ => rfl }
  | inClose =>
    simp only [heartbeatStep, hpc] at hstep
    cases hstep
    obtain ⟨hmutex, hpoll, _, happ, hhandle⟩ := s.shutdown_keeps
    refine h.moveHeartbeat hmutex happ hpoll ?_ (by rw [hpc]; rfl) (fun hno => by cases hno)
    intro hheld
    exact hhandle.symm.trans hheld
  | unlockClose notify =>
    simp only [heartbeatStep, hpc] at hstep
    cases hstep
    have hmutex : s.connectMutex = some .heartbeat := h.heartbeat.mpr (by rw [hpc]; rfl)
    have hno : s.application.holds ≠ true := by
      rw [Ne, ← h.application, hmutex]
      simp
    exact
      { application := by simp [hno]
        heartbeat := by cases notify <;> simp [HeartbeatPc.holds]
        poll := by simp
        stopped := h.stopped
        safe := fun _ _ => by cases notify <;> rfl }
  | stopRequest =>
    simp only [heartbeatStep, hpc] at hstep
    cases hstep
    exact h.moveHeartbeat rfl rfl rfl (fun hheld => hheld) (by rw [hpc]; rfl)
      (fun hno => by cases hno)
  | detachSelf =>
    simp only [heartbeatStep, hpc] at hstep
    cases hstep
    refine h.moveHeartbeat rfl rfl rfl ?_ (by rw [hpc]; rfl) (fun hno => by cases hno)
    intro hheld
    simp only at hheld
    split at hheld
    · cases hheld
    · exact hheld
  | onClose =>
    simp only [heartbeatStep, hpc] at hstep
    cases hstep
    exact h.moveHeartbeat rfl rfl rfl (fun hheld => hheld) (by rw [hpc]; rfl)
      (fun hno => by cases hno)
  | finished =>
    simp only [heartbeatStep, hpc] at hstep
    cases hstep

theorem step_law {a : Action} (h : s.Law) (hC : s.InTurn a) (hstep : s.step a = some s') :
    s'.Law := by
  cases a with
  | application => exact applicationStep_law h hC hstep
  | poll fails => exact pollStep_law h hstep
  | heartbeat => exact heartbeatStep_law h hstep

/-! ## The circle -/

/-- Both workers are where they wait; the application comes to its join. -/
theorem cycle_of_joinWorkers (happ : s.application = .joinWorkers)
    (hmutex : s.connectMutex = some .application) (hpoll : s.poll = .joinHeartbeat)
    (hheart : s.heartbeat = .lockClose) :
    ∃ u, Meets step InTurn s [.application] ∧ run step s [.application] = some u ∧
      ¬ u.NoCycle := by
  have hstep : s.step .application = some { s with application := .joinPoll } := by
    simp only [step, applicationStep, happ]
  refine ⟨_, (meets_cons_iff hstep).mpr ⟨fun hno => ?_, trivial⟩,
    run_cons_iff.mpr ⟨_, hstep, rfl⟩, ?_⟩
  · rw [happ] at hno
    cases hno
  · refine not_waitsAcyclic (t := .application) (u := .poll) (v := .heartbeat) ?_ ?_ ?_
    · simp [awaits, hpoll]
    · simp [awaits, hpoll, hheart]
    · simp [awaits, hheart, hmutex]

theorem beforeLock_cases {pc : HeartbeatPc} (h : pc.beforeLock = true) :
    pc = .declared ∨ pc = .lockClose := by
  cases pc with
  | declared => exact .inl rfl
  | lockClose => exact .inr rfl
  | inClose => cases h
  | unlockClose notify => cases h
  | stopRequest => cases h
  | detachSelf => cases h
  | onClose => cases h
  | finished => cases h

/-- If need be the heartbeat worker first comes to the mutex. -/
theorem cycle_of_beforeLock (happ : s.application = .joinWorkers)
    (hmutex : s.connectMutex = some .application) (hpoll : s.poll = .joinHeartbeat)
    (hbefore : s.heartbeat.beforeLock = true) :
    ∃ bs u, Meets step InTurn s bs ∧ run step s bs = some u ∧ ¬ u.NoCycle := by
  rcases beforeLock_cases hbefore with hheart | hheart
  · have hlock : s.step .heartbeat = some { s with heartbeat := .lockClose } := by
      simp only [step, heartbeatStep, hheart]
    obtain ⟨u, hmeets, hrun, hcycle⟩ :=
      cycle_of_joinWorkers (s := { s with heartbeat := .lockClose }) happ hmutex hpoll rfl
    exact ⟨.heartbeat :: _, u, (meets_cons_iff hlock).mpr ⟨trivial, hmeets⟩,
      run_cons_iff.mpr ⟨_, hlock, hrun⟩, hcycle⟩
  · obtain ⟨u, hmeets, hrun, hcycle⟩ := cycle_of_joinWorkers happ hmutex hpoll hheart
    exact ⟨_, u, hmeets, hrun, hcycle⟩

/-- Taken out of turn, the mutex leads into the circle. -/
theorem lockJoin_breaks {a : Action} (hC : ¬ s.InTurn a) (hstep : s.step a = some s') :
    ∃ bs u, Meets step InTurn s' bs ∧ run step s' bs = some u ∧ ¬ u.NoCycle := by
  cases a with
  | poll fails => exact absurd trivial hC
  | heartbeat => exact absurd trivial hC
  | application =>
    simp only [InTurn, Classical.not_imp, Bool.not_eq_false] at hC
    obtain ⟨hpc, hpoll, hbefore⟩ := hC
    simp only [step, applicationStep, hpc] at hstep
    split at hstep
    · cases hstep
    · cases hstep
      exact cycle_of_beforeLock rfl rfl hpoll hbefore

/-- **No deadlock.** In every run of the three threads, and however it goes
on under the same condition, no state has them waiting in a circle —
exactly if `join_threads` never takes `connect_mutex_` while the poll
worker joins a heartbeat thread that has still to take it. -/
theorem noCycle_iff (engineClosing transportClosing shutdownOnce : Bool) {as : List Action}
    {t : SyncClose}
    (h : run step (start engineClosing transportClosing shutdownOnce) as = some t) :
    Meets step InTurn (start engineClosing transportClosing shutdownOnce) as ↔
      ∀ k m bs u, run step (start engineClosing transportClosing shutdownOnce) (as.take k)
          = some m → Meets step InTurn m bs → run step m bs = some u → u.NoCycle :=
  meets_iff_completions (fun _ _ _ hs => step_law hs) (fun _ hs => hs.noCycle)
    (fun _ _ hK => hK) (fun _ _ _ _ => lockJoin_breaks) as _ t
    (law_start engineClosing transportClosing shutdownOnce) h

/-- The application joins the heartbeat thread itself, before the request
fails, and comes to its end. -/
def stoppedFirst : List Action :=
  List.replicate 8 .application ++ List.replicate 4 .heartbeat ++ List.replicate 9 .application ++
    [.poll true, .poll true, .application, .application]

theorem noCycle_iff_stoppedFirst :
    ∃ t, run step (start false false false) stoppedFirst = some t ∧ t.application = .returned ∧
      (Meets step InTurn (start false false false) stoppedFirst ↔
        ∀ k m bs u, run step (start false false false) (stoppedFirst.take k) = some m →
          Meets step InTurn m bs → run step m bs = some u → u.NoCycle) :=
  ⟨_, rfl, rfl, noCycle_iff false false false rfl⟩

/-- The poll worker takes the heartbeat thread; the application finds it
gone, takes `connect_mutex_` and joins the poll thread; the heartbeat worker
comes to `connect_mutex_`. -/
def takenByPoll : List Action :=
  List.replicate 5 (.poll true) ++ List.replicate 13 .application ++ [.heartbeat]

/-- Nothing moves any more. -/
theorem takenByPoll_deadlocks :
    ∃ t, run step (start false false false) takenByPoll = some t ∧
      t.awaits .application = some .poll ∧ t.awaits .poll = some .heartbeat ∧
      t.awaits .heartbeat = some .application ∧ (∀ a, t.step a = none) ∧ ¬ t.NoCycle := by
  refine ⟨_, rfl, rfl, rfl, rfl, fun a => ?_, ?_⟩
  · cases a with
    | application => rfl
    | poll fails => rfl
    | heartbeat => rfl
  · exact not_waitsAcyclic (t := .application) (u := .poll) (v := .heartbeat) rfl rfl rfl

end SyncClose

end Sioxx
