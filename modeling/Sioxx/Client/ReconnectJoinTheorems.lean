/-
Sioxx.Client.ReconnectJoinTheorems — when the reconnect protocol cannot
deadlock on itself.

Every run keeps the bookkeeping of the join (`Formed`): the notifier that
joins holds `reconnect_mutex_`, it joins the worker that `reconnect_thread_`
refers to, and this worker is not its own host.

The join inside the critical section is safe as long as close notifications
come one at a time and find the previous worker past its wait, and the
listeners on a worker's thread do not stop the reconnect thread while the
worker is joined (`Safe`). The first step that does not keep to this leaves
the schedule a way into the deadlock (`out_of_turn_can_deadlock`).
-/
import Sioxx.Client.ReconnectTheorems

namespace Sioxx

open Lib

namespace Reconnector

variable {opts : ReconnectOptions} {s s' : Reconnector}

/-! ## The pools -/

theorem of_mem_setStopper {k : Nat} {place : StopperPlace} {st : Stopper}
    (h : st ∈ (s.setStopper k place).stoppers) :
    st ∈ s.stoppers ∨ ∃ st₀, s.stoppers[k]? = some st₀ ∧ st = { st₀ with place := place } := by
  obtain ⟨j, hj⟩ := List.mem_iff_getElem?.mp h
  simp only [setStopper, List.getElem?_modify] at hj
  split at hj
  · rename_i heq
    subst heq
    obtain ⟨st₀, hst₀, hst⟩ := Option.map_eq_some_iff.mp hj
    exact .inr ⟨st₀, hst₀, hst.symm⟩
  · exact .inl (List.mem_of_getElem? (by simpa using hj))

/-- The notifiers after one of them has moved. -/
theorem setNotifier_getElem? (s : Reconnector) (i j : Nat) (place : NotifierPlace) :
    (s.setNotifier i place).notifiers[j]? =
      if i = j then s.notifiers[j]?.map fun n => { n with place := place }
      else s.notifiers[j]? := by
  simp only [setNotifier, List.getElem?_modify]
  split <;> simp

theorem of_setNotifier {i j : Nat} {place : NotifierPlace} {n : Notifier}
    (h : (s.setNotifier i place).notifiers[j]? = some n) :
    (j = i ∧ ∃ n₀, s.notifiers[i]? = some n₀ ∧ n = { n₀ with place := place }) ∨
      (j ≠ i ∧ s.notifiers[j]? = some n) := by
  rw [setNotifier_getElem?] at h
  split at h
  · rename_i heq
    subst heq
    obtain ⟨n₀, hn₀, hn⟩ := Option.map_eq_some_iff.mp h
    exact .inl ⟨rfl, n₀, hn₀, hn.symm⟩
  · rename_i hne
    exact .inr ⟨fun heq => hne heq.symm, h⟩

theorem setNotifier_self {i : Nat} {place : NotifierPlace} {n : Notifier}
    (h : s.notifiers[i]? = some n) :
    (s.setNotifier i place).notifiers[i]? = some { n with place := place } := by
  simp [setNotifier_getElem?, h]

theorem setNotifier_other {i j : Nat} (place : NotifierPlace) (hne : i ≠ j) :
    (s.setNotifier i place).notifiers[j]? = s.notifiers[j]? := by
  simp [setNotifier_getElem?, hne]

/-- A call that moves on is hosted where it was. -/
theorem Hosts.of_setNotifier {i w : Nat} {n : Notifier} (place : NotifierPlace)
    (hi : s.notifiers[i]? = some n) (hn : n.place ≠ .done)
    (h : (s.setNotifier i place).Hosts w) : s.Hosts w := by
  refine h.imp ?_ id
  rintro ⟨m, hm, hhost, hplace⟩
  obtain ⟨j, hj⟩ := List.mem_iff_getElem?.mp hm
  rcases Reconnector.of_setNotifier hj with ⟨rfl, n₀, hn₀, rfl⟩ | ⟨-, hj⟩
  · cases hi.symm.trans hn₀
    exact ⟨n, List.mem_of_getElem? hi, hhost, hn⟩
  · exact ⟨m, List.mem_of_getElem? hj, hhost, hplace⟩

theorem Hosts.of_setStopper {k w : Nat} {st : Stopper} (place : StopperPlace)
    (hk : s.stoppers[k]? = some st) (hst : st.place ≠ .done)
    (h : (s.setStopper k place).Hosts w) : s.Hosts w := by
  refine h.imp id ?_
  rintro ⟨m, hm, hhost, hplace⟩
  rcases of_mem_setStopper hm with hm | ⟨st₀, hst₀, rfl⟩
  · exact ⟨m, hm, hhost, hplace⟩
  · cases hk.symm.trans hst₀
    exact ⟨st, List.mem_of_getElem? hk, hhost, hst⟩

theorem Hosts.of_addStopper {w : Nat} {host : Option Nat} {place : StopperPlace}
    (h : (s.addStopper host place).Hosts w) : s.Hosts w ∨ host = some w := by
  rcases h with h | ⟨m, hm, hhost, hplace⟩
  · exact .inl (.inl h)
  · simp only [addStopper, List.mem_append, List.mem_singleton] at hm
    rcases hm with hm | rfl
    · exact .inl (.inr ⟨m, hm, hhost, hplace⟩)
    · exact .inr hhost

/-! ## What every run keeps -/

/-- The bookkeeping that every run keeps: who is hosted where, who holds the
mutex, and which worker a notifier joins. -/
structure Formed (s : Reconnector) : Prop where
  started : ∀ w, s.thread = some w → w < s.workers.length
  hosts : ∀ w, s.Hosts w → s.workers[w]? = some .running
  joining : ∀ i n w, s.notifiers[i]? = some n → n.place = .joining w →
    s.mutex = some i ∧ s.thread = some w ∧ n.host ≠ some w
  holder : ∀ i, s.mutex = some i → ∃ n w, s.notifiers[i]? = some n ∧ n.place = .joining w
  apart : ∀ w, s.JoinsOther w → s.thread ≠ some w

theorem formed_init : Formed {} := by
  constructor <;> simp [Hosts, JoinsOther]

/-- Steps that leave the notifiers, the mutex and the thread object alone. -/
theorem Formed.frame (hf : s.Formed) (hnotifiers : s'.notifiers = s.notifiers)
    (hmutex : s'.mutex = s.mutex) (hthread : s'.thread = s.thread)
    (hlength : s'.workers.length = s.workers.length)
    (hhosts : ∀ w, s'.Hosts w → s'.workers[w]? = some .running)
    (hjoins : ∀ w, s'.JoinsOther w → s.JoinsOther w) : s'.Formed := by
  refine ⟨?_, hhosts, ?_, ?_, ?_⟩
  · simpa [hthread, hlength] using hf.started
  · simpa [hnotifiers, hmutex, hthread] using hf.joining
  · simpa [hnotifiers, hmutex] using hf.holder
  · intro w hw
    rw [hthread]
    exact hf.apart w (hjoins w hw)

theorem joinsOther_of_setStopper {k w : Nat} {place : StopperPlace}
    (hplace : ∀ connecting v, place ≠ .joining connecting v)
    (h : (s.setStopper k place).JoinsOther w) : s.JoinsOther w := by
  obtain ⟨st, hst, hhost, connecting, v, hv⟩ := h
  rcases of_mem_setStopper hst with hst | ⟨st₀, -, rfl⟩
  · exact ⟨st, hst, hhost, connecting, v, hv⟩
  · exact absurd hv (hplace connecting v)

theorem joinsOther_of_addStopper {w : Nat} {host : Option Nat} {place : StopperPlace}
    (hplace : ∀ connecting v, place ≠ .joining connecting v)
    (h : (s.addStopper host place).JoinsOther w) : s.JoinsOther w := by
  obtain ⟨st, hst, hhost, connecting, v, hv⟩ := h
  simp only [addStopper, List.mem_append, List.mem_singleton] at hst
  rcases hst with hst | rfl
  · exact ⟨st, hst, hhost, connecting, v, hv⟩
  · exact absurd hv (hplace connecting v)

theorem addStopper_formed {host : Option Nat} {place : StopperPlace} (hf : s.Formed)
    (hhost : s.CanHost host) (hplace : ∀ connecting v, place ≠ .joining connecting v) :
    (s.addStopper host place).Formed := by
  refine hf.frame rfl rfl rfl rfl (fun w hw => ?_) fun w => joinsOther_of_addStopper hplace
  rcases hw.of_addStopper with hw | rfl
  · exact hf.hosts w hw
  · exact hhost w rfl

theorem setStopper_formed {k : Nat} {st : Stopper} {place : StopperPlace} (hf : s.Formed)
    (hk : s.stoppers[k]? = some st) (hst : st.place ≠ .done)
    (hplace : ∀ connecting v, place ≠ .joining connecting v) : (s.setStopper k place).Formed :=
  hf.frame rfl rfl rfl rfl (fun w hw => hf.hosts w (hw.of_setStopper _ hk hst))
    fun _ => joinsOther_of_setStopper hplace

/-- A worker moves on only while it hosts nothing. -/
theorem setWorker_formed {w : Nat} (new : ReconnectWorker) (hf : s.Formed) (hfree : ¬ s.Hosts w) :
    (s.setWorker w new).Formed := by
  refine hf.frame rfl rfl rfl (by simp [setWorker]) (fun v hv => ?_) fun _ hv => hv
  have hne : w ≠ v := by
    rintro rfl
    exact hfree hv
  simpa [setWorker, List.getElem?_set, hne] using hf.hosts v hv

/-- A worker that is not running hosts nothing. -/
theorem Formed.not_hosts {w : Nat} {worker : ReconnectWorker} (hf : s.Formed)
    (hw : s.workers[w]? = some worker) (hne : worker ≠ .running) : ¬ s.Hosts w := by
  intro hhosts
  cases hw.symm.trans (hf.hosts w hhosts)
  exact hne rfl

/-- A notifier that gives up its place leaves the joins of the others. -/
theorem returned_formed {i : Nat} {n : Notifier} (hf : s.Formed) (hi : s.notifiers[i]? = some n)
    (hn : n.place = .scheduling) : (s.setNotifier i .done).Formed := by
  refine ⟨hf.started, fun w hw => hf.hosts w (hw.of_setNotifier _ hi (by simp [hn])), ?_, ?_,
    hf.apart⟩
  · intro j m w hj hm
    rcases of_setNotifier hj with ⟨-, n₀, -, rfl⟩ | ⟨-, hj⟩
    · cases hm
    · exact hf.joining j m w hj hm
  · intro j hj
    obtain ⟨m, w, hm, hw⟩ := hf.holder j hj
    have hne : i ≠ j := by
      rintro rfl
      cases hi.symm.trans hm
      simp [hn] at hw
    exact ⟨m, w, (setNotifier_other _ hne).trans hm, hw⟩

theorem spawn_formed {i : Nat} {n : Notifier} (hf : s.Formed) (hi : s.notifiers[i]? = some n)
    (hn : n.place ≠ .done) (hmutex : ∀ j, s.mutex = some j → j = i) : (s.spawn i).Formed := by
  have hhosts : ∀ w, (s.spawn i).Hosts w → s.workers[w]? = some .running :=
    fun w hw => hf.hosts w (Hosts.of_setNotifier .done hi hn hw)
  refine ⟨?_, ?_, ?_, by simp [spawn], ?_⟩
  · intro w hw
    cases hw
    simp [spawn]
  · intro w hw
    have hrunning := hhosts w hw
    show (s.workers ++ [.starting])[w]? = _
    rw [List.getElem?_append_left (List.getElem?_eq_some_iff.mp hrunning).1, hrunning]
  · -- whoever joins holds the mutex, and the notifier has just left it
    intro j m w hj hm
    rcases of_setNotifier (s := s) hj with ⟨-, n₀, -, rfl⟩ | ⟨hne, hj⟩
    · cases hm
    · exact absurd (hmutex j (hf.joining j m w hj hm).1) hne
  · rintro w ⟨st, hst, hhost, connecting, v, hv⟩ hw
    cases hw
    have hrunning := hf.hosts s.workers.length (.inr ⟨st, hst, hhost, by simp [hv]⟩)
    simp at hrunning

theorem join_formed {i w : Nat} {n : Notifier} (hf : s.Formed) (hi : s.notifiers[i]? = some n)
    (hn : n.place = .scheduling) (hfree : s.mutex = none) (hw : s.thread = some w)
    (hhost : n.host ≠ some w) : (s.join i w).Formed := by
  refine ⟨hf.started, fun v hv => hf.hosts v (Hosts.of_setNotifier (.joining w) hi
    (by simp [hn]) hv), ?_, ?_, hf.apart⟩
  · intro j m v hj hm
    rcases of_setNotifier (s := s) hj with ⟨rfl, n₀, hn₀, rfl⟩ | ⟨-, hj⟩
    · cases hm
      cases hi.symm.trans hn₀
      exact ⟨rfl, hw, hhost⟩
    · simpa [hfree] using (hf.joining j m v hj hm).1
  · intro j hj
    cases hj
    exact ⟨_, w, setNotifier_self hi, rfl⟩

/-- `stop_reconnect_thread` moves the thread object out only when nobody
joins it inside the critical section. -/
theorem moveOut_formed {k w : Nat} {st : Stopper} {connecting : Bool} (hf : s.Formed)
    (hk : s.stoppers[k]? = some st) (hst : st.place ≠ .done) (hfree : s.mutex = none) :
    Formed { s.setStopper k (.joining connecting w) with thread := none } := by
  refine ⟨by simp, fun v hv => hf.hosts v (Hosts.of_setStopper (.joining connecting w)
    hk hst hv), ?_, hf.holder, by simp⟩
  intro i n v hi hn
  exact absurd (hf.joining i n v hi hn).1 (by simp [hfree])

theorem onEngineioClose_formed {host : Option Nat} {sample : ℚ} (hf : s.Formed)
    (hhost : s.CanHost host) : (s.onEngineioClose opts host sample).Formed := by
  unfold onEngineioClose scheduleReconnect
  split_ifs
  · exact hf.frame rfl rfl rfl rfl hf.hosts fun _ hw => hw
  · have hnew : ∀ (j : Nat) (n : Notifier),
        (s.notifiers ++ [Notifier.mk host .scheduling])[j]? = some n →
          s.notifiers[j]? = some n ∨ n = ⟨host, .scheduling⟩ := by
      intro j n hj
      rw [List.getElem?_append] at hj
      split at hj
      · exact .inl hj
      · exact .inr (by simpa using List.mem_of_getElem? hj)
    refine ⟨hf.started, ?_, ?_, ?_, hf.apart⟩
    · rintro w (⟨n, hn, hw, hplace⟩ | hw)
      · obtain ⟨j, hj⟩ := List.mem_iff_getElem?.mp hn
        rcases hnew j n hj with hj | rfl
        · exact hf.hosts w (.inl ⟨n, List.mem_of_getElem? hj, hw, hplace⟩)
        · exact hhost w hw
      · exact hf.hosts w (.inr hw)
    · intro j n w hj hn
      rcases hnew j n hj with hj | rfl
      · exact hf.joining j n w hj hn
      · cases hn
    · intro j hj
      obtain ⟨n, w, hn, hw⟩ := hf.holder j hj
      refine ⟨n, w, ?_, hw⟩
      rw [List.getElem?_append_left (List.getElem?_eq_some_iff.mp hn).1, hn]
  · exact hf

/-! ## What a step does -/

/-- What a notifier does when it comes to the mutex. -/
theorem scheduleLock_cases {i : Nat} (h : s.step opts (.scheduleLock i) = some s') :
    ∃ n, s.notifiers[i]? = some n ∧ n.place = .scheduling ∧ s.mutex = none ∧
      ((s' = s.setNotifier i .done ∧
          (s.intentionalClose = true ∨ ∃ w, s.thread = some w ∧ n.host = some w)) ∨
        (s' = s.spawn i ∧ s.intentionalClose = false ∧ s.thread = none) ∨
        ∃ w, s' = s.join i w ∧ s.intentionalClose = false ∧ s.thread = some w ∧
          n.host ≠ some w) := by
  simp only [step] at h
  split at h
  · rename_i host hi
    split at h
    · rename_i hfree
      refine ⟨_, hi, rfl, hfree, ?_⟩
      split at h
      · rename_i hclose
        cases h
        exact .inl ⟨rfl, .inl hclose⟩
      · rename_i hopen
        have hopen : s.intentionalClose = false := by simpa using hopen
        split at h
        · rename_i hthread
          cases h
          exact .inr (.inl ⟨rfl, hopen, hthread⟩)
        · rename_i w hthread
          split at h <;> cases h <;> rename_i hhost
          · exact .inl ⟨rfl, .inr ⟨w, hthread, hhost⟩⟩
          · exact .inr (.inr ⟨w, rfl, hopen, hthread, hhost⟩)
    · cases h
  · cases h

theorem scheduleJoined_cases {i : Nat} (h : s.step opts (.scheduleJoined i) = some s') :
    ∃ n w, s.notifiers[i]? = some n ∧ n.place = .joining w ∧ s.workers[w]? = some .done ∧
      s' = s.spawn i := by
  simp only [step] at h
  split at h
  · rename_i host w hi
    split at h <;> cases h
    rename_i hw
    exact ⟨_, w, hi, rfl, hw, rfl⟩
  · cases h

/-- What a stopper does when it comes to the mutex. -/
theorem stopLock_cases {k : Nat} (h : s.step opts (.stopLock k) = some s') :
    ∃ st connecting, s.stoppers[k]? = some st ∧ st.place = .stopping connecting ∧
      s.mutex = none ∧
      (s' = s.stopped k connecting ∨
        ∃ w, s.thread = some w ∧ st.host ≠ some w ∧
          s' = { s.setStopper k (.joining connecting w) with thread := none }) := by
  simp only [step] at h
  split at h
  · rename_i host connecting hk
    split at h
    · rename_i hfree
      refine ⟨_, connecting, hk, rfl, hfree, ?_⟩
      split at h
      · cases h
        exact .inl rfl
      · rename_i w hthread
        split at h <;> cases h <;> rename_i hhost
        · exact .inl rfl
        · exact .inr ⟨w, hthread, hhost, rfl⟩
    · cases h
  · cases h

theorem stopJoined_cases {k : Nat} (h : s.step opts (.stopJoined k) = some s') :
    ∃ st connecting w, s.stoppers[k]? = some st ∧ st.place = .joining connecting w ∧
      s.workers[w]? = some .done ∧ s' = s.stopped k connecting := by
  simp only [step] at h
  split at h
  · rename_i host connecting w hk
    split at h <;> cases h
    rename_i hw
    exact ⟨_, connecting, w, hk, rfl, hw, rfl⟩
  · cases h

theorem store_cases {k : Nat} (h : s.step opts (.store k) = some s') :
    ∃ st, s.stoppers[k]? = some st ∧ st.place = .storing ∧
      s' = s.restart.setStopper k .done := by
  simp only [step] at h
  split at h
  · rename_i host hk
    cases h
    exact ⟨_, hk, rfl, rfl⟩
  · cases h

/-- A worker moves on; it is in its wait before, or done after. -/
theorem worker_cases {a : ReconnectAction} {w : Nat} (h : s.step opts a = some s')
    (ha : a = .workerLock w ∨ a = .workerWake w ∨ (∃ expired, a = .workerRelock w expired) ∨
      a = .workerFinish w) :
    ∃ old new, s.workers[w]? = some old ∧ s' = s.setWorker w new ∧
      ((old.hasToRelock = true) ∨ (new = .done ∧ ¬ s.Hosts w)) := by
  rcases ha with rfl | rfl | ⟨expired, rfl⟩ | rfl <;> simp only [step] at h <;>
    split at h <;> cases h <;> rename_i hw
  · exact ⟨_, _, hw.1, rfl, .inl rfl⟩
  · exact ⟨_, _, hw, rfl, .inl rfl⟩
  · exact ⟨_, _, hw.1, rfl, .inl rfl⟩
  · exact ⟨_, _, hw.1, rfl, .inr ⟨rfl, hw.2⟩⟩

theorem stopped_formed {k : Nat} {st : Stopper} {connecting : Bool} (hf : s.Formed)
    (hk : s.stoppers[k]? = some st) (hst : st.place ≠ .done) :
    (s.stopped k connecting).Formed :=
  setStopper_formed hf hk hst (by intro c v; cases connecting <;> simp)

theorem step_formed {a : ReconnectAction} (hf : s.Formed) (h : s.step opts a = some s') :
    s'.Formed := by
  cases a with
  | connect host =>
    simp only [step] at h
    split at h <;> cases h
    rename_i hhost
    exact addStopper_formed hf hhost (by intro c v; split <;> simp)
  | syncClose host =>
    simp only [step] at h
    split at h <;> cases h
    rename_i hhost
    have hclose : Formed { s with intentionalClose := true } :=
      hf.frame rfl rfl rfl rfl hf.hosts fun _ hw => hw
    exact addStopper_formed hclose hhost (by simp)
  | store k =>
    obtain ⟨st, hk, hst, rfl⟩ := store_cases h
    have hrestart : s.restart.Formed := hf.frame rfl rfl rfl rfl hf.hosts fun _ hw => hw
    exact setStopper_formed hrestart hk (by simp [hst]) (by simp)
  | opened | close =>
    cases h
    exact hf.frame rfl rfl rfl rfl hf.hosts fun _ hw => hw
  | closed host sample =>
    simp only [step] at h
    split at h <;> cases h
    rename_i hhost
    exact onEngineioClose_formed hf hhost
  | scheduleLock i =>
    obtain ⟨n, hi, hn, hfree, hcase⟩ := scheduleLock_cases h
    rcases hcase with ⟨rfl, -⟩ | ⟨rfl, -, -⟩ | ⟨w, rfl, -, hw, hhost⟩
    · exact returned_formed hf hi hn
    · exact spawn_formed hf hi (by simp [hn]) (by simp [hfree])
    · exact join_formed hf hi hn hfree hw hhost
  | scheduleJoined i =>
    obtain ⟨n, w, hi, hn, -, rfl⟩ := scheduleJoined_cases h
    refine spawn_formed hf hi (by simp [hn]) fun j hj => ?_
    exact Option.some.inj (hj.symm.trans (hf.joining i n w hi hn).1)
  | workerLock w | workerWake w | workerRelock w expired | workerFinish w =>
    obtain ⟨old, new, hold, rfl, hcase⟩ := worker_cases (w := w) h (by simp)
    refine setWorker_formed new hf ?_
    rcases hcase with hwait | ⟨-, hfree⟩
    · exact hf.not_hosts hold (by rintro rfl; cases hwait)
    · exact hfree
  | stopLock k =>
    obtain ⟨st, connecting, hk, hst, hfree, rfl | ⟨w, -, -, rfl⟩⟩ := stopLock_cases h
    · exact stopped_formed hf hk (by simp [hst])
    · exact moveOut_formed hf hk (by simp [hst]) hfree
  | stopJoined k =>
    obtain ⟨st, connecting, w, hk, hst, -, rfl⟩ := stopJoined_cases h
    exact stopped_formed hf hk (by simp [hst])

/-! ## Runs in turn -/

/-- The notifier is between its decision to schedule and its return. -/
def Active (s : Reconnector) (i : Nat) : Prop :=
  ∃ n, s.notifiers[i]? = some n ∧ n.place ≠ .done

/-- The worker is past its wait. -/
def Passed (s : Reconnector) (w : Nat) : Prop :=
  ∀ worker, s.workers[w]? = some worker → worker.hasToRelock = false

/-- One notifier at a time; the worker it may come to join is past its wait,
and hosts no stopper, unless the notifier will find the client closed. -/
structure Safe (s : Reconnector) : Prop where
  formed : s.Formed
  single : ∀ i j, s.Active i → s.Active j → i = j
  past : ∀ (i : Nat) (n : Notifier) (w : Nat), s.notifiers[i]? = some n → n.place ≠ .done →
    s.thread = some w → n.host ≠ some w →
      s.Passed w ∧ (s.Stopping w → s.intentionalClose = true ∧ n.place = .scheduling)

theorem safe_init : Safe {} :=
  ⟨formed_init, by simp [Active], by simp⟩

/-- Steps that leave the notifiers and the thread object alone, and start no
stopper on a worker's thread. -/
theorem Safe.frame (hs : s.Safe) (hf : s'.Formed) (hnotifiers : s'.notifiers = s.notifiers)
    (hthread : s'.thread = s.thread) (hpassed : ∀ w, s.Passed w → s'.Passed w)
    (hstopping : ∀ w, s'.Stopping w → s.Stopping w)
    (hclose : s.intentionalClose = true → s'.intentionalClose = true) : s'.Safe := by
  refine ⟨hf, ?_, ?_⟩
  · simpa only [Active, hnotifiers] using hs.single
  · intro i n w hi hn hw hhost
    rw [hnotifiers] at hi
    rw [hthread] at hw
    obtain ⟨hpast, hstop⟩ := hs.past i n w hi hn hw hhost
    refine ⟨hpassed w hpast, fun hstopping' => ?_⟩
    obtain ⟨hclosed, hplace⟩ := hstop (hstopping w hstopping')
    exact ⟨hclose hclosed, hplace⟩

/-- Without a notifier under way there is nothing to join. -/
theorem Safe.of_inactive (hf : s.Formed) (hno : ∀ i, ¬ s.Active i) : s.Safe :=
  ⟨hf, fun i _ hi => absurd hi (hno i), fun i n _ hi hn => absurd ⟨n, hi, hn⟩ (hno i)⟩

theorem inactive_of_returned {i : Nat} (hs : s.Safe) (hi : s.Active i) (j : Nat) :
    ¬ (s.setNotifier i .done).Active j := by
  rintro ⟨n, hn, hdone⟩
  rcases of_setNotifier hn with ⟨-, n₀, -, rfl⟩ | ⟨hne, hn⟩
  · exact hdone rfl
  · exact hne (hs.single j i ⟨n, hn, hdone⟩ hi)

theorem stopping_of_setStopper {k w : Nat} {place : StopperPlace}
    (hplace : ∀ connecting, place ≠ .stopping connecting)
    (h : (s.setStopper k place).Stopping w) : s.Stopping w := by
  obtain ⟨st, hst, hhost, hstop⟩ := h
  rcases of_mem_setStopper hst with hst | ⟨st₀, -, rfl⟩
  · exact ⟨st, hst, hhost, hstop⟩
  · rcases hstop with hstop | hstop
    · exact absurd hstop (hplace true)
    · exact absurd hstop (hplace false)

theorem stopping_of_addStopper {w : Nat} {host : Option Nat} {place : StopperPlace}
    (h : (s.addStopper host place).Stopping w) :
    s.Stopping w ∨ (host = some w ∧ ∃ connecting, place = .stopping connecting) := by
  obtain ⟨st, hst, hhost, hstop⟩ := h
  simp only [addStopper, List.mem_append, List.mem_singleton] at hst
  rcases hst with hst | rfl
  · exact .inl ⟨st, hst, hhost, hstop⟩
  · exact .inr ⟨hhost, hstop.elim (⟨_, ·⟩) (⟨_, ·⟩)⟩

/-- A stopper starts while the client is closed and its host is not joined. -/
theorem addStopping_safe {host : Option Nat} {connecting : Bool} (hs : s.Safe)
    (hf : (s.addStopper host (.stopping connecting)).Formed) (hclose : s.intentionalClose = true)
    (hjoined : s.NotJoined host) : (s.addStopper host (.stopping connecting)).Safe := by
  refine ⟨hf, hs.single, fun i n w hi hn hw hhost => ?_⟩
  obtain ⟨hpast, hstop⟩ := hs.past i n w hi hn hw hhost
  refine ⟨hpast, fun hstopping => ⟨hclose, ?_⟩⟩
  rcases stopping_of_addStopper hstopping with hstopping | ⟨rfl, -⟩
  · exact (hstop hstopping).2
  · cases hplace : n.place with
    | scheduling => rfl
    | done => exact absurd hplace hn
    | joining v =>
      -- the only worker that can be joined is the last one
      cases hw.symm.trans (hs.formed.joining i n v hi hplace).2.1
      exact absurd hplace (hjoined w rfl n (List.mem_of_getElem? hi))

theorem closed_safe {host : Option Nat} {sample : ℚ} (hs : s.Safe)
    (hf : (s.onEngineioClose opts host sample).Formed)
    (hturn : s.InTurn opts (.closed host sample)) : (s.onEngineioClose opts host sample).Safe := by
  revert hf
  unfold onEngineioClose scheduleReconnect
  split_ifs with hgo hfail
  · exact fun hf => hs.frame hf rfl rfl (fun _ hw => hw) (fun _ hw => hw) fun hc => hc
  · intro hf
    have hquiet : s.Quiet host := by
      rcases hturn with h1 | h1 | h1
      · simp [hgo.1] at h1
      · omega
      · exact h1
    obtain ⟨hdone, hpast⟩ := hquiet
    -- the new notifier is the only one, and it has not reached the mutex
    have hnew : ∀ (j : Nat) (n : Notifier),
        (s.notifiers ++ [Notifier.mk host .scheduling])[j]? = some n → n.place ≠ .done →
          j = s.notifiers.length ∧ n = ⟨host, .scheduling⟩ := by
      intro j n hn hne
      rw [List.getElem?_append] at hn
      split at hn
      · exact absurd (hdone n (List.mem_of_getElem? hn)) hne
      · have hj := (List.getElem?_eq_some_iff.mp hn).1
        simp only [List.length_singleton] at hj
        have hzero : j - s.notifiers.length = 0 := by omega
        exact ⟨by omega, by simpa [hzero] using hn.symm⟩
    refine ⟨hf, ?_, ?_⟩
    · rintro j k ⟨n, hn, hne⟩ ⟨n', hn', hne'⟩
      exact (hnew j n hn hne).1.trans (hnew k n' hn' hne').1.symm
    · intro j n w hj hn hw hhost
      obtain ⟨-, rfl⟩ := hnew j n hj hn
      have hneeds := (hpast w hw).resolve_left hhost
      refine ⟨fun worker hworker => ?_, fun hstopping => ?_⟩
      · by_contra hlock
        exact hneeds (.inl ⟨worker, hworker, by simpa using hlock⟩)
      · exact absurd (.inr (.inl hstopping)) hneeds
  · exact fun _ => hs

theorem join_safe {i w : Nat} {n : Notifier} (hs : s.Safe) (hf : (s.join i w).Formed)
    (hi : s.notifiers[i]? = some n) (hn : n.place = .scheduling)
    (hopen : s.intentionalClose = false) (hw : s.thread = some w) (hhost : n.host ≠ some w) :
    (s.join i w).Safe := by
  have hactive : s.Active i := ⟨n, hi, by simp [hn]⟩
  have honly : ∀ j m, (s.setNotifier i (.joining w)).notifiers[j]? = some m → m.place ≠ .done →
      j = i := by
    intro j m hj hm
    rcases of_setNotifier hj with ⟨rfl, -⟩ | ⟨-, hj⟩
    · rfl
    · exact hs.single j i ⟨m, hj, hm⟩ hactive
  refine ⟨hf, ?_, ?_⟩
  · rintro j k ⟨m, hm, hdone⟩ ⟨m', hm', hdone'⟩
    exact (honly j m hm hdone).trans (honly k m' hm' hdone').symm
  · intro j m v _ _ hv _
    cases hw.symm.trans hv
    obtain ⟨hpast, hstop⟩ := hs.past i n w hi (by simp [hn]) hw hhost
    refine ⟨hpast, fun hstopping => ?_⟩
    simp [(hstop hstopping).1] at hopen

/-- A worker that moves on does not go back before its wait. -/
theorem setWorker_safe {w : Nat} {old new : ReconnectWorker} (hs : s.Safe)
    (hf : (s.setWorker w new).Formed) (hold : s.workers[w]? = some old)
    (hmove : old.hasToRelock = true ∨ new = .done) : (s.setWorker w new).Safe := by
  refine hs.frame hf rfl rfl (fun v hv worker hworker => ?_) (fun _ hv => hv) fun hc => hc
  simp only [setWorker, List.getElem?_set] at hworker
  split at hworker
  · rename_i heq
    subst heq
    rcases hmove with hneeds | rfl
    · exact absurd (hv old hold) (by simp [hneeds])
    · split at hworker <;> cases hworker
      rfl
  · exact hv worker hworker

theorem stopped_safe {k : Nat} {connecting : Bool} (hs : s.Safe)
    (hf : (s.stopped k connecting).Formed) : (s.stopped k connecting).Safe :=
  hs.frame hf rfl rfl (fun _ hw => hw)
    (fun _ => stopping_of_setStopper (by intro c; cases connecting <;> simp)) fun hc => hc

theorem step_safe {a : ReconnectAction} (hs : s.Safe) (hturn : s.InTurn opts a)
    (h : s.step opts a = some s') : s'.Safe := by
  have hf : s'.Formed := step_formed hs.formed h
  cases a with
  | connect host =>
    simp only [step] at h
    split at h <;> cases h
    cases hclose : s.intentionalClose with
    | false =>
      simp only [hclose, Bool.false_eq_true, if_false] at hf ⊢
      refine hs.frame hf rfl rfl (fun _ hw => hw) (fun w hw => ?_) fun hc => hc
      rcases stopping_of_addStopper hw with hw | ⟨-, connecting, hplace⟩
      · exact hw
      · cases hplace
    | true =>
      simp only [hclose, if_true] at hf ⊢
      exact addStopping_safe hs hf hclose (hturn.resolve_left (by simp [hclose]))
  | syncClose host =>
    simp only [step] at h
    split at h <;> cases h
    have hclosed : Safe { s with intentionalClose := true } :=
      hs.frame (hs.formed.frame rfl rfl rfl rfl hs.formed.hosts fun _ hw => hw) rfl rfl
        (fun _ hw => hw) (fun _ hw => hw) fun _ => rfl
    exact addStopping_safe hclosed hf rfl hturn
  | store k =>
    obtain ⟨st, hk, hst, rfl⟩ := store_cases h
    refine ⟨hf, hs.single, fun i n w hi hn hw hhost => ?_⟩
    obtain ⟨hpast, hstop⟩ := hs.past i n w hi hn hw hhost
    refine ⟨hpast, fun hstopping => ?_⟩
    -- the condition excludes a notifier elsewhere
    have hstopping : s.Stopping w := stopping_of_setStopper (by simp) hstopping
    exact absurd (hturn w hw hstopping n (List.mem_of_getElem? hi) (hstop hstopping).2) hhost
  | opened | close =>
    cases h
    exact hs.frame hf rfl rfl (fun _ hw => hw) (fun _ hw => hw) (by simp)
  | closed host sample =>
    simp only [step] at h
    split at h <;> cases h
    exact closed_safe hs hf hturn
  | scheduleLock i =>
    obtain ⟨n, hi, hn, hfree, hcase⟩ := scheduleLock_cases h
    have hactive : s.Active i := ⟨n, hi, by simp [hn]⟩
    rcases hcase with ⟨rfl, -⟩ | ⟨rfl, -, -⟩ | ⟨w, rfl, hopen, hw, hhost⟩
    · exact Safe.of_inactive hf (inactive_of_returned hs hactive)
    · exact Safe.of_inactive hf (inactive_of_returned hs hactive)
    · exact join_safe hs hf hi hn hopen hw hhost
  | scheduleJoined i =>
    obtain ⟨n, w, hi, hn, -, rfl⟩ := scheduleJoined_cases h
    exact Safe.of_inactive hf (inactive_of_returned hs ⟨n, hi, by simp [hn]⟩)
  | workerLock w | workerWake w | workerRelock w expired | workerFinish w =>
    obtain ⟨old, new, hold, rfl, hcase⟩ := worker_cases (w := w) h (by simp)
    exact setWorker_safe hs hf hold (hcase.imp_right (·.1))
  | stopLock k =>
    obtain ⟨st, connecting, hk, hst, hfree, rfl | ⟨w, -, -, rfl⟩⟩ := stopLock_cases h
    · exact stopped_safe hs hf
    · exact ⟨hf, hs.single, by simp⟩
  | stopJoined k =>
    obtain ⟨st, connecting, w, hk, hst, -, rfl⟩ := stopJoined_cases h
    exact stopped_safe hs hf

theorem Safe.not_deadlocked (hs : s.Safe) : ¬ s.Deadlocked := by
  rintro ⟨i, n, w, -, hi, hn, hwaits⟩
  obtain ⟨-, hw, hhost⟩ := hs.formed.joining i n w hi hn
  obtain ⟨hpast, hstop⟩ := hs.past i n w hi (by simp [hn]) hw hhost
  rcases hwaits with (⟨worker, hworker, hlock⟩ | hstopping | ⟨m, hm, hmhost, hmplace⟩) | hjoins
  · exact absurd (hpast worker hworker) (by simp [hlock])
  · simp [hn] at hstop
    exact hstop hstopping
  · -- the only notifier under way is the one that joins
    obtain ⟨j, hj⟩ := List.mem_iff_getElem?.mp hm
    cases hs.single j i ⟨m, hj, hmplace⟩ ⟨n, hi, by simp [hn]⟩
    cases hi.symm.trans hj
    exact hhost hmhost
  · exact hs.formed.apart w hjoins hw

/-! ## The way into the deadlock -/

/-- Some schedule from here ends in the deadlock, and each of its steps is
in turn. -/
def CanDeadlock (opts : ReconnectOptions) (s : Reconnector) : Prop :=
  ∃ as t, Meets (step opts) (InTurn opts) s as ∧ run (step opts) s as = some t ∧ t.Deadlocked

theorem canDeadlock_of_step {a : ReconnectAction} (h : s.step opts a = some s')
    (hturn : s.InTurn opts a) (hs : s'.CanDeadlock opts) : s.CanDeadlock opts := by
  obtain ⟨as, t, hmeets, hrun, ht⟩ := hs
  exact ⟨a :: as, t, (meets_cons_iff h).mpr ⟨hturn, hmeets⟩, run_cons_iff.mpr ⟨s', h, hrun⟩, ht⟩

theorem Deadlocked.canDeadlock (h : s.Deadlocked) : s.CanDeadlock opts :=
  ⟨[], s, trivial, rfl, h⟩

theorem scheduleLock_join {i w : Nat} {n : Notifier} (hi : s.notifiers[i]? = some n)
    (hn : n.place = .scheduling) (hfree : s.mutex = none) (hopen : s.intentionalClose = false)
    (hthread : s.thread = some w) (hhost : n.host ≠ some w) :
    s.step opts (.scheduleLock i) = some (s.join i w) := by
  obtain ⟨host, place⟩ := n
  cases hn
  have hhost : ¬ host = some w := hhost
  simp [step, hi, hfree, hopen, hthread, hhost]

theorem scheduleLock_spawn {i : Nat} {n : Notifier} (hi : s.notifiers[i]? = some n)
    (hn : n.place = .scheduling) (hfree : s.mutex = none) (hopen : s.intentionalClose = false)
    (hthread : s.thread = none) : s.step opts (.scheduleLock i) = some (s.spawn i) := by
  obtain ⟨host, place⟩ := n
  cases hn
  simp [step, hi, hfree, hopen, hthread]

/-- The notifier comes to the mutex while the worker needs it. -/
theorem canDeadlock_of_scheduling {i w : Nat} {n : Notifier} (hi : s.notifiers[i]? = some n)
    (hn : n.place = .scheduling) (hfree : s.mutex = none) (hopen : s.intentionalClose = false)
    (hthread : s.thread = some w) (hhost : n.host ≠ some w) (hneeds : s.NeedsMutex w) :
    s.CanDeadlock opts := by
  refine canDeadlock_of_step (scheduleLock_join hi hn hfree hopen hthread hhost) trivial
    (Deadlocked.canDeadlock ⟨i, _, w, rfl, setNotifier_self hi, rfl, .inl ?_⟩)
  refine hneeds.imp id (Or.imp id ?_)
  rintro ⟨m, hm, hmhost, hmplace⟩
  obtain ⟨j, hj⟩ := List.mem_iff_getElem?.mp hm
  have hne : i ≠ j := by
    rintro rfl
    cases hi.symm.trans hj
    exact hhost hmhost
  exact ⟨m, List.mem_of_getElem? ((setNotifier_other _ hne).trans hj), hmhost, hmplace⟩

/-- Two notifiers: what the first one has started, the second one joins. -/
theorem canDeadlock_of_spawn {p i : Nat} {n : Notifier} (hf : s.Formed)
    (hi : s.notifiers[i]? = some n) (hn : n.place = .scheduling) (hne : p ≠ i)
    (hopen : s.intentionalClose = false) : (s.spawn p).CanDeadlock opts := by
  have hworker : (s.spawn p).workers[s.workers.length]? = some .starting := by simp [spawn]
  refine canDeadlock_of_scheduling (i := i) (n := n) ?_ hn rfl hopen rfl ?_
    (.inl ⟨_, hworker, rfl⟩)
  · exact (setNotifier_other _ hne).trans hi
  · intro hhost
    have hrunning := hf.hosts s.workers.length
      (.inl ⟨n, List.mem_of_getElem? hi, hhost, by simp [hn]⟩)
    simp at hrunning

/-- The calls on the worker's thread that have not returned. -/
def pending (s : Reconnector) (w : Nat) : Nat :=
  s.stoppers.countP fun st => decide (st.host = some w ∧ st.place ≠ .done)

theorem pending_store {k w : Nat} {st : Stopper} (hk : s.stoppers[k]? = some st)
    (hhost : st.host = some w) (hst : st.place ≠ .done) :
    (s.restart.setStopper k .done).pending w < s.pending w := by
  obtain ⟨hlt, hget⟩ := List.getElem?_eq_some_iff.mp hk
  have hsplit : s.stoppers = s.stoppers.take k ++ st :: s.stoppers.drop (k + 1) := by
    rw [← hget, List.getElem_cons_drop, List.take_append_drop]
  have hset : (s.restart.setStopper k .done).stoppers =
      s.stoppers.take k ++ { st with place := .done } :: s.stoppers.drop (k + 1) := by
    show s.stoppers.modify k _ = _
    rw [List.modify_eq_take_cons_drop hlt, hget]
  unfold pending
  rw [hset]
  conv_rhs => rw [hsplit]
  simp [hhost, hst]

/-- The worker that is joined finishes, after the calls that it hosts, and
the second notifier joins what the first one starts. -/
theorem canDeadlock_of_joining {p i w : Nat} {n m : Notifier} (hf : s.Formed)
    (hp : s.notifiers[p]? = some m) (hm : m.place = .joining w)
    (hi : s.notifiers[i]? = some n) (hn : n.place = .scheduling)
    (hopen : s.intentionalClose = false) (hpast : ¬ s.NeedsMutex w) : s.CanDeadlock opts := by
  induction hc : s.pending w using Nat.strong_induction_on generalizing s with
  | _ count ih =>
    have hne : p ≠ i := by
      rintro rfl
      cases hp.symm.trans hi
      simp [hn] at hm
    obtain ⟨hmutex, hthread, -⟩ := hf.joining p m w hp hm
    by_cases hhosts : s.Hosts w
    · -- the worker hosts nothing but calls of `connect()` past their test
      obtain ⟨st, hst, hhost, hplace⟩ : ∃ st ∈ s.stoppers, st.host = some w ∧ st.place ≠ .done := by
        refine hhosts.resolve_left fun hsched => ?_
        exact hpast (.inr (.inr hsched))
      obtain ⟨k, hk⟩ := List.mem_iff_getElem?.mp hst
      have hstoring : st.place = .storing := by
        cases hcase : st.place with
        | storing => rfl
        | done => exact absurd hcase hplace
        | stopping connecting =>
          refine absurd (.inr (.inl ⟨st, hst, hhost, ?_⟩)) hpast
          cases connecting <;> simp [hcase]
        | joining connecting v =>
          exact absurd hthread (hf.apart w ⟨st, hst, hhost, connecting, v, hcase⟩)
      have hstep : s.step opts (.store k) = some (s.restart.setStopper k .done) := by
        obtain ⟨host, place⟩ := st
        cases hstoring
        simp [step, hk]
      have hturn : s.InTurn opts (.store k) := by
        intro v hv hstopping
        cases hthread.symm.trans hv
        exact absurd (.inr (.inl hstopping)) hpast
      refine canDeadlock_of_step hstep hturn (ih _ ?_ (step_formed hf hstep) hp hi rfl ?_ rfl)
      · rw [← hc]
        exact pending_store hk hhost hplace
      · exact fun hneeds => hpast (hneeds.imp id (Or.imp (stopping_of_setStopper (by simp)) id))
    · have hlt := hf.started w hthread
      have hworker := List.getElem?_eq_getElem hlt
      have hlock : s.workers[w].hasToRelock = false := by
        by_contra hlock
        exact hpast (.inl ⟨_, hworker, by simpa using hlock⟩)
      -- `scheduleJoined` of a worker that is done
      have hjoin : ∀ t : Reconnector, t.Formed → t.notifiers = s.notifiers →
          t.intentionalClose = false → t.workers[w]? = some .done → t.CanDeadlock opts := by
        intro t htf hnotifiers htopen hdone
        have hstep : t.step opts (.scheduleJoined p) = some (t.spawn p) := by
          obtain ⟨host, place⟩ := m
          cases hm
          simp [step, hnotifiers, hp, hdone]
        exact canDeadlock_of_step hstep trivial
          (canDeadlock_of_spawn htf (hnotifiers ▸ hi) hn hne htopen)
      cases hcase : s.workers[w] with
      | starting | waiting | waking => simp [hcase, ReconnectWorker.hasToRelock] at hlock
      | done => exact hjoin s hf rfl hopen (by rw [hworker, hcase])
      | running =>
        have hstep : s.step opts (.workerFinish w) = some (s.setWorker w .done) := by
          simp [step, hworker, hcase, hhosts]
        refine canDeadlock_of_step hstep trivial
          (hjoin _ (step_formed hf hstep) rfl hopen ?_)
        simp [setWorker, hlt]

/-- Two notifiers before the mutex. With the thread object moved out first,
if there is one, the one starts a worker and the other joins it. -/
theorem canDeadlock_of_both {p i : Nat} {n m : Notifier} (hf : s.Formed)
    (hp : s.notifiers[p]? = some m) (hm : m.place = .scheduling)
    (hi : s.notifiers[i]? = some n) (hn : n.place = .scheduling) (hne : p ≠ i)
    (hfree : s.mutex = none) (hopen : s.intentionalClose = false) : s.CanDeadlock opts := by
  cases hthread : s.thread with
  | none =>
    exact canDeadlock_of_step (scheduleLock_spawn hp hm hfree hopen hthread) trivial
      (canDeadlock_of_spawn hf hi hn hne hopen)
  | some w =>
    -- one `connect()` is past its test when another one, after `close()`, stops the worker
    let s₁ := s.addStopper none .storing
    let s₂ : Reconnector := { s₁ with intentionalClose := true }
    let s₃ := s₂.addStopper none (.stopping true)
    let s₄ : Reconnector :=
      { s₃.setStopper (s.stoppers.length + 1) (.joining true w) with thread := none }
    let s₅ := s₄.restart.setStopper s.stoppers.length .done
    have h₁ : s.step opts (.connect none) = some s₁ := by
      simp [step, CanHost, hopen, s₁]
    have h₂ : s₁.step opts .close = some s₂ := rfl
    have h₃ : s₂.step opts (.connect none) = some s₃ := by
      simp [step, CanHost, s₂, s₃]
    have hlast : s₃.stoppers[s.stoppers.length + 1]? = some ⟨none, .stopping true⟩ := by
      simp [s₃, s₂, s₁, addStopper]
    have h₄ : s₃.step opts (.stopLock (s.stoppers.length + 1)) = some s₄ := by
      simp only [step, hlast]
      simp [s₃, s₂, s₁, addStopper, hfree, hthread, s₄]
    have hstoring : s₄.stoppers[s.stoppers.length]? = some ⟨none, .storing⟩ := by
      simp [s₄, s₃, s₂, s₁, addStopper, setStopper]
    have h₅ : s₄.step opts (.store s.stoppers.length) = some s₅ := by
      simp [step, hstoring, s₅]
    have hf₅ : s₅.Formed := step_formed (step_formed (step_formed (step_formed (step_formed hf
      h₁) h₂) h₃) h₄) h₅
    refine canDeadlock_of_step h₁ (.inl hopen) (canDeadlock_of_step h₂ trivial
      (canDeadlock_of_step h₃ (.inr (by simp [NotJoined])) (canDeadlock_of_step h₄ trivial
        (canDeadlock_of_step h₅ (by simp [InTurn, s₄]) ?_))))
    exact canDeadlock_of_step (scheduleLock_spawn (i := p) (n := m) hp hm hfree rfl rfl) trivial
      (canDeadlock_of_spawn hf₅ (i := i) (n := n) hi hn hne rfl)

theorem Safe.mutex_free {i : Nat} {n : Notifier} (hs : s.Safe) (hi : s.notifiers[i]? = some n)
    (hn : n.place = .scheduling) : s.mutex = none := by
  cases hm : s.mutex with
  | none => rfl
  | some j =>
    obtain ⟨m, w, hj, hw⟩ := hs.formed.holder j hm
    cases hs.single i j ⟨n, hi, by simp [hn]⟩ ⟨m, hj, by simp [hw]⟩
    cases hi.symm.trans hj
    simp [hn] at hw

/-- A notification that schedules, next to one that is under way. -/
theorem canDeadlock_of_second {p : Nat} {m : Notifier} {host : Option Nat} (hs : s.Safe)
    (hf : s'.Formed) (hp : s.notifiers[p]? = some m) (hm : m.place ≠ .done)
    (hopen : s'.intentionalClose = false) (hmutex : s'.mutex = s.mutex)
    (hnotifiers : s'.notifiers = s.notifiers ++ [⟨host, .scheduling⟩]) :
    s'.CanDeadlock opts := by
  have hlt := (List.getElem?_eq_some_iff.mp hp).1
  have hp' : s'.notifiers[p]? = some m := by
    rw [hnotifiers, List.getElem?_append_left hlt, hp]
  have hnew : s'.notifiers[s.notifiers.length]? = some ⟨host, .scheduling⟩ := by simp [hnotifiers]
  cases hplace : m.place with
  | done => exact absurd hplace hm
  | scheduling =>
    refine canDeadlock_of_both hf hp' hplace hnew rfl (by omega) ?_ hopen
    exact hmutex.trans (hs.mutex_free hp hplace)
  | joining w =>
    by_cases hneeds : s'.NeedsMutex w
    · have hlock := (hf.joining p m w hp' hplace).1
      exact Deadlocked.canDeadlock ⟨p, m, w, hlock, hp', hplace, .inl hneeds⟩
    · exact canDeadlock_of_joining hf hp' hplace hnew rfl hopen hneeds

theorem closed_can_deadlock {host : Option Nat} {sample : ℚ} (hs : s.Safe) (hc : s.Counted)
    (hf : (s.onEngineioClose opts host sample).Formed)
    (hnot : ¬ s.InTurn opts (.closed host sample)) :
    (s.onEngineioClose opts host sample).CanDeadlock opts := by
  simp only [InTurn, not_or, Bool.not_eq_true, not_le] at hnot
  obtain ⟨hopen, hbudget, hquiet⟩ := hnot
  have hused : 0 ≤ s.reconnectAttemptsUsed := by
    cases hr : s.recovered with
    | false => exact (hc.agrees hr) ▸ Int.natCast_nonneg _
    | true => exact le_trans (Int.natCast_nonneg _) (le_of_lt (hc.ahead hr))
  revert hf
  unfold onEngineioClose scheduleReconnect
  rw [if_pos ⟨hopen, by omega⟩, if_neg (by omega)]
  intro hf
  by_cases hact : ∀ n ∈ s.notifiers, n.place = .done
  · -- the last worker needs the mutex, and the new notifier joins it
    have hlast : ∃ w, s.thread = some w ∧ host ≠ some w ∧ s.NeedsMutex w := by
      by_contra hno
      refine hquiet ⟨hact, fun w hw => ?_⟩
      by_contra hneeds
      rw [not_or, not_not] at hneeds
      exact hno ⟨w, hw, hneeds⟩
    obtain ⟨w, hw, hhost, hneeds⟩ := hlast
    have hfree : s.mutex = none := by
      cases hm : s.mutex with
      | none => rfl
      | some j =>
        obtain ⟨n, v, hj, hv⟩ := hs.formed.holder j hm
        simp [hact n (List.mem_of_getElem? hj)] at hv
    refine canDeadlock_of_scheduling (i := s.notifiers.length) (n := ⟨host, .scheduling⟩)
      (by simp) rfl hfree hopen hw hhost (hneeds.imp id (Or.imp id ?_))
    rintro ⟨n, hn, hrest⟩
    exact ⟨n, List.mem_append_left _ hn, hrest⟩
  · simp only [not_forall, exists_prop] at hact
    obtain ⟨m, hmem, hm⟩ := hact
    obtain ⟨p, hp⟩ := List.mem_iff_getElem?.mp hmem
    exact canDeadlock_of_second hs hf hp hm hopen rfl rfl

/-- A stopper starts on the thread of a worker that is joined. -/
theorem addStopper_deadlocked {host : Option Nat} {connecting : Bool}
    (hf : s.Formed) (hjoined : ¬ s.NotJoined host) :
    (s.addStopper host (.stopping connecting)).Deadlocked := by
  simp only [NotJoined, not_forall, not_not] at hjoined
  obtain ⟨w, rfl, n, hn, hplace⟩ := hjoined
  obtain ⟨i, hi⟩ := List.mem_iff_getElem?.mp hn
  refine ⟨i, n, w, (hf.joining i n w hi hplace).1, hi, hplace, .inl (.inr (.inl ?_))⟩
  refine ⟨⟨some w, .stopping connecting⟩, by simp [addStopper], rfl, ?_⟩
  cases connecting <;> simp

/-- The first step out of turn opens the way. -/
theorem out_of_turn_can_deadlock {a : ReconnectAction} (hs : s.Safe) (hc : s.Counted)
    (h : s.step opts a = some s') (hnot : ¬ s.InTurn opts a) : s'.CanDeadlock opts := by
  have hf : s'.Formed := step_formed hs.formed h
  cases a with
  | closed host sample =>
    simp only [step] at h
    split at h <;> cases h
    exact closed_can_deadlock hs hc hf hnot
  | connect host =>
    simp only [InTurn, not_or, Bool.not_eq_false] at hnot
    simp only [step, hnot.1, if_true] at h
    split at h <;> cases h
    exact (addStopper_deadlocked hs.formed hnot.2).canDeadlock
  | syncClose host =>
    simp only [step] at h
    split at h <;> cases h
    have hclosed : Formed { s with intentionalClose := true } :=
      hs.formed.frame rfl rfl rfl rfl hs.formed.hosts fun _ hw => hw
    exact (addStopper_deadlocked hclosed hnot).canDeadlock
  | store k =>
    obtain ⟨st, hk, hst, rfl⟩ := store_cases h
    simp only [InTurn, not_forall] at hnot
    obtain ⟨w, hw, ⟨stop, hstop, hstophost, hstopping⟩, n, hn, hplace, hhost⟩ := hnot
    obtain ⟨i, hi⟩ := List.mem_iff_getElem?.mp hn
    -- the stopper on the worker's thread is another one
    obtain ⟨j, hj⟩ := List.mem_iff_getElem?.mp hstop
    have hne : k ≠ j := by
      rintro rfl
      cases hk.symm.trans hj
      simp [hst] at hstopping
    have hstays : (s.restart.setStopper k .done).stoppers[j]? = some stop := by
      simpa [setStopper, restart, List.getElem?_modify, hne] using hj
    exact canDeadlock_of_scheduling hi hplace (hs.mutex_free hi hplace) rfl hw hhost
      (.inr (.inl ⟨stop, List.mem_of_getElem? hstays, hstophost, hstopping⟩))
  | opened | scheduleLock | scheduleJoined | workerLock | workerWake | workerRelock
  | workerFinish | close | stopLock | stopJoined => exact absurd trivial hnot

/-- **When the reconnect protocol cannot deadlock on itself.** While every
step is in turn no thread joins, inside the critical section of
`reconnect_mutex_`, a worker that needs the mutex or waits for another
worker; and after the first step out of turn some schedule in turn does end
there. -/
theorem not_deadlocked_in_turn {as : List ReconnectAction} (h : run (step opts) {} as = some s)
    (hturn : Meets (step opts) (InTurn opts) {} as) :
    ¬ s.Deadlocked ∧
      ∀ a s', s.step opts a = some s' → ¬ s.InTurn opts a →
        ∃ bs t, Meets (step opts) (InTurn opts) s' bs ∧ run (step opts) s' bs = some t ∧
          t.Deadlocked := by
  have hs : s.Safe :=
    run_invariant (fun _ _ _ hs ht hstep => step_safe hs ht hstep) as {} s safe_init hturn h
  have hc : s.Counted := run_preserves Counted (fun _ _ _ hc hstep => step_counted hc hstep)
    counted_init h
  exact ⟨hs.not_deadlocked, fun a s' hstep hnot => out_of_turn_can_deadlock hs hc hstep hnot⟩

/-- A drop; the worker's listener connects anew, and another drop. -/
theorem not_deadlocked_in_turn_twoDrops :
    ∃ s, run (step { reconnectAttempts := 3 }) {}
        [.connect none, .store 0, .opened, .closed none 0, .scheduleLock 0, .workerLock 0,
          .workerWake 0, .workerRelock 0 true, .close, .connect (some 0), .stopLock 1, .store 1,
          .opened, .closed none 0, .scheduleLock 1] = some s ∧
      s.mutex = some 1 ∧ ¬ s.Deadlocked :=
  ⟨_, rfl, rfl,
    (@not_deadlocked_in_turn { reconnectAttempts := 3 } _
      [.connect none, .store 0, .opened, .closed none 0, .scheduleLock 0, .workerLock 0,
        .workerWake 0, .workerRelock 0 true, .close, .connect (some 0), .stopLock 1, .store 1,
        .opened, .closed none 0, .scheduleLock 1] rfl (by decide +kernel)).1⟩

/-- A CLOSE packet and then the closure of its transport: the second
notification joins the worker of the first, which is still in its delay. -/
theorem secondNotification_deadlocks :
    ∃ s, run (step { reconnectAttempts := 2 }) {}
        [.connect none, .store 0, .opened, .closed none 0, .scheduleLock 0, .workerLock 0,
          .closed none 0, .scheduleLock 1] = some s ∧ s.Deadlocked :=
  ⟨_, rfl, 1, ⟨none, .joining 0⟩, 0, rfl, rfl, rfl, .inl (by decide)⟩

/-- A worker past its wait is joined, and its listener calls `close()` and
then `connect()`, which is to stop the reconnect thread. -/
example : ∃ s, run (step { reconnectAttempts := 2 }) {}
    [.connect none, .store 0, .opened, .closed none 0, .scheduleLock 0, .workerLock 0,
      .workerWake 0, .workerRelock 0 true, .closed none 0, .scheduleLock 1, .close,
      .connect (some 0)] = some s ∧ s.Deadlocked :=
  ⟨_, rfl, 1, ⟨none, .joining 0⟩, 0, rfl, rfl, rfl, .inl (by decide)⟩

end Reconnector

end Sioxx
