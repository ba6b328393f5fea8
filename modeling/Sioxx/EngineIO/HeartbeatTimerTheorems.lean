/-
Sioxx.EngineIO.HeartbeatTimerTheorems — when the heartbeat worker declares
a ping timeout.

  * `PingTimeout.Sound` — a declaration comes after silence, and not long
    after.
  * `run_heartbeat` — so does every declaration of a run, and a worker that
    has not made one has heard something.
-/
import Sioxx.EngineIO.HeartbeatTimer
import Sioxx.Json.ReferenceText

namespace Sioxx

open Lib

/-- The time for which the worker may hear nothing, in the worst case. -/
def silence (pingInterval pingTimeout : Int) : Nat :=
  (pingInterval + pingTimeout).toNat + pingInterval.toNat

/-- Nothing was heard for the ping interval and the ping timeout; and the
worker has not waited for much more than one further interval. -/
def PingTimeout.Sound (δ : Nat) (d : PingTimeout) : Prop :=
  ∃ last, d.heard.getLast? = some last ∧ (∀ h ∈ d.heard, h ≤ last) ∧
    last + (d.pingInterval + d.pingTimeout) < d.time ∧
    d.time ≤ last + silence d.pingInterval d.pingTimeout + 2 * δ

namespace HeartbeatTimer

open EngineIOClient

variable {T : JsonText} {δ : Nat} {s s' : HeartbeatTimer} {c : EngineIOClient}

/-! ## What an event does to the timer -/

/-- Reading a handshake stops the worker, and stores the time unless the
ping settings cannot be read. -/
theorem readHandshake_timer (c : EngineIOClient) (now : Nat) (handshake : Option Json) :
    (c.readHandshake now handshake).1.heartbeat = false ∧
      ((c.readHandshake now handshake).1.lastPong = now ∨
        (c.readHandshake now handshake).1.lastPong = c.lastPong ∧
          ∃ e, (c.readHandshake now handshake).2 = .error e) := by
  cases handshake with
  | none => exact ⟨rfl, .inl rfl⟩
  | some v =>
    simp only [readHandshake]
    cases v.value Json.getInt (ascii "pingInterval") 25000 with
    | error e => exact ⟨rfl, .inr ⟨rfl, e, rfl⟩⟩
    | ok pingInterval =>
      cases v.value Json.getInt (ascii "pingTimeout") 20000 with
      | error e => exact ⟨rfl, .inr ⟨rfl, e, rfl⟩⟩
      | ok pingTimeout => exact ⟨rfl, .inl rfl⟩

/-- An OPEN packet starts the worker and stores the time, or leaves no
worker behind. -/
theorem handleOpen_timer (c : EngineIOClient) (now : Nat) (handshake : Option Json) :
    (c.handleOpen now handshake).client.heartbeat = false ∧
        ((c.handleOpen now handshake).client.lastPong = c.lastPong ∨
          (c.handleOpen now handshake).client.lastPong = now) ∨
      (c.handleOpen now handshake).client.heartbeat = true ∧
        (c.handleOpen now handshake).client.lastPong = now ∧
        (c.handleOpen now handshake).client.closing = false ∧
        (c.handleOpen now handshake).client.heartbeatStopRequested = false := by
  obtain ⟨hstopped, hlast⟩ := readHandshake_timer c now handshake
  rw [handleOpen_eq]
  generalize c.readHandshake now handshake = read at hstopped hlast ⊢
  obtain ⟨c', result⟩ := read
  cases result with
  | error e =>
    refine .inl ⟨hstopped, ?_⟩
    rcases hlast with hnow | ⟨hsame, -⟩
    · exact .inr hnow
    · exact .inl hsame
  | ok sid =>
    have hnone : c'.heartbeat = false := hstopped
    have hnow : c'.lastPong = now := by
      rcases hlast with hnow | ⟨-, e, herror⟩
      · exact hnow
      · cases herror
    cases hclosing : c'.closing with
    | true => exact .inl (by simp [finishOpen, startHeartbeatTimer, hclosing, hnone, hnow])
    | false => exact .inr (by simp [finishOpen, startHeartbeatTimer, hclosing, hnow])

theorem handleEvent_handleOpen {event : TransportEvent} (hopens : opens event = true) :
    ∃ handshake, ∀ now, c.handleEvent T now event = c.handleOpen now handshake := by
  cases event with
  | close reason => cases hopens
  | message payload isBinary =>
    cases isBinary with
    | true => cases hopens
    | false =>
      cases payload with
      | nil => cases hopens
      | cons typeChar rest =>
        by_cases htype : typeChar = byteOf '0'
        · exact ⟨T.parse rest, fun now => by simp [handleEvent, handleTransportMessage, htype]⟩
        · simp [opens, openText, htype] at hopens

/-- Any other event stops the worker, or leaves all but the time alone. -/
theorem handleEvent_others {now : Nat} {event : TransportEvent} (hopens : opens event = false) :
    (c.handleEvent T now event).client
        = { c with lastPong := if hears event then now else c.lastPong } ∨
      hears event = false ∧ (c.handleEvent T now event).client.heartbeat = false ∧
        (c.handleEvent T now event).client.lastPong = c.lastPong := by
  cases event with
  | close reason => exact .inr ⟨rfl, rfl, rfl⟩
  | message payload isBinary =>
    cases isBinary with
    | true => exact .inl rfl
    | false =>
      cases payload with
      | nil => exact .inl rfl
      | cons typeChar rest =>
        have hne : typeChar ≠ byteOf '0' := by
          rintro rfl
          cases hopens
        by_cases hclose : typeChar = byteOf '1'
        · refine .inr ?_
          subst hclose
          exact ⟨rfl, rfl, rfl⟩
        refine .inl ?_
        by_cases hping : typeChar = byteOf '2'
        · subst hping
          rfl
        by_cases hpong : typeChar = byteOf '3'
        · subst hpong
          rfl
        have hears : hears (.message (typeChar :: rest) false) = false := by
          simp [hears, hping, hpong]
        rw [hears]
        by_cases hmessage : typeChar = byteOf '4'
        · subst hmessage
          rfl
        · simp [handleEvent, handleTransportMessage, hne, hclose, hping, hpong, hmessage]

/-! ## The invariant -/

/-- The time the worker allows, as it counts. -/
def allowed (c : EngineIOClient) : Nat := (c.pingIntervalMs + c.pingTimeoutMs).toNat

/-- The worker has heard something not long ago. -/
def OnTime (δ : Nat) (s : HeartbeatTimer) : TimerPc → Prop
  | .looping since => since ≤ s.client.lastPong + allowed s.client ∧ s.now ≤ since + δ
  | .waiting deadline =>
    deadline ≤ s.client.lastPong + allowed s.client + s.client.pingIntervalMs.toNat + δ ∧
      s.now ≤ deadline + δ
  | .ended => True

/-- What every step of a prompt run keeps. -/
structure Inv (δ : Nat) (s : HeartbeatTimer) : Prop where
  lastPong : s.client.lastPong ≤ s.now
  heard : ∀ h ∈ s.heard, h ≤ s.client.lastPong
  running : s.client.heartbeat = true → s.client.closing = false ∧
    s.client.heartbeatStopRequested = false ∧ s.heard.getLast? = some s.client.lastPong
  worker : s.pc ≠ .ended → s.client.heartbeat = true
  onTime : OnTime δ s s.pc
  detected : s.client.heartbeat = true → s.client.isOpen = true → s.pc = .ended →
    s.timedOut = true
  sound : ∀ d ∈ s.timeouts, d.Sound δ

theorem unlessStopped_eq {pc : TimerPc} (h : c.heartbeat = true) : pc.unlessStopped c = pc :=
  if_pos h

theorem unlessStopped_stopped {pc : TimerPc} (h : c.heartbeat = false) :
    pc.unlessStopped c = .ended := by
  rw [TimerPc.unlessStopped, h]
  rfl

theorem tick_inv {d : Nat} (hi : Inv δ s) (hprompt : Prompt δ s (.tick d)) :
    Inv δ { s with now := s.now + d } where
  lastPong := Nat.le_add_right_of_le hi.lastPong
  heard := hi.heard
  running := hi.running
  worker := hi.worker
  onTime := by
    have honTime := hi.onTime
    cases hpc : s.pc with
    | looping since =>
      rw [hpc] at honTime
      exact ⟨honTime.1, hprompt since (by rw [hpc]; rfl)⟩
    | waiting deadline =>
      rw [hpc] at honTime
      exact ⟨honTime.1, hprompt deadline (by rw [hpc]; rfl)⟩
    | ended => trivial
  detected := hi.detected
  sound := hi.sound

/-- A client whose worker was told to stop. -/
theorem stopped_inv (hi : Inv δ s) {heard : List Nat} {timedOut : Bool}
    (hstopped : c.heartbeat = false) (hlast : c.lastPong ≤ s.now)
    (hheard : ∀ h ∈ heard, h ≤ c.lastPong) :
    Inv δ { s with client := c, pc := .ended, heard, timedOut } where
  lastPong := hlast
  heard := hheard
  running := fun h => absurd h (by rw [hstopped]; exact Bool.false_ne_true)
  worker := fun h => absurd rfl h
  onTime := trivial
  detected := fun h => absurd h (by rw [hstopped]; exact Bool.false_ne_true)
  sound := hi.sound

/-- A ping or a pong, or anything else that leaves the worker alone. -/
theorem heard_inv (hi : Inv δ s) (hears : Bool) :
    Inv δ { s with
      client := { s.client with lastPong := if hears then s.now else s.client.lastPong }
      heard := if hears then s.heard ++ [s.now] else s.heard } := by
  cases hears with
  | false => exact hi
  | true =>
    refine ⟨Nat.le_refl _, ?_, ?_, hi.worker, ?_, hi.detected, hi.sound⟩
    · intro h hh
      rcases List.mem_append.mp hh with hh | hh
      · exact Nat.le_trans (hi.heard h hh) hi.lastPong
      · exact Nat.le_of_eq (List.mem_singleton.mp hh)
    · intro hrunning
      obtain ⟨hclosing, hstop, -⟩ := hi.running hrunning
      exact ⟨hclosing, hstop, List.getLast?_concat⟩
    · have honTime := hi.onTime
      have hlast := hi.lastPong
      show OnTime δ _ s.pc
      cases hpc : s.pc with
      | looping since =>
        rw [hpc] at honTime
        refine ⟨Nat.le_trans honTime.1 ?_, honTime.2⟩
        exact Nat.add_le_add_right hlast _
      | waiting deadline =>
        rw [hpc] at honTime
        refine ⟨Nat.le_trans honTime.1 ?_, honTime.2⟩
        show _ ≤ s.now + allowed s.client + s.client.pingIntervalMs.toNat + δ
        omega
      | ended => trivial

/-- The worker is at its end or was not told to stop. -/
theorem Inv.unlessStopped_same (hi : Inv δ s) (h : c.heartbeat = s.client.heartbeat) :
    s.pc.unlessStopped c = s.pc := by
  cases hrunning : s.client.heartbeat with
  | true => exact unlessStopped_eq (h.trans hrunning)
  | false =>
    rw [unlessStopped_stopped (h.trans hrunning)]
    by_contra hne
    have hworker := hi.worker fun hpc => hne hpc.symm
    rw [hrunning] at hworker
    cases hworker

theorem deliver_inv (hi : Inv δ s) (event : TransportEvent) : Inv δ (s.deliver T event) := by
  unfold deliver
  cases hopens : opens event with
  | true =>
    obtain ⟨handshake, hopen⟩ := handleEvent_handleOpen (c := s.client) (T := T) hopens
    rw [if_pos rfl, hopen s.now]
    rcases handleOpen_timer s.client s.now handshake with
      ⟨hstopped, hlast⟩ | ⟨hrunning, hnow, hclosing, hstop⟩
    · rw [unlessStopped_stopped hstopped, hstopped]
      refine stopped_inv hi hstopped ?_ ?_
      · rcases hlast with h | h
        · exact Nat.le_trans (Nat.le_of_eq h) hi.lastPong
        · exact Nat.le_of_eq h
      · intro h hh
        have hle := hi.heard h hh
        rcases hlast with heq | heq <;> rw [heq]
        · exact hle
        · exact Nat.le_trans hle hi.lastPong
    · rw [unlessStopped_eq hrunning, hrunning]
      refine ⟨Nat.le_of_eq hnow, ?_, fun _ => ⟨hclosing, hstop, ?_⟩, fun _ => hrunning, ?_, ?_,
        hi.sound⟩
      · intro h hh
        show h ≤ (s.client.handleOpen s.now handshake).client.lastPong
        rw [hnow]
        rcases List.mem_append.mp hh with hh | hh
        · exact Nat.le_trans (hi.heard h hh) hi.lastPong
        · exact Nat.le_of_eq (List.mem_singleton.mp hh)
      · show (s.heard ++ [s.now]).getLast? = _
        rw [hnow]
        exact List.getLast?_concat
      · refine ⟨?_, Nat.le_add_right _ _⟩
        show s.now ≤ (s.client.handleOpen s.now handshake).client.lastPong + _
        rw [hnow]
        exact Nat.le_add_right _ _
      · intro _ _ hended
        cases hended
  | false =>
    rw [if_neg Bool.false_ne_true]
    have hcases : (s.client.handleEvent T s.now event).client = { s.client with
        lastPong := if hears event then s.now else s.client.lastPong } ∨
        hears event = false ∧ (s.client.handleEvent T s.now event).client.heartbeat = false ∧
          (s.client.handleEvent T s.now event).client.lastPong = s.client.lastPong :=
      handleEvent_others hopens
    rcases hcases with hsame | ⟨hears, hstopped, hlast⟩
    · have hpc : s.pc.unlessStopped (s.client.handleEvent T s.now event).client = s.pc :=
        hi.unlessStopped_same (by rw [hsame])
      rw [hpc, hsame]
      exact heard_inv hi (hears event)
    · rw [unlessStopped_stopped hstopped, hears]
      refine stopped_inv hi hstopped ?_ ?_ <;> rw [hlast]
      · exact hi.lastPong
      · exact hi.heard

theorem close_inv (hi : Inv δ s) :
    Inv δ { s with client := s.client.close, pc := s.pc.unlessStopped s.client.close } := by
  unfold EngineIOClient.close
  split
  · rw [hi.unlessStopped_same rfl]
    exact hi
  · rw [unlessStopped_stopped rfl]
    exact stopped_inv hi rfl hi.lastPong hi.heard

theorem openUrl_inv (hi : Inv δ s) : Inv δ { s with client := s.client.openUrl } := by
  unfold EngineIOClient.openUrl
  split
  · exact hi
  · exact ⟨hi.lastPong, hi.heard, hi.running, hi.worker, hi.onTime,
      fun _ hopen => absurd hopen Bool.false_ne_true, hi.sound⟩

/-! ## The worker -/

theorem loop_inv (hi : Inv δ s) (h : step T s .loop = some s') : Inv δ s' := by
  cases hpc : s.pc with
  | waiting deadline =>
    simp only [step, hpc] at h
    cases h
  | ended =>
    simp only [step, hpc] at h
    cases h
  | looping since =>
    have hrunning := hi.worker (by rw [hpc]; exact TimerPc.noConfusion)
    obtain ⟨hclosing, hstop, -⟩ := hi.running hrunning
    have honTime := hi.onTime
    rw [hpc] at honTime
    obtain ⟨hsince, hnow⟩ := honTime
    simp only [step, hpc] at h
    split at h
    · cases h
      refine ⟨hi.lastPong, hi.heard, hi.running, fun _ => hrunning, ⟨?_, ?_⟩,
        fun _ _ hended => TimerPc.noConfusion hended, hi.sound⟩
      · show s.now + s.client.pingIntervalMs.toNat
          ≤ s.client.lastPong + allowed s.client + s.client.pingIntervalMs.toNat + δ
        omega
      · show s.now ≤ s.now + s.client.pingIntervalMs.toNat + δ
        omega
    · rename_i hloop
      cases h
      -- Only `openUrl` makes the worker leave its loop here.
      refine ⟨hi.lastPong, hi.heard, hi.running, fun hne => absurd rfl hne, trivial, ?_,
        hi.sound⟩
      intro _ hopen _
      refine absurd ?_ hloop
      rw [hclosing, hstop]
      exact congrArg (fun b => b && !false && !false) hopen

theorem wake_inv (hi : Inv δ s) (h : step T s .wake = some s') : Inv δ s' := by
  cases hpc : s.pc with
  | looping since =>
    simp only [step, hpc] at h
    cases h
  | ended =>
    simp only [step, hpc] at h
    cases h
  | waiting deadline =>
    have hrunning := hi.worker (by rw [hpc]; exact TimerPc.noConfusion)
    obtain ⟨hclosing, hstop, hlast⟩ := hi.running hrunning
    have honTime := hi.onTime
    rw [hpc] at honTime
    obtain ⟨hdeadline, hnow⟩ := honTime
    simp only [step, hpc, hclosing, hstop, Bool.or_self, Bool.false_eq_true, if_false] at h
    split at h
    · split at h
      · rename_i hallowed
        cases h
        refine ⟨hi.lastPong, hi.heard, hi.running, fun _ => hrunning, ⟨?_, Nat.le_add_right _ _⟩,
          fun _ _ hended => TimerPc.noConfusion hended, hi.sound⟩
        show s.now ≤ s.client.lastPong + (s.client.pingIntervalMs + s.client.pingTimeoutMs).toNat
        omega
      · rename_i hsilent
        cases h
        refine ⟨hi.lastPong, hi.heard, hi.running, fun hne => absurd rfl hne, trivial,
          fun _ _ _ => rfl, ?_⟩
        intro d hd
        rcases List.mem_append.mp hd with hd | hd
        · exact hi.sound d hd
        · cases List.mem_singleton.mp hd
          refine ⟨s.client.lastPong, hlast, hi.heard, ?_, ?_⟩
          · show (s.client.lastPong : Int)
              + (s.client.pingIntervalMs + s.client.pingTimeoutMs) < s.now
            omega
          · show s.now ≤ s.client.lastPong
              + silence s.client.pingIntervalMs s.client.pingTimeoutMs + 2 * δ
            unfold silence
            unfold allowed at hdeadline
            omega
    · cases h

theorem step_inv {a : Action} (hi : Inv δ s) (hprompt : Prompt δ s a)
    (h : step T s a = some s') : Inv δ s' := by
  cases a with
  | tick d =>
    cases h
    exact tick_inv hi hprompt
  | deliver event =>
    cases h
    exact deliver_inv hi event
  | close =>
    cases h
    exact close_inv hi
  | openUrl =>
    cases h
    exact openUrl_inv hi
  | loop => exact loop_inv hi h
  | wake => exact wake_inv hi h

theorem inv_initial : Inv δ {} where
  lastPong := Nat.le_refl _
  heard := fun _ h => nomatch h
  running := fun h => nomatch h
  worker := fun h => absurd rfl h
  onTime := trivial
  detected := fun h => nomatch h
  sound := fun _ h => nomatch h

/-- **The heartbeat finds out about silence, and about nothing else.** In a
run in which the worker is never more than `δ` late:

  * a ping timeout is declared when the last OPEN packet, ping or pong is
    more than the ping interval and the ping timeout ago, but no longer ago
    than `silence` and `2 * δ`;
  * while the client is open and its worker was not told to stop, it has
    heard something within that time, or the timeout has been declared. -/
theorem run_heartbeat {as : List Action} (hprompt : Meets (step T) (Prompt δ) {} as)
    (h : run (step T) {} as = some s) :
    (∀ d ∈ s.timeouts, d.Sound δ) ∧
      (s.client.heartbeat = true → s.client.isOpen = true → s.timedOut = false →
        ∃ last, s.heard.getLast? = some last ∧
          s.now ≤ last + silence s.client.pingIntervalMs s.client.pingTimeoutMs + 2 * δ) := by
  have hi : Inv δ s := run_invariant (fun _ _ _ hi hC hs => step_inv hi hC hs) as {} s inv_initial
    hprompt h
  refine ⟨hi.sound, fun hrunning hopen htimedOut => ?_⟩
  refine ⟨s.client.lastPong, (hi.running hrunning).2.2, ?_⟩
  have honTime := hi.onTime
  unfold silence
  cases hpc : s.pc with
  | looping since =>
    rw [hpc] at honTime
    obtain ⟨hsince, hnow⟩ := honTime
    unfold allowed at hsince
    omega
  | waiting deadline =>
    rw [hpc] at honTime
    obtain ⟨hdeadline, hnow⟩ := honTime
    unfold allowed at hdeadline
    omega
  | ended =>
    have hdeclared := hi.detected hrunning hopen hpc
    rw [htimedOut] at hdeclared
    cases hdeclared

/-- One ping, and then silence. -/
def onePing : List Action :=
  [.deliver (.message (ascii "0{}") false), .tick 1, .loop, .tick 25002, .wake, .loop,
    .tick 20000, .deliver (.message (ascii "2") false), .tick 5003, .wake, .loop, .tick 25001,
    .wake, .loop, .tick 25000, .wake]

theorem run_heartbeat_onePing :
    ∃ s, run (step ReferenceText.referenceText) {} onePing = some s ∧
      s.timeouts.map PingTimeout.time = [100007] ∧ ∀ d ∈ s.timeouts, d.Sound 5 := by
  have hprompt : Meets (step ReferenceText.referenceText) (Prompt 5) {} onePing := by
    decide +kernel
  have hreached : (run (step ReferenceText.referenceText) {} onePing).any
      (fun s => s.timeouts.map PingTimeout.time = [100007]) = true := by decide +kernel
  obtain ⟨s, hrun, hfacts⟩ := (Option.any_eq_true _ _).mp hreached
  exact ⟨s, hrun, of_decide_eq_true hfacts, (run_heartbeat hprompt hrun).1⟩

end HeartbeatTimer

end Sioxx
