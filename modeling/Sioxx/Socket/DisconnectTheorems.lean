/-
Sioxx.Socket.DisconnectTheorems — events after DISCONNECT.

`socket::disconnect` hands its packet over and clears `connected_`
afterwards, and an event is handed over outside the lock under which the
decision to send it was taken. So an EVENT can follow the DISCONNECT of
its socket in two ways: it had been decided on before the DISCONNECT, or
it is decided on after it, while `connected_` is still (or again) set.

`Orderly` forbids these two and nothing else. `nothingAfterDisconnect_iff`
says that a run of orderly steps hands over no event between a DISCONNECT
and the next CONNECT, and that after a step that is not orderly one more
step can.
-/
import Sioxx.Socket.TimedAckTheorems

namespace Sioxx

open Lib

namespace Machine

/-- After every DISCONNECT handed over, a CONNECT comes before the next
event. -/
def NothingAfterDisconnect (sent : List Sent) : Prop :=
  ∀ p q r out, sent = p ++ .disconnect :: (q ++ .event out :: r) → .connect ∈ q

/-- The last CONNECT or DISCONNECT handed over is a DISCONNECT. -/
def Disconnected (sent : List Sent) : Prop := ∃ p q, sent = p ++ .disconnect :: q ∧ .connect ∉ q

/-- Some event is between the decision to send it and its hand-over. -/
def InFlight (m : Machine) : Prop :=
  (∃ t out, m.emitters t = .sending out) ∨ ∃ out, .flushSending out ∈ m.tasks

/-- The action is a section that decides to send an event: an emission
that finds `connected_` set and no flush running, or a turn of a flush
that finds `connected_` set and an event that has not expired. -/
def DecidesToSend (m : Machine) (a : Action) : Prop :=
  (∃ t, a = .decide t ∧ m.sock.mustBuffer = false ∧
    ∃ out, m.emitters t = .deciding out ∨
      (m.emitters t = .holding out ∧
        m.sock.ackScheduler.expired out.packet.id m.now = false)) ∨
  (∃ i throws, a = .task i throws ∧ m.tasks[i]? = some .flushing ∧ m.sock.connected = true ∧
    ∃ out rest, m.sock.sendBuffer = out :: rest ∧
      ¬ (out.packet.id ∈ m.sock.timedAcks ∧
        m.sock.ackScheduler.expired out.packet.id m.now = true))

/-- A DISCONNECT is handed over while no event is in flight, and until the
next CONNECT no section decides to send one. -/
def Orderly (m : Machine) (a : Action) : Prop :=
  (a = .disconnectSend → ¬ m.InFlight) ∧ (Disconnected m.sent → ¬ m.DecidesToSend a)

/-! ## The packets handed over -/

/-- An event does not undo a DISCONNECT. -/
theorem disconnected_event {sent : List Sent} {out : Outgoing}
    (h : Disconnected (sent ++ [.event out])) : Disconnected sent := by
  obtain ⟨p, q, heq, hq⟩ := h
  rcases List.eq_nil_or_concat q with rfl | ⟨q, x, rfl⟩
  · have := List.append_inj_right' heq rfl
    cases this
  · rw [List.concat_eq_append, ← List.cons_append, ← List.append_assoc] at heq
    have hx := List.append_inj_left' heq rfl
    refine ⟨p, q, hx, fun hmem => hq ?_⟩
    rw [List.concat_eq_append]
    exact List.mem_append_left _ hmem

/-- A CONNECT does. -/
theorem not_disconnected_connect (sent : List Sent) : ¬ Disconnected (sent ++ [.connect]) := by
  rintro ⟨p, q, heq, hq⟩
  rcases List.eq_nil_or_concat q with rfl | ⟨q, x, rfl⟩
  · have := List.append_inj_right' heq rfl
    cases this
  · rw [List.concat_eq_append, ← List.cons_append, ← List.append_assoc] at heq
    have hx := List.append_inj_right' heq rfl
    cases hx
    exact hq (by simp)

theorem disconnected_disconnect (sent : List Sent) : Disconnected (sent ++ [.disconnect]) :=
  ⟨sent, [], rfl, by simp⟩

/-- The law is kept by whatever is no event after a DISCONNECT. -/
theorem nothingAfterDisconnect_append {sent : List Sent} {x : Sent}
    (h : NothingAfterDisconnect sent)
    (hx : ∀ out, x = .event out → ¬ Disconnected sent) :
    NothingAfterDisconnect (sent ++ [x]) := by
  intro p q r out heq
  rcases List.eq_nil_or_concat r with rfl | ⟨r, y, rfl⟩
  · -- the event is the packet just handed over
    have hsplit : sent ++ [x] = (p ++ .disconnect :: q) ++ [.event out] := by
      rw [heq, List.append_assoc, List.cons_append]
    have hlast := List.append_inj_right' hsplit rfl
    have hsent := List.append_inj_left' hsplit rfl
    cases hlast
    by_contra hnone
    exact hx out rfl ⟨p, q, hsent, hnone⟩
  · have hsplit : sent ++ [x] = (p ++ .disconnect :: (q ++ .event out :: r)) ++ [y] := by
      rw [heq, List.concat_eq_append]
      simp
    exact h p q r out (List.append_inj_left' hsplit rfl)

/-- And such an event breaks it. -/
theorem event_after_disconnect {sent : List Sent} {out : Outgoing} (h : Disconnected sent) :
    ¬ NothingAfterDisconnect (sent ++ [.event out]) := by
  obtain ⟨p, q, rfl, hq⟩ := h
  intro hlaw
  exact hq (hlaw p q [] out (by simp))

/-! ## What a step does to the events in flight -/

section Frame

variable {m m' : Machine} {D : Prop}

/-- An event is in flight after a change of the threads if it was before,
or the change brought one. -/
theorem InFlight.frame (h : m'.InFlight)
    (hemitters : ∀ t out, m'.emitters t = .sending out → m.emitters t = .sending out ∨ D)
    (htasks : ∀ out, .flushSending out ∈ m'.tasks → .flushSending out ∈ m.tasks ∨ D) :
    m.InFlight ∨ D := by
  rcases h with ⟨t, out, hpc⟩ | ⟨out, htask⟩
  · exact (hemitters t out hpc).imp_left fun h => .inl ⟨t, out, h⟩
  · exact (htasks out htask).imp_left fun h => .inr ⟨out, h⟩

/-- An emitter that moves sends only what it decided to. -/
theorem sending_setPc {t : Nat} {pc : EmitPc} (hpc : ∀ out, pc = .sending out → D) (u : Nat)
    (out : Outgoing) (h : (m.setPc t pc).emitters u = .sending out) :
    m.emitters u = .sending out ∨ D := by
  by_cases hu : u = t
  · subst hu
    simp only [setPc, Function.update_self] at h
    exact .inr (hpc out h)
  · simp only [setPc, Function.update_of_ne hu] at h
    exact .inl h

/-- The same for a task that moves, ends or begins. -/
theorem flushSending_setTask {i : Nat} {task : Task} (htask : ∀ out, task = .flushSending out → D)
    (out : Outgoing) (h : .flushSending out ∈ (m.setTask i task).tasks) :
    .flushSending out ∈ m.tasks ∨ D := by
  rcases List.mem_or_eq_of_mem_set h with h | h
  · exact .inl h
  · exact .inr (htask out h.symm)

theorem flushSending_endTask {i : Nat} (out : Outgoing)
    (h : .flushSending out ∈ (m.endTask i).tasks) : .flushSending out ∈ m.tasks ∨ D :=
  .inl (List.mem_of_mem_eraseIdx h)

theorem flushSending_addTask {task : Task} (htask : ∀ out, task = .flushSending out → D)
    (out : Outgoing) (h : .flushSending out ∈ (m.addTask task).tasks) :
    .flushSending out ∈ m.tasks ∨ D := by
  rcases List.mem_append.mp h with h | h
  · exact .inl h
  · exact .inr (htask out (List.mem_singleton.mp h).symm)

end Frame

/-- What a step hands over, and how events come to be in flight. -/
def Handles (m : Machine) (a : Action) (m' : Machine) : Prop :=
  (m'.sent = m.sent ∧ (m'.InFlight → m.InFlight ∨ m.DecidesToSend a)) ∨
  (∃ out, m'.sent = m.sent ++ [.event out] ∧ m.InFlight) ∨
  (a = .connect ∧ m'.sent = m.sent ++ [.connect]) ∨
  (a = .disconnectSend ∧ m'.sent = m.sent ++ [.disconnect] ∧ (m'.InFlight → m.InFlight))

/-- A step that hands nothing over. -/
theorem Handles.of_quiet {m m' : Machine} {a : Action} (hsent : m'.sent = m.sent)
    (hemitters : ∀ t out, m'.emitters t = .sending out →
      m.emitters t = .sending out ∨ m.DecidesToSend a)
    (htasks : ∀ out, .flushSending out ∈ m'.tasks →
      .flushSending out ∈ m.tasks ∨ m.DecidesToSend a) : m.Handles a m' :=
  .inl ⟨hsent, fun h => h.frame hemitters htasks⟩

/-- Every step is of one of the four kinds. -/
theorem step_handles {m m' : Machine} {a : Action} (h : m.step a = some m') :
    m.Handles a m' := by
  cases step_cases h with
  | emit | emitAck | emitTimed | registerAck | refuseTimed | registerTimed | buffer | heldExpired
  | heldBuffer => exact .of_quiet rfl (sending_setPc (by simp)) (fun _ h => .inl h)
  | direct t out hpc hdirect =>
    refine .of_quiet rfl (sending_setPc fun _ _ => ?_) (fun _ h => .inl h)
    exact .inl ⟨t, rfl, hdirect, out, .inl hpc⟩
  | heldDirect t out hpc hlive hdirect =>
    refine .of_quiet rfl (sending_setPc fun _ _ => ?_) (fun _ h => .inl h)
    exact .inl ⟨t, rfl, hdirect, out, .inr ⟨hpc, hlive⟩⟩
  | send t out hpc => exact .inr (.inl ⟨out, rfl, .inl ⟨t, out, hpc⟩⟩)
  | connect => exact .inr (.inr (.inl ⟨rfl, rfl⟩))
  | disconnectSend => exact .inr (.inr (.inr ⟨rfl, rfl, fun h => h⟩))
  | flushPop i throws out rest htask hconnected hqueue hlive =>
    refine .of_quiet rfl (fun _ _ h => .inl h) (flushSending_setTask fun _ _ => ?_)
    exact .inr ⟨i, throws, rfl, htask, hconnected, out, rest, hqueue, hlive⟩
  | flushSent i out htask | flushAbort i out htask =>
    exact .inr (.inl ⟨out, rfl, .inr ⟨out, List.mem_of_getElem? htask⟩⟩)
  | flushExpire | flushLost | claim | invoke | flushResume =>
    exact .of_quiet rfl (fun _ _ h => .inl h) (flushSending_setTask (by simp))
  | flushEnd | workerLost | flushThrow | callbackEnd =>
    exact .of_quiet rfl (fun _ _ h => .inl h) flushSending_endTask
  | startFlush | ackTimed | workerPop =>
    exact .of_quiet rfl (fun _ _ h => .inl h) (flushSending_addTask (by simp))
  | _ => exact .of_quiet rfl (fun _ _ h => .inl h) (fun _ h => .inl h)

/-! ## The law along a run -/

/-- The law, and that no event is in flight while the socket has sent its
DISCONNECT. -/
def Settled (m : Machine) : Prop :=
  NothingAfterDisconnect m.sent ∧ (Disconnected m.sent → ¬ m.InFlight)

/-- Nothing has been handed over. -/
theorem settled_init (nsp : Bytes) : (init nsp).Settled := by
  constructor
  · intro p q r out h
    simp [init] at h
  · rintro ⟨p, q, h, -⟩
    simp [init] at h

/-- An orderly step keeps the law. -/
theorem step_settled (m : Machine) (a : Action) (m' : Machine) (hm : m.Settled)
    (hC : m.Orderly a) (h : m.step a = some m') : m'.Settled := by
  obtain ⟨hlaw, hquiet⟩ := hm
  rcases step_handles h with ⟨hsent, hflight⟩ | ⟨out, hsent, hflight⟩ | ⟨-, hsent⟩ |
    ⟨rfl, hsent, hflight⟩
  · rw [Settled, hsent]
    refine ⟨hlaw, fun hdown hafter => ?_⟩
    rcases hflight hafter with hbefore | hdecides
    · exact hquiet hdown hbefore
    · exact hC.2 hdown hdecides
  · have hup : ¬ Disconnected m.sent := fun hdown => hquiet hdown hflight
    rw [Settled, hsent]
    refine ⟨nothingAfterDisconnect_append hlaw fun _ _ => hup, fun hdown => ?_⟩
    exact absurd (disconnected_event hdown) hup
  · rw [Settled, hsent]
    refine ⟨nothingAfterDisconnect_append hlaw (by simp), fun hdown => ?_⟩
    exact absurd hdown (not_disconnected_connect m.sent)
  · rw [Settled, hsent]
    exact ⟨nothingAfterDisconnect_append hlaw (by simp),
      fun _ hafter => hC.1 rfl (hflight hafter)⟩

/-- A thread hands over the event it had decided to send. -/
def HandsOver (m : Machine) (a : Action) : Prop :=
  (∃ t out, a = .send t ∧ m.emitters t = .sending out) ∨
  ∃ i out, a = .task i false ∧ m.tasks[i]? = some (.flushSending out)

/-- To hand over what was decided is orderly. -/
theorem HandsOver.orderly {m : Machine} {a : Action} (h : m.HandsOver a) : m.Orderly a := by
  rcases h with ⟨t, out, rfl, -⟩ | ⟨i, out, rfl, htask⟩
  · refine ⟨by simp, fun _ hdecides => ?_⟩
    rcases hdecides with ⟨u, hu, -⟩ | ⟨i, throws, hi, -⟩
    · cases hu
    · cases hi
  · refine ⟨by simp, fun _ hdecides => ?_⟩
    rcases hdecides with ⟨u, hu, -⟩ | ⟨j, throws, hj, hflushing, -⟩
    · cases hu
    · cases hj
      rw [htask] at hflushing
      cases hflushing

/-- After the DISCONNECT, an event in flight is one step from breaking the
law. -/
theorem InFlight.breaks {m : Machine} (h : m.InFlight) (hdown : Disconnected m.sent) :
    ∃ bs u, Meets step HandsOver m bs ∧ run step m bs = some u ∧
      ¬ NothingAfterDisconnect u.sent := by
  rcases h with ⟨t, out, hpc⟩ | ⟨out, htask⟩
  · refine ⟨[.send t], { m.setPc t .idle with sent := m.sent ++ [.event out] }, ?_, ?_,
      event_after_disconnect hdown⟩
    · exact ⟨.inl ⟨t, out, rfl, hpc⟩, fun _ _ => trivial⟩
    · simp only [run, step, hpc]
  · obtain ⟨i, hi⟩ := List.mem_iff_getElem?.mp htask
    refine ⟨[.task i false], { m.setTask i .flushing with sent := m.sent ++ [.event out] }, ?_, ?_,
      event_after_disconnect hdown⟩
    · exact ⟨.inr ⟨i, out, rfl, hi⟩, fun _ _ => trivial⟩
    · simp only [run, step, taskStep, hi]
      rfl

/-- A section that decides to send puts the event in flight. -/
theorem DecidesToSend.inFlight {m m' : Machine} {a : Action} (h : m.DecidesToSend a)
    (hstep : m.step a = some m') : m'.InFlight ∧ m'.sent = m.sent := by
  rcases h with ⟨t, rfl, hbuffer, out, hpc | ⟨hpc, hlive⟩⟩ | ⟨i, throws, rfl, htask, hc, out,
    rest, hb, hlive⟩
  · simp only [step, decideStep, hpc] at hstep
    obtain ⟨-, rfl⟩ := locked_eq_some hstep
    simp only [bufferOrSend, hbuffer]
    exact ⟨.inl ⟨t, out, by simp [setPc]⟩, rfl⟩
  · simp only [step, decideStep, hpc, hlive] at hstep
    cases hstep
    simp only [bufferOrSend, hbuffer]
    exact ⟨.inl ⟨t, out, by simp [setPc]⟩, rfl⟩
  · obtain ⟨sock, hturn⟩ := Socket.flushTurn_send_iff.mpr ⟨hc, rest, hb, hlive⟩
    simp only [step, taskStep, htask, hturn] at hstep
    obtain ⟨-, rfl⟩ := locked_eq_some hstep
    exact ⟨.inr ⟨out, List.mem_set (List.getElem?_eq_some_iff.mp htask).1 _⟩, rfl⟩

/-- After a step that is not orderly, the law can be broken by handing over. -/
theorem disorderly_breaks (m : Machine) (a : Action) (m' : Machine) (hnot : ¬ m.Orderly a)
    (h : m.step a = some m') : ∃ bs u, Meets step HandsOver m' bs ∧
      run step m' bs = some u ∧ ¬ NothingAfterDisconnect u.sent := by
  have hcases : (a = .disconnectSend ∧ m.InFlight) ∨
      (Disconnected m.sent ∧ m.DecidesToSend a) := by
    by_contra hno
    rw [not_or, not_and, not_and] at hno
    exact hnot hno
  rcases hcases with ⟨rfl, hflight⟩ | ⟨hdown, hdecides⟩
  · cases h
    exact InFlight.breaks hflight (disconnected_disconnect m.sent)
  · obtain ⟨hflight, hsent⟩ := hdecides.inFlight h
    exact hflight.breaks (by rw [hsent]; exact hdown)

/-- **When nothing follows DISCONNECT.** The steps of a run are orderly
exactly if, wherever the run is stopped and whichever events in flight are
then handed over, no event has been handed over between a DISCONNECT and
the next CONNECT. -/
theorem nothingAfterDisconnect_iff {nsp : Bytes} {as : List Action} {m : Machine}
    (h : run step (init nsp) as = some m) :
    Meets step Orderly (init nsp) as ↔
      ∀ k m bs u, run step (init nsp) (as.take k) = some m → Meets step HandsOver m bs →
        run step m bs = some u → NothingAfterDisconnect u.sent :=
  meets_iff_completions step_settled (fun _ hm => hm.1) (fun _ _ => HandsOver.orderly)
    (fun m a m' _ => disorderly_breaks m a m') as (init nsp) m (settled_init nsp) h

/-- An event is sent, and then the namespace is left. -/
def orderlyLeave : List Action :=
  [.connect, .markConnected true, .task 0 false, .emit 0 (ascii "a") .null, .decide 0, .send 0,
   .disconnectSend, .disconnect]

/-- A run that keeps to it. -/
theorem nothingAfterDisconnect_iff_orderlyLeave :
    ∃ m, run step (init (ascii "/")) orderlyLeave = some m ∧
      (Meets step Orderly (init (ascii "/")) orderlyLeave ↔
        ∀ k m bs u, run step (init (ascii "/")) (orderlyLeave.take k) = some m →
          Meets step HandsOver m bs → run step m bs = some u → NothingAfterDisconnect u.sent) :=
  ⟨_, rfl, @nothingAfterDisconnect_iff (ascii "/") orderlyLeave _ rfl⟩

/-- Another thread emits between the DISCONNECT and the section that clears
`connected_`. -/
def emitWhileLeaving : List Action :=
  [.connect, .markConnected true, .task 0 false, .disconnectSend, .emit 0 (ascii "a") .null,
   .decide 0, .send 0, .disconnect]

/-- And the event follows the DISCONNECT. -/
theorem emitWhileLeaving_sends : ∃ m, run step (init (ascii "/")) emitWhileLeaving = some m ∧
    ¬ NothingAfterDisconnect m.sent := by
  refine ⟨_, rfl, fun hlaw => ?_⟩
  have hconnect := hlaw [.connect] [] [] _ rfl
  cases hconnect

end Machine

end Sioxx
