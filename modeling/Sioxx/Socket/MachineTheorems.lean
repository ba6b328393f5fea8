/-
Sioxx.Socket.MachineTheorems — what a step of the machine can do.

`Machine.Step` has one constructor for every outcome of an action: where
the acting thread was, what the section found, and the machine afterwards
with the fields of the socket written out. `step_cases` is the inversion of
`Machine.step`. The laws of the send path and of the acknowledgements are
case analyses over it and do not open the transition function.
-/
import Sioxx.Socket.Machine
import Sioxx.Socket.SocketTheorems

namespace Sioxx

open Lib

namespace Machine

theorem locked_eq_some {m x m' : Machine} (h : m.locked x = some m') :
    m.mutex = none ∧ x = m' := by
  unfold locked at h
  split at h
  · exact ⟨‹_›, Option.some.inj h⟩
  · cases h

/-- The claim of an acknowledgement that `dispatch_ack` takes. -/
def ackClaim (m : Machine) (id : Int) (data : Json) (callback : Nat) : Claim :=
  if (m.sock.ackScheduler.remove id m.now).1 then ⟨id, callback, .timeout, .null⟩
  else ⟨id, callback, .acknowledged, data⟩

inductive Step (m : Machine) : Action → Machine → Prop
  -- Emitting threads
  | emit (t : Nat) (event : Bytes) (data : Json) (hpc : m.emitters t = .idle) :
      Step m (.emit t event data)
        { m.setPc t (.deciding (m.outgoing t event data (-1) false)) with
          emitted := m.emitted ++ [m.outgoing t event data (-1) false] }
  | emitAck (t : Nat) (event : Bytes) (data : Json) (hpc : m.emitters t = .idle) :
      Step m (.emitAck t event data) (m.setPc t (.registering event data))
  | rejectTimed (t : Nat) (event : Bytes) (data : Json) (timeout : Int) (callback : Bool)
      (hpc : m.emitters t = .idle) (hinvalid : timeout ≤ 0 ∨ callback = false) :
      Step m (.emitTimed t event data timeout callback) m
  | emitTimed (t : Nat) (event : Bytes) (data : Json) (timeout : Int)
      (hpc : m.emitters t = .idle) (htimeout : 0 < timeout) :
      Step m (.emitTimed t event data timeout true)
        (m.setPc t (.preparing event data (Socket.ackDeadline m.now timeout.toNat)))
  | registerAck (t : Nat) (event : Bytes) (data : Json)
      (hpc : m.emitters t = .registering event data) (hfree : m.mutex = none) :
      Step m (.register t)
        { m.setPc t (.deciding (m.outgoing t event data m.sock.nextAckId false)) with
          sock := { m.sock with
            nextAckId := m.sock.nextAckId + 1
            pendingAcks := m.sock.pendingAcks.insert m.sock.nextAckId m.emitted.length }
          emitted := m.emitted ++ [m.outgoing t event data m.sock.nextAckId false] }
  | refuseTimed (t : Nat) (event : Bytes) (data : Json) (deadline : Time)
      (hpc : m.emitters t = .preparing event data deadline)
      (hclosed : m.sock.timedAcksClosed = true) (hfree : m.mutex = none) :
      Step m (.register t) (m.setPc t .idle)
  | registerTimed (t : Nat) (event : Bytes) (data : Json) (deadline : Time)
      (hpc : m.emitters t = .preparing event data deadline)
      (hopen : m.sock.timedAcksClosed = false) (hfree : m.mutex = none) :
      Step m (.register t)
        { m.setPc t (.holding (m.outgoing t event data m.sock.nextAckId true)) with
          sock := { m.sock with
            nextAckId := m.sock.nextAckId + 1
            timedAcks := emplace m.sock.timedAcks m.sock.nextAckId m.emitted.length
            ackScheduler := m.sock.ackScheduler.add m.sock.nextAckId deadline }
          mutex := some t
          emitted := m.emitted ++ [m.outgoing t event data m.sock.nextAckId true]
          registered :=
            m.registered ++ [⟨m.sock.nextAckId, m.emitted.length, deadline⟩] }
  | buffer (t : Nat) (out : Outgoing) (hpc : m.emitters t = .deciding out)
      (hbuffer : m.sock.mustBuffer = true) (hfree : m.mutex = none) :
      Step m (.decide t) { m.setPc t .idle with sock := m.sock.buffer out }
  | direct (t : Nat) (out : Outgoing) (hpc : m.emitters t = .deciding out)
      (hdirect : m.sock.mustBuffer = false) (hfree : m.mutex = none) :
      Step m (.decide t) (m.setPc t (.sending out))
  | heldExpired (t : Nat) (out : Outgoing) (hpc : m.emitters t = .holding out)
      (hexpired : m.sock.ackScheduler.expired out.packet.id m.now = true) :
      Step m (.decide t)
        { m.setPc t .idle with mutex := none, removed := m.removed ++ [(out, .expiry)] }
  | heldBuffer (t : Nat) (out : Outgoing) (hpc : m.emitters t = .holding out)
      (hlive : m.sock.ackScheduler.expired out.packet.id m.now = false)
      (hbuffer : m.sock.mustBuffer = true) :
      Step m (.decide t) { m.setPc t .idle with sock := m.sock.buffer out, mutex := none }
  | heldDirect (t : Nat) (out : Outgoing) (hpc : m.emitters t = .holding out)
      (hlive : m.sock.ackScheduler.expired out.packet.id m.now = false)
      (hdirect : m.sock.mustBuffer = false) :
      Step m (.decide t) { m.setPc t (.sending out) with mutex := none }
  | send (t : Nat) (out : Outgoing) (hpc : m.emitters t = .sending out) :
      Step m (.send t) { m.setPc t .idle with sent := m.sent ++ [.event out] }
  -- Connecting
  | startFlush (hdown : m.sock.connected = false) (hidle : m.sock.flushingSendBuffer = false)
      (hfree : m.mutex = none) :
      Step m (.markConnected true)
        { m.addTask .flushing with
          sock := { m.sock with connected := true, flushingSendBuffer := true } }
  | mark (connected : Bool)
      (hwhy : connected = false ∨ m.sock.connected = true ∨ m.sock.flushingSendBuffer = true)
      (hfree : m.mutex = none) :
      Step m (.markConnected connected) { m with sock := { m.sock with connected } }
  | connect : Step m .connect { m with sent := m.sent ++ [.connect] }
  | disconnectSend :
      Step m .disconnectSend
        { m with sent := m.sent ++ [.disconnect], disconnecting := m.disconnecting + 1 }
  | disconnect (hpending : m.disconnecting ≠ 0) (hfree : m.mutex = none) :
      Step m .disconnect
        { m with sock := m.sock.markDisconnected, disconnecting := m.disconnecting - 1 }
  -- Flushing
  | flushEnd (i : Nat) (throws : Bool) (htask : m.tasks[i]? = some .flushing)
      (hstop : m.sock.connected = false ∨ m.sock.sendBuffer = []) (hfree : m.mutex = none) :
      Step m (.task i throws)
        { m.endTask i with sock := { m.sock with flushingSendBuffer := false } }
  | flushPop (i : Nat) (throws : Bool) (out : Outgoing) (rest : List Outgoing)
      (htask : m.tasks[i]? = some .flushing) (hconnected : m.sock.connected = true)
      (hqueue : m.sock.sendBuffer = out :: rest)
      (hlive : ¬ (out.packet.id ∈ m.sock.timedAcks ∧
        m.sock.ackScheduler.expired out.packet.id m.now = true))
      (hfree : m.mutex = none) :
      Step m (.task i throws)
        { m.setTask i (.flushSending out) with sock := { m.sock with sendBuffer := rest } }
  | flushExpire (i : Nat) (throws : Bool) (out : Outgoing) (rest : List Outgoing)
      (htask : m.tasks[i]? = some .flushing) (hconnected : m.sock.connected = true)
      (hqueue : m.sock.sendBuffer = out :: rest) (hmem : out.packet.id ∈ m.sock.timedAcks)
      (hexpired : m.sock.ackScheduler.expired out.packet.id m.now = true)
      (hfree : m.mutex = none) :
      Step m (.task i throws)
        { m.setTask i (.flushExpiring out) with
          sock := { m.sock with sendBuffer := rest }
          removed := m.removed ++ [(out, .expiry)] }
  | flushSent (i : Nat) (out : Outgoing) (htask : m.tasks[i]? = some (.flushSending out)) :
      Step m (.task i false) { m.setTask i .flushing with sent := m.sent ++ [.event out] }
  | flushAbort (i : Nat) (out : Outgoing) (htask : m.tasks[i]? = some (.flushSending out)) :
      Step m (.task i true)
        { m.endTask i with sent := m.sent ++ [.event out], aborts := m.aborts + 1 }
  -- Timed acknowledgements
  | flushLost (i : Nat) (throws : Bool) (out : Outgoing)
      (htask : m.tasks[i]? = some (.flushExpiring out))
      (hlookup : m.sock.timedAcks.lookup out.packet.id = none) (hfree : m.mutex = none) :
      Step m (.task i throws) (m.setTask i .flushing)
  | workerLost (i : Nat) (throws : Bool) (id : Int)
      (htask : m.tasks[i]? = some (.workerExpiring id))
      (hlookup : m.sock.timedAcks.lookup id = none) (hfree : m.mutex = none) :
      Step m (.task i throws) (m.endTask i)
  | claim (i : Nat) (throws : Bool) (caller : Caller) (id : Int) (callback : Nat) (task : Task)
      (htask : m.tasks[i]? = some task)
      (hwho : (caller = .flusher ∧ ∃ out, task = .flushExpiring out ∧ out.packet.id = id) ∨
        (caller = .worker ∧ task = .workerExpiring id))
      (hlookup : m.sock.timedAcks.lookup id = some callback) (hfree : m.mutex = none) :
      Step m (.task i throws)
        ((m.setTask i (.claimed caller ⟨id, callback, .timeout, .null⟩)).removing
          ({ m.sock with
            timedAcks := m.sock.timedAcks.erase id
            activeTimedAcks := m.sock.activeTimedAcks + 1 }.dropBuffered id)
          (fun b => b.packet.id = id) .expiry)
  | invoke (i : Nat) (throws : Bool) (caller : Caller) (claim : Claim)
      (htask : m.tasks[i]? = some (.claimed caller claim)) :
      Step m (.task i throws)
        { m.setTask i (.running caller claim) with
          invoked := m.invoked ++ [⟨caller, claim, m.now⟩] }
  | flushResume (i : Nat) (claim : Claim) (htask : m.tasks[i]? = some (.running .flusher claim))
      (hfree : m.mutex = none) :
      Step m (.task i false) { m.setTask i .flushing with sock := m.sock.finishTimedAck }
  | flushThrow (i : Nat) (claim : Claim) (htask : m.tasks[i]? = some (.running .flusher claim))
      (hfree : m.mutex = none) :
      Step m (.task i true)
        { m.endTask i with sock := m.sock.finishTimedAck, aborts := m.aborts + 1 }
  | callbackEnd (i : Nat) (throws : Bool) (caller : Caller) (claim : Claim)
      (htask : m.tasks[i]? = some (.running caller claim))
      (hcaller : caller = .dispatcher ∨ (caller = .worker ∧ throws = false))
      (hfree : m.mutex = none) :
      Step m (.task i throws) { m.endTask i with sock := m.sock.finishTimedAck }
  | ackTimed (id : Int) (data : Json) (callback : Nat)
      (hlookup : m.sock.timedAcks.lookup id = some callback) (hfree : m.mutex = none) :
      Step m (.dispatchAck id data)
        { (m.addTask (.claimed .dispatcher (m.ackClaim id data callback))).removing
            ({ m.sock with
              ackScheduler := (m.sock.ackScheduler.remove id m.now).2
              activeTimedAcks := m.sock.activeTimedAcks + 1
              timedAcks := m.sock.timedAcks.erase id }.dropBuffered id)
            (fun b => b.packet.id = id) .acknowledgement with
          acks := m.acks ++ [⟨id, data, m.now⟩] }
  | ackPlain (id : Int) (data : Json) (callback : Nat)
      (htimed : m.sock.timedAcks.lookup id = none)
      (hlookup : m.sock.pendingAcks.lookup id = some callback) (hfree : m.mutex = none) :
      Step m (.dispatchAck id data)
        { m with
          sock := { m.sock with pendingAcks := m.sock.pendingAcks.erase id }
          acks := m.acks ++ [⟨id, data, m.now⟩] }
  | ackUnknown (id : Int) (data : Json) (htimed : m.sock.timedAcks.lookup id = none)
      (hlookup : m.sock.pendingAcks.lookup id = none) (hfree : m.mutex = none) :
      Step m (.dispatchAck id data) { m with acks := m.acks ++ [⟨id, data, m.now⟩] }
  | workerPop (id : Int) (ackScheduler : AckScheduler)
      (hworker : m.tasks.any Task.isWorker = false)
      (hpop : m.sock.ackScheduler.pop m.now = some (id, ackScheduler)) :
      Step m .workerPop
        { m.addTask (.workerExpiring id) with sock := { m.sock with ackScheduler } }
  | cancel (hfree : m.mutex = none) :
      Step m .cancelTimedAcks
        { m.removing m.sock.cancelTimedAcks (fun b => b.packet.id ∈ m.sock.timedAcks)
            .cancellation with
          cancelled := m.cancelled ++ m.sock.timedAcks.entries.map (·.2) }
  | resume (hfree : m.mutex = none) :
      Step m .resumeTimedAcks { m with sock := m.sock.resumeTimedAcks }
  | tick (elapsed : Nat) : Step m (.tick elapsed) { m with now := m.now + elapsed }

theorem registerStep_cases {m m' : Machine} {t : Nat} (h : m.registerStep t = some m') :
    m.Step (.register t) m' := by
  unfold registerStep at h
  split at h
  · rename_i event data hpc
    obtain ⟨hfree, rfl⟩ := locked_eq_some h
    exact .registerAck t event data hpc hfree
  · rename_i event data deadline hpc
    split at h
    · rename_i hreg
      obtain ⟨hfree, rfl⟩ := locked_eq_some h
      refine .refuseTimed t event data deadline hpc ?_ hfree
      unfold Socket.registerTimedAck at hreg
      split at hreg
      · assumption
      · cases hreg
    · rename_i id sock hreg
      obtain ⟨hfree, rfl⟩ := locked_eq_some h
      obtain ⟨hopen, rfl, rfl⟩ := Socket.registerTimedAck_some hreg
      exact .registerTimed t event data deadline hpc hopen hfree
  · cases h

theorem decideStep_cases {m m' : Machine} {t : Nat} (h : m.decideStep t = some m') :
    m.Step (.decide t) m' := by
  unfold decideStep at h
  split at h
  · rename_i out hpc
    obtain ⟨hfree, rfl⟩ := locked_eq_some h
    unfold bufferOrSend
    split
    · rename_i hbuffer
      exact .buffer t out hpc hbuffer hfree
    · rename_i hdirect
      exact .direct t out hpc (Bool.eq_false_iff.mpr hdirect) hfree
  · rename_i out hpc
    split at h
    · rename_i hexpired
      cases h
      exact .heldExpired t out hpc hexpired
    · rename_i hlive
      have hlive := Bool.eq_false_iff.mpr hlive
      cases h
      unfold bufferOrSend
      split
      · rename_i hbuffer
        exact .heldBuffer t out hpc hlive hbuffer
      · rename_i hdirect
        exact .heldDirect t out hpc hlive (Bool.eq_false_iff.mpr hdirect)
  · cases h

theorem flushTurn_cases {m m' : Machine} {i : Nat} {throws : Bool}
    (htask : m.tasks[i]? = some .flushing) (h : m.taskStep i throws = some m') :
    m.Step (.task i throws) m' := by
  simp only [taskStep, htask] at h
  split at h
  · rename_i sock hturn
    obtain ⟨hfree, rfl⟩ := locked_eq_some h
    obtain ⟨hstop, rfl⟩ := Socket.flushTurn_done hturn
    exact .flushEnd i throws htask hstop hfree
  · rename_i out sock hturn
    obtain ⟨hfree, rfl⟩ := locked_eq_some h
    obtain ⟨hconnected, rest, hqueue, hlive⟩ := Socket.flushTurn_send_iff.mp ⟨sock, hturn⟩
    obtain ⟨first, rest', -, hqueue', rfl, -⟩ := Socket.flushTurn_popped hturn (by simp)
    obtain ⟨rfl, rfl⟩ := List.cons.inj (hqueue.symm.trans hqueue')
    exact .flushPop i throws out rest htask hconnected hqueue hlive hfree
  · rename_i out sock hturn
    obtain ⟨hfree, rfl⟩ := locked_eq_some h
    obtain ⟨first, rest, hconnected, hqueue, rfl, hout⟩ := Socket.flushTurn_popped hturn (by simp)
    obtain ⟨hout, hmem, hexpired⟩ := hout.resolve_left (by simp)
    obtain rfl : out = first := by simpa using hout
    exact .flushExpire i throws out rest htask hconnected hqueue hmem hexpired hfree

/-- The section of `expire_ack`. -/
theorem expireStep_cases {m m' lost : Machine} {i : Nat} {caller : Caller} {id : Int}
    (h : m.expireStep i caller id lost = some m') : m.mutex = none ∧
      ((m.sock.timedAcks.lookup id = none ∧ m' = lost) ∨
        ∃ callback, m.sock.timedAcks.lookup id = some callback ∧
          m' = (m.setTask i (.claimed caller ⟨id, callback, .timeout, .null⟩)).removing
            ({ m.sock with
              timedAcks := m.sock.timedAcks.erase id
              activeTimedAcks := m.sock.activeTimedAcks + 1 }.dropBuffered id)
            (fun b => b.packet.id = id) .expiry) := by
  unfold expireStep at h
  split at h
  · rename_i sock hsock
    obtain ⟨hfree, rfl⟩ := locked_eq_some h
    refine ⟨hfree, .inl ⟨?_, rfl⟩⟩
    unfold Socket.expireAck at hsock
    split at hsock
    · assumption
    · cases hsock
  · rename_i callback sock hsock
    obtain ⟨hfree, rfl⟩ := locked_eq_some h
    obtain ⟨hlookup, rfl⟩ := Socket.expireAck_some hsock
    exact ⟨hfree, .inr ⟨callback, hlookup, rfl⟩⟩

theorem taskStep_cases {m m' : Machine} {i : Nat} {throws : Bool}
    (h : m.taskStep i throws = some m') : m.Step (.task i throws) m' := by
  cases htask : m.tasks[i]? with
  | none => simp [taskStep, htask] at h
  | some task =>
    cases task with
    | flushing => exact flushTurn_cases htask h
    | flushSending out =>
      simp only [taskStep, htask] at h
      cases throws with
      | true =>
        cases h
        exact .flushAbort i out htask
      | false =>
        cases h
        exact .flushSent i out htask
    | flushExpiring out =>
      simp only [taskStep, htask] at h
      obtain ⟨hfree, ⟨hlookup, rfl⟩ | ⟨callback, hlookup, rfl⟩⟩ := expireStep_cases h
      · exact .flushLost i throws out htask hlookup hfree
      · exact .claim i throws .flusher _ callback _ htask (.inl ⟨rfl, out, rfl, rfl⟩) hlookup hfree
    | workerExpiring id =>
      simp only [taskStep, htask] at h
      obtain ⟨hfree, ⟨hlookup, rfl⟩ | ⟨callback, hlookup, rfl⟩⟩ := expireStep_cases h
      · exact .workerLost i throws id htask hlookup hfree
      · exact .claim i throws .worker id callback _ htask (.inr ⟨rfl, rfl⟩) hlookup hfree
    | claimed caller claim =>
      simp only [taskStep, htask] at h
      cases h
      exact .invoke i throws caller claim htask
    | running caller claim =>
      simp only [taskStep, htask] at h
      split at h
      · obtain ⟨hfree, rfl⟩ := locked_eq_some h
        exact .flushResume i claim htask hfree
      · obtain ⟨hfree, rfl⟩ := locked_eq_some h
        exact .flushThrow i claim htask hfree
      · obtain ⟨hfree, rfl⟩ := locked_eq_some h
        exact .callbackEnd i throws .dispatcher claim htask (.inl rfl) hfree
      · obtain ⟨hfree, rfl⟩ := locked_eq_some h
        exact .callbackEnd i false .worker claim htask (.inr ⟨rfl, rfl⟩) hfree
      · cases h

theorem dispatchAckStep_cases {m m' : Machine} {id : Int} {data : Json}
    (h : m.dispatchAckStep id data = some m') : m.Step (.dispatchAck id data) m' := by
  unfold dispatchAckStep Socket.dispatchAck at h
  cases htimed : m.sock.timedAcks.lookup id with
  | some callback =>
    rw [htimed] at h
    obtain ⟨hfree, rfl⟩ := locked_eq_some h
    exact .ackTimed id data callback htimed hfree
  | none =>
    cases hplain : m.sock.pendingAcks.lookup id with
    | some callback =>
      rw [htimed, hplain] at h
      obtain ⟨hfree, rfl⟩ := locked_eq_some h
      exact .ackPlain id data callback htimed hplain hfree
    | none =>
      rw [htimed, hplain] at h
      obtain ⟨hfree, rfl⟩ := locked_eq_some h
      exact .ackUnknown id data htimed hplain hfree

/-- **Every step is one of these.** -/
theorem step_cases {m m' : Machine} {a : Action} (h : m.step a = some m') : m.Step a m' := by
  cases a with
  | emit t event data =>
    simp only [step] at h
    split at h
    · rename_i hpc
      cases h
      exact .emit t event data hpc
    · cases h
  | emitAck t event data =>
    simp only [step] at h
    split at h
    · rename_i hpc
      cases h
      exact .emitAck t event data hpc
    · cases h
  | emitTimed t event data timeout callback =>
    simp only [step] at h
    split at h
    · rename_i hpc
      split at h
      · rename_i hinvalid
        cases h
        exact .rejectTimed t event data timeout callback hpc (by simpa using hinvalid)
      · rename_i hvalid
        cases h
        simp only [Bool.or_eq_true, decide_eq_true_eq, Bool.not_eq_true', not_or, Int.not_le,
          Bool.not_eq_false] at hvalid
        obtain ⟨htimeout, rfl⟩ := hvalid
        exact .emitTimed t event data timeout hpc htimeout
    · cases h
  | register t => exact registerStep_cases h
  | decide t => exact decideStep_cases h
  | send t =>
    simp only [step] at h
    split at h
    · rename_i out hpc
      cases h
      exact .send t out hpc
    · cases h
  | markConnected connected =>
    simp only [step] at h
    split at h
    · rename_i sock hmark
      obtain ⟨hfree, rfl⟩ := locked_eq_some h
      obtain ⟨rfl, hdown, hidle, rfl⟩ := Socket.markConnected_flush hmark
      exact .startFlush hdown hidle hfree
    · rename_i sock hmark
      obtain ⟨hfree, rfl⟩ := locked_eq_some h
      obtain ⟨hwhy, rfl⟩ := Socket.markConnected_noFlush hmark
      exact .mark connected hwhy hfree
  | connect =>
    cases h
    exact .connect
  | disconnectSend =>
    cases h
    exact .disconnectSend
  | disconnect =>
    simp only [step] at h
    split at h
    · cases h
    · rename_i hpending
      obtain ⟨hfree, rfl⟩ := locked_eq_some h
      exact .disconnect hpending hfree
  | task i throws => exact taskStep_cases h
  | dispatchAck id data => exact dispatchAckStep_cases h
  | workerPop =>
    simp only [step, workerPopStep] at h
    split at h
    · cases h
    · rename_i hworker
      split at h
      · cases h
      · rename_i id ackScheduler hpop
        cases h
        exact .workerPop id ackScheduler (Bool.eq_false_iff.mpr hworker) hpop
  | cancelTimedAcks =>
    obtain ⟨hfree, rfl⟩ := locked_eq_some h
    exact .cancel hfree
  | resumeTimedAcks =>
    obtain ⟨hfree, rfl⟩ := locked_eq_some h
    exact .resume hfree
  | tick elapsed =>
    cases h
    exact .tick elapsed

end Machine

end Sioxx
