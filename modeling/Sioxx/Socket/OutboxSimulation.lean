/-
Sioxx.Socket.OutboxSimulation — the send path is an outbox.

`Machine.outbox` forgets everything of a machine that the send path does
not use. `step_simulates` shows that one step of the machine is a few steps
of `Lib.Outbox`, or none: one lemma per action. So the send path of a
machine that has run is in a state an outbox can reach (`step_sound`),
whatever the threads do.
-/
import Sioxx.Lib.Outbox
import Sioxx.Socket.TimedAckTheorems

namespace Sioxx

open Lib

/-! ## The outbox of a machine -/

/-- The event an emitting thread holds. -/
def EmitPc.hand : EmitPc → Hand Outgoing
  | .idle => .empty
  | .registering _ _ => .empty
  | .preparing _ _ _ => .empty
  | .deciding out => .undecided out
  | .holding out => .undecided out
  | .sending out => .direct out

/-- A thread inside `flush_send_buffer` and the event it holds. A popped
event that had expired is not held any more. -/
def Task.drainer : Task → Option (Option Outgoing)
  | .flushing => some none
  | .flushSending out => some (some out)
  | .flushExpiring _ => some none
  | .workerExpiring _ => none
  | .claimed caller _ => if caller = .flusher then some none else none
  | .running caller _ => if caller = .flusher then some none else none

namespace Machine

def outbox (m : Machine) : Outbox Outgoing Nat where
  gate := m.sock.connected
  draining := m.sock.flushingSendBuffer
  queue := m.sock.sendBuffer
  drainers := m.tasks.filterMap Task.drainer
  hand := fun t => (m.emitters t).hand
  issued := m.emitted
  delivered := m.sent.filterMap Sent.outgoing
  dropped := m.removed.map Prod.fst
  aborts := m.aborts

theorem hand_update (f : Nat → EmitPc) (t : Nat) (pc : EmitPc) :
    (fun u => (Function.update f t pc u).hand)
      = Function.update (fun u => (f u).hand) t pc.hand := by
  funext u
  by_cases hu : u = t
  · subst hu
    rw [Function.update_self, Function.update_self]
  · rw [Function.update_of_ne hu, Function.update_of_ne hu]

/-- A program counter that holds the same as before changes nothing. -/
theorem hand_update_same {f : Nat → EmitPc} {t : Nat} {pc : EmitPc} (h : (f t).hand = pc.hand) :
    (fun u => (Function.update f t pc u).hand) = fun u => (f u).hand := by
  rw [hand_update, ← h, Function.update_eq_self]

/-- The next number is new. -/
theorem not_mem_emitted {m : Machine} (h : m.timedAcks.Registry) {out : Outgoing}
    (hout : out.emission = m.emitted.length) : out ∉ m.emitted := by
  intro hmem
  have hrange : out.emission ∈ List.range m.emitted.length :=
    h.numbered ▸ List.mem_map_of_mem hmem
  rw [hout, List.mem_range] at hrange
  exact Nat.lt_irrefl _ hrange

/-! ## The simulation -/

/-- The outbox of the second machine is reached from that of the first. -/
def Simulates (m m' : Machine) : Prop :=
  Relation.ReflTransGen (Outbox.Step Outgoing.thread) m.outbox m'.outbox

theorem Simulates.of_eq {m m' : Machine} (h : m'.outbox = m.outbox) : Simulates m m' := by
  unfold Simulates
  rw [h]

theorem Simulates.of_step {m m' : Machine} {s : Outbox Outgoing Nat} (h : m'.outbox = s)
    (hstep : Outbox.Step Outgoing.thread m.outbox s) : Simulates m m' := by
  unfold Simulates
  rw [h]
  exact Relation.ReflTransGen.single hstep

/-- A thread comes into possession of a new emission. -/
theorem simulates_issue {m m' : Machine} (hn : m.timedAcks.Registry) (t : Nat) (pc : EmitPc)
    (out : Outgoing) (hempty : (m.emitters t).hand = .empty) (hpc : pc.hand = .undecided out)
    (hthread : out.thread = t) (hnumber : out.emission = m.emitted.length)
    (h : m'.outbox = { m.setPc t pc with emitted := m.emitted ++ [out] }.outbox) :
    Simulates m m' := by
  subst hthread
  refine Simulates.of_step (h.trans ?_)
    (Outbox.Step.issue m.outbox out hempty (not_mem_emitted hn hnumber))
  simp only [outbox, setPc, hand_update, hpc]

theorem simulates_buffer {m m' : Machine} {t : Nat} {out : Outgoing}
    (hhand : (m.emitters t).hand = .undecided out) (hbuffer : m.sock.mustBuffer = true)
    (h : m'.outbox = { m.setPc t .idle with sock := m.sock.buffer out }.outbox) :
    Simulates m m' := by
  refine Simulates.of_step (h.trans ?_) (Outbox.Step.enqueue m.outbox t out hhand ?_)
  · simp only [outbox, setPc, hand_update, Socket.buffer]
    rfl
  · simpa [outbox, Socket.mustBuffer] using hbuffer

theorem simulates_direct {m m' : Machine} {t : Nat} {out : Outgoing}
    (hhand : (m.emitters t).hand = .undecided out) (hdirect : m.sock.mustBuffer = false)
    (h : m'.outbox = (m.setPc t (.sending out)).outbox) : Simulates m m' := by
  rw [Socket.mustBuffer, Bool.or_eq_false_iff, Bool.not_eq_false'] at hdirect
  refine Simulates.of_step (h.trans ?_)
    (Outbox.Step.goDirect m.outbox t out hhand hdirect.1 hdirect.2)
  simp only [outbox, setPc, hand_update]
  rfl

/-- The buffered packets with one id, or with the ids of a table, leave. -/
theorem simulates_purge {m₁ m' : Machine} (m : Machine) (drops : Outgoing → Bool)
    (cause : Removal) (sock : Socket) (hm : m₁.outbox = m.outbox)
    (hgate : sock.connected = m₁.sock.connected)
    (hflag : sock.flushingSendBuffer = m₁.sock.flushingSendBuffer)
    (hqueue : sock.sendBuffer = m₁.sock.sendBuffer.filter (fun b => !drops b))
    (h : m'.outbox = (m₁.removing sock drops cause).outbox) : Simulates m m' := by
  unfold Simulates
  rw [← hm]
  refine Simulates.of_step (h.trans ?_) (Outbox.Step.purge m₁.outbox drops)
  simp [outbox, removing, hgate, hflag, hqueue, Function.comp_def]

/-- Keeping all but the packets of one id. -/
theorem filter_ne_id (id : Int) (l : List Outgoing) :
    l.filter (fun b => decide (b.packet.id ≠ id))
      = l.filter (fun b => !decide (b.packet.id = id)) := by
  simp only [decide_not]

/-- A thread moves on with the same, or nothing, in hand. -/
theorem simulates_setPc {m : Machine} {t : Nat} {pc : EmitPc}
    (h : (m.emitters t).hand = pc.hand) : Simulates m (m.setPc t pc) := by
  refine Simulates.of_eq ?_
  simp only [outbox, setPc]
  rw [hand_update_same h]

/-- The place of a flusher among the drainers. -/
theorem drainers_split {m : Machine} {i : Nat} {task : Task} {held : Option Outgoing}
    (htask : m.tasks[i]? = some task) (hheld : task.drainer = some held) :
    ∃ l r, m.outbox.drainers = l ++ held :: r ∧
      (∀ b : Task, (m.tasks.set i b).filterMap Task.drainer = l ++ b.drainer.toList ++ r) ∧
      (m.tasks.eraseIdx i).filterMap Task.drainer = l ++ r := by
  obtain ⟨l, r, hall, hset, herase⟩ := pool_filterMap Task.drainer htask
  refine ⟨l, r, ?_, hset, herase⟩
  rw [outbox, hall, hheld]
  simp

theorem flushEnd_simulates {m : Machine} {i : Nat} (htask : m.tasks[i]? = some .flushing)
    (hstop : m.sock.connected = false ∨ m.sock.sendBuffer = []) :
    Simulates m { m.endTask i with sock := { m.sock with flushingSendBuffer := false } } := by
  obtain ⟨l, r, hin, -, herase⟩ := drainers_split htask rfl
  refine Simulates.of_step ?_ (Outbox.Step.drainEnd m.outbox l r hin hstop)
  simp only [outbox, endTask, herase]

theorem flushPop_simulates {m : Machine} {i : Nat} {out : Outgoing} {rest : List Outgoing}
    (htask : m.tasks[i]? = some .flushing) (hconnected : m.sock.connected = true)
    (hqueue : m.sock.sendBuffer = out :: rest) :
    Simulates m
      { m.setTask i (.flushSending out) with sock := { m.sock with sendBuffer := rest } } := by
  obtain ⟨l, r, hin, hset, -⟩ := drainers_split htask rfl
  refine Simulates.of_step ?_ (Outbox.Step.pop m.outbox l r out rest hin hconnected hqueue)
  simp only [outbox, setTask, hset]
  simp [Task.drainer]

/-- A packet is popped and given up in one section. -/
theorem flushExpire_simulates {m : Machine} {i : Nat} {out : Outgoing} {rest : List Outgoing}
    (htask : m.tasks[i]? = some .flushing) (hconnected : m.sock.connected = true)
    (hqueue : m.sock.sendBuffer = out :: rest) :
    Simulates m
      { m.setTask i (.flushExpiring out) with
        sock := { m.sock with sendBuffer := rest }
        removed := m.removed ++ [(out, .expiry)] } := by
  obtain ⟨l, r, hin, hset, -⟩ := drainers_split htask rfl
  have hdrop : Outbox.Step Outgoing.thread
      { m.outbox with queue := rest, drainers := l ++ some out :: r } _ :=
    Outbox.Step.drainDiscard _ l r out rfl
  refine Relation.ReflTransGen.tail (Relation.ReflTransGen.single
    (Outbox.Step.pop m.outbox l r out rest hin hconnected hqueue)) ?_
  convert hdrop using 1
  simp only [outbox, setTask, hset, List.map_append]
  simp [Task.drainer]

theorem flushSent_simulates {m : Machine} {i : Nat} {out : Outgoing}
    (htask : m.tasks[i]? = some (.flushSending out)) :
    Simulates m { m.setTask i .flushing with sent := m.sent ++ [.event out] } := by
  obtain ⟨l, r, hin, hset, -⟩ := drainers_split htask rfl
  refine Simulates.of_step ?_ (Outbox.Step.drainDeliver m.outbox l r out hin)
  simp only [outbox, setTask, hset]
  simp [Task.drainer, Sent.outgoing]

/-- `send_packet` has the packet, and throws. -/
theorem flushAbort_simulates {m : Machine} {i : Nat} {out : Outgoing}
    (htask : m.tasks[i]? = some (.flushSending out)) :
    Simulates m
      { m.endTask i with sent := m.sent ++ [.event out], aborts := m.aborts + 1 } := by
  obtain ⟨l, r, hin, -, herase⟩ := drainers_split htask rfl
  have habort : Outbox.Step Outgoing.thread
      { m.outbox with delivered := m.outbox.delivered ++ [out], drainers := l ++ none :: r } _ :=
    Outbox.Step.drainAbort _ l r rfl
  refine Relation.ReflTransGen.tail (Relation.ReflTransGen.single
    (Outbox.Step.drainDeliver m.outbox l r out hin)) ?_
  convert habort using 1
  simp only [outbox, endTask, herase, List.filterMap_append]
  rfl

theorem flushThrow_simulates {m : Machine} {i : Nat} {claim : Claim}
    (htask : m.tasks[i]? = some (.running .flusher claim)) :
    Simulates m { m.endTask i with sock := m.sock.finishTimedAck, aborts := m.aborts + 1 } := by
  obtain ⟨l, r, hin, -, herase⟩ := drainers_split htask rfl
  refine Simulates.of_step ?_ (Outbox.Step.drainAbort m.outbox l r hin)
  simp only [outbox, endTask, herase, Socket.finishTimedAck]

/-- **One step of the machine is a run of the outbox.** -/
theorem step_simulates {m m' : Machine} {a : Action} (hn : m.timedAcks.Registry)
    (h : m.step a = some m') : Simulates m m' := by
  cases step_cases h with
  | emit t event data hpc | registerAck t event data hpc =>
    exact simulates_issue hn t (.deciding _) _ (by rw [hpc]; rfl) rfl rfl rfl rfl
  | registerTimed t event data deadline hpc =>
    exact simulates_issue hn t (.holding _) _ (by rw [hpc]; rfl) rfl rfl rfl rfl
  | emitAck t event data hpc | emitTimed t event data timeout hpc
  | refuseTimed t event data deadline hpc => exact simulates_setPc (by rw [hpc]; rfl)
  | buffer t out hpc hbuffer | heldBuffer t out hpc hlive hbuffer =>
    exact simulates_buffer (by rw [hpc]; rfl) hbuffer rfl
  | direct t out hpc hdirect | heldDirect t out hpc hlive hdirect =>
    exact simulates_direct (by rw [hpc]; rfl) hdirect rfl
  | heldExpired t out hpc =>
    -- the deadline passed while the event was prepared
    have hhand : m.outbox.hand t = .undecided out := by simp only [outbox, hpc, EmitPc.hand]
    refine Simulates.of_step ?_ (Outbox.Step.discard m.outbox t out hhand)
    simp only [outbox, setPc, hand_update, List.map_append]
    rfl
  | send t out hpc =>
    have hhand : m.outbox.hand t = .direct out := by simp only [outbox, hpc, EmitPc.hand]
    refine Simulates.of_step ?_ (Outbox.Step.deliver m.outbox t out hhand)
    simp only [outbox, setPc, hand_update, List.filterMap_append]
    rfl
  | startFlush hdown hidle =>
    refine Simulates.of_step ?_ (Outbox.Step.reopen m.outbox hidle)
    simp [outbox, addTask, Task.drainer]
  | mark connected hwhy =>
    cases connected with
    | false => exact Simulates.of_step rfl (Outbox.Step.shut m.outbox)
    | true =>
      exact Simulates.of_step rfl (Outbox.Step.raise m.outbox (hwhy.resolve_left (by simp)))
  | connect | disconnectSend =>
    refine Simulates.of_eq ?_
    simp [outbox, Sent.outgoing]
  | disconnect => exact Simulates.of_step rfl (Outbox.Step.shut m.outbox)
  | flushEnd i throws htask hstop => exact flushEnd_simulates htask hstop
  | flushPop i throws out rest htask hconnected hqueue =>
    exact flushPop_simulates htask hconnected hqueue
  | flushExpire i throws out rest htask hconnected hqueue =>
    exact flushExpire_simulates htask hconnected hqueue
  | flushSent i out htask => exact flushSent_simulates htask
  | flushAbort i out htask => exact flushAbort_simulates htask
  | flushLost i throws out htask =>
    refine Simulates.of_eq ?_
    simp only [outbox, setTask, (pool_filterMap_same Task.drainer htask).1 .flushing rfl]
  | workerLost i throws id htask =>
    refine Simulates.of_eq ?_
    simp only [outbox, endTask, (pool_filterMap_same Task.drainer htask).2 rfl]
  | claim i throws caller id callback task htask hwho =>
    have hdrainer : ∀ c, (Task.claimed caller c).drainer = task.drainer := by
      rcases hwho with ⟨rfl, out, rfl, -⟩ | ⟨rfl, rfl⟩ <;> exact fun _ => rfl
    have hsame : ∀ c, (m.setTask i (.claimed caller c)).outbox = m.outbox := by
      intro c
      simp only [outbox, setTask, (pool_filterMap_same Task.drainer htask).1 _ (hdrainer c)]
    exact simulates_purge m (fun b => b.packet.id = id) .expiry (Socket.dropBuffered _ id)
      (hsame _) rfl rfl (filter_ne_id id _) rfl
  | invoke i throws caller claim htask =>
    refine Simulates.of_eq ?_
    simp only [outbox, setTask,
      (pool_filterMap_same Task.drainer htask).1 (.running caller claim) rfl]
  | flushResume i claim htask =>
    refine Simulates.of_eq ?_
    simp only [outbox, setTask, (pool_filterMap_same Task.drainer htask).1 .flushing rfl,
      Socket.finishTimedAck]
  | flushThrow i claim htask => exact flushThrow_simulates htask
  | callbackEnd i throws caller claim htask hcaller =>
    have hdrainer : (Task.running caller claim).drainer = none := by
      rcases hcaller with rfl | ⟨rfl, -⟩ <;> rfl
    refine Simulates.of_eq ?_
    simp only [outbox, endTask, (pool_filterMap_same Task.drainer htask).2 hdrainer,
      Socket.finishTimedAck]
  | ackTimed id data callback =>
    have hsame : ∀ c, (m.addTask (.claimed .dispatcher c)).outbox = m.outbox := by
      intro c
      simp [outbox, addTask, Task.drainer]
    exact simulates_purge m (fun b => b.packet.id = id) .acknowledgement
      (Socket.dropBuffered _ id) (hsame _) rfl rfl (filter_ne_id id _) rfl
  | workerPop =>
    refine Simulates.of_eq ?_
    simp [outbox, addTask, Task.drainer]
  | cancel =>
    refine simulates_purge m (fun b => b.packet.id ∈ m.sock.timedAcks) .cancellation
      m.sock.cancelTimedAcks rfl rfl rfl ?_ rfl
    simp only [Socket.cancelTimedAcks, decide_not]
  | _ => exact Simulates.of_eq rfl

theorem outbox_init (nsp : Bytes) : (init nsp).outbox = Outbox.start := rfl

/-- The send path is in a state an outbox can reach, and the timed
acknowledgements keep their laws. -/
def Sound (m : Machine) : Prop :=
  m.timedAcks.Law ∧ Outbox.Reachable Outgoing.thread m.outbox

theorem step_sound {m m' : Machine} {a : Action} (h : m.Sound) (hstep : m.step a = some m') :
    m'.Sound :=
  ⟨(step_timedAcks hstep).law h.1, h.2.trans (step_simulates h.1.registry hstep)⟩

theorem sound_init (nsp : Bytes) : (init nsp).Sound := by
  refine ⟨timedAcks_law_init nsp, ?_⟩
  rw [outbox_init]
  exact Relation.ReflTransGen.refl

end Machine

end Sioxx
