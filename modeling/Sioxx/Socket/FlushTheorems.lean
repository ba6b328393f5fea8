/-
Sioxx.Socket.FlushTheorems — a flush that ends by an exception.

`flush_send_buffer` clears `flushing_send_buffer_` only where its loop
ends normally. When `send_packet` or a timed callback throws out of it,
the flag stays up with nobody inside: from then on every emission is
buffered and no connect starts a flush again.

`notWedged_iff` says that this is the only way: after any run, with no
thread inside the flush, the buffer works exactly if no flush of that run
was ended by an exception. The proof counts: `aborts` goes up at those
steps only, and the flag law of the outbox equates it with the flag.
-/
import Sioxx.Json.ReferenceText
import Sioxx.Socket.SendBufferTheorems

namespace Sioxx

open Lib

namespace Machine

/-- The step ends a flush by an exception: `send_packet` throws, or the
callback of an expired emission does. -/
def EndsFlush (m : Machine) (a : Action) : Prop :=
  ∃ i, a = .task i true ∧ ((∃ out, m.tasks[i]? = some (.flushSending out)) ∨
    ∃ claim, m.tasks[i]? = some (.running .flusher claim))

/-- The buffer is in working order. -/
structure NotWedged (m : Machine) : Prop where
  flag : m.sock.flushingSendBuffer = false
  /-- A plain emission on a connected socket is sent, past the buffer. -/
  emits : m.sock.connected = true → m.mutex = none →
    ∀ t event data, m.emitters t = .idle →
      ∃ m', run step m [.emit t event data, .decide t, .send t] = some m' ∧
        m'.handed = m.handed ++ [m.outgoing t event data (-1) false]
  /-- Disconnecting and connecting starts a flush. -/
  flushes : m.mutex = none →
    ∃ m', run step m [.markConnected false, .markConnected true] = some m' ∧
      m'.tasks = m.tasks ++ [.flushing]

theorem notWedged_of_flag {m : Machine} (h : m.sock.flushingSendBuffer = false) :
    m.NotWedged where
  flag := h
  emits := by
    intro hconnected hfree t event data hidle
    simp only [run, step, hidle, decideStep, setPc, Function.update_self, locked, hfree, if_true,
      bufferOrSend, Socket.mustBuffer, hconnected, h]
    simp [handed, Sent.outgoing]
  flushes := by
    intro hfree
    simp only [run, step, Socket.markConnected, locked, hfree, h]
    simp [addTask]

theorem not_endsFlush {m : Machine} {i : Nat} {throws : Bool} {task : Task}
    (htask : m.tasks[i]? = some task) (hsend : ∀ out, task ≠ .flushSending out)
    (hrun : ∀ claim, task ≠ .running .flusher claim) : ¬ m.EndsFlush (.task i throws) := by
  rintro ⟨j, hj, hkind⟩
  cases hj
  rw [htask] at hkind
  rcases hkind with ⟨out, hout⟩ | ⟨claim, hclaim⟩
  · exact hsend out (Option.some.inj hout)
  · exact hrun claim (Option.some.inj hclaim)

/-- Where `aborts` moves, and what the step leaves in the buffer. -/
theorem step_aborts {m m' : Machine} {a : Action} (h : m.step a = some m') :
    (m.EndsFlush a ∧ m'.aborts = m.aborts + 1 ∧ m'.sock.sendBuffer = m.sock.sendBuffer) ∨
      (¬ m.EndsFlush a ∧ m'.aborts = m.aborts) := by
  cases step_cases h with
  | flushAbort i out htask => exact .inl ⟨⟨i, rfl, .inl ⟨out, htask⟩⟩, rfl, rfl⟩
  | flushThrow i claim htask => exact .inl ⟨⟨i, rfl, .inr ⟨claim, htask⟩⟩, rfl, rfl⟩
  | flushEnd i throws htask | flushPop i throws out rest htask
  | flushExpire i throws out rest htask | flushLost i throws out htask
  | workerLost i throws id htask | invoke i throws caller claim htask =>
    exact .inr ⟨not_endsFlush htask (by simp) (by simp), rfl⟩
  | claim i throws caller id callback task htask hwho =>
    refine .inr ⟨not_endsFlush htask ?_ ?_, rfl⟩ <;>
      rcases hwho with ⟨-, out, rfl, -⟩ | ⟨-, rfl⟩ <;> simp
  | callbackEnd i throws caller claim htask hcaller =>
    refine .inr ⟨not_endsFlush htask (by simp) ?_, rfl⟩
    rcases hcaller with rfl | ⟨rfl, -⟩ <;> simp
  | _ => exact .inr ⟨by simp [EndsFlush], rfl⟩

/-- A flush ended by an exception leaves the packets it has not popped. -/
def KeepsBuffer (m : Machine) (a : Action) : Prop :=
  m.EndsFlush a → ∀ m', m.step a = some m' → m'.sock.sendBuffer = m.sock.sendBuffer

theorem keepsBuffer (m : Machine) (a : Action) : m.KeepsBuffer a := by
  intro hends m' hstep
  rcases step_aborts hstep with ⟨-, -, hbuffer⟩ | ⟨hnot, -⟩
  · exact hbuffer
  · exact absurd hends hnot

/-- **When a flush leaves the buffer working.** After a run with no thread
inside `flush_send_buffer`, the buffer works and no exception took packets
from it, exactly if no flush of the run was ended by an exception. -/
theorem notWedged_iff {nsp : Bytes} {as : List Action} {m : Machine}
    (h : run step (init nsp) as = some m) (hnobody : m.tasks.countP Task.isFlusher = 0) :
    (m.NotWedged ∧ Meets step KeepsBuffer (init nsp) as) ↔
      Meets step (fun m a => ¬ m.EndsFlush a) (init nsp) as := by
  have hkeeps : Meets step KeepsBuffer (init nsp) as :=
    meets_of_forall keepsBuffer as (init nsp)
  have hcount : Meets step (fun m a => ¬ m.EndsFlush a) (init nsp) as ↔
      m.aborts = (init nsp).aborts := by
    refine meets_iff_count (fun _ => True) aborts (fun _ _ _ _ _ => trivial) ?_ ?_
      as (init nsp) m trivial h
    · intro s a s' _ hstep hnot
      rcases step_aborts hstep with ⟨hends, -⟩ | ⟨-, haborts⟩
      · exact absurd hends hnot
      · exact haborts
    · intro s a s' _ hstep hends
      rcases step_aborts hstep with ⟨-, haborts, -⟩ | ⟨hnot, -⟩
      · omega
      · exact absurd hnot hends
  -- with nobody inside, the flag is the number of aborted flushes
  have hflag : m.aborts = m.sock.flushingSendBuffer.toNat := by
    have hlaw := (sound_own h).1.2.laws.1.flag
    rw [drainers_length, hnobody, Nat.zero_add] at hlaw
    exact hlaw
  rw [hcount, hflag]
  constructor
  · rintro ⟨hwork, -⟩
    rw [hwork.flag]
    rfl
  · intro hzero
    refine ⟨notWedged_of_flag ?_, hkeeps⟩
    cases hf : m.sock.flushingSendBuffer with
    | false => rfl
    | true =>
      rw [hf] at hzero
      cases hzero

/-- One event is buffered before the connect and sent by its flush. -/
def cleanFlush : List Action :=
  [.emit 0 (ascii "a") .null, .decide 0, .markConnected true,
   .task 0 false, .task 0 false, .task 0 false]

theorem notWedged_iff_cleanFlush : ∃ m, run step (init (ascii "/")) cleanFlush = some m ∧
    m.tasks.countP Task.isFlusher = 0 ∧
    ((m.NotWedged ∧ Meets step KeepsBuffer (init (ascii "/")) cleanFlush) ↔
      Meets step (fun m a => ¬ m.EndsFlush a) (init (ascii "/")) cleanFlush) :=
  ⟨_, rfl, rfl, @notWedged_iff (ascii "/") cleanFlush _ rfl rfl⟩

/-- An event whose text is not UTF-8 is buffered; sending it throws. -/
def failingFlush : List Action :=
  [.emit 0 (ascii "a") (.str [0xFF]), .decide 0, .markConnected true, .task 0 false, .task 0 true]

/-- The packet of that event cannot be encoded, and after the exception
the socket is connected with the flag up and nobody inside. -/
theorem failingFlush_wedges :
    JsonParser.encode ReferenceText.referenceText
        (Socket.eventPacket (ascii "/") (ascii "a") (.str [0xFF]) (-1))
      = .error (.json .typeError316) ∧
    ∃ m, run step (init (ascii "/")) failingFlush = some m ∧
      m.tasks.countP Task.isFlusher = 0 ∧ m.sock.connected = true ∧ ¬ m.NotWedged := by
  refine ⟨rfl, _, rfl, rfl, rfl, fun hwork => ?_⟩
  have hflag := hwork.flag
  revert hflag
  decide

end Machine

end Sioxx
