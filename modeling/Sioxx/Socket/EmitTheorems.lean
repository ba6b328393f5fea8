/-
Sioxx.Socket.EmitTheorems — what a call of `emit` that throws leaves
behind.

The overloads with an acknowledgement register the callback first and
hand the packet over afterwards. `register_timed_ack` takes its entry back
when the scheduler throws, but nothing takes it back when the hand-over
does, nor the entry of `pending_acks_` when the packet cannot be built
(`Stranded`). These are all the cases: `emit_noTrace_iff`.

What a call does to the tables shows at the id it is given, which is in no
table before (`Fresh`, `fresh_of_run`).
-/
import Sioxx.Socket.Emit
import Sioxx.Socket.SchedulerTheorems
import Sioxx.Json.ReferenceText

namespace Sioxx

open Lib

/-! ## The client -/

namespace ClientSide

variable {c : ClientSide}

/-- `send_packet` throws on the packet: it cannot be encoded, or the
transport is reached and throws on one of its frames. -/
def Rejects (c : ClientSide) (packet : Packet) : Prop :=
  c.alive = true ∧ ∃ engineio, c.engineio = some engineio ∧
    ((∃ error, c.encode packet = .error error) ∨
      ∃ frames, c.encode packet = .ok frames ∧ engineio.sends = true ∧
        ∃ frame ∈ frames, c.transportThrows frame = true)

theorem writeFrames_error_iff {engineio : EngineIOClient} {frames : List Frame} :
    (∃ error, c.writeFrames engineio frames = .error error) ↔
      engineio.sends = true ∧ ∃ frame ∈ frames, c.transportThrows frame = true := by
  induction frames with
  | nil => simp [writeFrames]
  | cons frame rest ih =>
    have hsent : (engineio.send frame.payload frame.isBinary).isEmpty = !engineio.sends := by
      rw [EngineIOClient.send_eq]
      cases engineio.sends <;> rfl
    rw [writeFrames, hsent, Bool.not_not]
    split
    · rename_i hthrows
      rw [Bool.and_eq_true] at hthrows
      exact ⟨fun _ => ⟨hthrows.2, frame, List.mem_cons_self, hthrows.1⟩, fun _ => ⟨_, rfl⟩⟩
    · rename_i hthrows
      rw [ih]
      refine and_congr_right fun hsends => ?_
      rw [hsends, Bool.and_true] at hthrows
      simp [hthrows]

theorem handOver_error_iff {packet : Packet} :
    (∃ error, c.handOver packet = .error error) ↔ c.Rejects packet := by
  unfold handOver Rejects sendPacket
  cases c.alive with
  | false => simp
  | true =>
    cases c.engineio with
    | none => simp
    | some engineio =>
      cases c.encode packet with
      | error error => simp
      | ok frames => simp [writeFrames_error_iff]

end ClientSide

/-! ## The tables -/

namespace Socket

/-- The id that is given out next is in no table. -/
structure Fresh (s : Socket) : Prop where
  pendingAcks : s.nextAckId ∉ s.pendingAcks
  timedAcks : s.nextAckId ∉ s.timedAcks
  deadlines : s.nextAckId ∉ s.ackScheduler.deadlines

/-- The acknowledgements, the deadlines and the buffer are the same. -/
structure NoTrace (before after : Socket) : Prop where
  pendingAcks : ∀ id, after.pendingAcks.lookup id = before.pendingAcks.lookup id
  timedAcks : ∀ id, after.timedAcks.lookup id = before.timedAcks.lookup id
  deadlines : ∀ id, after.ackScheduler.deadlines.lookup id = before.ackScheduler.deadlines.lookup id
  ordered : after.ackScheduler.ordered = before.ackScheduler.ordered
  sendBuffer : after.sendBuffer = before.sendBuffer

theorem NoTrace.refl (s : Socket) : NoTrace s s :=
  ⟨fun _ => rfl, fun _ => rfl, fun _ => rfl, rfl, rfl⟩

/-- Taking a new entry back leaves the table as it was. -/
theorem lookup_erase_emplace {ν : Type} {m : AList (fun _ : Int => ν)} {key : Int} (value : ν)
    (hnew : key ∉ m) (id : Int) : ((emplace m key value).erase key).lookup id = m.lookup id := by
  by_cases hid : id = key
  · subst hid
    rw [AList.lookup_erase, AList.lookup_eq_none.mpr hnew]
  · rw [AList.lookup_erase_ne hid, emplace, if_neg hnew, AList.lookup_insert_ne hid]

/-- The hand-over of a registered packet fails. -/
def HandOverFails (c : ClientSide) (f : EmitFaults) (s : Socket) (packet : Packet) : Prop :=
  if s.mustBuffer then f.buffer = true else c.Rejects packet

variable {c : ClientSide} {f : EmitFaults} {s : Socket} {e : Emission}

theorem sendOrBuffer_error_iff {out : Outgoing} :
    (∃ error, (s.sendOrBuffer c f out).1 = .error error) ↔ HandOverFails c f s out.packet := by
  unfold sendOrBuffer HandOverFails
  split
  · cases f.buffer <;> simp
  · exact ClientSide.handOver_error_iff

/-- A hand-over that fails leaves the socket alone. -/
theorem sendOrBuffer_of_error {out : Outgoing} {error : EmitError}
    (h : (s.sendOrBuffer c f out).1 = .error error) : (s.sendOrBuffer c f out).2 = s := by
  unfold sendOrBuffer at h ⊢
  split
  · rename_i hbuffer
    rw [if_pos hbuffer] at h
    split
    · rfl
    · rename_i hfault
      rw [if_neg hfault] at h
      cases h
  · rfl

/-- The callback of the call is registered, and then the call throws. -/
def Stranded (c : ClientSide) (f : EmitFaults) (s : Socket) (e : Emission) : Overload → Prop
  | .plain => False
  | .ack =>
    f.ackEntry = false ∧
      (f.packet = true ∨
        HandOverFails c f s (emitAckPacket s.nsp e.event e.data s.nextAckId))
  | .timed timeout callback now checked =>
    (0 < timeout ∧ callback = true) ∧ s.timedAcksClosed = false ∧
      (f.packet = false ∧ f.scheduler = false ∧ f.ackEntry = false ∧ f.deadline = false ∧
        f.ordered = false) ∧
      checked < ackDeadline now timeout.toNat ∧
      HandOverFails c f s (emitTimedPacket s.nsp e.event e.data s.nextAckId)

/-- A call that throws leaves no trace. -/
def Clean (s : Socket) (ended : Ended Unit) : Prop :=
  ∀ error, ended.1 = .error error → NoTrace s ended.2

theorem emit_clean : Clean s (s.emit c f e) := by
  intro error h
  unfold emit at h ⊢
  split
  · exact .refl s
  · rename_i hpacket
    rw [if_neg hpacket] at h
    rw [sendOrBuffer_of_error h]
    exact .refl s

/-- After a registration, only a hand-over that does not fail is clean. -/
theorem sendOrBuffer_clean_iff {s' : Socket} {out : Outgoing} (htrace : ¬ NoTrace s s') :
    Clean s (s'.sendOrBuffer c f out) ↔ ¬ HandOverFails c f s' out.packet := by
  rw [← sendOrBuffer_error_iff]
  constructor
  · rintro hclean ⟨error, h⟩
    have := hclean error h
    rw [sendOrBuffer_of_error h] at this
    exact htrace this
  · intro hnever error h
    exact absurd ⟨error, h⟩ hnever

theorem registerAck_trace (hfresh : s.Fresh) (callback : Nat) :
    ¬ NoTrace s (s.registerAck callback).2 := by
  intro h
  have hsame := h.pendingAcks s.nextAckId
  rw [AList.lookup_eq_none.mpr hfresh.pendingAcks] at hsame
  simp [registerAck, AList.lookup_insert] at hsame

theorem emitAck_clean_iff (hfresh : s.Fresh) :
    Clean s (s.emitAck c f e) ↔ ¬ Stranded c f s e .ack := by
  have htrace := registerAck_trace hfresh e.number
  have hsend : Clean s ((s.registerAck e.number).2.sendOrBuffer c f
      (e.outgoing (emitAckPacket s.nsp e.event e.data s.nextAckId) false)) ↔ _ :=
    sendOrBuffer_clean_iff htrace
  unfold emitAck Stranded
  cases f.ackEntry with
  | true =>
    simp only [if_true, Bool.true_eq_false, false_and, not_false_eq_true, iff_true]
    exact fun _ _ => ⟨fun _ => rfl, fun _ => rfl, fun _ => rfl, rfl, rfl⟩
  | false =>
    cases hpacket : f.packet with
    | true =>
      simp only [Bool.false_eq_true, if_false, if_true, true_or, and_self, not_true_eq_false,
        iff_false]
      exact fun hclean => htrace (hclean _ rfl)
    | false =>
      simp only [Bool.false_eq_true, if_false, true_and, false_or]
      exact hsend

/-- `register_timed_ack` throws before it changes a table, or puts back
what it changed. -/
theorem registerTimed_of_error (hfresh : s.Fresh) {deadline : Time} {callback : Nat}
    {error : EmitError} {s' : Socket}
    (h : s.registerTimed f deadline callback = (.error error, s')) : NoTrace s s' := by
  unfold registerTimed at h
  split at h
  · cases h
    exact .refl s
  · rename_i id t hreg
    obtain ⟨-, rfl, rfl⟩ := registerTimedAck_some hreg
    split at h
    · cases h
      exact .refl s
    · split at h
      · cases h
        exact ⟨fun _ => rfl, fun _ => rfl, fun _ => rfl, rfl, rfl⟩
      · split at h
        · cases h
          refine ⟨fun _ => rfl, ?_, ?_, ?_, rfl⟩
          · exact lookup_erase_emplace callback hfresh.timedAcks
          · intro id
            show (s.ackScheduler.addThrows f s.nextAckId deadline).deadlines.lookup id = _
            unfold AckScheduler.addThrows
            split
            · rfl
            · exact lookup_erase_emplace deadline hfresh.deadlines id
          · show (s.ackScheduler.addThrows f s.nextAckId deadline).ordered = _
            unfold AckScheduler.addThrows
            split <;> rfl
        · cases h

theorem registerTimed_ok_iff {deadline : Time} {callback : Nat} {id : Int} {s' : Socket} :
    s.registerTimed f deadline callback = (.ok id, s') ↔
      s.registerTimedAck deadline callback = some (id, s') ∧ f.scheduler = false ∧
        f.ackEntry = false ∧ f.deadline = false ∧ f.ordered = false := by
  unfold registerTimed
  cases hreg : s.registerTimedAck deadline callback with
  | none => simp
  | some registered =>
    cases f.scheduler <;> cases f.ackEntry <;> cases f.deadline <;> cases f.ordered <;>
      simp [Prod.ext_iff]

theorem registerTimedAck_open (h : s.timedAcksClosed = false) {deadline : Time}
    {callback : Nat} :
    s.registerTimedAck deadline callback = some (s.nextAckId,
      { s with nextAckId := s.nextAckId + 1,
               timedAcks := emplace s.timedAcks s.nextAckId callback,
               ackScheduler := s.ackScheduler.add s.nextAckId deadline }) := by
  simp [registerTimedAck, h]

theorem registerTimedAck_trace (hfresh : s.Fresh) {deadline : Time} {callback : Nat} {id : Int}
    {s' : Socket} (h : s.registerTimedAck deadline callback = some (id, s')) : ¬ NoTrace s s' := by
  obtain ⟨-, rfl, rfl⟩ := registerTimedAck_some h
  intro hsame
  have hsame := hsame.timedAcks s.nextAckId
  rw [AList.lookup_eq_none.mpr hfresh.timedAcks] at hsame
  simp [emplace, hfresh.timedAcks, AList.lookup_insert] at hsame

/-- A deadline that was just added is the one the scheduler goes by. -/
theorem expired_add {scheduler : AckScheduler} {id : Int} (hnew : id ∉ scheduler.deadlines)
    (deadline now : Time) :
    (scheduler.add id deadline).expired id now = decide (deadline ≤ now) := by
  simp [AckScheduler.expired, AckScheduler.add, emplace, hnew, AList.lookup_insert]

theorem emitTimed_clean_iff (hfresh : s.Fresh) {timeout : Int} {callback : Bool}
    {now checked : Time} :
    Clean s (s.emitTimed c f e timeout callback now checked) ↔
      ¬ Stranded c f s e (.timed timeout callback now checked) := by
  unfold emitTimed Stranded
  split
  · rename_i hargs
    simp only [Bool.or_eq_true, decide_eq_true_eq, Bool.not_eq_true'] at hargs
    refine ⟨fun _ hstranded => ?_, fun _ _ _ => .refl s⟩
    obtain ⟨⟨hpos, hcallback⟩, -⟩ := hstranded
    rcases hargs with hle | hnone
    · omega
    · rw [hcallback] at hnone
      cases hnone
  · rename_i hargs
    simp only [Bool.or_eq_true, decide_eq_true_eq, Bool.not_eq_true', not_or, Int.not_le,
      Bool.not_eq_false] at hargs
    split
    · rename_i hpacket
      refine ⟨fun _ hstranded => ?_, fun _ _ _ => .refl s⟩
      obtain ⟨-, -, ⟨hnone, -⟩, -⟩ := hstranded
      rw [hpacket] at hnone
      cases hnone
    · rename_i hpacket
      rw [Bool.not_eq_true] at hpacket
      split
      · rename_i error s' hreg
        refine ⟨fun _ hstranded => ?_, fun _ _ _ => registerTimed_of_error hfresh hreg⟩
        obtain ⟨-, hclosed, ⟨-, hfaults⟩, -⟩ := hstranded
        have hok : s.registerTimed f (ackDeadline now timeout.toNat) e.number = _ :=
          registerTimed_ok_iff.mpr ⟨registerTimedAck_open hclosed, hfaults⟩
        rw [hreg] at hok
        cases hok
      · rename_i id s' hreg
        obtain ⟨hreg, hfaults⟩ := registerTimed_ok_iff.mp hreg
        have htrace := registerTimedAck_trace hfresh hreg
        obtain ⟨hclosed, rfl, rfl⟩ := registerTimedAck_some hreg
        rw [expired_add hfresh.deadlines]
        split
        · rename_i hexpired
          rw [decide_eq_true_eq] at hexpired
          refine ⟨fun _ hstranded => ?_, fun _ error h => by cases h⟩
          obtain ⟨-, -, -, hlt, -⟩ := hstranded
          exact absurd hlt (Nat.not_lt.mpr hexpired)
        · rename_i hexpired
          rw [decide_eq_true_eq, Nat.not_le] at hexpired
          rw [sendOrBuffer_clean_iff htrace]
          refine not_congr
            ⟨fun hfails => ⟨hargs, hclosed, ⟨hpacket, hfaults⟩, hexpired, hfails⟩, ?_⟩
          rintro ⟨-, -, -, -, hfails⟩
          exact hfails

theorem emitWith_clean_iff (hfresh : s.Fresh) (overload : Overload) :
    Clean s (s.emitWith c f e overload) ↔ ¬ Stranded c f s e overload := by
  cases overload with
  | plain => exact iff_of_true emit_clean id
  | ack => exact emitAck_clean_iff hfresh
  | timed timeout callback now checked => exact emitTimed_clean_iff hfresh

end Socket

/-- Somebody can still call the callback. -/
def Socket.Keeps (s : Socket) (callback : Nat) : Prop :=
  (∃ id, s.pendingAcks.lookup id = some callback) ∨ ∃ id, s.timedAcks.lookup id = some callback

/-- If the call throws, the tables and the buffer are as before, and the
callback it was given is in none of them. -/
def Socket.LeavesNoTrace (s : Socket) (e : Emission) (ended : Ended Unit) : Prop :=
  ∀ error, ended.1 = .error error →
    NoTrace s ended.2 ∧ (¬ s.Keeps e.number → ¬ ended.2.Keeps e.number)

theorem Socket.leavesNoTrace_iff_clean {s : Socket} {e : Emission} {ended : Ended Unit} :
    s.LeavesNoTrace e ended ↔ Clean s ended := by
  refine forall₂_congr fun error _ => ⟨And.left, fun h => ⟨h, fun hbefore hafter => hbefore ?_⟩⟩
  rcases hafter with ⟨id, hid⟩ | ⟨id, hid⟩
  · exact .inl ⟨id, h.pendingAcks id ▸ hid⟩
  · exact .inr ⟨id, h.timedAcks id ▸ hid⟩

/-! ## Reachable sockets -/

/-- What the threads of a machine can do to the socket at a time. -/
inductive Socket.Section (s : Socket) : Socket → Prop
  | none : Section s s
  | registerAck (callback : Nat) : Section s (s.registerAck callback).2
  | registerTimedAck {deadline : Time} {callback : Nat} {id : Int} {s' : Socket}
      (h : s.registerTimedAck deadline callback = some (id, s')) : Section s s'
  | buffer (out : Outgoing) : Section s (s.buffer out)
  | markConnected (connected : Bool) : Section s (s.markConnected connected).2
  | markDisconnected : Section s s.markDisconnected
  | flushTurn (now : Time) : Section s (s.flushTurn now).2
  | expireAck (id : Int) : Section s (s.expireAck id).2
  | dispatchAck (id : Int) (now : Time) : Section s (s.dispatchAck id now).2
  | finishTimedAck : Section s s.finishTimedAck
  | schedule (ackScheduler : AckScheduler) : Section s { s with ackScheduler }
  | cancelTimedAcks : Section s s.cancelTimedAcks
  | resumeTimedAcks : Section s s.resumeTimedAcks

/-- The ids of the pending acknowledgements have been given out. -/
def Socket.PendingIds (s : Socket) : Prop := ∀ id ∈ s.pendingAcks, id < s.nextAckId

theorem Socket.Section.pendingIds {s s' : Socket} (h : s.Section s') (hs : s.PendingIds) :
    s'.PendingIds := by
  cases h with
  | registerAck callback =>
    intro id hid
    have hid : id ∈ s.pendingAcks.insert s.nextAckId callback := hid
    show id < s.nextAckId + 1
    rcases (AList.mem_insert s.pendingAcks).mp hid with rfl | hid
    · omega
    · have := hs id hid
      omega
  | registerTimedAck h =>
    obtain ⟨-, -, rfl⟩ := registerTimedAck_some h
    intro id hid
    have := hs id hid
    show id < s.nextAckId + 1
    omega
  | dispatchAck id now =>
    unfold Socket.dispatchAck
    split
    · exact hs
    · split
      · exact fun k hk => hs k (AList.mem_erase.mp hk).2
      · exact hs
  | expireAck id =>
    unfold Socket.expireAck
    split <;> exact hs
  | flushTurn now =>
    unfold Socket.flushTurn
    split <;> exact hs
  | markConnected connected =>
    unfold Socket.markConnected
    split <;> exact hs
  | none | buffer | markDisconnected | finishTimedAck | schedule | cancelTimedAcks
  | resumeTimedAcks => exact hs

namespace Machine

variable {m m' : Machine}

theorem expireStep_section {lost : Machine} {i : Nat} {caller : Caller} {id : Int}
    (h : m.expireStep i caller id lost = some m') (hlost : lost.sock = m.sock) :
    m.sock.Section m'.sock := by
  unfold expireStep at h
  split at h
  · obtain ⟨-, rfl⟩ := locked_eq_some h
    rw [hlost]
    exact .none
  · rename_i callback sock hsock
    obtain ⟨-, rfl⟩ := locked_eq_some h
    have := Socket.Section.expireAck (s := m.sock) id
    rw [hsock] at this
    exact this

theorem taskStep_section {i : Nat} {throws : Bool} (h : m.taskStep i throws = some m') :
    m.sock.Section m'.sock := by
  unfold taskStep at h
  split at h
  · cases h
  · have hturn := Socket.Section.flushTurn (s := m.sock) m.now
    split at h <;> rename_i sock heq <;> rw [heq] at hturn <;>
      obtain ⟨-, rfl⟩ := locked_eq_some h <;> exact hturn
  · split at h <;> cases h <;> exact .none
  · exact expireStep_section h rfl
  · exact expireStep_section h rfl
  · cases h
    exact .none
  · split at h
    · obtain ⟨-, rfl⟩ := locked_eq_some h
      exact .finishTimedAck
    · obtain ⟨-, rfl⟩ := locked_eq_some h
      exact .finishTimedAck
    · obtain ⟨-, rfl⟩ := locked_eq_some h
      exact .finishTimedAck
    · obtain ⟨-, rfl⟩ := locked_eq_some h
      exact .finishTimedAck
    · cases h

/-- A step of a machine is one section of the socket at most. -/
theorem step_section {a : Action} (h : m.step a = some m') : m.sock.Section m'.sock := by
  cases a with
  | emit t event data =>
    simp only [step] at h
    split at h
    · cases h
      exact .none
    · cases h
  | emitAck t event data =>
    simp only [step] at h
    split at h
    · cases h
      exact .none
    · cases h
  | emitTimed t event data timeout callback =>
    simp only [step] at h
    split at h
    · split at h <;> cases h <;> exact .none
    · cases h
  | register t =>
    simp only [step, registerStep] at h
    split at h
    · obtain ⟨-, rfl⟩ := locked_eq_some h
      exact .registerAck m.emitted.length
    · split at h
      · obtain ⟨-, rfl⟩ := locked_eq_some h
        exact .none
      · rename_i id sock hreg
        obtain ⟨-, rfl⟩ := locked_eq_some h
        exact .registerTimedAck hreg
    · cases h
  | decide t =>
    have hsend : ∀ out, m.sock.Section (m.bufferOrSend t out).sock := by
      intro out
      unfold bufferOrSend
      split
      · exact .buffer out
      · exact .none
    simp only [step, decideStep] at h
    split at h
    · obtain ⟨-, rfl⟩ := locked_eq_some h
      exact hsend _
    · split at h
      · cases h
        exact .none
      · cases h
        exact hsend _
    · cases h
  | send t =>
    simp only [step] at h
    split at h
    · cases h
      exact .none
    · cases h
  | markConnected connected =>
    have hmark := Socket.Section.markConnected (s := m.sock) connected
    simp only [step] at h
    split at h <;> rename_i sock heq <;> rw [heq] at hmark <;>
      obtain ⟨-, rfl⟩ := locked_eq_some h <;> exact hmark
  | connect | disconnectSend | tick =>
    cases h
    exact .none
  | disconnect =>
    simp only [step] at h
    split at h
    · cases h
    · obtain ⟨-, rfl⟩ := locked_eq_some h
      exact .markDisconnected
  | task i throws => exact taskStep_section h
  | dispatchAck id data =>
    have hack := Socket.Section.dispatchAck (s := m.sock) id m.now
    simp only [step, dispatchAckStep] at h
    split at h
    · rename_i callback expired sock heq
      rw [heq] at hack
      obtain ⟨-, rfl⟩ := locked_eq_some h
      exact hack
    · rename_i found sock hother heq
      rw [heq] at hack
      obtain ⟨-, rfl⟩ := locked_eq_some h
      exact hack
  | workerPop =>
    simp only [step, workerPopStep] at h
    split at h
    · cases h
    · split at h
      · cases h
      · cases h
        exact .schedule _
  | cancelTimedAcks =>
    obtain ⟨-, rfl⟩ := locked_eq_some h
    exact .cancelTimedAcks
  | resumeTimedAcks =>
    obtain ⟨-, rfl⟩ := locked_eq_some h
    exact .resumeTimedAcks

theorem fresh_of_run {nsp : Bytes} {as : List Action} (h : run step (init nsp) as = some m) :
    m.sock.Fresh := by
  have hall : m.timedAcks.Law ∧ m.sock.PendingIds :=
    run_preserves (fun m => m.timedAcks.Law ∧ m.sock.PendingIds)
      (fun m a m' hm hstep =>
        ⟨(step_timedAcks hstep).law hm.1, (step_section hstep).pendingIds hm.2⟩)
      ⟨timedAcks_law_init nsp, fun _ hid => absurd hid (AList.notMem_empty _)⟩ h
  obtain ⟨hlaw, hpending⟩ := hall
  refine ⟨fun hmem => ?_, fun hmem => ?_, TimedAcks.nextId_fresh hlaw⟩
  · exact absurd (hpending _ hmem) (Int.lt_irrefl _)
  · obtain ⟨callback, hcallback⟩ := Option.isSome_iff_exists.mp (AList.lookup_isSome.mpr hmem)
    obtain ⟨r, hr, hid, -⟩ := hlaw.scheduled.table _ callback hcallback
    exact absurd (hid ▸ (hlaw.registry.ids r hr).2) (Int.lt_irrefl _)

/-! ## The calls of a machine -/

/-- The hand-over of an emission that has its packet. A failed
`send_packet` does nothing to the socket that a successful one does not. -/
theorem bufferOrSend_sock (m : Machine) (c : ClientSide) (t : Nat) (out : Outgoing) :
    (m.bufferOrSend t out).sock = (m.sock.sendOrBuffer c {} out).2 := by
  unfold bufferOrSend Socket.sendOrBuffer
  split <;> rfl

theorem deciding_run (c : ClientSide) {t : Nat} {out : Outgoing}
    (hpc : m.emitters t = .deciding out) (hfree : m.mutex = none) :
    ∃ m', run step m [.decide t] = some m' ∧ m'.sock = (m.sock.sendOrBuffer c {} out).2 := by
  refine ⟨m.bufferOrSend t out, ?_, bufferOrSend_sock m c t out⟩
  simp [run, step, decideStep, hpc, locked, hfree]

/-- The section of the timed overload, from its registration on. -/
theorem holding_run (c : ClientSide) {t : Nat} {out : Outgoing} {checked : Time}
    (hpc : m.emitters t = .holding out) (hclock : m.now ≤ checked) :
    ∃ m', run step m [.tick (checked - m.now), .decide t] = some m' ∧
      m'.sock = (if m.sock.ackScheduler.expired out.packet.id checked then (.ok (), m.sock)
        else m.sock.sendOrBuffer c {} out).2 := by
  have hnow : m.now + (checked - m.now) = checked := Nat.add_sub_of_le hclock
  by_cases hexpired : m.sock.ackScheduler.expired out.packet.id checked = true
  · refine ⟨{ m.setPc t .idle with
      now := checked, mutex := none, removed := m.removed ++ [(out, .expiry)] }, ?_, ?_⟩
    · simp [run, step, decideStep, hpc, hnow, hexpired, setPc]
    · rw [if_pos hexpired]
      rfl
  · refine ⟨{ ({ m with now := checked } : Machine).bufferOrSend t out with mutex := none }, ?_, ?_⟩
    · simp [run, step, decideStep, hpc, hnow, hexpired]
    · rw [if_neg hexpired]
      exact bufferOrSend_sock { m with now := checked } c t out

variable {t : Nat} {event : Bytes} {data : Json}

theorem emit_run (c : ClientSide) (hidle : m.emitters t = .idle) (hfree : m.mutex = none) :
    ∃ as m', run step m as = some m' ∧
      m'.sock = (m.sock.emit c {} ⟨event, data, m.emitted.length, t⟩).2 := by
  let out := m.outgoing t event data (-1) false
  let m₁ : Machine := { m.setPc t (.deciding out) with emitted := m.emitted ++ [out] }
  have hemit : m.step (.emit t event data) = some m₁ := by simp [step, hidle, m₁, out]
  have hpc : m₁.emitters t = .deciding out := by simp [m₁, setPc]
  obtain ⟨m', hrun, hsock⟩ := deciding_run c hpc hfree
  refine ⟨_, m', run_cons_iff.mpr ⟨m₁, hemit, hrun⟩, ?_⟩
  rw [hsock, Socket.emit, (Socket.emitPackets_eq _ event data 0).1]
  rfl

theorem emitAck_run (c : ClientSide) (hidle : m.emitters t = .idle) (hfree : m.mutex = none) :
    ∃ as m', run step m as = some m' ∧
      m'.sock = (m.sock.emitAck c {} ⟨event, data, m.emitted.length, t⟩).2 := by
  let out := m.outgoing t event data m.sock.nextAckId false
  let m₁ := m.setPc t (.registering event data)
  let m₂ : Machine := { m₁.setPc t (.deciding out) with
    sock := (m.sock.registerAck m.emitted.length).2, emitted := m.emitted ++ [out] }
  have hemit : m.step (.emitAck t event data) = some m₁ := by simp [step, hidle, m₁]
  have hregister : m₁.step (.register t) = some m₂ := by
    simp [step, registerStep, m₁, m₂, out, setPc, locked, hfree, Socket.registerAck, outgoing]
  have hpc : m₂.emitters t = .deciding out := by simp [m₂, setPc]
  obtain ⟨m', hrun, hsock⟩ := deciding_run c hpc hfree
  refine ⟨_, m', run_cons_iff.mpr ⟨m₁, hemit, run_cons_iff.mpr ⟨m₂, hregister, hrun⟩⟩, ?_⟩
  rw [hsock, Socket.emitAck, Socket.registerAck]
  simp only [(Socket.emitPackets_eq _ event data _).2.1]
  rfl

theorem emitTimed_run (c : ClientSide) (hidle : m.emitters t = .idle) (hfree : m.mutex = none)
    {timeout : Int} {callback : Bool} {checked : Time} (hclock : m.now ≤ checked) :
    ∃ as m', run step m as = some m' ∧ m'.sock = (m.sock.emitTimed c {}
      ⟨event, data, m.emitted.length, t⟩ timeout callback m.now checked).2 := by
  by_cases hargs : (timeout ≤ 0 || !callback) = true
  · refine ⟨[.emitTimed t event data timeout callback], m, ?_, ?_⟩
    · exact run_cons_iff.mpr ⟨m, by simp only [step, hidle, hargs, if_true], rfl⟩
    · simp only [Socket.emitTimed, hargs, if_true]
  · let deadline := Socket.ackDeadline m.now timeout.toNat
    let m₁ := m.setPc t (.preparing event data deadline)
    have hemit : m.step (.emitTimed t event data timeout callback) = some m₁ := by
      simp only [step, hidle, hargs, m₁, deadline]
      rfl
    simp only [Socket.emitTimed, hargs]
    cases hreg : m.sock.registerTimedAck deadline m.emitted.length with
    | none =>
      let m₂ := m₁.setPc t .idle
      have hregister : m₁.step (.register t) = some m₂ := by
        simp [step, registerStep, m₁, m₂, setPc, locked, hfree, hreg]
      have hfail : m.sock.registerTimed {} deadline m.emitted.length
          = (.error .shutDown, m.sock) := by
        simp [Socket.registerTimed, hreg]
      refine ⟨_, m₂, run_cons_iff.mpr ⟨m₁, hemit, run_cons_iff.mpr ⟨m₂, hregister, run_nil m₂⟩⟩, ?_⟩
      rw [hfail]
      rfl
    | some registered =>
      obtain ⟨id, sock⟩ := registered
      obtain rfl : id = m.sock.nextAckId := (Socket.registerTimedAck_some hreg).2.1
      let out := m.outgoing t event data m.sock.nextAckId true
      let m₂ : Machine := { m₁.setPc t (.holding out) with
        sock := sock, mutex := some t, emitted := m.emitted ++ [out]
        registered := m.registered ++ [⟨m.sock.nextAckId, m.emitted.length, deadline⟩] }
      have hregister : m₁.step (.register t) = some m₂ := by
        simp [step, registerStep, m₁, m₂, setPc, locked, hfree, hreg, out, outgoing]
      have hpc : m₂.emitters t = .holding out := by simp [m₂, setPc]
      have hok : m.sock.registerTimed {} deadline m.emitted.length = (.ok m.sock.nextAckId, sock) :=
        Socket.registerTimed_ok_iff.mpr ⟨hreg, rfl, rfl, rfl, rfl⟩
      obtain ⟨m', hrun, hsock⟩ := holding_run c hpc hclock
      refine ⟨_, m', run_cons_iff.mpr ⟨m₁, hemit, run_cons_iff.mpr ⟨m₂, hregister, hrun⟩⟩, ?_⟩
      rw [hok, hsock]
      simp only [(Socket.emitPackets_eq _ event data _).2.2]
      rfl

/-- What a call does to the socket, the steps of a machine do. So the
socket is reachable also after a call that throws. -/
theorem emitWith_run (c : ClientSide) (hidle : m.emitters t = .idle) (hfree : m.mutex = none)
    (overload : Socket.Overload)
    (hclock : ∀ timeout callback now checked, overload = .timed timeout callback now checked →
      now = m.now ∧ now ≤ checked) :
    ∃ as m', run step m as = some m' ∧
      m'.sock = (m.sock.emitWith c {} ⟨event, data, m.emitted.length, t⟩ overload).2 := by
  cases overload with
  | plain => exact emit_run c hidle hfree
  | ack => exact emitAck_run c hidle hfree
  | timed timeout callback now checked =>
    obtain ⟨rfl, hle⟩ := hclock timeout callback now checked rfl
    exact emitTimed_run c hidle hfree hle

end Machine

/-! ## The theorem -/

/-- **What a failed call leaves.** Whatever the threads have done to a
socket so far, a call of any overload of `emit` that throws leaves the
acknowledgements, the deadlines and the buffer as they were exactly if it
has not registered its callback before. -/
theorem emit_noTrace_iff {nsp : Bytes} {as : List Action} {m : Machine}
    (h : run Machine.step (Machine.init nsp) as = some m) (c : ClientSide) (f : EmitFaults)
    (e : Emission) (overload : Socket.Overload) :
    m.sock.LeavesNoTrace e (m.sock.emitWith c f e overload) ↔
      ¬ Socket.Stranded c f m.sock e overload := by
  rw [Socket.leavesNoTrace_iff_clean]
  exact Socket.emitWith_clean_iff (Machine.fresh_of_run h) overload

/-- A client with an open connection. -/
def openClient : ClientSide where
  engineio := some { isOpen := true }
  encode := JsonParser.encode ReferenceText.referenceText
  transportThrows := fun _ => false

/-- A socket that is connected and has nothing to flush. -/
def connectedSocket : List Action := [.markConnected true, .task 0 false]

/-- An emission whose argument is the string with the byte `ff`. -/
def notUtf8 : Emission := ⟨ascii "greet", .str [0xff], 0, 0⟩

/-- A client that was shut down refuses a timed emission before anything
is registered. -/
theorem emit_noTrace_iff_shutDown :
    ∃ m, run Machine.step (Machine.init (ascii "/")) (connectedSocket ++ [.cancelTimedAcks])
        = some m ∧
      (m.sock.emitWith openClient {} notUtf8 (.timed 1 true 0 0)).1 = .error .shutDown ∧
      (m.sock.LeavesNoTrace notUtf8 (m.sock.emitWith openClient {} notUtf8 (.timed 1 true 0 0)) ↔
        ¬ Socket.Stranded openClient {} m.sock notUtf8 (.timed 1 true 0 0)) := by
  have hrun : run Machine.step (Machine.init (ascii "/")) (connectedSocket ++ [.cancelTimedAcks])
      = some _ := rfl
  exact ⟨_, hrun, rfl, emit_noTrace_iff hrun openClient {} notUtf8 (.timed 1 true 0 0)⟩

/-- `dump()` throws on the argument, and an acknowledgement with the id of
that call finds its callback. -/
theorem notUtf8_keepsCallback :
    ∃ m, run Machine.step (Machine.init (ascii "/")) connectedSocket = some m ∧
      (m.sock.emitWith openClient {} notUtf8 .ack).1 = .error (.encode (.json .typeError316)) ∧
      ((m.sock.emitWith openClient {} notUtf8 .ack).2.dispatchAck 0 0).1 = .plain 0 ∧
      ¬ m.sock.LeavesNoTrace notUtf8 (m.sock.emitWith openClient {} notUtf8 .ack) := by
  refine ⟨_, rfl, rfl, rfl, fun h => ?_⟩
  have hsame := (h _ rfl).1.pendingAcks 0
  cases hsame

end Sioxx
