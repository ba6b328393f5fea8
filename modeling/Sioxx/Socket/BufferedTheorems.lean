/-
Sioxx.Socket.BufferedTheorems — a completed timed event is not sent later.

The send buffer and the table of timed callbacks are two containers that
five operations change together. `Buffered` has both, and the history of
removed events; `Buffered.Step` lists what an operation may do to them,
and `step_buffered` that every step of the machine is one of these.

A timed packet is put into the buffer while its callback is in the table,
and whoever takes the callback takes the packet, so a timed packet of the
buffer always has its callback in the table (`Buffered.Live`). The rest
follows: the flush meets no timed packet whose callback is gone, and the
packets that leave with their callbacks are in the history, which
`Lib.Outbox` keeps apart from what is handed over.
-/
import Sioxx.Socket.SendBufferTheorems

namespace Sioxx

open Lib

structure Buffered where
  queue : List Outgoing
  table : AList (fun _ : Int => Nat)
  removed : List Outgoing

namespace Buffered

inductive Step : Buffered → Buffered → Prop
  | quiet (v : Buffered) (removed : List Outgoing) (hgrow : v.removed ⊆ removed) :
      Step v { v with removed }
  | register (v : Buffered) (id : Int) (callback : Nat) :
      Step v { v with table := emplace v.table id callback }
  | push (v : Buffered) (out : Outgoing)
      (hlive : out.timed = true → out.packet.id ∈ v.table) :
      Step v { v with queue := v.queue ++ [out] }
  | pop (v : Buffered) (out : Outgoing) (rest removed : List Outgoing)
      (hqueue : v.queue = out :: rest) (hgrow : v.removed ⊆ removed) :
      Step v { v with queue := rest, removed }
  /-- Callbacks leave the table and their packets the buffer. -/
  | drop (v : Buffered) (drops : Int → Bool) (table : AList (fun _ : Int => Nat))
      (removed : List Outgoing) (htable : ∀ id, id ∈ table ↔ id ∈ v.table ∧ drops id = false)
      (hremoved : removed = v.removed ++ v.queue.filter (fun b => drops b.packet.id)) :
      Step v { queue := v.queue.filter (fun b => !drops b.packet.id), table, removed }

/-- A timed packet of the buffer has its callback in the table. -/
def Live (v : Buffered) : Prop :=
  ∀ out ∈ v.queue, out.timed = true → out.packet.id ∈ v.table

variable {v v' : Buffered}

theorem Step.live (hstep : Step v v') (h : v.Live) : v'.Live := by
  cases hstep with
  | quiet removed hgrow => exact h
  | register id callback => exact fun out hout htimed => mem_emplace.mpr (.inr (h out hout htimed))
  | push out hlive =>
    intro b hb htimed
    rcases List.mem_append.mp hb with hb | hb
    · exact h b hb htimed
    · rw [List.mem_singleton.mp hb] at htimed ⊢
      exact hlive htimed
  | pop out rest removed hqueue hgrow =>
    intro b hb htimed
    exact h b (by rw [hqueue]; exact List.mem_cons_of_mem out hb) htimed
  | drop drops table removed htable hremoved =>
    intro b hb htimed
    obtain ⟨hb, hkept⟩ := List.mem_filter.mp hb
    exact (htable _).mpr ⟨h b hb htimed, by simpa using hkept⟩

theorem Step.removed (hstep : Step v v') : v.removed ⊆ v'.removed := by
  cases hstep with
  | quiet removed hgrow => exact hgrow
  | pop out rest removed hqueue hgrow => exact hgrow
  | drop drops table removed htable hremoved =>
    intro b hb
    rw [hremoved]
    exact List.mem_append_left _ hb
  | register | push => exact fun _ hb => hb

/-- A timed packet whose callback leaves the table while it is buffered is
removed with it. -/
theorem Step.completes (hstep : Step v v') (h : v.Live) {out : Outgoing} (hout : out ∈ v.queue)
    (htimed : out.timed = true) (hgone : out.packet.id ∉ v'.table) : out ∈ v'.removed := by
  have hmem := h out hout htimed
  cases hstep with
  | drop drops table removed htable hremoved =>
    rw [hremoved]
    refine List.mem_append_right _ (List.mem_filter.mpr ⟨hout, ?_⟩)
    cases hdrops : drops out.packet.id with
    | true => rfl
    | false => exact absurd ((htable _).mpr ⟨hmem, hdrops⟩) hgone
  | register id callback => exact absurd (mem_emplace.mpr (.inr hmem)) hgone
  | quiet | push | pop => exact absurd hmem hgone

end Buffered

namespace Machine

def buffered (m : Machine) : Buffered where
  queue := m.sock.sendBuffer
  table := m.sock.timedAcks
  removed := m.removed.map Prod.fst

/-- An emission that passes through `send_or_buffer` is not a timed one. -/
def Plain (m : Machine) : Prop := ∀ t out, m.emitters t = .deciding out → out.timed = false

theorem Plain.setPc {m : Machine} (h : m.Plain) {t : Nat} {pc : EmitPc}
    (hpc : ∀ out, pc = .deciding out → out.timed = false) (m' : Machine)
    (hemitters : m'.emitters = Function.update m.emitters t pc) : m'.Plain := by
  intro u out hu
  rw [hemitters] at hu
  by_cases hut : u = t
  · subst hut
    rw [Function.update_self] at hu
    exact hpc out hu
  · rw [Function.update_of_ne hut] at hu
    exact h u out hu

theorem Plain.frame {m m' : Machine} (h : m.Plain) (hemitters : m'.emitters = m.emitters) :
    m'.Plain := by
  intro t out hpc
  rw [hemitters] at hpc
  exact h t out hpc

/-- A step that leaves buffer, table and history alone. -/
theorem buffered_quiet {m m' : Machine} (hqueue : m'.sock.sendBuffer = m.sock.sendBuffer)
    (htable : m'.sock.timedAcks = m.sock.timedAcks) (hremoved : m'.removed = m.removed) :
    Buffered.Step m.buffered m'.buffered := by
  have heq : m'.buffered = { m.buffered with removed := m.buffered.removed } := by
    simp only [buffered, hqueue, htable, hremoved]
  rw [heq]
  exact .quiet m.buffered _ (List.Subset.refl _)

/-- One id leaves the table, and its packets the buffer. -/
theorem buffered_drop {m m' : Machine} {id : Int} {cause : Removal}
    (hqueue : m'.sock.sendBuffer = m.sock.sendBuffer.filter (fun b => b.packet.id ≠ id))
    (htable : m'.sock.timedAcks = m.sock.timedAcks.erase id)
    (hremoved : m'.removed
      = m.removed ++ (m.sock.sendBuffer.filter (fun b => b.packet.id = id)).map (·, cause)) :
    Buffered.Step m.buffered m'.buffered := by
  have hdrop := Buffered.Step.drop m.buffered (fun k => decide (k = id))
    (m.sock.timedAcks.erase id) _ (fun k => by
      rw [AList.mem_erase]
      simp [buffered, and_comm]) rfl
  convert hdrop using 1
  simp only [buffered, hqueue, htable, hremoved, List.map_append, List.map_map]
  congr 1
  · exact List.filter_congr fun b _ => by simp
  · simp [Function.comp_def]

/-- One step of the machine is one step of buffer and table. -/
theorem step_buffered {m m' : Machine} {a : Action} (hex : m.Exclusive) (hplain : m.Plain)
    (h : m.step a = some m') : Buffered.Step m.buffered m'.buffered ∧ m'.Plain := by
  cases step_cases h with
  | emit | registerAck =>
    exact ⟨buffered_quiet rfl rfl rfl, hplain.setPc (fun out hout => by cases hout; rfl) _ rfl⟩
  | emitAck | emitTimed | refuseTimed | direct | heldDirect | send =>
    exact ⟨buffered_quiet rfl rfl rfl, hplain.setPc (fun out hout => by cases hout) _ rfl⟩
  | registerTimed =>
    exact ⟨Buffered.Step.register m.buffered _ _,
      hplain.setPc (fun out hout => by cases hout) _ rfl⟩
  | buffer t out hpc =>
    refine ⟨Buffered.Step.push m.buffered out fun htimed => ?_,
      hplain.setPc (fun o ho => by cases ho) _ rfl⟩
    rw [hplain t out hpc] at htimed
    cases htimed
  | heldBuffer t out hpc =>
    exact ⟨Buffered.Step.push m.buffered out fun _ => (hex t out hpc).2,
      hplain.setPc (fun o ho => by cases ho) _ rfl⟩
  | heldExpired =>
    refine ⟨Buffered.Step.quiet m.buffered _ ?_, hplain.setPc (fun o ho => by cases ho) _ rfl⟩
    simp only [buffered, List.map_append]
    exact List.subset_append_left _ _
  | flushPop i throws out rest htask hconnected hqueue =>
    exact ⟨Buffered.Step.pop m.buffered out rest _ hqueue (List.Subset.refl _),
      hplain.frame rfl⟩
  | flushExpire i throws out rest htask hconnected hqueue =>
    refine ⟨Buffered.Step.pop m.buffered out rest _ hqueue ?_, hplain.frame rfl⟩
    simp only [buffered, List.map_append]
    exact List.subset_append_left _ _
  | claim | ackTimed => exact ⟨buffered_drop rfl rfl rfl, hplain.frame rfl⟩
  | cancel =>
    refine ⟨?_, hplain.frame rfl⟩
    have hdrop := Buffered.Step.drop m.buffered (fun k => decide (k ∈ m.sock.timedAcks)) ∅ _
      (fun k => by simp [buffered]) rfl
    convert hdrop using 1
    simp only [buffered, removing, Socket.cancelTimedAcks, List.map_append, List.map_map]
    congr 1
    · exact List.filter_congr fun b _ => by simp
    · simp [Function.comp_def]
  | _ => exact ⟨buffered_quiet rfl rfl rfl, hplain.frame rfl⟩

/-! ## Every run -/

/-- What is needed to take a step of buffer and table. -/
structure Tidy (m : Machine) : Prop where
  sound : m.Sound
  exclusive : m.Exclusive
  plain : m.Plain
  live : m.buffered.Live

theorem tidy_init (nsp : Bytes) : (init nsp).Tidy where
  sound := sound_init nsp
  exclusive := Exclusive.of_free (by simp [init])
  plain := fun _ _ hpc => by cases hpc
  live := fun _ hout _ => by cases hout

theorem Tidy.step {m m' : Machine} {a : Action} (h : m.Tidy) (hstep : m.step a = some m') :
    m'.Tidy := by
  obtain ⟨hbuffered, hplain⟩ := step_buffered h.exclusive h.plain hstep
  exact ⟨step_sound h.sound hstep, step_exclusive h.exclusive hstep, hplain,
    hbuffered.live h.live⟩

theorem tidy_run {nsp : Bytes} {as : List Action} {m : Machine}
    (h : run Machine.step (init nsp) as = some m) : m.Tidy :=
  run_preserves Tidy (fun _ _ _ hm hstep => hm.step hstep) (tidy_init nsp) h

/-- What has been removed is not handed over, now or later. -/
theorem Tidy.never_handed {m m' : Machine} {as : List Action} {out : Outgoing} (h : m.Tidy)
    (hout : out ∈ m.buffered.removed) (hrun : run Machine.step m as = some m') :
    out ∉ m'.handed := by
  obtain ⟨htidy, hout'⟩ := run_preserves (fun m => m.Tidy ∧ out ∈ m.buffered.removed)
    (fun s a s' hs hstep => ⟨hs.1.step hstep,
      (step_buffered hs.1.exclusive hs.1.plain hstep).1.removed hs.2⟩) ⟨h, hout⟩ hrun
  obtain ⟨-, hconserved, -⟩ := htidy.sound.2.laws
  have honce := hconserved.once
  simp only [Outbox.stored, List.append_assoc] at honce
  intro hhanded
  exact (List.nodup_append'.mp honce).2.2 hhanded
    (List.mem_append_right _ (List.mem_append_right _ hout'))

/-- A callback of the table belongs to a timed emission. -/
theorem Tidy.timed_of_mem {m : Machine} (h : m.Tidy) {out : Outgoing}
    (hout : out ∈ m.sock.sendBuffer) (hmem : out.packet.id ∈ m.sock.timedAcks) :
    out.timed = true := by
  obtain ⟨callback, hlookup⟩ := Option.isSome_iff_exists.mp (AList.lookup_isSome.mpr hmem)
  obtain ⟨r, hr, hid, -⟩ := h.sound.1.scheduled.table out.packet.id callback hlookup
  exact (h.sound.1.registry.own out (h.sound.emitted (.inl hout)) r hr hid.symm).2

/-- The buffer without the timed packet of an id. -/
def withoutTimed (buffer : List Outgoing) (id : Int) : List Outgoing :=
  buffer.filter (fun b => !(b.timed && decide (b.packet.id = id)))

/-- Taking the packets of an id out of the buffer takes the timed one. -/
theorem Tidy.filter_id {m : Machine} (h : m.Tidy) {id : Int} (hmem : id ∈ m.sock.timedAcks) :
    m.sock.sendBuffer.filter (fun b => b.packet.id ≠ id) = withoutTimed m.sock.sendBuffer id := by
  refine List.filter_congr fun b hb => ?_
  by_cases hid : b.packet.id = id
  · have htimed := h.timed_of_mem hb (by rw [hid]; exact hmem)
    simp [hid, htimed]
  · simp [hid]

/-- Without the callback there is no such packet. -/
theorem Tidy.filter_absent {m : Machine} (h : m.Tidy) {id : Int} (hmem : id ∉ m.sock.timedAcks) :
    withoutTimed m.sock.sendBuffer id = m.sock.sendBuffer := by
  refine List.filter_eq_self.mpr fun b hb => ?_
  by_cases hid : b.packet.id = id
  · have htimed : b.timed = false := by
      rw [Bool.eq_false_iff]
      intro htimed
      have := h.live b hb htimed
      rw [hid] at this
      exact hmem this
    simp [htimed]
  · simp [hid]

/-- What `expire_ack` does to the buffer. -/
theorem Tidy.expireAck_sendBuffer {m : Machine} (h : m.Tidy) (id : Int) :
    (m.sock.expireAck id).2.sendBuffer = withoutTimed m.sock.sendBuffer id := by
  unfold Socket.expireAck
  split
  · rename_i hnone
    exact (h.filter_absent (AList.lookup_eq_none.mp hnone)).symm
  · rename_i callback hlookup
    exact h.filter_id (AList.lookup_isSome.mp (by rw [hlookup]; rfl))

/-- What `dispatch_ack` does to it. -/
theorem Tidy.dispatchAck_sendBuffer {m : Machine} (h : m.Tidy) (id : Int) :
    (m.sock.dispatchAck id m.now).2.sendBuffer = withoutTimed m.sock.sendBuffer id := by
  unfold Socket.dispatchAck
  split
  · rename_i callback hlookup
    exact h.filter_id (AList.lookup_isSome.mp (by rw [hlookup]; rfl))
  · rename_i hnone
    have habsent := h.filter_absent (AList.lookup_eq_none.mp hnone)
    split <;> exact habsent.symm

/-- What `cancel_timed_acks` does to it. -/
theorem Tidy.cancelTimedAcks_sendBuffer {m : Machine} (h : m.Tidy) :
    m.sock.cancelTimedAcks.sendBuffer = m.sock.sendBuffer.filter (fun b => !b.timed) := by
  refine List.filter_congr fun b hb => ?_
  cases htimed : b.timed with
  | true =>
    have hmem : b.packet.id ∈ m.sock.timedAcks := h.live b hb htimed
    simp [hmem]
  | false =>
    have hnot : b.packet.id ∉ m.sock.timedAcks := by
      intro hmem
      rw [h.timed_of_mem hb hmem] at htimed
      cases htimed
    simp [hnot]

/-- What the flush finds when it takes a timed packet to send it. -/
theorem Tidy.selected {m : Machine} (h : m.Tidy) {out : Outgoing} {sock : Socket}
    (hturn : m.sock.flushTurn m.now = (.send out, sock)) (htimed : out.timed = true) :
    ∃ r ∈ m.registered, r.id = out.packet.id ∧ r.callback = out.emission ∧ m.now < r.deadline := by
  obtain ⟨-, rest, hb, hlive⟩ := Socket.flushTurn_send_iff.mp ⟨sock, hturn⟩
  have hmem : out ∈ m.sock.sendBuffer := by
    rw [hb]
    exact List.mem_cons_self
  have hexpired : m.sock.ackScheduler.expired out.packet.id m.now = false := by
    rw [Bool.eq_false_iff]
    exact fun hexpired => hlive ⟨h.live out hmem htimed, hexpired⟩
  unfold AckScheduler.expired at hexpired
  split at hexpired
  · cases hexpired
  · rename_i deadline hlookup
    obtain ⟨r, hr, hid, hdeadline⟩ := h.sound.1.scheduled.deadlines _ deadline hlookup
    obtain ⟨hemission, -⟩ :=
      h.sound.1.registry.own out (h.sound.emitted (.inl hmem)) r hr hid.symm
    have hlater : m.now < deadline := by simpa using hexpired
    exact ⟨r, hr, hid, hemission.symm, by rw [hdeadline]; exact hlater⟩

/-- What becomes of timed events that wait in the buffer. -/
structure NoneSentLater (m : Machine) : Prop where
  /-- A timed packet of the buffer has its callback in the table. -/
  buffered : ∀ out ∈ m.sock.sendBuffer, out.timed = true → out.packet.id ∈ m.sock.timedAcks
  /-- A turn of the flush that takes a timed packet to send it finds the
  deadline of its emission ahead. -/
  selected : ∀ out sock, m.sock.flushTurn m.now = (.send out, sock) → out.timed = true →
    ∃ r ∈ m.registered, r.id = out.packet.id ∧ r.callback = out.emission ∧ m.now < r.deadline
  /-- If its acknowledgement completes while it is buffered, it is not
  handed over, whatever comes after. -/
  completed : ∀ out ∈ m.sock.sendBuffer, out.timed = true → ∀ a m', m.step a = some m' →
    out.packet.id ∉ m'.sock.timedAcks → ∀ as m'', run step m' as = some m'' → out ∉ m''.handed
  /-- The same if the flush takes it out as expired. -/
  givenUp : ∀ out sock i throws m', m.tasks[i]? = some .flushing →
    m.sock.flushTurn m.now = (.expire out, sock) → m.step (.task i throws) = some m' →
    ∀ as m'', run step m' as = some m'' → out ∉ m''.handed
  /-- The three operations that complete an acknowledgement take its packet
  out of the buffer and leave the others in their order. -/
  expire : ∀ id, (m.sock.expireAck id).2.sendBuffer = withoutTimed m.sock.sendBuffer id
  dispatch : ∀ id,
    (m.sock.dispatchAck id m.now).2.sendBuffer = withoutTimed m.sock.sendBuffer id
  cancel : m.sock.cancelTimedAcks.sendBuffer = m.sock.sendBuffer.filter (fun b => !b.timed)

/-- **Completed timed events are not sent later**, in any state of any
interleaving. -/
theorem noneSentLater (nsp : Bytes) (as : List Action) (m : Machine)
    (h : run step (init nsp) as = some m) : NoneSentLater m := by
  have htidy := tidy_run h
  constructor
  · exact htidy.live
  · exact fun out sock hturn htimed => htidy.selected hturn htimed
  · intro out hout htimed a m' hstep hgone bs m'' hrun
    have hremoved := (step_buffered htidy.exclusive htidy.plain hstep).1.completes htidy.live hout
      htimed hgone
    exact (htidy.step hstep).never_handed hremoved hrun
  · intro out sock i throws m' htask hturn hstep bs m'' hrun
    refine (htidy.step hstep).never_handed ?_ hrun
    simp only [step, taskStep, htask, hturn] at hstep
    obtain ⟨-, rfl⟩ := locked_eq_some hstep
    simp [buffered]
  · exact htidy.expireAck_sendBuffer
  · exact htidy.dispatchAck_sendBuffer
  · exact htidy.cancelTimedAcks_sendBuffer

/-- A timed event, a plain one and another timed one wait for the
connection. -/
def threeWaiting : List Action :=
  [.emitTimed 0 (ascii "a") .null 1 true, .register 0, .decide 0,
   .emit 0 (ascii "b") .null, .decide 0,
   .emitTimed 0 (ascii "c") .null 9 true, .register 0, .decide 0, .tick 1000000]

/-- The first times out in the buffer; connecting sends the other two. -/
theorem noneSentLater_threeWaiting : ∃ m m' m'',
    run step (init (ascii "/")) threeWaiting = some m ∧
    run step m [.workerPop, .task 0 false] = some m' ∧
    run step m' [.markConnected true, .task 1 false, .task 1 false, .task 1 false, .task 1 false]
      = some m'' ∧
    m''.handed.map (·.emission) = [1, 2] ∧ NoneSentLater m :=
  ⟨_, _, _, rfl, rfl, rfl, rfl, noneSentLater (ascii "/") threeWaiting _ rfl⟩

end Machine

end Sioxx
