/-
Sioxx.Socket.SendBufferTheorems — the law of the send buffer.

What an outbox guarantees, every reachable state of a machine has by
`OutboxSimulation.lean`. What the outbox does not know is why an event was
removed. `Removes` says of every step which events it removes and for what
reason, and `Own` that the reason is one of the event itself; an event in
the hands of its emitter is safe because that thread is inside the mutex
(`Exclusive`).
-/
import Sioxx.Socket.OutboxSimulation

namespace Sioxx

open Lib

namespace Machine

/-! ## Removed events -/

/-- The reason of a removal is one of the event itself. -/
def Own (m : Machine) (out : Outgoing) (cause : Removal) : Prop :=
  ∃ r ∈ m.registered, r.id = out.packet.id ∧ r.callback = out.emission ∧
    match cause with
    | .expiry => r.deadline ≤ m.now
    | .acknowledgement => ∃ ack ∈ m.acks, ack.id = out.packet.id
    | .cancellation => out.emission ∈ m.cancelled

/-- Who is inside a timed `emit` holds the mutex, so nobody can take the
callback it has just registered. -/
def Exclusive (m : Machine) : Prop :=
  ∀ t out, m.emitters t = .holding out → m.mutex = some t ∧ out.packet.id ∈ m.sock.timedAcks

theorem Exclusive.of_free {m : Machine} (h : ∀ t out, m.emitters t ≠ .holding out) :
    m.Exclusive :=
  fun t out hpc => absurd hpc (h t out)

/-- While the mutex is free nobody is inside. -/
theorem Exclusive.free {m : Machine} (h : m.Exclusive) (hfree : m.mutex = none) (t : Nat)
    (out : Outgoing) : m.emitters t ≠ .holding out := by
  intro hpc
  have := (h t out hpc).1
  rw [hfree] at this
  cases this

/-- A section that starts with the mutex free and lets no thread stay in. -/
theorem Exclusive.section {m m' : Machine} (h : m.Exclusive) (hfree : m.mutex = none)
    (hpcs : ∀ t out, m'.emitters t = .holding out → m.emitters t = .holding out) :
    m'.Exclusive :=
  Exclusive.of_free fun t out hpc => h.free hfree t out (hpcs t out hpc)

/-- A step outside the mutex. -/
theorem Exclusive.outside {m m' : Machine} (h : m.Exclusive) (hmutex : m'.mutex = m.mutex)
    (htable : m'.sock.timedAcks = m.sock.timedAcks)
    (hpcs : ∀ t out, m'.emitters t = .holding out → m.emitters t = .holding out) :
    m'.Exclusive := by
  intro t out hpc
  rw [hmutex, htable]
  exact h t out (hpcs t out hpc)

/-- Moving one thread to a place outside the section. -/
theorem holding_of_update {f : Nat → EmitPc} {t u : Nat} {pc : EmitPc} {out : Outgoing}
    (hpc : ∀ o, pc ≠ .holding o) (h : Function.update f t pc u = .holding out) :
    u ≠ t ∧ f u = .holding out := by
  by_cases hu : u = t
  · subst hu
    rw [Function.update_self] at h
    exact absurd h (hpc out)
  · rw [Function.update_of_ne hu] at h
    exact ⟨hu, h⟩

/-- A section after which one thread is outside. -/
theorem Exclusive.setPc {m m' : Machine} (h : m.Exclusive) (hfree : m.mutex = none) {t : Nat}
    {pc : EmitPc} (hpc : ∀ o, pc ≠ .holding o)
    (hemitters : m'.emitters = (m.setPc t pc).emitters) : m'.Exclusive := by
  refine h.section hfree fun u out hu => ?_
  rw [hemitters] at hu
  exact (holding_of_update hpc hu).2

/-- The thread inside leaves, and it was the only one. -/
theorem Exclusive.leave {m m' : Machine} (h : m.Exclusive) {t : Nat} {out : Outgoing}
    (hholding : m.emitters t = .holding out) {pc : EmitPc} (hpc : ∀ o, pc ≠ .holding o)
    (hemitters : m'.emitters = (m.setPc t pc).emitters) : m'.Exclusive := by
  refine Exclusive.of_free fun u o hu => ?_
  rw [hemitters] at hu
  obtain ⟨hne, hu⟩ := holding_of_update hpc hu
  exact hne (Option.some.inj ((h u o hu).1.symm.trans (h t out hholding).1))

theorem step_exclusive {m m' : Machine} {a : Action} (hex : m.Exclusive)
    (h : m.step a = some m') : m'.Exclusive := by
  cases step_cases h with
  | emit | emitAck | emitTimed | send =>
    exact hex.outside rfl rfl fun u out hpc => (holding_of_update (by simp) hpc).2
  | registerAck t event data hpc hfree => exact hex.setPc hfree (by simp) rfl
  | refuseTimed t event data deadline hpc hclosed hfree => exact hex.setPc hfree (by simp) rfl
  | registerTimed t event data deadline hpc hopen hfree =>
    intro u out hu
    by_cases hut : u = t
    · subst hut
      simp only [setPc, Function.update_self, EmitPc.holding.injEq] at hu
      subst hu
      exact ⟨rfl, mem_emplace.mpr (.inl rfl)⟩
    · simp only [setPc, Function.update_of_ne hut] at hu
      exact absurd hu (hex.free hfree u out)
  | buffer t out hpc hbuffer hfree | direct t out hpc hdirect hfree =>
    exact hex.setPc hfree (by simp) rfl
  | heldExpired t out hpc | heldBuffer t out hpc | heldDirect t out hpc =>
    exact hex.leave hpc (by simp) rfl
  | rejectTimed => exact hex
  | connect | disconnectSend | flushSent | flushAbort | invoke | workerPop | tick =>
    exact hex.outside rfl rfl fun _ _ hpc => hpc
  | _ => exact hex.section ‹_› fun _ _ hpc => hpc

/-- What the section that removes an event has found. -/
def Removes (m m' : Machine) (out : Outgoing) (cause : Removal) : Prop :=
  (out ∈ m.sock.sendBuffer ∨ ∃ t, m.emitters t = .holding out) ∧
    out.packet.id ∈ m.sock.timedAcks ∧
    match cause with
    | .expiry => m.sock.ackScheduler.expired out.packet.id m.now = true ∨
        out.packet.id ∈ m.timedAcks.expiring
    | .acknowledgement => ∃ ack ∈ m'.acks, ack.id = out.packet.id
    | .cancellation => ∀ callback, m.sock.timedAcks.lookup out.packet.id = some callback →
        callback ∈ m'.cancelled

/-- The packets of one id, taken out of the buffer. -/
theorem mem_removing {m : Machine} {drops : Outgoing → Bool} {cause : Removal}
    {p : Outgoing × Removal}
    (h : p ∈ m.removed ++ (m.sock.sendBuffer.filter drops).map (·, cause)) :
    p ∈ m.removed ∨ (p.1 ∈ m.sock.sendBuffer ∧ drops p.1 = true ∧ p.2 = cause) := by
  rcases List.mem_append.mp h with h | h
  · exact .inl h
  · obtain ⟨out, hout, rfl⟩ := List.mem_map.mp h
    obtain ⟨hmem, hdrops⟩ := List.mem_filter.mp hout
    exact .inr ⟨hmem, hdrops, rfl⟩

/-- Every newly removed event had its own acknowledgement pending. -/
theorem step_removed {m m' : Machine} {a : Action} (hex : m.Exclusive)
    (h : m.step a = some m') : ∀ p ∈ m'.removed, p ∈ m.removed ∨ Removes m m' p.1 p.2 := by
  cases step_cases h with
  | heldExpired t out hpc hexpired =>
    intro p hp
    rcases List.mem_append.mp hp with hp | hp
    · exact .inl hp
    · rw [List.mem_singleton.mp hp]
      exact .inr ⟨.inr ⟨t, hpc⟩, (hex t out hpc).2, .inl hexpired⟩
  | flushExpire i throws out rest htask hconnected hqueue hmem hexpired =>
    intro p hp
    rcases List.mem_append.mp hp with hp | hp
    · exact .inl hp
    · rw [List.mem_singleton.mp hp]
      exact .inr ⟨.inl (by rw [hqueue]; exact List.mem_cons_self), hmem, .inl hexpired⟩
  | claim i throws caller id callback task htask hwho hlookup =>
    have hexpiring : id ∈ m.timedAcks.expiring := by
      refine List.mem_filterMap.mpr ⟨task, List.mem_of_getElem? htask, ?_⟩
      rcases hwho with ⟨-, out, rfl, rfl⟩ | ⟨-, rfl⟩ <;> rfl
    intro p hp
    rcases mem_removing hp with hp | ⟨hmem, hdrops, hcause⟩
    · exact .inl hp
    · have hpid : p.1.packet.id = id := of_decide_eq_true hdrops
      refine .inr ⟨.inl hmem, ?_, ?_⟩
      · rw [hpid]
        exact AList.lookup_isSome.mp (by rw [hlookup]; rfl)
      · rw [hcause, hpid]
        exact .inr hexpiring
  | ackTimed id data callback hlookup =>
    intro p hp
    rcases mem_removing hp with hp | ⟨hmem, hdrops, hcause⟩
    · exact .inl hp
    · have hpid : p.1.packet.id = id := of_decide_eq_true hdrops
      refine .inr ⟨.inl hmem, ?_, ?_⟩
      · rw [hpid]
        exact AList.lookup_isSome.mp (by rw [hlookup]; rfl)
      · rw [hcause, hpid]
        exact ⟨_, List.mem_append_right _ (List.mem_singleton.mpr rfl), rfl⟩
  | cancel =>
    intro p hp
    rcases mem_removing hp with hp | ⟨hmem, hdrops, hcause⟩
    · exact .inl hp
    · refine .inr ⟨.inl hmem, of_decide_eq_true hdrops, ?_⟩
      rw [hcause]
      intro callback hlookup
      exact List.mem_append_right _ (List.mem_map.mpr ⟨_, AList.mem_lookup_iff.mp hlookup, rfl⟩)
  | _ => exact fun p hp => .inl hp

theorem Own.mono {m m' : Machine} {out : Outgoing} {cause : Removal} (h : m.Own out cause)
    (hstep : TimedAcks.Step m.timedAcks m'.timedAcks) : m'.Own out cause := by
  obtain ⟨hregistered, hacks, hcancelled, hnow⟩ := hstep.mono
  obtain ⟨r, hr, hid, hcallback, hwhy⟩ := h
  refine ⟨r, hregistered r hr, hid, hcallback, ?_⟩
  cases cause with
  | expiry => exact le_trans hwhy hnow
  | acknowledgement =>
    obtain ⟨ack, hack, hackId⟩ := hwhy
    exact ⟨ack, hacks ack hack, hackId⟩
  | cancellation => exact hcancelled _ hwhy

/-- An event of the buffer or of a thread in its section was emitted. -/
theorem Sound.emitted {m : Machine} (h : m.Sound) {out : Outgoing}
    (hout : out ∈ m.sock.sendBuffer ∨ ∃ t, m.emitters t = .holding out) : out ∈ m.emitted := by
  obtain ⟨-, hconserved, -⟩ := h.2.laws
  rcases hout with hout | ⟨t, hpc⟩
  · exact hconserved.storedIssued out (Outbox.mem_stored.mpr (.inr (.inr (.inl hout))))
  · have hhand : (m.outbox.hand t).event = some out := by
      simp only [outbox, hpc, EmitPc.hand, Hand.event_undecided]
    exact (hconserved.owned t out hhand).2

theorem Removes.own {m m' : Machine} {out : Outgoing} {cause : Removal} (h : m.Sound)
    (hstep : TimedAcks.Step m.timedAcks m'.timedAcks) (hremoves : Removes m m' out cause) :
    m'.Own out cause := by
  obtain ⟨hwhere, htable, hwhy⟩ := hremoves
  obtain ⟨hregistry, hscheduled, -⟩ := h.1
  obtain ⟨hregistered, -, -, hnow⟩ := hstep.mono
  have hout := h.emitted hwhere
  obtain ⟨callback, hlookup⟩ := Option.isSome_iff_exists.mp (AList.lookup_isSome.mpr htable)
  obtain ⟨r, hr, hid, hcallback⟩ := hscheduled.table out.packet.id callback hlookup
  obtain ⟨hemission, -⟩ := hregistry.own out hout r hr hid.symm
  refine ⟨r, hregistered r hr, hid, hemission.symm, ?_⟩
  cases cause with
  | expiry =>
    have hdue : ∃ r' ∈ m.registered, r'.id = out.packet.id ∧ r'.deadline ≤ m.now := by
      rcases hwhy with hexpired | hexpiring
      · exact hscheduled.due_of_expired htable (AckScheduler.expired_true hexpired)
      · exact hscheduled.expiring _ hexpiring
    obtain ⟨r', hr', hid', hle⟩ := hdue
    rw [hregistry.byId r' hr' r hr (hid'.trans hid.symm)] at hle
    exact le_trans hle hnow
  | acknowledgement => exact hwhy
  | cancellation =>
    rw [hemission, hcallback]
    exact hwhy callback hlookup

/-! ## The send-buffer law -/

/-- Where an emitted event can be; a removed one was removed for a reason
of its own. -/
def At (m : Machine) (out : Outgoing) : Outbox.Place → Prop
  | .delivered => out ∈ m.handed
  | .queued => out ∈ m.sock.sendBuffer
  | .held => Task.flushSending out ∈ m.tasks
  | .inHand => m.emitters out.thread = .deciding out ∨ m.emitters out.thread = .holding out ∨
      m.emitters out.thread = .sending out
  | .dropped => ∃ cause, (out, cause) ∈ m.removed ∧ m.Own out cause

structure SendBufferLaw (m : Machine) : Prop where
  /-- On a connected socket nobody flushes, nothing is buffered. -/
  drained : m.sock.connected = true → m.sock.flushingSendBuffer = false → m.sock.sendBuffer = []
  /-- At most one thread is inside `flush_send_buffer`. -/
  single : m.tasks.countP Task.isFlusher ≤ 1
  /-- Emissions are told apart by their number, and none is handed over twice. -/
  numbered : (m.emitted.map Outgoing.emission).Nodup
  once : (m.handed.map Outgoing.emission).Nodup
  /-- What a thread emitted is handed over in that order. -/
  order : ∀ t, (m.handed.filter (fun out => out.thread = t)).Sublist
    (m.emitted.filter (fun out => out.thread = t))
  /-- Every emitted event is in exactly one place. -/
  placed : ∀ out ∈ m.emitted, ∃! place, m.At out place

theorem Task.isFlusher_eq (task : Task) : task.isFlusher = task.drainer.isSome := by
  cases task with
  | claimed caller claim => cases caller <;> rfl
  | running caller claim => cases caller <;> rfl
  | flushing | flushSending | flushExpiring | workerExpiring => rfl

theorem drainers_length (m : Machine) :
    m.outbox.drainers.length = m.tasks.countP Task.isFlusher := by
  show (m.tasks.filterMap Task.drainer).length = _
  induction m.tasks with
  | nil => rfl
  | cons task rest ih =>
    rw [List.filterMap_cons, List.countP_cons, Task.isFlusher_eq]
    cases task.drainer <;> simp [ih]

/-- The places of the machine are those of its outbox. -/
theorem at_iff {m : Machine} (hown : ∀ p ∈ m.removed, m.Own p.1 p.2) (out : Outgoing)
    (place : Outbox.Place) : m.At out place ↔ m.outbox.At Outgoing.thread out place := by
  cases place with
  | delivered => exact Iff.rfl
  | queued => exact Iff.rfl
  | held =>
    simp only [At, Outbox.At, Outbox.held, outbox, List.reduceOption, List.mem_filterMap]
    constructor
    · intro h
      exact ⟨_, ⟨_, h, rfl⟩, rfl⟩
    · rintro ⟨_, ⟨task, htask, hdrainer⟩, rfl⟩
      cases task with
      | flushSending out' =>
        simp only [Task.drainer, Option.some.injEq] at hdrainer
        subst hdrainer
        exact htask
      | claimed caller claim => cases caller <;> simp [Task.drainer] at hdrainer
      | running caller claim => cases caller <;> simp [Task.drainer] at hdrainer
      | flushing | flushExpiring | workerExpiring => simp [Task.drainer] at hdrainer
  | inHand =>
    simp only [At, Outbox.At, outbox]
    cases m.emitters out.thread <;> simp [EmitPc.hand]
  | dropped =>
    simp only [At, Outbox.At, outbox, List.mem_map]
    constructor
    · rintro ⟨cause, hmem, -⟩
      exact ⟨_, hmem, rfl⟩
    · rintro ⟨p, hmem, rfl⟩
      exact ⟨p.2, hmem, hown p hmem⟩

theorem sound_own {nsp : Bytes} {as : List Action} {m : Machine}
    (h : run step (init nsp) as = some m) : m.Sound ∧ ∀ p ∈ m.removed, m.Own p.1 p.2 := by
  have hall : m.Sound ∧ m.Exclusive ∧ ∀ p ∈ m.removed, m.Own p.1 p.2 := by
    refine run_preserves (fun m => m.Sound ∧ m.Exclusive ∧ ∀ p ∈ m.removed, m.Own p.1 p.2)
      ?_ ⟨sound_init nsp, ?_, ?_⟩ h
    · rintro s a s' ⟨hsound, hex, hown⟩ hstep
      have htimed := step_timedAcks hstep
      refine ⟨step_sound hsound hstep, step_exclusive hex hstep, fun p hp => ?_⟩
      rcases step_removed hex hstep p hp with hp | hremoves
      · exact (hown p hp).mono htimed
      · exact hremoves.own hsound htimed
    · exact Exclusive.of_free (by simp [init])
    · simp [init]
  exact ⟨hall.1, hall.2.2⟩

/-- **The send-buffer law** holds after every interleaving, also when
sends or callbacks throw. -/
theorem sendBufferLaw {nsp : Bytes} {as : List Action} {m : Machine}
    (h : run step (init nsp) as = some m) : SendBufferLaw m := by
  obtain ⟨⟨htimed, hreach⟩, hown⟩ := sound_own h
  obtain ⟨hgated, hconserved, horder⟩ := hreach.laws
  have hnumbered : (m.emitted.map Outgoing.emission).Nodup := by
    rw [show m.emitted.map Outgoing.emission = _ from htimed.registry.numbered]
    exact List.nodup_range
  have hinj : ∀ x ∈ m.emitted, ∀ y ∈ m.emitted, x.emission = y.emission → x = y :=
    fun x hx y hy => List.inj_on_of_nodup_map hnumbered hx hy
  constructor
  · exact hgated.drained
  · rw [← drainers_length]
    exact hgated.length_le_one
  · exact hnumbered
  · have honce := hconserved.once
    simp only [Outbox.stored, List.append_assoc] at honce
    have hhanded : m.handed.Nodup := honce.of_append_left
    refine hhanded.map_on fun x hx y hy => hinj x ?_ y ?_
    · exact hconserved.storedIssued x (Outbox.mem_stored.mpr (.inl hx))
    · exact hconserved.storedIssued y (Outbox.mem_stored.mpr (.inl hy))
  · exact horder.delivered_sublist
  · intro out hout
    obtain ⟨place, hplace, honly⟩ := hconserved.existsUnique_place hout
    exact ⟨place, (at_iff hown out place).mpr hplace,
      fun other hother => honly other ((at_iff hown out other).mp hother)⟩

/-- A disconnect and a reconnect in the middle of a flush, with a second
thread emitting meanwhile. -/
def reconnectWhileFlushing : List Action :=
  [.emit 0 (ascii "a") .null, .decide 0, .emit 0 (ascii "b") .null, .decide 0,
   .markConnected true, .task 0 false, .disconnectSend, .disconnect, .emit 1 (ascii "c") .null,
   .markConnected true, .decide 1, .task 0 false, .task 0 false, .task 0 false, .task 0 false,
   .task 0 false, .task 0 false, .emit 0 (ascii "d") .null, .decide 0]

theorem sendBufferLaw_reconnectWhileFlushing :
    ∃ m, run step (init (ascii "/")) reconnectWhileFlushing = some m ∧
      m.handed.map Outgoing.emission = [0, 1, 2] ∧ m.sock.flushingSendBuffer = false ∧
      SendBufferLaw m :=
  ⟨_, rfl, rfl, rfl, @sendBufferLaw (ascii "/") reconnectWhileFlushing _ rfl⟩

end Machine

end Sioxx
