/-
Sioxx.Client.AdmissionTheorems — the sockets agree with the client.

`agree_of_apart` is the law for runs in which `connect` does not clear
`intentional_close_` while a `close` has sockets left to cancel. Between
the operations nothing is promised; `Law` says what is on its way. With
the flag clear every socket is open or on the list of the section that
resumes them, with the flag set it is closed or on the list of a `close`.
A section that was begun before the flag was set may still open a socket,
and then the `close` that set it has not taken its snapshot.
-/
import Sioxx.Client.Admission
import Sioxx.Socket.SocketTheorems

namespace Sioxx

open Lib

/-! ## What a state of the pool still promises -/

/-- Will the thread cancel the socket of this namespace? -/
def AdmissionPc.WillCancel (nsp : Bytes) : AdmissionPc → Prop
  | .closeSnapshot => True
  | .closeCancel rest => nsp ∈ rest
  | _ => False

theorem AdmissionPc.WillCancel.cancelling {nsp : Bytes} {pc : AdmissionPc}
    (h : pc.WillCancel nsp) : pc.cancelling = true := by
  cases pc with
  | closeSnapshot => rfl
  | closeCancel rest =>
    cases rest with
    | nil => cases h
    | cons other rest => rfl
  | connectStart => exact h.elim
  | connectLock => exact h.elim
  | connectRest => exact h.elim
  | closeStore => exact h.elim
  | closeEngine => exact h.elim
  | socketLock other => exact h.elim

/-- Does the section open a socket, or insert an open one? -/
def AdmissionSection.admits : AdmissionSection → Bool
  | .connectResume _ => true
  | .socketInsert _ closed => !closed
  | _ => false

/-- A section that has promised nothing about a socket. -/
def AdmissionSection.neutral : AdmissionSection → Bool
  | .connectResume _ => false
  | .socketInsert _ _ => false
  | _ => true

theorem AdmissionSection.not_admits {sect : AdmissionSection} (h : sect.neutral = true) :
    sect.admits = false := by
  cases sect with
  | connectStore => rfl
  | connectResume rest => cases h
  | socketLoad nsp => rfl
  | socketInsert nsp closed => cases h
  | socketConnect => rfl

namespace Admission

variable {s s' : Admission}

/-- The state of a run that kept the condition. With the flag clear no
`close` is at work and every socket is open or about to be resumed. With
the flag set every socket is closed or about to be cancelled; a section
that began before the flag was set has the whole of a `close` after it. -/
structure Law (s : Admission) : Prop where
  calm : s.intentionalClose = false → ∀ pc ∈ s.threads, pc.cancelling = false
  admitted : s.intentionalClose = false → ∀ sock ∈ s.sockets, sock.timedAcksClosed = false ∨
    ∃ rest, s.holder = some (.connectResume rest) ∧ sock.nsp ∈ rest
  read : s.intentionalClose = false → ∀ nsp, s.holder ≠ some (.socketInsert nsp true)
  refused : s.intentionalClose = true → ∀ sock ∈ s.sockets, sock.timedAcksClosed = true ∨
    ∃ pc ∈ s.threads, pc.WillCancel sock.nsp
  late : s.intentionalClose = true → ∀ sect, s.holder = some sect → sect.admits = true →
    .closeSnapshot ∈ s.threads

theorem law_start : Law {} where
  calm := by
    intro _ pc hpc
    cases hpc
  admitted := by
    intro _ sock hsock
    cases hsock
  read := by
    intro _ nsp h
    cases h
  refused := by
    intro h
    cases h
  late := by
    intro h
    cases h

/-- When nothing is in progress, nothing is left to promise. -/
theorem Law.agree (h : s.Law) (hidle : s.Idle) : s.Agree := by
  obtain ⟨hthreads, hholder⟩ := hidle
  intro sock hsock
  have hclosed : sock.timedAcksClosed = s.intentionalClose := by
    cases hflag : s.intentionalClose with
    | false =>
      rcases h.admitted hflag sock hsock with hopen | ⟨rest, hresume, _⟩
      · exact hopen
      · rw [hholder] at hresume
        cases hresume
    | true =>
      rcases h.refused hflag sock hsock with hshut | ⟨pc, hpc, _⟩
      · exact hshut
      · rw [hthreads] at hpc
        cases hpc
  refine ⟨hclosed, fun deadline callback => ?_⟩
  rw [← hclosed]
  unfold Socket.registerTimedAck
  split
  · rename_i htrue
    exact ⟨fun _ => htrue, fun _ => rfl⟩
  · rename_i hfalse
    constructor
    · intro hnone
      cases hnone
    · intro htrue
      exact absurd htrue hfalse

/-! ## Threads that cancel nothing -/

section Pool

variable {l : List AdmissionPc} {i : Nat} {a b : AdmissionPc}

/-- The two pools have the same threads at work on a cancel. -/
def SameCancels (l l' : List AdmissionPc) : Prop :=
  ∀ pc : AdmissionPc, pc.cancelling = true → (pc ∈ l' ↔ pc ∈ l)

theorem sameCancels_append (hb : b.cancelling = false) : SameCancels l (l ++ [b]) := by
  intro pc hpc
  have hne : pc ≠ b := by
    rintro rfl
    rw [hb] at hpc
    cases hpc
  simp [hne]

theorem sameCancels_set (h : l[i]? = some a) (ha : a.cancelling = false)
    (hb : b.cancelling = false) : SameCancels l (l.set i b) := by
  intro pc hpc
  have hne : ∀ c : AdmissionPc, c.cancelling = false → pc ≠ c := by
    rintro c hc rfl
    rw [hc] at hpc
    cases hpc
  obtain ⟨p, q, hl, hset, _⟩ := pool_split h
  rw [hset, hl]
  simp [hne a ha, hne b hb]

theorem sameCancels_erase (h : l[i]? = some a) (ha : a.cancelling = false) :
    SameCancels l (l.eraseIdx i) := by
  intro pc hpc
  have hne : pc ≠ a := by
    rintro rfl
    rw [ha] at hpc
    cases hpc
  obtain ⟨p, q, hl, _, herase⟩ := pool_split h
  rw [herase, hl]
  simp [hne]

end Pool

/-- A step that touches neither the flag nor a socket, nor a promise of
the holder. -/
theorem Law.quiet (h : s.Law) (hflag : s'.intentionalClose = s.intentionalClose)
    (hsockets : s'.sockets = s.sockets) (hthreads : SameCancels s.threads s'.threads)
    (hholder : s'.holder = s.holder ∨ (∀ sect, s.holder = some sect → sect.neutral = true) ∧
      ∀ sect, s'.holder = some sect → sect.neutral = true) : s'.Law where
  calm := by
    intro hfalse pc hpc
    rw [hflag] at hfalse
    cases hcancelling : pc.cancelling with
    | false => rfl
    | true =>
      have hcalm := h.calm hfalse pc ((hthreads pc hcancelling).mp hpc)
      rw [hcancelling] at hcalm
      cases hcalm
  admitted := by
    intro hfalse sock hsock
    rw [hflag] at hfalse
    rw [hsockets] at hsock
    rcases h.admitted hfalse sock hsock with hopen | ⟨rest, hresume, hmem⟩
    · exact .inl hopen
    · rcases hholder with hsame | ⟨hneutral, _⟩
      · exact .inr ⟨rest, hsame.trans hresume, hmem⟩
      · cases hneutral _ hresume
  read := by
    intro hfalse nsp hinsert
    rw [hflag] at hfalse
    rcases hholder with hsame | ⟨_, hneutral⟩
    · exact h.read hfalse nsp (hsame.symm.trans hinsert)
    · cases hneutral _ hinsert
  refused := by
    intro htrue sock hsock
    rw [hflag] at htrue
    rw [hsockets] at hsock
    rcases h.refused htrue sock hsock with hshut | ⟨pc, hpc, hwill⟩
    · exact .inl hshut
    · exact .inr ⟨pc, (hthreads pc hwill.cancelling).mpr hpc, hwill⟩
  late := by
    intro htrue sect hsect hadmits
    rw [hflag] at htrue
    rcases hholder with hsame | ⟨_, hneutral⟩
    · exact (hthreads _ rfl).mpr (h.late htrue sect (hsame.symm.trans hsect) hadmits)
    · rw [AdmissionSection.not_admits (hneutral sect hsect)] at hadmits
      cases hadmits

/-! ## Steps of `close` -/

/-- The law of a state with the flag set. -/
theorem law_of_refused (hflag : s.intentionalClose = true)
    (hrefused : ∀ sock ∈ s.sockets, sock.timedAcksClosed = true ∨
      ∃ pc ∈ s.threads, pc.WillCancel sock.nsp)
    (hlate : ∀ sect, s.holder = some sect → sect.admits = true → .closeSnapshot ∈ s.threads) :
    s.Law where
  calm := by
    intro hfalse
    rw [hflag] at hfalse
    cases hfalse
  admitted := by
    intro hfalse
    rw [hflag] at hfalse
    cases hfalse
  read := by
    intro hfalse
    rw [hflag] at hfalse
    cases hfalse
  refused := fun _ => hrefused
  late := fun _ => hlate

/-- With a `close` before its snapshot, every socket will be cancelled. -/
theorem law_of_snapshot (hflag : s.intentionalClose = true)
    (hclose : .closeSnapshot ∈ s.threads) : s.Law :=
  law_of_refused hflag (fun _ _ => .inr ⟨_, hclose, trivial⟩) (fun _ _ _ => hclose)

/-- A `close` at work means that the flag is set. -/
theorem Law.flag (h : s.Law) {i : Nat} {pc : AdmissionPc} (hpc : s.threads[i]? = some pc)
    (hcancelling : pc.cancelling = true) : s.intentionalClose = true := by
  cases hflag : s.intentionalClose with
  | true => rfl
  | false =>
    have hcalm := h.calm hflag pc (List.mem_of_getElem? hpc)
    rw [hcancelling] at hcalm
    cases hcalm

theorem Law.snapshot (h : s.Law) {i : Nat} (hpc : s.threads[i]? = some .closeSnapshot)
    (hholder : s.holder = none) :
    (s.setThread i (.closeCancel (s.sockets.map Socket.nsp))).Law := by
  refine law_of_refused (h.flag hpc rfl) ?_ ?_
  · intro sock hsock
    exact .inr ⟨_, pool_mem_set hpc _, List.mem_map_of_mem hsock⟩
  · intro sect hsect
    rw [setThread, hholder] at hsect
    cases hsect

theorem mem_update {nsp : Bytes} {f : Socket → Socket} {sock' : Socket}
    (h : sock' ∈ s.update nsp f) : ∃ sock ∈ s.sockets,
      (sock.nsp = nsp ∧ sock' = f sock) ∨ (sock.nsp ≠ nsp ∧ sock' = sock) := by
  obtain ⟨sock, hsock, heq⟩ := List.mem_map.mp h
  refine ⟨sock, hsock, ?_⟩
  by_cases hnsp : sock.nsp = nsp
  · rw [if_pos hnsp] at heq
    exact .inl ⟨hnsp, heq.symm⟩
  · rw [if_neg hnsp] at heq
    exact .inr ⟨hnsp, heq.symm⟩

theorem Law.cancel (h : s.Law) {i : Nat} {nsp : Bytes} {rest : List Bytes}
    (hpc : s.threads[i]? = some (.closeCancel (nsp :: rest))) :
    Law { s.setThread i (.closeCancel rest) with
      sockets := s.update nsp Socket.cancelTimedAcks } := by
  have hflag := h.flag hpc rfl
  refine law_of_refused hflag ?_ ?_
  · intro sock' hsock'
    obtain ⟨sock, hsock, ⟨_, rfl⟩ | ⟨hne, rfl⟩⟩ := mem_update hsock'
    · exact .inl rfl
    · rcases h.refused hflag sock' hsock with hshut | ⟨pc, hmem, hwill⟩
      · exact .inl hshut
      · -- either this thread, with the socket further down its list, or another one
        by_cases hthis : pc = .closeCancel (nsp :: rest)
        · subst hthis
          exact .inr ⟨_, pool_mem_set hpc _, (List.mem_cons.mp hwill).resolve_left hne⟩
        · exact .inr ⟨pc, pool_mem_set_of_ne hpc hmem hthis, hwill⟩
  · intro sect hsect hadmits
    refine pool_mem_set_of_ne hpc (h.late hflag sect hsect hadmits) ?_
    intro heq
    cases heq

theorem Law.lock (h : s.Law) {i : Nat} {pc : AdmissionPc} {sect : AdmissionSection}
    (hpc : s.threads[i]? = some pc) (hcancelling : pc.cancelling = false)
    (hneutral : sect.neutral = true) (hstep : s.lock i sect = some s') : s'.Law := by
  unfold Admission.lock at hstep
  split at hstep
  · cases hstep
  · rename_i hholder
    cases hstep
    refine h.quiet rfl rfl (sameCancels_erase hpc hcancelling) (.inr ⟨?_, ?_⟩)
    · intro other hother
      rw [hholder] at hother
      cases hother
    · intro other hother
      cases hother
      exact hneutral

theorem goStep_law {i : Nat} (h : s.Law) (hstep : s.goStep i = some s') : s'.Law := by
  cases hpc : s.threads[i]? with
  | none =>
    simp only [goStep, hpc] at hstep
    cases hstep
  | some pc =>
    cases pc with
    | connectStart =>
      simp only [goStep, hpc] at hstep
      cases hstep
      exact h.quiet rfl rfl (sameCancels_set hpc rfl rfl) (.inl rfl)
    | connectLock =>
      simp only [goStep, hpc] at hstep
      exact h.lock hpc rfl rfl hstep
    | connectRest =>
      simp only [goStep, hpc] at hstep
      cases hstep
      exact h.quiet rfl rfl (sameCancels_erase hpc rfl) (.inl rfl)
    | closeStore =>
      simp only [goStep, hpc] at hstep
      cases hstep
      exact law_of_snapshot rfl (pool_mem_set hpc _)
    | closeSnapshot =>
      simp only [goStep, hpc] at hstep
      split at hstep
      · cases hstep
      · rename_i hholder
        cases hstep
        exact h.snapshot hpc hholder
    | closeCancel rest =>
      cases rest with
      | nil =>
        simp only [goStep, hpc] at hstep
        cases hstep
        exact h.quiet rfl rfl (sameCancels_set hpc rfl rfl) (.inl rfl)
      | cons nsp rest =>
        simp only [goStep, hpc] at hstep
        cases hstep
        exact h.cancel hpc
    | closeEngine =>
      simp only [goStep, hpc] at hstep
      cases hstep
      exact h.quiet rfl rfl (sameCancels_erase hpc rfl) (.inl rfl)
    | socketLock nsp =>
      simp only [goStep, hpc] at hstep
      exact h.lock hpc rfl rfl hstep

/-! ## Steps under the mutex -/

theorem law_of_admitted (hflag : s.intentionalClose = false)
    (hcalm : ∀ pc ∈ s.threads, pc.cancelling = false)
    (hadmitted : ∀ sock ∈ s.sockets, sock.timedAcksClosed = false ∨
      ∃ rest, s.holder = some (.connectResume rest) ∧ sock.nsp ∈ rest)
    (hread : ∀ nsp, s.holder ≠ some (.socketInsert nsp true)) : s.Law where
  calm := fun _ => hcalm
  admitted := fun _ => hadmitted
  read := fun _ => hread
  refused := by
    intro htrue
    rw [hflag] at htrue
    cases htrue
  late := by
    intro htrue
    rw [hflag] at htrue
    cases htrue

/-- The store of `connect`: no `close` is in the way, and all sockets are
on the list. -/
theorem Law.store (hcalm : ∀ pc ∈ s.threads, pc.cancelling = false) :
    Law { s with
      intentionalClose := false
      holder := some (.connectResume (s.sockets.map Socket.nsp)) } := by
  refine law_of_admitted rfl hcalm ?_ ?_
  · intro sock hsock
    exact .inr ⟨_, rfl, List.mem_map_of_mem hsock⟩
  · intro nsp hinsert
    cases hinsert

theorem Law.resume (h : s.Law) {nsp : Bytes} {rest : List Bytes}
    (hholder : s.holder = some (.connectResume (nsp :: rest))) :
    Law { s with
      sockets := s.update nsp Socket.resumeTimedAcks
      holder := some (.connectResume rest) } := by
  cases hflag : s.intentionalClose with
  | true => exact law_of_snapshot rfl (h.late hflag _ hholder rfl)
  | false =>
    refine law_of_admitted rfl (h.calm hflag) ?_ ?_
    · intro sock' hsock'
      obtain ⟨sock, hsock, ⟨_, rfl⟩ | ⟨hne, rfl⟩⟩ := mem_update hsock'
      · exact .inl rfl
      · rcases h.admitted hflag sock' hsock with hopen | ⟨names, hresume, hmem⟩
        · exact .inl hopen
        · rw [hholder] at hresume
          cases hresume
          exact .inr ⟨rest, rfl, (List.mem_cons.mp hmem).resolve_left hne⟩
    · intro other hinsert
      cases hinsert

theorem Law.resumed (h : s.Law) (hholder : s.holder = some (.connectResume [])) :
    Law { s with holder := none, threads := s.threads ++ [.connectRest] } := by
  cases hflag : s.intentionalClose with
  | true =>
    exact law_of_snapshot rfl (List.mem_append_left _ (h.late hflag _ hholder rfl))
  | false =>
    refine law_of_admitted rfl ?_ ?_ ?_
    · intro pc hpc
      rcases List.mem_append.mp hpc with hold | hnew
      · exact h.calm hflag pc hold
      · rw [List.mem_singleton.mp hnew]
        rfl
    · intro sock hsock
      rcases h.admitted hflag sock hsock with hopen | ⟨rest, hresume, hmem⟩
      · exact .inl hopen
      · rw [hholder] at hresume
        cases hresume
        cases hmem
    · intro nsp hinsert
      cases hinsert

/-- What `socket` reads is the flag of this moment. -/
theorem Law.load (h : s.Law) {nsp : Bytes} (hholder : s.holder = some (.socketLoad nsp)) :
    Law { s with holder := some (.socketInsert nsp s.intentionalClose) } := by
  cases hflag : s.intentionalClose with
  | true =>
    refine law_of_refused rfl (h.refused hflag) ?_
    intro sect hsect hadmits
    cases hsect
    cases hadmits
  | false =>
    refine law_of_admitted rfl (h.calm hflag) ?_ ?_
    · intro sock hsock
      rcases h.admitted hflag sock hsock with hopen | ⟨rest, hresume, _⟩
      · exact .inl hopen
      · rw [hholder] at hresume
        cases hresume
    · intro other hinsert
      cases hinsert

theorem mem_insert {sock other : Socket} {l : List Socket} (h : other ∈ insert sock l) :
    other = sock ∨ other ∈ l := by
  induction l with
  | nil => exact .inl (List.mem_singleton.mp h)
  | cons x rest ih =>
    unfold insert at h
    split at h
    · exact List.mem_cons.mp h
    · rcases List.mem_cons.mp h with rfl | hrest
      · exact .inr List.mem_cons_self
      · exact (ih hrest).imp_right (List.mem_cons_of_mem x)

/-- A new socket is as the flag was when it was read, and a flag set
since then has a `close` behind it that will find the socket. -/
theorem Law.insert (h : s.Law) {nsp : Bytes} {closed : Bool}
    (hholder : s.holder = some (.socketInsert nsp closed)) :
    Law { s with
      sockets := Admission.insert
        (if closed then Socket.cancelTimedAcks { nsp } else { nsp }) s.sockets
      holder := some .socketConnect } := by
  cases hflag : s.intentionalClose with
  | true =>
    cases closed with
    | false => exact law_of_snapshot rfl (h.late hflag _ hholder rfl)
    | true =>
      refine law_of_refused rfl ?_ ?_
      · intro sock hsock
        rcases mem_insert hsock with rfl | hold
        · exact .inl rfl
        · exact h.refused hflag sock hold
      · intro sect hsect hadmits
        cases hsect
        cases hadmits
  | false =>
    refine law_of_admitted rfl (h.calm hflag) ?_ ?_
    · intro sock hsock
      rcases mem_insert hsock with rfl | hold
      · cases closed with
        | false => exact .inl rfl
        | true => exact absurd hholder (h.read hflag nsp)
      · rcases h.admitted hflag sock hold with hopen | ⟨rest, hresume, _⟩
        · exact .inl hopen
        · rw [hholder] at hresume
          cases hresume
    · intro other hinsert
      cases hinsert

theorem holdStep_law (h : s.Law) (hC : s.Apart .hold) (hstep : s.holdStep = some s') :
    s'.Law := by
  have hleave : ∀ sect, s.holder = some sect → sect.neutral = true →
      Law { s with holder := none } := by
    intro sect hholder hneutral
    refine h.quiet rfl rfl (fun _ _ => Iff.rfl) (.inr ⟨?_, ?_⟩)
    · intro other hother
      rw [hholder] at hother
      cases hother
      exact hneutral
    · intro other hother
      cases hother
  cases hholder : s.holder with
  | none =>
    simp only [holdStep, hholder] at hstep
    cases hstep
  | some sect =>
    cases sect with
    | connectStore =>
      simp only [holdStep, hholder] at hstep
      cases hstep
      exact Law.store (hC hholder)
    | connectResume rest =>
      cases rest with
      | nil =>
        simp only [holdStep, hholder] at hstep
        cases hstep
        exact h.resumed hholder
      | cons nsp rest =>
        simp only [holdStep, hholder] at hstep
        cases hstep
        exact h.resume hholder
    | socketLoad nsp =>
      simp only [holdStep, hholder] at hstep
      split at hstep
      · cases hstep
        exact hleave _ hholder rfl
      · cases hstep
        exact h.load hholder
    | socketInsert nsp closed =>
      simp only [holdStep, hholder] at hstep
      cases hstep
      exact h.insert hholder
    | socketConnect =>
      simp only [holdStep, hholder] at hstep
      cases hstep
      exact hleave _ hholder rfl

/-! ## Runs -/

/-- What `register_timed_ack` leaves as it is. -/
theorem registered_closed (sock : Socket) (deadline : Time) (callback : Nat) :
    let sock' := match sock.registerTimedAck deadline callback with
      | none => sock
      | some (_, sock) => sock
    sock'.timedAcksClosed = sock.timedAcksClosed ∧ sock'.nsp = sock.nsp := by
  intro sock'
  cases hregister : sock.registerTimedAck deadline callback with
  | none =>
    simp only [sock', hregister, and_self]
  | some registered =>
    obtain ⟨id, other⟩ := registered
    obtain ⟨_, _, hother⟩ := Socket.registerTimedAck_some hregister
    simp only [sock', hregister, hother, and_self]

theorem step_law {a : Action} (h : s.Law) (hC : s.Apart a) (hstep : s.step a = some s') :
    s'.Law := by
  cases a with
  | connect =>
    cases hstep
    exact h.quiet rfl rfl (sameCancels_append rfl) (.inl rfl)
  | close =>
    cases hstep
    exact h.quiet rfl rfl (sameCancels_append rfl) (.inl rfl)
  | socket nsp =>
    cases hstep
    exact h.quiet rfl rfl (sameCancels_append rfl) (.inl rfl)
  | go i => exact goStep_law h hstep
  | hold => exact holdStep_law h hC hstep
  | emit nsp deadline callback =>
    cases hstep
    have hsame : ∀ sock' ∈ s.update nsp (fun sock =>
        match sock.registerTimedAck deadline callback with
        | none => sock
        | some (_, sock) => sock), ∃ sock ∈ s.sockets,
          sock'.timedAcksClosed = sock.timedAcksClosed ∧ sock'.nsp = sock.nsp := by
      intro sock' hsock'
      obtain ⟨sock, hsock, ⟨_, rfl⟩ | ⟨_, rfl⟩⟩ := mem_update hsock'
      · exact ⟨sock, hsock, registered_closed sock deadline callback⟩
      · exact ⟨sock', hsock, rfl, rfl⟩
    exact
      { calm := h.calm
        admitted := by
          intro hflag sock' hsock'
          obtain ⟨sock, hsock, hclosed, hnsp⟩ := hsame sock' hsock'
          rw [hclosed, hnsp]
          exact h.admitted hflag sock hsock
        read := h.read
        refused := by
          intro hflag sock' hsock'
          obtain ⟨sock, hsock, hclosed, hnsp⟩ := hsame sock' hsock'
          rw [hclosed, hnsp]
          exact h.refused hflag sock hsock
        late := h.late }

/-- **Admission.** In every run in which `connect` does not clear the flag
between the store of a `close` and its last cancel, whenever none of the
operations is in progress every socket is closed for timed emissions
exactly if the client is shut down, and so throws. -/
theorem agree_of_apart {as : List Action} {t : Admission} (hC : Meets step Apart {} as)
    (hrun : run step {} as = some t) (hidle : t.Idle) : t.Agree := by
  have hlaw : t.Law := run_invariant (fun s a s' => step_law) as {} t law_start hC hrun
  exact hlaw.agree hidle

/-- The root socket is requested. -/
def requested : List Action := [.socket [], .go 0, .hold, .hold, .hold]

/-- A shutdown from start to end, then a `connect`. -/
def closedThenConnected : List Action :=
  requested ++ [.close, .go 0, .go 0, .go 0, .go 0, .go 0] ++
    [.connect, .go 0, .go 0, .hold, .hold, .hold, .go 0]

theorem agree_of_apart_closedThenConnected :
    ∃ t, run step {} closedThenConnected = some t ∧ t.sockets.length = 1 ∧ t.Idle ∧ t.Agree := by
  refine ⟨_, rfl, rfl, ⟨rfl, rfl⟩, @agree_of_apart closedThenConnected _ ?_ rfl ⟨rfl, rfl⟩⟩
  have hother : ∀ {s : Admission} {sect : AdmissionSection}, s.holder = some sect →
      sect ≠ .connectStore → s.Apart .hold := by
    intro s sect hholder hne hstore
    rw [hholder] at hstore
    cases hstore
    exact absurd rfl hne
  iterate 2 refine (meets_cons_iff rfl).mpr ⟨trivial, ?_⟩
  iterate 3 refine (meets_cons_iff rfl).mpr ⟨hother rfl (by decide), ?_⟩
  iterate 9 refine (meets_cons_iff rfl).mpr ⟨trivial, ?_⟩
  refine (meets_cons_iff rfl).mpr ⟨fun _ pc hpc => ?_, ?_⟩
  · cases hpc
  iterate 2 refine (meets_cons_iff rfl).mpr ⟨hother rfl (by decide), ?_⟩
  refine (meets_cons_iff rfl).mpr ⟨trivial, ?_⟩
  trivial

/-- A `connect` from start to end between the snapshot of a `close` and its
cancel. -/
def connectedWithin : List Action :=
  requested ++ [.close, .go 0, .go 0] ++ [.connect, .go 1, .go 1, .hold, .hold, .hold, .go 1] ++
    [.go 0, .go 0, .go 0]

/-- The client is connected and its socket refuses timed emissions. -/
theorem connectedWithin_refuses :
    ∃ t, run step {} connectedWithin = some t ∧ t.Idle ∧ t.intentionalClose = false ∧
      t.sockets.map Socket.timedAcksClosed = [true] ∧ ¬ t.Agree := by
  refine ⟨_, rfl, ⟨rfl, rfl⟩, rfl, rfl, fun hagree => ?_⟩
  have hclosed := (hagree _ (List.mem_singleton.mpr rfl)).1
  cases hclosed

end Admission

end Sioxx
