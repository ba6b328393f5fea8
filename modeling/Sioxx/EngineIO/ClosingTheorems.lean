/-
Sioxx.EngineIO.ClosingTheorems — when a closed client stays closed.

`staysClosed_of_settled` is the law for runs in which no OPEN packet sets
`open_` after a `close` has cleared it, and a `close` returns with no other
thread between a test or a store of `open_` and the call that follows.
`closedThenOpened` is a run that breaks it: the OPEN packet has passed the
test of the transport when `close` is called.

Without anyone in between the steps of an OPEN packet and of a `close` are
the functions of `Client.lean` (`openSteps_handleOpen`,
`closeSteps_close`).
-/
import Sioxx.EngineIO.Closing
import Sioxx.Json.ReferenceText

namespace Sioxx

open Lib

namespace Closing

/-! ## Only an OPEN packet opens -/

theorem startHeartbeatTimer_isOpen (c : EngineIOClient) :
    c.startHeartbeatTimer.isOpen = c.isOpen := by
  unfold EngineIOClient.startHeartbeatTimer
  split <;> rfl

theorem handleTransportMessage_isOpen {T : JsonText} {c : EngineIOClient} {now : Nat}
    {payload : Bytes} {isBinary : Bool} (hother : openText payload isBinary = none)
    (h : (c.handleTransportMessage T now payload isBinary).client.isOpen = true) :
    c.isOpen = true := by
  unfold EngineIOClient.handleTransportMessage at h
  cases isBinary with
  | true => exact h
  | false =>
    cases payload with
    | nil => exact h
    | cons typeChar rest =>
      have hnot : typeChar ≠ byteOf '0' := by
        rintro rfl
        simp [openText] at hother
      simp only [Bool.false_eq_true, if_false, hnot] at h
      split at h
      · cases h
      · split at h
        · exact h
        · split at h
          · exact h
          · split at h <;> exact h

/-! ## The law of a closed client -/

variable {T : JsonText} {s s' : Closing}

/-- What holds in a run that kept the condition. -/
structure Law (s : Closing) : Prop where
  cleared : s.returned = true → s.cleared = true
  shut : s.cleared = true → s.client.isOpen = false
  quiet : s.returned = true → ∀ pc ∈ s.threads, pc.announcing = false ∧ pc.handing = false
  opened : s.openedAfter = 0
  handed : s.handedAfter = []

theorem law_start (posts : Bool) (client : EngineIOClient) : Law { posts, client } where
  cleared := by
    intro h
    cases h
  shut := by
    intro h
    cases h
  quiet := by
    intro h
    cases h
  opened := rfl
  handed := rfl

theorem Law.staysClosed (h : s.Law) : s.StaysClosed := fun hreturned =>
  ⟨h.shut (h.cleared hreturned), h.opened, h.handed⟩

/-- A step that neither clears `open_` nor returns from `close`: it may set
`open_` or bring a thread to its call only as long as that is harmless. -/
theorem Law.frame (h : s.Law) (hreturned : s'.returned = s.returned)
    (hcleared : s'.cleared = s.cleared)
    (hopen : s.cleared = true → s'.client.isOpen = true → s.client.isOpen = true)
    (hthreads : s.returned = true → ∀ pc ∈ s'.threads,
      pc ∈ s.threads ∨ pc.announcing = false ∧ pc.handing = false)
    (hopened : s'.openedAfter = s.openedAfter) (hhanded : s'.handedAfter = s.handedAfter) :
    s'.Law where
  cleared := by
    rw [hreturned, hcleared]
    exact h.cleared
  shut := by
    intro hclear
    rw [hcleared] at hclear
    cases hafter : s'.client.isOpen with
    | false => rfl
    | true =>
      have hbefore := h.shut hclear
      rw [hopen hclear hafter] at hbefore
      cases hbefore
  quiet := by
    intro hret pc hpc
    rw [hreturned] at hret
    rcases hthreads hret pc hpc with hold | hnew
    · exact h.quiet hret pc hold
    · exact hnew
  opened := hopened.trans h.opened
  handed := hhanded.trans h.handed

theorem Law.begin (h : s.Law) {pc : ClosingPc} (hpc : pc.announcing = false ∧ pc.handing = false) :
    (s.begin pc).Law := by
  refine h.frame rfl rfl (fun _ hopen => hopen) ?_ rfl rfl
  intro _ other hother
  rcases List.mem_append.mp hother with hold | hnew
  · exact .inl hold
  · rw [List.mem_singleton.mp hnew]
    exact .inr hpc

/-- A thread goes to a harmless place, and the client is no more open than
before. -/
theorem Law.set (h : s.Law) {i : Nat} {pc : ClosingPc}
    (hpc : pc.announcing = false ∧ pc.handing = false) (hreturned : s'.returned = s.returned)
    (hcleared : s'.cleared = s.cleared) (hopen : s'.client.isOpen = true → s.client.isOpen = true)
    (hthreads : s'.threads = s.threads.set i pc) (hopened : s'.openedAfter = s.openedAfter)
    (hhanded : s'.handedAfter = s.handedAfter) : s'.Law := by
  refine h.frame hreturned hcleared (fun _ => hopen) ?_ hopened hhanded
  intro _ other hother
  rw [hthreads] at hother
  rcases List.mem_or_eq_of_mem_set hother with hold | rfl
  · exact .inl hold
  · exact .inr hpc

/-- A thread ends. -/
theorem Law.erase (h : s.Law) {i : Nat} (hreturned : s'.returned = s.returned)
    (hcleared : s'.cleared = s.cleared) (hopen : s'.client.isOpen = true → s.client.isOpen = true)
    (hthreads : s'.threads = s.threads.eraseIdx i) (hopened : s'.openedAfter = s.openedAfter)
    (hhanded : s'.handedAfter = s.handedAfter) : s'.Law := by
  refine h.frame hreturned hcleared (fun _ => hopen) ?_ hopened hhanded
  intro _ other hother
  rw [hthreads] at hother
  exact .inl (List.mem_of_mem_eraseIdx hother)

/-- A thread at one of the two calls means that no `close` has returned. -/
theorem Law.not_returned (h : s.Law) {i : Nat} {pc : ClosingPc} (hpc : s.threads[i]? = some pc)
    (hbusy : pc.announcing = true ∨ pc.handing = true) : s.returned = false := by
  cases hreturned : s.returned with
  | false => rfl
  | true =>
    obtain ⟨hannounce, hhand⟩ := h.quiet hreturned pc (List.mem_of_getElem? hpc)
    rcases hbusy with hbusy | hbusy
    · rw [hannounce] at hbusy
      cases hbusy
    · rw [hhand] at hbusy
      cases hbusy

/-- A thread goes on while no `close` has returned. -/
theorem Law.busy (h : s.Law) (hno : s.returned = false) (hreturned : s'.returned = s.returned)
    (hcleared : s'.cleared = s.cleared)
    (hopen : s.cleared = true → s'.client.isOpen = true → s.client.isOpen = true)
    (hopened : s'.openedAfter = s.openedAfter) (hhanded : s'.handedAfter = s.handedAfter) :
    s'.Law := by
  refine h.frame hreturned hcleared hopen ?_ hopened hhanded
  intro hyes
  rw [hno] at hyes
  cases hyes

/-- `close` returns where the condition lets it. -/
theorem Law.returnClose (h : s.Law) {i : Nat} (hclear : s.cleared = true)
    (hquiet : ∀ other ∈ s.threads, other.announcing = false ∧ other.handing = false) :
    (s.returnClose i).Law where
  cleared := fun _ => hclear
  shut := h.shut
  quiet := fun _ pc hpc => hquiet pc (List.mem_of_mem_eraseIdx hpc)
  opened := h.opened
  handed := h.handed

theorem Law.handleMessage (h : s.Law) (i now : Nat) (payload : Bytes) (isBinary : Bool) :
    (Closing.handleMessage T s i now payload isBinary).Law := by
  unfold Closing.handleMessage
  split
  · rename_i hother
    exact h.erase rfl rfl (handleTransportMessage_isOpen hother) rfl rfl rfl
  · rename_i text _
    have hkept := s.client.readHandshake_isOpen now (T.parse text)
    split
    · rename_i client _ hread
      rw [hread] at hkept
      exact h.erase rfl rfl (fun hopen => hkept.symm.trans hopen) rfl rfl rfl
    · rename_i client _ hread
      rw [hread] at hkept
      exact h.set ⟨rfl, rfl⟩ rfl rfl (fun hopen => hkept.symm.trans hopen) rfl rfl rfl

theorem goStep_law {i : Nat} (h : s.Law) (hC : s.Settled (.go i))
    (hstep : goStep T s i = some s') : s'.Law := by
  cases hpc : s.threads[i]? with
  | none =>
    simp only [goStep, hpc] at hstep
    cases hstep
  | some pc =>
    obtain ⟨hstore, hreturn⟩ := hC pc hpc
    cases pc with
    | closeExchange =>
      simp only [goStep, hpc] at hstep
      split at hstep
      · rename_i hclosing
        cases hstep
        obtain ⟨hclear, hquiet⟩ := hreturn hclosing
        exact h.returnClose hclear hquiet
      · cases hstep
        exact h.set ⟨rfl, rfl⟩ rfl rfl (fun hopen => hopen) rfl rfl rfl
    | closeStop =>
      simp only [goStep, hpc] at hstep
      cases hstep
      exact h.set ⟨rfl, rfl⟩ rfl rfl (fun hopen => hopen) rfl rfl rfl
    | closeClear =>
      simp only [goStep, hpc] at hstep
      cases hstep
      refine ⟨fun _ => rfl, fun _ => rfl, fun hret other hother => ?_, h.opened, h.handed⟩
      rcases List.mem_or_eq_of_mem_set hother with hold | rfl
      · exact h.quiet hret other hold
      · exact ⟨rfl, rfl⟩
    | closeTransport =>
      simp only [goStep, hpc] at hstep
      split at hstep
      · split at hstep <;>
        · cases hstep
          exact h.set ⟨rfl, rfl⟩ rfl rfl (fun hopen => hopen) rfl rfl rfl
      · cases hstep
        exact h.set ⟨rfl, rfl⟩ rfl rfl (fun hopen => hopen) rfl rfl rfl
    | closeReturn =>
      simp only [goStep, hpc] at hstep
      cases hstep
      obtain ⟨hclear, hquiet⟩ := hreturn rfl
      exact h.returnClose hclear hquiet
    | openTest =>
      simp only [goStep, hpc] at hstep
      split at hstep
      · cases hstep
        exact h.erase rfl rfl (fun hopen => hopen) rfl rfl rfl
      · cases hstep
        exact h.set ⟨rfl, rfl⟩ rfl rfl (fun hopen => hopen) rfl rfl rfl
    | openClear =>
      simp only [goStep, hpc] at hstep
      cases hstep
      exact h.erase rfl rfl (fun hopen => by cases hopen) rfl rfl rfl
    | sendTest payload isBinary =>
      simp only [goStep, hpc] at hstep
      split at hstep
      · cases hstep
        exact h.erase rfl rfl (fun hopen => hopen) rfl rfl rfl
      · rename_i htest
        cases hstep
        -- the test found `open_`, so it has not been cleared for good
        have hno : s.returned = false := by
          cases hreturned : s.returned with
          | false => rfl
          | true =>
            rw [h.shut (h.cleared hreturned)] at htest
            simp at htest
        exact h.busy hno rfl rfl (fun _ hopen => hopen) rfl rfl
    | sendHand payload isBinary =>
      have hno := h.not_returned hpc (.inr rfl)
      simp only [goStep, hpc, hno] at hstep
      cases hstep
      exact h.busy hno rfl rfl (fun _ hopen => hopen) rfl rfl
    | handle now payload isBinary =>
      simp only [goStep, hpc] at hstep
      cases hstep
      exact h.handleMessage i now payload isBinary
    | openStore sid =>
      simp only [goStep, hpc] at hstep
      cases hstep
      have hnot := hstore ⟨sid, rfl⟩
      have hno : s.returned = false := by
        cases hreturned : s.returned with
        | false => rfl
        | true =>
          rw [h.cleared hreturned] at hnot
          cases hnot
      refine h.busy hno rfl rfl ?_ rfl rfl
      intro hclear
      rw [hnot] at hclear
      cases hclear
    | openTimer =>
      have hno := h.not_returned hpc (.inl rfl)
      simp only [goStep, hpc] at hstep
      cases hstep
      refine h.busy hno rfl rfl (fun _ hopen => ?_) rfl rfl
      rw [← startHeartbeatTimer_isOpen]
      exact hopen
    | openNotify =>
      have hno := h.not_returned hpc (.inl rfl)
      simp only [goStep, hpc, hno, Bool.and_false] at hstep
      cases hstep
      exact h.busy hno rfl rfl (fun _ hopen => hopen) rfl rfl

theorem step_law {a : Action} (h : s.Law) (hC : s.Settled a) (hstep : step T s a = some s') :
    s'.Law := by
  cases a with
  | close =>
    cases hstep
    exact h.begin ⟨rfl, rfl⟩
  | openUrl =>
    cases hstep
    exact h.begin ⟨rfl, rfl⟩
  | send payload isBinary =>
    cases hstep
    exact h.begin ⟨rfl, rfl⟩
  | receive now payload isBinary =>
    simp only [step] at hstep
    split at hstep
    · cases hstep
    · cases hstep
      exact h.begin ⟨rfl, rfl⟩
  | go i => exact goStep_law h hC hstep
  | transportClose reason =>
    cases hstep
    exact h.frame rfl rfl (fun _ hopen => by cases hopen) (fun _ pc hpc => .inl hpc) rfl
      rfl
  | strandClose =>
    simp only [step] at hstep
    split at hstep
    · cases hstep
      exact h.frame rfl rfl (fun _ hopen => hopen) (fun _ pc hpc => .inl hpc) rfl rfl
    · cases hstep
  | transportStops =>
    cases hstep
    exact h.frame rfl rfl (fun _ hopen => hopen) (fun _ pc hpc => .inl hpc) rfl rfl

/-- **Closed for good.** In every run in which no OPEN packet stores
`open_` after a `close` has cleared it, and in which a `close` returns only
when it is cleared and no other thread is between a test or a store of
`open_` and the call that follows from it: from the return on the client is
not open, `on_open_` is not called and `send` hands nothing over. -/
theorem staysClosed_of_settled (T : JsonText) (posts : Bool) (client : EngineIOClient)
    {as : List Action} {t : Closing} (hC : Meets (step T) Settled { posts, client } as)
    (hrun : run (step T) { posts, client } as = some t) : t.StaysClosed := by
  have hlaw : t.Law :=
    run_invariant (fun s a s' => step_law) as _ t (law_start posts client) hC hrun
  exact hlaw.staysClosed

/-! ## Calls without interruption -/

/-- The four steps of an OPEN packet, with no other thread in between, are
the handler of `Client.lean`. -/
theorem openSteps_handleOpen {now : Nat} {payload text : Bytes}
    (hthreads : s.threads = [.handle now payload false])
    (htext : openText payload false = some text)
    (hthrown : (s.client.handleOpen now (T.parse text)).thrown = none) :
    ∃ t, run (step T) s [.go 0, .go 0, .go 0, .go 0] = some t ∧ t.threads = [] ∧
      t.client = (s.client.handleOpen now (T.parse text)).client := by
  obtain ⟨posts, c, transportClosing, closePosted, threads, cleared, returned, opened, handed⟩ := s
  subst hthreads
  simp only at hthrown ⊢
  rw [EngineIOClient.handleOpen_eq] at hthrown ⊢
  cases hread : c.readHandshake now (T.parse text) with
  | mk client result =>
    rw [hread] at hthrown
    cases result with
    | error e => cases hthrown
    | ok sid =>
      have hfirst : step T ⟨posts, c, transportClosing, closePosted, [.handle now payload false],
          cleared, returned, opened, handed⟩ (.go 0) = some ⟨posts, client, transportClosing,
          closePosted, [.openStore sid], cleared, returned, opened, handed⟩ := by
        simp only [step, goStep, List.getElem?_cons_zero, handleMessage, htext, hread]
        rfl
      exact ⟨_, run_cons_iff.mpr ⟨_, hfirst, rfl⟩, rfl, rfl⟩

/-- The same for the first `close`. -/
theorem closeSteps_close (hthreads : s.threads = [.closeExchange])
    (hclosing : s.client.closing = false) :
    ∃ t, run (step T) s [.go 0, .go 0, .go 0, .go 0, .go 0] = some t ∧ t.threads = [] ∧
      t.returned = true ∧ t.client = s.client.close := by
  obtain ⟨posts, c, transportClosing, closePosted, threads, cleared, returned, opened, handed⟩ := s
  subst hthreads
  simp only at hclosing
  simp only [run, step, goStep, setThread, endThread, returnClose, List.getElem?_cons_zero,
    hclosing, EngineIOClient.close, Bool.false_eq_true, if_false, List.set_cons_zero]
  cases c.transport with
  | false => exact ⟨_, rfl, rfl, rfl, rfl⟩
  | true =>
    cases posts with
    | false => exact ⟨_, rfl, rfl, rfl, rfl⟩
    | true => exact ⟨_, rfl, rfl, rfl, rfl⟩

/-! ## A late OPEN packet -/

def handshakeText : Bytes := ascii "\x7b\"sid\":\"s\"\x7d"

def handshakePacket : Bytes := byteOf '0' :: handshakeText

/-- A fresh client, or one that is closing, after the handshake was read. -/
theorem readHandshake_handshakeText (closing : Bool) :
    ({ closing } : EngineIOClient).readHandshake 0
      (ReferenceText.referenceText.parse handshakeText) = ({ closing }, .ok (ascii "s")) := by
  have hparse : ReferenceText.referenceText.parse handshakeText
      = some (.obj [(ascii "sid", .str (ascii "s"))]) :=
    ReferenceText.referenceText_lawful.parse_dump _ _ (by decide) rfl
  rw [hparse]
  rfl

abbrev textStep : Closing → Action → Option Closing := step ReferenceText.referenceText

/-- The thread of the transport reads the handshake. -/
theorem step_handshakePacket {s : Closing} {closing : Bool} {i : Nat}
    (hpc : s.threads[i]? = some (.handle 0 handshakePacket false))
    (hclient : s.client = { closing }) :
    textStep s (.go i)
      = some { s.setThread i (.openStore (ascii "s")) with client := { closing } } := by
  have htext : openText handshakePacket false = some handshakeText := rfl
  simp only [textStep, step, goStep, hpc, handleMessage, htext, hclient,
    readHandshake_handshakeText]

/-- The OPEN packet is taken in to its end before `close` is called. -/
def openedThenClosed : List Action :=
  .receive 0 handshakePacket false :: .go 0 ::
    [.go 0, .go 0, .go 0, .close, .go 0, .go 0, .go 0, .go 0, .go 0]

theorem run_openedThenClosed :
    ∃ t, run textStep {} openedThenClosed = some t ∧ t.returned = true ∧
      t.client.sessionId = ascii "s" :=
  ⟨_, run_cons_iff.mpr ⟨_, rfl, run_cons_iff.mpr ⟨_, step_handshakePacket rfl rfl, rfl⟩⟩, rfl, rfl⟩

/-- A statement that neither sets `open_` nor returns. -/
theorem settled_of_other {s : Closing} {i : Nat} {pc : ClosingPc} (hpc : s.threads[i]? = some pc)
    (hstore : ∀ sid, pc ≠ .openStore sid) (hreturns : s.returns pc = false) :
    s.Settled (.go i) := by
  intro other hother
  rw [hpc] at hother
  cases hother
  refine ⟨?_, ?_⟩
  · rintro ⟨sid, rfl⟩
    exact absurd rfl (hstore sid)
  · intro hyes
    rw [hreturns] at hyes
    cases hyes

theorem staysClosed_of_settled_openedThenClosed :
    ∃ t, run textStep {} openedThenClosed = some t ∧ t.returned = true ∧ t.StaysClosed := by
  obtain ⟨t, hrun, hreturned, _⟩ := run_openedThenClosed
  refine ⟨t, hrun, hreturned,
    staysClosed_of_settled ReferenceText.referenceText false {} ?_ hrun⟩
  refine (meets_cons_iff rfl).mpr ⟨trivial, ?_⟩
  refine (meets_cons_iff (step_handshakePacket rfl rfl)).mpr
    ⟨settled_of_other rfl (by intro sid h; cases h) rfl, ?_⟩
  refine (meets_cons_iff rfl).mpr ⟨fun pc hpc => ?_, ?_⟩
  · cases hpc
    exact ⟨fun _ => rfl, fun h => (by cases h)⟩
  iterate 2
    refine (meets_cons_iff rfl).mpr ⟨settled_of_other rfl (by intro sid h; cases h) rfl, ?_⟩
  refine (meets_cons_iff rfl).mpr ⟨trivial, ?_⟩
  iterate 4
    refine (meets_cons_iff rfl).mpr ⟨settled_of_other rfl (by intro sid h; cases h) rfl, ?_⟩
  refine (meets_cons_iff rfl).mpr ⟨fun pc hpc => ?_, trivial⟩
  cases hpc
  refine ⟨?_, fun _ => ⟨rfl, fun other hother => ?_⟩⟩
  · rintro ⟨sid, h⟩
    cases h
  · rw [List.mem_singleton.mp hother]
    exact ⟨rfl, rfl⟩

/-- The transport has passed its test when `close` runs from start to end;
then the OPEN packet is handled, and a message is sent. -/
def closedThenOpened : List Action :=
  [.receive 0 handshakePacket false, .close, .go 1, .go 1, .go 1, .go 1, .go 1] ++ .go 0 ::
    [.go 0, .go 0, .go 0, .send (ascii "2[]") false, .go 0, .go 0]

/-- The client is open again, its handler was called and the message went
to the transport. -/
theorem closedThenOpened_opens :
    ∃ t, run textStep {} closedThenOpened = some t ∧ t.returned = true ∧
      t.client.isOpen = true ∧ t.openedAfter = 1 ∧
      t.handedAfter = [.transportSend (ascii "42[]") false] ∧ ¬ t.StaysClosed := by
  have hclosed : run textStep {} [.receive 0 handshakePacket false, .close, .go 1, .go 1, .go 1,
      .go 1, .go 1] = some
        { client := { closing := true }, transportClosing := true, cleared := true,
          returned := true, threads := [.handle 0 handshakePacket false] } := rfl
  refine ⟨_, run_append hclosed (run_cons_iff.mpr ⟨_, step_handshakePacket rfl rfl, rfl⟩), rfl, rfl,
    rfl, rfl, fun hstays => ?_⟩
  cases (hstays rfl).1

end Closing

end Sioxx
