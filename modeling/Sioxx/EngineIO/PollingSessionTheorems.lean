/-
Sioxx.EngineIO.PollingSessionTheorems — the two ends of an
`http_polling_transport`: what is sent too early, and the packet that ends
the session.

`send` tests the state and drops what comes before the transport is open,
so nothing of it is ever posted (`EarlyDropped`).

The close packet should be the last request of the session (`CloseLast`).
In neither mode does `close` wait for the others:

  * with threads of its own the transport posts it on one more thread,
    while the thread in `run_writes` still sends what is queued or waits
    for a response;
  * on the strand the queue is cleared and the requests are cancelled, but
    the cancellation misses a request whose resolution has completed and
    whose handler is still to run, as it has no socket yet.

The packet is last exactly if `close` finds nothing of this kind
(`Drained`). From there on the transport stays quiet (`Quiet`).
-/
import Sioxx.EngineIO.PollingSession
import Sioxx.EngineIO.PollingWritesTheorems

namespace Sioxx

open Lib

/-! ## Early sends -/

namespace PollingWrites

variable {s s' : PollingWrites}

theorem startNextExternalWrite_accepted (s : PollingWrites) :
    s.startNextExternalWrite.accepted = s.accepted ∧
      s.startNextExternalWrite.strand = s.strand := by
  rcases startNextExternalWrite_cases s with ⟨heq, -⟩ | ⟨write, rest, -, -, -, heq⟩
  · rw [heq]
    exact ⟨rfl, rfl⟩
  · rw [heq]
    exact ⟨rfl, rfl⟩

theorem failStep_accepted (s : PollingWrites) :
    s.failStep.accepted = s.accepted ∧ s.failStep.strand = s.strand := by
  unfold failStep
  split
  · exact ⟨rfl, rfl⟩
  · split <;> exact ⟨rfl, rfl⟩

/-- Only a send has a write accepted. -/
theorem step_accepted {a : Action} (hsend : ∀ payload isBinary, a ≠ .send payload isBinary)
    (hstrand : a ≠ .strandSend) (hstep : s.step a = some s') :
    s'.accepted = s.accepted ∧ s'.strand = s.strand := by
  cases a with
  | send payload isBinary => exact absurd rfl (hsend payload isBinary)
  | strandSend => exact absurd rfl hstrand
  | respond success =>
    simp only [step, respondStep] at hstep
    split at hstep
    · split at hstep
      · cases hstep
        split
        · exact ⟨rfl, rfl⟩
        · exact failStep_accepted _
      · cases hstep
    · split at hstep
      · cases hstep
      · cases hstep
        split
        · exact ⟨rfl, rfl⟩
        · split
          · exact startNextExternalWrite_accepted _
          · exact failStep_accepted _
  | fail =>
    cases hstep
    exact failStep_accepted s
  | takeWrite | startRequest | clearQueue | close =>
    simp only [step] at hstep
    (repeat' split at hstep) <;> cases hstep <;> exact ⟨rfl, rfl⟩

end PollingWrites

namespace PollingSession

variable {s s' : PollingSession}

/-- A write that is queued on an open transport is accepted. -/
theorem queueWrite_accepted {write : Write} {writes : PollingWrites}
    (hopen : s.writes.closing = false) (hstrand : s.writes.strand = [])
    (h : s.queueWrite write = some writes) :
    writes.accepted = s.writes.accepted ++ [write] ∧ writes.strand = [] := by
  unfold queueWrite at h
  split at h
  · rename_i hmode
    have hmode : s.writes.mode = .managed := hmode
    simp only [PollingWrites.step, hmode, PollingWrites.enqueue, hopen] at h
    cases h
    exact ⟨rfl, hstrand⟩
  · rename_i hmode
    have hmode : s.writes.mode = .callerOwned := hmode
    simp only [run, PollingWrites.step, hmode, hstrand, List.nil_append, hopen] at h
    cases h
    simp only [Bool.false_eq_true, if_false]
    obtain ⟨haccepted, hnone⟩ := PollingWrites.startNextExternalWrite_accepted _
    refine ⟨haccepted.trans ?_, hnone.trans ?_⟩ <;> simp [PollingWrites.enqueue]

theorem queueWrite_law {write : Write} {writes : PollingWrites} (hlaw : s.writes.Law)
    (h : s.queueWrite write = some writes) : writes.Law := by
  unfold queueWrite at h
  split at h
  · exact PollingWrites.step_law hlaw h
  · exact run_preserves PollingWrites.Law (fun _ _ _ hs hstep => PollingWrites.step_law hs hstep)
      hlaw h

/-- Each accepted write is that of a send processed on an open transport,
and they are in the order of the sends. -/
structure Sourced (s : PollingSession) : Prop where
  law : s.writes.Law
  strand : s.writes.strand = []
  length : s.sources.length = s.writes.accepted.length
  open_ : ∀ (i n : Nat), s.sources[i]? = some n → ∃ send, s.processed[n]? = some send ∧
    s.writes.accepted[i]? = some send.write ∧ send.wasOpen = true
  increasing : s.sources.Pairwise (· < ·)

theorem sourced_start (mode : PollingMode) : (start mode).Sourced where
  law := PollingWrites.law_start mode
  strand := rfl
  length := rfl
  open_ i n h := by simp [start] at h
  increasing := List.Pairwise.nil

theorem Sourced.below (h : s.Sourced) {n : Nat} (hn : n ∈ s.sources) : n < s.processed.length := by
  obtain ⟨i, hi⟩ := List.mem_iff_getElem?.mp hn
  obtain ⟨send, hsend, -⟩ := h.open_ i n hi
  exact (List.getElem?_eq_some_iff.mp hsend).1

/-- A step that processes no send. -/
theorem Sourced.frame (h : s.Sourced) (hlaw : s'.writes.Law)
    (haccepted : s'.writes.accepted = s.writes.accepted)
    (hstrand : s'.writes.strand = s.writes.strand) (hsources : s'.sources = s.sources)
    (hprocessed : s'.processed = s.processed) : s'.Sourced := by
  refine ⟨hlaw, hstrand.trans h.strand, ?_, fun i n hi => ?_, hsources ▸ h.increasing⟩
  · rw [hsources, haccepted]
    exact h.length
  · rw [hsources] at hi
    rw [hprocessed, haccepted]
    exact h.open_ i n hi

theorem Sourced.writeStep {a : PollingWrites.Action} (h : s.Sourced)
    (hsend : ∀ payload isBinary, a ≠ .send payload isBinary) (hstrand : a ≠ .strandSend)
    (hstep : s.writeStep a = some s') : s'.Sourced := by
  obtain ⟨writes, hwrites, rfl⟩ := Option.map_eq_some_iff.mp hstep
  obtain ⟨haccepted, hkept⟩ := PollingWrites.step_accepted hsend hstrand hwrites
  exact h.frame (PollingWrites.step_law h.law hwrites) haccepted hkept rfl rfl

theorem Sourced.sendStep {write : Write} (h : s.Sourced) (hstep : s.sendStep write = some s') :
    s'.Sourced := by
  have hold : ∀ (wasOpen : Bool) (i n : Nat), s.sources[i]? = some n → ∃ send,
      (s.processed ++ [⟨write, wasOpen⟩])[n]? = some send ∧
        s.writes.accepted[i]? = some send.write ∧ send.wasOpen = true := by
    intro wasOpen i n hi
    obtain ⟨send, hsend, hrest⟩ := h.open_ i n hi
    have hlt := (List.getElem?_eq_some_iff.mp hsend).1
    exact ⟨send, by rw [List.getElem?_append_left hlt]; exact hsend, hrest⟩
  unfold PollingSession.sendStep at hstep
  dsimp only at hstep
  split at hstep
  · cases hstep
    exact ⟨h.law, h.strand, h.length, hold _, h.increasing⟩
  · rename_i hcond
    simp only [Bool.or_eq_true, Bool.not_eq_true', not_or, Bool.not_eq_true, Bool.not_eq_false]
      at hcond
    obtain ⟨writes, hwrites, rfl⟩ := Option.map_eq_some_iff.mp hstep
    obtain ⟨haccepted, hstrand⟩ := queueWrite_accepted hcond.1 h.strand hwrites
    refine ⟨queueWrite_law h.law hwrites, hstrand, ?_, fun i n hi => ?_, ?_⟩
    · show (s.sources ++ [s.processed.length]).length = writes.accepted.length
      rw [haccepted, List.length_append, List.length_append, h.length]
      rfl
    · show ∃ send, (s.processed ++ [⟨write, s.state == .open⟩])[n]? = some send ∧
        writes.accepted[i]? = some send.write ∧ send.wasOpen = true
      have hi : (s.sources ++ [s.processed.length])[i]? = some n := hi
      rw [haccepted]
      rcases Nat.lt_or_ge i s.sources.length with hlt | hge
      · rw [List.getElem?_append_left hlt] at hi
        obtain ⟨send, hsend, haccept, hopen⟩ := hold (s.state == .open) i n hi
        have hlt' := (List.getElem?_eq_some_iff.mp haccept).1
        exact ⟨send, hsend, by rw [List.getElem?_append_left hlt']; exact haccept, hopen⟩
      · rw [List.getElem?_append_right hge] at hi
        obtain ⟨hlt, hn⟩ := List.getElem?_eq_some_iff.mp hi
        simp only [List.length_singleton] at hlt
        obtain rfl : i = s.sources.length := by omega
        simp only [Nat.sub_self, List.getElem_singleton] at hn
        subst hn
        exact ⟨⟨write, s.state == .open⟩, List.getElem?_concat_length,
          h.length ▸ List.getElem?_concat_length, hcond.2⟩
    · show (s.sources ++ [s.processed.length]).Pairwise (· < ·)
      rw [List.pairwise_append]
      refine ⟨h.increasing, List.pairwise_singleton _ _, fun n hn k hk => ?_⟩
      rw [List.mem_singleton.mp hk]
      exact h.below hn

theorem Sourced.step {a : Action} (h : s.Sourced) (hstep : s.step a = some s') : s'.Sourced := by
  cases a with
  | send payload isBinary =>
    simp only [PollingSession.step] at hstep
    split at hstep
    · exact h.sendStep hstep
    · cases hstep
      exact h.frame h.law rfl rfl rfl rfl
  | strandSend =>
    simp only [PollingSession.step] at hstep
    split at hstep
    · cases hstep
    · rename_i write posted hposted
      have htake : Sourced { s with posted } := h.frame h.law rfl rfl rfl rfl
      exact htake.sendStep hstep
  | takeWrite => exact h.writeStep (by simp) (by simp) hstep
  | startRequest =>
    obtain ⟨t, ht, rfl⟩ := Option.map_eq_some_iff.mp hstep
    have hsourced := h.writeStep (by simp) (by simp) ht
    unfold countAfterClose
    split
    · exact hsourced.frame hsourced.law rfl rfl rfl rfl
    · exact hsourced
  | clearQueue => exact h.writeStep (by simp) (by simp) hstep
  | respond success =>
    simp only [PollingSession.step] at hstep
    split at hstep
    · exact h.writeStep (by simp) (by simp) hstep
    · split at hstep
      · cases hstep
      · exact h.writeStep (by simp) (by simp) hstep
  | fail =>
    simp only [PollingSession.step] at hstep
    split at hstep
    · have hcancel : Sourced { s with stage := s.stage.cancel } := h.frame h.law rfl rfl rfl rfl
      exact hcancel.writeStep (by simp) (by simp) hstep
    · exact h.writeStep (by simp) (by simp) hstep
  | close =>
    simp only [PollingSession.step, closeStep] at hstep
    split at hstep
    · cases hstep
      exact h
    · obtain ⟨writes, hwrites, rfl⟩ := Option.map_eq_some_iff.mp hstep
      obtain ⟨haccepted, hkept⟩ := PollingWrites.step_accepted (by simp) (by simp) hwrites
      have hlaw := PollingWrites.step_law h.law hwrites
      split
      · exact h.frame hlaw haccepted hkept rfl rfl
      · split
        · exact h.frame hlaw haccepted hkept rfl rfl
        · exact h.frame hlaw haccepted hkept rfl rfl
  | connect | opened | openPacket | setSid | requestResolved | requestConnects | closeRead
  | closePost =>
    simp only [PollingSession.step, countAfterClose, postClose] at hstep
    (repeat' split at hstep) <;> cases hstep <;>
      first | exact h | exact h.frame h.law rfl rfl rfl rfl

/-- What is posted was sent while the transport was open: the body number
`i` is that of the send number `sources[i]`, and the sends are in order. -/
structure EarlyDropped (s : PollingSession) : Prop where
  posted : ∀ (i : Nat) (body : Bytes), s.writes.bodies[i]? = some body → ∃ n send,
    s.sources[i]? = some n ∧ s.processed[n]? = some send ∧ body = send.write.body ∧
      send.wasOpen = true
  increasing : s.sources.Pairwise (· < ·)

theorem Sourced.earlyDropped (h : s.Sourced) : s.EarlyDropped := by
  have hfront : s.writes.bodies <+: s.writes.accepted.map Write.body :=
    h.law.reachable.law.started_prefix
  refine ⟨fun i body hi => ?_, h.increasing⟩
  obtain ⟨hlt, rfl⟩ := List.getElem?_eq_some_iff.mp hi
  have haccepted : i < s.writes.accepted.length := by
    have := hfront.length_le
    rw [List.length_map] at this
    omega
  have hsource : i < s.sources.length := by
    rw [h.length]
    exact haccepted
  obtain ⟨send, hsend, hwrite, hopen⟩ := h.open_ i _ (List.getElem?_eq_getElem hsource)
  refine ⟨_, send, List.getElem?_eq_getElem hsource, hsend, ?_, hopen⟩
  rw [List.getElem?_eq_getElem haccepted] at hwrite
  rw [hfront.getElem hlt, List.getElem_map, Option.some.inj hwrite]

end PollingSession

/-! ## The close packet -/

namespace PollingWrites

variable {s s' : PollingWrites}

/-- Closed, and nothing is left of the writes but perhaps asynchronous
requests. -/
structure Still (s : PollingWrites) : Prop where
  closing : s.closing = true
  queue : s.writeQueue = []
  held : s.writer.held = none
  inFlight : s.writer.inFlight = 0

theorem step_mode {a : Action} (hstep : s.step a = some s') :
    s'.mode = s.mode ∧ (s.closing = true → s'.closing = true) := by
  cases a with
  | respond success =>
    simp only [step, respondStep, failStep, startNextExternalWrite] at hstep
    (repeat' split at hstep) <;> cases hstep <;> first | exact ⟨rfl, id⟩ | exact ⟨rfl, fun _ => rfl⟩
  | send | strandSend | takeWrite | startRequest | fail | clearQueue | close =>
    simp only [step, enqueue, failStep, startNextExternalWrite] at hstep
    (repeat' split at hstep) <;> cases hstep <;> first | exact ⟨rfl, id⟩ | exact ⟨rfl, fun _ => rfl⟩

/-- From there on nothing is started. -/
theorem Still.step {a : Action} (h : s.Still) (hstep : s.step a = some s') :
    s'.Still ∧ s'.bodies = s.bodies ∧ (s.externalRequests = 0 → s'.externalRequests = 0) := by
  obtain ⟨hclosing, hqueue, hheld, hflight⟩ := h
  have hkept : s.Still := ⟨hclosing, hqueue, hheld, hflight⟩
  cases a with
  | send payload isBinary =>
    simp only [PollingWrites.step, enqueue, hclosing, if_true] at hstep
    split at hstep <;> cases hstep <;> exact ⟨⟨rfl, hqueue, hheld, hflight⟩, rfl, id⟩
  | strandSend =>
    simp only [PollingWrites.step, hclosing, if_true] at hstep
    split at hstep <;> cases hstep
    exact ⟨⟨rfl, hqueue, hheld, hflight⟩, rfl, id⟩
  | takeWrite =>
    simp only [PollingWrites.step, hqueue, hclosing, if_true] at hstep
    split at hstep <;> cases hstep
    exact ⟨⟨rfl, rfl, rfl, rfl⟩, rfl, id⟩
  | startRequest =>
    simp only [PollingWrites.step] at hstep
    split at hstep
    · rename_i write hwriter
      rw [hwriter] at hheld
      cases hheld
    · cases hstep
  | respond success =>
    simp only [PollingWrites.step, respondStep, hclosing, if_true] at hstep
    split at hstep
    · split at hstep
      · rename_i hwriter
        rw [hwriter] at hflight
        cases hflight
      · cases hstep
    · split at hstep
      · cases hstep
      · rename_i hsome
        cases hstep
        exact ⟨⟨rfl, hqueue, hheld, hflight⟩, rfl, fun hnone => absurd hnone hsome⟩
  | fail =>
    simp only [PollingWrites.step, failStep, hclosing, if_true] at hstep
    cases hstep
    exact ⟨hkept, rfl, id⟩
  | clearQueue =>
    simp only [PollingWrites.step] at hstep
    split at hstep <;> cases hstep
    exact ⟨⟨hclosing, rfl, hheld, hflight⟩, rfl, id⟩
  | close =>
    simp only [PollingWrites.step] at hstep
    split at hstep <;> cases hstep
    · exact ⟨⟨rfl, hqueue, hheld, hflight⟩, rfl, id⟩
    · exact ⟨⟨rfl, rfl, hheld, hflight⟩, rfl, id⟩

end PollingWrites

namespace PollingSession

variable {s s' : PollingSession}

/-- When the close packet was posted there was no other POST request in
flight or to come, and none went out afterwards. -/
def CloseLast (s : PollingSession) : Prop := s.leftAtClose = 0 ∧ s.afterClose = 0

/-- With threads of its own: when `close` reads the session id, nothing is
queued and the thread in `run_writes` has no write. On the strand: when
`close` runs, there is no request that is resolved and not connected. -/
def Drained (s : PollingSession) : Action → Prop
  | .closeRead => s.hasSid = true →
      s.writes.writeQueue = [] ∧ s.writes.writer.held = none ∧ s.writes.writer.inFlight = 0
  | .close => s.mode = .callerOwned → s.shutdownOnce = false → s.hasSid = true →
      s.writes.externalRequests = 0 ∨ s.stage ≠ .resolved
  | _ => True

/-- The completions of a run: the thread for the close packet makes its
request. -/
def Posts (_ : PollingSession) (a : Action) : Prop := a = .closePost

/-- Nothing of the writes can go out any more. -/
structure Quiet (s : PollingSession) : Prop where
  still : s.writes.Still
  requests : s.writes.externalRequests = 0 ∨ s.stage = .cancelled

theorem Quiet.pendingPosts (h : s.Quiet) : s.pendingPosts = 0 := by
  obtain ⟨-, hqueue, hheld, hflight⟩ := h.still
  unfold PollingSession.pendingPosts
  rw [hqueue, hheld, hflight]
  rcases h.requests with hnone | hcancelled
  · simp [hnone]
  · simp [hcancelled]

theorem not_quiet (hsome : s.writes.externalRequests ≠ 0) (hstage : s.stage ≠ .cancelled) :
    ¬ s.Quiet := by
  intro h
  rcases h.requests with hnone | hcancelled
  · exact hsome hnone
  · exact hstage hcancelled

theorem Quiet.frame (h : s.Quiet) (hwrites : s'.writes = s.writes) (hstage : s'.stage = s.stage) :
    s'.Quiet := by
  refine ⟨hwrites ▸ h.still, ?_⟩
  rw [hwrites, hstage]
  exact h.requests

theorem Quiet.writeStep {a : PollingWrites.Action} (h : s.Quiet) (hstep : s.writeStep a = some s') :
    s'.Quiet := by
  obtain ⟨writes, hwrites, rfl⟩ := Option.map_eq_some_iff.mp hstep
  obtain ⟨hstill, hbodies, hnone⟩ := h.still.step hwrites
  refine ⟨hstill, h.requests.imp hnone fun hcancelled => ?_⟩
  simp [withWrites, hbodies, hcancelled]

/-- What holds along the runs that meet the condition. -/
structure Last (s : PollingSession) : Prop where
  law : s.writes.Law
  closeLast : s.CloseLast
  once : s.closePacket ≠ .notCalled → s.shutdownOnce = true
  closing : s.shutdownOnce = true → s.writes.closing = true
  managed : s.closePacket = .reading → s.mode = .managed
  quiet : s.closePacket = .spawned ∨ s.closePacket = .posted → s.Quiet

theorem last_start (mode : PollingMode) : (start mode).Last where
  law := PollingWrites.law_start mode
  closeLast := ⟨rfl, rfl⟩
  once h := absurd rfl h
  closing h := by cases h
  managed h := by cases h
  quiet h := by rcases h with h | h <;> cases h

/-- The steps in which `close` gets no further. -/
theorem Last.frame (h : s.Last) (hlaw : s'.writes.Law) (hpacket : s'.closePacket = s.closePacket)
    (hcounts : s'.leftAtClose = s.leftAtClose ∧ s'.afterClose = s.afterClose)
    (honce : s'.shutdownOnce = s.shutdownOnce) (hmode : s'.writes.mode = s.writes.mode)
    (hclosing : s.writes.closing = true → s'.writes.closing = true)
    (hquiet : s.Quiet → s'.Quiet) : s'.Last := by
  refine ⟨hlaw, ?_, ?_, fun hdone => ?_, fun hreading => ?_, fun hspawned => ?_⟩
  · unfold CloseLast
    rw [hcounts.1, hcounts.2]
    exact h.closeLast
  · rw [hpacket, honce]
    exact h.once
  · exact hclosing (h.closing (honce ▸ hdone))
  · exact hmode.trans (h.managed (hpacket ▸ hreading))
  · exact hquiet (h.quiet (hpacket ▸ hspawned))

/-- The steps that do not touch the writes. -/
theorem Last.keep (h : s.Last) (hwrites : s'.writes = s.writes) (hstage : s'.stage = s.stage)
    (hpacket : s'.closePacket = s.closePacket)
    (hcounts : s'.leftAtClose = s.leftAtClose ∧ s'.afterClose = s.afterClose)
    (honce : s'.shutdownOnce = s.shutdownOnce) : s'.Last := by
  refine h.frame (hwrites ▸ h.law) hpacket hcounts honce (by rw [hwrites]) (fun hc => ?_)
    fun hquiet => hquiet.frame hwrites hstage
  rw [hwrites]
  exact hc

theorem Last.writeStep {a : PollingWrites.Action} (h : s.Last) (hstep : s.writeStep a = some s') :
    s'.Last := by
  have hquiet : s.Quiet → s'.Quiet := fun hquiet => hquiet.writeStep hstep
  obtain ⟨writes, hwrites, rfl⟩ := Option.map_eq_some_iff.mp hstep
  obtain ⟨hmode, hclosing⟩ := PollingWrites.step_mode hwrites
  exact h.frame (PollingWrites.step_law h.law hwrites) rfl ⟨rfl, rfl⟩ rfl hmode hclosing hquiet

theorem queueWrite_mode {write : Write} {writes : PollingWrites}
    (h : s.queueWrite write = some writes) : writes.mode = s.writes.mode := by
  unfold queueWrite at h
  split at h
  · exact (PollingWrites.step_mode h).1
  · obtain ⟨t, ht, hrun⟩ := run_cons_iff.mp h
    obtain ⟨u, hu, hrun⟩ := run_cons_iff.mp hrun
    cases hrun
    exact (PollingWrites.step_mode hu).1.trans (PollingWrites.step_mode ht).1

theorem Last.sendStep {write : Write} (h : s.Last) (hstep : s.sendStep write = some s') :
    s'.Last := by
  unfold PollingSession.sendStep at hstep
  dsimp only at hstep
  split at hstep
  · cases hstep
    exact h.keep rfl rfl rfl ⟨rfl, rfl⟩ rfl
  · rename_i hcond
    simp only [Bool.or_eq_true, not_or, Bool.not_eq_true] at hcond
    obtain ⟨writes, hwrites, rfl⟩ := Option.map_eq_some_iff.mp hstep
    have hnever : ∀ {P : Prop}, s.writes.closing = true → P := by
      intro P hclosing
      rw [hcond.1] at hclosing
      cases hclosing
    exact h.frame (queueWrite_law h.law hwrites) rfl ⟨rfl, rfl⟩ rfl (queueWrite_mode hwrites)
      (fun hclosing => hnever hclosing) (fun hquiet => hnever hquiet.still.closing)

theorem Last.not_posted (h : s.Last) (hnot : ¬ s.Quiet) : s.closePacket ≠ .posted :=
  fun hposted => hnot (h.quiet (.inr hposted))

theorem Last.countAfterClose (h : s.Last) (hnot : s.closePacket ≠ .posted) :
    s.countAfterClose.Last := by
  unfold PollingSession.countAfterClose
  rw [if_neg hnot]
  exact h

/-- The request starts when everything is quiet. -/
theorem Quiet.postClose (hquiet : s.Quiet) (hlaw : s.writes.Law) (hlast : s.CloseLast)
    (honce : s.shutdownOnce = true) : s.postClose.Last := by
  have hleft : s.leftAtClose + s.pendingPosts = 0 := by
    rw [hquiet.pendingPosts]
    exact hlast.1
  exact ⟨hlaw, ⟨hleft, hlast.2⟩, fun _ => honce, fun _ => hquiet.still.closing,
    (fun hreading => by cases hreading), fun _ => hquiet.frame rfl rfl⟩

theorem cancel_eq {stage : RequestStage} (h : stage ≠ .resolved) : stage.cancel = .cancelled := by
  cases stage with
  | resolved => exact absurd rfl h
  | resolving | exchanging | cancelled => rfl

theorem Last.closeStep (h : s.Last) (hcond : Drained s .close) (hstep : s.closeStep = some s') :
    s'.Last := by
  unfold PollingSession.closeStep at hstep
  split at hstep
  · cases hstep
    exact h
  · rename_i hfirst
    rw [Bool.not_eq_true] at hfirst
    obtain ⟨writes, hwrites, rfl⟩ := Option.map_eq_some_iff.mp hstep
    have hlaw := PollingWrites.step_law h.law hwrites
    cases hmode : s.writes.mode with
    | managed =>
      simp only [PollingWrites.step, hmode] at hwrites
      cases hwrites
      simp only [mode, hmode]
      exact ⟨hlaw, h.closeLast, fun _ => rfl, fun _ => rfl, fun _ => rfl, fun hspawned => by
        rcases hspawned with hspawned | hspawned <;> cases hspawned⟩
    | callerOwned =>
      simp only [PollingWrites.step, hmode] at hwrites
      cases hwrites
      have hended : s.writes.writer = .ended := h.law.apart.callerOwned hmode
      simp only [mode, hmode]
      split
      · rename_i hsid
        refine Quiet.postClose ⟨⟨rfl, rfl, ?_, ?_⟩, ?_⟩ hlaw h.closeLast rfl
        · exact congrArg WritesPc.held hended
        · exact congrArg WritesPc.inFlight hended
        · exact (hcond hmode hfirst hsid).imp id cancel_eq
      · exact ⟨hlaw, h.closeLast, fun _ => rfl, fun _ => rfl, (fun hreading => by cases hreading),
          fun hspawned => by rcases hspawned with hspawned | hspawned <;> cases hspawned⟩

theorem Last.step {a : Action} (h : s.Last) (hcond : Drained s a) (hstep : s.step a = some s') :
    s'.Last := by
  cases a with
  | close => exact h.closeStep hcond hstep
  | closeRead =>
    simp only [PollingSession.step] at hstep
    split at hstep
    · rename_i hreading
      cases hstep
      have hmode := h.managed hreading
      have honce := h.once (by rw [hreading]; decide)
      cases hsid : s.hasSid with
      | true =>
        obtain ⟨hqueue, hheld, hflight⟩ := hcond hsid
        refine ⟨h.law, h.closeLast, fun _ => honce, h.closing, (fun hr => by cases hr), fun _ => ?_⟩
        exact ⟨⟨h.closing honce, hqueue, hheld, hflight⟩, .inl (h.law.apart.managed hmode).1⟩
      | false =>
        exact ⟨h.law, h.closeLast, fun _ => honce, h.closing, (fun hr => by cases hr),
          fun hspawned => by rcases hspawned with hspawned | hspawned <;> cases hspawned⟩
    · cases hstep
  | closePost =>
    simp only [PollingSession.step] at hstep
    split at hstep
    · rename_i hspawned
      cases hstep
      exact (h.quiet (.inl hspawned)).postClose h.law h.closeLast
        (h.once (by rw [hspawned]; decide))
    · cases hstep
  | send payload isBinary =>
    simp only [PollingSession.step] at hstep
    split at hstep
    · exact h.sendStep hstep
    · cases hstep
      exact h.keep rfl rfl rfl ⟨rfl, rfl⟩ rfl
  | strandSend =>
    simp only [PollingSession.step] at hstep
    split at hstep
    · cases hstep
    · rename_i write posted hposted
      have htake : Last { s with posted } := h.keep rfl rfl rfl ⟨rfl, rfl⟩ rfl
      exact htake.sendStep hstep
  | takeWrite => exact h.writeStep hstep
  | clearQueue => exact h.writeStep hstep
  | startRequest =>
    obtain ⟨t, ht, rfl⟩ := Option.map_eq_some_iff.mp hstep
    have hlast := h.writeStep ht
    obtain ⟨writes, hwrites, rfl⟩ := Option.map_eq_some_iff.mp ht
    have hnot : ¬ s.Quiet := by
      intro hquiet
      have hheld := hquiet.still.held
      simp only [PollingWrites.step] at hwrites
      split at hwrites
      · rename_i write hwriter
        rw [hwriter] at hheld
        cases hheld
      · cases hwrites
    exact hlast.countAfterClose (h.not_posted hnot)
  | respond success =>
    simp only [PollingSession.step] at hstep
    split at hstep
    · exact h.writeStep hstep
    · split at hstep
      · cases hstep
      · exact h.writeStep hstep
  | fail =>
    simp only [PollingSession.step] at hstep
    split at hstep
    · rename_i hopen
      have hcancel : Last { s with stage := s.stage.cancel } :=
        h.frame h.law rfl ⟨rfl, rfl⟩ rfl rfl id fun hquiet => by
          have hclosing := hquiet.still.closing
          rw [hopen.2] at hclosing
          cases hclosing
      exact hcancel.writeStep hstep
    · exact h.writeStep hstep
  | requestResolved =>
    simp only [PollingSession.step] at hstep
    split at hstep
    · rename_i hresolving
      cases hstep
      have hnot := not_quiet hresolving.1 (by rw [hresolving.2]; decide)
      exact h.frame h.law rfl ⟨rfl, rfl⟩ rfl rfl id fun hquiet => absurd hquiet hnot
    · cases hstep
  | requestConnects =>
    simp only [PollingSession.step] at hstep
    split at hstep
    · rename_i hresolved
      cases hstep
      have hnot := not_quiet hresolved.1 (by rw [hresolved.2]; decide)
      have hlast : Last { s with stage := .exchanging } :=
        h.frame h.law rfl ⟨rfl, rfl⟩ rfl rfl id fun hquiet => absurd hquiet hnot
      exact hlast.countAfterClose (h.not_posted hnot)
    · cases hstep
  | connect | opened | openPacket | setSid =>
    simp only [PollingSession.step] at hstep
    (repeat' split at hstep) <;> cases hstep <;>
      first | exact h | exact h.keep rfl rfl rfl ⟨rfl, rfl⟩ rfl

/-- If `close` finds something left, then the close packet can be posted
while it is there. -/
theorem not_drained_breaks {a : Action} (hcond : ¬ Drained s a)
    (hstep : s.step a = some s') :
    ∃ bs u, Meets PollingSession.step Posts s' bs ∧ run PollingSession.step s' bs = some u ∧
      ¬ u.CloseLast := by
  cases a with
  | closeRead =>
    obtain ⟨hsid, hleft⟩ := Classical.not_imp.mp hcond
    simp only [PollingSession.step, hsid, if_true] at hstep
    split at hstep
    · cases hstep
      refine ⟨[.closePost], _, ⟨rfl, fun _ _ => trivial⟩, run_cons_iff.mpr ⟨_, rfl, rfl⟩, ?_⟩
      intro hlast
      have hnone : s.leftAtClose + s.pendingPosts = 0 := hlast.1
      unfold pendingPosts at hnone
      refine hleft ⟨List.length_eq_zero_iff.mp (by omega), ?_, by omega⟩
      have hheld : s.writes.writer.held.toList = [] := List.length_eq_zero_iff.mp (by omega)
      simpa using hheld
    · cases hstep
  | close =>
    simp only [Drained, Classical.not_imp, not_or, not_not] at hcond
    obtain ⟨hmode, hfirst, hsid, hsome, hresolved⟩ := hcond
    refine ⟨[], s', trivial, rfl, fun hlast => hsome ?_⟩
    have hmode : s.writes.mode = .callerOwned := hmode
    simp only [PollingSession.step, closeStep, hfirst, mode, hmode, hsid, hresolved,
      PollingWrites.step, Bool.false_eq_true, if_false, if_true, Option.map_some,
      RequestStage.cancel] at hstep
    cases hstep
    have hnone := hlast.1
    simp only [postClose, pendingPosts, reduceCtorEq, if_false] at hnone
    omega
  | _ => exact absurd trivial hcond

theorem Posts.drained {a : Action} (h : Posts s a) : Drained s a := by
  rw [h]
  trivial

/-- **The close packet comes last.** Along every run, in both modes, the
packet that ends the session is posted when no other POST request is in
flight or to come, and none goes out after it, exactly if `close` finds
the transport drained. -/
theorem closePacket_last_iff {mode : PollingMode} {as : List Action}
    (h : run PollingSession.step (start mode) as = some s) :
    Meets PollingSession.step Drained (start mode) as ↔
      ∀ k m bs u, run PollingSession.step (start mode) (as.take k) = some m →
        Meets PollingSession.step Posts m bs → run PollingSession.step m bs = some u →
        u.CloseLast :=
  meets_iff_completions (fun _ _ _ hs => hs.step) (fun _ hs => hs.closeLast)
    (fun _ _ => Posts.drained) (fun _ _ _ _ => not_drained_breaks) as (start mode) s
    (last_start mode) h

/-- The session is open and a write has been answered. -/
def answeredWrite : List Action :=
  [.connect, .opened, .openPacket, .setSid true, .send [4, 2] false, .takeWrite, .startRequest,
    .respond true, .close, .closeRead, .closePost]

theorem closePacket_last_iff_answered :
    ∃ s, run PollingSession.step (start .managed) answeredWrite = some s ∧
      s.closePacket = .posted ∧ s.writes.bodies = [[4, 2]] ∧
      (Meets PollingSession.step Drained (start .managed) answeredWrite ↔
        ∀ k m bs u, run PollingSession.step (start .managed) (answeredWrite.take k) = some m →
          Meets PollingSession.step Posts m bs → run PollingSession.step m bs = some u →
          u.CloseLast) := by
  have hrun : run PollingSession.step (start .managed) answeredWrite = some _ := rfl
  exact ⟨_, hrun, rfl, rfl, closePacket_last_iff hrun⟩

/-- `send` and then `close`, with the thread in `run_writes` behind the
one for the close packet. -/
def queuedWrite : List Action :=
  [.connect, .opened, .openPacket, .setSid true, .send [4, 2] false, .close, .closeRead, .closePost,
    .takeWrite, .startRequest]

/-- The same on the strand, where the request for the write is resolved
but not connected. -/
def resolvedWrite : List Action :=
  [.connect, .opened, .openPacket, .setSid true, .send [4, 2] false, .strandSend,
    .requestResolved, .close, .requestConnects]

/-- In both modes a write goes out after the close packet. -/
theorem writes_after_closePacket :
    (∃ s, run PollingSession.step (start .managed) queuedWrite = some s ∧
      s.closePacket = .posted ∧ s.leftAtClose = 1 ∧ s.afterClose = 1 ∧ ¬ s.CloseLast) ∧
    ∃ s, run PollingSession.step (start .callerOwned) resolvedWrite = some s ∧
      s.closePacket = .posted ∧ s.leftAtClose = 1 ∧ s.afterClose = 1 ∧ ¬ s.CloseLast := by
  have hmanaged : run PollingSession.step (start .managed) queuedWrite = some _ := rfl
  have hstrand : run PollingSession.step (start .callerOwned) resolvedWrite = some _ := rfl
  exact ⟨⟨_, hmanaged, rfl, rfl, rfl, fun hlast => Nat.zero_ne_one hlast.1.symm⟩,
    ⟨_, hstrand, rfl, rfl, rfl, fun hlast => Nat.zero_ne_one hlast.1.symm⟩⟩

end PollingSession

end Sioxx
