/-
Sioxx.EngineIO.EarlySendTheorems — what becomes of a payload that is sent
before the transport can write.

`websocket_transport` queues the payload and finds out in the pump that
there is no stream. The payload stays in the queue, and the next send that
starts the pump on a stream has it written first. There is a stream as soon
as the host is resolved (`start_plain`, `start_tls`): whether `async_write`
on it sends anything is then for the stream to decide, and every call of it
counts as written here. A run is safe exactly if no send starts the pump on
a stream while such a payload is queued (`NoEarlyQueued`): after one that
does, letting the handler finish is enough to write the early payload.

A polling transport drops the payload in `send`
(`PollingSessionTheorems.lean`), so the two differ.
-/
import Sioxx.EngineIO.PollingSessionTheorems
import Sioxx.EngineIO.WebSocketWritesTheorems

namespace Sioxx

open Lib

/-! ## Early payloads in the queue -/

namespace WebSocketWrites

variable {s s' : WebSocketWrites}

/-- The send of the entry was processed when there was a stream. -/
def Late (s : WebSocketWrites) (e : QueuedWrite) : Prop :=
  ∃ send, s.processed[e.send]? = some send ∧ send.hadStream = true

/-- No early payload is in the queue. -/
def QueueLate (s : WebSocketWrites) : Prop := ∀ e ∈ fresh s.writeQueue, s.Late e

def streamless (s : WebSocketWrites) : Bool := !s.wsPlain && !s.wsTls

theorem hasStream_streamless {tls : Bool} (h : s.hasStream tls = true) : s.streamless = false := by
  cases tls <;> simp_all [hasStream, streamless]

theorem setStream_streamless (s : WebSocketWrites) (tls : Bool) :
    (s.setStream tls).streamless = false := by
  cases tls <;> simp [setStream, streamless]

theorem setStream_frame (s : WebSocketWrites) (tls : Bool) :
    (s.setStream tls).processed = s.processed ∧ (s.setStream tls).writeQueue = s.writeQueue ∧
      (s.setStream tls).outstanding = s.outstanding ∧ (s.setStream tls).strand = s.strand := by
  cases tls <;> exact ⟨rfl, rfl, rfl, rfl⟩

theorem Late.mono {e : QueuedWrite} (h : s.Late e) (hprocessed : s.processed <+: s'.processed) :
    s'.Late e := by
  obtain ⟨send, hget, hlate⟩ := h
  obtain ⟨more, hmore⟩ := hprocessed
  refine ⟨send, ?_, hlate⟩
  rw [← hmore, List.getElem?_append_left (List.getElem?_eq_some_iff.mp hget).1]
  exact hget

theorem QueueLate.mono (h : s.QueueLate) (hprocessed : s.processed <+: s'.processed)
    (hqueue : fresh s'.writeQueue ⊆ fresh s.writeQueue) : s'.QueueLate :=
  fun e he => (h e (hqueue he)).mono hprocessed

/-- Until the transport closes a stream stays: the early sends are the
first ones. -/
structure EarlyFirst (s : WebSocketWrites) : Prop where
  early : s.streamless = true → ∀ send ∈ s.processed, send.hadStream = false
  sorted : s.processed.Pairwise fun a b => a.hadStream = true → b.hadStream = true
  stream : s.outstanding ≠ [] → s.streamless = false

theorem earlyFirst_start : EarlyFirst {} where
  early _ _ h := absurd h List.not_mem_nil
  sorted := List.Pairwise.nil
  stream h := absurd rfl h

theorem EarlyFirst.queueWrite (h : s.EarlyFirst) (write : Write) :
    (s.queueWrite write).EarlyFirst := by
  have hearly : s.streamless = true →
      ∀ send ∈ s.processed ++ [⟨write, s.wsPlain || s.wsTls⟩], send.hadStream = false := by
    intro hnone send hmem
    rw [List.mem_append, List.mem_singleton] at hmem
    rcases hmem with hmem | rfl
    · exact h.early hnone send hmem
    · simpa [streamless] using hnone
  have hsorted : List.Pairwise (fun a b => a.hadStream = true → b.hadStream = true)
      (s.processed ++ [⟨write, s.wsPlain || s.wsTls⟩]) := by
    rw [List.pairwise_append]
    refine ⟨h.sorted, List.pairwise_singleton _ _, fun a ha b hb hlate => ?_⟩
    rw [List.mem_singleton.mp hb]
    show (s.wsPlain || s.wsTls) = true
    by_contra hnone
    rw [h.early (by simpa [streamless] using hnone) a ha] at hlate
    cases hlate
  unfold WebSocketWrites.queueWrite
  dsimp only
  split <;> exact ⟨hearly, hsorted, h.stream⟩

theorem EarlyFirst.pumpWriteQueue (h : s.EarlyFirst) (tls : Bool) :
    ({ s with strand := .idle }.pumpWriteQueue tls).EarlyFirst := by
  unfold WebSocketWrites.pumpWriteQueue
  split
  · exact ⟨h.early, h.sorted, h.stream⟩
  · split
    · exact ⟨h.early, h.sorted, h.stream⟩
    · rename_i hnot
      have hnot : ¬ (!s.hasStream tls) = true := hnot
      have hstream : s.hasStream tls = true := by simpa using hnot
      split
      · exact ⟨h.early, h.sorted, h.stream⟩
      · exact ⟨h.early, h.sorted, fun _ => hasStream_streamless hstream⟩

theorem step_open {a : Action} (hstep : s.step a = some s') (hopen : s'.closing = false) :
    s.closing = false := by
  cases a with
  | pump =>
    simp only [step, pumpWriteQueueTls, pumpWriteQueuePlain, pumpWriteQueue] at hstep
    (repeat' split at hstep) <;> cases hstep <;> exact hopen
  | send | connect | resolved | strandSend | complete | failed | resetStreams | shutdown | close
  | closeOnStrand =>
    simp only [step, setStream, queueWrite, completeWrite, closeStep, shutdownOnIoThread] at hstep
    (repeat' split at hstep) <;> cases hstep <;> first | exact hopen | cases hopen

theorem EarlyFirst.step {a : Action} (h : s.EarlyFirst) (hopen : s'.closing = false)
    (hstep : s.step a = some s') : s'.EarlyFirst := by
  have hbefore := step_open hstep hopen
  cases a with
  | strandSend =>
    simp only [WebSocketWrites.step] at hstep
    split at hstep
    · rename_i write posted hidle hposted
      cases hstep
      have htake : EarlyFirst { s with posted } := ⟨h.early, h.sorted, h.stream⟩
      exact htake.queueWrite write
    · cases hstep
  | pump =>
    simp only [WebSocketWrites.step] at hstep
    split at hstep
    · rename_i tls hpump
      cases hstep
      cases tls with
      | true => exact h.pumpWriteQueue true
      | false => exact h.pumpWriteQueue false
    · cases hstep
  | resolved i success =>
    simp only [WebSocketWrites.step] at hstep
    split at hstep
    · rename_i tls hidle hget
      cases hstep
      split
      · exact ⟨h.early, h.sorted, h.stream⟩
      · have hstream := setStream_streamless { s with resolving := s.resolving.eraseIdx i } tls
        refine ⟨fun hnone => ?_, ?_, fun _ => hstream⟩
        · rw [hstream] at hnone
          cases hnone
        · rw [(setStream_frame _ tls).1]
          exact h.sorted
    · cases hstep
  | complete i success =>
    simp only [WebSocketWrites.step] at hstep
    split at hstep
    · rename_i tls hidle hget
      cases hstep
      simp only [completeWrite, hbefore, Bool.false_eq_true, if_false]
      exact ⟨h.early, h.sorted, fun _ => h.stream (List.ne_nil_of_mem (List.mem_of_getElem? hget))⟩
    · cases hstep
  | resetStreams =>
    simp [WebSocketWrites.step, hbefore] at hstep
  | send | connect | failed | shutdown | close | closeOnStrand =>
    simp only [WebSocketWrites.step, closeStep, shutdownOnIoThread] at hstep
    (repeat' split at hstep) <;> cases hstep <;>
      first | exact h | exact ⟨h.early, h.sorted, h.stream⟩

theorem Law.accepted_eq (h : s.Law) (hopen : s.closing = false) :
    s.written ++ fresh s.writeQueue = s.accepted := by
  have := h.reachable.law.conserved hopen
  simpa [Pump.waiting, writePump] using this

/-- The queue is in the order of the sends. -/
theorem Law.queue_isSend (h : s.Law) (hopen : s.closing = false) {j : Nat} {e : QueuedWrite}
    (hget : (fresh s.writeQueue)[j]? = some e) :
    IsSend s.processed (s.written.length + j) e := by
  refine h.numbered.own _ e ?_
  rw [← h.accepted_eq hopen, List.getElem?_append_right (Nat.le_add_right _ _),
    Nat.add_sub_cancel_left]
  exact hget

/-- Behind a late payload there are only late ones. -/
theorem EarlyFirst.queueLate (h : s.EarlyFirst) (hlaw : s.Law) (hopen : s.closing = false)
    {front : QueuedWrite} {rest : List QueuedWrite} (hqueue : fresh s.writeQueue = front :: rest)
    (hfront : s.Late front) : s.QueueLate := by
  intro e he
  obtain ⟨j, hj⟩ := List.mem_iff_getElem?.mp he
  obtain ⟨hfirst, -⟩ := hlaw.queue_isSend hopen (j := 0) (e := front) (by rw [hqueue]; rfl)
  obtain ⟨hnumber, send, hget, -⟩ := hlaw.queue_isSend hopen hj
  obtain ⟨first, hgetFirst, hlate⟩ := hfront
  rw [hfirst] at hgetFirst
  refine ⟨send, hnumber ▸ hget, ?_⟩
  obtain ⟨hlt, rfl⟩ := List.getElem?_eq_some_iff.mp hget
  obtain ⟨hlt', rfl⟩ := List.getElem?_eq_some_iff.mp hgetFirst
  cases j with
  | zero => exact hlate
  | succ j =>
    exact List.pairwise_iff_getElem.mp h.sorted _ _ hlt' hlt (by omega) hlate

/-- A payload that is late after some steps was late before them. -/
theorem Law.queueLate_before (hlaw : s.Law) (hopen : s.closing = false)
    (hprocessed : s.processed <+: s'.processed)
    (hqueue : fresh s.writeQueue ⊆ fresh s'.writeQueue) (h : s'.QueueLate) : s.QueueLate := by
  intro e he
  obtain ⟨j, hj⟩ := List.mem_iff_getElem?.mp he
  obtain ⟨hnumber, send, hget, -⟩ := hlaw.queue_isSend hopen hj
  obtain ⟨send', hget', hlate⟩ := h e (hqueue he)
  obtain ⟨more, hmore⟩ := hprocessed
  rw [← hmore, hnumber, List.getElem?_append_left (List.getElem?_eq_some_iff.mp hget).1] at hget'
  exact ⟨send', hnumber ▸ hget', hlate⟩

/-- Without a write under way every entry has its payload. -/
theorem Aligned.fresh_eq (h : s.Aligned) (hnone : s.outstanding = []) :
    fresh s.writeQueue = s.writeQueue :=
  (h.free hnone).fresh_eq

theorem step_processed {a : Action} (hstep : s.step a = some s') :
    s.processed <+: s'.processed := by
  cases a with
  | pump =>
    simp only [step, pumpWriteQueueTls, pumpWriteQueuePlain, pumpWriteQueue] at hstep
    (repeat' split at hstep) <;> cases hstep <;> exact List.prefix_rfl
  | strandSend =>
    simp only [step, queueWrite] at hstep
    (repeat' split at hstep) <;> cases hstep <;> exact List.prefix_append _ _
  | send | connect | resolved | complete | failed | resetStreams | shutdown | close
  | closeOnStrand =>
    simp only [step, setStream, completeWrite, closeStep, shutdownOnIoThread] at hstep
    (repeat' split at hstep) <;> cases hstep <;> exact List.prefix_rfl

theorem QueueLate.queueWrite (h : s.QueueLate) (write : Write) (hopen : s.closing = false)
    (hstream : s.streamless = false) : (s.queueWrite write).QueueLate := by
  simp only [WebSocketWrites.queueWrite, hopen, Bool.false_eq_true, if_false]
  intro e he
  have he : e ∈ fresh (s.writeQueue ++ [⟨some write.1, write.2, s.processed.length⟩]) := he
  rw [fresh_append, fresh_entry, List.mem_append, List.mem_singleton] at he
  rcases he with he | rfl
  · exact (h e he).mono (List.prefix_append _ _)
  · refine ⟨⟨write, s.wsPlain || s.wsTls⟩, List.getElem?_concat_length, ?_⟩
    show (s.wsPlain || s.wsTls) = true
    rw [← Bool.not_not (s.wsPlain || s.wsTls), Bool.not_or]
    exact congrArg (!·) hstream

/-- What the pump takes out of the queue is late, and so is what stays. -/
theorem QueueLate.pumpWriteQueue (h : s.QueueLate) (tls : Bool) :
    ({ s with strand := .idle }.pumpWriteQueue tls).QueueLate := by
  unfold WebSocketWrites.pumpWriteQueue
  split
  · exact h.mono List.prefix_rfl fun _ he => he
  · split
    · exact h.mono List.prefix_rfl fun _ he => he
    · split
      · exact h.mono List.prefix_rfl fun _ he => he
      · rename_i front rest hqueue
        have hqueue : s.writeQueue = front :: rest := hqueue
        refine h.mono List.prefix_rfl fun e he => ?_
        rw [hqueue]
        have he : e ∈ fresh ({ front with payload := none } :: rest) := he
        rw [fresh_cons_none rfl] at he
        exact List.mem_filter.mpr
          ⟨List.mem_cons_of_mem _ (List.mem_filter.mp he).1, (List.mem_filter.mp he).2⟩

/-- The pump starts one write, or none. -/
theorem pumpWriteQueue_cases (s : WebSocketWrites) (tls : Bool) :
    ((s.pumpWriteQueue tls).strand = s.strand ∧ (s.pumpWriteQueue tls).written = s.written ∧
      (s.pumpWriteQueue tls).outstanding = s.outstanding) ∨
    ∃ front rest, s.closing = false ∧ s.hasStream tls = true ∧ s.writeQueue = front :: rest ∧
      (s.pumpWriteQueue tls).strand = s.strand ∧
      (s.pumpWriteQueue tls).written = s.written ++ [front] := by
  unfold pumpWriteQueue
  split
  · exact .inl ⟨rfl, rfl, rfl⟩
  · rename_i hopen
    split
    · exact .inl ⟨rfl, rfl, rfl⟩
    · rename_i hnot
      split
      · exact .inl ⟨rfl, rfl, rfl⟩
      · rename_i front rest hqueue
        exact .inr ⟨front, rest, Bool.eq_false_iff.mpr hopen, by simpa using hnot, hqueue, rfl, rfl⟩

theorem pump_eq {tls : Bool} (hpump : s.strand = .pumping tls) :
    s.step .pump = some ({ s with strand := .idle }.pumpWriteQueue tls) := by
  cases tls <;> simp [step, hpump, pumpWriteQueueTls, pumpWriteQueuePlain]

theorem pump_cases {tls : Bool} (hpump : s.strand = .pumping tls)
    (hstep : s.step .pump = some s') :
    s'.strand = .idle ∧ (s.QueueLate → s'.QueueLate) ∧
      ((s'.written = s.written ∧ s'.outstanding = s.outstanding) ∨
        ∃ front rest, s.closing = false ∧ s.hasStream tls = true ∧ s.writeQueue = front :: rest ∧
          s'.written = s.written ++ [front]) := by
  rw [pump_eq hpump] at hstep
  cases hstep
  rcases pumpWriteQueue_cases { s with strand := .idle } tls with
    ⟨hstrand, hwritten, hout⟩ | ⟨front, rest, hopen, hstream, hqueue, hstrand, hwritten⟩
  · exact ⟨hstrand, fun h => h.pumpWriteQueue tls, .inl ⟨hwritten, hout⟩⟩
  · exact ⟨hstrand, fun h => h.pumpWriteQueue tls,
      .inr ⟨front, rest, hopen, hstream, hqueue, hwritten⟩⟩

theorem pumpWriteQueue_cons {tls : Bool} {front : QueuedWrite} {rest : List QueuedWrite}
    (hopen : s.closing = false) (hstream : s.hasStream tls = true)
    (hqueue : s.writeQueue = front :: rest) :
    s.pumpWriteQueue tls = { s with
      writeQueue := { front with payload := none } :: rest
      outstanding := s.outstanding ++ [tls]
      written := s.written ++ [front] } := by
  unfold pumpWriteQueue
  rw [if_neg (by rw [hopen]; decide), if_neg (by rw [hstream]; decide), hqueue]

theorem pump_writes {tls : Bool} {front : QueuedWrite} {rest : List QueuedWrite}
    (hpump : s.strand = .pumping tls) (hopen : s.closing = false) (hstream : s.hasStream tls = true)
    (hqueue : s.writeQueue = front :: rest) :
    ∃ u, s.step .pump = some u ∧ u.written = s.written ++ [front] ∧ u.processed = s.processed := by
  have heq := pumpWriteQueue_cons (s := { s with strand := .idle }) hopen hstream hqueue
  exact ⟨_, pump_eq hpump, by rw [heq], by rw [heq]⟩

/-- A send on an open transport: the pump runs unless the flag is set. -/
theorem strandSend_cases (hstep : s.step .strandSend = some s') (hopen : s.closing = false) :
    s'.strand = (if s.writeInProgress then .idle else .pumping s.tls) ∧
      s'.outstanding = s.outstanding ∧ (∀ tls, s'.hasStream tls = s.hasStream tls) ∧
      (s.streamless = false → s.QueueLate → s'.QueueLate) ∧ s'.closing = false ∧
      ∃ e, s'.writeQueue = s.writeQueue ++ [e] := by
  simp only [step] at hstep
  split at hstep
  · rename_i write posted hidle hposted
    cases hstep
    refine ⟨?_, ?_, fun tls => ?_, fun hstream h => ?_, ?_⟩
    · simp [queueWrite, hopen]
    · simp [queueWrite, hopen]
    · simp [queueWrite, hopen, hasStream]
    · exact QueueLate.queueWrite (s := { s with posted }) h write hopen hstream
    · simp [queueWrite, hopen]
  · cases hstep

/-- Nothing is under way after a completion. -/
theorem complete_cases {i : Nat} {success : Bool} (hlaw : s.Law)
    (hstep : s.step (.complete i success) = some s') (hopen : s'.closing = false) :
    s.outstanding ≠ [] ∧ s'.outstanding = [] ∧ (s.QueueLate → s'.QueueLate) := by
  have hbefore := step_open hstep hopen
  simp only [step] at hstep
  split at hstep
  · rename_i tls hidle hget
    cases hstep
    obtain ⟨hlen, hnil⟩ := hlaw.outstanding_single hget
    simp only [completeWrite, hbefore, Bool.false_eq_true, if_false]
    refine ⟨List.ne_nil_of_length_pos (by omega), hnil, fun h => ?_⟩
    exact h.mono List.prefix_rfl fun e he => List.mem_filter.mpr
      ⟨List.mem_of_mem_tail (List.mem_filter.mp he).1, (List.mem_filter.mp he).2⟩
  · cases hstep

/-- The steps that leave the queue alone, until the transport closes. -/
theorem step_quiet {a : Action} (hstep : s.step a = some s') (hsend : a ≠ .strandSend)
    (hpump : a ≠ .pump) (hcomplete : ∀ i success, a ≠ .complete i success) (hposted : s.Posted)
    (hopen : s'.closing = false) :
    s'.writeQueue = s.writeQueue ∧ s'.outstanding = s.outstanding ∧
      ∀ tls, s'.strand = .pumping tls →
        s.strand = .pumping tls ∧ s'.hasStream tls = s.hasStream tls := by
  have hbefore := step_open hstep hopen
  cases a with
  | strandSend => exact absurd rfl hsend
  | pump => exact absurd rfl hpump
  | complete i success => exact absurd rfl (hcomplete i success)
  | resolved i success =>
    simp only [step] at hstep
    split at hstep
    · rename_i tls hidle hget
      cases hstep
      obtain ⟨-, hqueue, hout, hstrand⟩ :=
        setStream_frame { s with resolving := s.resolving.eraseIdx i } tls
      split
      · refine ⟨rfl, rfl, fun t hp => ?_⟩
        rw [show s.strand = .pumping t from hp] at hidle
        cases hidle
      · refine ⟨hqueue, hout, fun t hp => ?_⟩
        rw [show s.strand = .pumping t from hstrand.symm.trans hp] at hidle
        cases hidle
    · cases hstep
  | shutdown =>
    simp only [step] at hstep
    split at hstep
    · split at hstep
      · rename_i hshutdown
        rw [hposted hshutdown] at hbefore
        cases hbefore
      · cases hstep
    · cases hstep
  | failed throws =>
    simp only [step] at hstep
    split at hstep
    · cases hstep
      exact ⟨rfl, rfl, fun _ hp => by cases hp⟩
    · cases hstep
  | resetStreams => simp [step, hbefore] at hstep
  | send | connect | close | closeOnStrand =>
    simp only [step, closeStep, shutdownOnIoThread] at hstep
    (repeat' split at hstep) <;> cases hstep <;>
      first | exact ⟨rfl, rfl, fun _ hp => ⟨hp, rfl⟩⟩ | cases hopen

theorem step_written {a : Action} (hstep : s.step a = some s') (hpump : a ≠ .pump) :
    s'.written = s.written := by
  cases a with
  | pump => exact absurd rfl hpump
  | send | connect | resolved | strandSend | complete | failed | resetStreams | shutdown | close
  | closeOnStrand =>
    simp only [step, setStream, queueWrite, completeWrite, closeStep, shutdownOnIoThread] at hstep
    (repeat' split at hstep) <;> cases hstep <;> rfl

/-! ## Runs without an early payload in the way -/

/-- What is written was sent when there was a stream. -/
def EarlyDiscarded (s : WebSocketWrites) : Prop := ∀ w ∈ s.written, s.Late w

/-- No send starts the pump on a stream while an early payload is queued. -/
def NoEarlyQueued (s : WebSocketWrites) (a : Action) : Prop :=
  a = .strandSend → s.closing = false → s.writeInProgress = false →
    s.hasStream s.tls = true → s.QueueLate

/-- The completions of a run: the handler on the strand finishes. -/
def Finishes (_ : WebSocketWrites) (a : Action) : Prop := a = .pump

/-- Until the transport closes: where the pump may go on, no early payload
is queued. -/
structure Withheld (s : WebSocketWrites) : Prop where
  first : s.EarlyFirst
  pumping : ∀ tls, s.strand = .pumping tls → s.hasStream tls = true → s.QueueLate
  underWay : s.outstanding ≠ [] → s.QueueLate

structure Discards (s : WebSocketWrites) : Prop where
  law : s.Law
  posted : s.Posted
  discarded : s.EarlyDiscarded
  withheld : s.closing = false → s.Withheld

theorem discards_start : Discards {} where
  law := law_start
  posted hp := by cases hp
  discarded _ hw := absurd hw List.not_mem_nil
  withheld _ := ⟨earlyFirst_start, fun _ h => (by cases h), fun h => absurd rfl h⟩

/-- A step after which `Withheld` is to be shown. -/
theorem Discards.of_step {a : Action} (h : s.Discards) (hstep : s.step a = some s')
    (hwritten : ∀ w ∈ s'.written, w ∈ s.written ∨ s'.Late w)
    (hpumping : s'.closing = false → s.Withheld → ∀ tls, s'.strand = .pumping tls →
      s'.hasStream tls = true → s'.QueueLate)
    (hunderWay : s'.closing = false → s.Withheld → s'.outstanding ≠ [] → s'.QueueLate) :
    s'.Discards := by
  refine ⟨h.law.step h.posted hstep, h.posted.step hstep, fun w hw => ?_, fun hopen => ?_⟩
  · rcases hwritten w hw with hw | hlate
    · exact (h.discarded w hw).mono (step_processed hstep)
    · exact hlate
  · have hwithheld := h.withheld (step_open hstep hopen)
    exact ⟨hwithheld.first.step hopen hstep, hpumping hopen hwithheld, hunderWay hopen hwithheld⟩

/-- A step that leaves the queue alone, and takes the pump nowhere. -/
theorem Discards.quiet {a : Action} (h : s.Discards) (hstep : s.step a = some s')
    (hsend : a ≠ .strandSend) (hpump : a ≠ .pump)
    (hcomplete : ∀ i success, a ≠ .complete i success) : s'.Discards := by
  have hprocessed := step_processed hstep
  have hquiet := step_quiet hstep hsend hpump hcomplete h.posted
  refine h.of_step hstep (fun w hw => .inl (step_written hstep hpump ▸ hw))
    (fun hopen hwithheld tls hp hstream => ?_) (fun hopen hwithheld hsome => ?_)
  · obtain ⟨hqueue, -, hstrand⟩ := hquiet hopen
    obtain ⟨hp, hsame⟩ := hstrand tls hp
    rw [hsame] at hstream
    exact (hwithheld.pumping tls hp hstream).mono hprocessed
      (by rw [hqueue]; exact List.Subset.refl _)
  · obtain ⟨hqueue, hout, -⟩ := hquiet hopen
    rw [hout] at hsome
    exact (hwithheld.underWay hsome).mono hprocessed (by rw [hqueue]; exact List.Subset.refl _)

theorem Discards.strandSend (h : s.Discards) (hcond : s.NoEarlyQueued .strandSend)
    (hstep : s.step .strandSend = some s') : s'.Discards := by
  refine h.of_step hstep (fun w hw => .inl (step_written hstep (by simp) ▸ hw))
    (fun hopen hwithheld tls hp hstream => ?_) (fun hopen hwithheld hsome => ?_)
  · have hbefore := step_open hstep hopen
    obtain ⟨hstrand, -, hstreams, hlate, -⟩ := strandSend_cases hstep hbefore
    rw [hp] at hstrand
    split at hstrand
    · cases hstrand
    · rename_i hflag
      cases hstrand
      rw [hstreams] at hstream
      refine hlate (hasStream_streamless hstream) ?_
      exact hcond rfl hbefore (Bool.eq_false_iff.mpr hflag) hstream
  · have hbefore := step_open hstep hopen
    obtain ⟨-, hout, -, hlate, -⟩ := strandSend_cases hstep hbefore
    rw [hout] at hsome
    exact hlate (hwithheld.first.stream hsome) (hwithheld.underWay hsome)

theorem Discards.pump {tls : Bool} (h : s.Discards) (hpump : s.strand = .pumping tls)
    (hstep : s.step .pump = some s') : s'.Discards := by
  obtain ⟨hidle, hkept, ⟨hwritten, hout⟩ | ⟨front, rest, hopen, hstream, hqueue, hwritten⟩⟩ :=
    pump_cases hpump hstep
  · -- nothing was started, and nothing is under way
    refine h.of_step hstep (fun w hw => .inl (hwritten ▸ hw)) (fun _ _ t hp => ?_)
      (fun hopen _ hsome => ?_)
    · rw [hidle] at hp
      cases hp
    · have hbefore := step_open hstep hopen
      rw [hout] at hsome
      exact absurd ((h.law.aligned hbefore).free_of_pumping hpump) hsome
  · have hlate : s.QueueLate := (h.withheld hopen).pumping tls hpump hstream
    have hfront : front ∈ fresh s.writeQueue := by
      have hal := h.law.aligned hopen
      rw [hal.fresh_eq (hal.free_of_pumping hpump), hqueue]
      exact List.mem_cons_self
    refine h.of_step hstep (fun w hw => ?_) (fun _ _ t hp => ?_) (fun _ _ _ => hkept hlate)
    · rw [hwritten, List.mem_append, List.mem_singleton] at hw
      rcases hw with hw | rfl
      · exact .inl hw
      · exact .inr ((hlate _ hfront).mono (step_processed hstep))
    · rw [hidle] at hp
      cases hp

theorem Discards.complete {i : Nat} {success : Bool} (h : s.Discards)
    (hstep : s.step (.complete i success) = some s') : s'.Discards := by
  refine h.of_step hstep (fun w hw => .inl (step_written hstep (by simp) ▸ hw))
    (fun hopen hwithheld t hp _ => ?_) (fun hopen _ hsome => ?_)
  · obtain ⟨hsome, -, hkept⟩ := complete_cases h.law hstep hopen
    exact hkept (hwithheld.underWay hsome)
  · exact absurd (complete_cases h.law hstep hopen).2.1 hsome

theorem Discards.step {a : Action} (h : s.Discards) (hcond : s.NoEarlyQueued a)
    (hstep : s.step a = some s') : s'.Discards := by
  cases a with
  | strandSend => exact h.strandSend hcond hstep
  | pump =>
    cases hpump : s.strand with
    | pumping tls => exact h.pump hpump hstep
    | idle | failing => simp [WebSocketWrites.step, hpump] at hstep
  | complete i success => exact h.complete hstep
  | send | connect | resolved | failed | close | closeOnStrand | shutdown | resetStreams =>
    exact h.quiet hstep (by simp) (by simp) (by simp)

/-- After a send on a stream behind an early payload, the pump writes the
early payload. -/
theorem early_written {a : Action} (h : s.Discards) (hcond : ¬ s.NoEarlyQueued a)
    (hstep : s.step a = some s') :
    ∃ bs u, Meets WebSocketWrites.step Finishes s' bs ∧
      run WebSocketWrites.step s' bs = some u ∧ ¬ u.EarlyDiscarded := by
  obtain ⟨rfl, hopen, hflag, hstream, hnot⟩ : a = .strandSend ∧ s.closing = false ∧
      s.writeInProgress = false ∧ s.hasStream s.tls = true ∧ ¬ s.QueueLate := by
    simpa only [NoEarlyQueued, Classical.not_imp] using hcond
  obtain ⟨hstrand, -, hstreams, -, hstill, e, hqueue⟩ := strandSend_cases hstep hopen
  rw [hflag] at hstrand
  have hlaw := h.law.step h.posted hstep
  have hfirst := (h.withheld hopen).first.step hstill hstep
  have hal := hlaw.aligned hstill
  have hfresh := hal.fresh_eq (hal.free_of_pumping hstrand)
  obtain ⟨front, rest, hcons⟩ := List.exists_cons_of_ne_nil (show s'.writeQueue ≠ [] by
    rw [hqueue]; exact List.concat_ne_nil _ _)
  obtain ⟨u, hpump, hwritten, hprocessed⟩ :=
    pump_writes hstrand hstill ((hstreams _).trans hstream) hcons
  refine ⟨[.pump], u, ⟨rfl, fun _ _ => trivial⟩, run_cons_iff.mpr ⟨u, hpump, rfl⟩,
    fun hgood => hnot ?_⟩
  have hlate : u.Late front := hgood front (by rw [hwritten]; simp)
  have hall : s'.QueueLate := hfirst.queueLate hlaw hstill (hfresh.trans hcons)
    (hlate.mono (hprocessed ▸ List.prefix_rfl))
  refine h.law.queueLate_before hopen (step_processed hstep) ?_ hall
  intro e' he'
  rw [hqueue, fresh_append]
  exact List.mem_append_left _ he'

theorem Finishes.noEarlyQueued {a : Action} (h : Finishes s a) : s.NoEarlyQueued a := by
  intro hsend
  rw [h] at hsend
  cases hsend

end WebSocketWrites

/-! ## The theorem -/

/-- **Early sends.** Along every run of a WebSocket transport `async_write`
is called with nothing that was sent before there was a stream, now or when
the handler on the strand finishes, exactly if no send starts the pump on a
stream while such an early payload is queued. A polling transport never
posts an early send. -/
theorem earlySend_discarded_iff {as : List WebSocketWrites.Action} {s : WebSocketWrites}
    (h : run WebSocketWrites.step {} as = some s) {mode : PollingMode}
    {bs : List PollingSession.Action} {t : PollingSession}
    (h' : run PollingSession.step (PollingSession.start mode) bs = some t) :
    (Meets WebSocketWrites.step WebSocketWrites.NoEarlyQueued {} as ↔
      ∀ k m cs u, run WebSocketWrites.step {} (as.take k) = some m →
        Meets WebSocketWrites.step WebSocketWrites.Finishes m cs →
        run WebSocketWrites.step m cs = some u → u.EarlyDiscarded) ∧
    t.EarlyDropped := by
  constructor
  · exact meets_iff_completions (fun _ _ _ hs => hs.step) (fun _ hs => hs.discarded)
      (fun _ _ => WebSocketWrites.Finishes.noEarlyQueued)
      (fun _ _ _ => WebSocketWrites.early_written) as {} s WebSocketWrites.discards_start h
  · have hsourced : t.Sourced :=
      run_preserves PollingSession.Sourced (fun _ _ _ hs hstep => hs.step hstep)
        (PollingSession.sourced_start mode) h'
    exact hsourced.earlyDropped

/-- A send on the stream and nothing before it. -/
def sendOnStream : List WebSocketWrites.Action :=
  [.connect true, .resolved 0 true, .send [2] false, .strandSend, .pump, .complete 0 true]

/-- A send before `connect` and one when the transport is open. -/
def pollingEarlySend : List PollingSession.Action :=
  [.send [1] true, .connect, .opened, .send [2] false, .takeWrite, .startRequest]

theorem earlySend_discarded_iff_polling :
    ∃ s t, run WebSocketWrites.step {} sendOnStream = some s ∧
      run PollingSession.step (PollingSession.start .managed) pollingEarlySend = some t ∧
      s.written.map (·.payload) = [some [2]] ∧ t.writes.bodies = [[2]] ∧
      ((Meets WebSocketWrites.step WebSocketWrites.NoEarlyQueued {} sendOnStream ↔
        ∀ k m cs u, run WebSocketWrites.step {} (sendOnStream.take k) = some m →
          Meets WebSocketWrites.step WebSocketWrites.Finishes m cs →
          run WebSocketWrites.step m cs = some u → u.EarlyDiscarded) ∧
        t.EarlyDropped) := by
  have hrun : run WebSocketWrites.step {} sendOnStream = some _ := rfl
  have hrun' : run PollingSession.step (PollingSession.start .managed) pollingEarlySend = some _ :=
    rfl
  exact ⟨_, _, hrun, hrun', rfl, rfl, earlySend_discarded_iff hrun hrun'⟩

/-- A send before `connect`, which is processed before the host is
resolved, and one when there is a stream. -/
def earlySend : List WebSocketWrites.Action :=
  [.send [1] true, .connect false, .strandSend, .pump, .resolved 0 true, .send [2] false,
    .strandSend, .pump, .complete 0 true]

/-- The early payload is what `async_write` is called with. -/
theorem earlySend_written :
    ∃ s, run WebSocketWrites.step {} earlySend = some s ∧
      s.processed.map (·.hadStream) = [false, true] ∧ s.written = [⟨some [1], true, 0⟩] ∧
      ¬ s.EarlyDiscarded := by
  have hrun : run WebSocketWrites.step {} earlySend = some _ := rfl
  refine ⟨_, hrun, rfl, rfl, fun hgood => ?_⟩
  obtain ⟨send, hget, hlate⟩ := hgood ⟨some [1], true, 0⟩ (List.mem_singleton_self _)
  cases hget
  cases hlate

end Sioxx
