/-
Sioxx.EngineIO.WebSocketWritesTheorems — the write queue of a WebSocket is
the pump of `Lib/Pump.lean`, for both streams.

The entry of a write that is under way stays at the front of the queue
without its payload. `Aligned` says that it is the only such entry and
that the flag is set meanwhile; so the pump never takes an entry that was
moved from. It holds until the transport closes, and then no pump takes
anything.

That the plain and the TLS pump do the same is a fact about two runs: with
every `connect` turned from one scheme to the other, a run leads to the
same queue and the same writes (`run_mirror`). Until the first `connect` both
runs have `url_.tls` unset, and there is no stream either way.
-/
import Sioxx.EngineIO.WebSocketWrites
import Mathlib.Data.List.InsertIdx

namespace Sioxx

open Lib

namespace WebSocketWrites

variable {s s' : WebSocketWrites}

/-! ## The queue -/

def AllFresh (l : List QueuedWrite) : Prop := ∀ e ∈ l, e.payload.isSome = true

theorem AllFresh.fresh_eq {l : List QueuedWrite} (h : AllFresh l) : fresh l = l :=
  List.filter_eq_self.mpr h

theorem AllFresh.concat {l : List QueuedWrite} (h : AllFresh l) {e : QueuedWrite}
    (he : e.payload.isSome = true) : AllFresh (l ++ [e]) := by
  intro e' he'
  rw [List.mem_append, List.mem_singleton] at he'
  rcases he' with he' | rfl
  · exact h e' he'
  · exact he

/-- The entry of the write under way, and behind it entries with their
payloads. -/
structure Aligned (s : WebSocketWrites) : Prop where
  free : s.outstanding = [] → AllFresh s.writeQueue
  busy : s.outstanding ≠ [] →
    s.writeInProgress = true ∧ s.strand = .idle ∧
      ∃ front rest, s.writeQueue = front :: rest ∧ front.payload = none ∧ AllFresh rest
  pumping : ∀ tls, s.strand = .pumping tls → s.writeInProgress = true

/-- The entry is that of the send number `k`, with its own payload and
flag. -/
def IsSend (processed : List ProcessedSend) (k : Nat) (e : QueuedWrite) : Prop :=
  e.send = k ∧ ∃ send, processed[k]? = some send ∧ e.payload = some send.write.1 ∧
    e.isBinary = send.write.2

/-- The accepted sends are the first ones that were processed; until the
transport closes they are all. -/
structure Numbered (s : WebSocketWrites) : Prop where
  own : ∀ (k : Nat) (e : QueuedWrite), s.accepted[k]? = some e → IsSend s.processed k e
  all : s.closing = false → s.processed.length = s.accepted.length

structure Law (s : WebSocketWrites) : Prop where
  reachable : Pump.Reachable id s.writePump
  aligned : s.closing = false → s.Aligned
  numbered : s.Numbered

theorem law_start : Law {} where
  reachable := Relation.ReflTransGen.refl
  aligned _ :=
    ⟨fun _ _ h => absurd h List.not_mem_nil, fun h => absurd rfl h, fun _ h => by cases h⟩
  numbered := ⟨by simp, fun _ => rfl⟩

theorem Law.single (h : s.Law) : s.outstanding.length ≤ 1 := by
  have := h.reachable.law.single
  simpa [writePump] using this

/-- The write that completes is the only one. -/
theorem Law.outstanding_single (h : s.Law) {i : Nat} {tls : Bool}
    (hout : s.outstanding[i]? = some tls) :
    s.outstanding.length = 1 ∧ s.outstanding.eraseIdx i = [] := by
  obtain ⟨hlt, -⟩ := List.getElem?_eq_some_iff.mp hout
  have hlen : s.outstanding.length = 1 := by
    have := h.single
    omega
  refine ⟨hlen, ?_⟩
  rw [← List.length_eq_zero_iff, List.length_eraseIdx_of_lt hlt, hlen]

theorem Aligned.free_of_pumping (h : s.Aligned) {tls : Bool} (hpump : s.strand = .pumping tls) :
    s.outstanding = [] := by
  by_contra hsome
  have hidle := (h.busy hsome).2.1
  rw [hpump] at hidle
  cases hidle

theorem fresh_cons_none {front : QueuedWrite} {rest : List QueuedWrite}
    (h : front.payload = none) : fresh (front :: rest) = fresh rest := by
  simp [fresh, h]

theorem fresh_append (l l' : List QueuedWrite) : fresh (l ++ l') = fresh l ++ fresh l' :=
  List.filter_append _ _

theorem fresh_entry (payload : Bytes) (isBinary : Bool) (send : Nat) :
    fresh [⟨some payload, isBinary, send⟩] = [⟨some payload, isBinary, send⟩] := rfl

theorem Numbered.frame (h : s.Numbered) (haccepted : s'.accepted = s.accepted)
    (hprocessed : s'.processed = s.processed)
    (hclosing : s'.closing = false → s.closing = false) : s'.Numbered := by
  refine ⟨fun k e hk => ?_, fun hopen => ?_⟩
  · rw [haccepted] at hk
    rw [hprocessed]
    exact h.own k e hk
  · rw [haccepted, hprocessed]
    exact h.all (hclosing hopen)

/-- Only what the pump shows, and `Aligned`, is at stake in most steps. -/
theorem Law.frame (h : s.Law) (hpump : s'.writePump = s.writePump)
    (hprocessed : s'.processed = s.processed)
    (haligned : s'.closing = false → s.Aligned → s'.Aligned) : s'.Law := by
  have hclosing : s'.closing = s.closing := congrArg Pump.stopped hpump
  have haccepted : s'.accepted = s.accepted := congrArg Pump.accepted hpump
  exact ⟨hpump ▸ h.reachable, fun hopen => haligned hopen (h.aligned (hclosing ▸ hopen)),
    h.numbered.frame haccepted hprocessed fun hopen => hclosing ▸ hopen⟩

/-- The transport closes, and the queue may be dropped. -/
theorem Law.stop (h : s.Law) (hclosing : s'.closing = true)
    (houtstanding : s'.outstanding = s.outstanding) (haccepted : s'.accepted = s.accepted)
    (hwritten : s'.written = s.written) (hprocessed : s'.processed = s.processed)
    (hqueue : s'.writeQueue = s.writeQueue ∨ s'.writeQueue = []) : s'.Law := by
  have hpump : s'.writePump
      = { s.writePump with queue := fresh s'.writeQueue, stopped := true } := by
    simp only [writePump, hclosing, houtstanding, haccepted, hwritten]
  have hdrop : fresh s'.writeQueue = s.writePump.queue ∨ fresh s'.writeQueue = [] := by
    rcases hqueue with heq | heq
    · exact .inl (by rw [heq]; rfl)
    · exact .inr (by rw [heq]; rfl)
  have hstep : Pump.Step id s.writePump s'.writePump := by
    rw [hpump]
    exact .stop s.writePump _ hdrop
  have hnever : s'.closing ≠ false := by
    rw [hclosing]
    decide
  exact ⟨h.reachable.tail hstep, fun hopen => absurd hopen hnever,
    h.numbered.frame haccepted hprocessed fun hopen => absurd hopen hnever⟩

/-! ## The steps -/

theorem Numbered.queueWrite (h : s.Numbered) (write : Write) : (s.queueWrite write).Numbered := by
  have hold : ∀ (k : Nat) (e : QueuedWrite), s.accepted[k]? = some e →
      IsSend (s.processed ++ [⟨write, s.wsPlain || s.wsTls⟩]) k e := by
    intro k e he
    obtain ⟨hk, send, hget, hpayload, hflag⟩ := h.own k e he
    have hlt := (List.getElem?_eq_some_iff.mp hget).1
    exact ⟨hk, send, by rw [List.getElem?_append_left hlt]; exact hget, hpayload, hflag⟩
  unfold WebSocketWrites.queueWrite
  dsimp only
  split
  · rename_i hclosing
    refine ⟨hold, fun hopen => ?_⟩
    rw [hclosing] at hopen
    cases hopen
  · rename_i hclosing
    have hall := h.all (Bool.eq_false_iff.mpr hclosing)
    refine ⟨fun k e he => ?_, fun _ => ?_⟩
    · rcases Nat.lt_or_ge k s.accepted.length with hlt | hge
      · rw [List.getElem?_append_left hlt] at he
        exact hold k e he
      · rw [List.getElem?_append_right hge] at he
        obtain ⟨hlt, rfl⟩ := List.getElem?_eq_some_iff.mp he
        rw [List.length_singleton] at hlt
        obtain rfl : k = s.processed.length := by omega
        refine ⟨?_, ⟨write, s.wsPlain || s.wsTls⟩, ?_, ?_, ?_⟩ <;> simp
    · simp only [List.length_append, List.length_singleton, hall]

theorem Law.queueWrite (h : s.Law) (write : Write) :
    (s.queueWrite write).Law := by
  refine ⟨?_, fun hopen => ?_, h.numbered.queueWrite write⟩
  · unfold WebSocketWrites.queueWrite
    dsimp only
    split
    · exact h.reachable
    · rename_i hclosing
      have hstep : Pump.Step id s.writePump _ :=
        .accept s.writePump ⟨some write.1, write.2, s.processed.length⟩
          (Bool.eq_false_iff.mpr hclosing)
      have hreach : Pump.Reachable id _ := h.reachable.tail hstep
      convert hreach using 1
      simp only [writePump, fresh_append, fresh_entry]
  · have hbefore : s.closing = false := by
      unfold WebSocketWrites.queueWrite at hopen
      dsimp only at hopen
      split at hopen <;> exact hopen
    obtain ⟨hfree, hbusy, -⟩ := h.aligned hbefore
    simp only [WebSocketWrites.queueWrite, hbefore, Bool.false_eq_true, if_false]
    refine ⟨fun hnone => ?_, fun hsome => ?_, fun _ _ => rfl⟩
    · exact (hfree hnone).concat rfl
    · obtain ⟨hflag, -, front, rest, hqueue, hfront, hrest⟩ := hbusy hsome
      refine ⟨rfl, by rw [if_pos hflag], front, _, ?_, hfront,
        hrest.concat (e := ⟨some write.1, write.2, s.processed.length⟩) rfl⟩
      rw [hqueue, List.cons_append]

theorem Law.pumpWriteQueue (h : s.Law) (tls : Bool) (hstrand : s.strand = .pumping tls) :
    ({ s with strand := .idle }.pumpWriteQueue tls).Law := by
  unfold WebSocketWrites.pumpWriteQueue
  split
  · rename_i hclosing
    exact h.frame rfl rfl fun hopen => by rw [hclosing] at hopen; cases hopen
  · rename_i hclosing
    rw [Bool.not_eq_true] at hclosing
    have hal := h.aligned hclosing
    have hnone := hal.free_of_pumping hstrand
    have hfresh := hal.free hnone
    split
    · exact h.frame rfl rfl fun _ _ =>
        ⟨hal.free, fun hsome => absurd hnone hsome, fun _ hp => by cases hp⟩
    · split
      · exact h.frame rfl rfl fun _ _ =>
          ⟨hal.free, fun hsome => absurd hnone hsome, fun _ hp => by cases hp⟩
      · rename_i front rest hqueue
        dsimp only at hqueue
        have hpumpQueue : s.writePump.queue = front :: rest := hfresh.fresh_eq.trans hqueue
        have hrest : AllFresh rest := by
          rw [hqueue] at hfresh
          exact fun e he => hfresh e (List.mem_cons_of_mem _ he)
        have htake : Pump.Step id s.writePump _ :=
          .take s.writePump front rest hpumpQueue rfl (by simp [writePump, hnone])
        have hbegin : Pump.Step id { s.writePump with queue := rest, held := some front } _ :=
          .begin _ front rfl
        have hreach : Pump.Reachable id _ := (h.reachable.tail htake).tail hbegin
        refine ⟨?_, fun _ => ⟨fun hnil => ?_, fun _ => ?_, fun _ hp => by cases hp⟩,
          h.numbered.frame rfl rfl id⟩
        · convert hreach using 1
          simp only [writePump, fresh_cons_none, hrest.fresh_eq, List.length_append,
            List.length_singleton, id]
        · simp at hnil
        · exact ⟨hal.pumping tls hstrand, rfl, { front with payload := none }, rest, rfl, rfl,
            hrest⟩

/-- The completion takes the entry without payload out of the queue. -/
theorem Law.completeWrite (h : s.Law) {i : Nat} {tls : Bool} (success : Bool)
    (hout : s.outstanding[i]? = some tls) :
    ({ s with outstanding := s.outstanding.eraseIdx i }.completeWrite tls success).Law := by
  obtain ⟨hlen, hnil⟩ := h.outstanding_single hout
  have hcomplete : Pump.Step id s.writePump { s.writePump with inFlight := 0 } :=
    .complete s.writePump 0 hlen
  have hreach : Pump.Reachable id { s.writePump with inFlight := 0 } := h.reachable.tail hcomplete
  unfold WebSocketWrites.completeWrite
  simp only [hnil]
  split
  · rename_i hclosing
    refine ⟨hreach, fun hopen => ?_, h.numbered.frame rfl rfl id⟩
    rw [hclosing] at hopen
    cases hopen
  · rename_i hclosing
    have hsome : s.outstanding ≠ [] := by
      intro hnone
      rw [hnone] at hlen
      cases hlen
    obtain ⟨hflag, -, front, rest, hqueue, hfront, hrest⟩ :=
      (h.aligned (Bool.eq_false_iff.mpr hclosing)).busy hsome
    have hfresh : fresh s.writeQueue.tail = fresh s.writeQueue := by
      rw [hqueue, fresh_cons_none hfront]
      rfl
    refine ⟨?_, fun _ => ⟨fun _ => ?_, fun hne => absurd rfl hne, fun _ _ => hflag⟩,
      h.numbered.frame rfl rfl id⟩
    · convert hreach using 1
      simp only [writePump, hfresh, List.length_nil]
    · show AllFresh s.writeQueue.tail
      rw [hqueue]
      exact hrest

theorem Law.closeStep (h : s.Law) (onStrand : Bool) : (s.closeStep onStrand).Law := by
  unfold WebSocketWrites.closeStep
  dsimp only
  split
  · exact h
  · split
    · exact h.stop rfl rfl rfl rfl rfl (.inr rfl)
    · exact h.stop rfl rfl rfl rfl rfl (.inl rfl)

/-- A shutdown is posted by `close` only. -/
def Posted (s : WebSocketWrites) : Prop := s.shutdownPosted = true → s.closing = true

theorem Posted.frame (h : s.Posted) (hposted : s'.shutdownPosted = s.shutdownPosted)
    (hclosing : s'.closing = s.closing) : s'.Posted := by
  intro hp
  rw [hposted] at hp
  rw [hclosing]
  exact h hp

theorem Posted.closeStep (h : s.Posted) (onStrand : Bool) : (s.closeStep onStrand).Posted := by
  unfold WebSocketWrites.closeStep
  dsimp only
  split
  · exact h
  · split <;> exact fun _ => rfl

theorem Posted.step {a : Action} (h : s.Posted) (hstep : s.step a = some s') : s'.Posted := by
  cases a with
  | close =>
    cases hstep
    exact h.closeStep false
  | closeOnStrand =>
    simp only [WebSocketWrites.step] at hstep
    split at hstep
    · cases hstep
    · cases hstep
      exact h.closeStep true
  | shutdown =>
    simp only [WebSocketWrites.step] at hstep
    split at hstep
    · split at hstep
      · cases hstep
        exact fun hp => by cases hp
      · cases hstep
    · cases hstep
  | pump =>
    simp only [WebSocketWrites.step, pumpWriteQueueTls, pumpWriteQueuePlain, pumpWriteQueue]
      at hstep
    (repeat' split at hstep) <;> cases hstep <;> exact h.frame rfl rfl
  | send | connect | resolved | strandSend | complete | failed | resetStreams =>
    simp only [WebSocketWrites.step, setStream, queueWrite, completeWrite] at hstep
    (repeat' split at hstep) <;> cases hstep <;> exact h.frame rfl rfl

theorem Law.step {a : Action} (h : s.Law) (hposted : s.Posted) (hstep : s.step a = some s') :
    s'.Law := by
  cases a with
  | send payload isBinary =>
    cases hstep
    exact h.frame rfl rfl fun _ hal => ⟨hal.free, hal.busy, hal.pumping⟩
  | connect tls =>
    simp only [WebSocketWrites.step] at hstep
    split at hstep
    · cases hstep
      exact h
    · cases hstep
      exact h.frame rfl rfl fun _ hal => ⟨hal.free, hal.busy, hal.pumping⟩
  | resolved i success =>
    simp only [WebSocketWrites.step] at hstep
    split at hstep
    · rename_i tls hidle hget
      cases hstep
      split
      · exact h.frame rfl rfl fun _ hal => ⟨hal.free, hal.busy, hal.pumping⟩
      · unfold setStream
        split
        · exact h.frame rfl rfl fun _ hal => ⟨hal.free, hal.busy, hal.pumping⟩
        · exact h.frame rfl rfl fun _ hal => ⟨hal.free, hal.busy, hal.pumping⟩
    · cases hstep
  | strandSend =>
    simp only [WebSocketWrites.step] at hstep
    split at hstep
    · rename_i write posted hidle hpost
      cases hstep
      have htake : Law { s with posted } :=
        h.frame rfl rfl fun _ hal => ⟨hal.free, hal.busy, hal.pumping⟩
      exact htake.queueWrite write
    · cases hstep
  | pump =>
    simp only [WebSocketWrites.step] at hstep
    split at hstep
    · rename_i tls hstrand
      cases hstep
      have hpump := h.pumpWriteQueue tls hstrand
      cases tls with
      | true => exact hpump
      | false => exact hpump
    · cases hstep
  | complete i success =>
    simp only [WebSocketWrites.step] at hstep
    split at hstep
    · rename_i tls hidle hout
      cases hstep
      exact h.completeWrite success hout
    · cases hstep
  | failed throws =>
    simp only [WebSocketWrites.step] at hstep
    split at hstep
    · rename_i hstrand
      cases hstep
      refine h.frame rfl rfl fun _ hal => ⟨hal.free, fun hsome => ?_, fun _ hp => by cases hp⟩
      have hidle := (hal.busy hsome).2.1
      rw [hstrand] at hidle
      cases hidle
    · cases hstep
  | close =>
    cases hstep
    exact h.closeStep false
  | closeOnStrand =>
    simp only [WebSocketWrites.step] at hstep
    split at hstep
    · cases hstep
    · cases hstep
      exact h.closeStep true
  | shutdown =>
    simp only [WebSocketWrites.step] at hstep
    split at hstep
    · split at hstep
      · rename_i hshutdown
        cases hstep
        exact h.stop (hposted hshutdown) rfl rfl rfl rfl (.inr rfl)
      · cases hstep
    · cases hstep
  | resetStreams =>
    simp only [WebSocketWrites.step] at hstep
    split at hstep
    · cases hstep
      exact h.frame rfl rfl fun _ hal => ⟨hal.free, hal.busy, hal.pumping⟩
    · cases hstep

/-! ## The two pumps -/

/-- The same action with the other scheme. -/
def Action.mirror : Action → Action
  | .connect tls => .connect (!tls)
  | a => a

/-- The same state with the other scheme. -/
def mirror (s : WebSocketWrites) : WebSocketWrites :=
  { s with
    tls := !s.tls
    wsPlain := s.wsTls
    wsTls := s.wsPlain
    outstanding := s.outstanding.map (!·)
    resolving := s.resolving.map (!·)
    strand :=
      match s.strand with
      | .pumping tls => .pumping (!tls)
      | strand => strand }

theorem mirror_pumpWriteQueue (s : WebSocketWrites) (tls : Bool) :
    s.mirror.pumpWriteQueue (!tls) = (s.pumpWriteQueue tls).mirror := by
  obtain ⟨_, plain, secure, closing, _, _, queue, _, _, _, _, _, _, _, _⟩ := s
  cases closing <;> cases tls <;> cases plain <;> cases secure <;> cases queue <;>
    simp [pumpWriteQueue, mirror, hasStream]

theorem mirror_queueWrite (s : WebSocketWrites) (write : Write) :
    s.mirror.queueWrite write = (s.queueWrite write).mirror := by
  obtain ⟨_, plain, tls, closing, _, _, _, flag, _, _, _, _, _, _, _⟩ := s
  cases closing <;> cases flag <;> cases plain <;> cases tls <;> rfl

theorem mirror_completeWrite (s : WebSocketWrites) (tls success : Bool) :
    s.mirror.completeWrite (!tls) success = (s.completeWrite tls success).mirror := by
  obtain ⟨_, _, _, closing, _, _, _, _, _, _, _, _, _, _, _⟩ := s
  cases closing <;> cases success <;> rfl

theorem mirror_closeStep (s : WebSocketWrites) (onStrand : Bool) :
    s.mirror.closeStep onStrand = (s.closeStep onStrand).mirror := by
  obtain ⟨_, _, _, _, once, _, _, _, _, _, _, _, _, _, _⟩ := s
  cases once <;> cases onStrand <;> rfl

theorem step_mirror (s : WebSocketWrites) (a : Action) :
    s.mirror.step a.mirror = (s.step a).map mirror := by
  cases a with
  | send payload isBinary => rfl
  | connect tls =>
    obtain ⟨_, _, _, closing, _, _, _, _, _, _, _, _, _, _, _⟩ := s
    cases closing <;> simp [step, Action.mirror, mirror]
  | resolved i success =>
    obtain ⟨_, _, _, closing, _, _, _, _, _, strand, _, resolving, _, _, _⟩ := s
    cases strand with
    | idle =>
      cases hget : resolving[i]? with
      | none => simp [step, Action.mirror, mirror, hget]
      | some tls =>
        cases closing <;> cases success <;> cases tls <;>
          simp [step, Action.mirror, mirror, hget, setStream, List.eraseIdx_map]
    | pumping tls => simp [step, Action.mirror, mirror]
    | failing => simp [step, Action.mirror, mirror]
  | strandSend =>
    obtain ⟨_, _, _, _, _, _, _, _, _, strand, posted, _, _, _, _⟩ := s
    cases strand with
    | idle =>
      cases posted with
      | nil => rfl
      | cons write posted =>
        simp only [step, Action.mirror, Option.map_some]
        rw [← mirror_queueWrite]
        rfl
    | pumping tls => rfl
    | failing => rfl
  | pump =>
    have hpump := mirror_pumpWriteQueue { s with strand := .idle }
    obtain ⟨_, _, _, _, _, _, _, _, _, strand, _, _, _, _, _⟩ := s
    cases strand with
    | idle => rfl
    | pumping tls =>
      cases tls with
      | true => exact congrArg some (hpump true)
      | false => exact congrArg some (hpump false)
    | failing => rfl
  | complete i success =>
    obtain ⟨_, _, _, _, _, _, _, _, outstanding, strand, _, _, _, _, _⟩ := s
    cases strand with
    | idle =>
      cases hget : outstanding[i]? with
      | none => simp [step, Action.mirror, mirror, hget]
      | some tls =>
        simp only [step, Action.mirror, hget, Option.map_some, ← mirror_completeWrite]
        simp [mirror, hget, List.eraseIdx_map]
    | pumping tls => simp [step, Action.mirror, mirror]
    | failing => simp [step, Action.mirror, mirror]
  | failed throws =>
    obtain ⟨_, _, _, _, _, _, _, _, _, strand, _, _, _, _, _⟩ := s
    cases strand <;> rfl
  | close => exact congrArg some (mirror_closeStep s false)
  | closeOnStrand =>
    have hclose := mirror_closeStep s true
    obtain ⟨_, _, _, _, _, _, _, _, _, strand, _, _, _, _, _⟩ := s
    cases strand with
    | idle => exact congrArg some hclose
    | pumping tls => rfl
    | failing => exact congrArg some hclose
  | shutdown =>
    obtain ⟨_, _, _, _, _, post, _, _, _, strand, _, _, _, _, _⟩ := s
    cases strand <;> cases post <;> rfl
  | resetStreams =>
    obtain ⟨_, _, _, closing, _, _, _, _, outstanding, strand, _, _, _, _, _⟩ := s
    cases closing <;> cases outstanding <;> cases strand <;> rfl

theorem run_mirror (as : List Action) (s : WebSocketWrites) :
    run step s.mirror (as.map Action.mirror) = (run step s as).map mirror := by
  induction as generalizing s with
  | nil => rfl
  | cons a as ih =>
    rw [List.map_cons, run, run, step_mirror]
    cases s.step a with
    | none => rfl
    | some s' => exact ih s'

/-- The same but for a scheme that makes no difference: no `connect` has
set it, or only the pump that is about to run goes by it, and there is no
stream. -/
inductive Alike (s : WebSocketWrites) : WebSocketWrites → Prop
  | same : Alike s s
  | unset (tls : Bool) (strand : StrandPc) (hplain : s.wsPlain = false) (htls : s.wsTls = false)
      (hscheme : tls = s.tls ∨ s.resolving = [])
      (hstrand : strand = s.strand ∨ ∃ t t', s.strand = .pumping t ∧ strand = .pumping t') :
      Alike s { s with tls, strand }

/-- Without a stream the pump only takes the flag back. -/
theorem pump_noStream {tls : Bool} (hplain : s.wsPlain = false) (htls : s.wsTls = false)
    (hpump : s.strand = .pumping tls) :
    s.step .pump = some (if s.closing then { s with strand := .idle }
      else { s with strand := .idle, writeInProgress := false }) := by
  cases tls <;>
    simp [step, hpump, pumpWriteQueueTls, pumpWriteQueuePlain, pumpWriteQueue, hasStream, hplain,
      htls]

/-- The scheme is read by a send only. -/
theorem step_scheme {a : Action} (hconnect : ∀ t, a ≠ .connect t) (hsend : a ≠ .strandSend)
    (s : WebSocketWrites) (tls : Bool) :
    ({ s with tls } : WebSocketWrites).step a = (s.step a).map ({ · with tls }) := by
  obtain ⟨_, plain, secure, closing, once, post, queue, _, outstanding, strand, _, resolving, _, _,
    _⟩ := s
  cases a with
  | send | close => cases once <;> rfl
  | connect t => exact absurd rfl (hconnect t)
  | strandSend => exact absurd rfl hsend
  | resolved i success =>
    cases strand with
    | idle =>
      cases hget : resolving[i]? with
      | none => simp [step, hget]
      | some t =>
        cases closing <;> cases success <;> cases t <;> simp [step, hget, setStream]
    | pumping t => simp [step]
    | failing => simp [step]
  | pump =>
    cases strand with
    | idle => rfl
    | pumping t =>
      cases t <;> cases closing <;> cases plain <;> cases secure <;> cases queue <;> rfl
    | failing => rfl
  | complete i success =>
    cases strand with
    | idle =>
      cases hget : outstanding[i]? with
      | none => simp [step, hget]
      | some t => cases closing <;> cases success <;> simp [step, hget, completeWrite]
    | pumping t => simp [step]
    | failing => simp [step]
  | failed throws => cases strand <;> rfl
  | closeOnStrand => cases strand <;> cases once <;> rfl
  | shutdown => cases strand <;> cases post <;> rfl
  | resetStreams => cases strand <;> cases closing <;> cases outstanding <;> rfl

/-- Without a stream and without a resolution there will be none, unless
somebody connects. -/
theorem step_noStream {u : WebSocketWrites} {a : Action} (hconnect : ∀ t, a ≠ .connect t)
    (hplain : s.wsPlain = false) (htls : s.wsTls = false) (hresolving : s.resolving = [])
    (hstep : s.step a = some u) : u.wsPlain = false ∧ u.wsTls = false ∧ u.resolving = [] := by
  cases a with
  | connect t => exact absurd rfl (hconnect t)
  | resolved i success => simp [step, hresolving] at hstep
  | send | strandSend | complete | failed | shutdown | resetStreams =>
    simp only [step, queueWrite, completeWrite, shutdownOnIoThread] at hstep
    (repeat' split at hstep) <;> cases hstep <;> simp [hplain, htls, hresolving]
  | pump =>
    simp only [step, pumpWriteQueueTls, pumpWriteQueuePlain, pumpWriteQueue] at hstep
    (repeat' split at hstep) <;> cases hstep <;> simp [hplain, htls, hresolving]
  | close | closeOnStrand =>
    simp only [step, closeStep, shutdownOnIoThread] at hstep
    (repeat' split at hstep) <;> cases hstep <;> simp [hplain, htls, hresolving]

/-- The scheme differs and nobody has connected. -/
theorem Alike.step_unset {u : WebSocketWrites} {a : Action} (tls : Bool)
    (hplain : s.wsPlain = false) (htls : s.wsTls = false) (hresolving : s.resolving = [])
    (hstep : s.step a = some u) :
    ∃ u', ({ s with tls } : WebSocketWrites).step a = some u' ∧ u.Alike u' := by
  by_cases hconnect : ∃ t, a = .connect t
  · obtain ⟨t, rfl⟩ := hconnect
    simp only [WebSocketWrites.step] at hstep ⊢
    split at hstep
    · rename_i hclosing
      cases hstep
      exact ⟨_, if_pos hclosing, .unset tls s.strand hplain htls (.inr hresolving) (.inl rfl)⟩
    · rename_i hclosing
      cases hstep
      exact ⟨_, if_neg hclosing, .same⟩
  · have hconnect : ∀ t, a ≠ .connect t := fun t heq => hconnect ⟨t, heq⟩
    obtain ⟨hplain', htls', hresolving'⟩ := step_noStream hconnect hplain htls hresolving hstep
    by_cases hsend : a = .strandSend
    · subst hsend
      simp only [WebSocketWrites.step] at hstep ⊢
      split at hstep
      · rename_i write posted hidle hposted
        cases hstep
        rw [hidle]
        refine ⟨_, rfl, ?_⟩
        unfold queueWrite
        dsimp only
        split
        · exact .unset tls _ hplain htls (.inr hresolving) (.inl rfl)
        · refine .unset tls _ hplain htls (.inr hresolving) ?_
          cases s.writeInProgress with
          | true => exact .inl rfl
          | false => exact .inr ⟨s.tls, tls, rfl, rfl⟩
      · cases hstep
    · refine ⟨{ u with tls }, ?_, .unset tls u.strand hplain' htls' (.inr hresolving') (.inl rfl)⟩
      rw [step_scheme hconnect hsend, hstep]
      rfl

theorem Alike.step {u : WebSocketWrites} {a : Action} (h : s.Alike s') (hstep : s.step a = some u) :
    ∃ u', s'.step a = some u' ∧ u.Alike u' := by
  cases h with
  | same => exact ⟨u, hstep, .same⟩
  | unset tls strand hplain htls hscheme hstrand =>
    rcases hstrand with rfl | ⟨t, t', hpump, rfl⟩
    · rcases hscheme with rfl | hresolving
      · exact ⟨u, hstep, .same⟩
      · exact step_unset tls hplain htls hresolving hstep
    · -- only the pump can run on the strand, and there is no stream for it
      cases a with
      | send payload isBinary =>
        cases hstep
        exact ⟨_, rfl, .unset tls _ hplain htls hscheme (.inr ⟨t, t', hpump, rfl⟩)⟩
      | connect c =>
        simp only [WebSocketWrites.step] at hstep ⊢
        split at hstep
        · rename_i hclosing
          cases hstep
          exact ⟨_, if_pos hclosing, .unset tls _ hplain htls hscheme (.inr ⟨t, t', hpump, rfl⟩)⟩
        · rename_i hclosing
          cases hstep
          exact ⟨_, if_neg hclosing, .unset c _ hplain htls (.inl rfl) (.inr ⟨t, t', hpump, rfl⟩)⟩
      | close =>
        cases hstep
        refine ⟨_, rfl, ?_⟩
        unfold closeStep
        dsimp only
        split
        · exact .unset tls _ hplain htls hscheme (.inr ⟨t, t', hpump, rfl⟩)
        · exact .unset tls _ hplain htls hscheme (.inr ⟨t, t', hpump, rfl⟩)
      | pump =>
        rw [pump_noStream hplain htls hpump] at hstep
        cases hstep
        refine ⟨_, pump_noStream (s := { s with tls, strand := .pumping t' }) hplain htls rfl, ?_⟩
        split
        · exact .unset tls .idle hplain htls hscheme (.inl rfl)
        · exact .unset tls .idle hplain htls hscheme (.inl rfl)
      | resolved | strandSend | complete | failed | closeOnStrand | shutdown | resetStreams =>
        simp [WebSocketWrites.step, hpump] at hstep

theorem alike_run {u : WebSocketWrites} (as : List Action) (h : s.Alike s')
    (hrun : run step s as = some u) : ∃ u', run step s' as = some u' ∧ u.Alike u' := by
  induction as generalizing s s' with
  | nil =>
    cases hrun
    exact ⟨s', rfl, h⟩
  | cons a as ih =>
    obtain ⟨t, hstep, hrun⟩ := run_cons_iff.mp hrun
    obtain ⟨t', hstep', ht⟩ := h.step hstep
    obtain ⟨u', hrun', hu⟩ := ih ht hrun
    exact ⟨u', run_cons_iff.mpr ⟨t', hstep', hrun'⟩, hu⟩

/-- Two transports that have done the same on different streams. -/
structure SameWrites (s s' : WebSocketWrites) : Prop where
  closing : s'.closing = s.closing
  writeQueue : s'.writeQueue = s.writeQueue
  writeInProgress : s'.writeInProgress = s.writeInProgress
  outstanding : s'.outstanding = s.outstanding.map (!·)
  accepted : s'.accepted = s.accepted
  written : s'.written = s.written

theorem sameWrites_of_run {as : List Action} (h : run step {} as = some s) :
    ∃ s', run step {} (as.map Action.mirror) = some s' ∧ SameWrites s s' := by
  have hmirror : run step (mirror {}) (as.map Action.mirror) = some s.mirror := by
    rw [run_mirror, h]
    rfl
  have hstart : (mirror {}).Alike {} := .unset false .idle rfl rfl (.inr rfl) (.inl rfl)
  obtain ⟨s', hrun, halike⟩ := alike_run _ hstart hmirror
  refine ⟨s', hrun, ?_⟩
  cases halike with
  | same => exact ⟨rfl, rfl, rfl, rfl, rfl, rfl⟩
  | unset => exact ⟨rfl, rfl, rfl, rfl, rfl, rfl⟩

/-! ## The theorem -/

structure Lawful (s : WebSocketWrites) : Prop where
  single : s.outstanding.length ≤ 1
  inProgress : s.closing = false → s.outstanding ≠ [] → s.writeInProgress = true
  /-- What was written is what was accepted first, in order. -/
  ordered : s.written <+: s.accepted
  /-- The write number `k` is the send number `k`, unmodified. -/
  own : ∀ (k : Nat) (w : QueuedWrite), s.written[k]? = some w → IsSend s.processed k w
  /-- Until the transport closes every processed send is accepted. -/
  all : s.closing = false → s.processed.length = s.accepted.length

theorem Law.lawful (h : s.Law) : s.Lawful := by
  have hordered : s.written <+: s.accepted := by
    have := h.reachable.law.started_prefix
    rwa [List.map_id] at this
  refine ⟨h.single, fun hopen hsome => ((h.aligned hopen).busy hsome).1, hordered, ?_,
    h.numbered.all⟩
  intro k w hk
  refine h.numbered.own k w ?_
  obtain ⟨hlt, rfl⟩ := List.getElem?_eq_some_iff.mp hk
  have hlt' : k < s.accepted.length := Nat.lt_of_lt_of_le hlt hordered.length_le
  rw [List.getElem?_eq_getElem hlt', hordered.getElem]

/-- **The write queue.** Along every run of sends, completions, streams
and shutdowns there is one write at a time, the flag is set meanwhile, and
the payloads are written as they were accepted; with the schemes exchanged
the same run does the same writes. -/
theorem writesInOrder {as : List Action} (h : run step {} as = some s) :
    s.Lawful ∧ ∃ s', run step {} (as.map Action.mirror) = some s' ∧ SameWrites s s' := by
  have hlaw : s.Law ∧ s.Posted :=
    run_preserves (fun s => s.Law ∧ s.Posted)
      (fun _ _ _ hs hstep => ⟨hs.1.step hs.2 hstep, hs.2.step hstep⟩)
      ⟨law_start, fun hp => by cases hp⟩ h
  exact ⟨hlaw.1.lawful, sameWrites_of_run h⟩

/-- A send before `connect`, two more afterwards, and a write that fails. -/
def failedWrite : List Action :=
  [.send [1] true, .strandSend, .pump, .connect false, .resolved 0 true, .send [2] false,
    .send [3] true, .strandSend, .pump, .strandSend, .complete 0 false, .failed false]

theorem writesInOrder_failedWrite :
    ∃ s, run step {} failedWrite = some s ∧ s.written.map (·.payload) = [some [1]] ∧
      s.writeInProgress = false ∧
      (s.Lawful ∧ ∃ s', run step {} (failedWrite.map Action.mirror) = some s' ∧
        SameWrites s s') := by
  have hrun : run step {} failedWrite = some _ := rfl
  exact ⟨_, hrun, rfl, rfl, writesInOrder hrun⟩

end WebSocketWrites

end Sioxx
