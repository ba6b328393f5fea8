/-
Sioxx.Lib.Outbox — an outbox with a gate, shared by any number of senders.

Each sender has at most one event in hand. It looks at the gate, then
either puts the event at the end of the queue or delivers it directly; the
look and the delivery are separate steps. Opening the gate starts a
drainer, which pops the queue and delivers, also in separate steps. The
flag `draining` is what keeps senders from overtaking the queue meanwhile.

`Step` says what one step can do, and the three laws are about whatever
the steps reach:

  * `Gated` — the flag counts the drainers, and behind an open gate with
    no drainer nothing is queued;
  * `Conserved` — every issued event is in one place;
  * `InOrder` — what one sender issued leaves in the order it was issued.

`InOrder` needs `Gated`: a sender goes direct only when the queue is empty
and nobody drains, and from then on its own events cannot enter the queue
before the one in its hand is gone.
-/
import Mathlib.Data.List.Nodup
import Mathlib.Data.List.Perm.Basic
import Mathlib.Data.List.ReduceOption
import Mathlib.Logic.Function.Basic
import Mathlib.Logic.Relation

namespace Sioxx.Lib

/-- What a sender holds: an event that it has not decided about, or one
that it will deliver itself. -/
inductive Hand (ε : Type) where
  | empty
  | undecided (e : ε)
  | direct (e : ε)

namespace Hand

variable {ε : Type}

def event : Hand ε → Option ε
  | .empty => none
  | .undecided e => some e
  | .direct e => some e

@[simp] theorem event_empty : (Hand.empty : Hand ε).event = none := rfl
@[simp] theorem event_undecided (e : ε) : (Hand.undecided e).event = some e := rfl
@[simp] theorem event_direct (e : ε) : (Hand.direct e).event = some e := rfl

end Hand

structure Outbox (ε τ : Type) where
  gate : Bool
  draining : Bool
  queue : List ε
  /-- One entry for each drainer: the event it popped, if any. -/
  drainers : List (Option ε)
  hand : τ → Hand ε
  issued : List ε
  delivered : List ε
  dropped : List ε
  /-- Drainers that left without clearing the flag. -/
  aborts : Nat

namespace Outbox

variable {ε τ : Type}

/-- The events the drainers hold. -/
def held (s : Outbox ε τ) : List ε := s.drainers.reduceOption

/-- Everything that has left its sender's hand. -/
def stored (s : Outbox ε τ) : List ε := s.delivered ++ s.held ++ s.queue ++ s.dropped

/-- Everything that was delivered or still can be, in the order of delivery. -/
def line (s : Outbox ε τ) : List ε := s.delivered ++ s.held ++ s.queue

/-- Nothing has happened yet. -/
def start : Outbox ε τ where
  gate := false
  draining := false
  queue := []
  drainers := []
  hand := fun _ => .empty
  issued := []
  delivered := []
  dropped := []
  aborts := 0

/-! ## The laws -/

/-- The flag counts the drainers inside and those that left abruptly, and
an open gate nobody drains behind has an empty queue. -/
structure Gated (s : Outbox ε τ) : Prop where
  flag : s.drainers.length + s.aborts = s.draining.toNat
  drained : s.gate = true → s.draining = false → s.queue = []

theorem Gated.drainers_nil {s : Outbox ε τ} (h : Gated s) (hidle : s.draining = false) :
    s.drainers = [] := by
  have hflag := h.flag
  rw [hidle, Bool.toNat_false] at hflag
  exact List.length_eq_zero_iff.mp (by omega)

theorem Gated.length_le_one {s : Outbox ε τ} (h : Gated s) : s.drainers.length ≤ 1 := by
  have hflag := h.flag
  have := Bool.toNat_le s.draining
  omega

/-- A drainer in the list is the only one. -/
theorem Gated.alone {s : Outbox ε τ} (h : Gated s) {l r : List (Option ε)} {x : Option ε}
    (hd : s.drainers = l ++ x :: r) : l = [] ∧ r = [] := by
  have hlen := h.length_le_one
  rw [hd, List.length_append, List.length_cons] at hlen
  exact ⟨List.length_eq_zero_iff.mp (by omega), List.length_eq_zero_iff.mp (by omega)⟩

/-- While a drainer is inside, the flag is up. -/
theorem Gated.draining_of_mem {s : Outbox ε τ} (h : Gated s) {l r : List (Option ε)}
    {x : Option ε} (hd : s.drainers = l ++ x :: r) : s.draining = true := by
  cases hflag : s.draining with
  | true => rfl
  | false =>
    rw [h.drainers_nil hflag] at hd
    simp at hd

theorem gated_start : Gated (start : Outbox ε τ) := ⟨rfl, fun _ _ => rfl⟩

/-- Every issued event is stored once or in its owner's hand, and nothing
else is in the outbox. -/
structure Conserved (owner : ε → τ) (s : Outbox ε τ) : Prop where
  fresh : s.issued.Nodup
  once : s.stored.Nodup
  apart : ∀ t e, (s.hand t).event = some e → e ∉ s.stored
  owned : ∀ t e, (s.hand t).event = some e → owner e = t ∧ e ∈ s.issued
  storedIssued : ∀ e ∈ s.stored, e ∈ s.issued
  covered : ∀ e ∈ s.issued, e ∈ s.stored ∨ (s.hand (owner e)).event = some e

theorem conserved_start {owner : ε → τ} : Conserved owner (start : Outbox ε τ) where
  fresh := List.nodup_nil
  once := List.nodup_nil
  apart := fun _ _ h => by cases h
  owned := fun _ _ h => by cases h
  storedIssued := fun _ h => by cases h
  covered := fun _ h => by cases h

/-- The events of one owner, delivered ones first and the one in its hand
last, are in the order of issue; one in hand that goes direct has no event
of its owner before it. -/
structure InOrder [DecidableEq τ] (owner : ε → τ) (s : Outbox ε τ) : Prop where
  ordered : ∀ t, (s.line.filter (fun e => owner e = t) ++ (s.hand t).event.toList).Sublist
    (s.issued.filter (fun e => owner e = t))
  ahead : ∀ t e, s.hand t = .direct e → ∀ x ∈ s.held ++ s.queue, owner x ≠ t

theorem inOrder_start [DecidableEq τ] {owner : ε → τ} :
    InOrder owner (start : Outbox ε τ) where
  ordered := fun _ => List.Sublist.refl _
  ahead := fun _ _ h => by cases h

/-! ## Steps -/

variable [DecidableEq τ] (owner : ε → τ)

/-- One step of the outbox. -/
inductive Step : Outbox ε τ → Outbox ε τ → Prop
  | issue (s : Outbox ε τ) (e : ε) (hhand : s.hand (owner e) = .empty) (hnew : e ∉ s.issued) :
      Step s { s with issued := s.issued ++ [e],
                      hand := Function.update s.hand (owner e) (.undecided e) }
  | enqueue (s : Outbox ε τ) (t : τ) (e : ε) (hhand : s.hand t = .undecided e)
      (hwait : s.gate = false ∨ s.draining = true) :
      Step s { s with queue := s.queue ++ [e], hand := Function.update s.hand t .empty }
  | goDirect (s : Outbox ε τ) (t : τ) (e : ε) (hhand : s.hand t = .undecided e)
      (hgate : s.gate = true) (hidle : s.draining = false) :
      Step s { s with hand := Function.update s.hand t (.direct e) }
  | deliver (s : Outbox ε τ) (t : τ) (e : ε) (hhand : s.hand t = .direct e) :
      Step s { s with delivered := s.delivered ++ [e], hand := Function.update s.hand t .empty }
  | discard (s : Outbox ε τ) (t : τ) (e : ε) (hhand : s.hand t = .undecided e) :
      Step s { s with dropped := s.dropped ++ [e], hand := Function.update s.hand t .empty }
  | shut (s : Outbox ε τ) : Step s { s with gate := false }
  | raise (s : Outbox ε τ) (hopen : s.gate = true ∨ s.draining = true) :
      Step s { s with gate := true }
  | reopen (s : Outbox ε τ) (hidle : s.draining = false) :
      Step s { s with gate := true, draining := true, drainers := s.drainers ++ [none] }
  | pop (s : Outbox ε τ) (l r : List (Option ε)) (e : ε) (rest : List ε)
      (hd : s.drainers = l ++ none :: r) (hgate : s.gate = true) (hq : s.queue = e :: rest) :
      Step s { s with queue := rest, drainers := l ++ some e :: r }
  | drainDeliver (s : Outbox ε τ) (l r : List (Option ε)) (e : ε)
      (hd : s.drainers = l ++ some e :: r) :
      Step s { s with delivered := s.delivered ++ [e], drainers := l ++ none :: r }
  | drainDiscard (s : Outbox ε τ) (l r : List (Option ε)) (e : ε)
      (hd : s.drainers = l ++ some e :: r) :
      Step s { s with dropped := s.dropped ++ [e], drainers := l ++ none :: r }
  | drainEnd (s : Outbox ε τ) (l r : List (Option ε)) (hd : s.drainers = l ++ none :: r)
      (hstop : s.gate = false ∨ s.queue = []) :
      Step s { s with draining := false, drainers := l ++ r }
  | drainAbort (s : Outbox ε τ) (l r : List (Option ε)) (hd : s.drainers = l ++ none :: r) :
      Step s { s with drainers := l ++ r, aborts := s.aborts + 1 }
  | purge (s : Outbox ε τ) (drop : ε → Bool) :
      Step s { s with queue := s.queue.filter (fun e => !drop e),
                      dropped := s.dropped ++ s.queue.filter drop }

variable {owner}

theorem Step.gated {s s' : Outbox ε τ} (hstep : Step owner s s') (h : Gated s) : Gated s' := by
  cases hstep with
  | issue e _ _ => exact ⟨h.flag, h.drained⟩
  | enqueue t e _ hwait =>
    refine ⟨h.flag, fun hgate hidle => ?_⟩
    rcases hwait with hw | hw
    · rw [hw] at hgate; cases hgate
    · rw [hw] at hidle; cases hidle
  | goDirect t e _ _ _ => exact ⟨h.flag, h.drained⟩
  | deliver t e _ => exact ⟨h.flag, h.drained⟩
  | discard t e _ => exact ⟨h.flag, h.drained⟩
  | shut => exact ⟨h.flag, fun hgate => by cases hgate⟩
  | raise hopen =>
    refine ⟨h.flag, fun _ hidle => ?_⟩
    rcases hopen with hw | hw
    · exact h.drained hw hidle
    · rw [hw] at hidle; cases hidle
  | reopen hidle =>
    refine ⟨?_, fun _ hidle' => by cases hidle'⟩
    have hflag := h.flag
    rw [hidle, Bool.toNat_false] at hflag
    simp only [List.length_append, List.length_singleton, Bool.toNat_true]
    omega
  | pop l r e rest hd hgate hq =>
    have hup := h.draining_of_mem hd
    refine ⟨?_, fun _ hidle => by rw [hup] at hidle; cases hidle⟩
    simpa [hd] using h.flag
  | drainDeliver l r e hd => exact ⟨by simpa [hd] using h.flag, h.drained⟩
  | drainDiscard l r e hd => exact ⟨by simpa [hd] using h.flag, h.drained⟩
  | drainEnd l r hd hstop =>
    have hup := h.draining_of_mem hd
    have hflag := h.flag
    obtain ⟨rfl, rfl⟩ := h.alone hd
    rw [hup, hd] at hflag
    refine ⟨?_, fun hgate _ => ?_⟩
    · simp at hflag
      simp [hflag]
    · rcases hstop with hs | hs
      · rw [hs] at hgate; cases hgate
      · exact hs
  | drainAbort l r hd =>
    refine ⟨?_, h.drained⟩
    have hflag := h.flag
    rw [hd] at hflag
    simp only [List.length_append, List.length_cons] at hflag ⊢
    omega
  | purge drop =>
    refine ⟨h.flag, fun hgate hidle => ?_⟩
    show s.queue.filter (fun e => !drop e) = []
    rw [h.drained hgate hidle]
    rfl

/-! ## Conservation -/

/-- The three ways a step can move events: a new one comes into its
owner's hand, one goes from a hand into the store, or hands and store keep
theirs. -/
theorem Step.moves {s s' : Outbox ε τ} (hstep : Step owner s s') :
    (∃ e, s.hand (owner e) = .empty ∧ e ∉ s.issued ∧ s'.issued = s.issued ++ [e] ∧
        s'.stored = s.stored ∧ s'.hand = Function.update s.hand (owner e) (.undecided e)) ∨
      (∃ t e, (s.hand t).event = some e ∧ s'.issued = s.issued ∧ s'.stored.Perm (e :: s.stored) ∧
        s'.hand = Function.update s.hand t .empty) ∨
      (s'.issued = s.issued ∧ s'.stored.Perm s.stored ∧
        ∀ t, (s'.hand t).event = (s.hand t).event) := by
  classical
  cases hstep with
  | issue e hhand hnew => exact .inl ⟨e, hhand, hnew, rfl, rfl, rfl⟩
  | enqueue t e hhand _ =>
    refine .inr (.inl ⟨t, e, by rw [hhand]; rfl, rfl, List.perm_iff_count.mpr fun a => ?_, rfl⟩)
    simp only [stored, held, List.count_append, List.count_cons, List.count_nil]
    omega
  | goDirect t e hhand _ _ =>
    refine .inr (.inr ⟨rfl, List.Perm.refl _, fun u => ?_⟩)
    by_cases hu : u = t
    · subst hu
      simp [hhand]
    · simp [Function.update_of_ne hu]
  | deliver t e hhand =>
    refine .inr (.inl ⟨t, e, by rw [hhand]; rfl, rfl, List.perm_iff_count.mpr fun a => ?_, rfl⟩)
    simp only [stored, held, List.count_append, List.count_cons, List.count_nil]
    omega
  | discard t e hhand =>
    refine .inr (.inl ⟨t, e, by rw [hhand]; rfl, rfl, List.perm_iff_count.mpr fun a => ?_, rfl⟩)
    simp only [stored, held, List.count_append, List.count_cons, List.count_nil]
    omega
  | shut => exact .inr (.inr ⟨rfl, List.Perm.refl _, fun _ => rfl⟩)
  | raise _ => exact .inr (.inr ⟨rfl, List.Perm.refl _, fun _ => rfl⟩)
  | reopen _ =>
    exact .inr (.inr ⟨rfl, by simp [stored, held, List.reduceOption_append], fun _ => rfl⟩)
  | pop l r e rest hd _ hq =>
    refine .inr (.inr ⟨rfl, List.perm_iff_count.mpr fun a => ?_, fun _ => rfl⟩)
    simp only [stored, held, hd, hq, List.reduceOption_append, List.reduceOption_cons_of_some,
      List.reduceOption_cons_of_none, List.count_append, List.count_cons]
    omega
  | drainDeliver l r e hd =>
    refine .inr (.inr ⟨rfl, List.perm_iff_count.mpr fun a => ?_, fun _ => rfl⟩)
    simp only [stored, held, hd, List.reduceOption_append, List.reduceOption_cons_of_some,
      List.reduceOption_cons_of_none, List.count_append, List.count_cons, List.count_nil]
    omega
  | drainDiscard l r e hd =>
    refine .inr (.inr ⟨rfl, List.perm_iff_count.mpr fun a => ?_, fun _ => rfl⟩)
    simp only [stored, held, hd, List.reduceOption_append, List.reduceOption_cons_of_some,
      List.reduceOption_cons_of_none, List.count_append, List.count_cons, List.count_nil]
    omega
  | drainEnd l r hd _ =>
    exact .inr (.inr ⟨rfl, by simp [stored, held, hd, List.reduceOption_append], fun _ => rfl⟩)
  | drainAbort l r hd =>
    exact .inr (.inr ⟨rfl, by simp [stored, held, hd, List.reduceOption_append], fun _ => rfl⟩)
  | purge drop =>
    refine .inr (.inr ⟨rfl, List.perm_iff_count.mpr fun a => ?_, fun _ => rfl⟩)
    have hsplit := (List.filter_append_perm drop s.queue).count_eq a
    simp only [List.count_append] at hsplit
    simp only [stored, held, List.count_append]
    omega

theorem Step.conserved {s s' : Outbox ε τ} (hstep : Step owner s s') (h : Conserved owner s) :
    Conserved owner s' := by
  rcases hstep.moves with ⟨e, hempty, hnew, hissued, hstored, hhand⟩ |
    ⟨t, e, hheld, hissued, hstored, hhand⟩ | ⟨hissued, hstored, hhand⟩
  · have hother : ∀ u x, (s'.hand u).event = some x → (u = owner e ∧ x = e) ∨
        (s.hand u).event = some x := by
      intro u x hx
      by_cases hu : u = owner e
      · subst hu
        rw [hhand, Function.update_self] at hx
        exact .inl ⟨rfl, (Option.some.inj hx).symm⟩
      · rw [hhand, Function.update_of_ne hu] at hx
        exact .inr hx
    constructor
    · rw [hissued]
      exact List.Nodup.append h.fresh (List.nodup_singleton e) (by simpa using hnew)
    · rw [hstored]; exact h.once
    · intro u x hx
      rw [hstored]
      rcases hother u x hx with ⟨-, rfl⟩ | hx
      · exact fun hmem => hnew (h.storedIssued x hmem)
      · exact h.apart u x hx
    · intro u x hx
      rw [hissued]
      rcases hother u x hx with ⟨rfl, rfl⟩ | hx
      · exact ⟨rfl, by simp⟩
      · exact ⟨(h.owned u x hx).1, List.mem_append_left _ (h.owned u x hx).2⟩
    · intro x hx
      rw [hstored] at hx
      rw [hissued]
      exact List.mem_append_left _ (h.storedIssued x hx)
    · intro x hx
      rw [hissued, List.mem_append, List.mem_singleton] at hx
      rw [hstored, hhand]
      rcases hx with hx | rfl
      · rcases h.covered x hx with hx' | hx'
        · exact .inl hx'
        · have hne : owner x ≠ owner e := by
            intro heq
            rw [heq, hempty] at hx'
            cases hx'
          exact .inr (by rw [Function.update_of_ne hne]; exact hx')
      · exact .inr (by rw [Function.update_self]; rfl)
  · have hother : ∀ u x, (s'.hand u).event = some x → u ≠ t ∧ (s.hand u).event = some x := by
      intro u x hx
      by_cases hu : u = t
      · subst hu
        rw [hhand, Function.update_self] at hx
        cases hx
      · rw [hhand, Function.update_of_ne hu] at hx
        exact ⟨hu, hx⟩
    have hmem : ∀ x, x ∈ s'.stored ↔ x = e ∨ x ∈ s.stored := by
      intro x
      rw [hstored.mem_iff, List.mem_cons]
    constructor
    · rw [hissued]; exact h.fresh
    · exact hstored.nodup_iff.mpr (List.nodup_cons.mpr ⟨h.apart t e hheld, h.once⟩)
    · intro u x hx
      obtain ⟨hu, hx⟩ := hother u x hx
      rw [hmem]
      rintro (rfl | hx')
      · exact hu ((h.owned u x hx).1.symm.trans (h.owned t x hheld).1)
      · exact h.apart u x hx hx'
    · intro u x hx
      rw [hissued]
      exact h.owned u x (hother u x hx).2
    · intro x hx
      rw [hissued]
      rcases (hmem x).mp hx with rfl | hx
      · exact (h.owned t x hheld).2
      · exact h.storedIssued x hx
    · intro x hx
      rw [hissued] at hx
      rw [hmem]
      rcases h.covered x hx with hx' | hx'
      · exact .inl (.inr hx')
      · by_cases hu : owner x = t
        · rw [hu, hheld] at hx'
          exact .inl (.inl (Option.some.inj hx').symm)
        · exact .inr (by rw [hhand, Function.update_of_ne hu]; exact hx')
  · constructor
    · rw [hissued]; exact h.fresh
    · exact hstored.nodup_iff.mpr h.once
    · intro u x hx
      rw [hhand] at hx
      exact fun hmem => h.apart u x hx (hstored.mem_iff.mp hmem)
    · intro u x hx
      rw [hhand] at hx
      rw [hissued]
      exact h.owned u x hx
    · intro x hx
      rw [hissued]
      exact h.storedIssued x (hstored.mem_iff.mp hx)
    · intro x hx
      rw [hissued] at hx
      rw [hhand, hstored.mem_iff]
      exact h.covered x hx

/-- Where an issued event can be. -/
inductive Place where
  | delivered
  | held
  | queued
  | dropped
  | inHand
  deriving DecidableEq, Repr

def At (owner : ε → τ) (s : Outbox ε τ) (e : ε) : Place → Prop
  | .delivered => e ∈ s.delivered
  | .held => e ∈ s.held
  | .queued => e ∈ s.queue
  | .dropped => e ∈ s.dropped
  | .inHand => (s.hand (owner e)).event = some e

omit [DecidableEq τ] in
theorem mem_stored {s : Outbox ε τ} {e : ε} :
    e ∈ s.stored ↔ e ∈ s.delivered ∨ e ∈ s.held ∨ e ∈ s.queue ∨ e ∈ s.dropped := by
  simp only [stored, List.mem_append, or_assoc]

omit [DecidableEq τ] in
/-- An issued event is in exactly one place. -/
theorem Conserved.existsUnique_place {s : Outbox ε τ} (h : Conserved owner s) {e : ε}
    (he : e ∈ s.issued) : ∃! place, s.At owner e place := by
  have hexists : ∃ place, s.At owner e place := by
    rcases h.covered e he with hmem | hhand
    · rcases mem_stored.mp hmem with hmem | hmem | hmem | hmem
      · exact ⟨.delivered, hmem⟩
      · exact ⟨.held, hmem⟩
      · exact ⟨.queued, hmem⟩
      · exact ⟨.dropped, hmem⟩
    · exact ⟨.inHand, hhand⟩
  -- the parts of the store are disjoint, and apart from the hands
  have honce := h.once
  simp only [stored, List.append_assoc, List.nodup_append', List.disjoint_append_right] at honce
  obtain ⟨-, ⟨-, ⟨-, -, hqd⟩, hhq, hhd⟩, hdh, hdq, hdd⟩ := honce
  specialize @hdh e
  specialize @hdq e
  specialize @hdd e
  specialize @hhq e
  specialize @hhd e
  specialize @hqd e
  have hhand := h.apart (owner e) e
  rw [mem_stored] at hhand
  obtain ⟨place, hplace⟩ := hexists
  refine ⟨place, hplace, fun other hother => ?_⟩
  cases place <;> cases other <;> simp only [At] at hplace hother <;> grind

/-! ## Order -/

/-- Nobody goes direct by a hand that is emptied or not yet decided. -/
theorem direct_of_update {f : τ → Hand ε} {t u : τ} {x : Hand ε} {e : ε}
    (hx : x ≠ .direct e) (h : Function.update f t x u = .direct e) : u ≠ t ∧ f u = .direct e := by
  by_cases hu : u = t
  · subst hu
    rw [Function.update_self] at h
    exact absurd h hx
  · rw [Function.update_of_ne hu] at h
    exact ⟨hu, h⟩

/-- A step that only shortens the line and leaves hands alone keeps order. -/
theorem InOrder.of_sublist {s s' : Outbox ε τ} (h : InOrder owner s)
    (hline : s'.line.Sublist s.line) (hhand : s'.hand = s.hand) (hissued : s'.issued = s.issued)
    (hwait : ∀ x ∈ s'.held ++ s'.queue, x ∈ s.held ++ s.queue) : InOrder owner s' where
  ordered := fun t => by
    rw [hhand, hissued]
    exact ((hline.filter _).append_right _).trans (h.ordered t)
  ahead := fun t e hd x hx => by
    rw [hhand] at hd
    exact h.ahead t e hd x (hwait x hx)

theorem InOrder.issue {s : Outbox ε τ} (h : InOrder owner s) {e : ε}
    (hhand : s.hand (owner e) = .empty) :
    InOrder owner { s with issued := s.issued ++ [e],
                           hand := Function.update s.hand (owner e) (.undecided e) } := by
  constructor
  · intro t
    show (s.line.filter _ ++ _).Sublist _
    rw [List.filter_append]
    by_cases ht : t = owner e
    · subst ht
      have hord := h.ordered (owner e)
      rw [hhand] at hord
      simp only [Function.update_self, Hand.event_undecided, Hand.event_empty,
        Option.toList_none, Option.toList_some, List.append_nil] at hord ⊢
      exact hord.append (by simp)
    · simp only [Function.update_of_ne ht]
      exact (h.ordered t).trans (List.sublist_append_left _ _)
  · intro t x hx
    exact h.ahead t x (direct_of_update (by simp) hx).2

/-- The event comes last in the line, behind what its owner has there. -/
theorem InOrder.enqueue {s : Outbox ε τ} (hc : Conserved owner s) (h : InOrder owner s) {t : τ}
    {e : ε} (hhand : s.hand t = .undecided e) :
    InOrder owner { s with queue := s.queue ++ [e], hand := Function.update s.hand t .empty } := by
  obtain ⟨howner, -⟩ := hc.owned t e (by rw [hhand]; rfl)
  have hline : ({ s with queue := s.queue ++ [e], hand := Function.update s.hand t .empty } :
      Outbox ε τ).line = s.line ++ [e] := by
    simp [line, held]
  constructor
  · intro u
    rw [hline, List.filter_append]
    by_cases hu : u = t
    · subst hu
      have hord := h.ordered u
      rw [hhand] at hord
      simpa [howner] using hord
    · simpa [Function.update_of_ne hu, howner, Ne.symm hu] using h.ordered u
  · intro u x hx y hy
    obtain ⟨hu, hx⟩ := direct_of_update (by simp) hx
    have hy' : y ∈ s.held ++ s.queue ++ [e] := by
      rw [List.append_assoc]
      exact hy
    rcases List.mem_append.mp hy' with hy | hy
    · exact h.ahead u x hx y hy
    · rw [List.mem_singleton.mp hy, howner]
      exact Ne.symm hu

theorem InOrder.goDirect {s : Outbox ε τ} (hg : Gated s) (h : InOrder owner s) {t : τ} {e : ε}
    (hhand : s.hand t = .undecided e) (hgate : s.gate = true) (hidle : s.draining = false) :
    InOrder owner { s with hand := Function.update s.hand t (.direct e) } := by
  constructor
  · intro u
    by_cases hu : u = t
    · subst hu
      have hord := h.ordered u
      rw [hhand] at hord
      simpa [line, held] using hord
    · simpa [line, held, Function.update_of_ne hu] using h.ordered u
  · intro u x hx y hy
    by_cases hu : u = t
    · -- nobody drains behind the open gate, so nothing waits
      simp [held, hg.drainers_nil hidle, hg.drained hgate hidle] at hy
    · simp only [Function.update_of_ne hu] at hx
      exact h.ahead u x hx y hy

/-- Nothing of its owner waits, so the event may leave before the line. -/
theorem InOrder.deliver {s : Outbox ε τ} (hc : Conserved owner s) (h : InOrder owner s) {t : τ}
    {e : ε} (hhand : s.hand t = .direct e) :
    InOrder owner { s with delivered := s.delivered ++ [e],
                           hand := Function.update s.hand t .empty } := by
  obtain ⟨howner, -⟩ := hc.owned t e (by rw [hhand]; rfl)
  constructor
  · intro u
    by_cases hu : u = t
    · subst hu
      have hord := h.ordered u
      have hnone : (s.held ++ s.queue).filter (fun x => owner x = u) = [] := by
        rw [List.filter_eq_nil_iff]
        intro x hx
        simpa using h.ahead u e hhand x hx
      rw [List.filter_append, List.append_eq_nil_iff] at hnone
      rw [hhand, line, List.filter_append, List.filter_append, hnone.1, hnone.2] at hord
      have hnew :
          ((s.delivered ++ [e] ++ s.held ++ s.queue).filter (fun x => owner x = u)).Sublist
            (s.issued.filter (fun x => owner x = u)) := by
        simp only [List.filter_append, hnone.1, hnone.2]
        simpa [howner] using hord
      simpa [line, held] using hnew
    · simpa [line, held, Function.update_of_ne hu, howner, Ne.symm hu] using h.ordered u
  · intro u x hx y hy
    exact h.ahead u x (direct_of_update (by simp) hx).2 y hy

theorem InOrder.discard {s : Outbox ε τ} (h : InOrder owner s) (t : τ) (e : ε) :
    InOrder owner { s with dropped := s.dropped ++ [e],
                           hand := Function.update s.hand t .empty } := by
  constructor
  · intro u
    by_cases hu : u = t
    · subst hu
      simp only [Function.update_self, Hand.event_empty, Option.toList_none, List.append_nil]
      exact (List.sublist_append_left _ _).trans (h.ordered u)
    · simpa [line, held, Function.update_of_ne hu] using h.ordered u
  · intro u x hx y hy
    exact h.ahead u x (direct_of_update (by simp) hx).2 y hy

/-- A drainer is done with the event it popped, which was the first of the
line. -/
theorem InOrder.popped {s s' : Outbox ε τ} (hg : Gated s) (h : InOrder owner s)
    {l r : List (Option ε)} {e : ε} (hd : s.drainers = l ++ some e :: r)
    (hdrainers : s'.drainers = l ++ none :: r) (hqueue : s'.queue = s.queue)
    (hdelivered : s'.delivered.Sublist (s.delivered ++ [e])) (hhand : s'.hand = s.hand)
    (hissued : s'.issued = s.issued) : InOrder owner s' := by
  obtain ⟨rfl, rfl⟩ := hg.alone hd
  refine h.of_sublist ?_ hhand hissued ?_
  · simp only [line, held, hd, hdrainers, hqueue]
    simpa using hdelivered.append_right s.queue
  · intro x hx
    simp only [held, hd, hdrainers, hqueue] at hx ⊢
    simp at hx ⊢
    exact .inr hx

theorem Step.inOrder {s s' : Outbox ε τ} (hstep : Step owner s s') (hg : Gated s)
    (hc : Conserved owner s) (h : InOrder owner s) : InOrder owner s' := by
  cases hstep with
  | issue e hhand _ => exact h.issue hhand
  | enqueue t e hhand _ => exact h.enqueue hc hhand
  | goDirect t e hhand hgate hidle => exact h.goDirect hg hhand hgate hidle
  | deliver t e hhand => exact h.deliver hc hhand
  | discard t e _ => exact h.discard t e
  | shut => exact h.of_sublist (List.Sublist.refl _) rfl rfl fun _ hx => hx
  | raise _ => exact h.of_sublist (List.Sublist.refl _) rfl rfl fun _ hx => hx
  | reopen _ =>
    refine h.of_sublist ?_ rfl rfl ?_ <;> simp [line, held, List.reduceOption_append]
  | pop l r e rest hd _ hq =>
    -- the drainer held nothing before, so the popped event is still first
    obtain ⟨rfl, rfl⟩ := hg.alone hd
    refine h.of_sublist ?_ rfl rfl ?_ <;> simp [line, held, hd, hq]
  | drainDeliver l r e hd => exact h.popped hg hd rfl rfl (List.Sublist.refl _) rfl rfl
  | drainDiscard l r e hd =>
    exact h.popped hg hd rfl rfl (List.sublist_append_left _ _) rfl rfl
  | drainEnd l r hd _ =>
    refine h.of_sublist ?_ rfl rfl ?_ <;> simp [line, held, hd, List.reduceOption_append]
  | drainAbort l r hd =>
    refine h.of_sublist ?_ rfl rfl ?_ <;> simp [line, held, hd, List.reduceOption_append]
  | purge drop =>
    refine h.of_sublist ?_ rfl rfl ?_
    · exact (List.Sublist.refl _).append (List.filter_sublist)
    · intro x hx
      simp only [held, List.mem_append, List.mem_filter] at hx ⊢
      exact hx.imp id And.left

/-! ## Runs -/

/-- Reachable from the start in any number of steps. -/
def Reachable (owner : ε → τ) (s : Outbox ε τ) : Prop :=
  Relation.ReflTransGen (Step owner) start s

/-- **The laws of the outbox** hold in every reachable state. -/
theorem Reachable.laws {s : Outbox ε τ} (h : Reachable owner s) :
    Gated s ∧ Conserved owner s ∧ InOrder owner s := by
  induction h with
  | refl => exact ⟨gated_start, conserved_start, inOrder_start⟩
  | tail _ hstep ih =>
    obtain ⟨hg, hc, ho⟩ := ih
    exact ⟨hstep.gated hg, hstep.conserved hc, hstep.inOrder hg hc ho⟩

/-- The delivered events of one owner are delivered as they were issued. -/
theorem InOrder.delivered_sublist {s : Outbox ε τ} (h : InOrder owner s) (t : τ) :
    (s.delivered.filter (fun e => owner e = t)).Sublist
      (s.issued.filter (fun e => owner e = t)) := by
  have hpre : s.delivered.Sublist s.line := by
    rw [line, List.append_assoc]
    exact List.sublist_append_left _ _
  exact ((hpre.filter _).trans (List.sublist_append_left _ _)).trans (h.ordered t)

end Outbox

end Sioxx.Lib
