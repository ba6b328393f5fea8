/-
Sioxx.Lib.Pump — a queue that is emptied by one worker, one item at a
time.

Items are accepted at the back of a queue. Whoever empties it takes the
first item, starts the operation on it, and takes the next one only after
that operation has completed. A pump can be stopped: from then on nothing
is accepted, and what is still queued may be thrown away.

`started` is what the operations were started with, through an encoding
of the items. The law is that this is, in order, what was accepted: with
the item in hand and the queue behind it, exactly that until the pump is
stopped (`Law.conserved`), and a front part of it ever after
(`Law.ordered`); and that there is one operation at a time
(`Law.single`).

An implementation shows that each of its steps is a few steps of a pump;
`Reachable.law` then gives the law in every state of every run.
-/
import Mathlib.Data.List.Basic
import Mathlib.Logic.Relation

namespace Sioxx.Lib

structure Pump (α β : Type) where
  queue : List α
  /-- Taken from the queue, its operation not started yet. -/
  held : Option α
  inFlight : Nat
  stopped : Bool
  accepted : List α
  started : List β

namespace Pump

variable {α β : Type}

def start : Pump α β where
  queue := []
  held := none
  inFlight := 0
  stopped := false
  accepted := []
  started := []

/-- What is accepted and not started. -/
def waiting (p : Pump α β) : List α := p.held.toList ++ p.queue

variable (encode : α → β)

inductive Step : Pump α β → Pump α β → Prop
  | accept (p : Pump α β) (x : α) (hopen : p.stopped = false) :
      Step p { p with queue := p.queue ++ [x], accepted := p.accepted ++ [x] }
  | take (p : Pump α β) (x : α) (rest : List α) (hqueue : p.queue = x :: rest)
      (hhand : p.held = none) (hidle : p.inFlight = 0) :
      Step p { p with queue := rest, held := some x }
  | begin (p : Pump α β) (x : α) (hhand : p.held = some x) :
      Step p { p with
        held := none, started := p.started ++ [encode x], inFlight := p.inFlight + 1 }
  | complete (p : Pump α β) (n : Nat) (hflight : p.inFlight = n + 1) :
      Step p { p with inFlight := n }
  | stop (p : Pump α β) (queue : List α) (hqueue : queue = p.queue ∨ queue = []) :
      Step p { p with queue, stopped := true }

structure Law (p : Pump α β) : Prop where
  conserved : p.stopped = false →
    p.started ++ p.waiting.map encode = p.accepted.map encode
  ordered : p.started ++ p.waiting.map encode <+: p.accepted.map encode
  single : p.held.toList.length + p.inFlight ≤ 1

variable {encode} {p p' : Pump α β}

theorem law_start : Law encode (start : Pump α β) :=
  ⟨fun _ => rfl, List.prefix_refl _, Nat.zero_le _⟩

/-- What waits only moves from the queue to the hand and on to the started
operations, or is new at both ends. -/
theorem Step.law (hstep : Step encode p p') (h : Law encode p) : Law encode p' := by
  have hsingle := h.single
  cases hstep with
  | accept x hopen =>
    have hall : p.started ++ (p.held.toList ++ (p.queue ++ [x])).map encode
        = (p.accepted ++ [x]).map encode := by
      have hbefore := h.conserved hopen
      simp only [waiting, List.map_append, ← List.append_assoc] at hbefore ⊢
      rw [hbefore]
    exact ⟨fun _ => hall, hall ▸ List.prefix_refl _, hsingle⟩
  | take x rest hqueue hhand hidle =>
    have hwaiting : waiting { p with queue := rest, held := some x } = p.waiting := by
      simp [waiting, hqueue, hhand]
    refine ⟨fun hopen => ?_, ?_, ?_⟩
    · rw [hwaiting]
      exact h.conserved hopen
    · rw [hwaiting]
      exact h.ordered
    · simp [hidle]
  | begin x hhand =>
    have hstarted : p.started ++ [encode x] ++ (([] : List α) ++ p.queue).map encode
        = p.started ++ p.waiting.map encode := by
      simp [waiting, hhand]
    refine ⟨fun hopen => ?_, ?_, ?_⟩
    · exact hstarted.trans (h.conserved hopen)
    · show p.started ++ [encode x] ++ (([] : List α) ++ p.queue).map encode <+: _
      rw [hstarted]
      exact h.ordered
    · simp only [hhand, Option.toList_some, List.length_singleton] at hsingle
      show 0 + (p.inFlight + 1) ≤ 1
      omega
  | complete n hflight =>
    refine ⟨h.conserved, h.ordered, ?_⟩
    show p.held.toList.length + n ≤ 1
    omega
  | stop queue hqueue =>
    refine ⟨fun hopen => (by cases hopen), ?_, hsingle⟩
    refine List.IsPrefix.trans ?_ h.ordered
    rcases hqueue with rfl | rfl
    · exact List.prefix_refl _
    · rw [List.prefix_append_right_inj]
      simp [waiting]

variable (encode) in
def Reachable (p : Pump α β) : Prop := Relation.ReflTransGen (Step encode) start p

theorem Reachable.law (h : Reachable encode p) : Law encode p := by
  induction h with
  | refl => exact law_start
  | tail _ hstep ih => exact hstep.law ih

/-- The started operations are a front part of what was accepted. -/
theorem Law.started_prefix (h : Law encode p) : p.started <+: p.accepted.map encode :=
  (List.prefix_append _ _).trans h.ordered

end Pump

end Sioxx.Lib
