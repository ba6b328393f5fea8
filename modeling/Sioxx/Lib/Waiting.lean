/-
Sioxx.Lib.Waiting — threads that wait for each other.

A thread waits for at most one other at a time: the owner of a lock or a
thread it joins. So the wait-for graph of a state is a function `awaits`,
and a deadlock is a thread that waits for itself through others.
-/
import Mathlib.Logic.Relation

namespace Sioxx.Lib

variable {α : Type} {awaits : α → Option α}

/-- No thread waits for itself, directly or through others. -/
def WaitsAcyclic (awaits : α → Option α) : Prop :=
  ∀ t, ¬ Relation.TransGen (fun t u => awaits t = some u) t t

/-- Waiting only for a lower rank is no circle. -/
theorem waitsAcyclic_of_rank (rank : α → Nat)
    (h : ∀ t u, awaits t = some u → rank u < rank t) : WaitsAcyclic awaits := by
  have hlower : ∀ t u, Relation.TransGen (fun t u => awaits t = some u) t u → rank u < rank t := by
    intro t u hpath
    induction hpath with
    | single hstep => exact h _ _ hstep
    | tail _ hstep ih => exact Nat.lt_trans (h _ _ hstep) ih
  intro t hcycle
  exact Nat.lt_irrefl _ (hlower t t hcycle)

theorem not_waitsAcyclic {t u v : α} (htu : awaits t = some u) (huv : awaits u = some v)
    (hvt : awaits v = some t) : ¬ WaitsAcyclic awaits := fun h =>
  h t (.tail (.tail (.single htu) huv) hvt)

end Sioxx.Lib
