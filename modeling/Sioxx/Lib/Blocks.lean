/-
Sioxx.Lib.Blocks — a list of numbered entries that is one block after the
other.

The entries with number `k` are `l.filter (fun x => x.1 = k)`, and the list
is the concatenation of these blocks for the numbers below `n`. An entry
with the last number may be appended, and a number nobody has used adds an
empty block.
-/
import Mathlib.Data.List.Basic

namespace Sioxx.Lib

variable {β : Type} {l : List (Nat × β)} {n : Nat}

theorem lt_of_blocks (h : l = (List.range n).flatMap (fun k => l.filter (fun x => x.1 = k)))
    {x : Nat × β} (hx : x ∈ l) : x.1 < n := by
  rw [h] at hx
  obtain ⟨k, hk, hx⟩ := List.mem_flatMap.mp hx
  rw [List.mem_range] at hk
  rw [List.mem_filter, decide_eq_true_eq] at hx
  exact hx.2 ▸ hk

theorem filter_of_fresh (h : ∀ x ∈ l, x.1 < n) : l.filter (fun x => x.1 = n) = [] := by
  rw [List.filter_eq_nil_iff]
  intro x hx
  rw [decide_eq_true_eq]
  exact Nat.ne_of_lt (h x hx)

/-- A number nobody has used adds an empty block. -/
theorem blocks_fresh (h : l = (List.range n).flatMap (fun k => l.filter (fun x => x.1 = k))) :
    l = (List.range (n + 1)).flatMap (fun k => l.filter (fun x => x.1 = k)) := by
  have hlast := filter_of_fresh fun x hx => lt_of_blocks h hx
  rw [List.range_succ, List.flatMap_append, ← h, List.flatMap_singleton, hlast, List.append_nil]

theorem filter_append_same (xs : List β) :
    (l ++ xs.map (fun x => (n, x))).filter (fun x => x.1 = n)
      = l.filter (fun x => x.1 = n) ++ xs.map (fun x => (n, x)) := by
  have hall : (xs.map (fun x => (n, x))).filter (fun x => x.1 = n) = xs.map (fun x => (n, x)) := by
    simp
  rw [List.filter_append, hall]

theorem filter_append_other {k : Nat} (hk : k ≠ n) (xs : List β) :
    (l ++ xs.map (fun x => (n, x))).filter (fun x => x.1 = k) = l.filter (fun x => x.1 = k) := by
  have hnone : (xs.map (fun x => (n, x))).filter (fun x => x.1 = k) = [] := by
    rw [List.filter_eq_nil_iff]
    intro x hx
    obtain ⟨y, _, rfl⟩ := List.mem_map.mp hx
    rw [decide_eq_true_eq]
    exact hk.symm
  rw [List.filter_append, hnone, List.append_nil]

/-- Entries with the last number go to the last block. -/
theorem blocks_append
    (h : l = (List.range (n + 1)).flatMap (fun k => l.filter (fun x => x.1 = k))) (xs : List β) :
    l ++ xs.map (fun x => (n, x)) = (List.range (n + 1)).flatMap
      (fun k => (l ++ xs.map (fun x => (n, x))).filter (fun x => x.1 = k)) := by
  have hbefore : (List.range n).flatMap
      (fun k => (l ++ xs.map (fun x => (n, x))).filter (fun x => x.1 = k))
        = (List.range n).flatMap (fun k => l.filter (fun x => x.1 = k)) := by
    refine List.flatMap_congr fun k hk => ?_
    exact filter_append_other (Nat.ne_of_lt (List.mem_range.mp hk)) xs
  rw [List.range_succ, List.flatMap_append, List.flatMap_singleton] at h ⊢
  rw [hbefore, filter_append_same, ← List.append_assoc, ← h]

end Sioxx.Lib
