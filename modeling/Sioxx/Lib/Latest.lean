/-
Sioxx.Lib.Latest — what a log of changes leaves in a slot.

A change may leave a slot alone, empty it, or put a value in it; `effect`
says which. `Latest effect log k v` says that `v` was put into the slot
`k` and that nothing in the log touched the slot afterwards. It is stated
without replaying the log; `latest_snoc` is the replay, one change at a
time.
-/
import Mathlib.Data.List.Induction

namespace Sioxx.Lib

variable {ρ κ ν : Type} (effect : ρ → κ → Option (Option ν))

/-- The last change that touched the slot put the value in it. -/
def Latest (log : List ρ) (k : κ) (v : ν) : Prop :=
  ∃ before r after, log = before ++ r :: after ∧ effect r k = some (some v) ∧
    ∀ r' ∈ after, effect r' k = none

variable {effect}

@[simp] theorem not_latest_nil (k : κ) (v : ν) : ¬ Latest effect [] k v := by
  rintro ⟨before, r, after, hlog, _⟩
  simp at hlog

/-- A change at the end of the log decides, unless it leaves the slot
alone. -/
theorem latest_snoc {log : List ρ} {r : ρ} {k : κ} {v : ν} :
    Latest effect (log ++ [r]) k v ↔
      effect r k = some (some v) ∨ effect r k = none ∧ Latest effect log k v := by
  constructor
  · rintro ⟨before, r', after, hlog, hput, hrest⟩
    rcases List.eq_nil_or_concat after with rfl | ⟨after, last, rfl⟩
    · obtain ⟨rfl, hr⟩ := List.append_inj' hlog rfl
      cases hr
      exact .inl hput
    · rw [List.concat_eq_append, ← List.cons_append, ← List.append_assoc] at hlog
      obtain ⟨rfl, hr⟩ := List.append_inj' hlog rfl
      cases hr
      simp only [List.concat_eq_append, List.mem_append, List.mem_singleton] at hrest
      refine .inr ⟨hrest r (.inr rfl), before, r', after, rfl, hput, ?_⟩
      exact fun r'' hr => hrest r'' (.inl hr)
  · rintro (hput | ⟨hnone, before, r', after, rfl, hput, hrest⟩)
    · exact ⟨log, r, [], rfl, hput, fun _ h => absurd h List.not_mem_nil⟩
    · refine ⟨before, r', after ++ [r], by simp, hput, fun r'' hr => ?_⟩
      rw [List.mem_append, List.mem_singleton] at hr
      rcases hr with hr | rfl
      · exact hrest r'' hr
      · exact hnone

/-- A slot holds one value. -/
theorem Latest.unique {log : List ρ} {k : κ} {v w : ν} (h : Latest effect log k v)
    (h' : Latest effect log k w) : v = w := by
  induction log using List.reverseRecOn with
  | nil => exact absurd h (not_latest_nil k v)
  | append_singleton log r ih =>
    rcases latest_snoc.mp h with hput | ⟨hnone, h⟩ <;>
      rcases latest_snoc.mp h' with hput' | ⟨hnone', h'⟩
    · rw [hput] at hput'
      cases hput'
      rfl
    · rw [hput] at hnone'
      cases hnone'
    · rw [hput'] at hnone
      cases hnone
    · exact ih h h'

end Sioxx.Lib
