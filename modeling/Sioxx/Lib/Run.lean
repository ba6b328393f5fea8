/-
Sioxx.Lib.Run — runs of a transition function, and the invariant rules.

A system is a function `step : σ → α → Option σ`; `none` means that the
action is not enabled. `run` takes a list of actions, so a concrete
schedule can be evaluated, and a statement about `run` is one about every
schedule.

`Meets step C s as` says that along the run every action is taken in a
state that allows it by `C`. A law that holds only under a condition on
the steps is stated with it; `run_invariant` is the induction.
-/
import Mathlib.Data.List.Basic

namespace Sioxx.Lib

variable {σ α : Type} (step : σ → α → Option σ)

/-- The state after the actions, if all of them were enabled. -/
def run : σ → List α → Option σ
  | s, [] => some s
  | s, a :: as =>
    match step s a with
    | none => none
    | some s' => run s' as

/-- Every action of the run is taken where the condition allows it. -/
def Meets (C : σ → α → Prop) : σ → List α → Prop
  | _, [] => True
  | s, a :: as => C s a ∧ ∀ s', step s a = some s' → Meets C s' as

variable {step}

@[simp] theorem run_nil (s : σ) : run step s [] = some s := rfl

theorem run_cons_iff {s t : σ} {a : α} {as : List α} :
    run step s (a :: as) = some t ↔ ∃ s', step s a = some s' ∧ run step s' as = some t := by
  simp only [run]
  cases h : step s a with
  | none => simp
  | some s' => simp

theorem run_append {s t u : σ} {as bs : List α} (h : run step s as = some t)
    (h' : run step t bs = some u) : run step s (as ++ bs) = some u := by
  induction as generalizing s with
  | nil =>
    cases h
    exact h'
  | cons a as ih =>
    obtain ⟨s', hs, hr⟩ := run_cons_iff.mp h
    exact run_cons_iff.mpr ⟨s', hs, ih hr⟩

/-- **Invariant rule.** What every allowed step preserves holds at the end
of every run of allowed steps. -/
theorem run_invariant {C : σ → α → Prop} {Inv : σ → Prop}
    (hstep : ∀ s a s', Inv s → C s a → step s a = some s' → Inv s') :
    ∀ (as : List α) (s t : σ), Inv s → Meets step C s as → run step s as = some t → Inv t
  | [], s, t, hs, _, hrun => by
      cases hrun
      exact hs
  | a :: as, s, t, hs, hC, hrun => by
      obtain ⟨s', hs', hr⟩ := run_cons_iff.mp hrun
      exact run_invariant hstep as s' t (hstep s a s' hs hC.1 hs') (hC.2 s' hs') hr

/-- A condition that always holds is met by every run. -/
theorem meets_of_forall {C : σ → α → Prop} (h : ∀ s a, C s a) (as : List α) (s : σ) :
    Meets step C s as := by
  induction as generalizing s with
  | nil => trivial
  | cons a as ih => exact ⟨h s a, fun s' _ => ih s'⟩

/-- The invariant rule without a condition. -/
theorem run_preserves (Inv : σ → Prop)
    (hstep : ∀ s a s', Inv s → step s a = some s' → Inv s') {as : List α} {s t : σ}
    (hs : Inv s) (hrun : run step s as = some t) : Inv t := by
  exact run_invariant (C := fun _ _ => True) (fun s a s' hi _ h => hstep s a s' hi h) as s t hs
    (meets_of_forall (fun _ _ => trivial) as s) hrun

/-! ## Conditions that are exact -/

theorem meets_cons_iff {C : σ → α → Prop} {s s' : σ} {a : α} {as : List α}
    (h : step s a = some s') : Meets step C s (a :: as) ↔ C s a ∧ Meets step C s' as := by
  constructor
  · rintro ⟨hC, hrest⟩
    exact ⟨hC, hrest s' h⟩
  · rintro ⟨hC, hrest⟩
    refine ⟨hC, fun s'' h' => ?_⟩
    rw [h] at h'
    cases h'
    exact hrest

/-- A condition that can be evaluated can be evaluated along a run. -/
instance decidableMeets {C : σ → α → Prop} [∀ s a, Decidable (C s a)] :
    ∀ (s : σ) (as : List α), Decidable (Meets step C s as)
  | _, [] => .isTrue trivial
  | s, a :: as =>
    match h : step s a with
    | none => decidable_of_iff (C s a)
        ⟨fun hC => ⟨hC, fun _ hs => nomatch h.symm.trans hs⟩, fun hmeets => hmeets.1⟩
    | some s' =>
      have := decidableMeets (C := C) s' as
      decidable_of_iff (C s a ∧ Meets step C s' as) (meets_cons_iff h).symm

/-- If every step keeps `Q` exactly when the condition allows it, then `Q`
at the end of a run says whether the run met the condition. -/
theorem meets_iff_of_step {C : σ → α → Prop} {Inv Q : σ → Prop}
    (hinv : ∀ s a s', Inv s → step s a = some s' → Inv s')
    (hexact : ∀ s a s', Inv s → step s a = some s' → (Q s' ↔ Q s ∧ C s a)) :
    ∀ (as : List α) (s t : σ), Inv s → run step s as = some t →
      (Q t ↔ Q s ∧ Meets step C s as)
  | [], s, t, _, h => by
      cases h
      exact ⟨fun hq => ⟨hq, trivial⟩, fun hq => hq.1⟩
  | a :: as, s, t, hi, h => by
      obtain ⟨s', hs, hr⟩ := run_cons_iff.mp h
      rw [meets_iff_of_step hinv hexact as s' t (hinv s a s' hi hs) hr, hexact s a s' hi hs,
        meets_cons_iff hs, and_assoc]

/-- If every step from a state with `P` leads to one with `P` exactly when
the condition allows it, then `P` holds all along a run exactly if the run
meets the condition. -/
theorem meets_iff_forall_states {C : σ → α → Prop} {Inv P : σ → Prop}
    (hinv : ∀ s a s', Inv s → P s → step s a = some s' → Inv s')
    (hexact : ∀ s a s', Inv s → P s → step s a = some s' → (P s' ↔ C s a)) :
    ∀ (as : List α) (s t : σ), Inv s → P s → run step s as = some t →
      ((∀ k m, run step s (as.take k) = some m → P m) ↔ Meets step C s as)
  | [], s, t, _, hp, _ => by
      refine ⟨fun _ => trivial, fun _ k m hm => ?_⟩
      rw [List.take_nil] at hm
      cases hm
      exact hp
  | a :: as, s, t, hi, hp, h => by
      obtain ⟨s', hs, hr⟩ := run_cons_iff.mp h
      rw [meets_cons_iff hs, ← hexact s a s' hi hp hs]
      constructor
      · intro hall
        have hp' : P s' := hall 1 s' (run_cons_iff.mpr ⟨s', hs, rfl⟩)
        have ih := meets_iff_forall_states hinv hexact as s' t (hinv s a s' hi hp hs) hp' hr
        refine ⟨hp', ih.mp fun k m hm => ?_⟩
        exact hall (k + 1) m (run_cons_iff.mpr ⟨s', hs, hm⟩)
      · rintro ⟨hp', hrest⟩ k m hm
        have ih := meets_iff_forall_states hinv hexact as s' t (hinv s a s' hi hp hs) hp' hr
        cases k with
        | zero =>
          cases hm
          exact hp
        | succ k =>
          obtain ⟨s'', hs', hm⟩ := run_cons_iff.mp hm
          rw [hs] at hs'
          cases hs'
          exact ih.mpr hrest k m hm

section Completion

variable {C K : σ → α → Prop} {Inv P : σ → Prop}
  (hstep : ∀ s a s', Inv s → C s a → step s a = some s' → Inv s')
  (hsafe : ∀ s, Inv s → P s)
  (hcomplete : ∀ s a, K s a → C s a)
  (hbreak : ∀ s a s', Inv s → ¬ C s a → step s a = some s' →
    ∃ bs u, Meets step K s' bs ∧ run step s' bs = some u ∧ ¬ P u)

theorem Meets.mono {C K : σ → α → Prop} (h : ∀ s a, K s a → C s a) :
    ∀ {as : List α} {s : σ}, Meets step K s as → Meets step C s as
  | [], _, _ => trivial
  | _ :: _, _, ⟨hK, hrest⟩ => ⟨h _ _ hK, fun s' hs => (hrest s' hs).mono h⟩

include hstep hsafe hcomplete hbreak in
/-- A completion lets the threads finish what they have begun, by steps
that keep the condition. If every step against the condition has a bad
completion, then a run meets the condition exactly if, wherever it is
stopped, all completions are good. -/
theorem meets_iff_completions : ∀ (as : List α) (s t : σ), Inv s → run step s as = some t →
    (Meets step C s as ↔ ∀ k m bs u, run step s (as.take k) = some m → Meets step K m bs →
      run step m bs = some u → P u)
  | [], s, t, hi, _ => by
      refine ⟨fun _ k m bs u hm hK hu => ?_, fun _ => trivial⟩
      rw [List.take_nil] at hm
      cases hm
      exact hsafe u (run_invariant hstep bs s u hi (hK.mono hcomplete) hu)
  | a :: as, s, t, hi, h => by
      obtain ⟨s', hs, hr⟩ := run_cons_iff.mp h
      constructor
      · rintro ⟨hC, hrest⟩ k m bs u hm hK hu
        have ih := meets_iff_completions as s' t (hstep s a s' hi hC hs) hr
        cases k with
        | zero =>
          cases hm
          exact hsafe u (run_invariant hstep bs s u hi (hK.mono hcomplete) hu)
        | succ k =>
          obtain ⟨s'', hs', hm⟩ := run_cons_iff.mp hm
          rw [hs] at hs'
          cases hs'
          exact ih.mp (hrest s' hs) k m bs u hm hK hu
      · intro hgood
        have hC : C s a := by
          by_contra hnot
          obtain ⟨bs, u, hK, hu, hbad⟩ := hbreak s a s' hi hnot hs
          exact hbad (hgood 1 s' bs u (run_cons_iff.mpr ⟨s', hs, rfl⟩) hK hu)
        have ih := meets_iff_completions as s' t (hstep s a s' hi hC hs) hr
        rw [meets_cons_iff hs]
        refine ⟨hC, ih.mpr fun k m bs u hm hK hu => ?_⟩
        exact hgood (k + 1) m bs u (run_cons_iff.mpr ⟨s', hs, hm⟩) hK hu

end Completion

/-! ## Counting the steps against a condition -/

section Counter

variable {C : σ → α → Prop} (Inv : σ → Prop) (count : σ → Nat)
  (hinv : ∀ s a s', Inv s → step s a = some s' → Inv s')
  (hkeep : ∀ s a s', Inv s → step s a = some s' → C s a → count s' = count s)
  (hbump : ∀ s a s', Inv s → step s a = some s' → ¬ C s a → count s < count s')

include hinv hkeep hbump in
theorem run_count_le : ∀ (as : List α) (s t : σ), Inv s → run step s as = some t →
    count s ≤ count t
  | [], s, t, _, h => by
      cases h
      exact Nat.le_refl _
  | a :: as, s, t, hi, h => by
      obtain ⟨s', hs, hr⟩ := run_cons_iff.mp h
      have hrest := run_count_le as s' t (hinv s a s' hi hs) hr
      by_cases hC : C s a
      · rw [hkeep s a s' hi hs hC] at hrest
        exact hrest
      · have := hbump s a s' hi hs hC
        omega

include hinv hkeep hbump in
/-- A counter that moves exactly at the steps the condition forbids says
whether the run met the condition. -/
theorem meets_iff_count : ∀ (as : List α) (s t : σ), Inv s → run step s as = some t →
    (Meets step C s as ↔ count t = count s)
  | [], s, t, _, h => by
      cases h
      exact ⟨fun _ => rfl, fun _ => trivial⟩
  | a :: as, s, t, hi, h => by
      obtain ⟨s', hs, hr⟩ := run_cons_iff.mp h
      rw [meets_cons_iff hs, meets_iff_count as s' t (hinv s a s' hi hs) hr]
      by_cases hC : C s a
      · rw [hkeep s a s' hi hs hC]
        exact ⟨fun hrest => hrest.2, fun hrest => ⟨hC, hrest⟩⟩
      · have hlt := hbump s a s' hi hs hC
        have hle := run_count_le Inv count hinv hkeep hbump as s' t (hinv s a s' hi hs) hr
        constructor
        · intro hrest
          exact absurd hrest.1 hC
        · intro heq
          omega

end Counter

/-! ## Pools -/

/-- A pool of threads is a list addressed by position: naming a member
splits the list, and replacing or removing it acts between the parts. -/
theorem pool_split {l : List α} {i : Nat} {a : α} (h : l[i]? = some a) :
    ∃ p q, l = p ++ a :: q ∧ (∀ b, l.set i b = p ++ b :: q) ∧ l.eraseIdx i = p ++ q := by
  induction l generalizing i with
  | nil => simp at h
  | cons x xs ih =>
    cases i with
    | zero =>
      simp only [List.getElem?_cons_zero, Option.some.injEq] at h
      subst h
      exact ⟨[], xs, rfl, fun _ => rfl, rfl⟩
    | succ i =>
      rw [List.getElem?_cons_succ] at h
      obtain ⟨p, q, hl, hset, herase⟩ := ih h
      refine ⟨x :: p, q, ?_, fun b => ?_, ?_⟩
      · rw [hl, List.cons_append]
      · rw [List.set_cons_succ, hset, List.cons_append]
      · rw [List.eraseIdx_cons_succ, herase, List.cons_append]

theorem pool_mem_set {l : List α} {i : Nat} {a : α} (h : l[i]? = some a) (b : α) :
    b ∈ l.set i b :=
  List.mem_set (List.getElem?_eq_some_iff.mp h).1 b

/-- The other members stay in the pool. -/
theorem pool_mem_set_of_ne {l : List α} {i : Nat} {a b c : α} (h : l[i]? = some a) (hc : c ∈ l)
    (hne : c ≠ a) : c ∈ l.set i b := by
  obtain ⟨p, q, hl, hset, _⟩ := pool_split h
  rw [hl] at hc
  rw [hset]
  simp only [List.mem_append, List.mem_cons, hne, false_or] at hc ⊢
  exact hc.imp_right .inr

/-- What a new member shows. -/
theorem filterMap_concat {β : Type} (f : α → Option β) (l : List α) (a : α) :
    (l ++ [a]).filterMap f = l.filterMap f ++ (f a).toList := by
  rw [List.filterMap_append, List.filterMap_cons, List.filterMap_nil]
  cases f a <;> rfl

/-- The same for what `f` shows of the members. -/
theorem pool_filterMap {β : Type} (f : α → Option β) {l : List α} {i : Nat} {a : α}
    (h : l[i]? = some a) :
    ∃ p q, l.filterMap f = p ++ (f a).toList ++ q ∧
      (∀ b, (l.set i b).filterMap f = p ++ (f b).toList ++ q) ∧
      (l.eraseIdx i).filterMap f = p ++ q := by
  obtain ⟨p, q, hl, hset, herase⟩ := pool_split h
  have hcons : ∀ b, (p ++ b :: q).filterMap f
      = p.filterMap f ++ (f b).toList ++ q.filterMap f := by
    intro b
    rw [List.filterMap_append, List.filterMap_cons]
    cases f b <;> simp
  refine ⟨p.filterMap f, q.filterMap f, ?_, fun b => ?_, ?_⟩
  · rw [hl, hcons]
  · rw [hset, hcons]
  · rw [herase, List.filterMap_append]

/-- A member that shows the same, or nothing, in place of another. -/
theorem pool_filterMap_same {β : Type} (f : α → Option β) {l : List α} {i : Nat} {a : α}
    (h : l[i]? = some a) :
    (∀ b, f b = f a → (l.set i b).filterMap f = l.filterMap f) ∧
      (f a = none → (l.eraseIdx i).filterMap f = l.filterMap f) := by
  obtain ⟨p, q, hall, hset, herase⟩ := pool_filterMap f h
  constructor
  · intro b hb
    rw [hset, hall, hb]
  · intro ha
    rw [herase, hall, ha, Option.toList_none, List.append_nil]

end Sioxx.Lib
