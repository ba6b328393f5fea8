/-
Sioxx.Lib.LockTrace — what one thread does with locks and callbacks.

A trace is a list of actions of one thread: it takes and releases locks,
runs callbacks of the application, waits for something that is not a lock (a
thread that it joins, a condition), and sees things (`saw` is a note for the
reader, the code does nothing there). `annotate` puts beside each action
the locks that are held at that point, and everything that is asked of a
trace is read off from it.

Locks have ranks. `Bracketed rank r t` is the grammar of the traces of
scoped locking: sections nest, and inside a section of lock `m` only locks
of higher rank are taken. `Bracketed.annotate` is the one induction over
it.

A program (`Prog`) is a state transformer that writes such a trace. Other
threads, and the application inside its callbacks, may change the state
whenever a lock is taken or released or a callback runs; what they do, what
throws and what the clock says is up to a `World`. `Prog.Emits` and its rules
say what a program writes, whatever the world does.
-/
import Mathlib.Data.List.Basic

namespace Sioxx.Lib

inductive LockAction (μ κ ν : Type) where
  | lock (m : μ)
  | unlock (m : μ)
  | callback (c : κ)
  | saw (o : ν)
  /-- A join, or the wait on a condition. -/
  | wait

def LockAction.isWait {μ κ ν : Type} : LockAction μ κ ν → Bool
  | .wait => true
  | _ => false

/-! ## Traces -/

section Traces

variable {μ κ ν : Type} [DecidableEq μ]

/-- The locks held after an action, the innermost first. -/
def LockAction.after (h : List μ) : LockAction μ κ ν → List μ
  | .lock m => m :: h
  | .unlock m => h.erase m
  | .callback _ => h
  | .saw _ => h
  | .wait => h

def heldAfter : List μ → List (LockAction μ κ ν) → List μ
  | h, [] => h
  | h, a :: t => heldAfter (a.after h) t

/-- Each action with the locks that are held when it is taken. -/
def annotate : List μ → List (LockAction μ κ ν) → List (List μ × LockAction μ κ ν)
  | _, [] => []
  | h, a :: t => (h, a) :: annotate (a.after h) t

@[simp] theorem annotate_nil (h : List μ) : annotate h ([] : List (LockAction μ κ ν)) = [] := rfl

@[simp] theorem annotate_cons (h : List μ) (a : LockAction μ κ ν) (t : List (LockAction μ κ ν)) :
    annotate h (a :: t) = (h, a) :: annotate (a.after h) t := rfl

@[simp] theorem annotate_append (h : List μ) (t u : List (LockAction μ κ ν)) :
    annotate h (t ++ u) = annotate h t ++ annotate (heldAfter h t) u := by
  induction t generalizing h with
  | nil => rfl
  | cons a t ih => simp [annotate, heldAfter, ih]

/-- Every callback runs without a lock. -/
def CallbacksFree (t : List (LockAction μ κ ν)) : Prop :=
  ∀ h c, (h, .callback c) ∈ annotate [] t → h = []

/-- No lock is taken twice. -/
def NoRelock (t : List (LockAction μ κ ν)) : Prop :=
  ∀ h m, (h, .lock m) ∈ annotate [] t → m ∉ h

/-- Seen while the lock was held. -/
def SawUnder (m : μ) (o : ν) (t : List (LockAction μ κ ν)) : Prop :=
  ∃ h, m ∈ h ∧ (h, .saw o) ∈ annotate [] t

/-- A callback runs while the lock is held. -/
def CallbackUnder (m : μ) (t : List (LockAction μ κ ν)) : Prop :=
  ∃ h c, m ∈ h ∧ (h, .callback c) ∈ annotate [] t

/-- `Inlined S t t'`: the trace `t`, with a trace from `S` put in after each
callback, is `t'`. -/
inductive Inlined (S : List (LockAction μ κ ν) → Prop) :
    List (LockAction μ κ ν) → List (LockAction μ κ ν) → Prop where
  | nil : Inlined S [] []
  | cons {t t'} (a : LockAction μ κ ν) (ha : ∀ c, a ≠ .callback c) :
      Inlined S t t' → Inlined S (a :: t) (a :: t')
  | callback {t t' u} (c : κ) (hu : S u) :
      Inlined S t t' → Inlined S (.callback c :: t) (.callback c :: (u ++ t'))

/-! ## Scoped locking -/

/-- The traces of nested sections with locks of rank at least `r`. -/
inductive Bracketed (rank : μ → Nat) : Nat → List (LockAction μ κ ν) → Prop where
  | nil {r} : Bracketed rank r []
  | callback {r t} (c : κ) : Bracketed rank r t → Bracketed rank r (.callback c :: t)
  | saw {r t} (o : ν) : Bracketed rank r t → Bracketed rank r (.saw o :: t)
  | wait {r t} : Bracketed rank r t → Bracketed rank r (.wait :: t)
  | guarded {r t u} (m : μ) (hr : r ≤ rank m) :
      Bracketed rank (rank m + 1) t → Bracketed rank r u →
        Bracketed rank r (.lock m :: (t ++ .unlock m :: u))

variable {rank : μ → Nat} {r : Nat} {t u : List (LockAction μ κ ν)}

theorem heldAfter_append (h : List μ) (t u : List (LockAction μ κ ν)) :
    heldAfter h (t ++ u) = heldAfter (heldAfter h t) u := by
  induction t generalizing h with
  | nil => rfl
  | cons a t ih => simp [heldAfter, ih]

namespace Bracketed

omit [DecidableEq μ] in
theorem mono {r' : Nat} (hr : r' ≤ r) (h : Bracketed rank r t) : Bracketed rank r' t := by
  induction h generalizing r' with
  | nil => exact .nil
  | callback c _ ih => exact .callback c (ih hr)
  | saw o _ ih => exact .saw o (ih hr)
  | wait _ ih => exact .wait (ih hr)
  | guarded m hm ht _ _ ihu => exact .guarded m (Nat.le_trans hr hm) ht (ihu hr)

omit [DecidableEq μ] in
theorem append (ht : Bracketed rank r t) (hu : Bracketed rank r u) :
    Bracketed rank r (t ++ u) := by
  induction ht with
  | nil => exact hu
  | callback c _ ih => exact .callback c (ih hu)
  | saw o _ ih => exact .saw o (ih hu)
  | wait _ ih => exact .wait (ih hu)
  | guarded m hm ht _ _ ihu =>
    simpa using Bracketed.guarded m hm ht (ihu hu)

/-- A section leaves the locks as they were. -/
theorem heldAfter (ht : Bracketed rank r t) (h : List μ) : Lib.heldAfter h t = h := by
  induction ht generalizing h with
  | nil => rfl
  | callback c _ ih => exact ih h
  | saw o _ ih => exact ih h
  | wait _ ih => exact ih h
  | guarded m _ _ _ iht ihu =>
    simp only [Lib.heldAfter, heldAfter_append, LockAction.after]
    rw [iht (m :: h), List.erase_cons_head, ihu h]

theorem annotate_append (ht : Bracketed rank r t) (h : List μ) :
    annotate h (t ++ u) = annotate h t ++ annotate h u := by
  rw [Lib.annotate_append, ht.heldAfter]

theorem callbacksFree_append (ht : Bracketed rank r t) :
    CallbacksFree (t ++ u) ↔ CallbacksFree t ∧ CallbacksFree u := by
  simp only [CallbacksFree, ht.annotate_append, List.mem_append]
  constructor
  · intro h
    exact ⟨fun k c hc => h k c (.inl hc), fun k c hc => h k c (.inr hc)⟩
  · intro h k c hc
    exact hc.elim (h.1 k c) (h.2 k c)

/-- Inside a bracketed trace the locks of the start stay held, below locks
of rank at least `r` that the trace has taken, in the order of their rank. -/
theorem annotate (ht : Bracketed rank r t) {h h' : List μ} {a : LockAction μ κ ν}
    (ha : (h', a) ∈ Lib.annotate h t) :
    ∃ k, h' = k ++ h ∧ (∀ x ∈ k, r ≤ rank x) ∧
      ∀ m, a = .lock m → r ≤ rank m ∧ ∀ x ∈ k, rank x < rank m := by
  induction ht generalizing h with
  | nil => simp at ha
  | callback _ _ ih | saw _ _ ih | wait _ ih =>
    rcases List.mem_cons.mp ha with heq | hrest
    · cases heq
      exact ⟨[], rfl, by simp, by simp⟩
    · exact ih hrest
  | @guarded r t u m hr ht _ iht ihu =>
    rw [annotate_cons, LockAction.after, ht.annotate_append, List.mem_cons, List.mem_append,
      annotate_cons, List.mem_cons] at ha
    rcases ha with heq | hin | heq | hout
    · cases heq
      exact ⟨[], rfl, by simp, by simp [hr]⟩
    · -- inside the section: `m` is below what the section takes
      obtain ⟨k, rfl, hk, hlock⟩ := iht hin
      refine ⟨k ++ [m], by simp, ?_, ?_⟩
      · intro x hx
        rcases List.mem_append.mp hx with hx | hx
        · have := hk x hx
          omega
        · rw [List.mem_singleton.mp hx]
          exact hr
      · intro m' hm'
        obtain ⟨hrank, hbelow⟩ := hlock m' hm'
        refine ⟨by omega, fun x hx => ?_⟩
        rcases List.mem_append.mp hx with hx | hx
        · exact hbelow x hx
        · rw [List.mem_singleton.mp hx]
          omega
    · cases heq
      exact ⟨[m], rfl, by simp [hr], by simp⟩
    · exact ihu (by simpa [LockAction.after] using hout)

theorem noRelock (ht : Bracketed rank r t) : NoRelock t := by
  intro h m hm hmem
  obtain ⟨k, rfl, -, hlock⟩ := ht.annotate hm
  rw [List.append_nil] at hmem
  exact absurd ((hlock m rfl).2 m hmem) (Nat.lt_irrefl _)

/-- The handlers may take locks themselves as long as they find none held. -/
theorem noRelock_inlined {S : List (LockAction μ κ ν) → Prop}
    (hS : ∀ u, S u → Bracketed rank 0 u) {t' : List (LockAction μ κ ν)}
    (hi : Inlined S t t') {h : List μ}
    (hlocks : ∀ h' m, (h', .lock m) ∈ Lib.annotate h t → m ∉ h')
    (hfree : ∀ h' c, (h', .callback c) ∈ Lib.annotate h t → h' = []) :
    ∀ h' m, (h', .lock m) ∈ Lib.annotate h t' → m ∉ h' := by
  induction hi generalizing h with
  | nil => exact hlocks
  | cons a ha _ ih =>
    intro h' m hm
    rcases List.mem_cons.mp hm with heq | hrest
    · cases heq
      exact hlocks h m List.mem_cons_self
    · exact ih (fun h' m hm => hlocks h' m (List.mem_cons_of_mem _ hm))
        (fun h' c hc => hfree h' c (List.mem_cons_of_mem _ hc)) h' m hrest
  | @callback t t' u c hu _ ih =>
    have hempty : h = [] := hfree h c List.mem_cons_self
    subst hempty
    intro h' m hm
    rcases List.mem_cons.mp hm with heq | hrest
    · cases heq
    · rw [LockAction.after, (hS u hu).annotate_append] at hrest
      rcases List.mem_append.mp hrest with hin | hout
      · exact (hS u hu).noRelock h' m hin
      · exact ih (fun h' m hm => hlocks h' m (List.mem_cons_of_mem _ hm))
          (fun h' c hc => hfree h' c (List.mem_cons_of_mem _ hc)) h' m hout

end Bracketed

/-- A handler that takes the lock its thread holds. -/
theorem relock_inlined {S : List (LockAction μ κ ν) → Prop} {m : μ} {v : List (LockAction μ κ ν)}
    (hnone : S []) (hcall : S (.lock m :: v)) (h : List μ)
    (hunder : ∃ h' c, m ∈ h' ∧ (h', .callback c) ∈ annotate h t) :
    ∃ t' h', Inlined S t t' ∧ m ∈ h' ∧ (h', .lock m) ∈ annotate h t' := by
  have hplain : ∀ t : List (LockAction μ κ ν), Inlined S t t := by
    intro t
    induction t with
    | nil => exact .nil
    | cons a t ih =>
      cases a with
      | callback c => exact .callback c hnone ih
      | lock m => exact .cons _ (by simp) ih
      | unlock m => exact .cons _ (by simp) ih
      | saw o => exact .cons _ (by simp) ih
      | wait => exact .cons _ (by simp) ih
  induction t generalizing h with
  | nil => simp at hunder
  | cons a t ih =>
    obtain ⟨h', c, hm, hc⟩ := hunder
    rcases List.mem_cons.mp hc with heq | hrest
    · cases heq
      exact ⟨_, h, .callback c hcall (hplain t), hm, by simp [LockAction.after]⟩
    · obtain ⟨t', h'', hi, hm', hl⟩ := ih (a.after h) ⟨h', c, hm, hrest⟩
      cases a with
      | callback c' =>
        exact ⟨_, h'', .callback c' hnone hi, hm', by simpa using hl⟩
      | lock m' => exact ⟨_, h'', .cons _ (by simp) hi, hm', List.mem_cons_of_mem _ hl⟩
      | unlock m' => exact ⟨_, h'', .cons _ (by simp) hi, hm', List.mem_cons_of_mem _ hl⟩
      | saw o => exact ⟨_, h'', .cons _ (by simp) hi, hm', List.mem_cons_of_mem _ hl⟩
      | wait => exact ⟨_, h'', .cons _ (by simp) hi, hm', List.mem_cons_of_mem _ hl⟩

/-! ### Accounting for the callbacks under one lock -/

/-- Nothing but locking and waiting. -/
def Plain (t : List (LockAction μ κ ν)) : Prop :=
  (∀ c, .callback c ∉ t) ∧ ∀ o, .saw o ∉ t

/-- Inside a section: it was seen that a callback is due, and one runs; or
neither. -/
def Announced (due : ν → Prop) (t : List (LockAction μ κ ν)) : Prop :=
  ((∃ o, .saw o ∈ t ∧ due o) ∧ ∃ c, .callback c ∈ t) ∨
    ((∀ o, .saw o ∈ t → ¬ due o) ∧ ∀ c, .callback c ∉ t)

/-- Outside all sections: it was seen under the lock that a callback is due,
and one runs under the lock; or no callback runs under any lock. -/
def Accounted (m : μ) (due : ν → Prop) (t : List (LockAction μ κ ν)) : Prop :=
  ((∃ o, SawUnder m o t ∧ due o) ∧ CallbackUnder m t) ∨
    ((∀ o, SawUnder m o t → ¬ due o) ∧ CallbacksFree t)

variable {m : μ} {due : ν → Prop}

theorem mem_of_annotate {h h' : List μ} {a : LockAction μ κ ν}
    (ha : (h', a) ∈ annotate h t) : a ∈ t := by
  induction t generalizing h with
  | nil => simp at ha
  | cons b t ih =>
    rcases List.mem_cons.mp ha with heq | hrest
    · cases heq
      exact List.mem_cons_self
    · exact List.mem_cons_of_mem _ (ih hrest)

theorem exists_annotate {a : LockAction μ κ ν} (ha : a ∈ t) (h : List μ) :
    ∃ h', (h', a) ∈ annotate h t := by
  induction t generalizing h with
  | nil => simp at ha
  | cons b t ih =>
    rcases List.mem_cons.mp ha with rfl | hrest
    · exact ⟨h, List.mem_cons_self⟩
    · obtain ⟨h', hmem⟩ := ih hrest (b.after h)
      exact ⟨h', List.mem_cons_of_mem _ hmem⟩

omit [DecidableEq μ] in
theorem Plain.append (ht : Plain t) (hu : Plain u) : Plain (t ++ u) := by
  refine ⟨fun c hc => ?_, fun o ho => ?_⟩
  · exact (List.mem_append.mp hc).elim (ht.1 c) (hu.1 c)
  · exact (List.mem_append.mp ho).elim (ht.2 o) (hu.2 o)

omit [DecidableEq μ] in
theorem Announced.append (ht : Announced due t) (hu : Announced due u) :
    Announced due (t ++ u) := by
  unfold Announced at *
  simp only [List.mem_append]
  rcases ht with ⟨⟨o, ho, hdue⟩, c, hc⟩ | ⟨hno, hnone⟩
  · exact .inl ⟨⟨o, .inl ho, hdue⟩, c, .inl hc⟩
  · rcases hu with ⟨⟨o, ho, hdue⟩, c, hc⟩ | ⟨hno', hnone'⟩
    · exact .inl ⟨⟨o, .inr ho, hdue⟩, c, .inr hc⟩
    · exact .inr ⟨fun o ho => ho.elim (hno o) (hno' o), fun c hc => hc.elim (hnone c) (hnone' c)⟩

theorem Accounted.append (hb : Bracketed rank r t) (ht : Accounted m due t)
    (hu : Accounted m due u) : Accounted m due (t ++ u) := by
  have hsaw : ∀ o, SawUnder m o (t ++ u) ↔ SawUnder m o t ∨ SawUnder m o u := by
    intro o
    simp only [SawUnder, hb.annotate_append, List.mem_append, and_or_left, exists_or]
  unfold Accounted at *
  simp only [hsaw]
  rcases ht with ⟨⟨o, ho, hdue⟩, h, c, hm, hc⟩ | ⟨hno, hfree⟩
  · refine .inl ⟨⟨o, .inl ho, hdue⟩, h, c, hm, ?_⟩
    rw [hb.annotate_append]
    exact List.mem_append_left _ hc
  · rcases hu with ⟨⟨o, ho, hdue⟩, h, c, hm, hc⟩ | ⟨hno', hfree'⟩
    · refine .inl ⟨⟨o, .inr ho, hdue⟩, h, c, hm, ?_⟩
      rw [hb.annotate_append]
      exact List.mem_append_right _ hc
    · exact .inr ⟨fun o ho => ho.elim (hno o) (hno' o), hb.callbacksFree_append.mpr ⟨hfree, hfree'⟩⟩

/-- Without callbacks, and without notes under the lock. -/
theorem accounted_of_silent (hc : ∀ c, .callback c ∉ t) (hs : ∀ o, ¬ SawUnder m o t) :
    Accounted m due t :=
  .inr ⟨fun o ho => absurd ho (hs o), fun _ c hmem => absurd (mem_of_annotate hmem) (hc c)⟩

theorem Plain.accounted (ht : Plain t) : Accounted m due t :=
  accounted_of_silent ht.1 fun o ⟨_, _, hmem⟩ => ht.2 o (mem_of_annotate hmem)

theorem Bracketed.annotate_guarded (hb : Bracketed rank (rank m + 1) t) :
    Lib.annotate [] (.lock m :: (t ++ [.unlock m]))
      = ([], .lock m) :: (Lib.annotate [m] t ++ [([m], .unlock m)]) := by
  simp [LockAction.after, hb.heldAfter]

theorem Bracketed.mem_held (hb : Bracketed rank r t) {h h' : List μ} {a : LockAction μ κ ν}
    (hm : m ∈ h) (ha : (h', a) ∈ Lib.annotate h t) : m ∈ h' := by
  obtain ⟨k, rfl, -, -⟩ := hb.annotate ha
  exact List.mem_append_right k hm

theorem Bracketed.callbacksFree_guarded (hb : Bracketed rank (rank m + 1) t) :
    CallbacksFree (.lock m :: (t ++ [.unlock m])) ↔ ∀ c, .callback c ∉ t := by
  constructor
  · intro hfree c hc
    obtain ⟨h, hmem⟩ := exists_annotate hc [m]
    have hempty := hfree h c (by rw [hb.annotate_guarded]; simp [hmem])
    simpa [hempty] using hb.mem_held List.mem_cons_self hmem
  · intro hnone h c hmem
    rcases List.mem_cons.mp (mem_of_annotate hmem) with heq | hin
    · cases heq
    · exact absurd (by simpa using hin) (hnone c)

/-- A section of the lock itself. -/
theorem accounted_guarded (hb : Bracketed rank (rank m + 1) t) (ht : Announced due t) :
    Accounted m due (.lock m :: (t ++ [.unlock m])) := by
  rcases ht with ⟨⟨o, ho, hdue⟩, c, hc⟩ | ⟨hno, hnone⟩
  · obtain ⟨h₁, hmem₁⟩ := exists_annotate ho [m]
    obtain ⟨h₂, hmem₂⟩ := exists_annotate hc [m]
    have hm₁ := hb.mem_held List.mem_cons_self hmem₁
    have hm₂ := hb.mem_held List.mem_cons_self hmem₂
    refine .inl ⟨⟨o, ⟨h₁, hm₁, ?_⟩, hdue⟩, h₂, c, hm₂, ?_⟩ <;> rw [hb.annotate_guarded] <;>
      simp [hmem₁, hmem₂]
  · refine .inr ⟨?_, hb.callbacksFree_guarded.mpr hnone⟩
    rintro o ⟨h, -, hmem⟩
    rcases List.mem_cons.mp (mem_of_annotate hmem) with heq | hin
    · cases heq
    · exact hno o (by simpa using hin)

/-- What is seen in sections of other locks is not seen under this one. -/
theorem not_sawUnder (hb : Bracketed rank r t) (hm : rank m < r) (o : ν) : ¬ SawUnder m o t := by
  rintro ⟨h, hmem, ho⟩
  obtain ⟨k, rfl, hk, -⟩ := hb.annotate ho
  rw [List.append_nil] at hmem
  exact absurd (hk m hmem) (by omega)

/-- **Callbacks and one lock.** In an accounted trace the callbacks run
without a lock exactly if nothing due was seen under the lock. -/
theorem Accounted.callbacksFree_iff (ha : Accounted m due t) :
    CallbacksFree t ↔ ∀ o, SawUnder m o t → ¬ due o := by
  constructor
  · intro hfree o ho hdue
    rcases ha with ⟨-, h, c, hm, hc⟩ | ⟨hno, -⟩
    · simp [hfree h c hc] at hm
    · exact hno o ho hdue
  · intro hno
    rcases ha with ⟨⟨o, ho, hdue⟩, -⟩ | ⟨-, hfree⟩
    · exact absurd hdue (hno o ho)
    · exact hfree

/-- **Handlers that lock.** And exactly then no handler that makes the calls
in `S`, one of which starts by taking the lock, takes a lock twice. -/
theorem Accounted.noRelock_iff {S : List (LockAction μ κ ν) → Prop}
    {v : List (LockAction μ κ ν)} (hb : Bracketed rank r t) (ha : Accounted m due t)
    (hS : ∀ u, S u → Bracketed rank 0 u) (hnone : S []) (hcall : S (.lock m :: v)) :
    (∀ t', Inlined S t t' → NoRelock t') ↔ ∀ o, SawUnder m o t → ¬ due o := by
  constructor
  · intro hall o ho hdue
    rcases ha with ⟨-, hunder⟩ | ⟨hno, -⟩
    · obtain ⟨t', h', hi, hm, hl⟩ := relock_inlined hnone hcall [] hunder
      exact hall t' hi h' m hl hm
    · exact hno o ho hdue
  · intro hno t' hi
    exact Bracketed.noRelock_inlined hS hi hb.noRelock (ha.callbacksFree_iff.mpr hno)

end Traces

/-! ## Programs -/

/-- What a program does not decide itself; the number says how much of the
trace is written. -/
structure World (σ : Type) where
  /-- What the others do to the state around an action. -/
  interfere : Nat → σ → σ := fun _ s => s
  throws : Nat → Bool := fun _ => false
  choose : Nat → Bool := fun _ => false
  now : Nat → Nat := fun n => n

/-- No one else changes the state. -/
def World.Quiet {σ : Type} (w : World σ) : Prop := ∀ n s, w.interfere n s = s

structure Log (σ μ κ ν : Type) where
  state : σ
  trace : List (LockAction μ κ ν) := []

/-- A program; its result is `none` if it throws. -/
def Prog (σ μ κ ν α : Type) : Type := World σ → Log σ μ κ ν → Option α × Log σ μ κ ν

namespace Prog

variable {σ μ κ ν α β ι : Type}

instance : Monad (Prog σ μ κ ν) where
  pure a := fun _ l => (some a, l)
  bind p f := fun w l =>
    match p w l with
    | (some a, l') => f a w l'
    | (none, l') => (none, l')

def get : Prog σ μ κ ν σ := fun _ l => (some l.state, l)

def modify (f : σ → σ) : Prog σ μ κ ν Unit := fun _ l => (some (), { l with state := f l.state })

def now : Prog σ μ κ ν Nat := fun w l => (some (w.now l.trace.length), l)

/-- A choice the code makes by what is not modelled. -/
def choose : Prog σ μ κ ν Bool := fun w l => (some (w.choose l.trace.length), l)

/-- A call that may throw. -/
def mayThrow : Prog σ μ κ ν Unit := fun w l =>
  (if w.throws l.trace.length then none else some (), l)

def saw (o : ν) : Prog σ μ κ ν Unit := fun _ l => (some (), { l with trace := l.trace ++ [.saw o] })

/-- One action, and what the others do around it. -/
def Log.act (w : World σ) (l : Log σ μ κ ν) (a : LockAction μ κ ν) : Log σ μ κ ν where
  state := w.interfere l.trace.length l.state
  trace := l.trace ++ [a]

theorem Log.act_of_quiet {w : World σ} (hw : w.Quiet) (l : Log σ μ κ ν) (a : LockAction μ κ ν) :
    Log.act w l a = { state := l.state, trace := l.trace ++ [a] } := by
  rw [Log.act, hw]

def callback (c : κ) : Prog σ μ κ ν Unit := fun w l =>
  (if w.throws l.trace.length then none else some (), Log.act w l (.callback c))

/-- A join, or the wait on a condition. -/
def wait : Prog σ μ κ ν Unit := fun w l => (some (), Log.act w l .wait)

/-- The scope of a `lock_guard`: the lock is released also by an exception. -/
def withLock (m : μ) (p : Prog σ μ κ ν α) : Prog σ μ κ ν α := fun w l =>
  let (result, l') := p w (Log.act w l (.lock m))
  (result, Log.act w l' (.unlock m))

/-- `try` with a `catch (...)`; the result says whether it was needed. -/
def attempt (p : Prog σ μ κ ν Unit) : Prog σ μ κ ν Bool := fun w l =>
  let (result, l') := p w l
  (some result.isNone, l')

def throwIf (b : Bool) : Prog σ μ κ ν Unit := fun _ l => (if b then none else some (), l)

def when (b : Bool) (p : Prog σ μ κ ν Unit) : Prog σ μ κ ν Unit := if b then p else pure ()

def forEach (f : ι → Prog σ μ κ ν Unit) : List ι → Prog σ μ κ ν Unit
  | [] => pure ()
  | i :: is => do
    f i
    forEach f is

/-- The program adds to the trace what `Q` allows, in every world. -/
def Emits (p : Prog σ μ κ ν α) (Q : List (LockAction μ κ ν) → Prop) : Prop :=
  ∀ w l, ∃ t, (p w l).2.trace = l.trace ++ t ∧ Q t

/-! ### Rules -/

/-- What can be said of a sequence if it can be said of its parts. -/
structure Sequential (Q : List (LockAction μ κ ν) → Prop) : Prop where
  nil : Q []
  append : ∀ {t u}, Q t → Q u → Q (t ++ u)

variable {Q Q' : List (LockAction μ κ ν) → Prop} {p : Prog σ μ κ ν α} {f : α → Prog σ μ κ ν β}

theorem bind_of_some {w : World σ} {l l' : Log σ μ κ ν} {a : α} (h : p w l = (some a, l')) :
    (p >>= f) w l = f a w l' := by
  show (match p w l with
    | (some a, l') => f a w l'
    | (none, l') => (none, l')) = _
  rw [h]

theorem Emits.mono (hp : p.Emits Q) (h : ∀ t, Q t → Q' t) : p.Emits Q' := by
  intro w l
  obtain ⟨t, htrace, ht⟩ := hp w l
  exact ⟨t, htrace, h t ht⟩

/-- What follows a program adds to what it wrote; nothing if it threw. -/
theorem bind_trace (hQ : Sequential Q) (hf : ∀ a, (f a).Emits Q) (w : World σ)
    (l : Log σ μ κ ν) :
    ∃ u, ((p >>= f) w l).2.trace = (p w l).2.trace ++ u ∧ Q u := by
  show ∃ u, (match p w l with
    | (some a, l') => f a w l'
    | (none, l') => (none, l')).2.trace = _ ∧ _
  split
  · rename_i a l' heq
    rw [heq]
    exact hf a w l'
  · rename_i l' heq
    exact ⟨[], by simp [heq], hQ.nil⟩

@[simp] theorem Emits.bind (hQ : Sequential Q) (hp : p.Emits Q) (hf : ∀ a, (f a).Emits Q) :
    (p >>= f).Emits Q := by
  intro w l
  obtain ⟨t, htrace, ht⟩ := hp w l
  obtain ⟨u, htrace', hu⟩ := bind_trace hQ hf w l
  exact ⟨t ++ u, by rw [htrace', htrace, List.append_assoc], hQ.append ht hu⟩

theorem Emits.of_silent (hQ : Sequential Q) (h : ∀ w l, (p w l).2.trace = l.trace) :
    p.Emits Q := by
  intro w l
  exact ⟨[], by rw [h, List.append_nil], hQ.nil⟩

@[simp] theorem emits_pure (hQ : Sequential Q) (a : α) : (pure a : Prog σ μ κ ν α).Emits Q :=
  .of_silent hQ fun _ _ => rfl

@[simp] theorem emits_get (hQ : Sequential Q) : (get : Prog σ μ κ ν σ).Emits Q :=
  .of_silent hQ fun _ _ => rfl

@[simp] theorem emits_modify (hQ : Sequential Q) (g : σ → σ) :
    (modify g : Prog σ μ κ ν Unit).Emits Q :=
  .of_silent hQ fun _ _ => rfl

@[simp] theorem emits_now (hQ : Sequential Q) : (now : Prog σ μ κ ν Nat).Emits Q :=
  .of_silent hQ fun _ _ => rfl

@[simp] theorem emits_choose (hQ : Sequential Q) : (choose : Prog σ μ κ ν Bool).Emits Q :=
  .of_silent hQ fun _ _ => rfl

@[simp] theorem emits_mayThrow (hQ : Sequential Q) : (mayThrow : Prog σ μ κ ν Unit).Emits Q :=
  .of_silent hQ fun _ _ => rfl

@[simp] theorem emits_throwIf (hQ : Sequential Q) (b : Bool) :
    (throwIf b : Prog σ μ κ ν Unit).Emits Q :=
  .of_silent hQ fun _ _ => rfl

@[simp] theorem Emits.attempt {p : Prog σ μ κ ν Unit} (hp : p.Emits Q) : (attempt p).Emits Q := by
  intro w l
  exact hp w l

@[simp] theorem emits_when (hQ : Sequential Q) {p : Prog σ μ κ ν Unit} (b : Bool) (hp : p.Emits Q) :
    (when b p).Emits Q := by
  unfold Prog.when
  split
  · exact hp
  · exact emits_pure hQ ()

@[simp] theorem emits_forEach (hQ : Sequential Q) {g : ι → Prog σ μ κ ν Unit}
    (hg : ∀ i, (g i).Emits Q) (is : List ι) : (forEach g is).Emits Q := by
  induction is with
  | nil => exact emits_pure hQ ()
  | cons i is ih => exact .bind hQ (hg i) fun _ => ih

theorem emits_callback (c : κ) (h : Q [.callback c]) : (callback c : Prog σ μ κ ν Unit).Emits Q :=
  fun _ _ => ⟨[.callback c], rfl, h⟩

theorem emits_wait (h : Q [.wait]) : (wait : Prog σ μ κ ν Unit).Emits Q :=
  fun _ _ => ⟨[.wait], rfl, h⟩

theorem Emits.withLock (m : μ) (hp : p.Emits Q)
    (h : ∀ t, Q t → Q' (.lock m :: (t ++ [.unlock m]))) : (withLock m p).Emits Q' := by
  intro w l
  obtain ⟨t, htrace, ht⟩ := hp w (Log.act w l (.lock m))
  refine ⟨_, ?_, h t ht⟩
  simp only [Prog.withLock, Log.act] at htrace ⊢
  rw [htrace]
  simp

/-! ### Sections and operations -/

section Rules

variable [DecidableEq μ] (rank : μ → Nat) (m : μ) (due : ν → Prop)

/-- The traces of code inside a section: no callbacks, and locks of rank at
least `r`. -/
def Inner (r : Nat) (t : List (LockAction μ κ ν)) : Prop := Bracketed rank r t ∧ Plain t

/-- The traces of whole operations. -/
def Outer (t : List (LockAction μ κ ν)) : Prop := Bracketed rank 0 t ∧ Accounted m due t

variable {rank m due}

omit [DecidableEq μ] in
@[simp] theorem inner_sequential (r : Nat) :
    Sequential (Inner rank r : List (LockAction μ κ ν) → Prop) where
  nil := ⟨.nil, by simp [Plain]⟩
  append ht hu := ⟨ht.1.append hu.1, ht.2.append hu.2⟩

@[simp] theorem outer_sequential :
    Sequential (Outer rank m due : List (LockAction μ κ ν) → Prop) where
  nil := ⟨.nil, .inr ⟨by simp [SawUnder], by simp [CallbacksFree]⟩⟩
  append ht hu := ⟨ht.1.append hu.1, .append ht.1 ht.2 hu.2⟩

omit [DecidableEq μ] in
theorem Emits.inner_bind {r : Nat} (hp : p.Emits (Inner rank r))
    (hf : ∀ a, (f a).Emits (Inner rank r)) : (p >>= f).Emits (Inner rank r) :=
  .bind (inner_sequential r) hp hf

theorem Emits.outer_bind (hp : p.Emits (Outer rank m due))
    (hf : ∀ a, (f a).Emits (Outer rank m due)) : (p >>= f).Emits (Outer rank m due) :=
  .bind outer_sequential hp hf

omit [DecidableEq μ] in
/-- A section inside a section. -/
@[simp] theorem Emits.inner_withLock {r : Nat} (l : μ) (hr : r ≤ rank l)
    (hp : p.Emits (Inner rank (rank l + 1))) : (Prog.withLock l p).Emits (Inner rank r) := by
  refine hp.withLock l fun t ht => ⟨.guarded l hr ht.1 .nil, ?_⟩
  have h := ht.2
  simp [Plain] at h ⊢
  exact h

omit [DecidableEq μ] in
@[simp] theorem inner_wait (r : Nat) :
    (Prog.wait : Prog σ μ κ ν Unit).Emits (Inner rank r) :=
  emits_wait ⟨.wait .nil, by simp [Plain]⟩

theorem Emits.outer (hp : p.Emits (Inner rank 0)) : p.Emits (Outer rank m due) :=
  hp.mono fun _ ht => ⟨ht.1, ht.2.accounted⟩

/-- A section outside all others. -/
@[simp] theorem Emits.outer_withLock (l : μ) (hp : p.Emits (Inner rank (rank l + 1))) :
    (Prog.withLock l p).Emits (Outer rank m due) :=
  (hp.inner_withLock l (Nat.zero_le _)).outer

@[simp] theorem outer_wait : (Prog.wait : Prog σ μ κ ν Unit).Emits (Outer rank m due) :=
  (inner_wait 0).outer

/-- A callback outside all sections. -/
@[simp] theorem outer_callback (c : κ) :
    (Prog.callback c : Prog σ μ κ ν Unit).Emits (Outer rank m due) := by
  refine emits_callback c ⟨.callback c .nil, .inr ⟨?_, ?_⟩⟩
  · simp [SawUnder]
  · simp [CallbacksFree]

end Rules

end Prog

end Sioxx.Lib
