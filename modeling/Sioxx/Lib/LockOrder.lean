/-
Sioxx.Lib.LockOrder — threads that lock in order never deadlock.

The traces of `LockTrace` are run here by threads that share the locks: a
thread that wants a lock waits until no thread holds it, itself included,
and threads may start at any time. What ends a join or the wait on a
condition is not said here, so a thread that comes to one stays there.
`InOrder rank h t` says of a thread that holds the locks `h` that all it
still does, `t`, keeps to the order: it takes only locks above those it
holds, releases what it holds, ends with none, and waits for nothing else.

  * `bracketed_inOrder`, `spliced_inOrder` — scoped locking keeps to the
    order, also when the callbacks start operations of their own.
  * `turn_inOrder`, `run_inOrder` — a turn keeps it, and so does a run.
  * `run_exclusive` — no lock is ever held twice.
  * `exists_turn` — as long as a thread is unfinished, some thread can take
    a turn.
  * `exists_completion` — so whatever is begun can be brought to its end,
    and `turns_remaining` says that no schedule can put that off.
  * `stuck_of_relock` — a thread that takes a lock it holds stops there.
-/
import Sioxx.Lib.LockTrace
import Sioxx.Lib.Run
import Mathlib.Algebra.Order.BigOperators.Group.List
import Mathlib.Algebra.Order.Group.Nat
import Mathlib.Algebra.Order.Monoid.Canonical.Defs
import Mathlib.Algebra.Order.Ring.Nat

namespace Sioxx.Lib

/-- The locks a thread holds, the innermost first, and what it still does. -/
structure LockThread (μ κ ν : Type) where
  held : List μ := []
  todo : List (LockAction μ κ ν)

inductive LockStep (μ κ ν : Type) where
  /-- A thread starts. -/
  | start (t : List (LockAction μ κ ν))
  /-- The thread at this position takes its next action. -/
  | turn (i : Nat)

section Threads

variable {μ κ ν : Type} [DecidableEq μ]

/-- No thread holds the lock. -/
def Available (threads : List (LockThread μ κ ν)) (m : μ) : Prop :=
  ∀ t ∈ threads, m ∉ t.held

instance (threads : List (LockThread μ κ ν)) (m : μ) : Decidable (Available threads m) :=
  inferInstanceAs (Decidable (∀ t ∈ threads, m ∉ t.held))

/-- The thread after its next action, if it need not wait. -/
def LockThread.next (threads : List (LockThread μ κ ν)) (t : LockThread μ κ ν) :
    Option (LockThread μ κ ν) :=
  match t.todo with
  | [] => none
  | .lock m :: rest =>
    if Available threads m then some { held := m :: t.held, todo := rest } else none
  | .wait :: _ => none
  | a :: rest => some { held := a.after t.held, todo := rest }

def interleave (threads : List (LockThread μ κ ν)) :
    LockStep μ κ ν → Option (List (LockThread μ κ ν))
  | .start t => some (threads ++ [{ todo := t }])
  | .turn i =>
    match threads[i]? with
    | none => none
    | some t => (t.next threads).map (threads.set i)

/-- Everything that holds of the threads' traces when they start. -/
def Starts (P : List (LockAction μ κ ν) → Prop) (_ : List (LockThread μ κ ν)) :
    LockStep μ κ ν → Prop
  | .start t => P t
  | .turn _ => True

/-! ## The order -/

omit [DecidableEq μ] in
/-- No join and no wait on a condition. -/
def WaitFree (t : List (LockAction μ κ ν)) : Prop := ∀ a ∈ t, a.isWait = false

omit [DecidableEq μ] in
instance (t : List (LockAction μ κ ν)) : Decidable (WaitFree t) :=
  inferInstanceAs (Decidable (∀ a ∈ t, a.isWait = false))

def InOrder (rank : μ → Nat) : List μ → List (LockAction μ κ ν) → Prop
  | h, [] => h = []
  | h, .lock m :: t => (∀ x ∈ h, rank x < rank m) ∧ InOrder rank (m :: h) t
  | h, .unlock m :: t => m ∈ h ∧ InOrder rank (h.erase m) t
  | h, .callback _ :: t => InOrder rank h t
  | h, .saw _ :: t => InOrder rank h t
  | _, .wait :: _ => False

variable {rank : μ → Nat} {h : List μ} {t u : List (LockAction μ κ ν)}

theorem inOrder_append (ht : InOrder rank h t) (hu : InOrder rank [] u) :
    InOrder rank h (t ++ u) := by
  induction t generalizing h with
  | nil =>
    cases ht
    exact hu
  | cons a t ih =>
    cases a with
    | lock m => exact ⟨ht.1, ih ht.2⟩
    | unlock m => exact ⟨ht.1, ih ht.2⟩
    | callback c => exact ih ht
    | saw o => exact ih ht
    | wait => cases ht

theorem bracketed_inOrder_append {r : Nat} (ht : Bracketed rank r t) (hw : WaitFree t)
    (hh : ∀ x ∈ h, rank x < r) (hu : InOrder rank h u) : InOrder rank h (t ++ u) := by
  induction ht generalizing h u with
  | nil => exact hu
  | callback c _ ih => exact ih (fun a ha => hw a (List.mem_cons_of_mem _ ha)) hh hu
  | saw o _ ih => exact ih (fun a ha => hw a (List.mem_cons_of_mem _ ha)) hh hu
  | wait _ _ => cases hw .wait List.mem_cons_self
  | @guarded r t v m hr _ _ iht ihv =>
    have hwt : WaitFree t := fun a ha => hw a (by simp [ha])
    have hwv : WaitFree v := fun a ha => hw a (by simp [ha])
    have hbelow : ∀ x ∈ h, rank x < rank m := fun x hx => Nat.lt_of_lt_of_le (hh x hx) hr
    have hrest : InOrder rank (m :: h) (.unlock m :: (v ++ u)) := by
      refine ⟨List.mem_cons_self, ?_⟩
      rw [List.erase_cons_head]
      exact ihv hwv hh hu
    have hin : InOrder rank (m :: h) (t ++ .unlock m :: (v ++ u)) := by
      refine iht hwt (fun x hx => ?_) hrest
      rcases List.mem_cons.mp hx with rfl | hx
      · exact Nat.lt_succ_self _
      · exact Nat.lt_succ_of_lt (hbelow x hx)
    simpa [InOrder] using And.intro hbelow hin

theorem bracketed_inOrder (ht : Bracketed rank 0 t) (hw : WaitFree t) : InOrder rank [] t := by
  have h := bracketed_inOrder_append (u := []) (h := []) ht hw (by simp) rfl
  rwa [List.append_nil] at h

/-- `Spliced S t t'`: `t'` is the trace `t` where each callback starts any
number of operations with traces from `S`, whose callbacks do the same. -/
inductive Spliced (S : List (LockAction μ κ ν) → Prop) :
    List (LockAction μ κ ν) → List (LockAction μ κ ν) → Prop where
  | nil : Spliced S [] []
  | cons {t t'} (a : LockAction μ κ ν) (ha : ∀ c, a ≠ .callback c) :
      Spliced S t t' → Spliced S (a :: t) (a :: t')
  | callback {t t' u} {w : List (List (LockAction μ κ ν))} (c : κ) (hw : ∀ v ∈ w, S v) :
      Spliced S w.flatten u → Spliced S t t' →
        Spliced S (.callback c :: t) (.callback c :: (u ++ t'))

omit [DecidableEq μ] in
/-- The callbacks may do nothing. -/
theorem Spliced.refl {S : List (LockAction μ κ ν) → Prop} (t : List (LockAction μ κ ν)) :
    Spliced S t t := by
  induction t with
  | nil => exact .nil
  | cons a t ih =>
    cases a with
    | callback c => exact .callback (w := []) c (by simp) .nil ih
    | lock m => exact .cons _ (by simp) ih
    | unlock m => exact .cons _ (by simp) ih
    | saw o => exact .cons _ (by simp) ih
    | wait => exact .cons _ (by simp) ih

omit [DecidableEq μ] in
/-- Or each starts one operation, whose callbacks do nothing. -/
theorem Spliced.of_inlined {S : List (LockAction μ κ ν) → Prop} {t' : List (LockAction μ κ ν)}
    (hi : Inlined (fun v => v = [] ∨ S v) t t') : Spliced S t t' := by
  induction hi with
  | nil => exact .nil
  | cons a ha _ ih => exact .cons a ha ih
  | @callback t t' u c hu _ ih =>
    rcases hu with rfl | hu
    · exact .callback (w := []) c (by simp) .nil ih
    · refine .callback (w := [u]) c (by simpa using hu) ?_ ih
      simpa using Spliced.refl u

theorem flatten_callbacksFree {ts : List (List (LockAction μ κ ν))}
    (hts : ∀ u ∈ ts, Bracketed rank 0 u ∧ WaitFree u ∧ CallbacksFree u) :
    Bracketed rank 0 ts.flatten ∧ WaitFree ts.flatten ∧ CallbacksFree ts.flatten := by
  induction ts with
  | nil => exact ⟨.nil, by simp [WaitFree], by simp [CallbacksFree]⟩
  | cons u ts ih =>
    obtain ⟨hb, hw, hf⟩ := hts u List.mem_cons_self
    obtain ⟨hbs, hws, hfs⟩ := ih fun v hv => hts v (List.mem_cons_of_mem _ hv)
    refine ⟨hb.append hbs, fun a ha => ?_, hb.callbacksFree_append.mpr ⟨hf, hfs⟩⟩
    rcases List.mem_append.mp ha with ha | ha
    · exact hw a ha
    · exact hws a ha

omit [DecidableEq μ] in
theorem inlined_waitFree {S : List (LockAction μ κ ν) → Prop} {t' : List (LockAction μ κ ν)}
    (hS : ∀ v, S v → WaitFree v) (hi : Inlined S t t') (hw : WaitFree t) : WaitFree t' := by
  induction hi with
  | nil => exact hw
  | @cons t t' a ha _ ih =>
    have hrest := ih fun b hb => hw b (List.mem_cons_of_mem _ hb)
    intro b hb
    rcases List.mem_cons.mp hb with rfl | hb
    · exact hw b List.mem_cons_self
    · exact hrest b hb
  | @callback t t' u c hu _ ih =>
    have hrest := ih fun b hb => hw b (List.mem_cons_of_mem _ hb)
    intro b hb
    rcases List.mem_cons.mp hb with rfl | hb
    · rfl
    · rcases List.mem_append.mp hb with hb | hb
      · exact hS u hu b hb
      · exact hrest b hb

/-- Callbacks that find no lock held may start what keeps to the order. -/
theorem spliced_inOrder {S : List (LockAction μ κ ν) → Prop}
    (hS : ∀ v, S v → Bracketed rank 0 v ∧ WaitFree v ∧ CallbacksFree v)
    {t' : List (LockAction μ κ ν)}
    (hs : Spliced S t t') (ht : InOrder rank h t)
    (hfree : ∀ h' c, (h', .callback c) ∈ annotate h t → h' = []) : InOrder rank h t' := by
  induction hs generalizing h with
  | nil => exact ht
  | cons a ha _ ih =>
    have hrest : ∀ h' c, (h', .callback c) ∈ annotate (a.after h) _ → h' = [] :=
      fun h' c hc => hfree h' c (List.mem_cons_of_mem _ hc)
    cases a with
    | lock m => exact ⟨ht.1, ih ht.2 hrest⟩
    | unlock m => exact ⟨ht.1, ih ht.2 hrest⟩
    | callback c => exact absurd rfl (ha c)
    | saw o => exact ih ht hrest
    | wait => cases ht
  | @callback t t' u w c hw hu _ ihu iht =>
    have hempty : h = [] := hfree h c List.mem_cons_self
    subst hempty
    have hcalls := flatten_callbacksFree fun v hv => hS v (hw v hv)
    exact inOrder_append (ihu (bracketed_inOrder hcalls.1 hcalls.2.1) hcalls.2.2)
      (iht ht fun h' c hc => hfree h' c (List.mem_cons_of_mem _ hc))

/-! ## Turns -/

variable {threads threads' : List (LockThread μ κ ν)}

theorem next_of_todo {x : LockThread μ κ ν} {a : LockAction μ κ ν} (hx : x.todo = a :: t)
    (hwait : a.isWait = false) (hlock : ∀ m, a = .lock m → Available threads m) :
    x.next threads = some { held := a.after x.held, todo := t } := by
  unfold LockThread.next
  rw [hx]
  cases a with
  | lock m => exact if_pos (hlock m rfl)
  | unlock m => rfl
  | callback c => rfl
  | saw o => rfl
  | wait => cases hwait

/-- What a turn is. -/
theorem turn_cases {i : Nat} (hturn : interleave threads (.turn i) = some threads') :
    ∃ p x q a rest, threads = p ++ x :: q ∧ x.todo = a :: rest ∧
      (∀ m, a = .lock m → Available threads m) ∧
      threads' = p ++ { held := a.after x.held, todo := rest } :: q := by
  simp only [interleave] at hturn
  split at hturn
  · cases hturn
  · rename_i x hx
    obtain ⟨x', hnext, rfl⟩ := Option.map_eq_some_iff.mp hturn
    obtain ⟨p, q, hsplit, hset, -⟩ := pool_split hx
    have hcase : ∃ a rest, x.todo = a :: rest ∧ (∀ m, a = .lock m → Available threads m) ∧
        x' = { held := a.after x.held, todo := rest } := by
      unfold LockThread.next at hnext
      split at hnext
      · cases hnext
      · rename_i m rest htodo
        split at hnext
        · rename_i havailable
          cases hnext
          refine ⟨_, _, htodo, fun m' heq => ?_, rfl⟩
          cases heq
          exact havailable
        · cases hnext
      · cases hnext
      · rename_i a rest hnotlock _ htodo
        cases hnext
        exact ⟨a, rest, htodo, fun m heq => absurd heq (hnotlock m), rfl⟩
    obtain ⟨a, rest, htodo, hlock, rfl⟩ := hcase
    exact ⟨p, x, q, a, rest, hsplit, htodo, hlock, hset _⟩

/-- All threads keep to the order. -/
def Ordered (rank : μ → Nat) (threads : List (LockThread μ κ ν)) : Prop :=
  ∀ x ∈ threads, InOrder rank x.held x.todo

theorem inOrder_after {a : LockAction μ κ ν} (ho : InOrder rank h (a :: t)) :
    InOrder rank (a.after h) t := by
  cases a with
  | lock m => exact ho.2
  | unlock m => exact ho.2
  | callback c => exact ho
  | saw o => exact ho
  | wait => cases ho

theorem turn_inOrder {i : Nat} (ho : Ordered rank threads)
    (hturn : interleave threads (.turn i) = some threads') : Ordered rank threads' := by
  obtain ⟨p, x, q, a, rest, rfl, htodo, -, rfl⟩ := turn_cases hturn
  intro y hy
  have hx : InOrder rank x.held (a :: rest) := htodo ▸ ho x (by simp)
  rcases List.mem_append.mp hy with hy | hy
  · exact ho y (List.mem_append_left _ hy)
  · rcases List.mem_cons.mp hy with rfl | hy
    · exact inOrder_after hx
    · exact ho y (List.mem_append_right _ (List.mem_cons_of_mem _ hy))

theorem step_inOrder {a : LockStep μ κ ν} (ho : Ordered rank threads)
    (hstart : Starts (InOrder rank []) threads a) (hstep : interleave threads a = some threads') :
    Ordered rank threads' := by
  cases a with
  | start t =>
    cases hstep
    intro y hy
    rcases List.mem_append.mp hy with hy | hy
    · exact ho y hy
    · rw [List.mem_singleton.mp hy]
      exact hstart
  | turn i => exact turn_inOrder ho hstep

theorem run_inOrder {as : List (LockStep μ κ ν)}
    (hstart : Meets interleave (Starts (InOrder rank [])) [] as)
    (hrun : run interleave [] as = some threads) : Ordered rank threads :=
  run_invariant (fun _ _ _ ho hC hs => step_inOrder ho hC hs) as [] threads (by simp [Ordered])
    hstart hrun

/-- Turns start nothing. -/
theorem meets_turns (P : List (LockAction μ κ ν) → Prop) (is : List Nat)
    (threads : List (LockThread μ κ ν)) : Meets interleave (Starts P) threads (is.map .turn) := by
  induction is generalizing threads with
  | nil => trivial
  | cons i is ih => exact ⟨trivial, fun s' _ => ih s'⟩

/-! ## Mutual exclusion -/

/-- All locks that are held, once for each time. -/
def heldLocks (threads : List (LockThread μ κ ν)) : List μ := threads.flatMap (·.held)

theorem step_exclusive {a : LockStep μ κ ν} (hn : (heldLocks threads).Nodup)
    (hstep : interleave threads a = some threads') : (heldLocks threads').Nodup := by
  cases a with
  | start t =>
    cases hstep
    simpa [heldLocks] using hn
  | turn i =>
    obtain ⟨p, x, q, a, rest, rfl, -, hlock, rfl⟩ := turn_cases hstep
    -- bring the locks of the thread to the front
    have hfront : ∀ (h : List μ) (todo : List (LockAction μ κ ν)),
        (heldLocks (p ++ { held := h, todo } :: q)).Perm (h ++ (heldLocks p ++ heldLocks q)) := by
      intro h todo
      simp only [heldLocks, List.flatMap_append, List.flatMap_cons]
      exact List.perm_append_comm_assoc _ _ _
    have hn' : (x.held ++ (heldLocks p ++ heldLocks q)).Nodup :=
      (hfront x.held x.todo).nodup_iff.mp hn
    rw [(hfront _ _).nodup_iff]
    cases a with
    | lock m =>
      refine List.nodup_cons.mpr ⟨fun hm => ?_, hn'⟩
      have hmem : m ∈ heldLocks (p ++ x :: q) := (hfront x.held x.todo).mem_iff.mpr hm
      obtain ⟨y, hy, hmy⟩ := List.mem_flatMap.mp hmem
      exact hlock m rfl y hy hmy
    | unlock m => exact hn'.sublist (List.Sublist.append_right List.erase_sublist _)
    | callback c => exact hn'
    | saw o => exact hn'
    | wait => exact hn'

/-- **Mutual exclusion.** In every run each lock is held by one thread at
most, and by it once. -/
theorem run_exclusive {as : List (LockStep μ κ ν)}
    (hrun : run interleave [] as = some threads) : (heldLocks threads).Nodup :=
  run_preserves (fun threads => (heldLocks threads).Nodup) (fun _ _ _ hn hs => step_exclusive hn hs)
    (by simp [heldLocks]) hrun

/-! ## Progress -/

/-- The rank of the lock the thread takes next. -/
def awaitedRank (rank : μ → Nat) (x : LockThread μ κ ν) : Nat :=
  match x.todo with
  | .lock m :: _ => rank m
  | _ => 0

theorem unfinished_of_held {x : LockThread μ κ ν} {m : μ} (ho : InOrder rank x.held x.todo)
    (hm : m ∈ x.held) : x.todo ≠ [] := by
  intro htodo
  rw [htodo] at ho
  have hempty : x.held = [] := ho
  simp [hempty] at hm

/-- **No deadlock.** As long as a thread that keeps to the order is
unfinished, some thread can take a turn. -/
theorem exists_turn (ho : Ordered rank threads) (hleft : ∃ x ∈ threads, x.todo ≠ []) :
    ∃ i threads', interleave threads (.turn i) = some threads' := by
  by_contra hstuck
  -- every unfinished thread waits for a lock that another holds
  have hwaits : ∀ x ∈ threads, x.todo ≠ [] →
      ∃ m rest, x.todo = .lock m :: rest ∧ ∃ y ∈ threads, m ∈ y.held := by
    intro x hx hne
    obtain ⟨a, rest, htodo⟩ := List.exists_cons_of_ne_nil hne
    have hwait : a.isWait = false := by
      have hx' := ho x hx
      rw [htodo] at hx'
      cases a with
      | wait => cases hx'
      | lock m | unlock m | callback c | saw o => rfl
    have hblocked : ¬ ∀ m, a = .lock m → Available threads m := by
      intro hlock
      obtain ⟨i, hi⟩ := List.mem_iff_getElem?.mp hx
      refine hstuck ⟨i, ?_⟩
      simp only [interleave, hi, next_of_todo htodo hwait hlock, Option.map_some]
      exact ⟨_, rfl⟩
    push Not at hblocked
    obtain ⟨m, rfl, hheld⟩ := hblocked
    unfold Available at hheld
    push Not at hheld
    exact ⟨m, rest, htodo, hheld⟩
  -- and its holder waits for one of higher rank, without end
  have hclimb : ∀ k, ∃ x ∈ threads, x.todo ≠ [] ∧ k ≤ awaitedRank rank x := by
    intro k
    induction k with
    | zero =>
      obtain ⟨x, hx, hne⟩ := hleft
      exact ⟨x, hx, hne, Nat.zero_le _⟩
    | succ k ih =>
      obtain ⟨x, hx, hne, hk⟩ := ih
      obtain ⟨m, rest, htodo, y, hy, hm⟩ := hwaits x hx hne
      have hne' := unfinished_of_held (ho y hy) hm
      obtain ⟨m', rest', htodo', -⟩ := hwaits y hy hne'
      have hlt : rank m < rank m' := by
        have hy' := ho y hy
        rw [htodo'] at hy'
        exact hy'.1 m hm
      refine ⟨y, hy, hne', ?_⟩
      simp only [awaitedRank, htodo, htodo'] at hk ⊢
      omega
  obtain ⟨x, hx, -, hk⟩ := hclimb ((threads.map (awaitedRank rank)).sum + 1)
  have hle : awaitedRank rank x ≤ (threads.map (awaitedRank rank)).sum :=
    List.le_sum_of_mem (List.mem_map_of_mem hx)
  omega

/-- How many actions are left. -/
def remaining (threads : List (LockThread μ κ ν)) : Nat :=
  (threads.map (·.todo.length)).sum

/-- Every thread is done. -/
def Finished (threads : List (LockThread μ κ ν)) : Prop := ∀ x ∈ threads, x.todo = []

theorem turn_remaining {i : Nat} (hturn : interleave threads (.turn i) = some threads') :
    remaining threads' + 1 = remaining threads := by
  obtain ⟨p, x, q, a, rest, rfl, htodo, -, rfl⟩ := turn_cases hturn
  simp only [remaining, List.map_append, List.map_cons, List.sum_append, List.sum_cons, htodo,
    List.length_cons]
  omega

/-- Every schedule is bounded by what is left to do. -/
theorem turns_remaining (is : List Nat)
    (hrun : run interleave threads (is.map .turn) = some threads') :
    is.length + remaining threads' = remaining threads := by
  induction is generalizing threads with
  | nil =>
    cases hrun
    simp
  | cons i is ih =>
    obtain ⟨s, hs, hr⟩ := run_cons_iff.mp hrun
    have hone := turn_remaining hs
    have hrest := ih hr
    rw [List.length_cons]
    omega

theorem turns_inOrder (ho : Ordered rank threads) (is : List Nat)
    (hrun : run interleave threads (is.map .turn) = some threads') : Ordered rank threads' := by
  induction is generalizing threads with
  | nil =>
    cases hrun
    exact ho
  | cons i is ih =>
    obtain ⟨s, hs, hr⟩ := run_cons_iff.mp hrun
    exact ih (turn_inOrder ho hs) hr

/-- **Completion.** Threads that keep to the order can be brought to their
end, which leaves no lock held. -/
theorem exists_completion (ho : Ordered rank threads) :
    ∃ (is : List Nat) (threads' : List (LockThread μ κ ν)),
      run interleave threads (is.map .turn) = some threads' ∧ Finished threads' := by
  induction hn : remaining threads generalizing threads with
  | zero =>
    refine ⟨[], threads, rfl, fun x hx => List.eq_nil_of_length_eq_zero ?_⟩
    have hle := List.le_sum_of_mem (List.mem_map_of_mem (f := (·.todo.length)) hx)
    unfold remaining at hn
    omega
  | succ n ih =>
    by_cases hleft : ∃ x ∈ threads, x.todo ≠ []
    · obtain ⟨i, s, hs⟩ := exists_turn ho hleft
      have hone := turn_remaining hs
      obtain ⟨is, threads', hrun, hfinished⟩ := ih (turn_inOrder ho hs) (by omega)
      exact ⟨i :: is, threads', run_cons_iff.mpr ⟨s, hs, hrun⟩, hfinished⟩
    · push Not at hleft
      exact ⟨[], threads, rfl, hleft⟩

theorem heldLocks_of_finished (ho : Ordered rank threads) (hf : Finished threads) :
    heldLocks threads = [] := by
  refine List.flatMap_eq_nil_iff.mpr fun x hx => ?_
  have hx' := ho x hx
  rw [hf x hx] at hx'
  exact hx'

/-! ## A thread alone -/

/-- A thread that takes a lock it holds stops there for good. -/
theorem stuck_of_relock (hw : WaitFree t)
    (hrelock : ∃ h' m, m ∈ h' ∧ (h', .lock m) ∈ annotate h t) :
    ∃ (is : List Nat) (x : LockThread μ κ ν),
      run interleave [{ held := h, todo := t }] (is.map .turn) = some [x] ∧ x.todo ≠ [] ∧
        ∀ i, interleave [x] (.turn i) = none := by
  induction t generalizing h with
  | nil => simp at hrelock
  | cons a t ih =>
    by_cases hblocked : ∃ m, a = .lock m ∧ m ∈ h
    · obtain ⟨m, rfl, hm⟩ := hblocked
      refine ⟨[], _, rfl, by simp, fun i => ?_⟩
      cases i with
      | zero => simp [interleave, LockThread.next, Available, hm]
      | succ i => simp [interleave]
    · have hlock : ∀ m, a = .lock m →
          Available [({ held := h, todo := a :: t } : LockThread μ κ ν)] m := by
        intro m heq y hy hm
        rw [List.mem_singleton.mp hy] at hm
        exact hblocked ⟨m, heq, hm⟩
      have hrest : ∃ h' m, m ∈ h' ∧ (h', .lock m) ∈ annotate (a.after h) t := by
        obtain ⟨h', m, hm, hmem⟩ := hrelock
        rcases List.mem_cons.mp hmem with heq | hmem
        · cases heq
          exact absurd ⟨m, rfl, hm⟩ hblocked
        · exact ⟨h', m, hm, hmem⟩
      obtain ⟨is, x, hrun, hne, hstuck⟩ := ih (fun b hb => hw b (List.mem_cons_of_mem _ hb)) hrest
      refine ⟨0 :: is, x, run_cons_iff.mpr ⟨_, ?_, hrun⟩, hne, hstuck⟩
      have hnext := next_of_todo (x := { held := h, todo := a :: t }) rfl
        (hw a List.mem_cons_self) hlock
      simp only [interleave, List.getElem?_cons_zero, hnext, Option.map_some, List.set_cons_zero]

end Threads

end Sioxx.Lib
