/-
Sioxx.Lib.Channel — messages that arrive at most once, in any order.

A sender appends to the list `sent`. A receiver takes messages by their
position, no position twice, and makes something of each. `Received R sent
taken got` says that `got` was made of the messages at the positions
`taken`, in this order, as `R` says. A position that is never taken is a
message that was lost.

  * `send`, `receive` — what a step of either side keeps.
  * `subperm` — nothing arrives that was not sent, or twice.
  * `trans` — what was received is sent on.
  * `keys_nodup` — a key that the sender uses once arrives once.
-/
import Mathlib.Data.List.Forall2
import Mathlib.Data.List.Induction
import Mathlib.Data.List.Nodup
import Mathlib.Data.List.Perm.Subperm

namespace Sioxx.Lib

variable {α β γ κ : Type}

structure Received (R : α → β → Prop) (sent : List α) (taken : List Nat) (got : List β) :
    Prop where
  once : taken.Nodup
  each : List.Forall₂ (fun k b => ∃ a, sent[k]? = some a ∧ R a b) taken got

/-- The elements at all positions are the list. -/
theorem filterMap_range_getElem? (l : List α) :
    (List.range l.length).filterMap (fun k => l[k]?) = l := by
  induction l using List.reverseRecOn with
  | nil => rfl
  | append_singleton l a ih =>
    have hbefore : (List.range l.length).filterMap (fun k => (l ++ [a])[k]?) = l := by
      refine (List.filterMap_congr fun k hk => ?_).trans ih
      exact List.getElem?_append_left (List.mem_range.mp hk)
    rw [List.length_append, List.length_singleton, List.range_succ, List.filterMap_append,
      hbefore]
    simp

/-- A position of a list without repetitions is known by its element. -/
theorem getElem?_inj_of_nodup {l : List α} (h : l.Nodup) {i j : Nat} {a : α}
    (hi : l[i]? = some a) (hj : l[j]? = some a) : i = j := by
  obtain ⟨hlt, rfl⟩ := List.getElem?_eq_some_iff.mp hi
  obtain ⟨hlt', heq⟩ := List.getElem?_eq_some_iff.mp hj
  exact ((List.Nodup.getElem_inj_iff h).mp heq).symm

/-- A key that comes once belongs to one element. -/
theorem eq_of_filterMap_nodup {f : α → Option κ} {l : List α} (h : (l.filterMap f).Nodup)
    {a b : α} {key : κ} (ha : a ∈ l) (hb : b ∈ l) (hfa : f a = some key) (hfb : f b = some key) :
    a = b := by
  induction l with
  | nil => cases ha
  | cons c l ih =>
    have hkey : ∀ d ∈ l, f d = some key → key ∈ l.filterMap f :=
      fun d hd hfd => List.mem_filterMap.mpr ⟨d, hd, hfd⟩
    have hrest : (l.filterMap f).Nodup :=
      h.sublist ((List.sublist_cons_self c l).filterMap f)
    rcases List.mem_cons.mp ha with hac | hal <;> rcases List.mem_cons.mp hb with hbc | hbl
    · rw [hac, hbc]
    · rw [List.filterMap_cons_some (hac ▸ hfa)] at h
      exact absurd (hkey b hbl hfb) (List.nodup_cons.mp h).1
    · rw [List.filterMap_cons_some (hbc ▸ hfb)] at h
      exact absurd (hkey a hal hfa) (List.nodup_cons.mp h).1
    · exact ih hrest hal hbl

namespace Received

variable {R : α → β → Prop} {S : β → γ → Prop} {sent : List α} {taken : List Nat} {got : List β}

theorem start : Received R sent [] [] := ⟨List.nodup_nil, .nil⟩

theorem send (h : Received R sent taken got) (more : List α) :
    Received R (sent ++ more) taken got := by
  refine ⟨h.once, h.each.imp fun k b hk => ?_⟩
  obtain ⟨a, ha, hab⟩ := hk
  refine ⟨a, ?_, hab⟩
  rw [List.getElem?_append_left (List.getElem?_eq_some_iff.mp ha).1]
  exact ha

theorem receive {k : Nat} {a : α} {b : β} (h : Received R sent taken got)
    (hk : sent[k]? = some a) (hnew : k ∉ taken) (hab : R a b) :
    Received R sent (taken ++ [k]) (got ++ [b]) := by
  refine ⟨List.nodup_append.mpr ⟨h.once, List.nodup_singleton k, ?_⟩, ?_⟩
  · rintro i hi j hj rfl
    rw [List.mem_singleton] at hj
    exact hnew (hj ▸ hi)
  · exact List.rel_append h.each (.cons ⟨a, hk, hab⟩ .nil)

/-- The receiver may keep more than the relation looks at. -/
theorem of_map {f : γ → β} {kept : List γ} (h : Received R sent taken (kept.map f)) :
    Received (fun a c => R a (f c)) sent taken kept :=
  ⟨h.once, List.forall₂_map_right_iff.mp h.each⟩

theorem imp {R' : α → β → Prop} (h : Received R sent taken got)
    (himp : ∀ a ∈ sent, ∀ b, R a b → R' a b) : Received R' sent taken got := by
  refine ⟨h.once, h.each.imp fun k b hk => ?_⟩
  obtain ⟨a, ha, hab⟩ := hk
  exact ⟨a, ha, himp a (List.mem_of_getElem? ha) b hab⟩

/-- What is received was sent, each message no more often. -/
theorem subperm (h : Received R sent taken got) :
    ∃ l, l.Subperm sent ∧ List.Forall₂ R l got := by
  obtain ⟨honce, heach⟩ := h
  refine ⟨taken.filterMap (fun k => sent[k]?), ?_, ?_⟩
  · have hbound : taken ⊆ List.range sent.length := by
      intro k hk
      clear honce
      induction heach with
      | nil => cases hk
      | cons hfirst _ ih =>
        rcases List.mem_cons.mp hk with rfl | hk
        · obtain ⟨a, ha, -⟩ := hfirst
          exact List.mem_range.mpr (List.getElem?_eq_some_iff.mp ha).1
        · exact ih hk
    obtain ⟨l, hperm, hsub⟩ := List.subperm_of_subset honce hbound
    refine ⟨l.filterMap (fun k => sent[k]?), hperm.filterMap _, ?_⟩
    have hall := hsub.filterMap (fun k => sent[k]?)
    rw [filterMap_range_getElem?] at hall
    exact hall
  · clear honce
    induction heach with
    | nil => exact .nil
    | cons hfirst _ ih =>
      obtain ⟨a, ha, hab⟩ := hfirst
      rw [List.filterMap_cons_some ha]
      exact .cons hab ih

theorem origin {b : β} (h : Received R sent taken got) (hb : b ∈ got) : ∃ a ∈ sent, R a b := by
  obtain ⟨l, hsub, hl⟩ := h.subperm
  suffices hmade : ∃ a ∈ l, R a b by
    obtain ⟨a, ha, hab⟩ := hmade
    exact ⟨a, hsub.subset ha, hab⟩
  clear hsub h
  induction hl with
  | nil => cases hb
  | @cons a b' _ _ hfirst _ ih =>
    rcases List.mem_cons.mp hb with rfl | hb
    · exact ⟨a, List.mem_cons_self, hfirst⟩
    · obtain ⟨a', ha', hab⟩ := ih hb
      exact ⟨a', List.mem_cons_of_mem _ ha', hab⟩

/-- A message whose position was taken has been received. -/
theorem arrived {k : Nat} {a : α} (h : Received R sent taken got) (hk : sent[k]? = some a)
    (hmem : k ∈ taken) : ∃ b ∈ got, R a b := by
  obtain ⟨-, heach⟩ := h
  induction heach with
  | nil => cases hmem
  | @cons j b _ _ hfirst _ ih =>
    rcases List.mem_cons.mp hmem with rfl | hmem
    · obtain ⟨a', ha', hab⟩ := hfirst
      rw [hk] at ha'
      cases ha'
      exact ⟨b, List.mem_cons_self, hab⟩
    · obtain ⟨b', hb', hab⟩ := ih hmem
      exact ⟨b', List.mem_cons_of_mem _ hb', hab⟩

/-- What was received is sent on. -/
theorem trans {taken' : List Nat} {last : List γ} (h : Received R sent taken got)
    (h' : Received S got taken' last) :
    Received (fun a c => ∃ b ∈ got, R a b ∧ S b c) sent (taken'.filterMap fun k => taken[k]?)
      last := by
  constructor
  · refine h'.once.filterMap fun i j k hi hj => ?_
    exact getElem?_inj_of_nodup h.once hi hj
  · have hat : ∀ (k : Nat) (b : β), got[k]? = some b →
        ∃ j a, taken[k]? = some j ∧ sent[j]? = some a ∧ R a b := by
      intro k b hk
      obtain ⟨hlt, rfl⟩ := List.getElem?_eq_some_iff.mp hk
      have hlt' : k < taken.length := h.each.length_eq ▸ hlt
      obtain ⟨a, ha, hab⟩ := h.each.get hlt' hlt
      exact ⟨taken[k], a, List.getElem?_eq_getElem hlt', ha, hab⟩
    obtain ⟨-, heach⟩ := h'
    induction heach with
    | nil => exact .nil
    | cons hfirst _ ih =>
      obtain ⟨b, hb, hbc⟩ := hfirst
      obtain ⟨j, a, hj, ha, hab⟩ := hat _ b hb
      rw [List.filterMap_cons_some hj]
      exact .cons ⟨a, ha, b, List.mem_of_getElem? hb, hab, hbc⟩ ih

/-- A key that the sender uses once arrives once. -/
theorem keys_nodup {f : α → Option κ} {g : β → Option κ} (h : Received R sent taken got)
    (hkey : ∀ a b, R a b → f a = g b) (hsent : (sent.filterMap f).Nodup) :
    (got.filterMap g).Nodup := by
  obtain ⟨l, ⟨l', hperm, hsub⟩, hl⟩ := h.subperm
  have hsame : l.filterMap f = got.filterMap g := by
    clear hperm hsub h
    induction hl with
    | nil => rfl
    | cons hfirst _ ih => simp only [List.filterMap_cons, hkey _ _ hfirst, ih]
  rw [← hsame]
  exact (hperm.filterMap f).nodup_iff.mp (hsent.sublist (hsub.filterMap f))

end Received

end Sioxx.Lib
