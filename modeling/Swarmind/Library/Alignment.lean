import Mathlib.Data.List.Forall2

/-!
Owns lists that correspond element by element, and stable sorts. Operations that treat
corresponding elements alike keep the correspondence, and where corresponding elements
that are seen are the same, what is seen of the lists is the same. A stable sort of what
is seen is what is seen of the sorted list. The first element that meets a test stays the first
while it is kept.
-/

namespace Swarmind.Library

section Aligned

variable {α β γ : Type*} {R : α → β → Prop} {left : List α} {right : List β}

/-- Filters that agree on related items keep lists aligned. -/
theorem aligned_filter {p : α → Bool} {q : β → Bool} (alike : ∀ a b, R a b → p a = q b)
    (aligned : List.Forall₂ R left right) : List.Forall₂ R (left.filter p) (right.filter q) := by
  refine List.rel_filter (fun a b related => ?_) aligned
  exact Bool.eq_iff_iff.mp (alike a b related)

theorem aligned_eraseP {p : α → Bool} {q : β → Bool} (aligned : List.Forall₂ R left right)
    (alike : ∀ a ∈ left, ∀ b ∈ right, R a b → p a = q b) :
    List.Forall₂ R (left.eraseP p) (right.eraseP q) := by
  induction aligned with
  | nil => exact .nil
  | @cons a b left right related rest ih =>
    have same := alike a List.mem_cons_self b List.mem_cons_self related
    have later := ih fun a inLeft b inRight =>
      alike a (List.mem_cons_of_mem _ inLeft) b (List.mem_cons_of_mem _ inRight)
    cases erased : q b with
    | true =>
      rw [List.eraseP_cons_of_pos (same.trans erased), List.eraseP_cons_of_pos erased]
      exact rest
    | false =>
      rw [List.eraseP_cons_of_neg (by simp [same, erased]),
        List.eraseP_cons_of_neg (by simp [erased])]
      exact .cons related later

theorem aligned_map_eq {f : α → γ} {g : β → γ} (alike : ∀ a b, R a b → f a = g b)
    (aligned : List.Forall₂ R left right) : left.map f = right.map g := by
  induction aligned with
  | nil => rfl
  | cons related _ ih =>
    rw [List.map_cons, List.map_cons, alike _ _ related, ih]

private theorem aligned_getElem? (aligned : List.Forall₂ R left right) (position : Nat) :
    (left[position]? = none ∧ right[position]? = none) ∨
      ∃ a b, left[position]? = some a ∧ right[position]? = some b ∧ R a b := by
  induction aligned generalizing position with
  | nil => exact .inl ⟨rfl, rfl⟩
  | @cons a b _ _ related _ ih =>
    cases position with
    | zero => exact .inr ⟨a, b, rfl, rfl, related⟩
    | succ position => exact ih position

theorem aligned_head? (aligned : List.Forall₂ R left right) :
    (left.head? = none ∧ right.head? = none) ∨
      ∃ a b, left.head? = some a ∧ right.head? = some b ∧ R a b := by
  cases aligned with
  | nil => exact .inl ⟨rfl, rfl⟩
  | cons related rest => exact .inr ⟨_, _, rfl, rfl, related⟩

theorem aligned_concat {last : α} (aligned : List.Forall₂ R (left ++ [last]) right) :
    ∃ rest other, right = rest ++ [other] ∧ List.Forall₂ R left rest ∧ R last other := by
  induction left generalizing right with
  | nil =>
    cases aligned with
    | cons related rest =>
      cases rest
      exact ⟨[], _, rfl, .nil, related⟩
  | cons first later ih =>
    cases aligned with
    | cons related rest =>
      obtain ⟨others, other, rfl, pairs, relatedLast⟩ := ih rest
      exact ⟨_ :: others, other, rfl, .cons related pairs, relatedLast⟩

theorem aligned_positions (aligned : List.Forall₂ R left right) (positions : List Nat) :
    List.Forall₂ R (positions.filterMap fun position => left[position]?)
      (positions.filterMap fun position => right[position]?) := by
  induction positions with
  | nil => exact .nil
  | cons position rest ih =>
    rw [List.filterMap_cons, List.filterMap_cons]
    rcases aligned_getElem? aligned position with
      ⟨inLeft, inRight⟩ | ⟨a, b, inLeft, inRight, related⟩
    · rw [inLeft, inRight]
      exact ih
    · rw [inLeft, inRight]
      exact .cons related ih

theorem aligned_zipIdx (aligned : List.Forall₂ R left right) (start : Nat) :
    List.Forall₂ (fun a b => R a.1 b.1 ∧ a.2 = b.2) (left.zipIdx start) (right.zipIdx start) := by
  induction aligned generalizing start with
  | nil => exact .nil
  | cons related _ ih =>
    rw [List.zipIdx_cons, List.zipIdx_cons]
    exact .cons ⟨related, rfl⟩ (ih (start + 1))

/-- What is seen of two lists, where seen elements correspond to themselves. -/
theorem aligned_filter_eq {S : α → α → Prop} {first second : List α} (seen : α → Bool)
    (alike : ∀ a b, S a b → seen a = seen b) (same : ∀ a b, S a b → seen a = true → a = b)
    (aligned : List.Forall₂ S first second) : first.filter seen = second.filter seen := by
  induction aligned with
  | nil => rfl
  | @cons a b _ _ related _ ih =>
    rw [List.filter_cons, List.filter_cons, ← alike a b related, ih]
    split_ifs with visible
    · rw [same a b related visible]
    · rfl

end Aligned

/-! ### Stable sorts -/

section Sorted

variable {α : Type*} {le : α → α → Bool}

private theorem cut_unique (test : α → Bool) {first second third fourth : List α}
    (same : first ++ second = third ++ fourth) (inFirst : ∀ a ∈ first, test a = true)
    (inSecond : ∀ a ∈ second, test a = false) (inThird : ∀ a ∈ third, test a = true)
    (inFourth : ∀ a ∈ fourth, test a = false) : first = third ∧ second = fourth := by
  induction first generalizing third with
  | nil =>
    cases third with
    | nil => exact ⟨rfl, same⟩
    | cons head rest =>
      have passes := inThird head List.mem_cons_self
      rw [List.nil_append] at same
      rw [inSecond head (by rw [same]; exact List.mem_cons_self)] at passes
      exact Bool.noConfusion passes
  | cons head rest ih =>
    cases third with
    | nil =>
      have passes := inFirst head List.mem_cons_self
      rw [List.nil_append] at same
      rw [inFourth head (by rw [← same]; exact List.mem_cons_self)] at passes
      exact Bool.noConfusion passes
    | cons other later =>
      rw [List.cons_append, List.cons_append, List.cons.injEq] at same
      obtain ⟨rfl, rests⟩ := same
      obtain ⟨rfl, rfl⟩ := ih rests
        (fun a held => inFirst a (List.mem_cons_of_mem _ held))
        (fun a held => inThird a (List.mem_cons_of_mem _ held))
      exact ⟨rfl, rfl⟩

/-- Sorting and filtering commute. -/
theorem filter_mergeSort (trans : ∀ a b c, le a b = true → le b c = true → le a c = true)
    (total : ∀ a b, (le a b || le b a) = true) (seen : α → Bool) (items : List α) :
    (items.mergeSort le).filter seen = (items.filter seen).mergeSort le := by
  induction items with
  | nil => simp
  | cons head rest ih =>
    obtain ⟨before, after, sorted, without, below⟩ := List.mergeSort_cons trans total head rest
    rw [without, List.filter_append] at ih
    rw [sorted, List.filter_append, List.filter_cons, List.filter_cons]
    split_ifs with visible
    · obtain ⟨first, second, sortedSeen, withoutSeen, belowSeen⟩ :=
        List.mergeSort_cons trans total head (rest.filter seen)
      have ordered := List.pairwise_mergeSort trans total (head :: rest)
      have orderedSeen := List.pairwise_mergeSort trans total (head :: rest.filter seen)
      rw [sorted, List.pairwise_append, List.pairwise_cons] at ordered
      rw [sortedSeen, List.pairwise_append, List.pairwise_cons] at orderedSeen
      obtain ⟨same, sameLater⟩ := cut_unique (fun a => !le head a)
        (ih.trans withoutSeen)
        (fun a held => below a (List.mem_of_mem_filter held))
        (fun a held => by simp [ordered.2.1.1 a (List.mem_of_mem_filter held)])
        belowSeen (fun a held => by simp [orderedSeen.2.1.1 a held])
      rw [sortedSeen, same, sameLater]
    · exact ih

end Sorted

/-! ### First elements -/

section First

variable {α : Type*} {p q : α → Bool} {items : List α} {first : α}

theorem find?_eraseP (apart : ∀ a, q a = true → p a = false) :
    (items.eraseP q).find? p = items.find? p := by
  induction items with
  | nil => rfl
  | cons head rest ih =>
    cases erased : q head with
    | true => rw [List.eraseP_cons_of_pos erased, List.find?_cons, apart head erased]
    | false =>
      rw [List.eraseP_cons_of_neg (by simp [erased]), List.find?_cons, List.find?_cons,
        ih]

theorem find?_filter_of_kept (found : items.find? p = some first) (kept : q first = true) :
    (items.filter q).find? p = some first := by
  induction items with
  | nil => cases found
  | cons head rest ih =>
    rw [List.find?_cons] at found
    cases meets : p head with
    | true =>
      rw [meets] at found
      obtain rfl := Option.some.inj found
      rw [List.filter_cons_of_pos kept, List.find?_cons, meets]
    | false =>
      rw [meets] at found
      rw [List.filter_cons]
      split_ifs
      · rw [List.find?_cons, meets]
        exact ih found
      · exact ih found

end First

end Swarmind.Library
