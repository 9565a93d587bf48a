import Mathlib.Data.List.DropRight

/-!
Owns texts whose parts a mark separates: cutting at every mark, joining, and
the last part. Two texts that end in the same part, one of them perhaps behind
more marks, are told by their last parts alone.
-/

namespace Swarmind.Library.Dotted

universe u

variable {α : Type u} [DecidableEq α] (mark : α)

/-- The parts between the marks. -/
def split : List α → List (List α)
  | [] => [[]]
  | letter :: rest =>
    if letter = mark then [] :: split rest
    else
      match split rest with
      | [] => [[letter]]
      | first :: later => (letter :: first) :: later

/-- The parts with a mark between any two. -/
def join (parts : List (List α)) : List α := List.intercalate [mark] parts

/-- What stands behind the last mark. -/
def last (text : List α) : List α := text.rtakeWhile (· ≠ mark)

variable {mark}

variable (text : List α)

variable (mark) in
theorem split_ne_nil : split mark text ≠ [] := by
  induction text with
  | nil => simp [split]
  | cons letter rest ih =>
    rw [split]
    split
    · simp
    · split <;> simp

private theorem not_mem_of_mem_split {text part : List α} (among : part ∈ split mark text) :
    mark ∉ part := by
  induction text generalizing part with
  | nil =>
    rw [split, List.mem_singleton] at among
    simp [among]
  | cons letter rest ih =>
    rw [split] at among
    split at among
    · rcases List.mem_cons.mp among with rfl | later
      · exact List.not_mem_nil
      · exact ih later
    · rename_i different
      split at among
      · rw [List.mem_singleton.mp among]
        simpa using Ne.symm different
      · rename_i first later cut
        rw [cut] at ih
        rcases List.mem_cons.mp among with rfl | behind
        · have absent := ih List.mem_cons_self
          simpa using ⟨Ne.symm different, absent⟩
        · exact ih (List.mem_cons_of_mem _ behind)

omit [DecidableEq α] in
private theorem join_cons {parts : List (List α)} (more : parts ≠ []) (part : List α) :
    join mark (part :: parts) = part ++ mark :: join mark parts := by
  rw [join, List.intercalate_cons_of_ne_nil more, join, List.append_assoc]
  rfl

omit [DecidableEq α] in
theorem join_singleton (part : List α) : join mark [part] = part := List.intercalate_singleton

variable (mark) in
/-- What was split is joined again. -/
theorem join_split : join mark (split mark text) = text := by
  induction text with
  | nil => exact join_singleton []
  | cons letter rest ih =>
    rw [split]
    split
    · rename_i same
      rw [join_cons (split_ne_nil mark rest), ih, same, List.nil_append]
    · split
      · rename_i cut
        exact absurd cut (split_ne_nil mark rest)
      · rename_i first later cut
        rw [cut] at ih
        cases later with
        | nil =>
          rw [join_singleton] at ih ⊢
          rw [ih]
        | cons second others =>
          rw [join_cons (by simp)] at ih ⊢
          rw [List.cons_append, ih]

/-! ### The last part -/

private theorem last_of_not_mem {text : List α} (absent : mark ∉ text) : last mark text = text := by
  rw [last, List.rtakeWhile_eq_self_iff]
  intro letter among
  simpa using fun same : letter = mark => absent (same ▸ among)

theorem not_mem_last : mark ∉ last mark text := by
  intro among
  simpa using List.mem_rtakeWhile_imp among

theorem last_append_mark (before behind : List α) :
    last mark (before ++ mark :: behind) = last mark behind := by
  induction behind using List.reverseRecOn with
  | nil => simp [last]
  | append_singleton behind letter ih =>
    rw [← List.cons_append, ← List.append_assoc]
    by_cases same : letter = mark
    · simp [last, same]
    · rw [last, List.rtakeWhile_concat_pos _ _ _ (by simpa using same), last,
        List.rtakeWhile_concat_pos _ _ _ (by simpa using same)]
      exact congrArg (· ++ [letter]) ih

private theorem eq_last_or_suffix : text = last mark text ∨ mark :: last mark text <:+ text := by
  induction text using List.reverseRecOn with
  | nil => exact .inl rfl
  | append_singleton text letter ih =>
    by_cases same : letter = mark
    · apply Or.inr
      have none : last mark (text ++ [letter]) = [] := by simp [last, same]
      rw [none, same]
      exact List.suffix_append text [mark]
    · have more : last mark (text ++ [letter]) = last mark text ++ [letter] := by
        rw [last, List.rtakeWhile_concat_pos _ _ _ (by simpa using same)]
        rfl
      rw [more]
      rcases ih with whole | ⟨before, split⟩
      · exact .inl (congrArg (· ++ [letter]) whole)
      · apply Or.inr
        refine ⟨before, ?_⟩
        rw [← List.cons_append, ← List.append_assoc, split]

theorem eq_or_suffix_iff {part : List α} (absent : mark ∉ part) (text : List α) :
    (text = part ∨ mark :: part <:+ text) ↔ last mark text = part := by
  constructor
  · rintro (rfl | ⟨before, rfl⟩)
    · exact last_of_not_mem absent
    · rw [last_append_mark, last_of_not_mem absent]
  · rintro rfl
    exact eq_last_or_suffix text

theorem last_eq_of_match {text wanted : List α}
    (matches_ : text = wanted ∨ mark :: wanted <:+ text) : last mark text = last mark wanted := by
  rcases matches_ with rfl | ⟨before, rfl⟩
  · rfl
  · exact last_append_mark before wanted

theorem last_join_append {parts : List (List α)} (more : parts ≠ []) (before : List (List α)) :
    last mark (join mark (before ++ parts)) = last mark (join mark parts) := by
  induction before with
  | nil => rfl
  | cons part before ih =>
    rw [List.cons_append, join_cons (by simp [more]), last_append_mark, ih]

variable (mark) in
theorem getLast_split : (split mark text).getLast (split_ne_nil mark text) = last mark text := by
  have whole := join_split mark text
  rw [← List.dropLast_append_getLast (split_ne_nil mark text)] at whole
  have ends := congrArg (last mark) whole
  have absent : mark ∉ (split mark text).getLast (split_ne_nil mark text) :=
    not_mem_of_mem_split (List.getLast_mem _)
  rwa [last_join_append (by simp), join_singleton, last_of_not_mem absent] at ends

end Swarmind.Library.Dotted
