import Swarmind.Library.Dict

/-!
Owns key-wise merges of dictionaries. A dictionary merges its parts when each
of its values comes from a part and each key of a part is present. Replaying
the parts one over the other, in any order, gives a merge; where parts that
share a key hold related values, any two merges of the same parts agree.
-/

namespace Swarmind.Library

universe u v

namespace Dict

variable {κ : Type u} {ν : Type v} [DecidableEq κ]

/-- `whole` holds exactly the keys of `parts`, each with a value of a part. -/
structure Merges (parts : List (Dict κ ν)) (whole : Dict κ ν) : Prop where
  sound : ∀ key value, whole.get? key = some value → ∃ part ∈ parts, part.get? key = some value
  complete : ∀ part ∈ parts, ∀ key, (part.get? key).isSome → (whole.get? key).isSome

/-- Replay the parts from left to right over nothing. -/
def mergeAll (parts : List (Dict κ ν)) : Dict κ ν := parts.foldl update empty

/-- Parts that share a key hold related values there. -/
def Consistent (related : ν → ν → Prop) (parts : List (Dict κ ν)) : Prop :=
  ∀ left ∈ parts, ∀ right ∈ parts, ∀ key first second,
    left.get? key = some first → right.get? key = some second → related first second

namespace Merges

variable {parts others : List (Dict κ ν)} {whole part : Dict κ ν}

theorem nil : Merges ([] : List (Dict κ ν)) empty where
  sound := by
    intro key value found
    cases found
  complete := by
    intro part member
    exact absurd member List.not_mem_nil

/-- One more part is merged by an update. -/
theorem update (merges : Merges parts whole) (part : Dict κ ν) :
    Merges (parts ++ [part]) (whole.update part) where
  sound := by
    intro key value found
    rw [get?_update, Option.or_eq_some_iff] at found
    rcases found with inPart | ⟨_, before⟩
    · exact ⟨part, by simp, inPart⟩
    · obtain ⟨source, member, holds⟩ := merges.sound key value before
      exact ⟨source, List.mem_append_left _ member, holds⟩
  complete := by
    intro source member key present
    rw [get?_update, Option.isSome_or, Bool.or_eq_true]
    rcases List.mem_append.mp member with old | new
    · exact Or.inr (merges.complete source old key present)
    · rw [List.mem_singleton.mp new] at present
      exact Or.inl present

theorem of_mem_iff (merges : Merges parts whole) (same : ∀ part, part ∈ parts ↔ part ∈ others) :
    Merges others whole where
  sound := by
    intro key value found
    obtain ⟨part, member, holds⟩ := merges.sound key value found
    exact ⟨part, (same part).mp member, holds⟩
  complete := fun part member => merges.complete part ((same part).mpr member)

theorem foldl_update (merges : Merges parts whole) (later : List (Dict κ ν)) :
    Merges (parts ++ later) (later.foldl Dict.update whole) := by
  induction later generalizing parts whole with
  | nil =>
    rw [List.append_nil]
    exact merges
  | cons part rest ih =>
    have step := ih (merges.update part)
    rw [List.append_assoc, List.singleton_append] at step
    exact step

theorem of_mergeAll (parts : List (Dict κ ν)) : Merges parts (mergeAll parts) :=
  nil.foldl_update parts

/-- Merges of consistent parts in any order agree. -/
theorem related {equal : ν → ν → Prop} {left right : Dict κ ν} (first : Merges parts left)
    (second : Merges parts right) (consistent : Consistent equal parts) (key : κ) :
    Option.Rel equal (left.get? key) (right.get? key) := by
  cases inLeft : left.get? key with
  | none =>
    cases inRight : right.get? key with
    | none => exact Option.Rel.none
    | some value =>
      obtain ⟨part, member, holds⟩ := second.sound key value inRight
      have present := first.complete part member key (by rw [holds]; rfl)
      rw [inLeft] at present
      cases present
  | some value =>
    obtain ⟨part, member, holds⟩ := first.sound key value inLeft
    have present := second.complete part member key (by rw [holds]; rfl)
    obtain ⟨other, inRight⟩ := Option.isSome_iff_exists.mp present
    obtain ⟨source, among, equal⟩ := second.sound key other inRight
    rw [inRight]
    exact Option.Rel.some (consistent part member source among key value other holds equal)

end Merges

end Dict

end Swarmind.Library
