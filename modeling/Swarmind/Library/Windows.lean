import Mathlib.Algebra.BigOperators.Group.List.Basic
import Mathlib.Tactic.Abel

/-!
Owns sliding windows over a list: the last items before a position, and sums over them as
differences of sums over prefixes.
-/

namespace Swarmind.Library

universe u v

variable {α : Type u}

/-- The last `window` of the first `count` items. -/
def recent (window count : Nat) (items : List α) : List α :=
  (items.take count).drop (count - window)

theorem length_recent_le (window count : Nat) (items : List α) :
    (recent window count items).length ≤ window := by
  rw [recent, List.length_drop, List.length_take]
  omega

theorem mem_of_mem_recent {window count : Nat} {items : List α} {item : α}
    (member : item ∈ recent window count items) : item ∈ items :=
  List.mem_of_mem_take (List.mem_of_mem_drop member)

section

variable {M : Type v} [AddCommGroup M] (measure : α → M)

def sumFirst (count : Nat) (items : List α) : M := ((items.take count).map measure).sum

theorem sumFirst_zero (items : List α) : sumFirst measure 0 items = 0 := rfl

theorem sumFirst_succ {count : Nat} {items : List α} {item : α}
    (found : items[count]? = some item) :
    sumFirst measure (count + 1) items = sumFirst measure count items + measure item := by
  rw [sumFirst, List.take_add_one, found, Option.toList_some, List.map_append, List.sum_append,
    List.map_singleton, List.sum_singleton, sumFirst]

/-- A windowed sum is a difference of prefix sums. -/
theorem sum_recent (window count : Nat) (items : List α) :
    ((recent window count items).map measure).sum =
      sumFirst measure count items - sumFirst measure (count - window) items := by
  have split := List.take_append_drop (count - window) (items.take count)
  rw [List.take_take, Nat.min_eq_left (Nat.sub_le count window)] at split
  rw [eq_sub_iff_add_eq, sumFirst, sumFirst, add_comm, ← List.sum_append, ← List.map_append,
    recent, split]

theorem sum_recent_succ {window count : Nat} {items : List α} {item : α}
    (found : items[count]? = some item) :
    ((recent window (count + 1) items).map measure).sum =
      ((recent window count items).map measure).sum + measure item -
        if window ≤ count then ((items[count - window]?).map measure).getD 0 else 0 := by
  rw [sum_recent, sum_recent, sumFirst_succ measure found]
  by_cases full : window ≤ count
  · obtain ⟨inside, _⟩ := List.getElem?_eq_some_iff.mp found
    have expired := List.getElem?_eq_getElem (l := items) (i := count - window) (by omega)
    have next : count + 1 - window = count - window + 1 := by omega
    rw [if_pos full, next, sumFirst_succ measure expired, expired, Option.map_some,
      Option.getD_some]
    abel
  · have next : count + 1 - window = 0 := by omega
    have now : count - window = 0 := by omega
    rw [if_neg full, next, now, sumFirst_zero]
    abel

end

end Swarmind.Library
