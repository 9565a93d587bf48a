import Mathlib.Data.Rat.Lemmas
import Mathlib.Algebra.Order.Ring.Rat

/-!
Owns floats as programs compare them. Nothing is assumed of the arithmetic, so any rounding is
allowed; of the comparisons only what also holds where an operand is not a number, which
compares false with everything, itself included: the order is a preorder but for reflexivity.
-/

namespace Swarmind.Library

universe u

class Floating (F : Type u) extends Add F, Sub F, Mul F, Div F, Neg F, NatCast F, OfScientific F,
    LE F, LT F where
  decidableLE : DecidableLE F
  decidableLT : DecidableLT F
  le_trans : ∀ {x y z : F}, x ≤ y → y ≤ z → x ≤ z
  lt_iff_le_not_le : ∀ {x y : F}, x < y ↔ x ≤ y ∧ ¬y ≤ x

namespace Floating

attribute [reducible, instance] decidableLE decidableLT

instance : Floating ℚ where
  decidableLE := inferInstance
  decidableLT := inferInstance
  le_trans := fun first second => first.trans second
  lt_iff_le_not_le := lt_iff_le_not_ge

section

variable {F : Type u} [Floating F]

theorem le_of_lt {x y : F} (less : x < y) : x ≤ y := (lt_iff_le_not_le.mp less).1

theorem not_le_of_lt {x y : F} (less : x < y) : ¬y ≤ x := (lt_iff_le_not_le.mp less).2

theorem lt_of_le_of_lt {x y z : F} (first : x ≤ y) (second : y < z) : x < z :=
  lt_iff_le_not_le.mpr ⟨le_trans first (le_of_lt second),
    fun back => not_le_of_lt second (le_trans back first)⟩

theorem lt_trans {x y z : F} (first : x < y) (second : y < z) : x < z :=
  lt_of_le_of_lt (le_of_lt first) second

theorem lt_irrefl (x : F) : ¬x < x := fun less => not_le_of_lt less (le_of_lt less)

/-- `min(left, right)`: the first one unless the second is less. -/
def minimum (left right : F) : F := if right < left then right else left

/-- `max(left, right)`: the first one unless the second is greater. -/
def maximum (left right : F) : F := if left < right then right else left

/-- `abs`. -/
def absolute (x : F) : F := if x < ((0 : Nat) : F) then -x else x

def sum (terms : List F) : F := terms.foldl (· + ·) ((0 : Nat) : F)

end

end Floating

end Swarmind.Library
