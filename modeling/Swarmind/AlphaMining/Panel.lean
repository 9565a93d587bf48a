import Mathlib.Data.List.OfFn

/-!
Owns the panels that factors are computed on: a row for each time, a column for each asset, and
in every cell a number, a missing value or an infinity. Numbers are exact.
-/

namespace Swarmind.AlphaMining

universe u

/-- A floating point number. -/
inductive Cell (K : Type u) where
  | finite (value : K)
  | nan
  | posInf
  | negInf
deriving DecidableEq, Repr

namespace Cell

variable {K : Type u}

/-- The number in a cell, if `np.isfinite` holds of it. -/
def value? : Cell K → Option K
  | .finite value => some value
  | .nan | .posInf | .negInf => none

def IsFinite (cell : Cell K) : Prop := cell.value?.isSome

instance (cell : Cell K) : Decidable cell.IsFinite := instDecidableEqBool _ _

@[simp] theorem value?_eq_some_iff {cell : Cell K} {value : K} :
    cell.value? = some value ↔ cell = finite value := by
  cases cell <;> simp [value?]

end Cell

/-- The cells of `T` times and `N` assets. -/
abbrev Panel (K : Type u) (T N : Nat) := Fin T → Fin N → Cell K

namespace Panel

variable {K : Type u} {T N : Nat}

/-- `np.full(shape, np.nan)`. -/
def missing : Panel K T N := fun _ _ => .nan

def column (panel : Panel K T N) (asset : Fin N) : List (Cell K) :=
  List.ofFn fun time => panel time asset

def ofColumns (columns : List (List (Cell K))) : Panel K T N := fun time asset =>
  ((columns[asset]?).bind fun series => series[time]?).getD .nan

theorem length_column (panel : Panel K T N) (asset : Fin N) : (panel.column asset).length = T :=
  List.length_ofFn

theorem ofColumns_map (compute : Fin N → List (Cell K)) (time : Fin T) (asset : Fin N) :
    (ofColumns ((List.finRange N).map compute) : Panel K T N) time asset =
      ((compute asset)[time]?).getD .nan := by
  have found : ((List.finRange N).map compute)[asset]? = some (compute asset) := by
    rw [Fin.getElem?_fin, List.getElem?_map, List.getElem?_eq_getElem (by simp)]
    simp
  rw [ofColumns, found, Option.bind_some]

end Panel

end Swarmind.AlphaMining
