import Mathlib.Data.List.Count
import Mathlib.Data.List.Induction
import Mathlib.Data.List.Sort
import Swarmind.Library.Dict

/-!
Owns the running maximum of a scan: an item replaces the best one so far only
when its score is strictly greater, so that the first of the greatest items wins.
The most common item of a list is one of these.
-/

namespace Swarmind.Library

universe u v w

section

variable {α : Type u} {β : Type v} [LinearOrder β] (score : α → β)

/-- The best item after one more. -/
def improve (best : Option α) (item : α) : Option α :=
  if best.all fun current => decide (score current < score item) then some item else best

/-- The first item of greatest score. -/
def argmax (items : List α) : Option α := items.foldl (improve score) none

variable {score}

@[simp] theorem argmax_nil : argmax score [] = none := rfl

theorem argmax_append_singleton (items : List α) (item : α) :
    argmax score (items ++ [item]) = improve score (argmax score items) item := by
  rw [argmax, List.foldl_append]
  rfl

theorem argmax_cons (item : α) (rest : List α) :
    argmax score (item :: rest) = rest.foldl (improve score) (some item) := rfl

variable (score) in
/-- From a first item on, the scan ends with an item that is at least as good as
all it has seen. -/
theorem foldl_improve_spec (first : α) (rest : List α) :
    ∃ best ∈ first :: rest, rest.foldl (improve score) (some first) = some best ∧
      ∀ item ∈ first :: rest, score item ≤ score best := by
  induction rest generalizing first with
  | nil => exact ⟨first, List.mem_singleton_self first, rfl, by simp⟩
  | cons item rest ih =>
    rw [List.foldl_cons]
    by_cases improves : score first < score item
    · have step : improve score (some first) item = some item := by simp [improve, improves]
      obtain ⟨best, member, ends, greatest⟩ := ih item
      rw [step]
      refine ⟨best, List.mem_cons_of_mem first member, ends, ?_⟩
      rw [List.forall_mem_cons]
      exact ⟨le_trans (le_of_lt improves) (greatest item List.mem_cons_self), greatest⟩
    · have step : improve score (some first) item = some first := by simp [improve, improves]
      obtain ⟨best, member, ends, greatest⟩ := ih first
      have inside : best ∈ first :: item :: rest := by
        rcases List.mem_cons.mp member with rfl | later
        · exact List.mem_cons_self
        · exact List.mem_cons_of_mem first (List.mem_cons_of_mem item later)
      rw [step]
      refine ⟨best, inside, ends, ?_⟩
      rw [List.forall_mem_cons, List.forall_mem_cons]
      have least := greatest first List.mem_cons_self
      exact ⟨least, le_trans (not_lt.mp improves) least,
        fun other later => greatest other (List.mem_cons_of_mem first later)⟩

theorem argmax_eq_none_iff {items : List α} : argmax score items = none ↔ items = [] := by
  cases items with
  | nil => simp
  | cons first rest =>
    obtain ⟨best, member, ends, greatest⟩ := foldl_improve_spec score first rest
    rw [argmax_cons, ends]
    simp

theorem argmax_mem {items : List α} {best : α} (found : argmax score items = some best) :
    best ∈ items := by
  cases items with
  | nil => cases found
  | cons first rest =>
    obtain ⟨other, member, ends, greatest⟩ := foldl_improve_spec score first rest
    rw [argmax_cons, ends] at found
    exact Option.some.inj found ▸ member

variable (score) in
/-- A list that is not empty has a best item. -/
theorem exists_argmax {items : List α} (some : items ≠ []) :
    ∃ best ∈ items, argmax score items = .some best ∧ ∀ item ∈ items, score item ≤ score best := by
  cases items with
  | nil => exact absurd rfl some
  | cons first rest => exact foldl_improve_spec score first rest

theorem argmax_cons_eq_some_iff {first : α} {rest : List α} :
    argmax score (first :: rest) = some first ↔ ∀ item ∈ rest, score item ≤ score first := by
  constructor
  · intro found item member
    obtain ⟨best, _, ends, greatest⟩ := foldl_improve_spec score first rest
    rw [argmax_cons, ends] at found
    exact Option.some.inj found ▸ greatest item (List.mem_cons_of_mem first member)
  · intro worse
    rw [argmax_cons]
    induction rest with
    | nil => rfl
    | cons item rest ih =>
      obtain ⟨noBetter, later⟩ := List.forall_mem_cons.mp worse
      have step : improve score (some first) item = some first := by
        simp [improve, not_lt.mpr noBetter]
      rw [List.foldl_cons, step]
      exact ih later

variable (score) in
theorem argmax_cons_eq (item : α) (rest : List α) :
    argmax score (item :: rest) =
      match argmax score rest with
      | none => some item
      | some best => if score item < score best then some best else some item := by
  rw [argmax_cons]
  induction rest using List.reverseRecOn with
  | nil => rfl
  | append_singleton rest last ih =>
    rw [List.foldl_append, ih, argmax_append_singleton, List.foldl_cons,
      List.foldl_nil]
    cases argmax score rest with
    | none => by_cases better : score item < score last <;> simp [improve, better]
    | some best =>
      by_cases better : score item < score best <;>
        by_cases lastBetter : score best < score last
      · simp [improve, better, lastBetter, better.trans lastBetter]
      · simp [improve, better, lastBetter]
      · by_cases wins : score item < score last <;> simp [improve, better, lastBetter, wins]
      · have loses : ¬ score item < score last := fun wins =>
          better (wins.trans_le (not_lt.mp lastBetter))
        simp [improve, better, lastBetter, loses]

/-- A stable sort by falling score begins with the first of the greatest. -/
theorem head?_insertionSort (items : List α) :
    (items.insertionSort fun left right => score right ≤ score left).head? =
      argmax score items := by
  induction items with
  | nil => rfl
  | cons item rest ih =>
    rw [argmax_cons_eq, ← ih, List.insertionSort_cons]
    cases rest.insertionSort fun left right => score right ≤ score left with
    | nil => rfl
    | cons best later =>
      rw [List.head?_cons]
      by_cases better : score item < score best
      · have placed : ¬ score best ≤ score item := not_le.mpr better
        simp [List.orderedInsert, placed, better]
      · have placed : score best ≤ score item := not_lt.mp better
        simp [List.orderedInsert, placed, better]

/-- The first of the best items is taken. -/
theorem argmax_split {before after : List α} {best : α} (absent : best ∉ before) :
    argmax score (before ++ best :: after) = some best ↔
      (∀ item ∈ before, score item < score best) ∧ ∀ item ∈ after, score item ≤ score best := by
  induction before with
  | nil =>
    rw [List.nil_append, argmax_cons_eq_some_iff]
    simp
  | cons head before ih =>
    rw [List.mem_cons, not_or] at absent
    rw [List.cons_append, List.forall_mem_cons, and_assoc, ← ih absent.2,
      argmax_cons_eq]
    cases found : argmax score (before ++ best :: after) with
    | none =>
      rw [argmax_eq_none_iff] at found
      exact absurd found (by simp)
    | some winner =>
      by_cases worse : score head < score winner
      · simp only [if_pos worse, Option.some.injEq]
        constructor
        · rintro rfl
          exact ⟨worse, rfl⟩
        · exact And.right
      · simp only [if_neg worse, Option.some.injEq]
        constructor
        · rintro rfl
          exact absurd rfl absent.1
        · rintro ⟨better, rfl⟩
          exact absurd better worse

variable (score) in
theorem argmax_map {γ : Type w} (f : γ → α) (items : List γ) :
    argmax score (items.map f) = (argmax (fun item => score (f item)) items).map f := by
  induction items using List.reverseRecOn with
  | nil => rfl
  | append_singleton items item ih =>
    rw [List.map_append, List.map_singleton, argmax_append_singleton, argmax_append_singleton,
      ih]
    cases argmax (fun item => score (f item)) items with
    | none => simp [improve]
    | some best => by_cases better : score (f best) < score (f item) <;> simp [improve, better]

theorem exists_max? {items : List Nat} (some : items ≠ []) :
    ∃ top, items.max? = .some top ∧ top ∈ items ∧ ∀ item ∈ items, item ≤ top := by
  obtain ⟨top, greatest⟩ := Option.ne_none_iff_exists'.mp (mt List.max?_eq_none_iff.mp some)
  exact ⟨top, greatest, List.max?_eq_some_iff.mp greatest⟩

/-! ### Winners of a dictionary -/

section Dictionaries

variable {κ : Type u} {ν : Type u} [DecidableEq κ] {rating : ν → β}

/-- A stored value wins among the values that pass a test exactly when it passes
and every other one that does is worse, or as good and stored under a later key. -/
theorem argmax_values_filter_iff (dict : Dict κ ν) (test : ν → Bool) {key : κ} {value : ν}
    (found : dict.get? key = some value)
    (unique : ∀ other, dict.get? other = some value → other = key) :
    argmax rating (dict.values.filter test) = some value ↔
      test value = true ∧ ∀ other rival, other ≠ key → dict.get? other = some rival →
        test rival = true → rating rival < rating value ∨
          rating rival = rating value ∧ dict.keys.idxOf key < dict.keys.idxOf other := by
  obtain ⟨before, after, split, earlier, later⟩ := dict.exists_around found
  have values : dict.values = before.map Prod.snd ++ value :: after.map Prod.snd := by
    rw [Dict.values, split, List.map_append, List.map_cons]
  have storedEarly : ∀ entry ∈ before, dict.get? entry.1 = some entry.2 := fun entry early =>
    (dict.get?_eq_some_iff _ _).mpr (split ▸ List.mem_append_left _ early)
  have storedLate : ∀ entry ∈ after, dict.get? entry.1 = some entry.2 := fun entry late =>
    (dict.get?_eq_some_iff _ _).mpr
      (split ▸ List.mem_append_right _ (List.mem_cons_of_mem _ late))
  by_cases passes : test value = true
  · have absent : value ∉ (before.map Prod.snd).filter test := by
      intro member
      obtain ⟨entry, early, rfl⟩ := List.mem_map.mp (List.mem_filter.mp member).1
      exact (earlier entry early).1 (unique entry.1 (storedEarly entry early))
    rw [values, List.filter_append, List.filter_cons_of_pos passes, argmax_split absent]
    constructor
    · rintro ⟨worse, noBetter⟩
      refine ⟨passes, fun other rival different stored alsoPasses => ?_⟩
      have member := (dict.get?_eq_some_iff other rival).mp stored
      rw [split, List.mem_append, List.mem_cons] at member
      rcases member with early | same | late
      · have inside : rival ∈ before.map Prod.snd := List.mem_map.mpr ⟨_, early, rfl⟩
        exact Or.inl (worse rival (List.mem_filter.mpr ⟨inside, alsoPasses⟩))
      · exact absurd (congrArg Prod.fst same) different
      · have inside : rival ∈ after.map Prod.snd := List.mem_map.mpr ⟨_, late, rfl⟩
        have bounded := noBetter rival (List.mem_filter.mpr ⟨inside, alsoPasses⟩)
        exact bounded.lt_or_eq.imp_right fun equal => ⟨equal, (later _ late).2⟩
    · rintro ⟨_, rivals⟩
      constructor
      · intro rival member
        obtain ⟨inside, alsoPasses⟩ := List.mem_filter.mp member
        obtain ⟨entry, early, rfl⟩ := List.mem_map.mp inside
        obtain ⟨different, precedes⟩ := earlier entry early
        rcases rivals entry.1 entry.2 different (storedEarly entry early) alsoPasses with
          less | ⟨_, follows⟩
        · exact less
        · exact absurd follows precedes.asymm
      · intro rival member
        obtain ⟨inside, alsoPasses⟩ := List.mem_filter.mp member
        obtain ⟨entry, late, rfl⟩ := List.mem_map.mp inside
        rcases rivals entry.1 entry.2 (later entry late).1 (storedLate entry late) alsoPasses with
          less | ⟨equal, _⟩
        · exact less.le
        · exact equal.le
  · constructor
    · intro wins
      exact absurd (List.mem_filter.mp (argmax_mem wins)).2 passes
    · rintro ⟨passing, _⟩
      exact absurd passing passes

end Dictionaries

end

/-! ### Counts -/

variable {κ : Type u} [DecidableEq κ]

def counter (items : List κ) : List (κ × Nat) :=
  (Dict.firsts items).map fun item => (item, items.count item)

/-- `Counter(items).most_common(1)`: the first of the most common items. -/
def mostCommon (items : List κ) : Option (κ × Nat) := argmax Prod.snd (counter items)

variable {items : List κ}

theorem mem_counter_iff {entry : κ × Nat} :
    entry ∈ counter items ↔ entry.1 ∈ items ∧ entry.2 = items.count entry.1 := by
  rw [counter, List.mem_map]
  constructor
  · rintro ⟨item, member, rfl⟩
    exact ⟨Dict.mem_firsts.mp member, rfl⟩
  · rintro ⟨member, same⟩
    exact ⟨entry.1, Dict.mem_firsts.mpr member, by rw [← same]⟩

/-- The most common item is counted the most often. -/
theorem mostCommon_spec (some : items ≠ []) :
    ∃ top, mostCommon items = .some (top, items.count top) ∧ top ∈ items ∧
      ∀ item, items.count item ≤ items.count top := by
  obtain ⟨first, among⟩ := List.exists_mem_of_ne_nil items some
  have counted : counter items ≠ [] :=
    List.ne_nil_of_mem (mem_counter_iff.mpr ⟨among, rfl⟩ : (first, items.count first) ∈ _)
  obtain ⟨⟨top, count⟩, listed, found, greatest⟩ := exists_argmax Prod.snd counted
  obtain ⟨member, same⟩ := mem_counter_iff.mp listed
  obtain rfl : count = items.count top := same
  refine ⟨top, found, member, ?_⟩
  intro item
  by_cases occurs : item ∈ items
  · exact greatest _ (mem_counter_iff.mpr ⟨occurs, rfl⟩ : (item, items.count item) ∈ _)
  · rw [List.count_eq_zero_of_not_mem occurs]
    exact Nat.zero_le _

theorem count_add_count_le {left right : κ} (apart : left ≠ right) (items : List κ) :
    items.count left + items.count right ≤ items.length := by
  induction items with
  | nil => exact Nat.le_refl _
  | cons item items ih =>
    rw [List.count_cons, List.count_cons, List.length_cons]
    by_cases first : item = left
    · have second : item ≠ right := first ▸ apart
      simp only [first, beq_self_eq_true, if_true]
      simp only [first ▸ second, beq_iff_eq, if_false]
      omega
    · simp only [first, beq_iff_eq, if_false]
      split_ifs <;> omega

/-- An item that fills more than half of a list is its most common one. -/
theorem eq_of_majority {top item : κ} (greatest : ∀ other, items.count other ≤ items.count top)
    (majority : items.length < 2 * items.count item) : item = top := by
  by_contra apart
  have together := count_add_count_le apart items
  have most := greatest item
  omega

theorem count_eq_length_of_counter (few : (counter items).length ≤ 1) {item : κ}
    (member : item ∈ items) : items.count item = items.length := by
  rw [List.count_eq_length]
  intro other among
  have first : (item, items.count item) ∈ counter items := mem_counter_iff.mpr ⟨member, rfl⟩
  have second : (other, items.count other) ∈ counter items := mem_counter_iff.mpr ⟨among, rfl⟩
  cases entries : counter items with
  | nil =>
    rw [entries] at first
    exact absurd first List.not_mem_nil
  | cons entry rest =>
    rw [entries, List.length_cons] at few
    obtain rfl := List.length_eq_zero_iff.mp (Nat.le_zero.mp (Nat.le_of_succ_le_succ few))
    rw [entries, List.mem_singleton] at first second
    exact congrArg Prod.fst (first.trans second.symm)

end Swarmind.Library
