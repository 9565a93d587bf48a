import Mathlib.Algebra.BigOperators.Ring.List
import Mathlib.Data.Finset.Sort
import Mathlib.Algebra.Order.Ring.Rat
import Swarmind.AlphaMining.Panel
import Swarmind.Library.Dict
import Swarmind.Library.Fenwick
import Swarmind.Library.Windows

/-!
Owns the rolling rank. The values of a column are numbered in their order, and a Fenwick tree
counts how often each of them is in the window while the window slides. The rank that is read
off the tree is the midrank among the numbers of the window.
-/

namespace Swarmind.AlphaMining.RollingRank

open Swarmind.Library

universe u

variable {K : Type u}

/-- `series[np.isfinite(series)]`. -/
def finites (series : List (Cell K)) : List K := series.filterMap Cell.value?

private theorem mem_finites {series : List (Cell K)} {value : K} :
    value ∈ finites series ↔ Cell.finite value ∈ series := by
  simp only [finites, List.mem_filterMap, Cell.value?_eq_some_iff, exists_eq_right]

section

variable [LinearOrder K]

def unique (values : List K) : List K := values.toFinset.sort (· ≤ ·)

def ranks (unique : List K) : Dict K Nat :=
  .ofList (unique.zipIdx.map fun entry => (entry.1, entry.2 + 1))

/-- What the loop carries: the counts of the values in the window, and of all of them. -/
structure Counts where
  tree : Fenwick Int
  inWindow : Int

/-- A cell comes into the window or leaves it; `none` is a `KeyError`. -/
def Counts.move (rankOf : Dict K Nat) (cell : Cell K) (delta : Int) (counts : Counts) :
    Option Counts :=
  match cell.value? with
  | some value => (rankOf.get? value).map fun rank =>
    { tree := counts.tree.add rank delta, inWindow := counts.inWindow + delta }
  | none => some counts

end

section

variable [Field K] [LinearOrder K]

/-- `out[t]`; `none` is a `KeyError` or an `IndexError`. -/
def rankAt (rankOf : Dict K Nat) (window t : Nat) (current : Cell K) (counts : Counts) :
    Option (Cell K) :=
  match current.value? with
  | some value =>
    if (t : Int) < window - 1 ∨ counts.inWindow < 2 then some .nan
    else
      (rankOf.get? value).bind fun rank =>
        (counts.tree.sumTo (rank - 1)).bind fun below =>
          (counts.tree.sumTo rank).map fun upTo =>
            let equal := upTo - below
            .finite ((below + ((equal : K) - 1) / 2.0) / ((counts.inWindow : K) - 1))
  | none => some .nan

/-- The loop of `_rank_column`, over what is left of the series from `t` on. -/
def rankLoop (rankOf : Dict K Nat) (window : Nat) (series : List (Cell K)) :
    List (Cell K) → Nat → Counts → Option (List (Cell K))
  | [], _, _ => some []
  | current :: rest, t, counts =>
    (counts.move rankOf current 1).bind fun entered =>
      (if window ≤ t then
        (series[t - window]?).bind fun expired => entered.move rankOf expired (-1)
      else some entered).bind fun counts =>
        (rankAt rankOf window t current counts).bind fun cell =>
          (rankLoop rankOf window series rest (t + 1) counts).map (cell :: ·)

def rankColumn (series : List (Cell K)) (window : Nat) : Option (List (Cell K)) :=
  if (finites series).length < 2 then some (List.replicate series.length .nan)
  else
    let values := unique (finites series)
    rankLoop (ranks values) window series series 0
      { tree := .create values.length, inWindow := 0 }

def tsRank {T N : Nat} (x : Panel K T N) (window : Int) : Option (Panel K T N) :=
  if window ≤ 1 ∨ T < window then some .missing
  else
    ((List.finRange N).mapM fun asset => rankColumn (x.column asset) window.toNat).map .ofColumns

/-! ### The naive rank -/

/-- The midrank of a number among the numbers of a window, from 0 to 1. -/
def midrank (values : List K) (current : K) : K :=
  (values.countP (· < current) + ((values.countP (· = current) : K) - 1) / 2.0) /
    ((values.length : K) - 1)

def windowRank (window : Nat) (series : List (Cell K)) (t : Nat) : Cell K :=
  let values := finites (recent window (t + 1) series)
  match (series[t]?).bind Cell.value? with
  | some current =>
    if window ≤ t + 1 ∧ 2 ≤ values.length then .finite (midrank values current) else .nan
  | none => .nan

end

/-! ### The numbering -/

section

variable [LinearOrder K]

private theorem get?_ranks {values : List K} (distinct : values.Nodup) (value : K) (rank : Nat) :
    (ranks values).get? value = some rank ↔ 0 < rank ∧ values[rank - 1]? = some value := by
  have keys : (values.zipIdx.map fun entry => (entry.1, entry.2 + 1)).map Prod.fst = values := by
    rw [List.map_map]
    exact List.zipIdx_map_fst 0 values
  rw [ranks, Dict.get?_ofList_iff (by rwa [keys])]
  simp only [List.mem_map, Prod.exists, List.mk_mem_zipIdx_iff_getElem?, Prod.mk.injEq]
  constructor
  · rintro ⟨_, index, found, rfl, rfl⟩
    exact ⟨Nat.succ_pos index, found⟩
  · rintro ⟨positive, found⟩
    exact ⟨value, rank - 1, found, rfl, Nat.succ_pred_eq_of_pos positive⟩

private theorem unique_nodup (values : List K) : (unique values).Nodup := Finset.sort_nodup _ _

private theorem exists_rank {values : List K} {value : K} (member : value ∈ values) :
    ∃ rank, (ranks (unique values)).get? value = some rank ∧ 0 < rank ∧
      rank ≤ (unique values).length := by
  have present : value ∈ unique values := (Finset.mem_sort _).mpr (List.mem_toFinset.mpr member)
  obtain ⟨index, inside, found⟩ := List.mem_iff_getElem.mp present
  have numbered := (get?_ranks (unique_nodup values) value (index + 1)).mpr
    ⟨Nat.succ_pos index, List.getElem?_eq_some_iff.mpr ⟨inside, found⟩⟩
  exact ⟨index + 1, numbered, Nat.succ_pos index, inside⟩

private theorem rank_lt_iff {values : List K} {first second : K} {firstRank secondRank : Nat}
    (left : (ranks (unique values)).get? first = some firstRank)
    (right : (ranks (unique values)).get? second = some secondRank) :
    firstRank < secondRank ↔ first < second := by
  obtain ⟨leftPositive, leftFound⟩ := (get?_ranks (unique_nodup values) _ _).mp left
  obtain ⟨rightPositive, rightFound⟩ := (get?_ranks (unique_nodup values) _ _).mp right
  obtain ⟨leftInside, rfl⟩ := List.getElem?_eq_some_iff.mp leftFound
  obtain ⟨rightInside, rfl⟩ := List.getElem?_eq_some_iff.mp rightFound
  have increasing : StrictMono (unique values).get :=
    (Finset.sortedLT_sort values.toFinset).strictMono_get
  have order := increasing.lt_iff_lt (a := ⟨firstRank - 1, leftInside⟩)
    (b := ⟨secondRank - 1, rightInside⟩)
  rw [List.get_eq_getElem, List.get_eq_getElem] at order
  refine Iff.trans ?_ order.symm
  rw [Fin.mk_lt_mk]
  omega

/-! ### The counts -/

def mark (rankOf : Dict K Nat) (place : Nat) (cell : Cell K) : Int :=
  if cell.value?.bind rankOf.get? = some place then 1 else 0

/-- One, if there is a number in the cell. -/
def present (cell : Cell K) : Int := if cell.IsFinite then 1 else 0

/-- The counts are those of a collection of cells, given by what is summed over it. -/
structure Tracks (rankOf : Dict K Nat) (total : (Cell K → Int) → Int) (counts : Counts) : Prop where
  represents : counts.tree.Represents fun place => total (mark rankOf place)
  inWindow : counts.inWindow = total present

variable {rankOf : Dict K Nat} {total : (Cell K → Int) → Int} {counts : Counts}

private theorem Tracks.move (tracks : Tracks rankOf total counts) {cell : Cell K} (delta : Int)
    (ranked : ∀ value, cell = .finite value →
      ∃ rank, rankOf.get? value = some rank ∧ 0 < rank) :
    ∃ moved, counts.move rankOf cell delta = some moved ∧
      moved.tree.size = counts.tree.size ∧
      Tracks rankOf (fun measure => total measure + delta * measure cell) moved := by
  cases found : cell.value? with
  | none =>
    have absent : ¬ cell.IsFinite := by rw [Cell.IsFinite, found]; exact Bool.false_ne_true
    have unmarked : ∀ place, mark rankOf place cell = 0 := by
      intro place
      rw [mark, found, Option.bind_none, if_neg (by simp)]
    refine ⟨counts, by rw [Counts.move, found], rfl, ?_, ?_⟩
    · simpa only [unmarked, mul_zero, add_zero] using tracks.represents
    · simpa only [present, if_neg absent, mul_zero, add_zero] using tracks.inWindow
  | some value =>
    obtain ⟨rank, ranking, positive⟩ := ranked value (Cell.value?_eq_some_iff.mp found)
    have here : cell.IsFinite := by rw [Cell.IsFinite, found]; rfl
    refine ⟨{ tree := counts.tree.add rank delta, inWindow := counts.inWindow + delta },
      ?_, rfl, ?_, ?_⟩
    · simp only [Counts.move, found, ranking, Option.map_some]
    · have added := tracks.represents.add delta positive
      have same : (fun place => total (mark rankOf place) + if place = rank then delta else 0) =
          fun place => total (mark rankOf place) + delta * mark rankOf place cell := by
        funext place
        rw [mark, found, Option.bind_some, ranking]
        simp only [Option.some.injEq, mul_ite, mul_one, mul_zero, eq_comm]
      rwa [same] at added
    · simp only [present, if_pos here, mul_one, tracks.inWindow]

private theorem sum_marks (limit : Nat) (below : K → Bool) (held : List (Cell K))
    (ranked : ∀ value ∈ finites held, ∃ rank, rankOf.get? value = some rank ∧ 0 < rank ∧
      (rank ≤ limit ↔ below value)) :
    ∑ place ∈ Finset.Ioc 0 limit, (held.map (mark rankOf place)).sum =
      ((finites held).countP below : Int) := by
  induction held with
  | nil => simp [finites]
  | cons cell rest ih =>
    simp only [List.map_cons, List.sum_cons, Finset.sum_add_distrib]
    cases found : cell.value? with
    | none =>
      have dropped : finites (cell :: rest) = finites rest := by
        rw [finites, List.filterMap_cons, found, finites]
      rw [dropped] at ranked ⊢
      rw [ih ranked]
      simp [mark, found]
    | some value =>
      have kept : finites (cell :: rest) = value :: finites rest := by
        rw [finites, List.filterMap_cons, found, finites]
      rw [kept] at ranked ⊢
      obtain ⟨rank, ranking, positive, limited⟩ := ranked value List.mem_cons_self
      rw [ih fun other member => ranked other (List.mem_cons_of_mem _ member),
        List.countP_cons]
      have one : ∑ place ∈ Finset.Ioc 0 limit, mark rankOf place cell =
          if below value then 1 else 0 := by
        simp only [mark, found, Option.bind_some, ranking, Option.some.injEq,
          Finset.sum_ite_eq, Finset.mem_Ioc, positive, true_and, limited]
      rw [one]
      push_cast
      rw [add_comm]

end

private theorem sum_present (held : List (Cell K)) :
    (held.map present).sum = ((finites held).length : Int) := by
  induction held with
  | nil => rfl
  | cons cell rest ih =>
    rw [List.map_cons, List.sum_cons, ih]
    cases found : cell.value? with
    | none => simp [present, Cell.IsFinite, finites, found]
    | some value =>
      simp [present, Cell.IsFinite, finites, found, add_comm]

private theorem countP_le [LinearOrder K] (values : List K) (current : K) :
    values.countP (· ≤ current) = values.countP (· < current) + values.countP (· = current) := by
  induction values with
  | nil => rfl
  | cons value rest ih =>
    simp only [List.countP_cons, ih, decide_eq_true_eq]
    rcases lt_trichotomy value current with less | rfl | greater
    · simp only [less, less.le, less.ne, if_true, if_false]
      omega
    · simp only [le_rfl, lt_irrefl, if_true, if_false]
      omega
    · simp only [greater.not_gt, greater.not_ge, greater.ne', if_false]
      omega

/-! ### The loop -/

section

variable [LinearOrder K] {series : List (Cell K)} {window : Nat} {counts : Counts}

/-- The counts are those of the window before a time. -/
abbrev Holds (window : Nat) (series : List (Cell K)) (t : Nat) (counts : Counts) : Prop :=
  counts.tree.size = (unique (finites series)).length ∧
    Tracks (ranks (unique (finites series)))
      (fun measure => ((recent window t series).map measure).sum) counts

private theorem Holds.slide {t : Nat} (holds : Holds window series t counts) {current : Cell K}
    (found : series[t]? = some current) :
    ∃ entered slid, counts.move (ranks (unique (finites series))) current 1 = some entered ∧
      (if window ≤ t then
        (series[t - window]?).bind fun expired =>
          entered.move (ranks (unique (finites series))) expired (-1)
      else some entered) = some slid ∧ Holds window series (t + 1) slid := by
  have ranked : ∀ cell ∈ series, ∀ value, cell = .finite value →
      ∃ rank, (ranks (unique (finites series))).get? value = some rank ∧ 0 < rank := by
    rintro cell member value rfl
    obtain ⟨rank, ranking, positive, _⟩ := exists_rank (mem_finites.mpr member)
    exact ⟨rank, ranking, positive⟩
  obtain ⟨size, tracks⟩ := holds
  obtain ⟨entered, entering, enteredSize, enteredTracks⟩ :=
    tracks.move 1 (ranked current (List.mem_of_getElem? found))
  obtain ⟨inside, _⟩ := List.getElem?_eq_some_iff.mp found
  by_cases full : window ≤ t
  · have expiredFound := List.getElem?_eq_getElem (l := series) (i := t - window) (by omega)
    obtain ⟨slid, leaving, slidSize, slidTracks⟩ := enteredTracks.move (-1)
      (ranked _ (List.mem_of_getElem? expiredFound))
    refine ⟨entered, slid, entering, ?_, slidSize.trans (enteredSize.trans size), ?_⟩
    · rw [if_pos full, expiredFound, Option.bind_some, leaving]
    · convert slidTracks using 2 with measure
      rw [sum_recent_succ measure found, if_pos full, expiredFound, Option.map_some,
        Option.getD_some, one_mul, neg_one_mul, sub_eq_add_neg]
  · refine ⟨entered, entered, entering, if_neg full, enteredSize.trans size, ?_⟩
    convert enteredTracks using 2 with measure
    rw [sum_recent_succ measure found, if_neg full, one_mul, sub_zero]

end

section

variable [Field K] [LinearOrder K] {series : List (Cell K)} {window : Nat} {counts : Counts}

private theorem Holds.rankAt_eq {t : Nat} (holds : Holds window series (t + 1) counts)
    {current : Cell K}
    (found : series[t]? = some current) :
    rankAt (ranks (unique (finites series))) window t current counts =
      some (windowRank window series t) := by
  obtain ⟨size, represents, inWindow⟩ := holds
  rw [sum_present] at inWindow
  rw [rankAt, windowRank, found, Option.bind_some]
  cases number : current.value? with
  | none => rfl
  | some value =>
    have complete : ((t : Int) < window - 1 ∨ counts.inWindow < 2) ↔
        ¬ (window ≤ t + 1 ∧ 2 ≤ (finites (recent window (t + 1) series)).length) := by
      rw [inWindow]
      omega
    by_cases defined : window ≤ t + 1 ∧ 2 ≤ (finites (recent window (t + 1) series)).length
    · have member : value ∈ finites series := by
        rw [Cell.value?_eq_some_iff.mp number] at found
        exact mem_finites.mpr (List.mem_of_getElem? found)
      obtain ⟨rank, ranking, positive, bound⟩ := exists_rank member
      -- Both sums count the numbers of the window up to a rank.
      have counted : ∀ limit (below : K → Bool), limit ≤ rank →
          (∀ other otherRank,
            (ranks (unique (finites series))).get? other = some otherRank →
              (otherRank ≤ limit ↔ below other)) →
          counts.tree.sumTo limit =
            some ((finites (recent window (t + 1) series)).countP below : Int) := by
        intro limit below atMost order
        rw [represents.sumTo_eq (by omega), sum_marks limit below]
        intro other inRecent
        obtain ⟨otherRank, otherRanking, otherPositive, _⟩ :=
          exists_rank (mem_finites.mpr (mem_of_mem_recent (mem_finites.mp inRecent)))
        exact ⟨otherRank, otherRanking, otherPositive, order other otherRank otherRanking⟩
      have strictly := counted (rank - 1) (· < value) (Nat.sub_le rank 1)
        (fun other otherRank otherRanking => by
          rw [decide_eq_true_eq, ← rank_lt_iff otherRanking ranking]
          omega)
      have upTo := counted rank (· ≤ value) le_rfl
        (fun other otherRank otherRanking => by
          rw [decide_eq_true_eq, ← not_lt, rank_lt_iff ranking otherRanking, not_lt])
      simp only
      rw [if_neg fun least => complete.mp least defined, if_pos defined, ranking,
        Option.bind_some, strictly, Option.bind_some, upTo, Option.map_some, countP_le, midrank,
        inWindow]
      push_cast
      rw [add_sub_cancel_left]
    · simp only
      rw [if_pos (complete.mpr defined), if_neg defined]

private theorem rankLoop_eq {rest : List (Cell K)} {t : Nat} (holds : Holds window series t counts)
    (left : series.drop t = rest) :
    rankLoop (ranks (unique (finites series))) window series rest t counts =
      some ((List.range' t rest.length).map (windowRank window series)) := by
  induction rest generalizing t counts with
  | nil => rfl
  | cons current rest ih =>
    have found : series[t]? = some current := by
      rw [← List.head?_drop, left, List.head?_cons]
    have next : series.drop (t + 1) = rest := by
      rw [← List.tail_drop, left, List.tail_cons]
    obtain ⟨entered, slid, entering, sliding, held⟩ := holds.slide found
    rw [rankLoop, entering, Option.bind_some, sliding, Option.bind_some, held.rankAt_eq found,
      Option.bind_some, ih held next, Option.map_some, List.length_cons,
      List.range'_succ, List.map_cons]

private theorem windowRank_of_few (few : (finites series).length < 2) (t : Nat) :
    windowRank window series t = .nan := by
  have sublist : (finites (recent window (t + 1) series)).length ≤ (finites series).length :=
    List.Sublist.length_le (((List.drop_sublist _ _).trans (List.take_sublist _ _)).filterMap _)
  rw [windowRank]
  cases (series[t]?).bind Cell.value? with
  | none => rfl
  | some current => exact if_neg fun defined => by omega

private theorem rankColumn_eq (series : List (Cell K)) (window : Nat) :
    rankColumn series window =
      some ((List.range series.length).map (windowRank window series)) := by
  rw [rankColumn]
  by_cases few : (finites series).length < 2
  · rw [if_pos few, Option.some.injEq, eq_comm, List.eq_replicate_iff]
    refine ⟨by rw [List.length_map, List.length_range], ?_⟩
    intro cell member
    obtain ⟨t, _, rfl⟩ := List.mem_map.mp member
    exact windowRank_of_few few t
  · have start : Holds window series 0
        { tree := .create (unique (finites series)).length, inWindow := 0 } := by
      have empty : recent window 0 series = [] := by
        rw [recent, List.take_zero, List.drop_nil]
      refine ⟨rfl, ?_, ?_⟩
      · simpa only [empty, List.map_nil, List.sum_nil] using Fenwick.represents_create _
      · rw [empty, List.map_nil, List.sum_nil]
    rw [if_neg few, rankLoop_eq start (List.drop_zero ..), List.range_eq_range']

private theorem windowRank_of_outside {window : Int} (outside : window ≤ 1 ∨ series.length < window)
    (t : Nat) : windowRank window.toNat series t = .nan := by
  have few := List.length_filterMap_le Cell.value? (recent window.toNat (t + 1) series)
  have bound := length_recent_le window.toNat (t + 1) series
  rw [windowRank]
  cases found : series[t]? with
  | none => rfl
  | some current =>
    obtain ⟨inside, _⟩ := List.getElem?_eq_some_iff.mp found
    rw [Option.bind_some]
    cases current.value? with
    | none => rfl
    | some value =>
      refine if_neg fun ⟨complete, enough⟩ => ?_
      rw [finites] at enough
      omega

private theorem tsRank_eq {T N : Nat} (x : Panel K T N) (window : Int) :
    tsRank x window =
      some fun (time : Fin T) asset => windowRank window.toNat (x.column asset) time := by
  rw [tsRank]
  by_cases outside : window ≤ 1 ∨ T < window
  · rw [if_pos outside, Option.some.injEq]
    funext time asset
    rw [Panel.missing, windowRank_of_outside]
    rwa [Panel.length_column]
  · have columns : (fun asset => rankColumn (x.column asset) window.toNat) = fun asset =>
        pure ((List.range (x.column asset).length).map
          (windowRank window.toNat (x.column asset))) :=
      funext fun asset => rankColumn_eq _ _
    rw [if_neg outside, columns, List.mapM_pure, Option.pure_def, Option.map_some,
      Option.some.injEq]
    funext time asset
    rw [Panel.ofColumns_map, Fin.getElem?_fin, List.getElem?_map, Panel.length_column,
      List.getElem?_range time.isLt, Option.map_some, Option.getD_some]

private theorem windowRank_eq_nan_iff (window : Nat) (series : List (Cell K)) (t : Nat) :
    windowRank window series t = .nan ↔
      t + 1 < window ∨ (∀ current, series[t]? ≠ some (.finite current)) ∨
        (finites (recent window (t + 1) series)).length < 2 := by
  rw [windowRank]
  cases number : (series[t]?).bind Cell.value? with
  | none =>
    have absent : ∀ current, series[t]? ≠ some (.finite current) := by
      intro current found
      rw [found, Option.bind_some] at number
      cases number
    exact iff_of_true rfl (.inr (.inl absent))
  | some current =>
    obtain ⟨cell, found, value⟩ := Option.bind_eq_some_iff.mp number
    rw [Cell.value?_eq_some_iff] at value
    have here : ¬ ∀ other, series[t]? ≠ some (.finite other) := by
      rw [found, value]
      exact fun none => none current rfl
    simp only [here, false_or]
    split <;> simp <;> omega

/-- The Fenwick tree gives the naive ranks, for every column and for whole panels. -/
theorem ranks_naive :
    (∀ (series : List (Cell K)) (window : Nat),
      rankColumn series window =
        some ((List.range series.length).map (windowRank window series))) ∧
    (∀ {T N : Nat} (x : Panel K T N) (window : Int),
      tsRank x window =
        some fun (time : Fin T) asset => windowRank window.toNat (x.column asset) time) ∧
    ∀ (window : Nat) (series : List (Cell K)) (t : Nat),
      windowRank window series t = .nan ↔
        t + 1 < window ∨ (∀ current, series[t]? ≠ some (.finite current)) ∨
          (finites (recent window (t + 1) series)).length < 2 :=
  ⟨rankColumn_eq, tsRank_eq, windowRank_eq_nan_iff⟩

end

end Swarmind.AlphaMining.RollingRank
