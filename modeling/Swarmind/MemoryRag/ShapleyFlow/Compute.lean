import Mathlib.Algebra.BigOperators.Fin
import Swarmind.Library.Python
import Swarmind.Library.Shapley
import Swarmind.Library.Sums

/-!
Owns the Shapley values of the sections of a prompt, in exact arithmetic: over all
subsets of the sections, and over sampled orders of them. The weight of a position, an
exponential in the code, may be any function, and the clock may show anything.
-/

namespace Swarmind.MemoryRag.ShapleyFlow

open Swarmind.Library

structure SectionFeatures (K : Type) where
  name : String
  text : String
  tokenCount : Int
  semanticDensity : K
  positionIndex : Nat
  keywordRelevance : K
  hasCode : Bool

section

variable {K : Type} [Field K] [LinearOrder K]

def weightTokenCount : K := 0.30

def weightSemanticDensity : K := 0.25

def weightPositionPremium : K := 0.20

def weightKeywordMatch : K := 0.15

def weightLengthPenalty : K := 0.10

/-- Seconds after which the exact mode gives up. -/
def exactLimit : K := 30.0

variable (positionWeight : Nat → K) (features : List (SectionFeatures K))

/-- `v(S)` before it is clamped, of a subset that is not empty. -/
def rawValue (subset : Finset (Fin features.length)) : K :=
  let totalTokens : Int := ∑ i ∈ subset, (features.get i).tokenCount
  let maxTokens : Int := (features.map SectionFeatures.tokenCount).sum
  let tokenScore : K := (totalTokens : K) / (max maxTokens 1 : Int)
  let avgDensity : K := (∑ i ∈ subset, (features.get i).semanticDensity) / subset.card
  let positionPremium : K := (∑ i ∈ subset, positionWeight i) / (max subset.card 1 : Nat)
  let avgKeyword : K := (∑ i ∈ subset, (features.get i).keywordRelevance) / subset.card
  let shortSections := (subset.filter fun i => (features.get i).tokenCount < 50).card
  let lengthPenalty : K := 1 - (shortSections : K) / subset.card * 0.5
  weightTokenCount * tokenScore + weightSemanticDensity * avgDensity +
    weightPositionPremium * positionPremium + weightKeywordMatch * avgKeyword +
    weightLengthPenalty * lengthPenalty

def characteristicFunction (subset : Finset (Fin features.length)) : K :=
  if subset = ∅ then 0 else min (max (rawValue positionWeight features subset) 0) 1

omit [LinearOrder K] in
/-- `{f.name: 0.0 for f in features}`. -/
def zeros : Dict String K := Dict.ofList (features.map fun feature => (feature.name, 0))

/-! ### The exact mode -/

/-- The weighted marginal contributions of a section, by the size of the subsets. -/
def marginalSum (i : Fin features.length) : K :=
  let otherIndices := (List.finRange features.length).filter fun j => j ≠ i
  ((List.range features.length).map fun r =>
    ((combinations r otherIndices).map fun subset =>
      (characteristicFunction positionWeight features (insert i subset.toFinset) -
          characteristicFunction positionWeight features subset.toFinset) *
        shapleyWeight K features.length r).sum).sum

def timeoutError : PyException :=
  .runtimeError (s!"WHAT: Calculo exacto de Shapley excedio 30s para n={features.length}. " ++
    s!"WHY: El numero de subconjuntos (2^{features.length}) es demasiado grande. " ++
    "WHERE: ShapleyFlow._compute_exact. " ++
    "SUGGEST: Aumentar approximate_threshold o usar modo aproximado.")

/-- The loop over the sections; `elapsed` is what the clock shows after each. -/
def exactLoop (elapsed : Fin features.length → K) :
    List (Fin features.length) → Dict String K → Except PyException (Dict String K)
  | [], values => .ok values
  | i :: rest, values =>
    let after := values.set (features.get i).name (marginalSum positionWeight features i)
    if exactLimit < elapsed i then .error (timeoutError features)
    else exactLoop elapsed rest after

def computeExact (elapsed : Fin features.length → K) : Except PyException (Dict String K) :=
  exactLoop positionWeight features elapsed (List.finRange features.length) (zeros features)

/-! ### The sampling mode -/

/-- The loop over an order of the sections; `none` is a `KeyError`. -/
def sampleOrder : List (Fin features.length) → Finset (Fin features.length) → K →
    Dict String K → Option (Dict String K)
  | [], _, _, sums => some sums
  | i :: rest, currentSet, currentValue, sums =>
    let newSet := insert i currentSet
    let newValue := characteristicFunction positionWeight features newSet
    (sums.get? (features.get i).name).bind fun sum =>
      sampleOrder rest newSet newValue
        (sums.set (features.get i).name (sum + (newValue - currentValue)))

/-- The loop over the shuffles. -/
def sampleOrders : List (List (Fin features.length)) → Dict String K → Option (Dict String K)
  | [], sums => some sums
  | order :: rest, sums =>
    (sampleOrder positionWeight features order ∅ 0 sums).bind (sampleOrders rest)

def computeApproximate (orders : List (List (Fin features.length))) : Option (Dict String K) :=
  (sampleOrders positionWeight features orders (zeros features)).map
    (Dict.mapValues fun sum => sum / orders.length)

/-! ### A value for each section -/

/-- The dictionary holds an amount for each section and nothing else. -/
structure Tabulated {M : Type} (amounts : Fin features.length → M) (values : Dict String M) :
    Prop where
  keys : values.keys = features.map SectionFeatures.name
  each : ∀ i, values.get? (features.get i).name = some (amounts i)

def Named : Prop := (features.map SectionFeatures.name).Nodup

variable {features} {amounts : Fin features.length → K} {values : Dict String K}

omit [Field K] [LinearOrder K] in
private theorem Named.injective (named : Named features) {i j : Fin features.length}
    (same : (features.get i).name = (features.get j).name) : i = j := by
  have names : ((List.finRange features.length).map fun i => (features.get i).name).Nodup := by
    have listed := List.map_get_finRange features
    rw [Named, ← listed, List.map_map] at named
    exact named
  exact List.inj_on_of_nodup_map names (List.mem_finRange i) (List.mem_finRange j) same

omit [Field K] [LinearOrder K] in
private theorem Tabulated.values_eq {M : Type} {amounts : Fin features.length → M}
    {values : Dict String M} (tabulated : Tabulated features amounts values) :
    values.values = (List.finRange features.length).map amounts := by
  have names : features.map SectionFeatures.name =
      (List.finRange features.length).map fun i => (features.get i).name := by
    have listed := congrArg (List.map SectionFeatures.name) (List.map_get_finRange features)
    rw [List.map_map] at listed
    exact listed.symm
  rw [← Dict.filterMap_keys, tabulated.keys, names, List.filterMap_map, ← List.filterMap_eq_map]
  exact List.filterMap_congr fun i _ => tabulated.each i

omit [LinearOrder K] in
private theorem Tabulated.sum (tabulated : Tabulated features amounts values) :
    values.values.sum = ∑ i, amounts i := by
  rw [tabulated.values_eq, Fin.sum_univ_def]

omit [Field K] [LinearOrder K] in
private theorem Tabulated.set {M : Type} {amounts : Fin features.length → M}
    {values : Dict String M}
    (tabulated : Tabulated features amounts values) (named : Named features)
    (i : Fin features.length) (amount : M) :
    Tabulated features (Function.update amounts i amount)
      (values.set (features.get i).name amount) where
  keys := by
    have present : (features.get i).name ∈ values.keys := by
      rw [tabulated.keys]
      exact List.mem_map_of_mem (List.get_mem features i)
    rw [Dict.keys_set_of_mem values amount present, tabulated.keys]
  each j := by
    rw [Dict.get?_set, Function.update_apply]
    by_cases same : j = i
    · rw [if_pos (by rw [same]), if_pos same]
    · rw [if_neg fun equal => same (named.injective equal).symm, if_neg same, tabulated.each]

omit [Field K] [LinearOrder K] in
private theorem tabulated_ofList (named : Named features) {M : Type}
    (amount : SectionFeatures K → M) :
    Tabulated features (fun i => amount (features.get i))
      (Dict.ofList (features.map fun feature => (feature.name, amount feature))) := by
  have distinct :
      ((features.map fun feature => (feature.name, amount feature)).map Prod.fst).Nodup := by
    rw [List.map_map]
    exact named
  refine ⟨?_, fun i => ?_⟩
  · rw [Dict.keys, Dict.entries_ofList distinct, List.map_map]
    rfl
  · rw [Dict.get?_ofList_iff distinct]
    exact List.mem_map.mpr ⟨features.get i, List.get_mem features i, rfl⟩

omit [LinearOrder K] in
private theorem tabulated_zeros (named : Named features) :
    Tabulated features (fun _ => 0) (zeros features) :=
  tabulated_ofList named fun _ => 0

omit [LinearOrder K] in
private theorem Tabulated.divided (tabulated : Tabulated features amounts values) (divisor : K) :
    Tabulated features (fun i => amounts i / divisor)
      (values.mapValues fun sum => sum / divisor) where
  keys := by rw [Dict.keys_mapValues, tabulated.keys]
  each i := by rw [Dict.get?_mapValues, tabulated.each, Option.map_some]

/-! ### What the modes return -/

private theorem characteristicFunction_empty :
    characteristicFunction positionWeight features ∅ = 0 :=
  if_pos rfl

private theorem marginalSum_eq (i : Fin features.length) :
    marginalSum positionWeight features i =
      shapley (characteristicFunction positionWeight features) i := by
  set others := (List.finRange features.length).filter fun j => j ≠ i with others_eq
  have distinct : others.Nodup := (List.nodup_finRange features.length).filter _
  have members : others.toFinset = Finset.univ.erase i := by
    ext j
    simp [others_eq]
  have length : others.length + 1 = features.length := by
    rw [← List.toFinset_card_of_nodup distinct, members,
      Finset.card_erase_add_one (Finset.mem_univ i), Finset.card_univ, Fintype.card_fin]
  have sums := sum_flatMap_combinations (fun subset =>
    (characteristicFunction positionWeight features (insert i subset) -
        characteristicFunction positionWeight features subset) *
      shapleyWeight K features.length subset.card) distinct
  rw [length, members] at sums
  rw [marginalSum, shapley, Fintype.card_fin, ← sums]
  refine congrArg List.sum (List.map_congr_left fun r _ => ?_)
  refine congrArg List.sum (List.map_congr_left fun subset among => ?_)
  obtain ⟨sublist, size⟩ := sublist_of_mem_combinations among
  rw [List.toFinset_card_of_nodup (sublist.nodup distinct), size]

section

variable (named : Named features)
include named

private theorem exactLoop_spec (elapsed : Fin features.length → K)
    (tabulated : Tabulated features amounts values) (order : List (Fin features.length)) :
    ((∃ i ∈ order, exactLimit < elapsed i) ∧
        exactLoop positionWeight features elapsed order values = .error (timeoutError features)) ∨
      (∀ i ∈ order, ¬ exactLimit < elapsed i) ∧ ∃ after,
        exactLoop positionWeight features elapsed order values = .ok after ∧
          Tabulated features (fun i => if i ∈ order then
            shapley (characteristicFunction positionWeight features) i else amounts i) after := by
  induction order generalizing amounts values with
  | nil =>
    refine .inr ⟨fun i among => absurd among List.not_mem_nil, values, rfl, ?_⟩
    simpa using tabulated
  | cons i rest ih =>
    rw [exactLoop, marginalSum_eq]
    by_cases late : exactLimit < elapsed i
    · exact .inl ⟨⟨i, List.mem_cons_self, late⟩, if_pos late⟩
    · rw [if_neg late]
      have next := tabulated.set named i
        (shapley (characteristicFunction positionWeight features) i)
      rcases ih next with ⟨⟨j, among, stops⟩, raised⟩ |
        ⟨intime, after, returned, filled⟩
      · exact .inl ⟨⟨j, List.mem_cons_of_mem i among, stops⟩, raised⟩
      · refine .inr ⟨List.forall_mem_cons.mpr ⟨late, intime⟩, after, returned, ?_⟩
        convert filled using 2 with j
        rw [Function.update_apply]
        by_cases here : j = i
        · simp [here]
        · simp [here]

private theorem computeExact_spec (elapsed : Fin features.length → K) :
    ((∃ i, exactLimit < elapsed i) ∧
        computeExact positionWeight features elapsed = .error (timeoutError features)) ∨
      (∀ i, ¬ exactLimit < elapsed i) ∧ ∃ values,
        computeExact positionWeight features elapsed = .ok values ∧
          Tabulated features (shapley (characteristicFunction positionWeight features)) values := by
  have loop := exactLoop_spec positionWeight named elapsed
    (tabulated_zeros named) (List.finRange features.length)
  simpa [computeExact] using loop

private theorem sampleOrder_spec (order : List (Fin features.length))
    (current : Finset (Fin features.length)) (tabulated : Tabulated features amounts values) :
    ∃ after, sampleOrder positionWeight features order current
        (characteristicFunction positionWeight features current) values = some after ∧
      Tabulated features
        (amounts + arrivals (characteristicFunction positionWeight features) current order)
        after := by
  induction order generalizing amounts values current with
  | nil => exact ⟨values, rfl, by rwa [arrivals, add_zero]⟩
  | cons i rest ih =>
    rw [sampleOrder, tabulated.each, Option.bind_some]
    obtain ⟨after, returned, filled⟩ := ih (insert i current)
      (tabulated.set named i (amounts i +
        (characteristicFunction positionWeight features (insert i current) -
          characteristicFunction positionWeight features current)))
    refine ⟨after, returned, ?_⟩
    have moved : Function.update amounts i (amounts i +
        (characteristicFunction positionWeight features (insert i current) -
          characteristicFunction positionWeight features current)) =
        amounts + Pi.single i (characteristicFunction positionWeight features (insert i current) -
          characteristicFunction positionWeight features current) := by
      funext j
      rw [Function.update_apply, Pi.add_apply, Pi.single_apply]
      by_cases here : j = i
      · rw [if_pos here, if_pos here, here]
      · rw [if_neg here, if_neg here, add_zero]
    rwa [moved, add_assoc] at filled

private theorem sampleOrders_spec (orders : List (List (Fin features.length)))
    (tabulated : Tabulated features amounts values) :
    ∃ after, sampleOrders positionWeight features orders values = some after ∧
      Tabulated features (amounts +
        (orders.map (arrivals (characteristicFunction positionWeight features) ∅)).sum) after := by
  induction orders generalizing amounts values with
  | nil => exact ⟨values, rfl, by rwa [List.map_nil, List.sum_nil, add_zero]⟩
  | cons order rest ih =>
    obtain ⟨middle, first, filled⟩ := sampleOrder_spec positionWeight named
      order ∅ tabulated
    rw [characteristicFunction_empty] at first
    obtain ⟨after, returned, all⟩ := ih filled
    refine ⟨after, ?_, ?_⟩
    · rw [sampleOrders, first, Option.bind_some, returned]
    · rwa [List.map_cons, List.sum_cons, ← add_assoc]

private theorem computeApproximate_spec (orders : List (List (Fin features.length))) :
    ∃ values, computeApproximate positionWeight features orders = some values ∧
      Tabulated features (fun i =>
        (orders.map (arrivals (characteristicFunction positionWeight features) ∅)).sum i /
          orders.length) values := by
  obtain ⟨sums, returned, filled⟩ := sampleOrders_spec positionWeight named
    orders (tabulated_zeros named)
  refine ⟨_, by rw [computeApproximate, returned, Option.map_some], ?_⟩
  have divided := filled.divided (orders.length : K)
  simpa [Pi.add_apply] using divided

end

/-! ### Efficiency and symmetry -/

/-- The values sum to `v(N)`. -/
def Efficient (features : List (SectionFeatures K)) (values : Dict String K) : Prop :=
  values.values.sum = characteristicFunction positionWeight features Finset.univ

/-- Two sections contribute the same to every subset without them. -/
def ContributeEqually (features : List (SectionFeatures K)) (i j : Fin features.length) : Prop :=
  ∀ subset, i ∉ subset → j ∉ subset →
    characteristicFunction positionWeight features (insert i subset) =
      characteristicFunction positionWeight features (insert j subset)

/-- Sections that contribute equally have equal values. -/
def Fair (features : List (SectionFeatures K)) (values : Dict String K) : Prop :=
  ∀ i j, ContributeEqually positionWeight features i j →
    values.get? (features.get i).name = values.get? (features.get j).name

variable [IsStrictOrderedRing K]

/-- The exact mode, if it is in time, and the sampling mode both share out `v(N)`. -/
theorem compute_shares (named : Named features) (some : features ≠ []) :
    characteristicFunction positionWeight features ∅ = 0 ∧
    (∀ elapsed, (∃ i, exactLimit < elapsed i) ∨ ∃ values,
      computeExact positionWeight features elapsed = .ok values ∧
        Efficient positionWeight features values ∧ Fair positionWeight features values) ∧
    (∀ orders : List (List (Fin features.length)), orders ≠ [] →
      (∀ order ∈ orders, order.Perm (List.finRange features.length)) → ∃ values,
        computeApproximate positionWeight features orders = Option.some values ∧
          Efficient positionWeight features values) := by
  have positive : 0 < features.length := List.length_pos_iff.mpr some
  have nonempty : Nonempty (Fin features.length) := ⟨⟨0, positive⟩⟩
  refine ⟨characteristicFunction_empty positionWeight, ?_, ?_⟩
  · intro elapsed
    rcases computeExact_spec positionWeight named elapsed with ⟨late, _⟩ |
      ⟨_, values, returned, filled⟩
    · exact .inl late
    · refine .inr ⟨values, returned, ?_, fun i j alike => ?_⟩
      · rw [Efficient, filled.sum, sum_shapley, characteristicFunction_empty, sub_zero]
      · rw [filled.each, filled.each, shapley_eq_of_alike alike]
  · intro orders sampled shuffled
    obtain ⟨values, returned, filled⟩ := computeApproximate_spec positionWeight named orders
    refine ⟨values, returned, ?_⟩
    have whole : ∀ order ∈ orders, order.toFinset = Finset.univ := by
      intro order among
      ext i
      simp [(shuffled order among).mem_iff]
    have count : (orders.length : K) ≠ 0 :=
      Nat.cast_ne_zero.mpr (List.length_pos_iff.mpr sampled).ne'
    rw [Efficient, filled.sum, ← Finset.sum_div, sum_arrivals_orders whole,
      mul_div_cancel_left₀ _ count, characteristicFunction_empty, sub_zero]

end

/-- A section with a text of four letters. -/
def shortSection (name : String) : SectionFeatures ℚ :=
  { name, text := "test", tokenCount := 1, semanticDensity := 1, positionIndex := 0
    keywordRelevance := 1, hasCode := false }

/-- Two sections of one token each. -/
theorem compute_shares_two :
    characteristicFunction (fun _ => 1) [shortSection "system", shortSection "user"] ∅ = 0 ∧
    (∀ elapsed, (∃ i, exactLimit < elapsed i) ∨ ∃ values,
      computeExact (fun _ => 1) [shortSection "system", shortSection "user"] elapsed =
          .ok values ∧
        Efficient (fun _ => 1) [shortSection "system", shortSection "user"] values ∧
        Fair (fun _ => 1) [shortSection "system", shortSection "user"] values) ∧
    (∀ orders : List (List (Fin 2)), orders ≠ [] →
      (∀ order ∈ orders, order.Perm (List.finRange 2)) → ∃ values,
        computeApproximate (fun _ => 1) [shortSection "system", shortSection "user"] orders =
            some values ∧
          Efficient (fun _ => 1) [shortSection "system", shortSection "user"] values) :=
  compute_shares (fun _ => 1) (by rw [Named]; decide) (by simp)

end Swarmind.MemoryRag.ShapleyFlow
