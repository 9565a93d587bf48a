import Mathlib.Data.Prod.Lex
import Mathlib.Data.String.Basic
import Mathlib.Algebra.Order.Field.Basic
import Swarmind.Orchestrator.BatchVote

/-!
Owns the review of a majority: the answer that was voted for is kept, or
reverted to the strongest minority.

The agreement is the share of the most common answer, whichever answer is under
review.
-/

namespace Swarmind.Orchestrator.MinoritySentinel

open Swarmind.Library Swarmind.Orchestrator.BatchVote

structure SentinelVerdict where
  majorityAnswer : String
  finalAnswer : String
  reverted : Bool
  reason : String
  minorityAnswer : Option String
  confidence : ℚ
deriving DecidableEq

/-- A sentinel as its constructor accepts it: both thresholds are fractions. -/
structure Sentinel where
  overrideThreshold : ℚ
  minAgreement : ℚ
  overrideFn : Option (String → List String → Bool)
  override_fraction : 0 ≤ overrideThreshold ∧ overrideThreshold ≤ 1
  agreement_fraction : 0 ≤ minAgreement ∧ minAgreement ≤ 1

/-- The share of the answers that are `answer`. -/
def support (answers : List String) (answer : String) : ℚ :=
  (answers.count answer : ℚ) / (answers.length : ℚ)

def agreement (answers : List String) : ℚ :=
  if answers = [] then 0
  else
    match (majorityOf answers (0 : ℚ)).1 with
    | some majority => support answers majority
    | none =>
      match mostCommon answers with
      | some (top, _) => support answers top
      | none => 0

/-- `_strongest_minority`: of the most common other answers the longest, and the
last in order among these. -/
def strongestMinority (majorityAnswer : String) (answers : List String) : Option String :=
  let minority := (counter answers).filter fun entry => entry.1 ≠ majorityAnswer
  if minority = [] then none
  else
    let top := (minority.map Prod.snd).max?.getD 0
    let candidates := (minority.filter fun entry => entry.2 = top).map Prod.fst
    argmax (fun answer => toLex (answer.length, answer)) candidates

namespace Sentinel

variable (sentinel : Sentinel)

def decide (majorityAnswer : String) (answers : List String)
    (majorityAgreement minoritySupport : ℚ) (overrideSignal : Option Bool) : Bool :=
  match overrideSignal, sentinel.overrideFn with
  | some signal, _ => signal
  | none, some overrideFn => overrideFn majorityAnswer answers
  | none, none =>
    majorityAgreement < sentinel.minAgreement && sentinel.overrideThreshold ≤ minoritySupport

/-- `_reason`; `format` writes a fraction with two decimals. -/
def reason (format : ℚ → String) (reverted : Bool) (majorityAgreement minoritySupport : ℚ)
    (overrideSignal : Option Bool) : String :=
  let source :=
    if overrideSignal.isSome then "override_signal"
    else if sentinel.overrideFn.isSome then "override_fn"
    else "heuristica"
  let decision := if reverted then "revierte" else "mantiene"
  s!"{source} {decision} la mayoria: acuerdo={format majorityAgreement} " ++
    s!"(min_agreement={format sentinel.minAgreement}), minoria={format minoritySupport} " ++
    s!"(override_threshold={format sentinel.overrideThreshold})"

def review (format : ℚ → String) (majorityAnswer : String) (allAnswers : List String)
    (overrideSignal : Option Bool) : Except PyException SentinelVerdict :=
  if allAnswers = [] then
    .error (PyException.valueError ("WHAT: all_answers vacio. " ++
      "WHY: sin votos no hay mayoria que revisar. WHERE: MinoritySentinel.review"))
  else if isBlank majorityAnswer then
    .error (PyException.valueError ("WHAT: majority_answer vacio. " ++
      "WHY: se necesita la respuesta mayoritaria a evaluar. WHERE: MinoritySentinel.review"))
  else if majorityAnswer ∉ allAnswers then
    .error (PyException.valueError (
      s!"WHAT: majority_answer {pyRepr majorityAnswer} no esta en all_answers. " ++
      "WHY: la mayoria evaluada debe pertenecer a los votos. WHERE: MinoritySentinel.review"))
  else
    let majorityAgreement := agreement allAnswers
    match strongestMinority majorityAnswer allAnswers with
    | none =>
      .ok { majorityAnswer := majorityAnswer
            finalAnswer := majorityAnswer
            reverted := false
            reason := "sin minoria: todas las respuestas coinciden; mayoria intacta"
            minorityAnswer := none
            confidence := majorityAgreement }
    | some minority =>
      let minoritySupport := support allAnswers minority
      let reverted := sentinel.decide majorityAnswer allAnswers majorityAgreement
        minoritySupport overrideSignal
      .ok { majorityAnswer := majorityAnswer
            finalAnswer := if reverted then minority else majorityAnswer
            reverted := reverted
            reason := sentinel.reason format reverted majorityAgreement minoritySupport
              overrideSignal
            minorityAnswer := some minority
            confidence := if reverted then minoritySupport else majorityAgreement }

end Sentinel

/-- An answer other than `majorityAnswer` that none of these exceeds. -/
structure Strongest (majorityAnswer : String) (answers : List String) (answer : String) : Prop where
  member : answer ∈ answers
  other : answer ≠ majorityAnswer
  greatest : ∀ rival ≠ majorityAnswer, answers.count rival ≤ answers.count answer

/-- What is promised of a verdict. -/
structure Supported (sentinel : Sentinel) (majorityAnswer : String) (allAnswers : List String)
    (overrideSignal : Option Bool) (verdict : SentinelVerdict) : Prop where
  confidence : verdict.confidence = support allAnswers verdict.finalAnswer
  final : verdict.finalAnswer = majorityAnswer ∨
    Strongest majorityAnswer allAnswers verdict.finalAnswer
  heuristic : overrideSignal = none → sentinel.overrideFn = none →
    (verdict.reverted = true ↔ support allAnswers majorityAnswer < sentinel.minAgreement ∧
      ∃ minority, Strongest majorityAnswer allAnswers minority ∧
        sentinel.overrideThreshold ≤ support allAnswers minority)

/-- The signal, or else the function, or else the share of the most common
answer, asks for a reversal. -/
def Reverts (sentinel : Sentinel) (majorityAnswer : String) (allAnswers : List String) :
    Option Bool → Prop
  | some signal => signal = true
  | none =>
    match sentinel.overrideFn with
    | some overrideFn => overrideFn majorityAnswer allAnswers = true
    | none => ∃ top, (∀ answer, allAnswers.count answer ≤ allAnswers.count top) ∧
        sentinel.overrideThreshold ≤ support allAnswers top ∧
        support allAnswers top < sentinel.minAgreement

/-! ### Shares -/

section Shares

variable {answers : List String} {majorityAnswer : String}

private theorem support_le_iff (some : answers ≠ []) (left right : String) :
    support answers left ≤ support answers right ↔ answers.count left ≤ answers.count right := by
  have positive : (0 : ℚ) < (answers.length : ℚ) := by
    exact_mod_cast List.length_pos_iff.mpr some
  rw [support, support, div_le_div_iff_of_pos_right positive, Nat.cast_le]

private theorem agreement_eq {top : String} (some : answers ≠ [])
    (greatest : ∀ answer, answers.count answer ≤ answers.count top) :
    agreement answers = support answers top := by
  obtain ⟨first, found, _, most⟩ := mostCommon_spec some
  have same : answers.count first = answers.count top :=
    Nat.le_antisymm (greatest first) (most top)
  have shared : support answers first = support answers top := by
    rw [support, same, support]
  rw [agreement, if_neg some]
  cases majority : (majorityOf answers (0 : ℚ)).1 with
  | none =>
    rw [found]
    exact shared
  | some answer =>
    obtain ⟨half, _⟩ := (majorityOf_iff answers (0 : ℚ) answer).mp majority
    rw [eq_of_majority most half]
    exact shared

private theorem mem_others (majorityAnswer : String) (answers : List String)
    (entry : String × Nat) :
    entry ∈ (counter answers).filter (fun entry => entry.1 ≠ majorityAnswer) ↔
      (entry.1 ∈ answers ∧ entry.2 = answers.count entry.1) ∧ entry.1 ≠ majorityAnswer := by
  rw [List.mem_filter, mem_counter_iff, decide_eq_true_eq]

private theorem strongestMinority_spec (majorityAnswer : String) (answers : List String) :
    (strongestMinority majorityAnswer answers = none ∧
        ∀ answer ∈ answers, answer = majorityAnswer) ∨
      ∃ minority, strongestMinority majorityAnswer answers = some minority ∧
        Strongest majorityAnswer answers minority := by
  have spec := mem_others majorityAnswer answers
  unfold strongestMinority
  generalize (counter answers).filter (fun entry => entry.1 ≠ majorityAnswer) = minority at spec ⊢
  dsimp only
  split_ifs with none
  · refine Or.inl ⟨rfl, fun answer member => ?_⟩
    by_contra other
    have among := (spec (answer, answers.count answer)).mpr ⟨⟨member, rfl⟩, other⟩
    rw [none] at among
    exact absurd among List.not_mem_nil
  · right
    obtain ⟨top, greatest, attained, bound⟩ :=
      exists_max? fun empty => none (List.map_eq_nil_iff (f := Prod.snd).mp empty)
    rw [greatest, Option.getD_some]
    obtain ⟨first, among, reaches⟩ := List.mem_map.mp attained
    have inhabited : (minority.filter fun entry => entry.2 = top).map Prod.fst ≠ [] :=
      List.ne_nil_of_mem (List.mem_map_of_mem (List.mem_filter.mpr
        ⟨among, decide_eq_true reaches⟩))
    obtain ⟨answer, candidate, found, _⟩ :=
      exists_argmax (fun answer : String => toLex (answer.length, answer)) inhabited
    obtain ⟨entry, kept, rfl⟩ := List.mem_map.mp candidate
    obtain ⟨listed, most⟩ := List.mem_filter.mp kept
    obtain ⟨⟨member, count⟩, other⟩ := (spec entry).mp listed
    refine ⟨entry.1, found, member, other, ?_⟩
    intro rival apart
    by_cases occurs : rival ∈ answers
    · have rivals := (spec (rival, answers.count rival)).mpr ⟨⟨occurs, rfl⟩, apart⟩
      rw [← count, of_decide_eq_true most]
      exact bound _ (List.mem_map_of_mem (f := Prod.snd) rivals)
    · rw [List.count_eq_zero_of_not_mem occurs]
      exact Nat.zero_le _

private theorem Strongest.support_eq {left right : String}
    (first : Strongest majorityAnswer answers left)
    (second : Strongest majorityAnswer answers right) :
    support answers left = support answers right := by
  have same : answers.count left = answers.count right :=
    Nat.le_antisymm (second.greatest left first.other) (first.greatest right second.other)
  rw [support, same, support]

private theorem Strongest.greatest_of_exceeded {minority : String}
    (strongest : Strongest majorityAnswer answers minority)
    (exceeded : ¬∀ answer, answers.count answer ≤ answers.count majorityAnswer) (answer : String) :
    answers.count answer ≤ answers.count minority := by
  obtain ⟨more, less⟩ := not_forall.mp exceeded
  have apart : more ≠ majorityAnswer := fun same => less (same ▸ Nat.le_refl _)
  by_cases same : answer = majorityAnswer
  · rw [same]
    exact Nat.le_trans (Nat.le_of_not_le less) (strongest.greatest more apart)
  · exact strongest.greatest answer same

private theorem decide_heuristic {sentinel : Sentinel} {overrideSignal : Option Bool}
    (unsignalled : overrideSignal = none) (plain : sentinel.overrideFn = none)
    (majorityAgreement minoritySupport : ℚ) :
    sentinel.decide majorityAnswer answers majorityAgreement minoritySupport overrideSignal = true ↔
      majorityAgreement < sentinel.minAgreement ∧
        sentinel.overrideThreshold ≤ minoritySupport := by
  unfold Sentinel.decide
  rw [unsignalled, plain]
  dsimp only
  rw [Bool.and_eq_true, decide_eq_true_eq, decide_eq_true_eq]

private theorem decide_iff_reverts (sentinel : Sentinel) {minority : String}
    (strongest : Strongest majorityAnswer answers minority)
    (exceeded : ¬∀ answer, answers.count answer ≤ answers.count majorityAnswer)
    (overrideSignal : Option Bool) :
    sentinel.decide majorityAnswer answers (agreement answers) (support answers minority)
        overrideSignal = true ↔ Reverts sentinel majorityAnswer answers overrideSignal := by
  have some : answers ≠ [] := List.ne_nil_of_mem strongest.member
  have greatest := strongest.greatest_of_exceeded exceeded
  unfold Sentinel.decide Reverts
  cases overrideSignal with
  | some signal => exact Iff.rfl
  | none =>
    cases sentinel.overrideFn with
    | some overrideFn => exact Iff.rfl
    | none =>
      dsimp only
      rw [Bool.and_eq_true, decide_eq_true_eq, decide_eq_true_eq, agreement_eq some greatest]
      constructor
      · rintro ⟨low, enough⟩
        exact ⟨minority, greatest, enough, low⟩
      · rintro ⟨top, most, enough, low⟩
        have same : support answers top = support answers minority := by
          rw [support, Nat.le_antisymm (greatest top) (most minority), support]
        rw [same] at enough low
        exact ⟨low, enough⟩

end Shares

/-! ### Verdicts -/

/-- The verdict about a minority is the one that the decision asks for. -/
structure Decided (sentinel : Sentinel) (majorityAnswer : String) (allAnswers : List String)
    (overrideSignal : Option Bool) (minority : String) (verdict : SentinelVerdict) : Prop where
  reverted : verdict.reverted = sentinel.decide majorityAnswer allAnswers (agreement allAnswers)
    (support allAnswers minority) overrideSignal
  final : verdict.finalAnswer = if verdict.reverted then minority else majorityAnswer
  confidence : verdict.confidence =
    if verdict.reverted then support allAnswers minority else agreement allAnswers

section Verdicts

variable {sentinel : Sentinel} {majorityAnswer minority : String} {allAnswers : List String}
variable {overrideSignal : Option Bool} {verdict : SentinelVerdict}

section

variable (decided : Decided sentinel majorityAnswer allAnswers overrideSignal minority verdict)
include decided

private theorem Decided.supported_of_greatest
    (strongest : Strongest majorityAnswer allAnswers minority)
    (greatest : ∀ answer, allAnswers.count answer ≤ allAnswers.count majorityAnswer) :
    Supported sentinel majorityAnswer allAnswers overrideSignal verdict := by
  have some : allAnswers ≠ [] := List.ne_nil_of_mem strongest.member
  constructor
  · rw [decided.confidence, decided.final]
    split_ifs
    · rfl
    · exact agreement_eq some greatest
  · rw [decided.final]
    split_ifs
    · exact Or.inr strongest
    · exact Or.inl rfl
  · intro unsignalled plain
    rw [decided.reverted, decide_heuristic unsignalled plain, agreement_eq some greatest]
    refine and_congr_right fun _ => ?_
    constructor
    · intro enough
      exact ⟨minority, strongest, enough⟩
    · rintro ⟨other, otherStrongest, enough⟩
      rwa [← strongest.support_eq otherStrongest] at enough

private theorem Decided.supported_iff_of_exceeded
    (strongest : Strongest majorityAnswer allAnswers minority)
    (exceeded : ¬∀ answer, allAnswers.count answer ≤ allAnswers.count majorityAnswer) :
    Supported sentinel majorityAnswer allAnswers overrideSignal verdict ↔
      verdict.reverted = true := by
  have some : allAnswers ≠ [] := List.ne_nil_of_mem strongest.member
  have most := strongest.greatest_of_exceeded exceeded
  constructor
  · intro supported
    by_contra kept
    have confidence := supported.confidence
    rw [decided.confidence, decided.final, if_neg kept, if_neg kept,
      agreement_eq some most] at confidence
    exact exceeded fun answer =>
      (most answer).trans ((support_le_iff some _ _).mp (le_of_eq confidence))
  · intro reverted
    constructor
    · rw [decided.confidence, decided.final, if_pos reverted, if_pos reverted]
    · rw [decided.final, if_pos reverted]
      exact Or.inr strongest
    · intro unsignalled plain
      have asked := reverted
      rw [decided.reverted, decide_heuristic unsignalled plain, agreement_eq some most] at asked
      obtain ⟨low, enough⟩ := asked
      exact iff_of_true reverted ⟨((support_le_iff some _ _).mpr (most _)).trans_lt low,
        minority, strongest, enough⟩

end

end Verdicts

/-- A verdict has the support of its own answer where no answer is more common
than the majority, or the decision is to revert it. -/
theorem review_supported_iff (sentinel : Sentinel) (format : ℚ → String)
    {majorityAnswer : String} {allAnswers : List String} (member : majorityAnswer ∈ allAnswers)
    (named : isBlank majorityAnswer = false) (overrideSignal : Option Bool) :
    (∃ verdict, sentinel.review format majorityAnswer allAnswers overrideSignal = .ok verdict ∧
        Supported sentinel majorityAnswer allAnswers overrideSignal verdict) ↔
      (∀ answer, allAnswers.count answer ≤ allAnswers.count majorityAnswer) ∨
        Reverts sentinel majorityAnswer allAnswers overrideSignal := by
  have some : allAnswers ≠ [] := List.ne_nil_of_mem member
  rw [Sentinel.review, if_neg some, if_neg (Bool.eq_false_iff.mp named),
    if_neg (not_not.mpr member)]
  dsimp only
  rcases strongestMinority_spec majorityAnswer allAnswers with
    ⟨none, all⟩ | ⟨minority, found, strongest⟩
  · have greatest : ∀ answer, allAnswers.count answer ≤ allAnswers.count majorityAnswer := by
      intro answer
      by_cases occurs : answer ∈ allAnswers
      · rw [all answer occurs]
      · rw [List.count_eq_zero_of_not_mem occurs]
        exact Nat.zero_le _
    rw [none]
    refine iff_of_true ⟨_, rfl, agreement_eq some greatest, Or.inl rfl, ?_⟩ (Or.inl greatest)
    intro _ _
    refine iff_of_false Bool.noConfusion ?_
    rintro ⟨_, other, strongest, _⟩
    exact strongest.other (all other strongest.member)
  · rw [found]
    by_cases greatest : ∀ answer, allAnswers.count answer ≤ allAnswers.count majorityAnswer
    · refine iff_of_true ⟨_, rfl, ?_⟩ (Or.inl greatest)
      exact Decided.supported_of_greatest ⟨rfl, rfl, rfl⟩ strongest greatest
    · rw [or_iff_right greatest, ← decide_iff_reverts sentinel strongest greatest]
      constructor
      · rintro ⟨verdict, same, supported⟩
        cases same
        exact (Decided.supported_iff_of_exceeded ⟨rfl, rfl, rfl⟩ strongest greatest).mp supported
      · intro reverted
        refine ⟨_, rfl, ?_⟩
        exact (Decided.supported_iff_of_exceeded ⟨rfl, rfl, rfl⟩ strongest greatest).mpr reverted

def defaultSentinel : Sentinel where
  overrideThreshold := 1 / 4
  minAgreement := 66 / 100
  overrideFn := none
  override_fraction := by decide +kernel
  agreement_fraction := by decide +kernel

/-- Two of three answers agree, and the majority is reviewed. -/
theorem review_supported_majority :
    (∃ verdict, defaultSentinel.review (fun _ => "") "a" ["a", "b", "a"] none = .ok verdict ∧
        Supported defaultSentinel "a" ["a", "b", "a"] none verdict) ↔
      (∀ answer, ["a", "b", "a"].count answer ≤ ["a", "b", "a"].count "a") ∨
        Reverts defaultSentinel "a" ["a", "b", "a"] none :=
  review_supported_iff defaultSentinel (fun _ => "") (by decide) (by decide) none

/-- An answer of one in three, whose verdict has the share of the other two. -/
theorem not_review_supported :
    ¬ ∀ (sentinel : Sentinel) (format : ℚ → String) (majorityAnswer : String)
      (allAnswers : List String) (overrideSignal : Option Bool), majorityAnswer ∈ allAnswers →
        isBlank majorityAnswer = false → ∃ verdict,
          sentinel.review format majorityAnswer allAnswers overrideSignal = .ok verdict ∧
            Supported sentinel majorityAnswer allAnswers overrideSignal verdict := by
  intro promised
  obtain ⟨verdict, ran, supported⟩ := promised defaultSentinel (fun _ => "") "b" ["a", "b", "a"]
    (some false) (by decide) (by decide)
  have confident : (defaultSentinel.review (fun _ => "") "b" ["a", "b", "a"]
      (some false)).toOption.map (fun verdict => (verdict.confidence, verdict.finalAnswer)) =
        some (2 / 3, "b") := by
    decide +kernel
  rw [ran] at confident
  obtain ⟨share, kept⟩ : verdict.confidence = 2 / 3 ∧ verdict.finalAnswer = "b" := by
    simpa [Except.toOption] using confident
  have same := supported.confidence
  rw [share, kept] at same
  exact absurd same (by decide +kernel)

end Swarmind.Orchestrator.MinoritySentinel
