import Swarmind.Library.Argmax
import Swarmind.Library.Floating
import Swarmind.Library.Python

/-!
Owns votes of k answers in one call.

A provider is asked for k answers at once. Where it gives fewer, it is asked for
single ones until there are k or a call gives none. The calls are not counted:
what is reported is derived from the votes.
-/

namespace Swarmind.Orchestrator.BatchVote

open Swarmind.Library

variable {F : Type} [Floating F]

structure BatchVoteResult where
  votes : List String
  majority : Option String
  quorumMet : Bool
  inputCalls : Nat
  effectiveInputTokens : Int
  effectiveOutputTokens : Int
  nSupported : Bool
deriving DecidableEq

def majorityOf (votes : List String) (quorumRatio : F) : Option String × Bool :=
  match mostCommon votes with
  | none => (none, false)
  | some (top, count) =>
    if count * 2 ≤ votes.length ∧ 1 < (counter votes).length then (none, false)
    else
      let quorumMet := decide (quorumRatio < (count : F) / (votes.length : F))
      (if quorumMet then some top else none, quorumMet)

section Algorithm

variable {α : Type} (text : α → String) (provider : Nat → String → Int → List α)

/-- The loop of single calls: how many votes are missing, how many calls were
made, and the votes so far. -/
def singles (prompt : String) : Nat → Nat → List String → List String × Nat
  | 0, calls, votes => (votes, calls)
  | missing + 1, calls, votes =>
    match provider calls prompt 1 with
    | [] => (votes, calls + 1)
    | answer :: _ => singles prompt missing (calls + 1) (votes ++ [text answer])

/-- `batch_vote`, and the number of calls that it made of the provider, which
answers by the number of calls before, the prompt and the `n` of each. -/
def batchVote (prompt : String) (k inputTokens outputTokens : Int) (quorumRatio : F) :
    Except PyException (BatchVoteResult × Nat) :=
  if isBlank prompt then
    .error (PyException.valueError ("WHAT: prompt vacio. " ++
      "WHY: sin pregunta no hay votacion. WHERE: batch_vote"))
  else if k < 1 then
    .error (PyException.valueError (s!"WHAT: k invalido: {k}. " ++
      "WHY: se necesita al menos 1 voto. WHERE: batch_vote"))
  else
    let answers := (provider 0 prompt k).map text
    let nSupported := decide (k ≤ answers.length)
    let (received, calls) :=
      if nSupported then (answers, 1)
      else singles text provider prompt (k.toNat - answers.length) 1 answers
    let votes := received.take k.toNat
    let inputCalls := if nSupported then 1 else votes.length
    let (majority, quorumMet) := majorityOf votes quorumRatio
    .ok ({ votes := votes
           majority := majority
           quorumMet := quorumMet
           inputCalls := inputCalls
           effectiveInputTokens := if nSupported then inputTokens else inputTokens * inputCalls
           effectiveOutputTokens := outputTokens * votes.length
           nSupported := nSupported }, calls)

/-- What the calls gave in their order: the answers of the first one, and the
first answer of each later one. -/
def received (prompt : String) (k : Int) (calls : Nat) : List String :=
  (provider 0 prompt k).map text ++
    (List.range' 1 (calls - 1)).flatMap fun call => ((provider call prompt 1).map text).take 1

structure Accounted (prompt : String) (k inputTokens : Int) (quorumRatio : F)
    (result : BatchVoteResult) (calls : Nat) : Prop where
  bounded : (calls : Int) ≤ k + 1
  votes : result.votes = (received text provider prompt k calls).take k.toNat
  inputCalls : result.inputCalls = calls
  inputTokens : result.effectiveInputTokens = inputTokens * calls
  majority : ∀ v, result.majority = some v ↔
    result.votes.length < 2 * result.votes.count v ∧
      quorumRatio < (result.votes.count v : F) / (result.votes.length : F)

end Algorithm

/-! ### Majorities -/

/-- A majority is what fills more than half of the votes, and more than the
quorum. -/
theorem majorityOf_iff (votes : List String) (quorumRatio : F) (v : String) :
    (majorityOf votes quorumRatio).1 = some v ↔
      votes.length < 2 * votes.count v ∧
        quorumRatio < (votes.count v : F) / (votes.length : F) := by
  rcases eq_or_ne votes [] with rfl | some
  · exact iff_of_false (fun impossible => nomatch impossible)
      (fun holds => absurd holds.1 (Nat.lt_irrefl 0))
  · obtain ⟨top, found, member, greatest⟩ := mostCommon_spec some
    rw [majorityOf, found]
    dsimp only
    have decided : ¬(votes.count top * 2 ≤ votes.length ∧ 1 < (counter votes).length) ↔
        votes.length < 2 * votes.count top := by
      constructor
      · intro decided
        by_cases several : 1 < (counter votes).length
        · have more : ¬votes.count top * 2 ≤ votes.length := fun tie => decided ⟨tie, several⟩
          omega
        · rw [count_eq_length_of_counter (Nat.le_of_not_lt several) member]
          have length := List.length_pos_iff.mpr some
          omega
      · rintro majority ⟨tie, _⟩
        omega
    split_ifs with tie quorum
    · refine iff_of_false (fun impossible => nomatch impossible) ?_
      rintro ⟨majority, _⟩
      obtain rfl := eq_of_majority greatest majority
      exact decided.mpr majority tie
    · rw [decide_eq_true_eq] at quorum
      constructor
      · intro same
        cases same
        exact ⟨decided.mp tie, quorum⟩
      · rintro ⟨majority, _⟩
        rw [eq_of_majority greatest majority]
    · rw [decide_eq_true_eq] at quorum
      refine iff_of_false (fun impossible => nomatch impossible) ?_
      rintro ⟨majority, enough⟩
      obtain rfl := eq_of_majority greatest majority
      exact quorum enough

/-! ### Calls -/

section Calls

variable {α : Type} (text : α → String) (provider : Nat → String → Int → List α)

private theorem singles_spec (prompt : String) (missing calls : Nat) (votes : List String) :
    ∃ made ≤ missing, ∃ given : List String,
      singles text provider prompt missing calls votes = (votes ++ given, calls + made) ∧
        given = (List.range' calls made).flatMap
          (fun call => ((provider call prompt 1).map text).take 1) ∧
        ((∀ call, calls ≤ call → call < calls + missing → provider call prompt 1 ≠ []) ∧
            made = missing ∧ given.length = made ∨
          (∃ call, calls ≤ call ∧ call < calls + missing ∧ provider call prompt 1 = []) ∧
            given.length + 1 = made) := by
  induction missing generalizing calls votes with
  | zero =>
    refine ⟨0, Nat.le_refl _, [], by rw [singles, List.append_nil, Nat.add_zero], rfl,
      Or.inl ⟨fun call least most => ?_, rfl, rfl⟩⟩
    omega
  | succ missing ih =>
    rw [singles]
    cases answered : provider calls prompt 1 with
    | nil =>
      refine ⟨1, Nat.succ_le_succ (Nat.zero_le _), [], ?_, ?_, Or.inr ⟨⟨calls, ?_⟩, rfl⟩⟩
      · rw [List.append_nil]
      · rw [List.range'_one, List.flatMap_singleton, answered]
        rfl
      · exact ⟨Nat.le_refl _, by omega, answered⟩
    | cons answer others =>
      obtain ⟨made, most, given, ran, collected, ending⟩ :=
        ih (calls + 1) (votes ++ [text answer])
      refine ⟨made + 1, Nat.succ_le_succ most, text answer :: given, ?_, ?_, ?_⟩
      · dsimp only
        rw [ran, List.append_assoc, List.singleton_append, Nat.add_assoc, Nat.add_comm 1]
      · rw [List.range'_succ, List.flatMap_cons, answered, ← collected]
        rfl
      · rcases ending with ⟨every, all, length⟩ | ⟨⟨call, least, below, silent⟩, length⟩
        · refine Or.inl ⟨?_, by rw [all], by rw [List.length_cons, length]⟩
          intro call least below
          rcases Nat.eq_or_lt_of_le least with rfl | later
          · rw [answered]
            exact List.cons_ne_nil _ _
          · exact every call later (by omega)
        · exact Or.inr ⟨⟨call, by omega, by omega, silent⟩, by rw [List.length_cons, length]⟩

private theorem reported_iff {prompt : String} {k : Int} {first made size : Nat}
    (short : ¬k ≤ first)
    (ending : (∀ call, 1 ≤ call → call < 1 + (k.toNat - first) → provider call prompt 1 ≠ []) ∧
        made = k.toNat - first ∧ size = made ∨
      (∃ call, 1 ≤ call ∧ call < 1 + (k.toNat - first) ∧ provider call prompt 1 = []) ∧
        size + 1 = made) :
    first + size = 1 + made ↔ k ≤ first ∨
      first = 1 ∧ (∀ call : Nat, 1 ≤ call → call < k → provider call prompt 1 ≠ []) ∨
      first = 2 ∧ ∃ call : Nat, 1 ≤ call ∧ call < k - 1 ∧ provider call prompt 1 = [] := by
  rcases ending with ⟨every, reached, length⟩ | ⟨⟨call, least, below, silent⟩, length⟩
  · rw [length, Nat.add_right_cancel_iff]
    constructor
    · intro one
      refine Or.inr (Or.inl ⟨one, fun call least below => every call least ?_⟩)
      omega
    · rintro (enough | ⟨one, _⟩ | ⟨two, call, least, below, silent⟩)
      · exact absurd enough short
      · exact one
      · exact absurd silent (every call least (by omega))
  · constructor
    · intro reported
      exact Or.inr (Or.inr ⟨by omega, call, least, by omega, silent⟩)
    · rintro (enough | ⟨one, every⟩ | ⟨two, _⟩)
      · exact absurd enough short
      · exact absurd silent (every call least (by omega))
      · omega

end Calls

/-- A vote accounts for its calls where the first one gives all the answers, or
one of them and every single call another, or two of them and some single call
none. -/
theorem batchVote_accounted_iff {α : Type} (text : α → String)
    (provider : Nat → String → Int → List α) {prompt : String} (asked : isBlank prompt = false)
    {k : Int} (positive : 1 ≤ k) (inputTokens outputTokens : Int) (quorumRatio : F) :
    (∃ result calls, batchVote text provider prompt k inputTokens outputTokens quorumRatio =
        .ok (result, calls) ∧
        Accounted text provider prompt k inputTokens quorumRatio result calls) ↔
      k ≤ (provider 0 prompt k).length ∨
        (provider 0 prompt k).length = 1 ∧
          (∀ call : Nat, 1 ≤ call → call < k → provider call prompt 1 ≠ []) ∨
        (provider 0 prompt k).length = 2 ∧
          ∃ call : Nat, 1 ≤ call ∧ call < k - 1 ∧ provider call prompt 1 = [] := by
  rw [batchVote, if_neg (Bool.eq_false_iff.mp asked), if_neg (Int.not_lt.mpr positive)]
  dsimp only
  rw [List.length_map]
  by_cases supported : k ≤ (provider 0 prompt k).length
  · simp only [decide_eq_true_eq, if_pos supported]
    refine iff_of_true ⟨_, _, rfl, ?_⟩ (Or.inl supported)
    refine ⟨by omega, ?_, rfl, (Int.mul_one _).symm, majorityOf_iff _ _⟩
    rw [received, Nat.sub_self, List.range'_zero, List.flatMap_nil, List.append_nil]
  · simp only [decide_eq_true_eq, if_neg supported]
    obtain ⟨made, most, given, ran, collected, ending⟩ := singles_spec text provider prompt
      (k.toNat - (provider 0 prompt k).length) 1 ((provider 0 prompt k).map text)
    have fewer : given.length ≤ made := by
      rcases ending with ⟨_, _, length⟩ | ⟨_, length⟩ <;> omega
    have all : (((provider 0 prompt k).map text) ++ given).take k.toNat =
        (provider 0 prompt k).map text ++ given := by
      apply List.take_of_length_le
      rw [List.length_append, List.length_map]
      omega
    simp only [ran, all]
    -- Everything but the reported calls is right whatever the provider does.
    refine Iff.trans (b := (provider 0 prompt k).length + given.length = 1 + made) ?_ ?_
    · constructor
      · rintro ⟨result, calls, same, accounted⟩
        cases same
        have reported := accounted.inputCalls
        rwa [List.length_append, List.length_map] at reported
      · intro reported
        refine ⟨_, _, rfl, by omega, ?_, ?_, ?_, majorityOf_iff _ _⟩
        · rw [received, Nat.add_sub_cancel_left, ← collected, all]
        · rw [List.length_append, List.length_map, reported]
        · rw [List.length_append, List.length_map, reported]
    · exact reported_iff provider supported ending

/-- A provider that gives as many answers as it is asked for. -/
def unanimous (_ : Nat) (_ : String) (n : Int) : List String := List.replicate n.toNat "si"

/-- Three workers that agree. -/
theorem batchVote_accounted_unanimous :
    ∃ result calls, batchVote id unanimous "p" 3 800 120 (1 / 2 : ℚ) = .ok (result, calls) ∧
        Accounted id unanimous "p" 3 800 (1 / 2 : ℚ) result calls :=
  (batchVote_accounted_iff id unanimous (by decide) (by decide) 800 120 (1 / 2 : ℚ)).mpr
    (Or.inl (by decide))

/-- Two of three answers at once, and a single call for the third: two calls are
reported as three. -/
theorem not_batchVote_accounted :
    ¬ ∀ (provider : Nat → String → Int → List String) (prompt : String) (k : Int),
      isBlank prompt = false → 1 ≤ k → ∀ (inputTokens outputTokens : Int) (quorumRatio : ℚ),
        ∃ result calls, batchVote id provider prompt k inputTokens outputTokens quorumRatio =
          .ok (result, calls) ∧
            Accounted id provider prompt k inputTokens quorumRatio result calls := by
  intro promised
  obtain ⟨result, calls, ran, accounted⟩ := promised
    (fun call _ _ => if call = 0 then ["si", "no"] else ["si"]) "p" 3 (by decide) (by decide)
    800 120 (1 / 2)
  have reported : (batchVote id (fun call _ _ => if call = 0 then ["si", "no"] else ["si"]) "p" 3
      800 120 (1 / 2 : ℚ)).toOption.map (fun outcome => (outcome.1.inputCalls, outcome.2)) =
        some (3, 2) := by
    decide +kernel
  rw [ran] at reported
  obtain ⟨three, two⟩ : result.inputCalls = 3 ∧ calls = 2 := by
    simpa [Except.toOption] using reported
  have same := accounted.inputCalls
  rw [three, two] at same
  exact absurd same (by decide)

end Swarmind.Orchestrator.BatchVote
