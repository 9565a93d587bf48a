import Mathlib.Algebra.Order.BigOperators.Group.List
import Mathlib.Algebra.Order.Ring.Nat
import Mathlib.Data.List.Infix
import Mathlib.Data.Rat.Init
import Swarmind.Library.Python

/-!
Owns the loop that drafts blocks of candidates and appends what the verifier accepts of each.
A candidate is judged after all the candidates before it in its block, and appended after those
that were accepted; a block of which nothing is accepted still gives its first candidate.
-/

namespace Swarmind.Orchestrator.SpeculativeDecoding

open Swarmind.Library

inductive VerificationStrategy where
  | exactMatch | semantic | probability | hybrid

/-- `strategy.name.lower()`. -/
def VerificationStrategy.lowerName : VerificationStrategy → String
  | .exactMatch => "exact_match"
  | .semantic => "semantic"
  | .probability => "probability"
  | .hybrid => "hybrid"

structure SpeculativeConfig where
  nDraft : Int := 5
  maxIterations : Int := 20
  strategy : VerificationStrategy := .hybrid

structure SpeculativeResult where
  text : List Char
  tokensDrafted : Nat
  tokensAccepted : Nat
  acceptanceRate : ℚ
  iterations : Nat
  method : String

/-- The drafter and the verifier, which may raise. Texts are lists of characters. -/
structure SpeculativeDecoder where
  draftFn : List Char → Int → Except PyException (List (List Char))
  verifyFn : List Char → List (List Char) → Except PyException (List Bool)

/-- A drafted block: the text it was drafted after, its candidates, and what was accepted. -/
structure Block where
  context : List Char
  candidates : List (List Char)
  accepted : List Bool
deriving DecidableEq

/-- The candidates that a mask accepts. -/
def selected (candidates : List (List Char)) (accepted : List Bool) : List (List Char) :=
  ((candidates.zip accepted).filter Prod.snd).map Prod.fst

def acceptTokens (candidates : List (List Char)) (accepted : List Bool) : List Char :=
  let acceptedText := (selected candidates accepted).flatten
  if acceptedText = [] then candidates.headD [] else acceptedText

/-- The blocks of the loop so far, and the text after them. -/
structure Progress where
  currentPrompt : List Char
  totalDrafted : Nat
  totalAccepted : Nat
  iterations : Nat
  blocks : List Block

def Progress.extend (progress : Progress) (candidates : List (List Char))
    (accepted : List Bool) : Progress where
  currentPrompt := progress.currentPrompt ++ acceptTokens candidates accepted
  totalDrafted := progress.totalDrafted + candidates.length
  totalAccepted := progress.totalAccepted + accepted.count true
  iterations := progress.iterations + 1
  blocks := progress.blocks ++ [⟨progress.currentPrompt, candidates, accepted⟩]

namespace SpeculativeDecoder

variable (decoder : SpeculativeDecoder)

def draftTokens (prompt : List Char) (n : Int) : List (List Char) :=
  match decoder.draftFn prompt n with
  | .ok candidates => candidates
  | .error _ => []

def verifyTokens (prompt : List Char) (candidates : List (List Char)) : List Bool :=
  match decoder.verifyFn prompt candidates with
  | .ok accepted => accepted
  | .error _ => List.replicate candidates.length false

/-- The loop with the iterations that are left. -/
def iterate (cfg : SpeculativeConfig) : Nat → Progress → Progress
  | 0, progress => progress
  | left + 1, progress =>
    let candidates := decoder.draftTokens progress.currentPrompt cfg.nDraft
    if candidates = [] then { progress with iterations := progress.iterations + 1 }
    else
      let accepted := decoder.verifyTokens progress.currentPrompt candidates
      let next := progress.extend candidates accepted
      if 2 * accepted.count true < candidates.length ∨
          ∃ c ∈ candidates, "[DONE]".toList <:+: c then next
      else iterate cfg left next

def run (prompt : List Char) (cfg : SpeculativeConfig) : Progress :=
  decoder.iterate cfg cfg.maxIterations.toNat ⟨prompt, 0, 0, 0, []⟩

def generate (prompt : List Char) (cfg : SpeculativeConfig) : SpeculativeResult :=
  let last := decoder.run prompt cfg
  { text := last.currentPrompt.drop prompt.length
    tokensDrafted := last.totalDrafted
    tokensAccepted := last.totalAccepted
    acceptanceRate := if 0 < last.totalDrafted then last.totalAccepted / last.totalDrafted else 0
    iterations := if 0 < last.totalDrafted then last.iterations else 0
    method := "speculative_" ++ cfg.strategy.lowerName }

end SpeculativeDecoder

/-! ### What is appended -/

namespace Block

variable (block : Block)

def text : List Char := acceptTokens block.candidates block.accepted

/-- The text before a candidate where it is appended. -/
def before (index : Nat) : List Char :=
  block.context ++ (selected (block.candidates.take index) (block.accepted.take index)).flatten

/-- The text after which a candidate was judged. -/
def judgedAfter (index : Nat) : List Char :=
  block.context ++ (block.candidates.take index).flatten

/-- No candidate that was refused before this one has any text. -/
def Gapless (index : Nat) : Prop :=
  ∀ pair ∈ (block.candidates.take index).zip (block.accepted.take index),
    pair.2 = false → pair.1 = []

/-- The accepted candidates have no text, so that the first one is appended anyway. -/
def Forced : Prop := (selected block.candidates block.accepted).flatten = []

def Appends (index : Nat) (candidate : List Char) : Prop :=
  block.candidates[index]? = some candidate ∧
    ((block.Forced ∧ index = 0) ∨ (¬ block.Forced ∧ block.accepted[index]? = some true))

end Block

/-- The verdicts on the candidates of a block, each after the ones before it. -/
def verdicts (judge : List Char → List Char → Bool) (context : List Char) :
    List (List Char) → List Bool
  | [] => []
  | candidate :: rest => judge context candidate :: verdicts judge (context ++ candidate) rest

/-- The verifier, where it returns, judges each candidate after the text before it. -/
def Judges (decoder : SpeculativeDecoder) (judge : List Char → List Char → Bool) : Prop :=
  ∀ prompt candidates accepted, decoder.verifyFn prompt candidates = .ok accepted →
    accepted = verdicts judge prompt candidates

variable {decoder : SpeculativeDecoder} {judge : List Char → List Char → Bool}

private theorem length_verdicts (context : List Char) (candidates : List (List Char)) :
    (verdicts judge context candidates).length = candidates.length := by
  induction candidates generalizing context with
  | nil => rfl
  | cons candidate rest ih => rw [verdicts, List.length_cons, List.length_cons, ih]

variable {candidates : List (List Char)}

private theorem verdicts_eq_true {context candidate : List Char}
    {index : Nat} (present : candidates[index]? = some candidate)
    (accepted : (verdicts judge context candidates)[index]? = some true) :
    judge (context ++ (candidates.take index).flatten) candidate = true := by
  induction candidates generalizing context index with
  | nil => cases present
  | cons head rest ih =>
    cases index with
    | zero =>
      cases present
      simpa [verdicts] using accepted
    | succ index =>
      have later : judge (context ++ head ++ (rest.take index).flatten) candidate = true :=
        ih present accepted
      rwa [List.append_assoc] at later

private theorem selected_cons (candidate : List Char) (rest : List (List Char)) (verdict : Bool)
    (later : List Bool) :
    (selected (candidate :: rest) (verdict :: later)).flatten =
      (if verdict then candidate else []) ++ (selected rest later).flatten := by
  cases verdict <;> rfl

private theorem length_flatten_selected (candidates : List (List Char)) (accepted : List Bool) :
    (selected candidates accepted).flatten.length ≤ candidates.flatten.length := by
  induction candidates generalizing accepted with
  | nil => rfl
  | cons candidate rest ih =>
    cases accepted with
    | nil => exact Nat.zero_le _
    | cons verdict later =>
      have shorter := ih later
      rw [selected_cons, List.length_append, List.flatten_cons, List.length_append]
      cases verdict
      · exact (Nat.zero_add _).trans_le (shorter.trans (Nat.le_add_left _ _))
      · exact Nat.add_le_add_left shorter _

/-- The accepted candidates have the text of all of them just when no refused one has any. -/
theorem flatten_selected_eq_iff {accepted : List Bool}
    (length : accepted.length = candidates.length) :
    (selected candidates accepted).flatten = candidates.flatten ↔
      ∀ pair ∈ candidates.zip accepted, pair.2 = false → pair.1 = [] := by
  induction candidates generalizing accepted with
  | nil => simp [selected]
  | cons candidate rest ih =>
    obtain ⟨verdict, later, rfl⟩ := List.exists_cons_of_length_eq_add_one length
    have same := ih (Nat.succ.inj length)
    rw [selected_cons, List.flatten_cons, List.zip_cons_cons, List.forall_mem_cons, ← same]
    cases verdict
    · refine ⟨fun equal => ?_, fun ⟨bare, equal⟩ => ?_⟩
      · have lengths := congrArg List.length equal
        have shorter := length_flatten_selected rest later
        simp only [List.length_append, Bool.false_eq_true, if_false, List.length_nil] at lengths
        have bare : candidate = [] := List.length_eq_zero_iff.mp (by omega)
        exact ⟨fun _ => bare, by simpa [bare] using equal⟩
      · rw [show candidate = [] from bare rfl, equal]
        rfl
    · simp

private theorem length_verifyTokens (judges : Judges decoder judge) (prompt : List Char)
    (candidates : List (List Char)) :
    (decoder.verifyTokens prompt candidates).length = candidates.length := by
  unfold SpeculativeDecoder.verifyTokens
  cases verified : decoder.verifyFn prompt candidates with
  | ok accepted =>
    rw [judges prompt candidates accepted verified]
    exact length_verdicts prompt candidates
  | error raised => exact List.length_replicate

private theorem verifyTokens_eq_true (judges : Judges decoder judge) {prompt candidate : List Char}
    {index : Nat} (present : candidates[index]? = some candidate)
    (accepted : (decoder.verifyTokens prompt candidates)[index]? = some true) :
    judge (prompt ++ (candidates.take index).flatten) candidate = true := by
  unfold SpeculativeDecoder.verifyTokens at accepted
  cases verified : decoder.verifyFn prompt candidates with
  | ok mask =>
    rw [verified, judges prompt candidates mask verified] at accepted
    exact verdicts_eq_true present accepted
  | error raised =>
    rw [verified, List.getElem?_replicate] at accepted
    split at accepted <;> cases accepted

/-! ### The loop -/

/-- Each block is drafted after the text that the blocks before it leave, and verified there. -/
def Drafted (decoder : SpeculativeDecoder) (cfg : SpeculativeConfig) (prompt : List Char) :
    List Block → Prop
  | [] => True
  | block :: rest => block.context = prompt ∧ block.candidates ≠ [] ∧
    block.candidates = decoder.draftTokens prompt cfg.nDraft ∧
    block.accepted = decoder.verifyTokens prompt block.candidates ∧
    Drafted decoder cfg (prompt ++ block.text) rest

def textOf (blocks : List Block) : List Char := (blocks.map Block.text).flatten

structure Built (decoder : SpeculativeDecoder) (cfg : SpeculativeConfig) (prompt : List Char)
    (progress : Progress) : Prop where
  drafted : Drafted decoder cfg prompt progress.blocks
  current : progress.currentPrompt = prompt ++ textOf progress.blocks
  totalDrafted : progress.totalDrafted =
    (progress.blocks.map fun block => block.candidates.length).sum
  totalAccepted : progress.totalAccepted =
    (progress.blocks.map fun block => block.accepted.count true).sum

variable {cfg : SpeculativeConfig} {prompt : List Char}

private theorem drafted_append {blocks : List Block} {last : Block} :
    Drafted decoder cfg prompt (blocks ++ [last]) ↔ Drafted decoder cfg prompt blocks ∧
      Drafted decoder cfg (prompt ++ textOf blocks) [last] := by
  induction blocks generalizing prompt with
  | nil => simp [Drafted, textOf]
  | cons block rest ih =>
    rw [List.cons_append, Drafted, Drafted, ih, textOf, textOf, List.map_cons, List.flatten_cons,
      List.append_assoc]
    simp only [and_assoc]

private theorem Built.extend {progress : Progress} (built : Built decoder cfg prompt progress)
    (some : decoder.draftTokens progress.currentPrompt cfg.nDraft ≠ []) :
    Built decoder cfg prompt (progress.extend
      (decoder.draftTokens progress.currentPrompt cfg.nDraft)
      (decoder.verifyTokens progress.currentPrompt
        (decoder.draftTokens progress.currentPrompt cfg.nDraft))) := by
  refine ⟨drafted_append.mpr ⟨built.drafted, ?_⟩, ?_, ?_, ?_⟩
  · rw [← built.current]
    exact ⟨rfl, some, rfl, rfl, trivial⟩
  · simp [Progress.extend, built.current, textOf, Block.text]
  · simp [Progress.extend, built.totalDrafted]
  · simp [Progress.extend, built.totalAccepted]

private theorem Built.iterate (left : Nat) {progress : Progress}
    (built : Built decoder cfg prompt progress) :
    Built decoder cfg prompt (decoder.iterate cfg left progress) := by
  induction left generalizing progress with
  | zero => exact built
  | succ left ih =>
    simp only [SpeculativeDecoder.iterate]
    split_ifs with none last
    · exact ⟨built.drafted, built.current, built.totalDrafted, built.totalAccepted⟩
    · exact built.extend none
    · exact ih (built.extend none)

private theorem drafted_spec {blocks : List Block} (drafted : Drafted decoder cfg prompt blocks) :
    ∀ block ∈ blocks, block.candidates ≠ [] ∧
      block.accepted = decoder.verifyTokens block.context block.candidates := by
  induction blocks generalizing prompt with
  | nil => exact nofun
  | cons head rest ih =>
    obtain ⟨context, some, _, verified, later⟩ := drafted
    rw [List.forall_mem_cons]
    exact ⟨⟨some, context ▸ verified⟩, ih later⟩

private theorem before_eq_judgedAfter_iff {block : Block}
    (length : block.accepted.length = block.candidates.length) (index : Nat) :
    block.before index = block.judgedAfter index ↔ block.Gapless index := by
  unfold Block.before Block.judgedAfter
  rw [List.append_right_inj, flatten_selected_eq_iff, Block.Gapless]
  rw [List.length_take, List.length_take, length]

/-- The result in terms of the blocks. A candidate is appended because it was accepted, after the
candidates before it in its block, or because nothing was and it is the first one. It stands
behind that text exactly when those of them that were refused have none. -/
structure Accounts (decoder : SpeculativeDecoder) (judge : List Char → List Char → Bool)
    (cfg : SpeculativeConfig) (prompt : List Char) (blocks : List Block)
    (result : SpeculativeResult) : Prop where
  drafted : Drafted decoder cfg prompt blocks
  text : result.text = textOf blocks
  verified : ∀ block ∈ blocks, ∀ index candidate, block.Appends index candidate →
    (block.Forced ∧ index = 0) ∨
      judge (block.judgedAfter index) candidate = true ∧
        (block.before index = block.judgedAfter index ↔ block.Gapless index)
  tokensDrafted : result.tokensDrafted = (blocks.map fun block => block.candidates.length).sum
  tokensAccepted : result.tokensAccepted =
    (blocks.map fun block => block.accepted.count true).sum
  bounded : result.tokensAccepted ≤ result.tokensDrafted

/-- A drafter of one letter, with a verifier that refuses everything. -/
def refused : SpeculativeDecoder where
  draftFn _ _ := .ok [['a']]
  verifyFn prompt candidates := .ok (verdicts (fun _ _ => false) prompt candidates)

private theorem refused_judges : Judges refused fun _ _ => false := by
  rintro prompt candidates accepted ⟨⟩
  rfl

/-- A drafter of three letters, with a verifier that refuses the second one and accepts the third
one behind it only. -/
def gapped : SpeculativeDecoder where
  draftFn _ _ := .ok [['a'], ['b'], ['c']]
  verifyFn prompt candidates := .ok (verdicts afterB prompt candidates)
where
  afterB (context candidate : List Char) : Bool :=
    candidate = ['a'] || candidate = ['c'] && context.getLast? = some 'b'

end Swarmind.Orchestrator.SpeculativeDecoding
