import Mathlib.Data.List.Enum
import Mathlib.Logic.Relation

/-!
Owns dynamic plans: the subtasks that a scope estimate asks for, with their
dependencies by index, and the subtask that consolidates their results.

Two of the subtasks are the coordinator's, so a plan has one subtask more than
the estimate has agents.
-/

namespace Swarmind.Orchestrator.ScopeAnalyzer

structure ScopeEstimate where
  buildersNeeded : Int := 1
  guardiansNeeded : Int := 1
  needScientist : Bool := false
  needBugfix : Bool := false
deriving DecidableEq

def ScopeEstimate.totalAgents (scope : ScopeEstimate) : Int :=
  scope.buildersNeeded + scope.guardiansNeeded + (if scope.needScientist then 1 else 0) +
    (if scope.needBugfix then 1 else 0) + 1

inductive Agent where
  | coordinator
  | scientist
  | builder
  | guardian
deriving DecidableEq

inductive ConfidenceImpact where
  | critical
  | validation
  | neutral
deriving DecidableEq

/-- A subtask of a plan; its dependencies are indices of the plan. -/
structure Subtask where
  agent : Agent
  description : String
  deps : List Nat
  expectedOutput : String
  confidenceImpact : ConfidenceImpact
deriving DecidableEq

/-- Subtasks and the index of the next one. -/
structure Draft where
  subtasks : List Subtask
  idx : Nat

def Draft.empty : Draft := ⟨[], 0⟩

def Draft.append (draft : Draft) (subtask : Subtask) : Draft :=
  ⟨draft.subtasks ++ [subtask], draft.idx + 1⟩

def Draft.appendIf (draft : Draft) (wanted : Bool) (subtask : Subtask) : Draft :=
  if wanted then draft.append subtask else draft

def planSubtask (scope : ScopeEstimate) : Subtask where
  agent := .coordinator
  description := s!"PLAN: dividir trabajo en {scope.buildersNeeded} modulos + tests + docs"
  deps := []
  expectedOutput := "Plan de trabajo"
  confidenceImpact := .critical

/-- Level 0: the scientist, beside the plan. -/
def scientistSubtask : Subtask where
  agent := .scientist
  description := "INVESTIGAR: mejores practicas (solo texto, 0 archivos)"
  deps := []
  expectedOutput := "Recomendaciones tecnicas (solo texto)"
  confidenceImpact := .critical

def builderNames : List String := ["CORE", "API", "DB", "MOD1", "MOD2", "MOD3", "MOD4", "MOD5"]

def builderPaths : List String :=
  ["src/core/", "src/api/", "src/db/", "src/mod1/", "src/mod2/", "src/mod3/", "src/mod4/",
    "src/mod5/"]

def builderSubtask (planIdx i : Nat) : Subtask :=
  let name := (builderNames[i]?).getD s!"MOD{i + 1}"
  let path := (builderPaths[i]?).getD s!"src/mod{i + 1}/"
  { agent := .builder
    description := s!"{name}: implementar en {path} segun plan"
    deps := [planIdx]
    expectedOutput := s!"Modulo {name} en {path}"
    confidenceImpact := .critical }

/-- Level 1: the guardian that writes tests. -/
def testsSubtask (scope : ScopeEstimate) (planIdx : Nat) : Subtask where
  agent := .guardian
  description := s!"TESTS: escribir tests en tests/ para {scope.buildersNeeded} modulos"
  deps := [planIdx]
  expectedOutput := s!"Tests en tests/ cubriendo {scope.buildersNeeded} modulos"
  confidenceImpact := .validation

/-- Level 1: the guardian that writes documentation. -/
def docsSubtask (planIdx : Nat) : Subtask where
  agent := .guardian
  description := "DOCS: documentar modulos y ejemplos de uso"
  deps := [planIdx]
  expectedOutput := "Docs en ES-UTF8"
  confidenceImpact := .neutral

/-- Level 2: the guardian that fixes bugs. -/
def bugfixSubtask (deps : List Nat) : Subtask where
  agent := .guardian
  description := "BUGFIX: ejecutar tests, identificar fallos y corregir"
  deps := deps
  expectedOutput := "Tests verdes, bugs corregidos"
  confidenceImpact := .validation

/-- Level 3: the coordinator puts everything together. -/
def consolidateSubtask (deps : List Nat) : Subtask where
  agent := .coordinator
  description := "CONSOLIDAR: integrar modulos, tests y documentacion"
  deps := deps
  expectedOutput := "Entrega unificada sin conflictos"
  confidenceImpact := .critical

def addBuilders (planIdx : Nat) (draft : Draft) (count : Nat) : Draft × List Nat :=
  (List.range count).foldl
    (fun state i => (state.1.append (builderSubtask planIdx i), state.2 ++ [state.1.idx]))
    (draft, [])

def generateSubtasks (scope : ScopeEstimate) : List Subtask :=
  let planIdx := Draft.empty.idx
  let draft := Draft.empty.append (planSubtask scope)
  let draft := draft.appendIf scope.needScientist scientistSubtask
  let (draft, builderIndices) := addBuilders planIdx draft scope.buildersNeeded.toNat
  let guardianTestIdx := if 1 ≤ scope.guardiansNeeded then [draft.idx] else []
  let draft := draft.appendIf (1 ≤ scope.guardiansNeeded) (testsSubtask scope planIdx)
  let draft := draft.appendIf (2 ≤ scope.guardiansNeeded) (docsSubtask planIdx)
  let draft := draft.appendIf scope.needBugfix (bugfixSubtask (builderIndices ++ guardianTestIdx))
  -- the index of the scientist is written out
  let consolDeps := builderIndices ++ (if scope.needScientist then [1] else []) ++ guardianTestIdx
  draft.subtasks ++ [consolidateSubtask consolDeps]

/-- Every dependency is the index of an earlier subtask. -/
def Backward (subtasks : List Subtask) : Prop :=
  ∀ (idx : Nat) (subtask : Subtask), subtasks[idx]? = some subtask →
    ∀ dep ∈ subtask.deps, dep < idx

/-- One subtask of a plan depends on another. -/
def DependsOn (subtasks : List Subtask) (later earlier : Nat) : Prop :=
  ∃ subtask, subtasks[later]? = some subtask ∧ earlier ∈ subtask.deps

/-- The last subtask waits for another one, directly or through others. -/
def Joins (subtasks : List Subtask) (idx : Nat) : Prop :=
  Relation.TransGen (DependsOn subtasks) (subtasks.length - 1) idx

/-- What is promised of a dynamic plan. -/
structure Complete (scope : ScopeEstimate) (subtasks : List Subtask) : Prop where
  backward : Backward subtasks
  builders : (subtasks.countP (fun subtask => subtask.agent = .builder) : Int) =
    scope.buildersNeeded
  guardians : (subtasks.countP (fun subtask => subtask.agent = .guardian) : Int) =
    scope.guardiansNeeded + if scope.needBugfix then 1 else 0
  promised : (subtasks.length : Int) = scope.totalAgents
  joined : ∀ idx, idx + 1 < subtasks.length → Joins subtasks idx

/-- What a dynamic plan keeps of it. -/
structure Joined (scope : ScopeEstimate) (subtasks : List Subtask) : Prop where
  backward : Backward subtasks
  builders : (subtasks.countP (fun subtask => subtask.agent = .builder) : Int) =
    max scope.buildersNeeded 0
  guardians : 0 ≤ scope.guardiansNeeded → scope.guardiansNeeded ≤ 2 →
    (subtasks.countP (fun subtask => subtask.agent = .guardian) : Int) =
      scope.guardiansNeeded + if scope.needBugfix then 1 else 0
  promised : 0 ≤ scope.buildersNeeded → 0 ≤ scope.guardiansNeeded → scope.guardiansNeeded ≤ 2 →
    (subtasks.length : Int) = scope.totalAgents + 1
  last : ∃ deps, subtasks.getLast? = some (consolidateSubtask deps)
  joined : ∀ (idx : Nat) (subtask : Subtask), subtasks[idx]? = some subtask →
    subtask.agent = .scientist ∨ subtask.agent = .builder ∨ subtask = testsSubtask scope 0 →
      Joins subtasks idx
  planned : 0 < scope.buildersNeeded ∨ 1 ≤ scope.guardiansNeeded → Joins subtasks 0

/-! ### The subtasks in order -/

section Order

variable (scope : ScopeEstimate)

def firstBuilder : Nat := if scope.needScientist then 2 else 1

def builderIndices : List Nat :=
  (List.range scope.buildersNeeded.toNat).map (firstBuilder scope + ·)

def guardianTestIdx : List Nat :=
  if 1 ≤ scope.guardiansNeeded then [firstBuilder scope + scope.buildersNeeded.toNat] else []

/-- What the last subtask depends on. -/
def consolDeps : List Nat :=
  builderIndices scope ++ (if scope.needScientist then [1] else []) ++ guardianTestIdx scope

/-- The subtasks before the last one. -/
def sections : List Subtask :=
  [planSubtask scope] ++ (if scope.needScientist then [scientistSubtask] else []) ++
    (List.range scope.buildersNeeded.toNat).map (builderSubtask 0) ++
    (if 1 ≤ scope.guardiansNeeded then [testsSubtask scope 0] else []) ++
    (if 2 ≤ scope.guardiansNeeded then [docsSubtask 0] else []) ++
    (if scope.needBugfix then [bugfixSubtask (builderIndices scope ++ guardianTestIdx scope)]
      else [])

end Order

private theorem addBuilders_eq (planIdx : Nat) (draft : Draft) (count : Nat) :
    addBuilders planIdx draft count =
      (⟨draft.subtasks ++ (List.range count).map (builderSubtask planIdx), draft.idx + count⟩,
        (List.range count).map (draft.idx + ·)) := by
  unfold addBuilders
  induction count with
  | zero => simp
  | succ count ih =>
    rw [List.range_succ, List.foldl_append, ih]
    simp [Draft.append, Nat.add_assoc]

private theorem generateSubtasks_eq (scope : ScopeEstimate) :
    generateSubtasks scope = sections scope ++ [consolidateSubtask (consolDeps scope)] := by
  have written : ∀ (draft : Draft) (wanted : Bool) (subtask : Subtask),
      (draft.appendIf wanted subtask).subtasks =
        draft.subtasks ++ if wanted then [subtask] else [] := by
    intro draft wanted subtask
    cases wanted with
    | false => exact (List.append_nil _).symm
    | true => rfl
  have start : (((Draft.empty.append (planSubtask scope)).appendIf scope.needScientist
      scientistSubtask).idx) = firstBuilder scope := by
    unfold firstBuilder
    cases scope.needScientist <;> rfl
  unfold generateSubtasks
  simp only [addBuilders_eq, written, start]
  unfold sections consolDeps guardianTestIdx builderIndices
  simp [Draft.append, Draft.empty]

/-- Every subtask of a list stands at an index that suits it, from `offset` on. -/
def Places (P : Nat → Subtask → Prop) (offset : Nat) (subtasks : List Subtask) : Prop :=
  ∀ (idx : Nat) (subtask : Subtask), subtasks[idx]? = some subtask → P (offset + idx) subtask

section Placing

variable {P : Nat → Subtask → Prop} {offset : Nat}

private theorem places_append {first second : List Subtask} :
    Places P offset (first ++ second) ↔
      Places P offset first ∧ Places P (offset + first.length) second := by
  constructor
  · intro placed
    constructor
    · intro idx subtask found
      apply placed idx subtask
      rw [List.getElem?_append_left (List.getElem?_eq_some_iff.mp found).1]
      exact found
    · intro idx subtask found
      rw [Nat.add_assoc]
      apply placed
      rwa [List.getElem?_append_right (Nat.le_add_right _ _), Nat.add_sub_cancel_left]
  · rintro ⟨early, late⟩ idx subtask found
    rw [List.getElem?_append] at found
    split_ifs at found with inFirst
    · exact early idx subtask found
    · have placed := late (idx - first.length) subtask found
      rwa [Nat.add_assoc, Nat.add_sub_cancel' (Nat.le_of_not_lt inFirst)] at placed

private theorem places_singleton {subtask : Subtask} : Places P offset
    [subtask] ↔ P offset subtask := by
  constructor
  · exact fun placed => placed 0 subtask rfl
  · intro suits idx other found
    rw [List.getElem?_singleton] at found
    split_ifs at found with first
    cases found
    rwa [first]

private theorem places_ite {wanted : Prop} [Decidable wanted] {subtask : Subtask} :
    Places P offset (if wanted then [subtask] else []) ↔ (wanted → P offset subtask) := by
  split_ifs with given
  · rw [places_singleton]
    exact ⟨fun suits _ => suits, fun suits => suits given⟩
  · refine iff_of_true (fun idx other found => ?_) fun impossible => absurd impossible given
    rw [List.getElem?_nil] at found
    cases found

private theorem places_map_range {count : Nat} {f : Nat → Subtask} :
    Places P offset ((List.range count).map f) ↔ ∀ i < count, P (offset + i) (f i) := by
  constructor
  · intro placed i small
    apply placed
    rw [List.getElem?_map, List.getElem?_range small]
    rfl
  · intro suits idx subtask found
    rw [List.getElem?_map] at found
    obtain ⟨i, listed, rfl⟩ := Option.map_eq_some_iff.mp found
    obtain ⟨small, same⟩ := List.getElem?_eq_some_iff.mp listed
    rw [List.getElem_range] at same
    rw [List.length_range] at small
    subst same
    exact suits _ small

end Placing

/-! ### Counts -/

section Counts

variable (scope : ScopeEstimate)

private theorem length_sections : (sections scope).length =
    firstBuilder scope + scope.buildersNeeded.toNat +
      (if 1 ≤ scope.guardiansNeeded then 1 else 0) + (if 2 ≤ scope.guardiansNeeded then 1 else 0) +
        (if scope.needBugfix then 1 else 0) := by
  unfold sections firstBuilder
  simp only [List.length_append, List.length_map, List.length_range, apply_ite List.length,
    List.length_singleton, List.length_nil]
  split_ifs <;> omega

private theorem count_builders :
    (generateSubtasks scope).countP (fun subtask => subtask.agent = .builder) =
      scope.buildersNeeded.toNat := by
  have builders : ∀ count : Nat, ((List.range count).map (builderSubtask 0)).countP
      (fun subtask => subtask.agent = .builder) = count := by
    intro count
    rw [List.countP_eq_length.mpr, List.length_map, List.length_range]
    intro subtask member
    obtain ⟨i, _, rfl⟩ := List.mem_map.mp member
    rfl
  rw [generateSubtasks_eq, sections]
  simp only [List.countP_append, builders, apply_ite (List.countP _)]
  simp [planSubtask, scientistSubtask, testsSubtask, docsSubtask, bugfixSubtask,
    consolidateSubtask]

private theorem count_guardians :
    (generateSubtasks scope).countP (fun subtask => subtask.agent = .guardian) =
      (if 1 ≤ scope.guardiansNeeded then 1 else 0) + (if 2 ≤ scope.guardiansNeeded then 1 else 0) +
        (if scope.needBugfix then 1 else 0) := by
  have builders : ∀ count : Nat, ((List.range count).map (builderSubtask 0)).countP
      (fun subtask => subtask.agent = .guardian) = 0 := by
    intro count
    apply List.countP_eq_zero.mpr
    intro subtask member
    obtain ⟨i, _, rfl⟩ := List.mem_map.mp member
    simp [builderSubtask]
  rw [generateSubtasks_eq, sections]
  simp only [List.countP_append, builders, apply_ite (List.countP _)]
  simp [planSubtask, scientistSubtask, testsSubtask, docsSubtask, bugfixSubtask,
    consolidateSubtask]

end Counts

/-! ### Dependencies -/

section Dependencies

variable {scope : ScopeEstimate}

private theorem mem_builderIndices {idx : Nat} : idx ∈ builderIndices scope ↔
    firstBuilder scope ≤ idx ∧ idx < firstBuilder scope + scope.buildersNeeded.toNat := by
  rw [builderIndices, List.mem_map]
  constructor
  · rintro ⟨i, small, rfl⟩
    rw [List.mem_range] at small
    omega
  · rintro ⟨low, high⟩
    exact ⟨idx - firstBuilder scope, List.mem_range.mpr (by omega), by omega⟩

private theorem mem_guardianTestIdx {idx : Nat} : idx ∈ guardianTestIdx scope ↔
    1 ≤ scope.guardiansNeeded ∧ idx = firstBuilder scope + scope.buildersNeeded.toNat := by
  unfold guardianTestIdx
  split_ifs with tested
  · rw [List.mem_singleton]
    exact ⟨fun same => ⟨tested, same⟩, fun both => both.2⟩
  · exact iff_of_false List.not_mem_nil fun both => tested both.1

private theorem mem_consolDeps {idx : Nat} : idx ∈ consolDeps scope ↔
    idx ∈ builderIndices scope ∨ (scope.needScientist = true ∧ idx = 1) ∨
      idx ∈ guardianTestIdx scope := by
  rw [consolDeps, List.mem_append, List.mem_append, or_assoc]
  apply or_congr_right
  apply or_congr_left
  split_ifs with asked <;> simp [asked]

private theorem firstBuilder_pos : 0 < firstBuilder scope := by
  unfold firstBuilder
  split_ifs <;> omega

private theorem places_generated {P : Nat → Subtask → Prop} (plan : P 0 (planSubtask scope))
    (scientist : scope.needScientist = true → P 1 scientistSubtask)
    (builder : ∀ i < scope.buildersNeeded.toNat, P (firstBuilder scope + i) (builderSubtask 0 i))
    (tests : 1 ≤ scope.guardiansNeeded →
      P (firstBuilder scope + scope.buildersNeeded.toNat) (testsSubtask scope 0))
    (docs : 2 ≤ scope.guardiansNeeded →
      P (firstBuilder scope + scope.buildersNeeded.toNat + 1) (docsSubtask 0))
    (bugfix : ∀ idx, firstBuilder scope + scope.buildersNeeded.toNat ≤ idx →
      (1 ≤ scope.guardiansNeeded → firstBuilder scope + scope.buildersNeeded.toNat < idx) →
        P idx (bugfixSubtask (builderIndices scope ++ guardianTestIdx scope)))
    (consolidate : P (sections scope).length (consolidateSubtask (consolDeps scope))) :
    ∀ (idx : Nat) (subtask : Subtask), (generateSubtasks scope)[idx]? = some subtask →
      P idx subtask := by
  have placed : Places P 0 (generateSubtasks scope) := by
    have head : ([planSubtask scope] ++
        if scope.needScientist then [scientistSubtask] else []).length = firstBuilder scope := by
      unfold firstBuilder
      split_ifs <;> rfl
    rw [generateSubtasks_eq, places_append, places_singleton, Nat.zero_add]
    refine ⟨?_, consolidate⟩
    unfold sections
    simp only [places_append, places_singleton, places_ite, places_map_range]
    rw [head, List.length_append, head, List.length_map, List.length_range]
    simp only [Nat.zero_add]
    refine ⟨⟨⟨⟨⟨plan, scientist⟩, builder⟩, tests⟩, fun documented => ?_⟩, fun _ => bugfix _ ?_ ?_⟩
    · have tested : 1 ≤ scope.guardiansNeeded := by omega
      rw [List.length_append, List.length_append, head, List.length_map, List.length_range,
        if_pos tested]
      exact docs documented
    · rw [List.length_append, List.length_append, List.length_append, head, List.length_map,
        List.length_range]
      omega
    · intro tested
      rw [List.length_append, List.length_append, List.length_append, head, List.length_map,
        List.length_range, if_pos tested, List.length_singleton]
      omega
  intro idx subtask found
  have suits := placed idx subtask found
  rwa [Nat.zero_add] at suits

private theorem backward_generated (scope : ScopeEstimate) : Backward (generateSubtasks scope) := by
  have first := @firstBuilder_pos scope
  have last := length_sections scope
  apply places_generated
  · exact fun dep needed => absurd needed List.not_mem_nil
  · exact fun _ dep needed => absurd needed List.not_mem_nil
  · intro i _ dep needed
    rw [List.mem_singleton.mp needed]
    omega
  · intro _ dep needed
    rw [List.mem_singleton.mp needed]
    omega
  · intro _ dep needed
    rw [List.mem_singleton.mp needed]
    omega
  · intro idx late later dep needed
    rcases List.mem_append.mp needed with built | tested
    · exact Nat.lt_of_lt_of_le (mem_builderIndices.mp built).2 late
    · obtain ⟨wanted, rfl⟩ := mem_guardianTestIdx.mp tested
      exact later wanted
  · intro dep needed
    rcases mem_consolDeps.mp needed with built | ⟨asked, rfl⟩ | tested
    · have early := (mem_builderIndices.mp built).2
      omega
    · have second : firstBuilder scope = 2 := if_pos asked
      omega
    · obtain ⟨wanted, rfl⟩ := mem_guardianTestIdx.mp tested
      rw [if_pos wanted] at last
      omega

private theorem deps_generated (scope : ScopeEstimate) (idx : Nat) (subtask : Subtask)
    (found : (generateSubtasks scope)[idx]? = some subtask)
    (kind : subtask.agent = .scientist ∨ subtask.agent = .builder ∨
      subtask = testsSubtask scope 0) : idx ∈ consolDeps scope := by
  have first := @firstBuilder_pos scope
  -- the bug fixer waits for no subtask at index 0, so it is not the tests
  have other : bugfixSubtask (builderIndices scope ++ guardianTestIdx scope) ≠
      testsSubtask scope 0 := by
    intro same
    have deps : builderIndices scope ++ guardianTestIdx scope = [0] :=
      congrArg Subtask.deps same
    have planned : 0 ∈ builderIndices scope ++ guardianTestIdx scope :=
      deps ▸ List.mem_singleton.mpr rfl
    rcases List.mem_append.mp planned with built | tested
    · have low := (mem_builderIndices.mp built).1
      omega
    · have low := (mem_guardianTestIdx.mp tested).2
      omega
  revert idx subtask
  apply places_generated
  · rintro (impossible | impossible | impossible)
    · cases impossible
    · cases impossible
    · cases congrArg Subtask.agent impossible
  · exact fun asked _ => mem_consolDeps.mpr (Or.inr (Or.inl ⟨asked, rfl⟩))
  · intro i small _
    apply mem_consolDeps.mpr
    exact Or.inl (mem_builderIndices.mpr ⟨Nat.le_add_right _ _, Nat.add_lt_add_left small _⟩)
  · intro wanted _
    exact mem_consolDeps.mpr (Or.inr (Or.inr (mem_guardianTestIdx.mpr ⟨wanted, rfl⟩)))
  · rintro _ (impossible | impossible | impossible)
    · cases impossible
    · cases impossible
    · cases congrArg Subtask.confidenceImpact impossible
  · rintro idx _ _ (impossible | impossible | impossible)
    · cases impossible
    · cases impossible
    · exact absurd impossible other
  · rintro (impossible | impossible | impossible)
    · cases impossible
    · cases impossible
    · cases congrArg Subtask.agent impossible

private theorem dependsOn_last {idx : Nat} (needed : idx ∈ consolDeps scope) :
    DependsOn (generateSubtasks scope) ((generateSubtasks scope).length - 1) idx := by
  refine ⟨consolidateSubtask (consolDeps scope), ?_, needed⟩
  rw [generateSubtasks_eq, List.length_append, List.length_singleton, Nat.add_sub_cancel,
    List.getElem?_concat_length]

end Dependencies

/-! ### Dynamic plans -/

private theorem exists_waits_for_plan {scope : ScopeEstimate}
    (some : 0 < scope.buildersNeeded ∨ 1 ≤ scope.guardiansNeeded) :
    ∃ subtask ∈ generateSubtasks scope, 0 ∈ subtask.deps ∧
      (subtask.agent = .scientist ∨ subtask.agent = .builder ∨
        subtask = testsSubtask scope 0) := by
  rw [generateSubtasks_eq, sections]
  rcases some with built | tested
  · have small : 0 ∈ List.range scope.buildersNeeded.toNat := List.mem_range.mpr (by omega)
    have listed := List.mem_map_of_mem (f := builderSubtask 0) small
    refine ⟨builderSubtask 0 0, ?_, List.mem_singleton.mpr rfl, Or.inr (Or.inl rfl)⟩
    simp only [List.mem_append]
    tauto
  · refine ⟨testsSubtask scope 0, ?_, List.mem_singleton.mpr rfl, Or.inr (Or.inr rfl)⟩
    rw [if_pos tested]
    simp only [List.mem_append, List.mem_singleton]
    tauto

/-- A dynamic plan counts its subtasks right up to two guardians, one more than
its agents, and its last subtask waits for the others that it depends on. -/
theorem generateSubtasks_joined (scope : ScopeEstimate) :
    Joined scope (generateSubtasks scope) where
  backward := backward_generated scope
  builders := by
    rw [count_builders]
    exact Int.toNat_eq_max _
  guardians := by
    intro low high
    rw [count_guardians]
    push_cast
    split_ifs <;> omega
  promised := by
    intro built low high
    have size : (generateSubtasks scope).length = (sections scope).length + 1 := by
      rw [generateSubtasks_eq, List.length_append, List.length_singleton]
    rw [size, length_sections, firstBuilder, ScopeEstimate.totalAgents]
    push_cast
    split_ifs <;> omega
  last := by
    refine ⟨consolDeps scope, ?_⟩
    rw [generateSubtasks_eq, List.getLast?_concat]
  joined := by
    intro idx subtask found kind
    exact Relation.TransGen.single (dependsOn_last (deps_generated scope idx subtask found kind))
  planned := by
    intro some
    obtain ⟨subtask, member, planned, kind⟩ := exists_waits_for_plan some
    obtain ⟨idx, found⟩ := List.mem_iff_getElem?.mp member
    have waits := Relation.TransGen.single
      (dependsOn_last (deps_generated scope idx subtask found kind))
    exact waits.tail ⟨subtask, found, planned⟩

/-- The default estimate has three agents and four subtasks. -/
theorem not_complete : ¬ ∀ scope, 0 ≤ scope.buildersNeeded → 0 ≤ scope.guardiansNeeded →
    Complete scope (generateSubtasks scope) := by
  intro complete
  have promised := (complete {} (by decide) (by decide)).promised
  exact absurd promised (by decide)

end Swarmind.Orchestrator.ScopeAnalyzer
