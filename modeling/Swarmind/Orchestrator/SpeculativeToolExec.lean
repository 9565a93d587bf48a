import Mathlib.Data.List.Induction
import Mathlib.Data.Rat.Init
import Swarmind.Library.Dict
import Swarmind.Library.Python
import Swarmind.Library.Runs

/-!
Owns tools that are run before they are asked for. Their results wait in a table until they are
confirmed, and nothing else takes them out: a result that no turn confirms is served in a later
one, when the tool may no longer give it.
-/

namespace Swarmind.Orchestrator.SpeculativeToolExec

open Swarmind.Library

def forbiddenTools : List String :=
  ["write", "write_file", "create", "delete", "remove", "update", "execute", "run", "send",
    "deploy", "publish", "commit", "push", "transfer", "pay", "buy", "sell"]

/-- Observed transitions between tools, with their counts. -/
structure PatternLearner where
  transitions : Dict String (Dict String Nat)
  totals : Dict String Nat

def PatternLearner.observe (learner : PatternLearner) (toolName : String) :
    Option String → PatternLearner
  | none => learner
  | some nextTool =>
    let counts := (learner.transitions.get? toolName).getD .empty
    ⟨learner.transitions.set toolName
        (counts.set nextTool ((counts.get? nextTool).getD 0 + 1)),
      learner.totals.set toolName ((learner.totals.get? toolName).getD 0 + 1)⟩

/-- More frequent tools first, and equally frequent ones by name. -/
def ranksBefore (first second : String × Nat) : Bool :=
  second.2 < first.2 || (second.2 = first.2 && first.1 ≤ second.1)

def PatternLearner.predict (learner : PatternLearner) (currentTool : String) (k : Nat) :
    List (String × ℚ) :=
  match learner.transitions.get? currentTool with
  | none => []
  | some counts =>
    let total := (learner.totals.get? currentTool).getD 0
    ((counts.entries.mergeSort ranksBefore).take k).map fun entry => (entry.1, entry.2 / total)

structure SpecStats where
  speculativeRuns : Nat := 0
  predictions : Nat := 0
  hits : Nat := 0
  misses : Nat := 0

/-- The executor; a result that is Python's `None` is `none`. -/
structure SpeculativeToolExecutor (V : Type) where
  learner : PatternLearner
  eligible : List String
  dryRun : Bool
  maxSpeculative : Int
  pending : Dict String (Option V)
  stats : SpecStats

variable {V Env : Type}

def SpeculativeToolExecutor.create (learner : PatternLearner) (eligible : List String)
    (dryRun : Bool) (maxSpeculative : Int) : SpeculativeToolExecutor V where
  learner := learner
  eligible := eligible.filter (· ∉ forbiddenTools)
  dryRun := dryRun
  maxSpeculative := maxSpeculative
  pending := .empty
  stats := {}

namespace SpeculativeToolExecutor

variable (self : SpeculativeToolExecutor V)

def isEligible (tool : String) : Bool :=
  if tool ∈ forbiddenTools then false else tool ∈ self.eligible

/-- The predictions; a negative limit cuts that many from their end. -/
def predict (currentTool : String) (k : Option Int) : List (String × ℚ) :=
  let limit := k.getD self.maxSpeculative
  let preds := self.learner.predict currentTool (max (limit * 2) 1).toNat
  let eligible := preds.filter fun pred => self.isEligible pred.1
  eligible.take (if 0 ≤ limit then limit.toNat else (eligible.length + limit).toNat)

/-- The tools that `run_speculative` calls. -/
def attempted (currentTool : String) : List String :=
  if self.dryRun then [] else (self.predict currentTool none).map Prod.fst

/-- A call of the executor on a predicted tool, with the results of the calls before. -/
def attempt (executor : String → Except PyException (Option V))
    (progress : SpeculativeToolExecutor V × Dict String (Option V)) (tool : String) :
    SpeculativeToolExecutor V × Dict String (Option V) :=
  match executor tool with
  | .error _ =>
    ({ progress.1 with stats.misses := progress.1.stats.misses + 1 }, progress.2)
  | .ok outcome =>
    ({ progress.1 with pending := progress.1.pending.set tool outcome },
      progress.2.set tool outcome)

def counted (currentTool : String) : SpeculativeToolExecutor V :=
  { self with
    stats.speculativeRuns := self.stats.speculativeRuns + 1
    stats.predictions := self.stats.predictions + (self.predict currentTool none).length }

def runSpeculative (currentTool : String) (executor : String → Except PyException (Option V)) :
    SpeculativeToolExecutor V × Dict String (Option V) :=
  (self.attempted currentTool).foldl (attempt executor) (self.counted currentTool, .empty)

def confirm (tool : String) : Option V × SpeculativeToolExecutor V :=
  let result := (self.pending.get? tool).join
  (result, { self with
    pending := self.pending.erase tool
    stats.hits := if result.isSome then self.stats.hits + 1 else self.stats.hits })

/-- A result that a confirmation would give. -/
def Holds (tool : String) (value : V) : Prop := self.pending.get? tool = some (some value)

private theorem confirm_eq_some_iff (tool : String) (value : V) :
    (self.confirm tool).1 = some value ↔ self.Holds tool value :=
  Option.join_eq_some_iff

end SpeculativeToolExecutor

/-! ### Turns in an environment -/

/-- The environment, the executor, and the results of the turn that are not yet confirmed. -/
structure World (Env V : Type) where
  env : Env
  executor : SpeculativeToolExecutor V
  turn : Dict String (Option V)

inductive Event (Env : Type) where
  | runSpeculative (currentTool : String)
  | confirm (tool : String)
  | observe (toolName : String) (nextTool : Option String)
  | change (env : Env)

variable (tools : Env → String → Except PyException (Option V))

/-- One event and what a confirmation gives. Speculation starts a turn. -/
def step (world : World Env V) : Event Env → Option V × World Env V
  | .runSpeculative currentTool =>
    let (executor, results) := world.executor.runSpeculative currentTool (tools world.env)
    (none, { world with executor := executor, turn := results })
  | .confirm tool =>
    let (result, executor) := world.executor.confirm tool
    (result, { world with executor := executor, turn := world.turn.erase tool })
  | .observe toolName nextTool =>
    (none, { world with
      executor.learner := world.executor.learner.observe toolName nextTool })
  | .change env => (none, { world with env := env })

def machine : Machine (World Env V) (Event Env) (Option V) where
  step := step tools

def start (learner : PatternLearner) (eligible : List String) (dryRun : Bool)
    (maxSpeculative : Int) (env : Env) : World Env V :=
  ⟨env, .create learner eligible dryRun maxSpeculative, .empty⟩

/-- Whatever is confirmed now is what the tool would give, was run in this turn, and is there if
it was. -/
structure Lossless (world : World Env V) : Prop where
  current : ∀ tool value, (world.executor.confirm tool).1 = some value →
    tools world.env tool = .ok (some value)
  discarded : ∀ tool value, (world.executor.confirm tool).1 = some value →
    tool ∈ world.turn.keys
  hits : ∀ tool ∈ world.turn.keys, (world.executor.confirm tool).1.isSome ∧
    (world.executor.confirm tool).2.stats.hits = world.executor.stats.hits + 1

/-- A turn starts when every result that is held is computed anew, and no tool gives `None`; the
environment changes the value of no tool whose result is held. -/
def Renews (world : World Env V) : Event Env → Prop
  | .runSpeculative currentTool =>
    (∀ tool value, world.executor.Holds tool value →
      tool ∈ world.executor.attempted currentTool ∧ (tools world.env tool).isOk) ∧
    ∀ tool ∈ world.executor.attempted currentTool, tools world.env tool ≠ .ok none
  | .change env => ∀ tool value, world.executor.Holds tool value →
    tools env tool = tools world.env tool
  | .confirm _ | .observe _ _ => True

section Steps

variable {tools} {world : World Env V}

private theorem lossless_iff_holds : Lossless tools world ↔
    (∀ tool value, world.executor.Holds tool value →
      tools world.env tool = .ok (some value) ∧ tool ∈ world.turn.keys) ∧
    ∀ tool ∈ world.turn.keys, ∃ value, world.executor.Holds tool value := by
  simp only [← SpeculativeToolExecutor.confirm_eq_some_iff]
  constructor
  · intro lossless
    refine ⟨fun tool value given => ⟨lossless.current tool value given,
      lossless.discarded tool value given⟩, fun tool among => ?_⟩
    exact Option.isSome_iff_exists.mp (lossless.hits tool among).1
  · rintro ⟨given, held⟩
    refine ⟨fun tool value result => (given tool value result).1,
      fun tool value result => (given tool value result).2, fun tool among => ?_⟩
    have some := Option.isSome_iff_exists.mpr (held tool among)
    refine ⟨some, ?_⟩
    show (if (world.executor.confirm tool).1.isSome then _ else _) = _
    rw [if_pos some]

/-- What the calls of the executor leave in the table and in the results. -/
theorem get?_foldl_attempt (executor : String → Except PyException (Option V))
    (attempts : List String) (self : SpeculativeToolExecutor V)
    (results : Dict String (Option V)) (tool : String) :
    let progress := attempts.foldl (SpeculativeToolExecutor.attempt executor) (self, results)
    (∀ outcome, tool ∈ attempts → executor tool = .ok outcome →
      progress.1.pending.get? tool = some outcome ∧ progress.2.get? tool = some outcome) ∧
    ((tool ∈ attempts → (executor tool).isOk = false) →
      progress.1.pending.get? tool = self.pending.get? tool ∧
        progress.2.get? tool = results.get? tool) := by
  induction attempts using List.reverseRecOn with
  | nil => exact ⟨nofun, fun _ => ⟨rfl, rfl⟩⟩
  | append_singleton attempts last ih =>
    obtain ⟨called, spared⟩ := ih
    rw [List.foldl_append, List.foldl_cons, List.foldl_nil]
    generalize attempts.foldl (SpeculativeToolExecutor.attempt executor) (self, results) =
      progress at called spared ⊢
    by_cases same : last = tool
    · subst same
      unfold SpeculativeToolExecutor.attempt
      cases answer : executor last with
      | error raised =>
        refine ⟨nofun, fun _ => spared fun _ => ?_⟩
        rw [answer]
        rfl
      | ok outcome =>
        refine ⟨?_, fun none => absurd (none (by simp)) (by simp [Except.isOk, Except.toBool])⟩
        rintro other _ ⟨⟩
        exact ⟨Dict.get?_set_self _ _ _, Dict.get?_set_self _ _ _⟩
    · have among : tool ∈ attempts ++ [last] ↔ tool ∈ attempts := by
        simp [Ne.symm same]
      rw [among]
      unfold SpeculativeToolExecutor.attempt
      cases executor last with
      | error raised => exact ⟨called, spared⟩
      | ok outcome =>
        simp only [Dict.get?_set_of_ne _ _ same]
        exact ⟨called, spared⟩

/-- A step into a turn keeps the results right exactly when it renews them. -/
theorem lossless_runSpeculative (currentTool : String) :
    Lossless tools (step tools world (.runSpeculative currentTool)).2 ↔
      Renews tools world (.runSpeculative currentTool) := by
  have called := fun tool outcome => (get?_foldl_attempt (tools world.env)
    (world.executor.attempted currentTool) (world.executor.counted currentTool) .empty tool).1
      outcome
  have spared := fun tool => (get?_foldl_attempt (tools world.env)
    (world.executor.attempted currentTool) (world.executor.counted currentTool) .empty tool).2
  rw [lossless_iff_holds]
  constructor
  · rintro ⟨given, held⟩
    constructor
    · intro tool value holds
      by_contra missed
      have kept := (spared tool fun among => by
        by_contra answers
        exact missed ⟨among, eq_true_of_ne_false answers⟩)
      obtain ⟨_, fresh⟩ := given tool value (kept.1.trans holds)
      obtain ⟨outcome, result⟩ := (Dict.mem_keys_iff _ _).mp fresh
      cases kept.2.symm.trans result
    · intro tool among nothing
      obtain ⟨stored, result⟩ := called tool none among nothing
      obtain ⟨value, holds⟩ := held tool ((Dict.mem_keys_iff _ _).mpr ⟨none, result⟩)
      cases stored.symm.trans holds
  · rintro ⟨renewed, something⟩
    have answered (tool : String) (touched : ¬ (tool ∈ world.executor.attempted currentTool →
        (tools world.env tool).isOk = false)) :
        ∃ value, tool ∈ world.executor.attempted currentTool ∧
          tools world.env tool = .ok (some value) := by
      obtain ⟨among, answers⟩ := Classical.not_imp.mp touched
      cases answer : tools world.env tool with
      | error raised => exact absurd (by rw [answer]; rfl) answers
      | ok outcome =>
        cases outcome with
        | none => exact absurd answer (something tool among)
        | some value => exact ⟨value, among, rfl⟩
    constructor
    · intro tool value holds
      by_cases touched : tool ∈ world.executor.attempted currentTool →
          (tools world.env tool).isOk = false
      · obtain ⟨among, answers⟩ := renewed tool value ((spared tool touched).1.symm.trans holds)
        rw [touched among] at answers
        cases answers
      · obtain ⟨outcome, among, answer⟩ := answered tool touched
        obtain ⟨stored, result⟩ := called tool (some outcome) among answer
        cases stored.symm.trans holds
        exact ⟨answer, (Dict.mem_keys_iff _ _).mpr ⟨_, result⟩⟩
    · intro tool fresh
      by_cases touched : tool ∈ world.executor.attempted currentTool →
          (tools world.env tool).isOk = false
      · obtain ⟨outcome, result⟩ := (Dict.mem_keys_iff _ _).mp fresh
        cases (spared tool touched).2.symm.trans result
      · obtain ⟨value, among, answer⟩ := answered tool touched
        exact ⟨value, (called tool (some value) among answer).1⟩

private theorem lossless_step (event : Event Env) (lossless : Lossless tools world) :
    Lossless tools ((machine tools).step world event).2 ↔ Renews tools world event := by
  cases event with
  | runSpeculative currentTool => exact lossless_runSpeculative currentTool
  | confirm tool =>
    refine iff_of_true (lossless_iff_holds.mpr ?_) trivial
    obtain ⟨given, held⟩ := lossless_iff_holds.mp lossless
    constructor
    · intro other value holds
      have different : tool ≠ other := by
        rintro rfl
        have erased : (world.executor.pending.erase tool).get? tool = some (some value) := holds
        rw [Dict.get?_erase, if_pos rfl] at erased
        cases erased
      have before : (world.executor.pending.erase tool).get? other = some (some value) := holds
      rw [Dict.get?_erase, if_neg different] at before
      obtain ⟨current, among⟩ := given other value before
      exact ⟨current, (Dict.mem_keys_erase _ _ _).mpr ⟨different, among⟩⟩
    · intro other among
      obtain ⟨different, earlier⟩ := (Dict.mem_keys_erase _ _ _).mp among
      obtain ⟨value, holds⟩ := held other earlier
      refine ⟨value, ?_⟩
      show (world.executor.pending.erase tool).get? other = _
      rw [Dict.get?_erase, if_neg different]
      exact holds
  | observe toolName nextTool =>
    exact iff_of_true ⟨lossless.current, lossless.discarded, lossless.hits⟩ trivial
  | change env =>
    obtain ⟨given, held⟩ := lossless_iff_holds.mp lossless
    constructor
    · intro after tool value holds
      rw [(given tool value holds).1]
      exact ((lossless_iff_holds.mp after).1 tool value holds).1
    · intro unchanged
      refine lossless_iff_holds.mpr ⟨fun tool value holds => ⟨?_, (given tool value holds).2⟩, held⟩
      exact (unchanged tool value holds).trans (given tool value holds).1

end Steps

private theorem lossless_start (learner : PatternLearner) (eligible : List String) (dryRun : Bool)
    (maxSpeculative : Int) (env : Env) :
    Lossless tools (start learner eligible dryRun maxSpeculative env) :=
  lossless_iff_holds.mpr ⟨nofun, nofun⟩

/-- The results of a run are lossless throughout exactly when each of its turns renews what is
held and its environment changes nothing that is. -/
theorem lossless_iff (learner : PatternLearner) (eligible : List String) (dryRun : Bool)
    (maxSpeculative : Int) (env : Env) (events : List (Event Env)) :
    (∀ before rest, events = before ++ rest → Lossless tools
        ((machine tools).after (start learner eligible dryRun maxSpeculative env) before)) ↔
      (machine tools).Along (Renews tools) (start learner eligible dryRun maxSpeculative env)
        events :=
  (machine tools).always_iff_along_of_exact (fun _ event => lossless_step event)
    (lossless_start tools learner eligible dryRun maxSpeculative env) events

/-- `search` is run after `read_file`, but the agent writes; it searches in its next turn. -/
theorem not_lossless_search :
    ¬ ∀ (tools : Nat → String → Except PyException (Option Nat)) (learner : PatternLearner)
      (eligible : List String) (events : List (Event Nat)),
      Lossless tools ((machine tools).after (start learner eligible false 2 0) events) := by
  intro always
  have lossless := always (fun env _ => .ok (some env))
    (PatternLearner.observe ⟨.empty, .empty⟩ "read_file" (some "search")) ["search"]
    [.runSpeculative "read_file", .change 1, .runSpeculative "write"]
  cases lossless.current "search" 0 (by decide +kernel)

/-! ### Policy -/

/-- A tool that may be run ahead: it is declared, without side effects, and the run is not dry. -/
def Allowed (eligible : List String) (dryRun : Bool) (tool : String) : Prop :=
  dryRun = false ∧ tool ∈ eligible ∧ tool ∉ forbiddenTools

/-- The executor has the values it was created with, and holds results of allowed tools only. -/
structure Permitted (eligible : List String) (dryRun : Bool)
    (executor : SpeculativeToolExecutor V) : Prop where
  declared : executor.eligible = eligible.filter (· ∉ forbiddenTools)
  mode : executor.dryRun = dryRun
  held : ∀ tool ∈ executor.pending.keys, Allowed eligible dryRun tool

section Policy

variable {eligible : List String} {dryRun : Bool} {tool : String}

private theorem Permitted.attempted {self : SpeculativeToolExecutor V}
    (permitted : Permitted eligible dryRun self) {currentTool : String}
    (among : tool ∈ self.attempted currentTool) : Allowed eligible dryRun tool := by
  rw [SpeculativeToolExecutor.attempted, permitted.mode] at among
  cases dryRun with
  | true => cases among
  | false =>
    obtain ⟨pred, member, rfl⟩ := List.mem_map.mp among
    have listed := (List.mem_filter.mp (List.mem_of_mem_take member)).2
    rw [SpeculativeToolExecutor.isEligible, permitted.declared] at listed
    split at listed
    · cases listed
    · next harmless =>
      exact ⟨rfl, (List.mem_filter.mp (of_decide_eq_true listed)).1, harmless⟩

private theorem Permitted.attempt {executor : String → Except PyException (Option V)}
    {progress : SpeculativeToolExecutor V × Dict String (Option V)}
    (permitted : Permitted eligible dryRun progress.1) (allowed : Allowed eligible dryRun tool) :
    Permitted eligible dryRun (SpeculativeToolExecutor.attempt executor progress tool).1 := by
  unfold SpeculativeToolExecutor.attempt
  cases executor tool with
  | error raised => exact { permitted with }
  | ok outcome =>
    refine { permitted with held := fun other among => ?_ }
    rcases (Dict.mem_keys_set _ _ _ _).mp among with rfl | before
    · exact allowed
    · exact permitted.held other before

private theorem Permitted.step {world : World Env V}
    (permitted : Permitted eligible dryRun world.executor)
    (event : Event Env) : Permitted eligible dryRun (step tools world event).2.executor := by
  cases event with
  | runSpeculative currentTool =>
    refine List.foldlRecOn (motive := fun progress : SpeculativeToolExecutor V × _ =>
      Permitted eligible dryRun progress.1) _ _ { permitted with } ?_
    exact fun _ before tool among => before.attempt (permitted.attempted among)
  | confirm tool =>
    exact { permitted with
      held := fun other among => permitted.held other ((Dict.mem_keys_erase _ _ _).mp among).2 }
  | observe toolName nextTool => exact { permitted with }
  | change env => exact permitted

end Policy

/-- In no run, whatever is observed and confirmed in it, a tool is run ahead or its result held that
is not allowed. -/
theorem permitted_after (learner : PatternLearner) (eligible : List String) (dryRun : Bool)
    (maxSpeculative : Int) (env : Env) (events : List (Event Env)) :
    let world := (machine tools).after (start learner eligible dryRun maxSpeculative env) events
    (∀ currentTool, ∀ tool ∈ world.executor.attempted currentTool,
        Allowed eligible dryRun tool) ∧
      ∀ tool ∈ world.executor.pending.keys, Allowed eligible dryRun tool := by
  have permitted := Machine.invariant_after
    (fun world : World Env V => Permitted eligible dryRun world.executor)
    (fun _ event permitted _ => permitted.step tools event)
    ⟨rfl, rfl, fun _ among => absurd among List.not_mem_nil⟩
    ((machine tools).along_of_forall (fun _ _ => trivial)
      (start learner eligible dryRun maxSpeculative env) events)
  exact ⟨fun _ _ => permitted.attempted, permitted.held⟩

end Swarmind.Orchestrator.SpeculativeToolExec
