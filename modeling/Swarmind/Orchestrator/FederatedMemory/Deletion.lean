import Swarmind.Orchestrator.FederatedMemory.Effects

/-!
Owns deletion in the federated memory. A deletion leaves no trace, and a record
that is stored again starts at version one, while peers keep the copies they have
and write them out again. A sync therefore respects a deletion exactly when no
peer's file holds the id in a version that the project would import.
-/

namespace Swarmind.Orchestrator.FederatedMemory

open Swarmind.Library

variable {ι C : Type} [DecidableEq ι]

/-- The id that a deletion of the project has removed. -/
def erasedIn (names : ι → String) (project : ι) :
    (ι × Call C) × Except PyException (Reply C) → Option String
  | ((caller, .deleteKnowledge key type), .ok (.deleted true)) =>
    if caller = project then some (recordId type (names project) key) else none
  | _ => none

/-- The ids for which `delete_knowledge` of the project has returned `True`. -/
def erasedBy (names : ι → String) (project : ι)
    (history : List ((ι × Call C) × Except PyException (Reply C))) : List String :=
  history.filterMap (erasedIn names project)

variable [LinearOrder C] [Zero C] (names : ι → String)

/-- Every sync leaves what its project holds under an id the project has deleted
before: nothing, or the record it has stored since. -/
def RespectsDeletion (calls : List (ι × Call C)) : Prop :=
  ∀ before project order rest, calls = before ++ (project, Call.sync order) :: rest →
    ∀ id ∈ erasedBy names project ((federation names).replies Federation.initial before),
      (((federation names).after Federation.initial
          (before ++ [(project, Call.sync order)])).stores project).get? id =
        (((federation names).after Federation.initial before).stores project).get? id

/-- No other file holds the id in a version above the one of the project. -/
def NoPeerAhead (state : Federation ι C) (project : ι) (id : String) : Prop :=
  ∀ name, name ≠ projectFile (names project) → ∀ record ∈ readFile state.dir name,
    record.id = id → ∃ existing, (state.stores project).get? id = some existing ∧
      record.version ≤ existing.version

private theorem sync_keeps_iff (state : Federation ι C) (project : ι) (order : List String)
    (id : String) :
    ((((federation names).step state (project, Call.sync order)).2.stores project).get? id =
        (state.stores project).get? id) ↔
      NoPeerAhead names state project id := by
  have merged : ((federation names).step state (project, Call.sync order)).2.stores project =
      (peerRecords (names project) state.dir order).foldl LocalStore.merge
        (state.stores project) :=
    (step_stores_self names state project (.sync order)).trans (sync_store ..)
  rw [merged]
  constructor
  · rintro kept name other record member rfl
    have seen := (mem_peerRecords (names project) state.dir order record).mpr
      ⟨name, other, member⟩
    obtain ⟨held, found, covers⟩ := LocalStore.foldl_merge_covers seen
    exact ⟨held, kept.symm.trans found, covers⟩
  · intro behind
    apply LocalStore.get?_foldl_merge_of_refused
    rintro record seen rfl imported
    obtain ⟨name, other, member⟩ := (mem_peerRecords _ _ _ record).mp seen
    obtain ⟨existing, found, older⟩ := behind name other record member rfl
    exact absurd ((LocalStore.imports_iff_newer found).mp imported) (not_lt.mpr older)

/-- A run respects deletions exactly when at every sync no peer is ahead on an id
that the project has deleted. -/
theorem respectsDeletion_iff (calls : List (ι × Call C)) :
    RespectsDeletion names calls ↔
      ∀ before project order rest, calls = before ++ (project, Call.sync order) :: rest →
        ∀ id ∈ erasedBy names project ((federation names).replies Federation.initial before),
          NoPeerAhead names ((federation names).after Federation.initial before) project id := by
  have step : ∀ before project order id,
      (((federation names).after Federation.initial
            (before ++ [(project, (Call.sync order : Call C))])).stores project).get? id =
          (((federation names).after Federation.initial before).stores project).get? id ↔
        NoPeerAhead names ((federation names).after Federation.initial before) project id := by
    intro before project order id
    rw [Machine.after_append, Machine.after_cons, Machine.after_nil]
    exact sync_keeps_iff names _ project order id
  constructor
  · intro respects before project order rest split id erased
    exact (step before project order id).mp (respects before project order rest split id erased)
  · intro behind before project order rest split id erased
    exact (step before project order id).mpr (behind before project order rest split id erased)

/-! ### Revived records -/

def storeOf (value : Int) : Call Int :=
  .storeKnowledge ⟨"k", .int value, .pattern, "system", [], 1, 0, 0, []⟩

/-- A peer syncs before the deletion. -/
def deletedRun : List (Bool × Call Int) :=
  [(false, storeOf 1), (true, .sync []), (false, .deleteKnowledge "k" .pattern)]

/-- A peer syncs before the deletion, and the owner stores the key again. -/
def recreatedRun : List (Bool × Call Int) :=
  [(false, storeOf 1), (false, storeOf 2), (true, .sync []),
    (false, .deleteKnowledge "k" .pattern), (false, storeOf 3)]

/-- In the first run a sync of the owner brings the deleted record back, in the
second one it replaces the new value by the old one. -/
theorem deletion_is_undone :
    ¬ RespectsDeletion (twoProjects "alpha" "beta") (deletedRun ++ [(false, Call.sync [])]) ∧
      ¬ RespectsDeletion (twoProjects "alpha" "beta") (recreatedRun ++ [(false, Call.sync [])]) := by
  constructor
  · intro respects
    have kept := respects deletedRun false [] [] rfl "pattern:alpha:k" List.mem_cons_self
    cases kept
  · intro respects
    have kept := respects recreatedRun false [] [] rfl "pattern:alpha:k" List.mem_cons_self
    have versions := congrArg (Option.map KnowledgeRecord.version) kept
    exact absurd versions (by decide)

end Swarmind.Orchestrator.FederatedMemory
