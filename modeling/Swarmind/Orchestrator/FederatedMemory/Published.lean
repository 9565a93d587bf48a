import Swarmind.Orchestrator.FederatedMemory.Effects

/-!
Owns the runs in which every value can be written and every project has a file
of its own. Then each file mirrors the store of its project, and what a project
imports are the copies the others hold.
-/

namespace Swarmind.Orchestrator.FederatedMemory

open Swarmind.Library

variable {ι C : Type}

/-- The call stores no value that JSON refuses. -/
def Call.Writable : Call C → Prop
  | .storeKnowledge request => request.value.stored.isSome
  | _ => True

/-! ### Copies -/

/-- What the project holds under the id, as it reads back. -/
def LocalStore.copy (store : LocalStore C) (id : String) : Option (KnowledgeRecord C) :=
  (store.get? id).bind KnowledgeRecord.reread

namespace LocalStore

variable {store : LocalStore C} {id : String}

theorem copy_of_get? {held : KnowledgeRecord C} (found : store.get? id = some held) :
    store.copy id = held.reread := by
  rw [copy, found, Option.bind_some]

variable {back : KnowledgeRecord C}

theorem exists_of_copy (held : store.copy id = some back) :
    ∃ record, store.get? id = some record ∧ record.reread = some back :=
  Option.bind_eq_some_iff.mp held

theorem id_of_copy (held : store.copy id = some back) : back.id = id := by
  obtain ⟨record, found, reads⟩ := exists_of_copy held
  exact (KnowledgeRecord.reread_id reads).trans (id_of_get? found)

theorem reread_of_copy (held : store.copy id = some back) : back.reread = some back := by
  obtain ⟨record, _, reads⟩ := exists_of_copy held
  exact KnowledgeRecord.reread_reread reads

theorem copy_put (record : KnowledgeRecord C) :
    (store.put record).copy id = if record.id = id then record.reread else store.copy id := by
  rw [copy, get?_put]
  split_ifs <;> rfl

end LocalStore

private theorem Mirrors.mem_iff_copy {records : List (KnowledgeRecord C)} {store : LocalStore C}
    (mirrors : Mirrors records store) (record : KnowledgeRecord C) :
    record ∈ records ↔ store.copy record.id = some record := by
  rw [mirrors, LocalStore.copy, Option.bind_eq_some_iff]

private theorem mirrors_written {store : LocalStore C} (saved : store.saved.isSome)
    (dir : Directory C)
    (name : String) : Mirrors (readFile (dir.set name store.saved) name) store := by
  obtain ⟨records, written⟩ := Option.isSome_iff_exists.mp saved
  rw [readFile_set_self, written]
  exact mirrors_of_saved written

/-! ### The invariant -/

section Invariant

variable (names : ι → String)

/-- The record can be written, and carries the id of its own project. -/
structure Sharable (record : KnowledgeRecord C) : Prop where
  writable : record.reread.isSome
  identified : record.Identified
  owned : ∃ owner, record.sourceProject = names owner

private theorem Sharable.reread {names : ι → String} {record back : KnowledgeRecord C}
    (sharable : Sharable names record) (reads : record.reread = some back) :
    Sharable names back where
  writable := by
    rw [KnowledgeRecord.reread_reread reads]
    rfl
  identified := sharable.identified.reread reads
  owned := by
    rw [((KnowledgeRecord.reread_eq_some_iff record back).mp reads).2]
    exact sharable.owned

/-- Files belong to projects and mirror their stores, and every record is sharable. -/
structure Published (state : Federation ι C) : Prop where
  listed : ∀ name record, record ∈ readFile state.dir name →
    ∃ project, name = projectFile (names project)
  mirrored : ∀ project,
    Mirrors (readFile state.dir (projectFile (names project))) (state.stores project)
  sharable : ∀ project id held, (state.stores project).get? id = some held →
    Sharable names held

theorem published_initial : Published names (Federation.initial : Federation ι C) where
  listed := by
    intro name record member
    cases member
  mirrored := by
    intro project record
    constructor
    · intro member
      cases member
    · rintro ⟨held, found, _⟩
      cases found
  sharable := by
    intro project id held found
    cases found

end Invariant

/-! ### What can be read -/

section Reading

variable {names : ι → String} {state : Federation ι C}

private theorem Published.read_sharable (published : Published names state) {name : String}
    {record : KnowledgeRecord C} (member : record ∈ readFile state.dir name) :
    Sharable names record := by
  obtain ⟨project, rfl⟩ := published.listed name record member
  obtain ⟨held, found, reads⟩ := (published.mirrored project record).mp member
  exact (published.sharable project _ held found).reread reads

/-- What a project loads from its own file is what it holds, as it reads back. -/
theorem Published.get?_loadLocal (published : Published names state) (project : ι) (id : String) :
    (loadLocal (names project) (state.stores project) state.dir).get? id =
      (state.stores project).copy id := by
  rw [loadLocal, (published.mirrored project).get?_load]
  cases found : (state.stores project).get? id with
  | none => simp [LocalStore.copy, found]
  | some held =>
    have writable := (published.sharable project id held found).writable
    obtain ⟨back, reads⟩ := Option.isSome_iff_exists.mp writable
    simp [LocalStore.copy, found, reads]

private theorem Published.get?_loadLocal_empty (published : Published names state) (project : ι)
    (id : String) :
    (loadLocal (names project) LocalStore.empty state.dir).get? id =
      (state.stores project).copy id := by
  rw [loadLocal, (published.mirrored project).get?_load, LocalStore.get?_empty, Option.or_none]
  rfl

theorem copy_of_get?_eq {store loaded : LocalStore C} {id : String}
    (same : loaded.get? id = store.copy id) : loaded.copy id = store.copy id := by
  rw [LocalStore.copy, same]
  cases copied : store.copy id with
  | none => rfl
  | some back => exact LocalStore.reread_of_copy copied

/-- The records of the peers are the copies of what their stores hold. -/
theorem Published.mem_peerRecords_iff (published : Published names state)
    (files : Function.Injective fun project => projectFile (names project)) (project : ι)
    (order : List String) (record : KnowledgeRecord C) :
    record ∈ peerRecords (names project) state.dir order ↔
      ∃ source, source ≠ project ∧ (state.stores source).copy record.id = some record := by
  rw [mem_peerRecords]
  constructor
  · rintro ⟨name, other, member⟩
    obtain ⟨source, rfl⟩ := published.listed name record member
    refine ⟨source, fun same => other (by rw [same]), ?_⟩
    exact ((published.mirrored source).mem_iff_copy record).mp member
  · rintro ⟨source, other, held⟩
    refine ⟨projectFile (names source), fun same => other (files same), ?_⟩
    exact ((published.mirrored source).mem_iff_copy record).mpr held

/-- The record a store leaves is sharable where its value can be written. -/
theorem Published.sharable_storedRecord (published : Published names state) (caller : ι)
    {request : StoreRequest C} (writable : request.value.stored.isSome) :
    Sharable names (storedRecord (names caller) (state.stores caller) request) := by
  have reads : (storedRecord (names caller) (state.stores caller) request).reread.isSome := by
    rw [KnowledgeRecord.reread_isSome, storedRecord_value]
    exact writable
  cases found : (state.stores caller).get? (recordId request.type (names caller) request.key) with
  | none =>
    refine ⟨reads, ?_, caller, ?_⟩
    · simp only [storedRecord, found, KnowledgeRecord.Identified]
    · simp only [storedRecord, found]
  | some existing =>
    have before := published.sharable caller _ existing found
    refine ⟨reads, ?_, ?_⟩
    · simp only [storedRecord, found]
      exact before.identified
    · simp only [storedRecord, found]
      exact before.owned

end Reading

/-! ### Steps -/

section Steps

variable [LinearOrder C] [Zero C] {names : ι → String} {state : Federation ι C} {call : Call C}

section

variable (published : Published names state)
include published

private theorem Published.outcome_sharable (caller : ι)
    (writable : call.Writable) {id : String} {held : KnowledgeRecord C}
    (found : (state.outcome names caller call).store.get? id = some held) :
    Sharable names held := by
  rcases origin_of_held found with before | ⟨name, member⟩ | ⟨request, rfl, rfl⟩
  · exact published.sharable caller id held before
  · exact published.read_sharable member
  · exact published.sharable_storedRecord caller writable

private theorem Published.outcome_saved (caller : ι)
    (writable : call.Writable) : (state.outcome names caller call).store.saved.isSome :=
  (saved_isSome_iff _).mpr fun _ _ found =>
    (published.outcome_sharable caller writable found).writable

theorem Published.store_answer (caller : ι)
    {request : StoreRequest C} (writable : (Call.storeKnowledge request).Writable) :
    (state.outcome names caller (.storeKnowledge request)).result =
      .ok (.stored (storedRecord (names caller) (state.stores caller) request)) := by
  have saved : ((state.stores caller).put
      (storedRecord (names caller) (state.stores caller) request)).saved.isSome :=
    published.outcome_saved caller writable
  change Except.map _ (Except.map _ (if _ then _ else _)) = _
  rw [if_pos saved]
  rfl

private theorem Published.outcome_mirrored (caller : ι)
    (writable : call.Writable) :
    Mirrors (readFile (state.outcome names caller call).dir (projectFile (names caller)))
      (state.outcome names caller call).store := by
  have saved := published.outcome_saved caller writable
  have loaded : ∀ store : LocalStore C,
      (∀ id, store.get? id = (state.stores caller).copy id) →
        Mirrors (readFile state.dir (projectFile (names caller))) store := by
    intro store same record
    rw [(published.mirrored caller).mem_iff_copy, ← copy_of_get?_eq (same record.id),
      LocalStore.copy, Option.bind_eq_some_iff]
  cases call with
  | construct => exact loaded _ (published.get?_loadLocal_empty caller)
  | storeKnowledge request => exact mirrors_written saved _ _
  | deleteKnowledge key type =>
    simp only [Federation.outcome, perform, Outcome.reply, deleteKnowledge] at saved ⊢
    split_ifs at saved ⊢
    · exact mirrors_written saved _ _
    · exact published.mirrored caller
  | queryKnowledge query => exact loaded _ (published.get?_loadLocal caller)
  | getKnowledge key type now => exact loaded _ (published.get?_loadLocal caller)
  | sync order => exact mirrors_written saved _ _
  | clear => exact mirrors_written saved _ _

end

variable [DecidableEq ι]

/-- Every call keeps the files the copies of the stores. -/
theorem Published.step (published : Published names state)
    (files : Function.Injective fun project => projectFile (names project)) (caller : ι)
    (writable : call.Writable) :
    Published names ((federation names).step state (caller, call)).2 where
  listed := by
    intro name record member
    by_cases own : projectFile (names caller) = name
    · exact ⟨caller, own.symm⟩
    · rw [step_readFile_of_ne names state caller call own] at member
      exact published.listed name record member
  mirrored := by
    intro project
    by_cases same : project = caller
    · subst same
      rw [step_stores_self]
      exact published.outcome_mirrored project writable
    · rw [step_stores_of_ne _ _ _ _ same,
        step_readFile_of_ne _ _ _ _ fun equal => same (files equal).symm]
      exact published.mirrored project
  sharable := by
    intro project id held found
    by_cases same : project = caller
    · subst same
      rw [step_stores_self] at found
      exact published.outcome_sharable project writable found
    · rw [step_stores_of_ne _ _ _ _ same] at found
      exact published.sharable project id held found

/-- In every run of writable calls, the files are copies of the stores. -/
theorem published_after (files : Function.Injective fun project => projectFile (names project))
    {calls : List (ι × Call C)} (writable : ∀ call ∈ calls, call.2.Writable) :
    Published names ((federation names).after Federation.initial calls) :=
  Machine.invariant_after (Published names)
    (fun _ action published => published.step files action.1) (published_initial names)
    ((federation names).along_of_mem writable Federation.initial)

end Steps

end Swarmind.Orchestrator.FederatedMemory
