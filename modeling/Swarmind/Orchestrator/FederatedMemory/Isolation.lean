import Swarmind.Orchestrator.FederatedMemory.Published

/-!
Owns the isolation of two projects over one directory. File names fold blanks and
slashes, and ids join the project and the key by a colon, so two projects are
isolated exactly when their folded names differ and neither name followed by a
colon begins the other.
-/

namespace Swarmind.Orchestrator.FederatedMemory

open Swarmind.Library

/-! ### Names -/

/-- The outer name and a colon begin the inner name. -/
def Nested (outer inner : String) : Prop := (outer ++ ":").toList <+: inner.toList

instance (outer inner : String) : Decidable (Nested outer inner) :=
  inferInstanceAs (Decidable (_ <+: _))

private theorem nested_iff (outer inner : String) :
    Nested outer inner ↔ ∃ rest, inner.toList = outer.toList ++ ':' :: rest := by
  have colon : ":".toList = [':'] := rfl
  simp only [Nested, List.IsPrefix, String.toList_append, colon, List.append_assoc,
    List.singleton_append, eq_comm]

/-- Ids of the same type are equal exactly when the names, the colons and the keys
are the same text. -/
theorem recordId_eq_iff_append (type : KnowledgeType) (project other key otherKey : String) :
    recordId type project key = recordId type other otherKey ↔
      project.toList ++ ':' :: key.toList = other.toList ++ ':' :: otherKey.toList := by
  have colon : ":".toList = [':'] := rfl
  rw [recordId_eq_iff, ← String.toList_inj]
  simp only [String.toList_append, colon, List.append_assoc, List.singleton_append, true_and]

private theorem nested_of_longer {project other : String} (different : project ≠ other)
    {rest key otherKey : List Char} (longer : other.toList = project.toList ++ rest)
    (heads : ':' :: key = rest ++ ':' :: otherKey) : Nested project other := by
  cases rest with
  | nil =>
    rw [List.append_nil] at longer
    exact absurd (String.toList_inj.mp longer).symm different
  | cons head rest =>
    have colon : ':' = head := (List.cons.inj heads).1
    exact (nested_iff project other).mpr ⟨rest, colon ▸ longer⟩

private theorem exists_keys_of_nested {project other : String} (nested : Nested project other)
    (type : KnowledgeType) :
    ∃ key otherKey, recordId type project key = recordId type other otherKey := by
  obtain ⟨rest, longer⟩ := (nested_iff project other).mp nested
  have empty : "".toList = [] := rfl
  refine ⟨String.ofList (rest ++ [':']), "", ?_⟩
  rw [recordId_eq_iff_append, longer, String.toList_ofList, empty]
  simp

private theorem shares_id_iff {project other : String} (different : project ≠ other)
    (type : KnowledgeType) :
    (∃ key otherKey, recordId type project key = recordId type other otherKey) ↔
      Nested project other ∨ Nested other project := by
  constructor
  · rintro ⟨key, otherKey, same⟩
    rw [recordId_eq_iff_append] at same
    rcases List.append_eq_append_iff.mp same with ⟨rest, longer, heads⟩ | ⟨rest, longer, heads⟩
    · exact Or.inl (nested_of_longer different longer heads)
    · exact Or.inr (nested_of_longer different.symm longer heads)
  · rintro (nested | nested)
    · exact exists_keys_of_nested nested type
    · obtain ⟨key, otherKey, same⟩ := exists_keys_of_nested nested type
      exact ⟨otherKey, key, same.symm⟩

/-! ### Isolated projects -/

/-- A store of a value that can be written, a deletion, a query or a sync. -/
def Call.Works {C : Type} : Call C → Prop
  | .storeKnowledge request => request.value.stored.isSome
  | .deleteKnowledge _ _ => True
  | .queryKnowledge _ => True
  | .getKnowledge _ _ _ => True
  | .sync _ => True
  | _ => False

private theorem Call.Works.writable {C : Type} {call : Call C} (works : call.Works) :
    call.Writable := by
  cases call with
  | storeKnowledge request => exact works
  | construct => trivial
  | deleteKnowledge key type => trivial
  | queryKnowledge query => trivial
  | getKnowledge key type now => trivial
  | sync order => trivial
  | clear => trivial

/-- The record under the id that a query of the project goes through. -/
def Federation.reads {ι C : Type} (names : ι → String) (state : Federation ι C) (project : ι)
    (id : String) : Option (KnowledgeRecord C) :=
  (loadLocal (names project) (state.stores project) state.dir).get? id

/-- The projects have different files and ids, and no call of one changes what the
other reads, nor, where all values can be written, what it reads after its next
sync under the id of a record it has stored. -/
structure Isolated (C : Type) [LinearOrder C] [Zero C] (first second : String) : Prop where
  files : projectFile first ≠ projectFile second
  ids : ∀ (project other : Bool) type otherType key otherKey,
    recordId type (twoProjects first second project) key =
        recordId otherType (twoProjects first second other) otherKey →
      type = otherType ∧ twoProjects first second project = twoProjects first second other ∧
        key = otherKey
  reads : ∀ (calls : List (Bool × Call C)) project id (call : Call C),
    let names := twoProjects first second
    let state := (federation names).after Federation.initial calls
    ((federation names).step state (!project, call)).2.reads names project id =
      state.reads names project id
  syncs : ∀ calls : List (Bool × Call C), (∀ call ∈ calls, call.2.Works) →
    ∀ project type key held,
      (((federation (twoProjects first second)).after Federation.initial calls).stores
        project).get? (recordId type (twoProjects first second project) key) = some held →
      held.sourceProject = twoProjects first second project →
      ∀ call : Call C, call.Works → ∀ order,
        let names := twoProjects first second
        let id := recordId type (names project) key
        let state := (federation names).after Federation.initial calls
        let next := ((federation names).step state (!project, call)).2
        ((federation names).step next (project, .sync order)).2.reads names project id =
          ((federation names).step state (project, .sync order)).2.reads names project id

/-! ### The other project's calls -/

section OtherCalls

variable {C : Type} [LinearOrder C] [Zero C] {names : Bool → String} {state : Federation Bool C}
variable {project : Bool} {id : String}

omit [LinearOrder C] [Zero C] in
private theorem Published.mem_peerRecords_two (published : Published names state)
    (files : Function.Injective fun project => projectFile (names project)) (order : List String)
    (record : KnowledgeRecord C) :
    record ∈ peerRecords (names project) state.dir order ↔
      (state.stores (!project)).copy record.id = some record := by
  rw [published.mem_peerRecords_iff files]
  constructor
  · rintro ⟨source, other, copied⟩
    rwa [Bool.eq_not_of_ne other] at copied
  · intro copied
    exact ⟨!project, Bool.not_ne_self project, copied⟩

omit [LinearOrder C] [Zero C] in
private theorem copy_foldl_merge {store : LocalStore C} {records : List (KnowledgeRecord C)}
    {source : Option (KnowledgeRecord C)}
    (single : ∀ record ∈ records, record.id = id →
      source = some record ∧ record.reread = some record) :
    (records.foldl LocalStore.merge store).copy id = store.copy id ∨
      ∃ back, source = some back ∧ (records.foldl LocalStore.merge store).copy id = some back ∧
        ∀ existing, store.copy id = some existing → existing.version < back.version := by
  cases found : store.get? id with
  | none =>
    cases merged : (records.foldl LocalStore.merge store).get? id with
    | none =>
      left
      rw [LocalStore.copy, LocalStore.copy, found, merged]
    | some record =>
      rcases LocalStore.mem_of_get?_foldl_merge merged with before | member
      · exact absurd (before.symm.trans found) (by simp)
      · obtain ⟨same, reads⟩ := single record member (LocalStore.id_of_get? merged)
        refine Or.inr ⟨record, same, (LocalStore.copy_of_get? merged).trans reads, ?_⟩
        intro existing copied
        rw [LocalStore.copy, found] at copied
        cases copied
  | some existing =>
    rcases LocalStore.foldl_merge_grows records found with kept | ⟨record, member, rises, taken⟩
    · left
      rw [LocalStore.copy_of_get? kept, LocalStore.copy_of_get? found]
    · obtain ⟨same, reads⟩ := single record member (LocalStore.id_of_get? taken)
      refine Or.inr ⟨record, same, (LocalStore.copy_of_get? taken).trans reads, ?_⟩
      intro back copied
      rw [LocalStore.copy_of_get? found] at copied
      rw [KnowledgeRecord.reread_version copied]
      exact rises

private theorem Published.copy_after_call (published : Published names state)
    (files : Function.Injective fun project => projectFile (names project))
    (foreign : ∀ type key, recordId type (names (!project)) key ≠ id) {call : Call C}
    (works : call.Works) :
    let next := ((federation names).step state (!project, call)).2
    (next.stores (!project)).copy id = (state.stores (!project)).copy id ∨
      ∃ back, (state.stores project).copy id = some back ∧
        (next.stores (!project)).copy id = some back ∧
        ∀ existing, (state.stores (!project)).copy id = some existing →
          existing.version < back.version := by
  intro next
  have left : next.stores (!project) = (state.outcome names (!project) call).store :=
    step_stores_self names state (!project) call
  rw [left]
  cases call with
  | storeKnowledge request =>
    left
    have other : (storedRecord (names (!project)) (state.stores (!project)) request).id ≠ id :=
      (storedRecord_id ..).symm ▸ foreign request.type request.key
    change ((state.stores (!project)).put _).copy id = _
    rw [LocalStore.copy_put, if_neg other]
  | deleteKnowledge key type =>
    left
    simp only [Federation.outcome, perform, Outcome.reply, deleteKnowledge]
    split_ifs
    · change ((state.stores (!project)).drop _).copy id = _
      rw [LocalStore.copy, LocalStore.get?_drop, if_neg (foreign type key)]
      rfl
    · rfl
  | queryKnowledge query => exact Or.inl (copy_of_get?_eq (published.get?_loadLocal _ id))
  | getKnowledge key type now => exact Or.inl (copy_of_get?_eq (published.get?_loadLocal _ id))
  | sync order =>
    have merged : (state.outcome names (!project) (.sync order)).store =
        (peerRecords (names (!project)) state.dir order).foldl LocalStore.merge
          (state.stores (!project)) := sync_store ..
    rw [merged]
    apply copy_foldl_merge
    rintro record member rfl
    have copied := (published.mem_peerRecords_two files order record).mp member
    rw [Bool.not_not] at copied
    exact ⟨copied, LocalStore.reread_of_copy copied⟩
  | construct => cases works
  | clear => cases works

private theorem Published.copy_after_sync_of_le (published : Published names state)
    (files : Function.Injective fun project => projectFile (names project)) (order : List String)
    {held : KnowledgeRecord C} (found : (state.stores project).get? id = some held)
    (older : ∀ other, (state.stores (!project)).copy id = some other →
      other.version ≤ held.version) :
    (((federation names).step state (project, Call.sync order)).2.stores project).copy id =
      (state.stores project).copy id := by
  have merged : ((federation names).step state (project, Call.sync order)).2.stores project =
      (peerRecords (names project) state.dir order).foldl LocalStore.merge
        (state.stores project) :=
    (step_stores_self names state project (.sync order)).trans (sync_store ..)
  rw [merged, LocalStore.copy, LocalStore.get?_foldl_merge_of_refused, LocalStore.copy]
  rintro record member rfl imported
  have copied := (published.mem_peerRecords_two files order record).mp member
  exact absurd ((LocalStore.imports_iff_newer found).mp imported)
    (not_lt.mpr (older record copied))

private theorem Published.copy_after_sync_of_lt (published : Published names state)
    (files : Function.Injective fun project => projectFile (names project)) (order : List String)
    {held other : KnowledgeRecord C} (found : (state.stores project).get? id = some held)
    (copied : (state.stores (!project)).copy id = some other)
    (newer : held.version < other.version) :
    (((federation names).step state (project, Call.sync order)).2.stores project).copy id =
      some other := by
  have merged : ((federation names).step state (project, Call.sync order)).2.stores project =
      (peerRecords (names project) state.dir order).foldl LocalStore.merge
        (state.stores project) :=
    (step_stores_self names state project (.sync order)).trans (sync_store ..)
  have named := LocalStore.id_of_copy copied
  have seen := (published.mem_peerRecords_two files order other).mpr (named.symm ▸ copied)
  obtain ⟨last, present, covers⟩ := LocalStore.foldl_merge_covers seen
  rw [named] at present
  rw [merged]
  rcases LocalStore.foldl_merge_grows _ found with kept | ⟨record, member, _, taken⟩
  · rw [Option.some.inj (kept.symm.trans present)] at newer
    exact absurd covers (not_le.mpr newer)
  · have same := (published.mem_peerRecords_two files order record).mp member
    rw [LocalStore.id_of_get? taken, copied] at same
    rw [LocalStore.copy_of_get? taken, ← Option.some.inj same]
    exact LocalStore.reread_of_copy copied

private theorem reads_after_call
    (files : Function.Injective fun project => projectFile (names project)) (call : Call C) :
    ((federation names).step state (!project, call)).2.reads names project id =
      state.reads names project id := by
  have own : projectFile (names (!project)) ≠ projectFile (names project) :=
    fun same => Bool.not_ne_self project (files same)
  rw [Federation.reads, Federation.reads, loadLocal, loadLocal,
    step_stores_of_ne names state (!project) call (Bool.not_ne_self project).symm,
    step_readFile_of_ne names state (!project) call own]

private theorem Published.reads_after_sync (published : Published names state)
    (files : Function.Injective fun project => projectFile (names project))
    (foreign : ∀ type key, recordId type (names (!project)) key ≠ id)
    {held : KnowledgeRecord C} (found : (state.stores project).get? id = some held)
    {call : Call C} (works : call.Works) (order : List String) :
    let next := ((federation names).step state (!project, call)).2
    ((federation names).step next (project, .sync order)).2.reads names project id =
      ((federation names).step state (project, .sync order)).2.reads names project id := by
  intro next
  have publishedNext : Published names next := published.step files (!project) works.writable
  have same : next.stores project = state.stores project :=
    step_stores_of_ne names state (!project) call (Bool.not_ne_self project).symm
  have foundNext : (next.stores project).get? id = some held := same ▸ found
  have synced : ∀ {current : Federation Bool C}, Published names current →
      ((federation names).step current (project, .sync order)).2.reads names project id =
        (((federation names).step current (project, Call.sync order)).2.stores project).copy id :=
    fun before =>
      have writable : (Call.sync order : Call C).Writable := trivial
      Published.get?_loadLocal (before.step files project writable) project id
  rw [synced publishedNext, synced published]
  rcases published.copy_after_call files foreign works with kept | ⟨back, own, taken, newer⟩
  · by_cases ahead : ∃ other, (state.stores (!project)).copy id = some other ∧
        held.version < other.version
    · obtain ⟨other, copied, rises⟩ := ahead
      rw [publishedNext.copy_after_sync_of_lt files order foundNext (kept.trans copied) rises,
        published.copy_after_sync_of_lt files order found copied rises]
    · have older : ∀ other, (state.stores (!project)).copy id = some other →
          other.version ≤ held.version :=
        fun other copied => not_lt.mp fun rises => ahead ⟨other, copied, rises⟩
      rw [publishedNext.copy_after_sync_of_le files order foundNext
          fun other copied => older other (kept.symm.trans copied),
        published.copy_after_sync_of_le files order found older, same]
  · have version : back.version = held.version := by
      rw [LocalStore.copy_of_get? found] at own
      exact KnowledgeRecord.reread_version own
    rw [publishedNext.copy_after_sync_of_le files order foundNext ?_,
      published.copy_after_sync_of_le files order found ?_, same]
    · intro other copied
      exact version ▸ (newer other copied).le
    · intro other copied
      rw [show (next.stores (!project)).copy id = some back from taken] at copied
      rw [← Option.some.inj copied, version]

end OtherCalls

/-! ### When projects are isolated -/

section Main

variable {first second : String}

private theorem twoProjects_files (apart : projectFile first ≠ projectFile second) :
    Function.Injective fun project => projectFile (twoProjects first second project) := by
  intro project other same
  cases project <;> cases other
  · rfl
  · exact absurd same apart
  · exact absurd same.symm apart
  · rfl

private theorem separated (notInside : ¬ Nested first second) (notOutside : ¬ Nested second first)
    (project other : Bool) (type otherType : KnowledgeType) (key otherKey : String)
    (same : recordId type (twoProjects first second project) key =
      recordId otherType (twoProjects first second other) otherKey) :
    type = otherType ∧ twoProjects first second project = twoProjects first second other ∧
      key = otherKey := by
  obtain ⟨rfl, rest⟩ := (recordId_eq_iff ..).mp same
  by_cases equal : twoProjects first second project = twoProjects first second other
  · rw [equal, ← String.toList_inj] at rest
    simp only [String.toList_append, List.append_cancel_left_eq] at rest
    exact ⟨rfl, equal, String.toList_inj.mp rest⟩
  · have nested := (shares_id_iff equal type).mp ⟨key, otherKey, same⟩
    cases project <;> cases other
    · exact absurd rfl equal
    · exact (nested.elim notInside notOutside).elim
    · exact (nested.elim notOutside notInside).elim
    · exact absurd rfl equal

/-- Two projects are isolated exactly when their file names stay apart and neither
name is nested in the other. -/
theorem isolated_iff (C : Type) [LinearOrder C] [Zero C] (first second : String) :
    Isolated C first second ↔
      safeName first ≠ safeName second ∧ ¬ Nested first second ∧ ¬ Nested second first := by
  constructor
  · intro isolated
    have names : first ≠ second := fun same => isolated.files (congrArg projectFile same)
    have apart : ¬ (Nested first second ∨ Nested second first) := by
      intro nested
      obtain ⟨key, otherKey, same⟩ := (shares_id_iff names .pattern).mpr nested
      exact names (isolated.ids false true .pattern .pattern key otherKey same).2.1
    rw [not_or] at apart
    exact ⟨fun same => isolated.files ((projectFile_eq_iff first second).mpr same), apart⟩
  · rintro ⟨folded, notInside, notOutside⟩
    have names : first ≠ second := fun same => folded (congrArg safeName same)
    have apart : projectFile first ≠ projectFile second :=
      fun same => folded ((projectFile_eq_iff first second).mp same)
    have files := twoProjects_files apart
    refine ⟨apart, separated notInside notOutside,
      fun _ _ _ call => reads_after_call files call, ?_⟩
    intro calls works project type key held found _ call callWorks order
    have published := published_after files fun call member => (works call member).writable
    apply published.reads_after_sync files _ found callWorks
    intro otherType otherKey same
    have equal := (separated notInside notOutside _ _ _ _ _ _ same).2.1
    cases project
    · exact names equal.symm
    · exact names equal

end Main

/-- The first names share a file, the second ones share ids. -/
theorem different_projects_not_isolated :
    ("my app" ≠ "my_app" ∧ ¬ Isolated Int "my app" "my_app") ∧
      ("team" ≠ "team:ui" ∧ ¬ Isolated Int "team" "team:ui") := by
  refine ⟨⟨by decide, fun isolated => isolated.files (by decide)⟩, by decide, fun isolated => ?_⟩
  have same := isolated.ids false true .pattern .pattern "ui:k" "k" (by decide)
  exact absurd same.2.1 (by decide)

end Swarmind.Orchestrator.FederatedMemory
