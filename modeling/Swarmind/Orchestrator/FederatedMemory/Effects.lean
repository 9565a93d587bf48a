import Swarmind.Orchestrator.FederatedMemory.Federation

/-!
Owns what the calls of the federated memory change. A call changes the store of
its caller and at most the file of its caller, which then mirrors that store.
Loading reads a mirror back, and a merge keeps under every id the copy it has
or a later version of a peer.
-/

namespace Swarmind.Orchestrator.FederatedMemory

open Swarmind.Library

variable {C : Type}

/-! ### Local stores -/

namespace LocalStore

variable (store : LocalStore C)

@[simp] theorem get?_empty (id : String) : (empty : LocalStore C).get? id = none := rfl

theorem get?_put (record : KnowledgeRecord C) (id : String) :
    (store.put record).get? id = if record.id = id then some record else store.get? id :=
  store.records.get?_set record.id id record

@[simp] theorem get?_put_self (record : KnowledgeRecord C) :
    (store.put record).get? record.id = some record := by
  rw [get?_put, if_pos rfl]

variable {record : KnowledgeRecord C} {id : String}

theorem get?_put_of_ne (different : record.id ≠ id) :
    (store.put record).get? id = store.get? id := by
  rw [get?_put, if_neg different]

theorem get?_drop (id other : String) :
    (store.drop id).get? other = if id = other then none else store.get? other :=
  store.records.get?_erase id other

variable {store}

theorem id_of_get? (found : store.get? id = some record) : record.id = id :=
  store.keyed id record found

/-! ### Merging -/

variable (store) in
/-- The store after one record of a peer. -/
def merge (record : KnowledgeRecord C) : LocalStore C :=
  if store.imports record then store.put record else store

private theorem fst_foldl_mergeRecord (records : List (KnowledgeRecord C))
    (merged : LocalStore C × Nat) :
    (records.foldl mergeRecord merged).1 = records.foldl merge merged.1 := by
  induction records generalizing merged with
  | nil => rfl
  | cons record rest ih =>
    have head : (mergeRecord merged record).1 = merged.1.merge record := by
      unfold mergeRecord merge
      split_ifs <;> rfl
    rw [List.foldl_cons, List.foldl_cons, ih, head]

theorem imports_of_none (absent : store.get? record.id = none) : store.imports record = true := by
  simp [imports, absent]

/-- A record that is held is replaced by a newer version alone. -/
theorem imports_iff_newer {record existing : KnowledgeRecord C}
    (found : store.get? record.id = some existing) :
    store.imports record = true ↔ existing.version < record.version := by
  simp [imports, found]

theorem merge_of_imports (newer : store.imports record = true) :
    store.merge record = store.put record := if_pos newer

private theorem merge_of_not_imports (older : ¬ store.imports record = true) :
    store.merge record = store := if_neg older

theorem get?_foldl_merge_of_refused {records : List (KnowledgeRecord C)}
    (refused : ∀ record ∈ records, record.id = id → ¬ store.imports record = true) :
    (records.foldl merge store).get? id = store.get? id := by
  induction records generalizing store with
  | nil => rfl
  | cons record rest ih =>
    rw [List.forall_mem_cons] at refused
    have kept : (store.merge record).get? id = store.get? id := by
      unfold merge
      split_ifs with newer
      · exact get?_put_of_ne store fun same => refused.1 same newer
      · rfl
    rw [List.foldl_cons, ih, kept]
    intro other member same newer
    refine refused.2 other member same ?_
    rwa [imports, same, ← kept, ← same]

/-- A merge never goes back to an older version. -/
theorem foldl_merge_grows (records : List (KnowledgeRecord C))
    {existing : KnowledgeRecord C} (found : store.get? id = some existing) :
    (records.foldl merge store).get? id = some existing ∨
      ∃ record ∈ records, existing.version < record.version ∧
        (records.foldl merge store).get? id = some record := by
  induction records generalizing store existing with
  | nil => exact Or.inl found
  | cons record rest ih =>
    rw [List.foldl_cons]
    by_cases newer : record.id = id ∧ store.imports record = true
    · obtain ⟨rfl, imported⟩ := newer
      have later : existing.version < record.version := (imports_iff_newer found).mp imported
      have put : (store.merge record).get? record.id = some record := by
        rw [merge_of_imports imported, get?_put_self]
      rcases ih put with kept | ⟨other, member, rises, replaced⟩
      · exact Or.inr ⟨record, List.mem_cons_self, later, kept⟩
      · exact Or.inr ⟨other, List.mem_cons_of_mem _ member, later.trans rises, replaced⟩
    · have same : (store.merge record).get? id = some existing := by
        unfold merge
        split_ifs with imported
        · rw [get?_put_of_ne store fun named => newer ⟨named, imported⟩, found]
        · exact found
      rcases ih same with kept | ⟨other, member, rises, replaced⟩
      · exact Or.inl kept
      · exact Or.inr ⟨other, List.mem_cons_of_mem _ member, rises, replaced⟩

theorem mem_of_get?_foldl_merge {records : List (KnowledgeRecord C)}
    {held : KnowledgeRecord C} (found : (records.foldl merge store).get? id = some held) :
    store.get? id = some held ∨ held ∈ records := by
  induction records generalizing store with
  | nil => exact Or.inl found
  | cons record rest ih =>
    rcases ih found with before | later
    · unfold merge at before
      split_ifs at before with imported
      · rw [get?_put] at before
        split_ifs at before with named
        · exact Or.inr (Option.some.inj before ▸ List.mem_cons_self)
        · exact Or.inl before
      · exact Or.inl before
    · exact Or.inr (List.mem_cons_of_mem _ later)

/-- After a merge, every record that was read is held or surpassed. -/
theorem foldl_merge_covers {records : List (KnowledgeRecord C)} (member : record ∈ records) :
    ∃ held, (records.foldl merge store).get? record.id = some held ∧
      record.version ≤ held.version := by
  induction records generalizing store with
  | nil => cases member
  | cons head rest ih =>
    rw [List.foldl_cons]
    rcases List.mem_cons.mp member with rfl | later
    · have present : ∃ held, (store.merge record).get? record.id = some held ∧
          record.version ≤ held.version := by
        by_cases imported : store.imports record = true
        · exact ⟨record, by rw [merge_of_imports imported, get?_put_self], le_refl _⟩
        · cases found : store.get? record.id with
          | none => exact absurd (imports_of_none found) imported
          | some existing =>
            refine ⟨existing, by rw [merge_of_not_imports imported, found], ?_⟩
            exact not_lt.mp fun newer => imported ((imports_iff_newer found).mpr newer)
      obtain ⟨held, found, covers⟩ := present
      rcases foldl_merge_grows rest found with kept | ⟨other, _, rises, replaced⟩
      · exact ⟨held, kept, covers⟩
      · exact ⟨other, replaced, covers.trans rises.le⟩
    · exact ih later

end LocalStore

/-! ### Mirrors -/

/-- The records are what the store reads back as. -/
def Mirrors (records : List (KnowledgeRecord C)) (store : LocalStore C) : Prop :=
  ∀ record, record ∈ records ↔
    ∃ held, store.get? record.id = some held ∧ held.reread = some record

variable {records : List (KnowledgeRecord C)}

theorem mirrors_of_saved {store : LocalStore C}
    (saved : store.saved = some records) : Mirrors records store := by
  obtain ⟨mapped, traversed, rfl⟩ := Option.map_eq_some_iff.mp saved
  intro record
  have get : ∀ id, mapped.get? id = (store.get? id).bind KnowledgeRecord.reread :=
    Dict.get?_traverse traversed
  simp only [Dict.mem_values_iff, get, Option.bind_eq_some_iff]
  constructor
  · rintro ⟨id, held, found, reads⟩
    have named : record.id = id :=
      (KnowledgeRecord.reread_id reads).trans (LocalStore.id_of_get? found)
    exact ⟨held, named ▸ found, reads⟩
  · rintro ⟨held, found, reads⟩
    exact ⟨record.id, held, found, reads⟩

/-- A store can be saved exactly when all of its values can be written. -/
theorem saved_isSome_iff (store : LocalStore C) :
    store.saved.isSome ↔ ∀ id held, store.get? id = some held → held.reread.isSome := by
  rw [LocalStore.saved, Option.isSome_map]
  exact Dict.traverse_isSome KnowledgeRecord.reread store.records

private theorem foldl_put_of_absent {id : String}
    (store : LocalStore C) (absent : ∀ record ∈ records, record.id ≠ id) :
    (records.foldl LocalStore.put store).get? id = store.get? id := by
  induction records generalizing store with
  | nil => rfl
  | cons record rest ih =>
    rw [List.forall_mem_cons] at absent
    rw [List.foldl_cons, ih _ absent.2, LocalStore.get?_put_of_ne _ absent.1]

private theorem foldl_put_of_unique {record : KnowledgeRecord C}
    (store : LocalStore C) (member : record ∈ records)
    (unique : ∀ other ∈ records, other.id = record.id → other = record) :
    (records.foldl LocalStore.put store).get? record.id = some record := by
  induction records generalizing store with
  | nil => cases member
  | cons head rest ih =>
    rw [List.forall_mem_cons] at unique
    rw [List.foldl_cons]
    by_cases later : record ∈ rest
    · exact ih _ later unique.2
    · have first : record = head := (List.mem_cons.mp member).resolve_right later
      subst first
      rw [foldl_put_of_absent, LocalStore.get?_put_self]
      intro other inRest same
      exact later (unique.2 other inRest same ▸ inRest)

private theorem mem_of_get?_foldl_put {store : LocalStore C} {id : String}
    {held : KnowledgeRecord C}
    (found : (records.foldl LocalStore.put store).get? id = some held) :
    store.get? id = some held ∨ held ∈ records := by
  induction records generalizing store with
  | nil => exact Or.inl found
  | cons record rest ih =>
    rcases ih found with before | later
    · rw [LocalStore.get?_put] at before
      split_ifs at before
      · exact Or.inr (Option.some.inj before ▸ List.mem_cons_self)
      · exact Or.inl before
    · exact Or.inr (List.mem_cons_of_mem _ later)

/-- Loading the mirror of a store takes over whatever it can read back. -/
theorem Mirrors.get?_load {source : LocalStore C}
    (mirrors : Mirrors records source) (store : LocalStore C) (id : String) :
    (records.foldl LocalStore.put store).get? id =
      ((source.get? id).bind KnowledgeRecord.reread).or (store.get? id) := by
  cases held : (source.get? id).bind KnowledgeRecord.reread with
  | none =>
    rw [Option.none_or]
    apply foldl_put_of_absent
    rintro record member rfl
    obtain ⟨original, found, reads⟩ := (mirrors record).mp member
    rw [found, Option.bind_some, reads] at held
    cases held
  | some record =>
    obtain ⟨original, found, reads⟩ := Option.bind_eq_some_iff.mp held
    have named : record.id = id :=
      (KnowledgeRecord.reread_id reads).trans (LocalStore.id_of_get? found)
    subst named
    rw [Option.some_or]
    apply foldl_put_of_unique store ((mirrors record).mpr ⟨original, found, reads⟩)
    intro other member same
    obtain ⟨twin, alsoFound, alsoReads⟩ := (mirrors other).mp member
    rw [same, found] at alsoFound
    rw [← Option.some.inj alsoFound, reads] at alsoReads
    exact (Option.some.inj alsoReads).symm

/-! ### Files -/

private theorem readFile_of_absent {dir : Directory C} {name : String}
    (absent : dir.get? name = none) :
    readFile dir name = [] := by
  rw [readFile, absent]
  rfl

theorem readFile_set_self (dir : Directory C) (name : String) (file : ProjectFile C) :
    readFile (dir.set name file) name = file.getD [] := by
  rw [readFile, Dict.get?_set_self]
  rfl

theorem readFile_set_of_ne (dir : Directory C) {name other : String} (file : ProjectFile C)
    (different : name ≠ other) : readFile (dir.set name file) other = readFile dir other := by
  rw [readFile, Dict.get?_set_of_ne dir file different, readFile]

/-- The records of all files but the project's own, in the order of a sync. -/
def peerRecords (project : String) (dir : Directory C) (order : List String) :
    List (KnowledgeRecord C) :=
  ((globbed dir order).filter fun name => name ≠ projectFile project).flatMap (readFile dir)

private theorem mem_globbed (dir : Directory C) (order : List String) (name : String) :
    name ∈ globbed dir order ↔ name ∈ dir.keys := by
  unfold globbed
  split_ifs with permutation
  · exact permutation.mem_iff
  · exact Iff.rfl

/-- The records of the peers are those of all files but the project's own. -/
theorem mem_peerRecords (project : String) (dir : Directory C) (order : List String)
    (record : KnowledgeRecord C) :
    record ∈ peerRecords project dir order ↔
      ∃ name, name ≠ projectFile project ∧ record ∈ readFile dir name := by
  simp only [peerRecords, List.mem_flatMap, List.mem_filter, mem_globbed, decide_eq_true_eq]
  constructor
  · rintro ⟨name, ⟨_, other⟩, member⟩
    exact ⟨name, other, member⟩
  · rintro ⟨name, other, member⟩
    have present : name ∈ dir.keys := by
      by_contra absent
      rw [readFile_of_absent ((dir.get?_eq_none_iff name).mpr absent)] at member
      cases member
    exact ⟨name, ⟨present, other⟩, member⟩

/-- A sync merges the records of the peers into the store. -/
theorem sync_store (project : String) (store : LocalStore C) (dir : Directory C)
    (order : List String) :
    (sync project store dir order).store =
      (peerRecords project dir order).foldl LocalStore.merge store := by
  have files : ∀ (names : List String) (merged : LocalStore C × Nat),
      (names.foldl (mergeFile dir) merged).1 =
        (names.flatMap (readFile dir)).foldl LocalStore.merge merged.1 := by
    intro names
    induction names with
    | nil => exact fun _ => rfl
    | cons name rest ih =>
      intro merged
      rw [List.foldl_cons, ih, List.flatMap_cons, List.foldl_append, mergeFile,
        LocalStore.fst_foldl_mergeRecord]
  exact files _ (store, 0)

/-! ### Stored records -/

section StoredRecord

variable (project : String) (store : LocalStore C) (request : StoreRequest C)

theorem storedRecord_id :
    (storedRecord project store request).id = recordId request.type project request.key := by
  cases found : store.get? (recordId request.type project request.key) with
  | none => simp only [storedRecord, found]
  | some existing =>
    simp only [storedRecord, found]
    exact LocalStore.id_of_get? found

theorem storedRecord_value : (storedRecord project store request).value = request.value := by
  unfold storedRecord
  split <;> rfl

variable {project store request}

/-- A stored record is newer than the one it replaces. -/
theorem storedRecord_newer {existing : KnowledgeRecord C}
    (found : store.get? (recordId request.type project request.key) = some existing) :
    existing.version < (storedRecord project store request).version := by
  simp only [storedRecord, found]
  omega

end StoredRecord

/-! ### Steps -/

section Steps

variable {ι : Type} [DecidableEq ι] [LinearOrder C] [Zero C]

private theorem perform_dir (project : String) (store : LocalStore C) (dir : Directory C)
    (call : Call C) :
    (perform project store dir call).dir = dir ∨
      (perform project store dir call).dir =
        dir.set (projectFile project) (perform project store dir call).store.saved := by
  cases call with
  | construct => exact Or.inl rfl
  | storeKnowledge request => exact Or.inr rfl
  | deleteKnowledge key type =>
    simp only [perform, Outcome.reply, deleteKnowledge]
    split_ifs
    · exact Or.inr rfl
    · exact Or.inl rfl
  | queryKnowledge query => exact Or.inl rfl
  | getKnowledge key type now => exact Or.inl rfl
  | sync order => exact Or.inr rfl
  | clear => exact Or.inr rfl

/-- What a call leaves in the store was there, comes from a file, or is the record
of a store. -/
theorem origin_of_held {project : String} {store : LocalStore C} {dir : Directory C}
    {call : Call C} {id : String} {held : KnowledgeRecord C}
    (found : (perform project store dir call).store.get? id = some held) :
    store.get? id = some held ∨ (∃ name, held ∈ readFile dir name) ∨
      ∃ request, call = .storeKnowledge request ∧ held = storedRecord project store request := by
  have loaded : ∀ before : LocalStore C, (loadLocal project before dir).get? id = some held →
      before.get? id = some held ∨ ∃ name, held ∈ readFile dir name := by
    intro before reads
    rcases mem_of_get?_foldl_put reads with kept | member
    · exact Or.inl kept
    · exact Or.inr ⟨_, member⟩
  cases call with
  | construct =>
    rcases loaded LocalStore.empty found with none | read
    · cases none
    · exact Or.inr (Or.inl read)
  | storeKnowledge request =>
    change (store.put _).get? id = some held at found
    rw [LocalStore.get?_put] at found
    split_ifs at found
    · exact Or.inr (Or.inr ⟨request, rfl, (Option.some.inj found).symm⟩)
    · exact Or.inl found
  | deleteKnowledge key type =>
    simp only [perform, Outcome.reply, deleteKnowledge] at found
    split_ifs at found
    · change (store.drop _).get? id = some held at found
      rw [LocalStore.get?_drop] at found
      split_ifs at found
      exact Or.inl found
    · exact Or.inl found
  | queryKnowledge query => exact (loaded store found).imp_right Or.inl
  | getKnowledge key type now => exact (loaded store found).imp_right Or.inl
  | sync order =>
    change (sync project store dir order).store.get? id = some held at found
    rw [sync_store] at found
    rcases LocalStore.mem_of_get?_foldl_merge found with kept | member
    · exact Or.inl kept
    · obtain ⟨name, _, read⟩ := (mem_peerRecords project dir order held).mp member
      exact Or.inr (Or.inl ⟨name, read⟩)
  | clear => cases found

private theorem origin_of_read {project : String} {store : LocalStore C} {dir : Directory C}
    {call : Call C} {name : String} {record : KnowledgeRecord C}
    (member : record ∈ readFile (perform project store dir call).dir name) :
    record ∈ readFile dir name ∨
      ∃ id held, (perform project store dir call).store.get? id = some held ∧
        held.reread = some record := by
  rcases perform_dir project store dir call with same | saved
  · exact Or.inl (same ▸ member)
  · rw [saved] at member
    by_cases own : projectFile project = name
    · rw [← own, readFile_set_self] at member
      cases written : (perform project store dir call).store.saved with
      | none =>
        rw [written] at member
        cases member
      | some records =>
        rw [written] at member
        obtain ⟨held, found, reads⟩ := (mirrors_of_saved written record).mp member
        exact Or.inr ⟨record.id, held, found, reads⟩
    · rw [readFile_set_of_ne _ _ own] at member
      exact Or.inl member

variable (names : ι → String) (state : Federation ι C) (caller : ι) (call : Call C)

abbrev Federation.outcome : Outcome C (Reply C) :=
  perform (names caller) (state.stores caller) state.dir call

theorem step_stores_self :
    ((federation names).step state (caller, call)).2.stores caller =
      (state.outcome names caller call).store :=
  Function.update_self ..

/-- A call of one project leaves the stores of the others. -/
theorem step_stores_of_ne {other : ι} (different : other ≠ caller) :
    ((federation names).step state (caller, call)).2.stores other = state.stores other :=
  Function.update_of_ne different ..

/-- A call writes no file but the project's own. -/
theorem step_readFile_of_ne {name : String} (different : projectFile (names caller) ≠ name) :
    readFile ((federation names).step state (caller, call)).2.dir name =
      readFile state.dir name := by
  have moved : ((federation names).step state (caller, call)).2.dir =
      (state.outcome names caller call).dir := rfl
  rw [moved]
  rcases perform_dir (names caller) (state.stores caller) state.dir call with same | saved
  · rw [same]
  · rw [saved, readFile_set_of_ne _ _ different]

omit [DecidableEq ι] [LinearOrder C] [Zero C] in
/-- Every record in a store or in a file satisfies the property. -/
structure Everywhere (property : KnowledgeRecord C → Prop) (state : Federation ι C) : Prop where
  held : ∀ project id record, (state.stores project).get? id = some record → property record
  read : ∀ name record, record ∈ readFile state.dir name → property record

omit [DecidableEq ι] [LinearOrder C] [Zero C] in
theorem everywhere_initial (property : KnowledgeRecord C → Prop) :
    Everywhere property (Federation.initial : Federation ι C) where
  held := by
    intro project id record found
    cases found
  read := by
    intro name record member
    cases member

variable {names state caller call}

/-- A property that survives the write and the read of a record holds everywhere
after a step when it does before, and of what the step stores. -/
theorem Everywhere.step {property : KnowledgeRecord C → Prop} (holds : Everywhere property state)
    (survives : ∀ record back, property record → record.reread = some back → property back)
    (stored : ∀ request, call = .storeKnowledge request →
      property (storedRecord (names caller) (state.stores caller) request)) :
    Everywhere property ((federation names).step state (caller, call)).2 := by
  have left : ∀ id record, (state.outcome names caller call).store.get? id = some record →
      property record := by
    intro id record found
    rcases origin_of_held found with before | ⟨name, member⟩ | ⟨request, stores, rfl⟩
    · exact holds.held caller id record before
    · exact holds.read name record member
    · exact stored request stores
  constructor
  · intro project id record found
    by_cases same : project = caller
    · subst same
      rw [step_stores_self] at found
      exact left id record found
    · rw [step_stores_of_ne _ _ _ _ same] at found
      exact holds.held project id record found
  · intro name record member
    rcases origin_of_read member with before | ⟨id, original, found, reads⟩
    · exact holds.read name record before
    · exact survives original record (left id original found) reads

end Steps

end Swarmind.Orchestrator.FederatedMemory
