import Swarmind.MemoryRag.RuscaDBStore.Writes

/-!
Owns what the writing methods may change: which tables, and of the cached
results only whether they are still there. A method raises with the same bound on
what it has changed by then.
-/

namespace Swarmind.MemoryRag.RuscaDBStore

open Swarmind.Library

namespace StoreConfig

variable {σ τ κ : Type} [DecidableEq κ] (config : StoreConfig σ τ κ)

/-- From `before` to `after` only `tables` have changed, and the cache has at most
lost entries. -/
structure Touches (tables : String → Prop) (before after : World σ κ) : Prop where
  cache : QueryResultCache.Shrinks before.cache after.cache
  contents : ∀ table, ¬tables table →
    config.database.contents after.engine table = config.database.contents before.engine table

instance (tables : String → Prop) : IsPreorder (World σ κ) (config.Touches tables) where
  refl world := ⟨Std.Refl.refl _, fun _ _ => rfl⟩
  trans first second third := by
    intro early late
    refine ⟨IsTrans.trans _ _ _ early.cache late.cache, fun table untouched => ?_⟩
    rw [late.contents table untouched, early.contents table untouched]

/-- The program changes these tables at most. -/
abbrev Writes {α : Type} (tables : String → Prop) (program : Action (World σ κ) α) : Prop :=
  Action.Within (config.Touches tables) program

variable {config} {α β : Type} {tables : String → Prop}

namespace Writes

theorem pure (value : α) : config.Writes tables (Pure.pure value : Action (World σ κ) α) :=
  Action.Within.pure value

private theorem bind {first : Action (World σ κ) α} {next : α → Action (World σ κ) β}
    (writes : config.Writes tables first) (each : ∀ value, config.Writes tables (next value)) :
    config.Writes tables (first >>= next) :=
  Action.Within.bind writes each

theorem modify {f : World σ κ → World σ κ} (engine : ∀ world, (f world).engine = world.engine)
    (cache : ∀ world, (f world).cache = world.cache) : config.Writes tables (Action.modify f) := by
  apply Action.Within.modify
  intro world
  refine ⟨?_, fun table _ => ?_⟩
  · rw [cache]
    exact Std.Refl.refl _
  · rw [engine]

private theorem ite {condition : Prop} [Decidable condition] {first second : Action (World σ κ) α}
    (yes : config.Writes tables first) (no : config.Writes tables second) :
    config.Writes tables (if condition then first else second) := by
  split
  · exact yes
  · exact no

theorem orOnError {action otherwise : Action (World σ κ) α}
    (writes : config.Writes tables action) (recovers : config.Writes tables otherwise) :
    config.Writes tables (StoreConfig.orOnError action otherwise) :=
  Action.Within.attempt writes fun _ => recovers

private theorem withIdent {name : String} {next : Ident → Action (World σ κ) α}
    (each : ∀ table, table.name = name → config.Writes tables (next table)) :
    config.Writes tables (Action.lift (ident name) >>= next) := by
  intro world
  cases checked : ident name with
  | error raised => exact Std.Refl.refl world
  | ok table =>
    have same : table.name = name := by
      unfold ident at checked
      split at checked
      · cases checked
        rfl
      · cases checked
    exact each table same world

theorem call {command : Command} (target : ∀ table, command.target = some table → tables table) :
    config.Writes tables (config.call command) := by
  intro world
  refine ⟨Std.Refl.refl world.cache, fun table untouched => ?_⟩
  exact config.database.contents_call command world.engine table
    fun touched => untouched (target table touched)

theorem run {statement : Statement}
    (target : ∀ table, statement.target = some table → tables table) :
    config.Writes tables (config.run statement) := by
  intro world
  refine ⟨Std.Refl.refl world.cache, fun table untouched => ?_⟩
  exact config.database.contents_execute statement world.engine table
    fun touched => untouched (target table touched)

end Writes

private theorem target_of_none {target : Option String} (none_ : target = none) (table : String)
    (touched : target = some table) : tables table := by
  rw [none_] at touched
  cases touched

private theorem target_of_some {target : Option String} {name : String} (some_ : target = some name)
    (within : tables name) (table : String) (touched : target = some table) : tables table := by
  rw [some_] at touched
  cases touched
  exact within

/-! ### Reading -/

private theorem writes_commit : config.Writes tables config.commit :=
  .orOnError (.bind (.call (target_of_none rfl)) fun _ => .pure ()) (.pure ())

private theorem writes_invalidateCache (collection : String) :
    config.Writes tables (invalidateCache collection : Action (World σ κ) Unit) := by
  apply Action.Within.modify
  exact fun world => ⟨world.cache.shrinks_invalidate collection, fun _ _ => rfl⟩

private theorem writes_listCollections : config.Writes tables config.listCollections := by
  have sorted : config.Writes tables (sortedCollections : Action (World σ κ) (List String)) :=
    Action.Within.read _
  apply Writes.orOnError _ sorted
  apply Writes.bind (.call (target_of_none rfl))
  intro names
  apply Writes.ite _ sorted
  apply Writes.bind (Action.Within.lift _)
  intro found
  exact .bind (.modify (fun _ => rfl) fun _ => rfl) fun _ => sorted

private theorem writes_addCollection (name : String) :
    config.Writes tables (addCollection name : Action (World σ κ) Unit) :=
  .modify (fun _ => rfl) fun _ => rfl

private theorem writes_cachedTextColumn (collection : String) :
    config.Writes tables (config.cachedTextColumn collection) := by
  apply Writes.bind (Action.Within.read _)
  intro known
  cases known with
  | some column => exact .pure column
  | none =>
    apply Writes.bind
    · apply Writes.orOnError _ (.pure _)
      apply Writes.bind (Action.Within.lift _)
      exact fun table => .bind (.run (target_of_none rfl)) fun _ => .pure _
    · exact fun column => .bind (.modify (fun _ => rfl) fun _ => rfl) fun _ => .pure _

private theorem writes_lookupRid (collection logicalId : String) :
    config.Writes tables (config.lookupRid collection logicalId) := by
  apply Action.Within.attempt
  · exact Writes.bind (.run (target_of_none rfl)) fun _ => Action.Within.lift _
  · exact fun _ => .pure none

private theorem writes_fetchRecord (collection rid : String) :
    config.Writes tables (config.fetchRecord collection rid) :=
  .ite (.orOnError (.call (target_of_none rfl)) (.pure _)) (.pure _)

private theorem writes_entries (collection : String) :
    config.Writes tables (config.entries collection) := by
  apply Writes.bind (Action.Within.lift _)
  intro table
  apply Writes.bind (.orOnError (.run (target_of_none rfl)) (.pure _))
  exact fun rows => Action.Within.lift _

private theorem writes_putBlob (data : List UInt8) : config.Writes tables (config.putBlob data) :=
  .ite (.orOnError (.bind (.call (target_of_none rfl)) fun _ => .pure _) (.pure _)) (.pure _)

/-! ### Catalog -/

private theorem writes_index {collection : String} (within : tables collection) (column : String) :
    config.Writes tables (config.index collection column) :=
  .ite (.orOnError (.bind (.call (target_of_some rfl within)) fun _ => .pure ()) (.pure ()))
    (.pure ())

private theorem writes_indexGovernanceColumns {collection : String} (within : tables collection) :
    config.Writes tables (config.indexGovernanceColumns collection) :=
  .ite (.bind (writes_index within _) fun _ => writes_index within _) (.pure ())

private theorem writes_createCollection {name : String} (within : tables name) :
    config.Writes tables (config.createCollection name) := by
  apply Writes.bind (Action.Within.lift _)
  intro table
  apply Writes.bind writes_listCollections
  intro known
  apply Writes.ite (writes_addCollection name)
  refine .bind (.orOnError ?_ (.pure ())) fun _ => writes_addCollection name
  apply Writes.bind (.call (target_of_some rfl within))
  exact fun _ => .bind (writes_index within _) fun _ =>
    .bind (writes_index within _) fun _ => writes_indexGovernanceColumns within

/-! ### Insertion -/

private theorem writes_markReady (collection : String) :
    config.Writes tables (markReady collection : Action (World σ κ) Unit) :=
  .modify (fun _ => rfl) fun _ => rfl

private theorem writes_addMissingColumns {collection : String} (within : tables collection) :
    config.Writes tables (config.addMissingColumns collection) := by
  apply Action.Within.foldlM
  intro added column
  exact Writes.orOnError (.bind (.call (target_of_some rfl within)) fun _ => .pure _) (.pure _)

private theorem writes_ensureGovernanceColumns {collection : String} (within : tables collection) :
    config.Writes tables (config.ensureGovernanceColumns collection) := by
  apply Writes.bind (Action.Within.lift _)
  intro table
  apply Writes.ite _ (.pure _)
  apply Writes.bind (writes_addMissingColumns within)
  intro added
  apply Writes.ite (.pure _)
  apply Writes.bind (writes_markReady collection)
  exact fun _ => .bind (.modify (fun _ => rfl) fun _ => rfl) fun _ =>
    .bind writes_commit fun _ => .bind (writes_indexGovernanceColumns within) fun _ => .pure _

private theorem writes_insertAndIdentify {collection : String} (within : tables collection)
    (record : NewRecord) : config.Writes tables (config.insertAndIdentify collection record) :=
  .bind (.call (target_of_some rfl within)) fun _ => .call (target_of_none rfl)

private theorem writes_insertWithGovernance {collection : String} (within : tables collection)
    (record : NewRecord) :
    config.Writes tables (config.insertWithGovernance collection record) := by
  have marked : config.Writes tables (do
      let _ ← config.call (.insertRecord collection record.toValue)
      markReady collection
      config.call .lastInsertedId) :=
    .bind (.call (target_of_some rfl within)) fun _ =>
      .bind (writes_markReady collection) fun _ => .call (target_of_none rfl)
  apply Action.Within.attempt marked
  intro raised
  apply Writes.ite _ (Action.Within.lift _)
  exact .bind (writes_ensureGovernanceColumns within) fun _ => marked

private theorem writes_insertRow {collection : String} (within : tables collection)
    (record : NewRecord) : config.Writes tables (config.insertRow collection record) := by
  apply Writes.bind (Action.Within.read _)
  intro ready
  apply Writes.bind (Action.Within.read _)
  intro legacy
  apply Writes.ite (writes_insertAndIdentify within record)
  apply Writes.ite (writes_insertAndIdentify within record.legacy)
  apply Writes.orOnError (writes_insertWithGovernance within record)
  exact .bind (.modify (fun _ => rfl) fun _ => rfl) fun _ =>
    writes_insertAndIdentify within record.legacy

private theorem writes_mapRid (within : tables "_rid_map") (collection logicalId : String)
    (rid : PyValue) : config.Writes tables (config.mapRid collection logicalId rid) :=
  .orOnError (.bind (.call (target_of_some rfl within)) fun _ => .pure ()) (.pure ())

private theorem writes_drawId : config.Writes tables config.drawId := fun world =>
  ⟨Std.Refl.refl world.cache, fun _ _ => rfl⟩

private theorem writes_resolveEdge (collection : String) (edge : Members) :
    config.Writes tables (config.resolveEdge collection edge) := by
  refine .bind (.ite ?_ (.pure _)) fun resolved => .pure _
  exact .bind (writes_lookupRid collection _) fun _ => .pure _

variable {request : InsertRequest}

private theorem writes_insertOne (within : tables request.collection)
    (mapped : tables "_rid_map") (column : String) (width : Nat) (row : PyValue × Nat) :
    config.Writes tables (config.insertOne request column width row) := by
  apply Writes.bind writes_drawId
  intro logicalId
  apply Writes.bind (Action.Within.lift _)
  intro metadata
  apply Writes.bind (Action.Within.lift _)
  intro dumped
  apply Writes.bind (Action.Within.mapM (fun edge => writes_resolveEdge request.collection edge) _)
  intro edges
  refine .bind (.orOnError ?_ (.pure ())) fun _ => .pure logicalId
  apply Writes.bind (writes_insertRow within _)
  exact fun rid => .ite (writes_mapRid mapped _ _ rid) (.pure ())

private theorem writes_insertRows (within : tables request.collection)
    (mapped : tables "_rid_map") : config.Writes tables (config.insertRows request) := by
  apply Writes.bind (Action.Within.lift _)
  intro table
  apply Writes.bind writes_listCollections
  intro known
  apply Writes.bind (.ite (.pure ()) (writes_createCollection within))
  intro _
  apply Writes.bind (writes_cachedTextColumn _)
  intro column
  apply Writes.bind (Action.Within.lift _)
  intro array
  apply Writes.bind
    (Action.Within.mapM (fun row => writes_insertOne within mapped column array.2 row) _)
  exact fun ids => .bind writes_commit fun _ => .pure ids

/-! ### Updates and deletions -/

private theorem writes_updateOne {collection : Ident} (within : tables collection.name)
    (named : tables (tableNamed collection.name)) (record : RecordUpdate) :
    config.Writes tables (config.updateOne collection record) := by
  apply Writes.bind (Action.Within.lift _)
  intro metadata
  apply Writes.bind (Action.Within.lift _)
  intro dumped
  refine .orOnError (.ite ?_ (.ite ?_ (.pure ()))) (.pure ())
  · exact .bind (.call (target_of_some rfl within)) fun _ => .pure ()
  · exact .bind (.run (target_of_some rfl named)) fun _ => .pure ()

/-- An update writes its collection and its table alone. -/
theorem writes_updateRecords {collection : String} (within : tables collection)
    (named : tables (tableNamed collection)) (records : List RecordUpdate) :
    config.Writes tables (config.updateRecords collection records) := by
  apply Writes.withIdent
  rintro table rfl
  apply Writes.bind (Action.Within.foldlM (fun _ record => writes_updateOne within named record) _ _)
  exact fun _ => writes_commit

private theorem writes_deleteRecord {collection : Ident} (within : tables collection.name)
    (identifier : String) : config.Writes tables (config.deleteRecord collection identifier) := by
  refine .ite (.bind (.ite (.pure _) (writes_lookupRid _ _)) fun rid => ?_) (.pure none)
  refine .ite (.pure none) (.orOnError ?_ (.pure none))
  apply Writes.bind (.call (target_of_some rfl within))
  exact fun affected => .bind (Action.Within.lift _) fun count => .pure _

private theorem writes_deleteOne {collection : Ident} (within : tables collection.name)
    (named : tables (tableNamed collection.name)) (deleted : Int) (identifier : String) :
    config.Writes tables (config.deleteOne collection deleted identifier) := by
  apply Writes.bind (writes_deleteRecord within identifier)
  intro affected
  cases affected with
  | some count => exact .pure _
  | none => exact .orOnError (.bind (.run (target_of_some rfl named)) fun _ => .pure _) (.pure _)

/-- A deletion writes its collection and its table alone. -/
theorem writes_delete {collection : String} (within : tables collection)
    (named : tables (tableNamed collection)) (ids : List String) :
    config.Writes tables (config.delete collection ids) := by
  apply Writes.withIdent
  rintro table rfl
  apply Writes.bind (Action.Within.foldlM
    (fun deleted identifier => writes_deleteOne within named deleted identifier) _ _)
  exact fun deleted => .bind writes_commit fun _ =>
    .bind (writes_invalidateCache _) fun _ => .pure deleted

/-- Dropping a collection writes its table alone. -/
theorem writes_deleteCollection {name : String} (named : tables (tableNamed name)) :
    config.Writes tables (config.deleteCollection name) := by
  refine .bind (.orOnError ?_ (.pure ())) fun _ => .modify (fun _ => rfl) fun _ => rfl
  apply Writes.withIdent
  rintro table rfl
  exact .bind (.run (target_of_some rfl named)) fun _ => writes_commit

private theorem writes_ensureCollections (all : ∀ table, tables table) :
    config.Writes tables config.ensureCollections := by
  apply Writes.bind (.call (target_of_none rfl))
  intro names
  apply Writes.bind (Action.Within.lift _)
  intro existing
  refine .bind (.ite (.pure ()) (.orOnError ?_ (.pure ()))) fun _ => ?_
  · exact .bind (.call (target_of_some rfl (all _))) fun _ => writes_index (all _) _
  · apply Writes.bind writes_listCollections
    intro visible
    exact Action.Within.foldlM
      (fun _ name => Writes.ite (.pure ()) (writes_createCollection (all name))) _ _

/-- `clear` writes every table. -/
theorem writes_clear (all : ∀ table, tables table) : config.Writes tables config.clear := by
  apply Writes.bind writes_listCollections
  intro known
  apply Writes.bind
    (Action.Within.foldlM (fun _ name => writes_deleteCollection (all (tableNamed name))) _ _)
  intro _
  refine .bind (.orOnError ?_ (.pure ())) fun _ => ?_
  · exact .bind (.run (target_of_some rfl (all _))) fun _ => writes_commit
  · exact .ite (.pure ()) (writes_ensureCollections all)

/-- A blob is written into its collection alone. -/
theorem writes_attachBlob {collection : String} (within : tables collection) (logicalId : String)
    (data : List UInt8) : config.Writes tables (config.attachBlob collection logicalId data) := by
  apply Writes.bind (writes_putBlob data)
  intro blobHash
  refine .ite (.pure _) (.bind (writes_lookupRid collection logicalId) fun rid => ?_)
  refine .ite (.pure _) (.bind (writes_fetchRecord collection _) fun record => ?_)
  apply Writes.ite _ (.pure _)
  apply Writes.bind (Action.Within.lift _)
  intro metadata
  apply Writes.bind (Action.Within.lift _)
  intro marked
  apply Writes.bind (Action.Within.lift _)
  intro named
  refine .bind (.orOnError (.bind (Action.Within.lift _) fun dumped => ?_) (.pure ()))
    fun _ => .pure _
  exact .bind (.call (target_of_some rfl within)) fun _ => writes_commit

/-! ### Semantic cache -/

private theorem tableNamed_semanticCache : tableNamed semanticCache.name = "semantic_cache" := by
  decide +kernel

section

variable (within : tables "semantic_cache")
include within

private theorem writes_deleteCached (key : String) :
    config.Writes tables (config.run (.deleteRow semanticCache key)) := by
  refine .run (target_of_some rfl ?_)
  rw [tableNamed_semanticCache]
  exact within

private theorem writes_storeCached (key payload : String)
    (entry : Members) : config.Writes tables (config.storeCached key payload entry) := by
  refine Action.Within.attempt ?_ fun _ => .pure false
  apply Writes.bind (writes_deleteCached within key)
  intro _
  apply Writes.bind (Action.Within.lift _)
  exact fun dumped => .bind (writes_insertRow within _) fun _ =>
    .bind writes_commit fun _ => .pure true

/-- The semantic cache writes its own tables. -/
theorem writes_semanticCacheSet (key : String)
    (value ttlSec : PyValue) (metadata : List (String × PyValue)) (now : String) :
    config.Writes tables (config.semanticCacheSet key value ttlSec metadata now) := by
  apply Writes.ite (Action.Within.lift _)
  apply Writes.bind (Action.Within.lift _)
  intro payload
  apply Writes.bind (writes_storeCached within _ _ _)
  intro stored
  refine .ite ?_ (.pure false)
  exact .bind (.modify (fun _ => rfl) fun _ => rfl) fun _ =>
    .bind (writes_invalidateCache _) fun _ => .pure true

private theorem writes_deleteCachedKeys (keys : List String) :
    config.Writes tables (config.deleteCachedKeys keys) :=
  Action.Within.foldlM (fun ok key => Action.Within.attempt
    (Writes.bind (writes_deleteCached within key) fun _ => .pure ok) fun _ => .pure false) _ _

private theorem writes_semanticCacheDeleteRows (keys vectorIds : List String) :
    config.Writes tables (config.semanticCacheDeleteRows keys vectorIds) := by
  apply Writes.bind (writes_deleteCachedKeys within keys)
  intro ok
  refine .bind (.ite (.pure ()) ?_) fun _ => ?_
  · refine .bind (writes_delete within ?_ vectorIds) fun _ => .pure ()
    have same : tableNamed "semantic_cache" = "semantic_cache" := tableNamed_semanticCache
    rw [same]
    exact within
  · exact .bind writes_commit fun _ => .bind (writes_invalidateCache _) fun _ => .pure ok

theorem writes_semanticCacheDelete (key : String) :
    config.Writes tables (config.semanticCacheDelete key) := by
  apply Writes.bind (.orOnError (.run (target_of_none rfl)) (.pure _))
  intro rows
  apply Writes.bind (Action.Within.lift _)
  intro found
  apply Writes.bind (Action.Within.lift _)
  exact fun vectorIds => writes_semanticCacheDeleteRows within _ _

end

/-! ### Reconciliation -/

private theorem writes_reconcile (all : ∀ table, tables table) (now : String) :
    config.Writes tables (config.reconcile now) := by
  apply Writes.bind writes_listCollections
  intro known
  apply Action.Within.foldlM
  intro _ target
  apply Writes.bind (writes_entries target)
  intro found
  apply Writes.bind (Action.Within.lift _)
  exact fun reconciled => .ite (.pure ()) (writes_updateRecords (all _) (all _) _)

private theorem writes_reconcileDue (all : ∀ table, tables table) (now : String) :
    config.Writes tables (config.reconcileDue now) := by
  refine .bind (.modify (fun _ => rfl) fun _ => rfl) fun _ => ?_
  exact Action.Within.attempt (writes_reconcile all now) fun _ => .pure ()

def Reconciling (config : StoreConfig σ τ κ) : Prop :=
  0 < config.reconcileEvery ∧ config.readonly = false

private theorem writes_maybeReconcile (all : config.Reconciling → ∀ table, tables table)
    (now : String) :
    config.Writes tables (config.maybeReconcile now) := by
  unfold maybeReconcile
  split
  · exact .pure ()
  · rename_i active
    rw [Bool.or_eq_true, decide_eq_true_eq, not_or, Bool.not_eq_true, Int.not_le] at active
    refine .bind (.modify (fun _ => rfl) fun _ => rfl) fun _ => .bind (Action.Within.read _) ?_
    exact fun counter => .ite (.pure ()) (writes_reconcileDue (all active) now)

/-- An insert writes its collection and the map of the row ids; reconciling may write all. -/
theorem writes_insert (within : tables request.collection)
    (mapped : tables "_rid_map") (all : config.Reconciling → ∀ table, tables table) :
    config.Writes tables (config.insert request) := by
  apply Writes.bind (writes_insertRows within mapped)
  exact fun ids => .bind (writes_invalidateCache _) fun _ =>
    .bind (writes_maybeReconcile all _) fun _ => .pure ids

/-! ### Results that are gone -/

/-- Every table. -/
def Anywhere : String → Prop := fun _ => True

private theorem anywhere (table : String) : Anywhere table := trivial

/-- No result that was held under the collection is left. -/
def Dropped (before after : World σ κ) (collection : String) : Prop :=
  ∀ key ∈ before.cache.keysOf collection, after.cache.store.get? key = none

theorem Dropped.of_shrinks {before middle after : World σ κ} {collection : String}
    (early : QueryResultCache.Shrinks before.cache middle.cache)
    (late : QueryResultCache.Shrinks middle.cache after.cache)
    (dropped : Dropped middle after collection) : Dropped before after collection := by
  intro key among
  cases found : after.cache.store.get? key with
  | none => rfl
  | some entry =>
    have present : (middle.cache.store.get? key).isSome := by
      rw [late.kept found]
      rfl
    have gone := dropped key (early.registered among present)
    rw [found] at gone
    cases gone

/-- A return with such a result leaves nothing of the collection in the cache. -/
structure Clears (config : StoreConfig σ τ κ) (collection : String) (returns : α → Prop)
    (program : Action (World σ κ) α) : Prop where
  writes : config.Writes Anywhere program
  drops : ∀ world result after, program world = (.ok result, after) → returns result →
    Dropped world after collection

namespace Clears

variable {collection : String} {returns : β → Prop}

private theorem bind {first : Action (World σ κ) α} {next : α → Action (World σ κ) β}
    (writes : config.Writes Anywhere first)
    (each : ∀ value, config.Clears collection returns (next value)) :
    config.Clears collection returns (first >>= next) where
  writes := .bind writes fun value => (each value).writes
  drops := by
    intro world result after returned good
    obtain ⟨value, middle, firstReturned, returned⟩ := Action.ok_of_bind returned
    have early := writes world
    have late := (each value).writes middle
    rw [firstReturned] at early
    rw [returned] at late
    exact .of_shrinks early.cache late.cache
      ((each value).drops middle result after returned good)

private theorem invalidate {next : Unit → Action (World σ κ) β}
    (later : ∀ value, config.Writes Anywhere (next value)) :
    config.Clears collection returns (invalidateCache collection >>= next) where
  writes := .bind (writes_invalidateCache collection) later
  drops := by
    intro world result after returned good key among
    have late := later () { world with cache := world.cache.invalidate collection }
    change next () { world with cache := world.cache.invalidate collection } = _ at returned
    rw [returned] at late
    cases found : after.cache.store.get? key with
    | none => rfl
    | some entry =>
      have kept := late.cache.kept found
      rw [QueryResultCache.get?_invalidate, if_pos among] at kept
      cases kept

private theorem ite {condition : Prop} [Decidable condition] {first second : Action (World σ κ) β}
    (yes : config.Clears collection returns first) (no : config.Clears collection returns second) :
    config.Clears collection returns (if condition then first else second) := by
  split
  · exact yes
  · exact no

theorem pure {value : β} (bad : ¬returns value) :
    config.Clears collection returns (Pure.pure value : Action (World σ κ) β) where
  writes := .pure value
  drops := by
    intro world result after returned good
    cases returned
    exact absurd good bad

theorem error (raised : PyException) :
    config.Clears collection returns (Action.lift (.error raised) : Action (World σ κ) β) where
  writes := Action.Within.lift _
  drops := by
    intro world result after returned
    cases returned

end Clears

/-- An insert drops the cached queries of its collection. -/
theorem clears_insert (request : InsertRequest) :
    config.Clears request.collection (fun _ => True) (config.insert request) := by
  apply Clears.bind (writes_insertRows (anywhere _) (anywhere _))
  intro ids
  apply Clears.invalidate
  exact fun _ => .bind (writes_maybeReconcile (fun _ => anywhere) _) fun _ => .pure ids

/-- A deletion drops the cached queries of its collection. -/
theorem clears_delete (collection : String) (ids : List String) :
    config.Clears collection (fun _ => True) (config.delete collection ids) := by
  apply Clears.bind (Action.Within.lift _)
  intro table
  apply Clears.bind (Action.Within.foldlM (fun deleted identifier =>
    writes_deleteOne (anywhere _) (anywhere _) deleted identifier) _ _)
  exact fun deleted => .bind writes_commit fun _ => .invalidate fun _ => .pure deleted

/-- A stored response drops the cached queries of the semantic cache. -/
theorem clears_semanticCacheSet (key : String) (value ttlSec : PyValue)
    (metadata : List (String × PyValue)) (now : String) :
    config.Clears "semantic_cache" (fun stored => stored = true)
      (config.semanticCacheSet key value ttlSec metadata now) := by
  apply Clears.ite (.error _)
  apply Clears.bind (Action.Within.lift _)
  intro payload
  apply Clears.bind (writes_storeCached (anywhere _) _ _ _)
  intro stored
  refine .ite ?_ (.pure Bool.false_ne_true)
  exact .bind (.modify (fun _ => rfl) fun _ => rfl) fun _ => .invalidate fun _ => .pure true

/-- A deleted response drops the cached queries of the semantic cache. -/
theorem clears_semanticCacheDelete (key : String) :
    config.Clears "semantic_cache" (fun _ => True) (config.semanticCacheDelete key) := by
  apply Clears.bind (.orOnError (.run (target_of_none rfl)) (.pure _))
  intro rows
  apply Clears.bind (Action.Within.lift _)
  intro found
  apply Clears.bind (Action.Within.lift _)
  intro vectorIds
  apply Clears.bind (writes_deleteCachedKeys (anywhere _) _)
  intro ok
  apply Clears.bind (.ite (.pure ())
    (.bind (writes_delete (anywhere _) (anywhere _) _) fun _ => .pure ()))
  exact fun _ => .bind writes_commit fun _ => .invalidate fun _ => .pure ok

end StoreConfig

end Swarmind.MemoryRag.RuscaDBStore
