import Swarmind.Library.Runs
import Swarmind.MemoryRag.RuscaDBStore.Effects

/-!
Owns the transparency of the query cache: whether a cached query answers what the
query would answer now. A cached result is dropped by `insert`, `delete`,
`semantic_cache_set` and `semantic_cache_delete` only, for one collection and only
when they get that far; every other write leaves it, and it is stale as soon as
the write changes the answer.
-/

namespace Swarmind.MemoryRag.RuscaDBStore

open Swarmind.Library

/-- The query changes no table, and its answer depends on `collection` alone. -/
structure Database.ReadsOnly {σ τ : Type} (database : Database σ τ) (sql collection : String) :
    Prop where
  quiet : ∀ state table,
    database.contents (database.execute sql state).2 table = database.contents state table
  answer : ∀ left right, database.contents left collection = database.contents right collection →
    (database.execute sql left).1 = (database.execute sql right).1

structure CachedQuery {σ τ : Type} (database : Database σ τ) where
  sql : String
  collection : String
  named : collection ≠ ""
  reads : database.ReadsOnly sql collection

/-- A call of the store. Clock readings are arguments. -/
inductive Call {σ τ : Type} (database : Database σ τ) where
  | insert (request : InsertRequest)
  | updateRecords (collection : String) (records : List RecordUpdate)
  | delete (collection : String) (ids : List String)
  | attachBlob (collection logicalId : String) (data : List UInt8)
  | semanticCacheSet (key : String) (value ttlSec : PyValue)
      (metadata : List (String × PyValue)) (now : String)
  | semanticCacheDelete (key : String)
  | deleteCollection (name : String)
  | clear
  | cachedExecute (query : CachedQuery database) (now later : ℚ)

/-- A store that has just been opened: nothing is cached. -/
def World.opened {σ κ : Type} (world : World σ κ) : World σ κ :=
  { world with cache := ⟨.empty, .empty⟩ }

/-- Every call but a cached query. -/
def Call.Mutates {σ τ : Type} {database : Database σ τ} : Call database → Prop
  | .cachedExecute .. => False
  | _ => True

private theorem Call.mutates_or_cached {σ τ : Type} {database : Database σ τ}
    (call : Call database) :
    call.Mutates ∨ ∃ query now later, call = .cachedExecute query now later := by
  cases call with
  | cachedExecute query now later => exact .inr ⟨query, now, later, rfl⟩
  | _ => exact .inl trivial

inductive Reply where
  | ids (ids : List String)
  | done
  | count (count : Int)
  | hash (hash : String)
  | flag (flag : Bool)
  | value (value : PyValue)

namespace StoreConfig

variable {σ τ κ : Type} [DecidableEq κ] (config : StoreConfig σ τ κ)

/-- The reply of a program that returns. -/
def replying {α : Type} (program : Action (World σ κ) α) (reply : α → Reply)
    (world : World σ κ) : Except PyException Reply × World σ κ :=
  ((program world).1.map reply, (program world).2)

def step (world : World σ κ) :
    Call config.database → Except PyException Reply × World σ κ
  | .insert request => replying (config.insert request) .ids world
  | .updateRecords collection records =>
    replying (config.updateRecords collection records) (fun _ => .done) world
  | .delete collection ids => replying (config.delete collection ids) .count world
  | .attachBlob collection logicalId data =>
    replying (config.attachBlob collection logicalId data) .hash world
  | .semanticCacheSet key value ttlSec metadata now =>
    replying (config.semanticCacheSet key value ttlSec metadata now) .flag world
  | .semanticCacheDelete key => replying (config.semanticCacheDelete key) .flag world
  | .deleteCollection name => replying (config.deleteCollection name) (fun _ => .done) world
  | .clear => replying config.clear (fun _ => .done) world
  | .cachedExecute query now later =>
    replying (config.cachedExecute query.sql query.collection now later) .value world

def machine : Machine (World σ κ) (Call config.database) (Except PyException Reply) where
  step := config.step

def answer (world : World σ κ) (sql : String) : Except PyException PyValue :=
  (config.execute sql world).1

/-- A cached query answers what the query would answer. -/
def Transparent (world : World σ κ) : Prop :=
  ∀ (query : CachedQuery config.database) now later,
    (config.cachedExecute query.sql query.collection now later world).1 =
      config.answer world query.sql

/-- A result of the query is held in `after` and was under its collection in `before`. -/
def Left (before after : World σ κ) (query : CachedQuery config.database) : Prop :=
  config.keyOf query.sql ∈ before.cache.keysOf query.collection ∧
    ∃ stamp value, after.cache.store.get? (config.keyOf query.sql) = some (stamp, value) ∧
      value ≠ .none

/-- No answer about the table changes whose cached result is left. -/
def AnswersKept (before after : World σ κ) (table : String) : Prop :=
  ∀ query : CachedQuery config.database, query.collection = table →
    config.Left before after query → config.answer after query.sql = config.answer before query.sql

/-- The call changes no answer about the table whose cached result it leaves. -/
def Unaffected (world : World σ κ) (call : Call config.database) (table : String) : Prop :=
  config.AnswersKept world (config.step world call).2 table

def CallFresh (world : World σ κ) : Call config.database → Prop
  | .insert request =>
    (Raises (config.step world (.insert request)).1 →
      config.Unaffected world (.insert request) request.collection) ∧
    config.Unaffected world (.insert request) "_rid_map" ∧
    (config.Reconciling → ∀ table, config.Unaffected world (.insert request) table)
  | .updateRecords collection records =>
    config.Unaffected world (.updateRecords collection records) collection ∧
      config.Unaffected world (.updateRecords collection records) (tableNamed collection)
  | .delete collection ids =>
    (Raises (config.step world (.delete collection ids)).1 →
      config.Unaffected world (.delete collection ids) collection) ∧
    (tableNamed collection ≠ collection →
      config.Unaffected world (.delete collection ids) (tableNamed collection))
  | .attachBlob collection logicalId data =>
    config.Unaffected world (.attachBlob collection logicalId data) collection
  | .semanticCacheSet key value ttlSec metadata now =>
    (config.step world (.semanticCacheSet key value ttlSec metadata now)).1 ≠
        .ok (.flag true) →
      config.Unaffected world (.semanticCacheSet key value ttlSec metadata now) "semantic_cache"
  | .semanticCacheDelete key =>
    Raises (config.step world (.semanticCacheDelete key)).1 →
      config.Unaffected world (.semanticCacheDelete key) "semantic_cache"
  | .deleteCollection name =>
    config.Unaffected world (.deleteCollection name) (tableNamed name)
  | .clear => ∀ table, config.Unaffected world .clear table
  | .cachedExecute _ _ _ => True

/-! ### What is in the cache -/

/-- Every result is held under the collection that its query reads. -/
def Registered (world : World σ κ) : Prop :=
  ∀ key, (world.cache.store.get? key).isSome →
    ∃ query : CachedQuery config.database,
      config.keyOf query.sql = key ∧ key ∈ world.cache.keysOf query.collection

/-- Every result that can be served is the answer of its query. -/
def Current (world : World σ κ) : Prop :=
  ∀ (query : CachedQuery config.database) stamp value,
    world.cache.store.get? (config.keyOf query.sql) = some (stamp, value) →
      value ≠ .none → config.answer world query.sql = .ok value

variable {config}

omit [DecidableEq κ] in
private theorem keyOf_injective {left right : String}
    (same : config.keyOf left = config.keyOf right) :
    left = right := by
  have texts : left ++ "()" = right ++ "()" := config.digest.injective same
  exact (String.append_left_inj _).mp texts

variable {before after : World σ κ}

private theorem Registered.shrinks (registered : config.Registered before)
    (shrinks : QueryResultCache.Shrinks before.cache after.cache) : config.Registered after := by
  intro key present
  obtain ⟨entry, found⟩ := Option.isSome_iff_exists.mp present
  obtain ⟨query, rfl, among⟩ := registered key (by rw [shrinks.kept found]; rfl)
  exact ⟨query, rfl, shrinks.registered among present⟩

/-! ### Cached queries -/

/-- What the store's `execute` makes of the engine's answer. -/
def settled : Except PyException PyValue → Except PyException PyValue
  | .ok value => .ok value
  | .error raised => if isRuscadbError raised then .ok .none else .error raised

omit [DecidableEq κ] in
private theorem execute_eq (config : StoreConfig σ τ κ) (sql : String) (world : World σ κ) :
    config.execute sql world =
      (settled (config.database.execute sql world.engine).1,
        { world with engine := (config.database.execute sql world.engine).2 }) := by
  unfold execute orOnError Action.attempt StoreConfig.query
  cases config.database.execute sql world.engine with
  | mk outcome state =>
    cases outcome with
    | ok value => rfl
    | error raised =>
      simp only [settled]
      split
      · rfl
      · rfl

omit [DecidableEq κ] in
private theorem answer_eq (world : World σ κ) (sql : String) :
    config.answer world sql = settled (config.database.execute sql world.engine).1 := by
  rw [answer, execute_eq]

omit [DecidableEq κ] in
private theorem answer_eq_of_contents (query : CachedQuery config.database)
    (same : config.database.contents after.engine query.collection =
      config.database.contents before.engine query.collection) :
    config.answer after query.sql = config.answer before query.sql := by
  rw [answer_eq, answer_eq, query.reads.answer _ _ same]

/-- The world after the lookup of a query. -/
def lookedUp (config : StoreConfig σ τ κ) (world : World σ κ) (sql : String) (now : ℚ) :
    World σ κ :=
  { world with cache := (world.cache.get (config.keyOf sql) now).2 }

def lookup (config : StoreConfig σ τ κ) (sql : String) (now : ℚ) : Action (World σ κ) PyValue :=
  fun world =>
    (.ok (world.cache.get (config.keyOf sql) now).1, config.lookedUp world sql now)

variable {world : World σ κ} {sql : String}

private theorem lookup_eq {now : ℚ} {value : PyValue}
    (got : (world.cache.get (config.keyOf sql) now).1 = value) :
    config.lookup sql now world = (.ok value, config.lookedUp world sql now) := by
  rw [lookup, got]

private theorem cachedExecute_hit {now : ℚ} {value : PyValue}
    (hit : (world.cache.get (config.keyOf sql) now).1 = value) (served : value ≠ .none)
    (collection : String) (later : ℚ) :
    config.cachedExecute sql collection now later world =
      (.ok value, config.lookedUp world sql now) := by
  refine (Action.bind_of_ok (lookup_eq hit)).trans ?_
  cases value with
  | none => exact absurd rfl served
  | _ => rfl

private theorem cachedExecute_miss {now : ℚ}
    (miss : (world.cache.get (config.keyOf sql) now).1 = .none)
    (collection : String) (later : ℚ) :
    config.cachedExecute sql collection now later world =
      ((do
        let result ← config.execute sql
        Action.modify fun world =>
          { world with cache := world.cache.set (config.keyOf sql) result collection later }
        pure result) : Action (World σ κ) PyValue) (config.lookedUp world sql now) := by
  exact Action.bind_of_ok (lookup_eq miss)

private theorem cachedExecute_of_answer {now : ℚ}
    (miss : (world.cache.get (config.keyOf sql) now).1 = .none) (collection : String) (later : ℚ) :
    config.cachedExecute sql collection now later world =
      match config.answer world sql with
      | .ok result =>
        (.ok result,
          { config.lookedUp world sql now with
            engine := (config.database.execute sql world.engine).2
            cache := (config.lookedUp world sql now).cache.set (config.keyOf sql) result
              collection later })
      | .error raised =>
        (.error raised,
          { config.lookedUp world sql now with
            engine := (config.database.execute sql world.engine).2 }) := by
  have executed := config.execute_eq sql (config.lookedUp world sql now)
  rw [cachedExecute_miss miss, answer_eq]
  change config.execute sql (config.lookedUp world sql now) =
    (settled (config.database.execute sql world.engine).1, _) at executed
  cases outcome : settled (config.database.execute sql world.engine).1 with
  | ok result =>
    rw [outcome] at executed
    rw [Action.bind_of_ok executed]
    rfl
  | error raised =>
    rw [outcome] at executed
    rw [Action.bind_of_error executed]
    rfl

private theorem get_cases (config : StoreConfig σ τ κ) (world : World σ κ) (sql : String)
    (now : ℚ) :
    (world.cache.get (config.keyOf sql) now).1 = .none ∨
      ∃ stamp value, world.cache.store.get? (config.keyOf sql) = some (stamp, value) ∧
        value ≠ .none ∧ (world.cache.get (config.keyOf sql) now).1 = value := by
  unfold QueryResultCache.get
  cases world.cache.store.get? (config.keyOf sql) with
  | none => exact .inl rfl
  | some entry =>
    obtain ⟨stamp, value⟩ := entry
    simp only
    split
    · exact .inl rfl
    · cases value with
      | none => exact .inl rfl
      | _ => exact .inr ⟨stamp, _, rfl, PyValue.noConfusion, rfl⟩

private theorem transparent_iff_current (world : World σ κ) :
    config.Transparent world ↔ config.Current world := by
  constructor
  · intro transparent query stamp value held served
    have hit : (world.cache.get (config.keyOf query.sql) stamp).1 = value := by
      unfold QueryResultCache.get
      rw [held]
      simp only [sub_self]
      rw [if_neg (by decide)]
    have same := transparent query stamp stamp
    rw [cachedExecute_hit hit served] at same
    exact same.symm
  · intro current query now later
    rcases config.get_cases world query.sql now with miss | found
    · rw [cachedExecute_of_answer miss]
      cases config.answer world query.sql with
      | ok result => rfl
      | error raised => rfl
    · obtain ⟨stamp, value, held, served, hit⟩ := found
      rw [cachedExecute_hit hit served, current query stamp value held served]

/-! ### Steps -/

private theorem Current.of_shrinks (current : config.Current before)
    (shrinks : QueryResultCache.Shrinks before.cache after.cache)
    (kept : ∀ query : CachedQuery config.database,
      config.answer after query.sql = config.answer before query.sql) :
    config.Current after := by
  intro query stamp value held served
  rw [kept query]
  exact current query stamp value (shrinks.kept held) served

omit [DecidableEq κ] in
private theorem answer_after_query (query other : CachedQuery config.database)
    (cache : QueryResultCache κ) :
    config.answer
        { world with
          engine := (config.database.execute query.sql world.engine).2
          cache := cache } other.sql =
      config.answer world other.sql :=
  answer_eq_of_contents other (query.reads.quiet world.engine other.collection)

private theorem registered_cachedExecute (registered : config.Registered world)
    (query : CachedQuery config.database) (now later : ℚ) :
    config.Registered
      (config.cachedExecute query.sql query.collection now later world).2 := by
  have looked : config.Registered (config.lookedUp world query.sql now) :=
    registered.shrinks (world.cache.shrinks_get _ now)
  rcases config.get_cases world query.sql now with miss | found
  · rw [cachedExecute_of_answer miss]
    cases config.answer world query.sql with
    | error raised => exact looked
    | ok result =>
      intro key present
      by_cases here : config.keyOf query.sql = key
      · refine ⟨query, here, ?_⟩
        simp only [QueryResultCache.keysOf_set _ _ _ query.named]
        rw [if_pos trivial, here]
        exact List.mem_cons_self
      · simp only [QueryResultCache.set] at present
        rw [Dict.get?_set_of_ne _ _ here] at present
        obtain ⟨other, same, among⟩ := looked key present
        refine ⟨other, same, ?_⟩
        simp only [QueryResultCache.keysOf_set _ _ _ query.named]
        split
        · rename_i together
          rw [← together]
          exact List.mem_cons_of_mem _ among
        · exact among
  · obtain ⟨stamp, value, held, served, hit⟩ := found
    rw [cachedExecute_hit hit served]
    exact looked

private theorem current_cachedExecute (current : config.Current world)
    (query : CachedQuery config.database) (now later : ℚ) :
    config.Current (config.cachedExecute query.sql query.collection now later world).2 := by
  have shrinks : QueryResultCache.Shrinks world.cache
      (config.lookedUp world query.sql now).cache := world.cache.shrinks_get _ now
  rcases config.get_cases world query.sql now with miss | found
  · rw [cachedExecute_of_answer miss]
    cases answered : config.answer world query.sql with
    | error raised =>
      exact current.of_shrinks shrinks fun other => answer_after_query query other _
    | ok result =>
      intro other stamp value held served
      refine (answer_after_query query other _).trans ?_
      simp only [QueryResultCache.set] at held
      by_cases here : config.keyOf query.sql = config.keyOf other.sql
      · rw [here, Dict.get?_set_self] at held
        cases held
        rw [← keyOf_injective here]
        exact answered
      · rw [Dict.get?_set_of_ne _ _ here] at held
        exact current other stamp value (shrinks.kept held) served
  · obtain ⟨stamp, value, held, served, hit⟩ := found
    rw [cachedExecute_hit hit served]
    apply current.of_shrinks shrinks
    intro other
    rw [answer_eq, answer_eq]
    rfl

private theorem answersKept_of_current (current : config.Current before)
    (shrinks : QueryResultCache.Shrinks before.cache after.cache)
    (later : config.Current after) (table : String) : config.AnswersKept before after table := by
  intro query _ left
  obtain ⟨_, stamp, value, held, served⟩ := left
  rw [later query stamp value held served,
    current query stamp value (shrinks.kept held) served]

private theorem current_of_touches {tables : String → Prop} (registered : config.Registered before)
    (current : config.Current before) (touches : config.Touches tables before after)
    (kept : ∀ table, tables table →
      config.AnswersKept before after table ∨ Dropped before after table) :
    config.Current after := by
  intro query stamp value held served
  have before_ := touches.cache.kept held
  rw [← current query stamp value before_ served]
  obtain ⟨owner, same, among⟩ := registered (config.keyOf query.sql) (by rw [before_]; rfl)
  rw [← keyOf_injective same]
  by_cases written : tables owner.collection
  · rcases kept owner.collection written with unchanged | dropped
    · rw [← same] at among held
      exact unchanged owner rfl ⟨among, stamp, value, held, served⟩
    · rw [dropped _ among] at held
      cases held
  · exact answer_eq_of_contents owner (touches.contents owner.collection written)

private theorem current_iff_of_touches {tables : String → Prop}
    {condition : Prop} (registered : config.Registered before)
    (current : config.Current before) (touches : config.Touches tables before after)
    (necessary : (∀ table, config.AnswersKept before after table) → condition)
    (sufficient : condition → ∀ table, tables table →
      config.AnswersKept before after table ∨ Dropped before after table) :
    config.Current after ↔ condition := by
  constructor
  · intro later
    exact necessary fun table => answersKept_of_current current touches.cache later table
  · intro holds
    exact current_of_touches registered current touches (sufficient holds)

/-! ### Calls -/

variable (config)

/-- The tables that a call may write to. -/
def tablesOf : Call config.database → String → Prop
  | .insert request => fun table =>
    table = request.collection ∨ table = "_rid_map" ∨ config.Reconciling
  | .updateRecords collection _ => fun table =>
    table = collection ∨ table = tableNamed collection
  | .delete collection _ => fun table => table = collection ∨ table = tableNamed collection
  | .attachBlob collection _ _ => fun table => table = collection
  | .semanticCacheSet .. => fun table => table = "semantic_cache"
  | .semanticCacheDelete _ => fun table => table = "semantic_cache"
  | .deleteCollection name => fun table => table = tableNamed name
  | .clear => fun _ => True
  | .cachedExecute .. => fun _ => False

private theorem touches_step (world : World σ κ) (call : Call config.database)
    (mutates : call.Mutates) :
    config.Touches (config.tablesOf call) world (config.step world call).2 := by
  cases call with
  | insert request =>
    exact writes_insert (.inl rfl) (.inr (.inl rfl)) (fun due _ => .inr (.inr due)) world
  | updateRecords collection records =>
    exact writes_updateRecords (.inl rfl) (.inr rfl) records world
  | delete collection ids => exact writes_delete (.inl rfl) (.inr rfl) ids world
  | attachBlob collection logicalId data =>
    have own : config.tablesOf (.attachBlob collection logicalId data) collection := rfl
    exact writes_attachBlob own logicalId data world
  | semanticCacheSet key value ttlSec metadata now =>
    have own : config.tablesOf (.semanticCacheSet key value ttlSec metadata now)
      "semantic_cache" := rfl
    exact writes_semanticCacheSet own key value ttlSec metadata now world
  | semanticCacheDelete key =>
    have own : config.tablesOf (.semanticCacheDelete key) "semantic_cache" := rfl
    exact writes_semanticCacheDelete own key world
  | deleteCollection name =>
    have own : config.tablesOf (.deleteCollection name) (tableNamed name) := rfl
    exact writes_deleteCollection own world
  | clear => exact writes_clear (fun _ => trivial) world
  | cachedExecute query now later => exact absurd mutates id

private theorem dropped_of_reply {α : Type} {collection : String} {returns : α → Prop}
    {program : Action (World σ κ) α} (clears : config.Clears collection returns program)
    {reply : α → Reply} {answer : Reply} (returned : (replying program reply world).1 = .ok answer)
    (good : ∀ result, reply result = answer → returns result) :
    Dropped world (replying program reply world).2 collection := by
  unfold replying at returned ⊢
  cases outcome : program world with
  | mk outcome₁ after =>
    rw [outcome] at returned
    obtain ⟨result, rfl, same⟩ := Swarmind.Library.ok_of_map returned
    exact clears.drops world result after outcome (good result same)

private theorem returned_of_not_raises {α : Type} {outcome : Except PyException α}
    (calm : ¬Raises outcome) : ∃ value, outcome = .ok value := by
  cases outcome with
  | ok value => exact ⟨value, rfl⟩
  | error raised => exact absurd ⟨raised, rfl⟩ calm

private theorem kept_or_dropped {α : Type} {collection : String} {program : Action (World σ κ) α}
    (clears : config.Clears collection (fun _ => True) program) {reply : α → Reply}
    (fresh : Raises (replying program reply world).1 →
      config.AnswersKept world (replying program reply world).2 collection) :
    config.AnswersKept world (replying program reply world).2 collection ∨
      Dropped world (replying program reply world).2 collection := by
  by_cases raised : Raises (replying program reply world).1
  · exact .inl (fresh raised)
  · obtain ⟨answer, returned⟩ := returned_of_not_raises raised
    exact .inr (config.dropped_of_reply clears returned fun _ _ => trivial)

private theorem current_step_iff (registered : config.Registered world)
    (current : config.Current world) (call : Call config.database) :
    config.Current (config.step world call).2 ↔ config.CallFresh world call := by
  cases call with
  | insert request =>
    apply current_iff_of_touches registered current
      (config.touches_step world (.insert request) trivial)
    · exact fun kept => ⟨fun _ => kept _, kept _, fun _ => kept⟩
    · intro fresh table written
      rcases written with rfl | rfl | due
      · exact config.kept_or_dropped (config.clears_insert request) fresh.1
      · exact .inl fresh.2.1
      · exact .inl (fresh.2.2 due table)
  | updateRecords collection records =>
    apply current_iff_of_touches registered current
      (config.touches_step world (.updateRecords collection records) trivial)
    · exact fun kept => ⟨kept _, kept _⟩
    · rintro fresh table (rfl | rfl)
      · exact .inl fresh.1
      · exact .inl fresh.2
  | delete collection ids =>
    apply current_iff_of_touches registered current
      (config.touches_step world (.delete collection ids) trivial)
    · exact fun kept => ⟨fun _ => kept _, fun _ => kept _⟩
    · intro fresh table written
      by_cases same : table = collection
      · rw [same]
        exact config.kept_or_dropped (config.clears_delete collection ids) fresh.1
      · have named := written.resolve_left same
        rw [named] at same ⊢
        exact .inl (fresh.2 same)
  | attachBlob collection logicalId data =>
    apply current_iff_of_touches registered current
      (config.touches_step world (.attachBlob collection logicalId data) trivial)
    · exact fun kept => kept _
    · rintro fresh table rfl
      exact .inl fresh
  | semanticCacheSet key value ttlSec metadata now =>
    apply current_iff_of_touches registered current
      (config.touches_step world (.semanticCacheSet key value ttlSec metadata now) trivial)
    · exact fun kept _ => kept _
    · rintro fresh table rfl
      by_cases stored :
        (config.step world (.semanticCacheSet key value ttlSec metadata now)).1 =
          .ok (.flag true)
      · refine .inr (config.dropped_of_reply
          (config.clears_semanticCacheSet key value ttlSec metadata now) stored ?_)
        exact fun result same => Reply.flag.inj same
      · exact .inl (fresh stored)
  | semanticCacheDelete key =>
    apply current_iff_of_touches registered current
      (config.touches_step world (.semanticCacheDelete key) trivial)
    · exact fun kept _ => kept _
    · rintro fresh table rfl
      exact config.kept_or_dropped (config.clears_semanticCacheDelete key) fresh
  | deleteCollection name =>
    apply current_iff_of_touches registered current
      (config.touches_step world (.deleteCollection name) trivial)
    · exact fun kept => kept _
    · rintro fresh table rfl
      exact .inl fresh
  | clear =>
    apply current_iff_of_touches registered current
      (config.touches_step world .clear trivial)
    · exact fun kept => kept
    · exact fun fresh table _ => .inl (fresh table)
  | cachedExecute query now later =>
    exact iff_of_true (current_cachedExecute current query now later) trivial

private theorem registered_step (registered : config.Registered world)
    (call : Call config.database) : config.Registered (config.step world call).2 := by
  rcases call.mutates_or_cached with mutates | cached
  · exact registered.shrinks (config.touches_step world call mutates).cache
  · obtain ⟨query, now, later, rfl⟩ := cached
    exact registered_cachedExecute registered query now later

private theorem registered_opened (world : World σ κ) : config.Registered world.opened := by
  intro key present
  cases present

private theorem current_opened (world : World σ κ) : config.Current world.opened := by
  intro query stamp value held
  cases held

/-- In every run of a store that has just been opened, the query cache is
transparent exactly as long as every call meets its condition. -/
theorem transparent_along_iff (world : World σ κ) (calls : List (Call config.database)) :
    (∀ before rest, calls = before ++ rest →
        config.Transparent (config.machine.after world.opened before)) ↔
      config.machine.Along config.CallFresh world.opened calls := by
  have exact_step : ∀ (current : World σ κ) (call : Call config.database),
      config.Registered current → True → config.Transparent current →
        (config.Transparent (config.machine.step current call).2 ↔
          config.CallFresh current call) := by
    intro current call registered _ transparent
    rw [transparent_iff_current] at transparent ⊢
    exact config.current_step_iff registered transparent call
  apply config.machine.always_iff_along (fun _ call registered _ =>
    config.registered_step registered call) exact_step (config.registered_opened world)
  · exact (transparent_iff_current _).mpr (config.current_opened world)
  · exact config.machine.along_of_forall (fun _ _ => trivial) _ _

end StoreConfig

/-! ### An update of a cached row -/

/-- The answer of the engine to a query for one row. -/
def oneRow (text : String) : PyValue :=
  .str ("[\x7b\"text\": \x7b\"Text\": \"" ++ text ++ "\"\x7d\x7d]")

def rowDatabase : Database String String where
  exports name := name = "ruscadb_update_record"
  execute sql text :=
    (if sql = "SELECT text FROM memory" then .ok (oneRow text)
      else .error ⟨"RuscadbError", "ruscadb: codigo 1: consulta"⟩, text)
  call command text :=
    match command with
    | .updateRecord table _ scalars =>
      if table = "memory" then
        (.ok (.int 1), (scalars.findSome? fun scalar =>
          if scalar.1 = "text" then some scalar.2.text else none).getD text)
      else (.ok (.int 0), text)
    | _ => (.ok .none, text)
  contents text table := if table = "memory" then text else ""
  contents_execute := by
    intro statement text table _
    rfl
  contents_call := by
    intro command text table untouched
    cases command with
    | updateRecord written rid scalars =>
      by_cases same : written = "memory"
      · have other : table ≠ "memory" := by
          rintro rfl
          exact untouched (congrArg some same)
        rw [if_neg other, if_neg other]
      · simp only [if_neg same]
    | _ => rfl

/-- A store over that engine, without a guard. -/
def rowConfig : StoreConfig String String String where
  database := rowDatabase
  digest := ⟨id, fun _ _ same => same⟩
  guard := none
  strictGuard := false
  reconcileEvery := 0
  readonly := false
  indexGovernance := false
  uuid4 := fun _ => "id"
  sha256 := id
  lower := id
  upper := id
  isAlnum := fun _ => false

def rowWorld : World String String where
  engine := "old"
  cache := ⟨.empty, .empty⟩
  collections := ["memory"]
  textColumns := .empty
  legacyTables := []
  governanceReady := []
  reconcileCounter := 0
  cacheSets := 0
  drawn := 0

def rowQuery : CachedQuery rowDatabase where
  sql := "SELECT text FROM memory"
  collection := "memory"
  named := by decide +kernel
  reads :=
    { quiet := fun _ _ => rfl
      answer := fun left right same => by
        change left = right at same
        rw [same] }

/-- The row is read through the cache and updated. -/
def rowCalls : List (Call rowConfig.database) :=
  [.cachedExecute rowQuery 0 0,
    .updateRecords "memory"
      [⟨.str "1", .str "new", .record [("_rid", .str "01ARZ3NDEKTSV4RRFFQ69G5FAV")]⟩]]

/-- After the update the cached query still answers the old row. -/
theorem not_transparent_of_updateRecords :
    ¬∀ calls, rowConfig.Transparent (rowConfig.machine.after rowWorld.opened calls) := by
  intro transparent
  have current := (StoreConfig.transparent_iff_current _).mp (transparent rowCalls)
  have held : (rowConfig.machine.after rowWorld.opened rowCalls).cache.store.get?
      (rowConfig.keyOf rowQuery.sql) = some (0, oneRow "old") := by
    rfl
  have same : (.ok (oneRow "new") : Except PyException PyValue) = .ok (oneRow "old") :=
    current rowQuery 0 (oneRow "old") held (by simp [oneRow])
  exact absurd same (by simp [oneRow])

end Swarmind.MemoryRag.RuscaDBStore
