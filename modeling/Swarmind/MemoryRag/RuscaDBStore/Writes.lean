import Swarmind.Library.Action
import Swarmind.MemoryRag.RuscaDBStore.QueryCache
import Swarmind.MemoryRag.RuscaDBStore.Retrieval

/-!
Owns the methods of the store that write, together with the cached queries. The
engine is a deterministic machine of its own; a method that raises leaves engine
and store as they are at that point. Of the engine it is known which table each
command and each statement of the store may change, and nothing else.
-/

namespace Swarmind.MemoryRag.RuscaDBStore

open Swarmind.Library

/-! ### The engine -/

/-- An identifier that `_safe_ident` lets through. -/
structure Ident where
  name : String
  safe : isIdent name = true

def ident (name : String) : Except PyException Ident :=
  if safe : isIdent name = true then .ok ⟨name, safe⟩
  else .error (.valueError s!"identificador RQL invalido: {pyRepr name}")

def semanticCache : Ident := ⟨"semantic_cache", by decide +kernel⟩

def ridMap : Ident := ⟨"_rid_map", by decide +kernel⟩

/-- The table that a name stands for in a query, where a last newline is blank. -/
def tableNamed (name : String) : String :=
  if name.toList.getLast? = some '\n' then String.ofList name.toList.dropLast else name

/-- The queries of the store itself. -/
inductive Statement where
  | selectText (table : Ident)
  | selectRid (logicalId collection : String)
  | selectAll (table : Ident) (limit : Nat)
  | update (table : Ident) (scalars : List (String × PyValue)) (logicalId : String)
  | deleteRow (table : Ident) (logicalId : String)
  | deleteAll (table : Ident)

namespace Statement

def text : Statement → String
  | .selectText table => s!"SELECT text FROM {table.name} LIMIT 1"
  | .selectRid logicalId collection =>
    s!"SELECT rid FROM _rid_map WHERE id = '{escapeLiteral logicalId}' " ++
      s!"AND collection = '{escapeLiteral collection}' LIMIT 1"
  | .selectAll table limit => s!"SELECT * FROM {table.name} LIMIT {limit}"
  | .update table scalars logicalId =>
    let assignments := ", ".intercalate
      (scalars.map fun column => s!"{column.1} = '{escapeLiteral column.2.text}'")
    s!"UPDATE {table.name} SET {assignments} WHERE id = '{escapeLiteral logicalId}'"
  | .deleteRow table logicalId =>
    s!"DELETE FROM {table.name} WHERE id = '{escapeLiteral logicalId}'"
  | .deleteAll table => s!"DELETE FROM {table.name}"

/-- The table that a statement may change. -/
def target : Statement → Option String
  | .selectText _ => none
  | .selectRid _ _ => none
  | .selectAll _ _ => none
  | .update table _ _ => some (tableNamed table.name)
  | .deleteRow table _ => some (tableNamed table.name)
  | .deleteAll table => some (tableNamed table.name)

end Statement

/-- The other functions of the engine. Each answers a Python value. -/
inductive Command where
  | listTables
  | createTable (table : String)
  | createIndex (table column : String)
  | alterTableAddColumn (table column : String)
  | insertRecord (table : String) (record : PyValue)
  | lastInsertedId
  | updateRecord (table rid : String) (scalars : List (String × PyValue))
  | deleteRecord (table rid : String)
  | getRecord (table rid : String)
  | putBlob (data : List UInt8)
  | commit

/-- The table that a command may change. -/
def Command.target : Command → Option String
  | .createTable table => some table
  | .createIndex table _ => some table
  | .alterTableAddColumn table _ => some table
  | .insertRecord table _ => some table
  | .updateRecord table _ _ => some table
  | .deleteRecord table _ => some table
  | _ => none

/-- A deterministic engine. `contents` is what queries see of a table. -/
structure Database (σ τ : Type) where
  exports : String → Bool
  execute : String → σ → Except PyException PyValue × σ
  call : Command → σ → Except PyException PyValue × σ
  contents : σ → String → τ
  contents_execute : ∀ (statement : Statement) (state : σ) (table : String),
    statement.target ≠ some table →
      contents (execute statement.text state).2 table = contents state table
  contents_call : ∀ (command : Command) (state : σ) (table : String),
    command.target ≠ some table →
      contents (call command state).2 table = contents state table

/-! ### The store -/

/-- What the methods change. Sets of names are lists. -/
structure World (σ κ : Type) where
  engine : σ
  cache : QueryResultCache κ
  collections : List String
  textColumns : Dict String String
  legacyTables : List String
  governanceReady : List String
  reconcileCounter : Int
  cacheSets : Nat
  /-- Identifiers drawn so far. -/
  drawn : Nat

/-- What the store is opened with, and the library functions that it calls. -/
structure StoreConfig (σ τ κ : Type) where
  database : Database σ τ
  digest : Digest κ
  /-- `memory_guard.validate`. -/
  guard : Option (String → Members → List String)
  strictGuard : Bool
  reconcileEvery : Int
  readonly : Bool
  indexGovernance : Bool
  uuid4 : Nat → String
  sha256 : String → String
  lower : String → String
  upper : String → String
  isAlnum : String → Bool

structure RecordUpdate where
  id : PyValue
  text : PyValue
  metadata : PyValue

/-- An item without a score. -/
abbrev Entry := Item Unit

def jsonDumps (value : PyValue) : Except PyException String :=
  match value.dumps with
  | some json => .ok (String.ofList json.encode)
  | none => .error .notSerializable

mutual

/-- What `default=str` makes of the objects in a value. -/
def withStr : PyValue → PyValue
  | .object typeName => .str (PyValue.object typeName).text
  | .list items => .list (withStrItems items)
  | .tuple items => .tuple (withStrItems items)
  | .dict members => .dict (withStrMembers members)
  | value => value

def withStrItems : List PyValue → List PyValue
  | [] => []
  | item :: rest => withStr item :: withStrItems rest

def withStrMembers : List (PyKey × PyValue) → List (PyKey × PyValue)
  | [] => []
  | (key, value) :: rest => (key, withStr value) :: withStrMembers rest

end

/-- One element of `dict(..)` over a sequence. -/
def pairOf (value : PyValue) : Except PyException (PyKey × PyValue) := do
  let items ← iterate value
  match items with
  | [.none, item] => pure (.none, item)
  | [.bool key, item] => pure (.bool key, item)
  | [.int key, item] => pure (.int key, item)
  | [.float key, item] => pure (.float key, item)
  | [.str key, item] => pure (.str key, item)
  | [key, _] => .error (.typeError s!"unhashable type: '{key.typeName}'")
  | _ =>
    .error (.valueError
      s!"dictionary update sequence element has length {items.length}; 2 is required")

def toDict (value : PyValue) : Except PyException Members :=
  match value.orElse (.dict []) with
  | .dict members => .ok members
  | other => do
    let items ← iterate other
    let pairs ← items.mapM pairOf
    pure (Dict.ofList pairs).entries

/-- `members.setdefault(key, value)`. -/
def setDefault (members : Members) (key : String) (value : PyValue) : Members :=
  if (Dict.find (.str key) members).isSome then members else Dict.assign (.str key) value members

def setItem (value : PyValue) (key : String) (item : PyValue) : Except PyException PyValue :=
  match value with
  | .dict members => .ok (.dict (Dict.assign (.str key) item members))
  | .list _ => .error (.typeError "list indices must be integers or slices, not str")
  | other =>
    .error (.typeError s!"'{other.typeName}' object does not support item assignment")

def injectionMarkers : List String :=
  ["ignore previous instructions", "ignore all previous", "system prompt", "you are now",
    "disregard the above", "override safety", "<script", "javascript:"]

def deriveText (metadata : Members) : String :=
  let known := ["text", "content", "summary", "title", "description"].findSome? fun key =>
    match get metadata key with
    | .str text => if isBlank text then none else some text
    | _ => none
  known.getD (" ".intercalate (metadata.filterMap fun member =>
    match member.2 with
    | .str text => some text
    | .bool value => some (PyValue.bool value).text
    | .int value => some (PyValue.int value).text
    | .float digits => some (PyValue.float digits).text
    | _ => none))

def governanceScalars (metadata : Members) : List (String × PyValue) :=
  let column (name : String) : String × PyValue :=
    (name, match get metadata name with
      | .str text => .str text
      | _ => .str "")
  let verdict : PyValue :=
    match get metadata "write_gate_verdict" with
    | .str text => if text = "" then .none else .str text
    | _ => .none
  let allowed : PyValue :=
    if (get metadata "trust_tier").equals (.str "quarantined") then .str "quarantined"
    else .str "allowed"
  ["source", "trust_tier", "session_id", "derived_from"].map column ++
    [("write_gate_verdict", verdict.orElse allowed)]

def legacyScalars (scalars : List (String × PyValue)) : List (String × PyValue) :=
  scalars.filter fun scalar => scalar.1 ∉ governanceColumns

/-- Arguments of `insert`. `array` is `np.asarray(vectors)` as rows with their
width, or what it raises; `now` is the argument or else the clock, which a
reconciliation reads. -/
structure InsertRequest where
  collection : String
  array : Except PyException (List PyValue × Nat)
  metadata : List Members
  now : String
  clock : String
  edges : List (List Members) := []
  texts : List String := []

/-- A record that is about to be inserted: its scalars and the rest of it. -/
structure NewRecord where
  scalars : List (String × PyValue)
  rest : List (String × PyValue)

def NewRecord.toValue (record : NewRecord) : PyValue :=
  .record (("scalars", .record record.scalars) :: record.rest)

def NewRecord.legacy (record : NewRecord) : NewRecord :=
  { record with scalars := legacyScalars record.scalars }

namespace StoreConfig

variable {σ τ κ : Type} [DecidableEq κ] (config : StoreConfig σ τ κ)

def call (command : Command) : Action (World σ κ) PyValue := fun world =>
  let answer := config.database.call command world.engine
  (answer.1, { world with engine := answer.2 })

/-- `execute(self._handle, sql)`. -/
def query (sql : String) : Action (World σ κ) PyValue := fun world =>
  let answer := config.database.execute sql world.engine
  (answer.1, { world with engine := answer.2 })

def run (statement : Statement) : Action (World σ κ) PyValue := config.query statement.text

/-- `try: .. except RuscadbError: ..`. -/
def orOnError {α : Type} (action : Action (World σ κ) α) (otherwise : Action (World σ κ) α) :
    Action (World σ κ) α :=
  Action.attempt action isRuscadbError fun _ => otherwise

def commit : Action (World σ κ) Unit :=
  orOnError (do let _ ← config.call .commit) (pure ())

def invalidateCache (collection : String) : Action (World σ κ) Unit :=
  Action.modify fun world => { world with cache := world.cache.invalidate collection }

/-! ### Catalog -/

def tableNames (names : PyValue) : Except PyException (List String) := do
  let items ← iterate names
  items.mapM fun item =>
    match item with
    | .str name => .ok name
    | other => .error ⟨"AttributeError",
        s!"'{other.typeName}' object has no attribute 'startswith'"⟩

def sortedCollections : Action (World σ κ) (List String) :=
  Action.read fun world => world.collections.mergeSort fun left right => decide (left ≤ right)

def listCollections : Action (World σ κ) (List String) :=
  orOnError
    (do
      let names ← config.call .listTables
      if names.isTruthy then
        let tables ← Action.lift (tableNames names)
        Action.modify fun world =>
          { world with collections := (tables.filter fun name => !name.startsWith "_").dedup }
        sortedCollections
      else sortedCollections)
    sortedCollections

def addCollection (name : String) : Action (World σ κ) Unit :=
  Action.modify fun world =>
    { world with
      collections := if name ∈ world.collections then world.collections
        else world.collections ++ [name] }

def index (collection column : String) : Action (World σ κ) Unit :=
  if config.database.exports "ruscadb_create_index" then
    orOnError (do let _ ← config.call (.createIndex collection column)) (pure ())
  else pure ()

def indexGovernanceColumns (collection : String) : Action (World σ κ) Unit :=
  if config.indexGovernance then do
    config.index collection "trust_tier"
    config.index collection "session_id"
  else pure ()

def createCollection (name : String) : Action (World σ κ) Unit := do
  let _ ← Action.lift (ident name)
  let known ← config.listCollections
  if name ∈ known then addCollection name
  else do
    orOnError
      (do
        let _ ← config.call (.createTable name)
        config.index name "id"
        config.index name "created_at"
        config.indexGovernanceColumns name)
      (pure ())
    addCollection name

def defaultCollections : List String := ["memory", "semantic_cache", "agent_workspace_logs"]

def ensureCollections : Action (World σ κ) Unit := do
  let names ← config.call .listTables
  let existing ← Action.lift (iterate names)
  (if existing.any fun name => name.equals (.str "_rid_map") then pure ()
  else
    orOnError
      (do
        let _ ← config.call (.createTable "_rid_map")
        config.index "_rid_map" "id")
      (pure ()))
  let visible ← config.listCollections
  defaultCollections.foldlM
    (fun _ name => if name ∈ visible then pure () else config.createCollection name) ()

def cachedTextColumn (collection : String) : Action (World σ κ) String := do
  let known ← Action.read fun world => world.textColumns.get? collection
  match known with
  | some column => pure column
  | none => do
    let column ← orOnError
      (do
        let table ← Action.lift (ident collection)
        let _ ← config.run (.selectText table)
        pure "text")
      (pure "metadata")
    Action.modify fun world =>
      { world with textColumns := world.textColumns.set collection column }
    pure column

/-! ### Lookups -/

/-- What `_find_rid` catches. -/
def isLookupError (raised : PyException) : Bool :=
  isRuscadbError raised || raised.typeName = "JSONDecodeError" || raised.typeName = "TypeError"

def lookupRid (collection logicalId : String) : Action (World σ κ) (Option String) :=
  Action.attempt
    (do
      let rows ← config.run (.selectRid logicalId collection)
      Action.lift (do
        let parsed ← loadRows rows
        let values ← iterate (parsed.orElse (.list []))
        Store.firstRid values))
    isLookupError fun _ => pure none

def fetchRecord (collection rid : String) : Action (World σ κ) PyValue :=
  if config.database.exports "ruscadb_get_record" then
    orOnError (config.call (.getRecord collection rid)) (pure .none)
  else pure .none

def looksLikeUlid (value : String) : Bool :=
  value.length = 26 && config.isAlnum value && config.upper value = value

def entries (collection : String) : Action (World σ κ) (List Entry) := do
  let table ← Action.lift (ident collection)
  let rows ← orOnError (config.run (.selectAll table 10000)) (pure (.list []))
  Action.lift (parseRows rows)

/-! ### Insertion -/

def looksLikeInjection (text : String) : Bool :=
  injectionMarkers.any fun marker => marker.toList <:+: (config.lower text).toList

def applyWriteGate (collection : String) (metadata : Members) : Except PyException Members :=
  match config.guard with
  | none => .ok metadata
  | some validate =>
    let errors := validate collection metadata
    if errors = [] then .ok metadata
    else
      let shown : PyValue := .list (errors.map .str)
      if config.strictGuard then
        .error (.valueError ("RuscaDBStore.insert | WHAT=write_bloqueado | " ++
          "WHY=guard_validation | WHERE=_apply_write_gate | " ++
          s!"collection={pyRepr collection} | errores={shown.text}"))
      else
        .ok (Dict.assign (.str "guard_errors") shown
          (Dict.assign (.str "trust_tier") (.str "quarantined") metadata))

/-- Provenance and trust of a row that passed the gate. -/
def tagMetadata (metadata : Members) (text : String) : Members :=
  let tagged := setDefault (setDefault (setDefault metadata "source" (.str "agent"))
    "trust_tier" (.str "user_stated")) "content_hash" (.str (config.sha256 text))
  if config.looksLikeInjection text || config.looksLikeInjection (PyValue.dict tagged).text then
    Dict.assign (.str "trust_tier") (.str "quarantined") tagged
  else tagged

def addMissingColumns (collection : String) : Action (World σ κ) (List String) :=
  governanceColumns.foldlM
    (fun added column =>
      orOnError
        (do
          let _ ← config.call (.alterTableAddColumn collection column)
          pure (added ++ [column]))
        (pure added))
    []

/-- The table takes governance columns. -/
def markReady (collection : String) : Action (World σ κ) Unit :=
  Action.modify fun world =>
    { world with governanceReady := collection :: world.governanceReady }

def ensureGovernanceColumns (collection : String) : Action (World σ κ) (List String) := do
  let _ ← Action.lift (ident collection)
  if config.database.exports "ruscadb_alter_table" then do
    let added ← config.addMissingColumns collection
    if added = [] then pure added
    else do
      markReady collection
      Action.modify fun world =>
        { world with legacyTables := world.legacyTables.filter fun name => name ≠ collection }
      config.commit
      config.indexGovernanceColumns collection
      pure added
  else pure []

def insertAndIdentify (collection : String) (record : NewRecord) :
    Action (World σ κ) PyValue := do
  let _ ← config.call (.insertRecord collection record.toValue)
  config.call .lastInsertedId

def insertWithGovernance (collection : String) (record : NewRecord) : Action (World σ κ) PyValue :=
  Action.attempt
    (do
      let _ ← config.call (.insertRecord collection record.toValue)
      markReady collection
      config.call .lastInsertedId)
    isRuscadbError
    fun raised =>
      if config.database.exports "ruscadb_alter_table" then do
        let _ ← config.ensureGovernanceColumns collection
        let _ ← config.call (.insertRecord collection record.toValue)
        markReady collection
        config.call .lastInsertedId
      else Action.lift (.error raised)

def insertRow (collection : String) (record : NewRecord) : Action (World σ κ) PyValue := do
  let ready ← Action.read fun world => world.governanceReady
  let legacy ← Action.read fun world => world.legacyTables
  if collection ∈ ready then config.insertAndIdentify collection record
  else if collection ∈ legacy then config.insertAndIdentify collection record.legacy
  else
    orOnError (config.insertWithGovernance collection record)
      (do
        Action.modify fun world => { world with legacyTables := collection :: world.legacyTables }
        config.insertAndIdentify collection record.legacy)

def mapRid (collection logicalId : String) (rid : PyValue) : Action (World σ κ) Unit :=
  orOnError
    (do
      let _ ← config.call (.insertRecord "_rid_map" (.record [("scalars", .record
        [("id", .str logicalId), ("collection", .str collection), ("rid", rid)])])))
    (pure ())

/-- `str(uuid.uuid4())`. -/
def drawId : Action (World σ κ) String := fun world =>
  (.ok (config.uuid4 world.drawn), { world with drawn := world.drawn + 1 })

/-- One edge of a row: a logical target is replaced by its physical id. -/
def resolveEdge (collection : String) (edge : Members) : Action (World σ κ) PyValue := do
  let target := ((Dict.find (.str "target") edge).getD (.str "")).text
  let label := ((Dict.find (.str "label") edge).getD (.str "link")).text
  let resolved ←
    (if target ≠ "" && !config.looksLikeUlid target then do
      let rid ← config.lookupRid collection target
      pure (match rid with
        | some rid => if rid = "" then target else rid
        | none => target)
    else pure target)
  pure (.record [("label", .str label), ("target", .str resolved)])

def insertOne (request : InsertRequest) (column : String) (width : Nat) (row : PyValue × Nat) :
    Action (World σ κ) String := do
  let logicalId ← config.drawId
  let metadata ← Action.lift
    (config.applyWriteGate request.collection (request.metadata.getD row.2 []))
  let text := (request.texts[row.2]?).getD (deriveText metadata)
  let tagged := config.tagMetadata metadata text
  let dumped ← Action.lift (jsonDumps (.dict tagged))
  let scalars := [("id", .str logicalId), ("metadata", .str dumped),
    ("created_at", .str request.now)] ++ governanceScalars tagged ++
      if column = "text" then [("text", .str text)] else []
  let edges ← (request.edges.getD row.2 []).mapM (config.resolveEdge request.collection)
  let record : NewRecord :=
    { scalars
      rest := [("vector", row.1),
        ("vector_meta", .record [("model_id", .str "swarmind"), ("dim", .int width),
          ("metric", .str "L2")])] ++ if edges = [] then [] else [("edges", .list edges)] }
  orOnError
    (do
      let rid ← config.insertRow request.collection record
      if rid.isTruthy then config.mapRid request.collection logicalId rid else pure ())
    (pure ())
  pure logicalId

/-! ### Updates and deletions -/

def updateOne (collection : Ident) (record : RecordUpdate) : Action (World σ κ) Unit := do
  let metadata ← Action.lift (toDict record.metadata)
  let text := record.text.orElse (.str (deriveText metadata))
  let dumped ← Action.lift (jsonDumps (.dict metadata))
  let scalars := [("metadata", .str dumped), ("text", text)]
  let rid := get metadata "_rid"
  orOnError
    (if rid.isTruthy && config.database.exports "ruscadb_update_record" then do
      let _ ← config.call (.updateRecord collection.name rid.text scalars)
    else if record.id.isTruthy then do
      let _ ← config.run (.update collection scalars record.id.text)
    else pure ())
    (pure ())

def updateRecords (collection : String) (records : List RecordUpdate) :
    Action (World σ κ) Unit := do
  let table ← Action.lift (ident collection)
  records.foldlM (fun _ record => config.updateOne table record) ()
  config.commit

/-- `delete_record` of one id; `none` when the statement has to do it. -/
def deleteRecord (collection : Ident) (identifier : String) : Action (World σ κ) (Option Int) :=
  if config.database.exports "ruscadb_delete_record" then do
    let rid ←
      (if config.looksLikeUlid identifier then pure (some identifier)
      else config.lookupRid collection.name identifier)
    if rid.getD "" = "" then pure none
    else
      orOnError
        (do
          let affected ← config.call (.deleteRecord collection.name (rid.getD ""))
          let count ← Action.lift affected.toInt
          pure (some count))
        (pure none)
  else pure none

def deleteOne (collection : Ident) (deleted : Int) (identifier : String) :
    Action (World σ κ) Int := do
  let affected ← config.deleteRecord collection identifier
  match affected with
  | some count => pure (deleted + count)
  | none =>
    orOnError
      (do
        let rows ← config.run (.deleteRow collection identifier)
        pure (if rows.isTruthy then deleted + 1 else deleted))
      (pure deleted)

def delete (collection : String) (ids : List String) : Action (World σ κ) Int := do
  let table ← Action.lift (ident collection)
  let deleted ← ids.foldlM (config.deleteOne table) 0
  config.commit
  invalidateCache collection
  pure deleted

def deleteCollection (name : String) : Action (World σ κ) Unit := do
  orOnError
    (do
      let table ← Action.lift (ident name)
      let _ ← config.run (.deleteAll table)
      config.commit)
    (pure ())
  Action.modify fun world =>
    { world with collections := world.collections.filter fun other => other ≠ name }

def clear : Action (World σ κ) Unit := do
  let known ← config.listCollections
  known.foldlM (fun _ collection => config.deleteCollection collection) ()
  orOnError
    (do
      let _ ← config.run (.deleteAll ridMap)
      config.commit)
    (pure ())
  if config.readonly then pure () else config.ensureCollections

/-! ### Blobs -/

def putBlob (data : List UInt8) : Action (World σ κ) String :=
  if config.database.exports "ruscadb_put_blob" then
    orOnError
      (do
        let hash ← config.call (.putBlob data)
        pure hash.text)
      (pure "")
  else pure ""

def attachBlob (collection logicalId : String) (data : List UInt8) :
    Action (World σ κ) String := do
  let blobHash ← config.putBlob data
  if blobHash = "" then pure ""
  else do
    let rid ← config.lookupRid collection logicalId
    if rid.getD "" = "" then pure blobHash
    else do
      let record ← config.fetchRecord collection (rid.getD "")
      if record.isTruthy then do
        let metadata ← Action.lift (match record with
          | .dict fields => recordMetadata fields
          | other => .error (attributeError other))
        let marked ← Action.lift (setItem metadata "blob_hash" (.str blobHash))
        let named ← Action.lift (setItem marked "_rid" (.str (rid.getD "")))
        orOnError
          (do
            let dumped ← Action.lift (jsonDumps named)
            let _ ← config.call
              (.updateRecord collection (rid.getD "") [("metadata", .str dumped)])
            config.commit)
          (pure ())
        pure blobHash
      else pure blobHash

/-! ### Semantic cache -/

def isCacheError (raised : PyException) : Bool :=
  isRuscadbError raised ||
    raised.typeName ∈ ["ValueError", "JSONDecodeError", "UnicodeError", "UnicodeDecodeError",
      "UnicodeEncodeError"]

/-- The upsert of `semantic_cache_set`: whether the engine took it. -/
def storeCached (key payload : String) (entry : Members) : Action (World σ κ) Bool :=
  Action.attempt
    (do
      let _ ← config.run (.deleteRow semanticCache key)
      let dumped ← Action.lift (jsonDumps (.dict entry))
      let _ ← config.insertRow "semantic_cache"
        { scalars :=
            [("id", .str key), ("text", .str payload), ("metadata", .str dumped),
              ("created_at", get entry "cached_at"), ("source", .str "cache"),
              ("trust_tier", .str "derived"), ("session_id", .str ""),
              ("derived_from", .str ""), ("write_gate_verdict", .str "allowed")]
          rest := [] }
      config.commit
      pure true)
    isCacheError fun _ => pure false

def semanticCacheSet (key : String) (value ttlSec : PyValue)
    (metadata : List (String × PyValue)) (now : String) : Action (World σ κ) Bool :=
  if isBlank key then Action.lift (.error (.valueError "semantic_cache_set: key vacia o no-str"))
  else do
    let payload ← Action.lift (jsonDumps (withStr value))
    let own : Members := [(.str "cached_at", .str now), (.str "ttl_sec", ttlSec)]
    let entry := metadata.foldl (fun members item => Dict.assign (.str item.1) item.2 members) own
    let stored ← config.storeCached key payload entry
    if stored then do
      Action.modify fun world => { world with cacheSets := world.cacheSets + 1 }
      invalidateCache "semantic_cache"
      pure true
    else pure false

/-- The deletions of single keys: whether all of them were executed. -/
def deleteCachedKeys (keys : List String) : Action (World σ κ) Bool :=
  keys.foldlM
    (fun ok key => Action.attempt
      (do
        let _ ← config.run (.deleteRow semanticCache key)
        pure ok)
      isCacheError fun _ => pure false)
    true

def semanticCacheDeleteRows (keys vectorIds : List String) : Action (World σ κ) Bool := do
  let ok ← config.deleteCachedKeys keys
  (if vectorIds = [] then pure ()
  else do
    let _ ← config.delete "semantic_cache" vectorIds)
  config.commit
  invalidateCache "semantic_cache"
  pure ok

/-- The logical id of an entry whose metadata names the prompt of `key`. -/
def vectorIdOf (key : String) (entry : Entry) : Except PyException (Option String) :=
  if entry.id.isTruthy then do
    let promptHash ← getFrom (entry.metadata.orElse (.dict [])) "prompt_hash"
    pure (if promptHash.equals (.str key) then some entry.id.text else none)
  else .ok none

def semanticCacheDelete (key : String) : Action (World σ κ) Bool := do
  let rows ← orOnError (config.run (.selectAll semanticCache 10000)) (pure (.list []))
  let found ← Action.lift (parseRows rows)
  let vectorIds ← Action.lift (found.mapM (vectorIdOf key))
  config.semanticCacheDeleteRows [key] vectorIds.reduceOption

/-! ### Reconciliation -/

/-- One entry of `reconcile_collection`: the hashes seen and the updates so far. -/
def reconcileEntry (now : String) (state : Dict String String × List RecordUpdate)
    (entry : Entry) : Except PyException (Dict String String × List RecordUpdate) :=
  if entry.id.isTruthy then do
    let metadata ← toDict entry.metadata
    let text := (entry.text.orElse (.str "")).text
    let currentHash := config.sha256 text
    let declared := ((get metadata "content_hash").orElse (.str "")).text
    let suspicious := config.looksLikeInjection text ||
      config.looksLikeInjection (PyValue.dict metadata).text
    let tampered := declared ≠ "" && declared ≠ currentHash
    let duplicate := state.1.contains currentHash && !suspicious
    let judged :=
      if suspicious || tampered then
        Dict.assign (.str "write_gate_verdict") (.str "quarantined")
          (Dict.assign (.str "reconciliation_status") (.str "quarantined")
            (Dict.assign (.str "trust_tier") (.str "quarantined") metadata))
      else if duplicate then
        Dict.assign (.str "reconciliation_status") (.str "duplicate") metadata
      else Dict.assign (.str "reconciliation_status") (.str "ok") metadata
    let seen := if state.1.contains currentHash then state.1
      else state.1.set currentHash entry.id.text
    let stamped := Dict.assign (.str "reconciled_at") (.str now)
      (Dict.assign (.str "content_hash") (.str currentHash) judged)
    pure (seen, state.2 ++ [⟨.str entry.id.text, .str text, .dict stamped⟩])
  else .ok state

def reconcileCollection (collection now : String) : Action (World σ κ) Unit := do
  let found ← config.entries collection
  let reconciled ← Action.lift (found.foldlM (config.reconcileEntry now) (.empty, []))
  if reconciled.2 = [] then pure () else config.updateRecords collection reconciled.2

def reconcile (now : String) : Action (World σ κ) Unit := do
  let known ← config.listCollections
  let targets := known.filter fun name =>
    name ∉ ["semantic_cache", "_rid_map", "agent_workspace_logs"]
  targets.foldlM (fun _ target => config.reconcileCollection target now) ()

def reconcileDue (now : String) : Action (World σ κ) Unit := do
  Action.modify fun world => { world with reconcileCounter := 0 }
  Action.attempt (config.reconcile now) (fun _ => true) fun _ => pure ()

def maybeReconcile (now : String) : Action (World σ κ) Unit :=
  if config.reconcileEvery ≤ 0 || config.readonly then pure ()
  else do
    Action.modify fun world => { world with reconcileCounter := world.reconcileCounter + 1 }
    let counter ← Action.read fun world => world.reconcileCounter
    if counter < config.reconcileEvery then pure () else config.reconcileDue now

def insertRows (request : InsertRequest) : Action (World σ κ) (List String) := do
  let _ ← Action.lift (ident request.collection)
  let known ← config.listCollections
  (if request.collection ∈ known then pure () else config.createCollection request.collection)
  let column ← config.cachedTextColumn request.collection
  let array ← Action.lift request.array
  let ids ← array.1.zipIdx.mapM (config.insertOne request column array.2)
  config.commit
  pure ids

def insert (request : InsertRequest) : Action (World σ κ) (List String) := do
  let ids ← config.insertRows request
  invalidateCache request.collection
  config.maybeReconcile request.clock
  pure ids

/-! ### Cached queries -/

def execute (sql : String) : Action (World σ κ) PyValue :=
  orOnError (config.query sql) (pure .none)

def keyOf (sql : String) : κ := config.digest.hexdigest (sql ++ "()")

/-- `cached_execute`, with the readings of the monotonic clock in `get` and `set`. -/
def cachedExecute (sql collection : String) (now later : ℚ) : Action (World σ κ) PyValue := do
  let cached ← (fun world =>
    let looked := world.cache.get (config.keyOf sql) now
    (.ok looked.1, { world with cache := looked.2 }) : Action (World σ κ) PyValue)
  match cached with
  | .none => do
    let result ← config.execute sql
    Action.modify fun world =>
      { world with cache := world.cache.set (config.keyOf sql) result collection later }
    pure result
  | value => pure value

end StoreConfig

end Swarmind.MemoryRag.RuscaDBStore
