import Swarmind.MemoryRag.SemanticCache.Entries

/-!
Owns the semantic cache over its three stores: `get` and `set` with the exact
lookup, the search by similarity, the removal of pending entries and the sweep.
Arithmetic is exact. A store is what it holds; the engines behind the stores
enter through what they order, and through the meaning of a clause.
-/

namespace Swarmind.MemoryRag

open Swarmind.Library RuscaDBStore

namespace SemanticCache

section Vectors

variable {R : Type} [Field R]

/-- `left @ right`. -/
def dot (left right : List R) : R := (List.zipWith (· * ·) left right).sum

def cosine (norm : List R → R) (left right : List R) : R :=
  dot left right / (norm left * norm right)

variable [LinearOrder R]

/-- Exact arithmetic in the place of floats. No text of a number is read. -/
@[reducible] def exactFloat (exp log : R → R) : PyFloat R where
  decidableLT := inferInstance
  ofRat number := number
  repr _ := ""
  exp := exp
  log := log

end Vectors

/-! ### Stores -/

structure Numpy (R : Type) where
  /-- `np.linalg.norm`. -/
  norm : List R → R
  /-- `np.argsort`. How it orders equal numbers is not documented. -/
  argsort : List R → List Nat
  haveCuda : Bool

structure LanceTable (R : Type) where
  /-- `_distance`. -/
  distance : List R → List R → R
  /-- The positions of distances, the smallest first. -/
  nearest : List R → List Nat
  /-- A row meets a clause. -/
  holds : String → Row R → Bool

structure RuscaTable (R : Type) where
  /-- What `search` reads of the store. -/
  retrieval : RuscaDBStore.Store R
  exp : R → R
  log : R → R
  /-- Positions of the nearest vectors, by `KNN`. -/
  knn : List R → List (List R) → Nat → List Nat
  /-- The ids among those of the table that `SELECT * .. LIMIT 10000` gives. -/
  listed : List String → List String
  /-- The metadata of a row as `insert` stores it: the write gate and the tags. -/
  tag : Members → Members

inductive Backend (R : Type) where
  | memory (numpy : Numpy R)
  | lancedb (table : LanceTable R)
  | ruscadb (table : RuscaTable R)

end SemanticCache

open SemanticCache in
/-- What the cache is made with, and the library functions it calls. -/
structure SemanticCache (R : Type) where
  backend : Backend R
  threshold : R
  defaultTtl : Int
  embeddingFn : String → List R
  datasetVersion : String
  failClosed : Bool
  /-- `threshold_for`, where the threshold is adaptive. -/
  adaptive : Option (String → R)
  /-- `hashlib.sha256(text.encode()).hexdigest()`. -/
  sha256 : String → String
  isoFormat : Int → String
  fromIsoFormat : String → Option Int

namespace SemanticCache

/-- Arguments of `set`, with the clock and the id that the store draws. -/
structure SetCall where
  prompt : String
  response : String
  agentRole : String := "*"
  ttlSeconds : Option Int := none
  metadata : Members := []
  now : Int
  id : String
  /-- The insert raises nothing; an engine error that the store only logs is not modelled. -/
  accepted : Bool := true

/-- `CacheEntry`, as far as `get` reads it. -/
structure CacheEntry where
  promptHash : PyValue
  response : PyValue
  createdAt : PyValue
  ttlSeconds : PyValue
  hitCount : PyValue
  /-- `metadata.get("verified")`. -/
  verified : PyValue

def defaultTtlSeconds : Int := 3600

def sweepEveryNSets : Nat := 100

def topK : Nat := 10

def textPrefix (count : Nat) (text : String) : String := String.ofList (text.toList.take count)

def hashClause (promptHash : String) : String := s!"prompt_hash = '{promptHash}'"

def exactClause (promptHash agentRole : String) : String :=
  if agentRole = "*" then hashClause promptHash
  else s!"{hashClause promptHash} AND agent_role = '{agentRole}'"

variable {R : Type} [Field R]

/-- The rows at positions. -/
def pick (rows : List (Row R)) (positions : List Nat) : List (Row R) :=
  positions.filterMap fun position => rows[position]?

namespace LanceTable

variable (table : LanceTable R)

def emptyVector : List R := List.replicate 384 0

/-- `tbl.search(query).limit(limit).to_list()`. -/
def search (query : List R) (limit : Nat) (rows : List (Row R)) : List (Row R) :=
  (pick rows (table.nearest (rows.map fun row => table.distance query row.vector))).take limit

/-- `tbl.search(EMPTY_VECTOR).where(clause).limit(1).to_list()`. -/
def first (clause : String) (rows : List (Row R)) : Option (Row R) :=
  (table.search emptyVector 1 (rows.filter (table.holds clause))).head?

def delete (clause : String) (rows : List (Row R)) : List (Row R) :=
  rows.filter fun row => !table.holds clause row

end LanceTable

namespace Numpy

variable [LinearOrder R] (numpy : Numpy R)

/-- The score of a vector: on batches of 10000 as `gpu_similarity_search` has it. -/
def score (batch : Nat) (query vector : List R) : R :=
  if 10000 ≤ batch then
    if numpy.haveCuda then
      dot vector query / max (numpy.norm vector * numpy.norm query) (1 / (10 ^ 8 : Nat))
    else dot vector query / (numpy.norm vector * numpy.norm query + 1 / (10 ^ 12 : Nat))
  else dot vector (query.map (· / (numpy.norm query + 1 / (10 ^ 12 : Nat))))

def search (query : List R) (rows : List (Row R)) : List (Row R × R) :=
  let scores := rows.map fun row => numpy.score rows.length query row.vector
  let positions :=
    if 10000 ≤ rows.length then (numpy.argsort (scores.map (- ·))).take topK
    else (numpy.argsort scores).reverse.take topK
  (pick rows positions).map fun row => (row, numpy.score rows.length query row.vector)

end Numpy

namespace RuscaTable

variable [LinearOrder R] (table : RuscaTable R)

@[reducible] def floats : PyFloat R := exactFloat table.exp table.log

def storeAt (now : Int) : RuscaDBStore.Store R := { table.retrieval with now := now }

/-- A row as `_parse_row` gives it. -/
def itemOf (row : Row R) (score : R) : Item R where
  id := .str row.id
  text := .str ""
  metadata := .dict row.metadata
  createdAt := .str row.createdAt
  raw := .row []
  score := some score

/-- The score of a row at a rank under `_apply_trust_and_recency`; `none` when it is
excluded. -/
def governed (now : Int) (row : Row R) (rank : Nat) : Option R :=
  let item := itemOf row (1 / ((rank : R) + 1))
  letI := table.floats
  ((table.storeAt now).govern ((table.storeAt now).retrievalOptions {} "semantic_cache")
    item).map RuscaDBStore.Store.scoreOf

def search (now : Int) (query : List R) (rows : List (Row R)) : List (Row R × R) :=
  let found := pick rows ((table.knn query (rows.map Row.vector) topK).take topK)
  let kept := found.zipIdx.filterMap fun ranked =>
    (table.governed now ranked.1 ranked.2).map fun score => (ranked.1, score)
  (kept.mergeSort fun left right => !decide (left.2 < right.2)).take topK

def ageSeconds (now : Int) (stamp : PyValue) : Option R :=
  let days : Option R :=
    letI := table.floats
    (table.storeAt now).ageDays stamp
  days.map (· * 86400)

/-- A time to live that is due has passed, or the entry cannot be dated. -/
def overdue (now : Int) (ttl stamp : PyValue) : Bool :=
  match numberOf ttl with
  | some seconds =>
    decide (0 < seconds) &&
      match table.ageSeconds now stamp with
      | some age => decide ((seconds : R) < age)
      | none => true
  | none => false

def cacheGetMeta (now : Int) (key : String) (keyed : List KeyedRow) : Option (PyValue × Members) :=
  (keyed.find? fun row => row.key = key).bind fun row =>
    if table.overdue now (get row.metadata "ttl_sec") (get row.metadata "cached_at") then none
    else some (((jsonLoads row.text).toOption).getD (.str row.text), row.metadata)

def cacheSet (key : String) (value : PyValue) (metadata : Members) (keyed : List KeyedRow) :
    Option (List KeyedRow) :=
  match isBlank key, jsonDumps (withStr value) with
  | false, .ok payload =>
    some ((keyed.filter fun row => row.key ≠ key) ++ [⟨key, payload, metadata⟩])
  | _, _ => none

def listedIds (contents : Contents R) : List String :=
  table.listed (contents.keyed.map KeyedRow.key ++ contents.rows.map Row.id)

def deleteRows (keys vectorIds : List String) (contents : Contents R) : Contents R :=
  { contents with
    keyed := contents.keyed.filter fun row => row.key ∉ keys
    rows := contents.rows.filter fun row => row.id ∉ keys ∧ row.id ∉ vectorIds }

/-- The ids of listed rows that hold a prompt under one of the keys. -/
def vectorIdsOf (keys : List String) (contents : Contents R) : List String :=
  (contents.rows.filter fun row => row.id ∈ table.listedIds contents ∧
    keys.any fun key => row.promptHash.equals (.str key)).map Row.id

def cacheDelete (key : String) (contents : Contents R) : Contents R :=
  deleteRows [key] (table.vectorIdsOf [key] contents) contents

def purgeExpired (now : Int) (defaultTtl : Int) (contents : Contents R) : Contents R :=
  let due (metadata : Members) (createdAt : PyValue) : Bool :=
    table.overdue now (getOr metadata "ttl_sec" (.int defaultTtl))
      ((get metadata "cached_at").orElse createdAt)
  let keys := (contents.keyed.filter fun row => due row.metadata .none).map KeyedRow.key
  let ids := (contents.rows.filter fun row => due row.metadata (.str row.createdAt)).map Row.id
  let expired := (keys ++ ids).filter fun id => id ∈ table.listedIds contents
  deleteRows expired (table.vectorIdsOf expired contents) contents

end RuscaTable

section Methods

variable [LinearOrder R] (cache : SemanticCache R)

def cacheKey (prompt : String) : String := cache.sha256 s!"{cache.datasetVersion}\n{prompt}"

/-- The threshold of a call, which an adaptive one can raise. -/
def effectiveThreshold (prompt : String) (threshold : Option R) : R :=
  let given := threshold.getD cache.threshold
  match cache.adaptive with
  | some thresholdFor => max given (thresholdFor prompt)
  | none => given

def expired (now : Int) (createdAt ttlSeconds : PyValue) : Bool :=
  isExpired cache.fromIsoFormat now createdAt ttlSeconds

def normalizeSimilarity (rawScore : R) : R :=
  match cache.backend with
  | .lancedb _ => 1 / (1 + rawScore)
  | _ => max 0 (min 1 rawScore)

def search (now : Int) (query : List R) (contents : Contents R) : List (Row R × R) :=
  match cache.backend with
  | .memory numpy => numpy.search query contents.rows
  | .lancedb table =>
    (table.search query topK contents.rows).map fun row => (row, table.distance query row.vector)
  | .ruscadb table => table.search now query contents.rows

/-! ### Exact lookup -/

/-- The entry of a row that an exact lookup found. -/
def entryOf (agentRole promptHash : String) (row : Row R) : Option CacheEntry :=
  if admits agentRole row.role && row.response.isTruthy then
    some
      { promptHash := .str promptHash
        response := row.response
        createdAt := (getOr row.metadata "created_at" (.str "")).orElse (.str row.createdAt)
        ttlSeconds := (getOr row.metadata "ttl_seconds" (.int defaultTtlSeconds)).orElse
          (.int defaultTtlSeconds)
        hitCount := (getOr row.metadata "hit_count" (.int 1)).orElse (.int 1)
        verified := .none }
  else none

def searchExactPersistent (table : RuscaTable R) (now : Int) (promptHash : String)
    (contents : Contents R) : Option CacheEntry :=
  (table.cacheGetMeta now promptHash contents.keyed).bind fun stored =>
    match stored.1 with
    | .str value =>
      if value = "" then none
      else some
        { promptHash := .str promptHash
          response := .str value
          createdAt := .str (cache.isoFormat now)
          ttlSeconds := .int cache.defaultTtl
          hitCount := .int 1
          verified := get stored.2 "verified" }
    | _ => none

def searchExact (now : Int) (promptHash agentRole : String) (contents : Contents R) :
    Option CacheEntry :=
  match cache.backend with
  | .ruscadb table => cache.searchExactPersistent table now promptHash contents
  | .lancedb table =>
    (table.first (exactClause promptHash agentRole) contents.rows).bind
      (entryOf agentRole promptHash)
  | .memory _ =>
    (contents.rows.find? fun row =>
      row.promptHash.equals (.str promptHash) && admits agentRole row.role).bind
        (entryOf agentRole promptHash)

/-! ### Changes of the store -/

def deleteEntry (promptHash : PyValue) (contents : Contents R) : Contents R :=
  match cache.backend with
  | .ruscadb table => table.cacheDelete promptHash.text contents
  | .lancedb table =>
    { contents with rows := table.delete (hashClause promptHash.text) contents.rows }
  | .memory _ =>
    { contents with
      rows := contents.rows.filter fun row => !row.promptHash.equals promptHash }

def hitMetadata (now : Int) (hitCount : PyValue) (metadata : Members) : Members :=
  Dict.assign (.str "last_accessed") (.str (cache.isoFormat now))
    (Dict.assign (.str "hit_count")
      (match hitCount with
        | .int count => .int (count + 1)
        | value => value) metadata)

def updateHitCount (now : Int) (promptHash hitCount : PyValue) (contents : Contents R) :
    Contents R :=
  let update (row : Row R) : Row R :=
    { row with metadata := cache.hitMetadata now hitCount row.metadata }
  match cache.backend with
  | .ruscadb _ => contents
  | .lancedb table =>
    { contents with
      rows := contents.rows.map fun row =>
        if table.holds (hashClause promptHash.text) row then update row else row }
  | .memory _ =>
    { contents with
      rows := contents.rows.map fun row =>
        if row.promptHash.equals promptHash then
          { update row with
            metadata := Dict.assign (.str "updated_at") (.str (cache.isoFormat now))
              (update row).metadata }
        else row }

def tryRemovePending (promptHash : String) (contents : Contents R) : Contents R :=
  match cache.backend with
  | .ruscadb _ => contents
  | .lancedb table =>
    if (table.first (hashClause promptHash) contents.rows).any Row.pending then
      { contents with rows := table.delete (hashClause promptHash) contents.rows }
    else contents
  | .memory _ =>
    { contents with
      rows := contents.rows.eraseP fun row =>
        row.promptHash.equals (.str promptHash) && row.pending }

def rowExpired (now : Int) (row : Row R) : Bool :=
  cache.expired now (getOr row.metadata "created_at" (.str ""))
    (getOr row.metadata "ttl_seconds" (.int cache.defaultTtl))

def clearExpired (now : Int) (contents : Contents R) : Contents R :=
  match cache.backend with
  | .ruscadb table => table.purgeExpired now cache.defaultTtl contents
  | .lancedb table =>
    { contents with
      rows := ((contents.rows.take 100000).filter fun row =>
        cache.rowExpired now row && row.promptHash.isTruthy).foldl
          (fun rows row => table.delete (hashClause row.promptHash.text) rows) contents.rows }
  | .memory _ =>
    { contents with rows := contents.rows.filter fun row => !cache.rowExpired now row }

def maybeSweep (now : Int) (contents : Contents R) : Contents R :=
  if contents.setsSinceSweep + 1 < sweepEveryNSets then
    { contents with setsSinceSweep := contents.setsSinceSweep + 1 }
  else cache.clearExpired now { contents with setsSinceSweep := 0 }

/-! ### `get` and `set` -/

/-- Version, policy, role and response of a result let it be served. -/
def servable (agentRole : String) (row : Row R) : Bool :=
  (getOr row.metadata "dataset_version" (.str "")).text = cache.datasetVersion &&
    !(cache.failClosed && !(get row.metadata "verified").isTruthy) &&
      admits agentRole row.role && row.response.isTruthy

/-- The results of a search, one after the other. -/
def evaluate (effectiveThreshold : R) (agentRole : String) (now : Int) :
    List (Row R × R) → Contents R → Option PyValue × Contents R
  | [], contents => (none, contents)
  | (row, rawScore) :: rest, contents =>
    if cache.normalizeSimilarity rawScore < effectiveThreshold then
      evaluate effectiveThreshold agentRole now rest contents
    else if cache.servable agentRole row = false then
      evaluate effectiveThreshold agentRole now rest contents
    else if cache.rowExpired now row then
      evaluate effectiveThreshold agentRole now rest
        (if row.promptHash.isTruthy then cache.deleteEntry row.promptHash contents
        else contents)
    else
      (some row.response,
        if row.promptHash.isTruthy then
          cache.updateHitCount now row.promptHash (.int 1) contents
        else contents)

def getSimilar (prompt agentRole : String) (threshold : Option R) (now : Int)
    (contents : Contents R) : Option PyValue × Contents R :=
  cache.evaluate (cache.effectiveThreshold prompt threshold) agentRole now
    (cache.search now (cache.embeddingFn prompt) contents) contents

def exactEntry (prompt agentRole : String) (now : Int) (contents : Contents R) :
    Option CacheEntry :=
  (cache.searchExact now (cache.cacheKey prompt) agentRole contents).filter fun entry =>
    !(cache.failClosed && !entry.verified.isTruthy)

def get (prompt agentRole : String) (threshold : Option R) (now : Int) (contents : Contents R) :
    Option PyValue × Contents R :=
  match cache.exactEntry prompt agentRole now contents with
  | some entry =>
    if cache.expired now entry.createdAt entry.ttlSeconds then
      cache.getSimilar prompt agentRole threshold now
        (cache.deleteEntry entry.promptHash contents)
    else
      (some entry.response, cache.updateHitCount now entry.promptHash entry.hitCount contents)
  | none => cache.getSimilar prompt agentRole threshold now contents

def ttlOf (call : SetCall) : Int :=
  match call.ttlSeconds with
  | some seconds => if seconds = 0 then cache.defaultTtl else seconds
  | none => cache.defaultTtl

/-- `bool((metadata or {}).get("verified", False))`. -/
def verifiedOf (call : SetCall) : PyValue :=
  .bool (RuscaDBStore.get call.metadata "verified").isTruthy

def entryMetadata (call : SetCall) (dumped : String) : Members :=
  [(.str "prompt_hash", .str (cache.cacheKey call.prompt)),
    (.str "prompt_text", .str (textPrefix 500 call.prompt)),
    (.str "response", .str call.response),
    (.str "agent_role", .str call.agentRole),
    (.str "hit_count", .int 1),
    (.str "created_at", .str (cache.isoFormat call.now)),
    (.str "last_accessed", .str (cache.isoFormat call.now)),
    (.str "ttl_seconds", .int (cache.ttlOf call)),
    (.str "metadata", .str dumped),
    (.str "prompt_text_short", .str (textPrefix 200 call.prompt)),
    (.str "dataset_version", .str cache.datasetVersion),
    (.str "verified", verifiedOf call)]

def rowOf (call : SetCall) (dumped : String) : Row R where
  id := call.id
  vector := cache.embeddingFn call.prompt
  metadata :=
    match cache.backend with
    | .ruscadb table => table.tag (cache.entryMetadata call dumped)
    | _ => cache.entryMetadata call dumped
  createdAt := cache.isoFormat call.now

def keyedMetadata (call : SetCall) : Members :=
  [(.str "cached_at", .str (cache.isoFormat call.now)),
    (.str "ttl_sec", .int (cache.ttlOf call)),
    (.str "dataset_version", .str cache.datasetVersion),
    (.str "verified", verifiedOf call)]

/-- The keyed rows after a `set`, `none` when the store raises. -/
def persist (call : SetCall) (keyed : List KeyedRow) : Option (List KeyedRow) :=
  match cache.backend with
  | .ruscadb _ =>
    RuscaTable.cacheSet (cache.cacheKey call.prompt) (.str call.response)
      (cache.keyedMetadata call) keyed
  | _ => some keyed

def set (call : SetCall) (contents : Contents R) : Except PyException Bool × Contents R :=
  let cleared := cache.tryRemovePending (cache.cacheKey call.prompt) contents
  match jsonDumps (.dict call.metadata) with
  | .error raised => (.error raised, cleared)
  | .ok dumped =>
    if call.accepted then
      let inserted := { cleared with rows := cleared.rows ++ [cache.rowOf call dumped] }
      match cache.persist call inserted.keyed with
      | some keyed => (.ok true, cache.maybeSweep call.now { inserted with keyed := keyed })
      | none => (.ok false, inserted)
    else (.ok false, cleared)

def after (calls : List SetCall) : Contents R :=
  calls.foldl (fun contents call => (cache.set call contents).2) .empty

end Methods

end SemanticCache

end Swarmind.MemoryRag
