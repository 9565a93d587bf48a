import Swarmind.MemoryRag.RuscaDBStore.Rows
import Mathlib.Data.Rat.Defs

/-!
Owns the retrieval entry points of the store and the governance of their results,
`_apply_trust_and_recency`. The engine, the clock and the draw that samples a
query for calibration are parameters; within one call the engine answers the
same question the same way. The counters of binary queries and the tuner's
observations, which no result depends on within a call, are left out.
-/

namespace Swarmind.MemoryRag.RuscaDBStore

open Swarmind.Library

/-- What the store needs of Python floats. Nothing is assumed of the arithmetic. -/
class PyFloat (R : Type) extends Add R, Mul R, Div R, Neg R, LT R where
  decidableLT : DecidableRel ((· < ·) : R → R → Prop)
  /-- The float of a literal or of an integer. -/
  ofRat : ℚ → R
  repr : R → String
  exp : R → R
  log : R → R

instance lessDecidable {R : Type} [PyFloat R] : DecidableRel ((· < ·) : R → R → Prop) :=
  PyFloat.decidableLT

/-- The floats themselves. The text of a float is used in queries only. -/
instance : PyFloat Float where
  decidableLT := fun left right => inferInstanceAs (Decidable (left < right))
  ofRat number := Float.ofInt number.num / Float.ofNat number.den
  repr := Float.toString
  exp := Float.exp
  log := Float.log

/-- `items[:limit]`. -/
def slice {α : Type} (items : List α) (limit : Int) : List α :=
  items.take (if 0 ≤ limit then limit.toNat else (items.length + limit).toNat)

/-- A hit of the vector searches of the engine. -/
structure Hit (R : Type) where
  id : PyValue
  distance : Option R

/-- `str(hit.get("id") or "")`. -/
def Hit.rid {R : Type} (hit : Hit R) : String := (hit.id.orElse (.str "")).text

structure Engine (R : Type) where
  /-- `capabilities()`. -/
  exports : String → Bool
  execute : String → Except PyException PyValue
  getRecord : String → String → Except PyException PyValue
  searchBq : String → List R → Int → Int → Except PyException (List (Hit R))
  searchQuantized : String → List R → Int → Except PyException (List (Hit R))
  searchFiltered : String → List R → List String → Int → Except PyException (List (Hit R))

structure Store (R : Type) where
  engine : Engine R
  /-- `half_life_for` of the heat policy. -/
  heatPolicy : Option (String → R)
  textColumns : Dict String String
  /-- `value_for` of the tuner. -/
  oversampleFor : String → Int
  calibrateBq : Bool
  calibrationRate : R
  /-- `random.random()`. -/
  draw : R
  /-- `datetime.fromisoformat` in microseconds, naive times read as UTC. -/
  fromIsoFormat : String → Option Int
  now : Int

/-- The keyword arguments of the entry points. -/
structure Kwargs (R : Type) where
  filters : Option (List (String × PyValue)) := none
  allowQuarantined : Bool := false
  minTrust : Option R := none
  halfLifeDays : Option R := none
  includeEvicted : Bool := false

structure TrustOptions (R : Type) where
  allowQuarantined : Bool
  minTrust : R
  halfLifeDays : Option R
  includeEvicted : Bool

/-- The calls that return items. -/
inductive Retrieval (R : Type) where
  | search (collection : String) (queryVector : List R) (topK : Int) (kwargs : Kwargs R)
  | fullTextSearch (collection query : String) (topK : Int) (kwargs : Kwargs R)
  | hybridSearch (collection : String) (queryVector : List R) (queryText : String) (topK : Int)
      (kwargs : Kwargs R)
  | searchBinary (collection : String) (queryVector : List R) (topK : Int)
      (oversample : Option Int) (calibrate : Option Bool) (kwargs : Kwargs R)
  | searchQuantized (collection : String) (queryVector : List R) (topK : Int)
  | searchFiltered (collection : String) (queryVector : List R) (allowedIds : List String)
      (topK : Int)
  | searchAdaptive (collection : String) (queryVector : List R) (topK : Int) (strategy : String)
      (allowedIds : Option (List String)) (oversample : Option Int)
  | graphTraverse (collection : String) (depth : Int) (start : Option String) (kwargs : Kwargs R)

def trustTierWeights : List (String × ℚ) :=
  [("verified", 1), ("user_stated", 1), ("derived", 0.85), ("agent", 0.7), ("external", 0.5),
    ("quarantined", 0)]

def rrfK : Nat := 60

/-- `value.replace("'", "''")`. -/
def escapeLiteral (value : String) : String :=
  String.ofList (value.toList.flatMap fun character =>
    if character = '\'' then ['\'', '\''] else [character])

/-- `_IDENT_RE`. Its `$` also matches before a last newline. -/
def isIdent (name : String) : Bool :=
  let isStart (character : Char) : Bool := character.isAlpha || character = '_'
  let body := if name.toList.getLast? = some '\n' then name.toList.dropLast else name.toList
  match body with
  | [] => false
  | first :: rest =>
    isStart first && rest.all fun character => isStart character || character.isDigit

def safeIdent (name : String) : Except PyException String :=
  if isIdent name then .ok name
  else .error (.valueError s!"identificador RQL invalido: {pyRepr name}")

def matchesFilters {R : Type} (item : Item R) (filters : Option (List (String × PyValue))) : Bool :=
  let shown (key : String) : PyValue :=
    if key = "id" then item.id
    else if key = "text" then item.text
    else if key = "metadata" then item.metadata
    else if key = "created_at" then item.createdAt
    else if key = "raw" then
      match item.raw with
      | .row columns => .dict columns
      | .record fields => .dict fields
    else .none
  (filters.getD []).all fun filter =>
    (shown filter.1).equals filter.2 ||
      (get ((asMembers item.metadata).getD []) filter.1).equals filter.2

namespace Store

variable {R : Type} [PyFloat R] (store : Store R)

def number (value : ℚ) : R := PyFloat.ofRat value

/-- `max(left, right)`. -/
def larger (left right : R) : R := if left < right then right else left

def scoreOf (item : Item R) : R := item.score.getD (number 0)

def sortByScore (items : List (Item R)) : List (Item R) :=
  items.mergeSort fun left right => !decide (scoreOf left < scoreOf right)

def retrievalOptions (kwargs : Kwargs R) (collection : String) : TrustOptions R where
  allowQuarantined := kwargs.allowQuarantined
  minTrust := kwargs.minTrust.getD (number 0)
  halfLifeDays := kwargs.halfLifeDays <|> store.heatPolicy.map fun halfLifeFor =>
    halfLifeFor collection
  includeEvicted := kwargs.includeEvicted

def ageDays : PyValue → Option R
  | .str text =>
    (store.fromIsoFormat text).map fun moment =>
      larger (number (((store.now - moment : Int) : ℚ) / 1000000) / number 86400) (number 0)
  | _ => none

/-- `math.log(2.0) / float(half_life_days)`, or no decay. -/
def decayRate (halfLifeDays : Option R) : R :=
  match halfLifeDays with
  | some halfLife =>
    if number 0 < halfLife then PyFloat.log (number 2) / halfLife else number 0
  | none => number 0

/-- `str(meta.get("trust_tier") or "user_stated")`. -/
def tierOf (metadata : Members) : String :=
  ((get metadata "trust_tier").orElse (.str "user_stated")).text

def weightOf (tier : String) : R :=
  number ((Dict.find tier trustTierWeights).getD 0.5)

/-- `math.exp(-decay_rate * age)`. A use of the memory counts for its creation. -/
def recencyOf (decay : R) (metadata : Members) (item : Item R) : R :=
  if number 0 < decay then
    let stamp := (get metadata "last_accessed").orElse
      (item.createdAt.orElse (get metadata "created_at"))
    match store.ageDays stamp with
    | some age => PyFloat.exp (-decay * age)
    | none => number 1
  else number 1

/-- One item of `_apply_trust_and_recency`; `none` when it is excluded. -/
def govern (options : TrustOptions R) (item : Item R) : Option (Item R) :=
  let metadata := (asMembers item.metadata).getD []
  let tier := tierOf metadata
  let weight : R := weightOf tier
  if (get metadata "evicted").isTruthy && !options.includeEvicted then none
  else if tier = "quarantined" && !options.allowQuarantined then none
  else if weight < options.minTrust then none
  else
    let recency := store.recencyOf (decayRate options.halfLifeDays) metadata item
    some { item with
      trustTier := some tier
      trustWeight := some weight
      recencyWeight := some recency
      score := some (scoreOf item * weight * recency) }

def applyTrustAndRecency (items : List (Item R)) (topK : Int) (options : TrustOptions R) :
    List (Item R) :=
  slice (sortByScore (items.filterMap (store.govern options))) topK

def rankScores (items : List (Item R)) : List (Item R) :=
  items.zipIdx.map fun ranked => { ranked.1 with score := some (number 1 / number (ranked.2 + 1)) }

/-- `json.dumps(qv)`. -/
def vectorText (vector : List R) : String :=
  "[" ++ ", ".intercalate (vector.map PyFloat.repr) ++ "]"

/-- The end that `search` and `full_text_search` share. -/
def governRows (rows : PyValue) (collection : String) (topK : Int) (kwargs : Kwargs R) :
    Except PyException (List (Item R)) := do
  let parsed ← parseRows rows
  let matching := parsed.filter fun item => matchesFilters item kwargs.filters
  pure (store.applyTrustAndRecency (rankScores matching) topK
    (store.retrievalOptions kwargs collection))

/-- `try: rows = execute(..) except RuscadbError: return []`. -/
def withRows (sql : String) (next : PyValue → Except PyException (List (Item R))) :
    Except PyException (List (Item R)) :=
  match store.engine.execute sql with
  | .ok rows => next rows
  | .error raised => if isRuscadbError raised then .ok [] else .error raised

def search (collection : String) (queryVector : List R) (topK : Int) (kwargs : Kwargs R) :
    Except PyException (List (Item R)) := do
  let table ← safeIdent collection
  store.withRows
    s!"SELECT * FROM {table} KNN embedding <|{topK}|> {vectorText queryVector}"
    fun rows => store.governRows rows collection topK kwargs

def textColumn (collection : String) : Except PyException String :=
  match store.textColumns.get? collection with
  | some column => .ok column
  | none => do
    let table ← safeIdent collection
    match store.engine.execute s!"SELECT text FROM {table} LIMIT 1" with
    | .ok _ => pure "text"
    | .error raised => if isRuscadbError raised then pure "metadata" else .error raised

def fullTextSearch (collection query : String) (topK : Int) (kwargs : Kwargs R) :
    Except PyException (List (Item R)) :=
  if isBlank query then .ok []
  else do
    let column ← store.textColumn collection
    let table ← safeIdent collection
    store.withRows
      s!"SELECT * FROM {table} WHERE MATCH({column}, '{escapeLiteral query}')"
      fun rows => store.governRows rows collection topK kwargs

/-! ### Hybrid search -/

inductive Source where
  | dense
  | sparse
deriving DecidableEq

/-- One item of the reciprocal rank fusion. -/
def fuseItem (source : Source) (fused : Dict String (Item R)) (ranked : Item R × Nat) :
    Dict String (Item R) :=
  let key := ranked.1.id.text
  let entry := (fused.get? key).getD { ranked.1 with score := some (number 0) }
  let score := scoreOf entry + number 1 / number (rrfK + ranked.2 + 1)
  fused.set key
    (match source with
    | .dense => { entry with denseRank := some ranked.2, score := some score }
    | .sparse => { entry with sparseRank := some ranked.2, score := some score })

def fuse (source : Source) (items : List (Item R)) (fused : Dict String (Item R)) :
    Dict String (Item R) :=
  items.zipIdx.foldl (fuseItem source) fused

def hybridSearch (collection : String) (queryVector : List R) (queryText : String) (topK : Int)
    (kwargs : Kwargs R) : Except PyException (List (Item R)) := do
  let options := store.retrievalOptions kwargs collection
  let passed : Kwargs R :=
    { filters := kwargs.filters
      allowQuarantined := options.allowQuarantined
      minTrust := some options.minTrust
      halfLifeDays := options.halfLifeDays
      includeEvicted := options.includeEvicted }
  let dense ← store.search collection queryVector (topK * 2) passed
  let sparse ←
    (if queryText = "" then .ok []
    else store.fullTextSearch collection queryText (topK * 2) passed)
  let fused := fuse .sparse sparse (fuse .dense dense .empty)
  pure (store.applyTrustAndRecency (sortByScore fused.values) topK options)

/-! ### Records and vector searches of the engine -/

def getRecord (collection rid : String) : Except PyException PyValue :=
  if store.engine.exports "ruscadb_get_record" then
    match store.engine.getRecord collection rid with
    | .ok record => .ok record
    | .error raised => if isRuscadbError raised then .ok .none else .error raised
  else .ok .none

def firstRid : List PyValue → Except PyException (Option String)
  | [] => .ok none
  | row :: rest => do
    let cell ← getFrom row "rid"
    let rid := unwrapScalar cell
    if rid.isTruthy then pure (some rid.text) else firstRid rest

def findRid (collection logicalId : String) : Except PyException (Option String) :=
  let found : Except PyException (Option String) := do
    let rows ← store.engine.execute
      (s!"SELECT rid FROM _rid_map WHERE id = '{escapeLiteral logicalId}' " ++
        s!"AND collection = '{escapeLiteral collection}' LIMIT 1")
    let parsed ← loadRows rows
    let values ← iterate (parsed.orElse (.list []))
    firstRid values
  match found with
  | .ok rid => .ok rid
  | .error raised =>
    if isRuscadbError raised || raised.typeName = "JSONDecodeError" ||
        raised.typeName = "TypeError" then .ok none
    else .error raised

def resolveHitRecord (collection rid : String) : Except PyException PyValue :=
  if rid = "" then .ok .none
  else do
    let record ← store.getRecord collection rid
    if record.isTruthy then pure record
    else
      let resolved ← store.findRid collection rid
      match resolved with
      | some other => if other = "" then pure .none else store.getRecord collection other
      | none => pure .none

def binaryItems (collection : String) (factor : Int) :
    List (Hit R) → Except PyException (List (Item R))
  | [] => .ok []
  | hit :: rest => do
    let record ← store.resolveHitRecord collection hit.rid
    if record.isTruthy then
      let item ← recordToItem record
      let distance := hit.distance.getD (number 0)
      let scored := { item with
        distance := some distance
        oversample := some factor
        score := some (number 1 / (number 1 + larger distance (number 0))) }
      let later ← binaryItems collection factor rest
      pure (scored :: later)
    else binaryItems collection factor rest

def binaryFactor (collection : String) (oversample : Option Int) : Int :=
  oversample.getD (store.oversampleFor collection)

def runBinary (collection : String) (query : List R) (topK factor : Int) :
    Except PyException (Option (List (Hit R))) :=
  match store.engine.searchBq collection query topK (max factor 1) with
  | .ok hits => .ok (some hits)
  | .error raised => if isRuscadbError raised then .ok none else .error raised

def shouldCalibrate (calibrate : Option Bool) : Bool :=
  calibrate.getD store.calibrateBq && decide (number 0 < store.calibrationRate) &&
    decide (store.draw < store.calibrationRate)

def searchBinary (collection : String) (queryVector : List R) (topK : Int)
    (oversample : Option Int) (calibrate : Option Bool) (kwargs : Kwargs R) :
    Except PyException (List (Item R)) :=
  if store.engine.exports "ruscadb_search_bq" then do
    let factor := store.binaryFactor collection oversample
    match ← store.runBinary collection queryVector topK factor with
    | none => store.search collection queryVector topK kwargs
    | some hits =>
      let items ← store.binaryItems collection factor hits
      -- `_calibrate_oversample` keeps nothing of its search but a recall
      if store.shouldCalibrate calibrate then
        let _ ← store.search collection queryVector topK {}
      pure (store.applyTrustAndRecency items topK (store.retrievalOptions kwargs collection))
  else store.search collection queryVector topK kwargs

def searchQuantized (collection : String) (queryVector : List R) (topK : Int) :
    Except PyException (List (Item R)) :=
  if store.engine.exports "ruscadb_search_quantized" then
    match store.engine.searchQuantized collection queryVector topK with
    | .ok hits => store.binaryItems collection 1 hits
    | .error raised =>
      if isRuscadbError raised then store.searchBinary collection queryVector topK none none {}
      else .error raised
  else store.searchBinary collection queryVector topK none none {}

def searchAllowed (collection : String) (queryVector : List R) (allowed : List String)
    (topK : Int) : Except PyException (List (Item R)) := do
  let exact ← store.search collection queryVector (max topK allowed.length) {}
  pure (slice (exact.filter fun item => item.id.text ∈ allowed) topK)

/-- `[self._find_rid(collection, logical) or logical for logical in allowed]`. -/
def allowedRids (collection : String) (allowed : List String) : Except PyException (List String) :=
  allowed.mapM fun logical => do
    let rid ← store.findRid collection logical
    pure (match rid with
      | some rid => if rid = "" then logical else rid
      | none => logical)

/-- `search_filtered`. The set of allowed ids is passed on in the order of their
first occurrences. -/
def searchFiltered (collection : String) (queryVector : List R) (allowedIds : List String)
    (topK : Int) : Except PyException (List (Item R)) :=
  let allowed := Dict.firsts allowedIds
  if allowed = [] then .ok []
  else if store.engine.exports "ruscadb_search_filtered" then do
    let rids ← store.allowedRids collection allowed
    match store.engine.searchFiltered collection queryVector rids topK with
    | .ok hits => store.binaryItems collection 1 hits
    | .error raised =>
      if isRuscadbError raised then store.searchAllowed collection queryVector allowed topK
      else .error raised
  else store.searchAllowed collection queryVector allowed topK

def searchAdaptive (collection : String) (queryVector : List R) (topK : Int) (strategy : String)
    (allowedIds : Option (List String)) (oversample : Option Int) :
    Except PyException (List (Item R)) :=
  let allowed := allowedIds.getD []
  let selected := if allowed = [] then strategy else "filtered"
  if selected = "filtered" then store.searchFiltered collection queryVector allowed topK
  else if selected = "binary" then
    store.searchBinary collection queryVector topK oversample none {}
  else if selected = "quantized" then store.searchQuantized collection queryVector topK
  else store.search collection queryVector topK {}

/-! ### Graph traversal -/

def edgeTargets (visited : List String) : List PyValue → Except PyException (List String)
  | [] => .ok []
  | edge :: rest => do
    let target ← getFrom edge "node"
    let later ← edgeTargets visited rest
    pure (match target with
      | .str rid => if rid ∈ visited then later else rid :: later
      | _ => later)

def outEdges (record : PyValue) : Except PyException (List PyValue) := do
  let edges ← getFrom record "edges"
  let out ← getFrom (edges.orElse (.dict [])) "out"
  iterate (out.orElse (.list []))

/-- One frontier of `_traverse_from`: what has been visited, the items and the
next frontier. -/
def traverseFrontier (collection : String) :
    List String → List String → Except PyException (List String × List (Item R) × List String)
  | [], visited => .ok (visited, [], [])
  | rid :: rest, visited =>
    if rid ∈ visited then traverseFrontier collection rest visited
    else do
      let visited := visited ++ [rid]
      let record ← store.getRecord collection rid
      if record.isTruthy then
        let item ← recordToItem record
        let edges ← outEdges record
        let targets ← edgeTargets visited edges
        let (visited, items, frontier) ← traverseFrontier collection rest visited
        pure (visited, item :: items, targets ++ frontier)
      else traverseFrontier collection rest visited

def traverseLevels (collection : String) :
    Nat → List String → List String → Except PyException (List (Item R))
  | 0, _, _ => .ok []
  | depth + 1, visited, frontier => do
    let (visited, items, frontier) ← store.traverseFrontier collection frontier visited
    if frontier = [] then pure items
    else
      let later ← traverseLevels collection depth visited frontier
      pure (items ++ later)

def traverseFrom (collection start : String) (depth : Nat) : Except PyException (List (Item R)) :=
  store.traverseLevels collection depth [] [start]

/-- The end of `graph_traverse`. -/
def governNodes (nodes : List (Item R)) (collection : String) (kwargs : Kwargs R) : List (Item R) :=
  store.applyTrustAndRecency (rankScores nodes) nodes.length
    (store.retrievalOptions kwargs collection)

def graphTraverse (collection : String) (depth : Int) (start : Option String)
    (kwargs : Kwargs R) : Except PyException (List (Item R)) :=
  let depth := (max 1 depth).toNat
  match start.filter fun rid => rid ≠ "" with
  | some rid => do
    let nodes ← store.traverseFrom collection rid depth
    pure (store.governNodes nodes collection kwargs)
  | none => do
    let table ← safeIdent collection
    store.withRows s!"SELECT * FROM {table} TRAVERSE edges DEPTH {depth}" fun rows => do
      let nodes ← parseRows rows
      pure (store.governNodes nodes collection kwargs)

/-! ### Calls -/

def retrieve : Retrieval R → Except PyException (List (Item R))
  | .search collection queryVector topK kwargs => store.search collection queryVector topK kwargs
  | .fullTextSearch collection query topK kwargs =>
    store.fullTextSearch collection query topK kwargs
  | .hybridSearch collection queryVector queryText topK kwargs =>
    store.hybridSearch collection queryVector queryText topK kwargs
  | .searchBinary collection queryVector topK oversample calibrate kwargs =>
    store.searchBinary collection queryVector topK oversample calibrate kwargs
  | .searchQuantized collection queryVector topK =>
    store.searchQuantized collection queryVector topK
  | .searchFiltered collection queryVector allowedIds topK =>
    store.searchFiltered collection queryVector allowedIds topK
  | .searchAdaptive collection queryVector topK strategy allowedIds oversample =>
    store.searchAdaptive collection queryVector topK strategy allowedIds oversample
  | .graphTraverse collection depth start kwargs =>
    store.graphTraverse collection depth start kwargs

end Store

end Swarmind.MemoryRag.RuscaDBStore
