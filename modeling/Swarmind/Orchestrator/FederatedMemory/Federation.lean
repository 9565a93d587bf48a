import Mathlib.Algebra.Ring.Int.Defs
import Mathlib.Data.List.Dedup
import Mathlib.Data.List.Sort
import Swarmind.Library.Runs
import Swarmind.Orchestrator.FederatedMemory.Records

/-!
Owns the federated memory: the local store of a project, the shared directory
with one file for each project, and the calls that read and write both. A
federation is any number of projects over one directory.

The order in which `glob` lists the files and the order of `list(set(..))` are
arguments of the calls. A file that `json.dump` broke off is there, and does not
decode.
-/

namespace Swarmind.Orchestrator.FederatedMemory

open Swarmind.Library

/-- The records that a project file reads back as; `none` does not decode. -/
abbrev ProjectFile (C : Type) := Option (List (KnowledgeRecord C))

abbrev Directory (C : Type) := Dict String (ProjectFile C)

/-- `_local_store`: records filed under their own ids. -/
structure LocalStore (C : Type) where
  records : Dict String (KnowledgeRecord C)
  keyed : ∀ id record, records.get? id = some record → record.id = id

namespace LocalStore

variable {C : Type}

def empty : LocalStore C := ⟨Dict.empty, fun _ _ found => by cases found⟩

def get? (store : LocalStore C) (id : String) : Option (KnowledgeRecord C) := store.records.get? id

def put (store : LocalStore C) (record : KnowledgeRecord C) : LocalStore C where
  records := store.records.set record.id record
  keyed := by
    intro id other found
    rw [Dict.get?_set] at found
    split_ifs at found with same
    · exact Option.some.inj found ▸ same
    · exact store.keyed id other found

def drop (store : LocalStore C) (id : String) : LocalStore C where
  records := store.records.erase id
  keyed := by
    intro other record found
    rw [Dict.get?_erase] at found
    split_ifs at found
    exact store.keyed other record found

/-- What the store reads back as once it is written. -/
def saved (store : LocalStore C) : ProjectFile C :=
  (store.records.traverse KnowledgeRecord.reread).map Dict.values

/-- A record with this id and version would be imported: there is none under the
id, or an older one. -/
def imports (store : LocalStore C) (record : KnowledgeRecord C) : Bool :=
  (store.get? record.id).all fun existing => decide (existing.version < record.version)

/-- The body of the inner loop of `sync`, with its counter. -/
def mergeRecord (merged : LocalStore C × Nat) (record : KnowledgeRecord C) : LocalStore C × Nat :=
  if merged.1.imports record then (merged.1.put record, merged.2 + 1) else merged

end LocalStore

/-- The records of a file that exists and decodes. -/
def readFile {C : Type} (dir : Directory C) (name : String) : List (KnowledgeRecord C) :=
  ((dir.get? name).getD none).getD []

/-- `glob("knowledge_*.json")`, in the order it happens to have. -/
def globbed {C : Type} (dir : Directory C) (order : List String) : List String :=
  if order.Perm dir.keys then order else dir.keys

def listOfSet (items arranged : List String) : List String :=
  if arranged.Perm items.dedup then arranged else items.dedup

/-- `items[:limit]`. -/
def slice {α : Type} (items : List α) (limit : Int) : List α :=
  items.take (if 0 ≤ limit then limit.toNat else (items.length + limit).toNat)

/-- Arguments of `store_knowledge`, the clock it reads and the order of its set. -/
structure StoreRequest (C : Type) where
  key : String
  value : PyValue
  type : KnowledgeType
  sourceAgent : String
  tags : List String
  confidence : C
  ttlSeconds : Int
  now : Int
  arranged : List String

/-- Arguments of `query_knowledge` and the clock it reads. -/
structure Query (C : Type) where
  keyPrefix : String
  type : Option KnowledgeType
  tags : List String
  minConfidence : C
  includeExpired : Bool
  limit : Int
  now : Int

/-- What a call leaves behind: its answer, the local store and the directory. -/
structure Outcome (C β : Type) where
  result : Except PyException β
  store : LocalStore C
  dir : Directory C

/-! ### Calls of one project -/

section Calls

variable {C : Type} (project : String) (store : LocalStore C) (dir : Directory C)

def saveLocal : Outcome C Unit where
  result := if store.saved.isSome then .ok () else .error .notSerializable
  store := store
  dir := dir.set (projectFile project) store.saved

def loadLocal : LocalStore C :=
  (readFile dir (projectFile project)).foldl LocalStore.put store

def storedRecord (request : StoreRequest C) : KnowledgeRecord C :=
  match store.get? (recordId request.type project request.key) with
  | some existing =>
    { existing with
      value := request.value
      version := existing.version + 1
      updatedAt := request.now
      confidence := request.confidence
      tags := listOfSet (existing.tags ++ request.tags) request.arranged }
  | none =>
    { id := recordId request.type project request.key
      type := request.type
      sourceProject := project
      sourceAgent := request.sourceAgent
      key := request.key
      value := request.value
      tags := request.tags
      version := 1
      createdAt := request.now
      updatedAt := request.now
      ttlSeconds := request.ttlSeconds
      confidence := request.confidence }

def storeKnowledge (request : StoreRequest C) : Outcome C (KnowledgeRecord C) :=
  let record := storedRecord project store request
  let written := saveLocal project (store.put record) dir
  ⟨written.result.map fun () => record, written.store, written.dir⟩

def deleteKnowledge (key : String) (type : KnowledgeType) : Outcome C Bool :=
  if (store.get? (recordId type project key)).isSome then
    let written := saveLocal project (store.drop (recordId type project key)) dir
    ⟨written.result.map fun () => true, written.store, written.dir⟩
  else ⟨.ok false, store, dir⟩

/-- One pass of the outer loop of `sync` over a file that is not our own. -/
def mergeFile (merged : LocalStore C × Nat) (name : String) : LocalStore C × Nat :=
  (readFile dir name).foldl LocalStore.mergeRecord merged

def sync (order : List String) : Outcome C Nat :=
  let peers := (globbed dir order).filter fun name => name ≠ projectFile project
  let merged := peers.foldl (mergeFile dir) (store, 0)
  let written := saveLocal project merged.1 dir
  ⟨written.result.map fun () => merged.2, written.store, written.dir⟩

def clear : Outcome C Unit := saveLocal project LocalStore.empty dir

variable [LinearOrder C]

/-- The filters of the loop of `query_knowledge`. -/
def Query.selects (query : Query C) (record : KnowledgeRecord C) : Bool :=
  query.type.all (fun type => decide (record.type = type)) &&
    (query.keyPrefix.toList.isPrefixOf record.key.toList) &&
    (query.tags.all fun tag => record.tags.contains tag) &&
    !decide (record.confidence < query.minConfidence) &&
    (query.includeExpired || !record.isExpired query.now)

/-- The selected records, by falling confidence; ties keep their order. -/
def Query.ranked (query : Query C) (store : LocalStore C) : List (KnowledgeRecord C) :=
  (store.records.values.filter query.selects).insertionSort
    fun left right => right.confidence ≤ left.confidence

def queryKnowledge (query : Query C) : Outcome C (List (KnowledgeRecord C)) :=
  let loaded := loadLocal project store dir
  ⟨.ok (slice (query.ranked loaded) query.limit), loaded, dir⟩

def getKnowledge [Zero C] (key : String) (type : KnowledgeType) (now : Int) :
    Outcome C (Option (KnowledgeRecord C)) :=
  let answer := queryKnowledge project store dir
    ⟨key, some type, [], 0, false, 1, now⟩
  ⟨answer.result.map List.head?, answer.store, answer.dir⟩

end Calls

/-! ### The federation -/

/-- The public calls. `construct` is `__init__`, which reads the project's file. -/
inductive Call (C : Type) where
  | construct
  | storeKnowledge (request : StoreRequest C)
  | deleteKnowledge (key : String) (type : KnowledgeType)
  | queryKnowledge (query : Query C)
  | getKnowledge (key : String) (type : KnowledgeType) (now : Int)
  | sync (order : List String)
  | clear

inductive Reply (C : Type) where
  | none
  | stored (record : KnowledgeRecord C)
  | deleted (removed : Bool)
  | records (records : List (KnowledgeRecord C))
  | found (record : Option (KnowledgeRecord C))
  | imported (count : Nat)

def Outcome.reply {C β : Type} (outcome : Outcome C β) (embed : β → Reply C) :
    Outcome C (Reply C) :=
  ⟨outcome.result.map embed, outcome.store, outcome.dir⟩

section Federation

variable {ι C : Type} [DecidableEq ι] [LinearOrder C] [Zero C]

def perform (project : String) (store : LocalStore C) (dir : Directory C) :
    Call C → Outcome C (Reply C)
  | .construct => ⟨.ok .none, loadLocal project LocalStore.empty dir, dir⟩
  | .storeKnowledge request => (storeKnowledge project store dir request).reply .stored
  | .deleteKnowledge key type => (deleteKnowledge project store dir key type).reply .deleted
  | .queryKnowledge query => (queryKnowledge project store dir query).reply .records
  | .getKnowledge key type now => (getKnowledge project store dir key type now).reply .found
  | .sync order => (sync project store dir order).reply .imported
  | .clear => (clear project dir).reply fun () => .none

/-- Projects over one directory, each with its local store. -/
structure Federation (ι C : Type) where
  stores : ι → LocalStore C
  dir : Directory C

/-- Fresh stores over an empty directory. -/
def Federation.initial : Federation ι C := ⟨fun _ => LocalStore.empty, Dict.empty⟩

/-- The calls of all projects, one after the other. -/
def federation (names : ι → String) :
    Machine (Federation ι C) (ι × Call C) (Except PyException (Reply C)) where
  step state call :=
    let outcome := perform (names call.1) (state.stores call.1) state.dir call.2
    (outcome.result, ⟨Function.update state.stores call.1 outcome.store, outcome.dir⟩)

end Federation

def twoProjects (first second : String) : Bool → String
  | false => first
  | true => second

end Swarmind.Orchestrator.FederatedMemory
