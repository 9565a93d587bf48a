import Swarmind.Library.Json
import Swarmind.Library.Python

/-!
Owns the records of the federated memory: their types and ids, what a record
reads back as from a project file, and the names of these files.

The ISO texts of the timestamps stand for instants, counted in microseconds.
Confidences are elements of an arbitrary type.

It also owns the documents of the federated memory: what `from_dict` accepts and raises,
what `to_dict` writes, and how the records of a project file are reached.

`from_dict` checks the names of the fields and the text of the type, and nothing
else, so the fields of a record hold whatever the document holds.
-/

namespace Swarmind.Orchestrator.FederatedMemory

open Swarmind.Library

inductive KnowledgeType where
  | pattern
  | prompt
  | adr
  | metric
  | embedding
  | skill
deriving DecidableEq, Repr

/-- The text of the enumeration member. -/
def KnowledgeType.value : KnowledgeType → String
  | .pattern => "pattern"
  | .prompt => "prompt"
  | .adr => "adr"
  | .metric => "metric"
  | .embedding => "embedding"
  | .skill => "skill"

structure KnowledgeRecord (C : Type) where
  id : String
  type : KnowledgeType
  sourceProject : String
  sourceAgent : String
  key : String
  value : PyValue
  tags : List String
  version : Int
  createdAt : Int
  updatedAt : Int
  ttlSeconds : Int
  confidence : C

/-- `record_id`: type, project and key between colons. -/
def recordId (type : KnowledgeType) (project key : String) : String :=
  type.value ++ ":" ++ project ++ ":" ++ key

/-- `safe_name`: blanks and slashes of a project name become underscores. -/
def safeName (project : String) : String :=
  String.ofList (project.toList.map fun character =>
    if character = ' ' ∨ character = '/' then '_' else character)

def projectFile (project : String) : String := "knowledge_" ++ safeName project ++ ".json"

namespace KnowledgeRecord

variable {C : Type}

def isExpired (record : KnowledgeRecord C) (now : Int) : Bool :=
  decide (0 < record.ttlSeconds) &&
    decide (record.ttlSeconds * 1000000 < now - record.createdAt)

/-- `from_dict` of the dictionary that `json.load` returns for `to_dict`: every
field is as it was, but for the value. `none` where the value cannot be written. -/
def reread (record : KnowledgeRecord C) : Option (KnowledgeRecord C) :=
  record.value.stored.map fun back => { record with value := back }

theorem reread_eq_some_iff (record back : KnowledgeRecord C) :
    record.reread = some back ↔
      record.value.stored = some back.value ∧ back = { record with value := back.value } := by
  rw [reread, Option.map_eq_some_iff]
  constructor
  · rintro ⟨value, reads, rfl⟩
    exact ⟨reads, rfl⟩
  · rintro ⟨reads, same⟩
    exact ⟨back.value, reads, same.symm⟩

theorem reread_isSome (record : KnowledgeRecord C) :
    record.reread.isSome = record.value.stored.isSome := by
  rw [reread, Option.isSome_map]

section Reread

variable {record back : KnowledgeRecord C} (reads : record.reread = some back)

include reads

theorem reread_id : back.id = record.id := by
  rw [((reread_eq_some_iff record back).mp reads).2]

theorem reread_version : back.version = record.version := by
  rw [((reread_eq_some_iff record back).mp reads).2]

/-- What was read back is read back as it is. -/
theorem reread_reread : back.reread = some back := by
  obtain ⟨stored, same⟩ := (reread_eq_some_iff record back).mp reads
  exact (reread_eq_some_iff back back).mpr ⟨(PyValue.stored_native stored).stored_eq, rfl⟩

end Reread

/-- The id is built from the type, the source project and the key. -/
def Identified (record : KnowledgeRecord C) : Prop :=
  record.id = recordId record.type record.sourceProject record.key

theorem Identified.reread {record back : KnowledgeRecord C} (identified : record.Identified)
    (reads : record.reread = some back) : back.Identified := by
  rw [((reread_eq_some_iff record back).mp reads).2]
  exact identified

end KnowledgeRecord

/-! ### Ids -/

private theorem KnowledgeType.value_injective {first second : KnowledgeType}
    (same : first.value = second.value) : first = second := by
  cases first <;> cases second <;> first | rfl | exact absurd same (by decide)

private theorem KnowledgeType.colon_notMem (type : KnowledgeType) : ':' ∉ type.value.toList := by
  cases type <;> decide

private theorem recordId_toList (type : KnowledgeType) (project key : String) :
    (recordId type project key).toList =
      type.value.toList ++ ':' :: (project ++ ":" ++ key).toList := by
  have colon : ":".toList = [':'] := rfl
  simp only [recordId, String.toList_append, colon, List.append_assoc, List.cons_append,
    List.nil_append]

private theorem split_at_separator {α : Type} {separator : α} {first other rest later : List α}
    (absent : separator ∉ first) (otherAbsent : separator ∉ other)
    (same : first ++ separator :: rest = other ++ separator :: later) :
    first = other ∧ rest = later := by
  induction first generalizing other with
  | nil =>
    cases other with
    | nil => exact ⟨rfl, (List.cons.inj same).2⟩
    | cons head tail =>
      have heads : separator = head := (List.cons.inj same).1
      exact absurd (heads ▸ List.mem_cons_self) otherAbsent
  | cons head tail ih =>
    cases other with
    | nil =>
      have heads : head = separator := (List.cons.inj same).1
      exact absurd (heads ▸ List.mem_cons_self) absent
    | cons otherHead otherTail =>
      obtain ⟨heads, tails⟩ := List.cons.inj same
      have split := ih (fun member => absent (List.mem_cons_of_mem _ member))
        (fun member => otherAbsent (List.mem_cons_of_mem _ member)) tails
      exact ⟨by rw [heads, split.1], split.2⟩

/-- Two ids are equal exactly when the types are and the projects and keys read
the same between their colons. -/
theorem recordId_eq_iff (first second : KnowledgeType) (project other key otherKey : String) :
    recordId first project key = recordId second other otherKey ↔
      first = second ∧ project ++ ":" ++ key = other ++ ":" ++ otherKey := by
  rw [← String.toList_inj, recordId_toList, recordId_toList]
  constructor
  · intro same
    obtain ⟨types, rest⟩ := split_at_separator first.colon_notMem second.colon_notMem same
    exact ⟨KnowledgeType.value_injective (String.toList_inj.mp types), String.toList_inj.mp rest⟩
  · rintro ⟨rfl, rest⟩
    rw [rest]

/-- Without a colon in a project, the id tells the records apart. -/
theorem recordId_injective {first second : KnowledgeType} {project other key otherKey : String}
    (plain : ':' ∉ project.toList) (otherPlain : ':' ∉ other.toList)
    (same : recordId first project key = recordId second other otherKey) :
    first = second ∧ project = other ∧ key = otherKey := by
  obtain ⟨types, rest⟩ := (recordId_eq_iff ..).mp same
  have colon : ":".toList = [':'] := rfl
  rw [← String.toList_inj] at rest
  simp only [String.toList_append, colon, List.append_assoc, List.singleton_append] at rest
  obtain ⟨projects, keys⟩ := split_at_separator plain otherPlain rest
  exact ⟨types, String.toList_inj.mp projects, String.toList_inj.mp keys⟩

theorem projectFile_eq_iff (project other : String) :
    projectFile project = projectFile other ↔ safeName project = safeName other := by
  unfold projectFile
  rw [← String.toList_inj, ← String.toList_inj]
  simp only [String.toList_append, List.append_assoc, List.append_cancel_left_eq,
    List.append_cancel_right_eq]

def pyTypeName : PyValue → String
  | .none => "NoneType"
  | .bool _ => "bool"
  | .int _ => "int"
  | .float _ => "float"
  | .str _ => "str"
  | .list _ => "list"
  | .tuple _ => "tuple"
  | .dict _ => "dict"
  | .object typeName => typeName

def attributeError (value : PyValue) : PyException :=
  ⟨"AttributeError", s!"'{pyTypeName value}' object has no attribute 'get'"⟩

def getItem (items : List (PyKey × PyValue)) (name : String) : Option PyValue :=
  Dict.find (.str name) items

def KnowledgeType.ofValue (text : String) : Except PyException KnowledgeType :=
  match [pattern, prompt, adr, metric, embedding, skill].find? fun type => type.value = text with
  | some type => .ok type
  | none => .error (.valueError s!"{pyRepr text} is not a valid KnowledgeType")

/-- The field `type`: a member of the enumeration, or what was not a text. -/
inductive TypeField where
  | known (type : KnowledgeType)
  | raw (value : PyValue)

/-- A `KnowledgeRecord` as `from_dict` leaves it. -/
structure LooseRecord where
  id : PyValue
  type : TypeField
  sourceProject : PyValue
  sourceAgent : PyValue
  key : PyValue
  value : PyValue
  tags : PyValue
  version : PyValue
  createdAt : PyValue
  updatedAt : PyValue
  ttlSeconds : PyValue
  confidence : PyValue

/-- The arguments without a default; `from_dict` itself provides `type`. -/
def requiredFields : List String := ["id", "source_project", "source_agent", "key", "value"]

def fieldNames : List String :=
  "type" :: requiredFields ++
    ["tags", "version", "created_at", "updated_at", "ttl_seconds", "confidence"]

/-- The key is no argument of the constructor. -/
def unexpected : PyKey → Bool
  | .str name => !fieldNames.contains name
  | _ => true

def unexpectedArgument : PyKey → PyException
  | .str name =>
    .typeError s!"KnowledgeRecord.__init__() got an unexpected keyword argument '{name}'"
  | _ => .typeError "keywords must be strings"

/-- Names in the order of the signature, as the interpreter lists them. -/
def listedNames : List String → String
  | [] => ""
  | [name] => s!"'{name}'"
  | [first, last] => s!"'{first}' and '{last}'"
  | [first, second, last] => s!"'{first}', '{second}', and '{last}'"
  | name :: rest => s!"'{name}', " ++ listedNames rest

def missingArguments (names : List String) : PyException :=
  .typeError (s!"KnowledgeRecord.__init__() missing {names.length} required positional argument" ++
    (if names.length = 1 then "" else "s") ++ ": " ++ listedNames names)

/-- `cls(**d)` once the type has been replaced; `now` is the clock of the defaults. -/
def construct (now : String) (type : TypeField) (items : List (PyKey × PyValue)) :
    Except PyException LooseRecord :=
  match items.find? fun item => unexpected item.1 with
  | some item => .error (unexpectedArgument item.1)
  | none =>
    match getItem items "id", getItem items "source_project", getItem items "source_agent",
      getItem items "key", getItem items "value" with
    | some id, some sourceProject, some sourceAgent, some key, some value =>
      .ok
        { id, type, sourceProject, sourceAgent, key, value
          tags := (getItem items "tags").getD (.list [])
          version := (getItem items "version").getD (.int 1)
          createdAt := (getItem items "created_at").getD (.str now)
          updatedAt := (getItem items "updated_at").getD (.str now)
          ttlSeconds := (getItem items "ttl_seconds").getD (.int 0)
          confidence := (getItem items "confidence").getD (.float "1.0") }
    | _, _, _, _, _ =>
      .error (missingArguments (requiredFields.filter fun name =>
        (getItem items name).isNone))

/-- `KnowledgeType(d["type"]) if isinstance(d.get("type"), str) else d.get("type")`. -/
def typeField : Option PyValue → Except PyException TypeField
  | some (.str text) => (KnowledgeType.ofValue text).map .known
  | some value => .ok (.raw value)
  | none => .ok (.raw .none)

def fromDict (now : String) : PyValue → Except PyException LooseRecord
  | .dict items =>
    (typeField (getItem items "type")).bind fun type => construct now type items
  | value => .error (attributeError value)

/-- `self.type.value if isinstance(self.type, KnowledgeType) else self.type`. -/
def TypeField.value : TypeField → PyValue
  | .known type => .str type.value
  | .raw value => value

namespace LooseRecord

variable (record : LooseRecord)

def fields : List (String × PyValue) :=
  [("id", record.id), ("type", record.type.value), ("source_project", record.sourceProject),
    ("source_agent", record.sourceAgent), ("key", record.key), ("value", record.value),
    ("tags", record.tags), ("version", record.version), ("created_at", record.createdAt),
    ("updated_at", record.updatedAt), ("ttl_seconds", record.ttlSeconds),
    ("confidence", record.confidence)]

def toDict : PyValue := .record record.fields

end LooseRecord

/-! ### Files -/

def recordsOf : PyValue → Except PyException PyValue
  | .dict items => .ok ((getItem items "records").getD (.list []))
  | value => .error (attributeError value)

def keyValue : PyKey → PyValue
  | .none => .none
  | .bool value => .bool value
  | .int value => .int value
  | .float digits => .float digits
  | .str text => .str text
  | .other typeName => .object typeName

/-- The items that `for record_dict in ..` goes through. -/
def iterated : PyValue → Except PyException (List PyValue)
  | .list items => .ok items
  | .tuple items => .ok items
  | .str text => .ok (text.toList.map fun character => .str (String.singleton character))
  | .dict items => .ok (items.map fun item => keyValue item.1)
  | value => .error (.typeError s!"'{pyTypeName value}' object is not iterable")

/-- What `json.load` makes of a file: a document, or what it raises. -/
abbrev FileText := Except PyException Json

/-- The dictionaries that `sync` finds in a file. -/
def recordDicts (text : FileText) : Except PyException (List PyValue) :=
  text.bind fun json => (recordsOf json.loads).bind iterated

/-- The data that `_save_local` writes. -/
def projectData (project now : String) (records : List LooseRecord) : PyValue :=
  .record
    [("project", .str project), ("updated_at", .str now),
      ("record_count", .int records.length), ("records", .list (records.map LooseRecord.toDict))]

/-! ### Round trips -/

private theorem KnowledgeType.ofValue_value (type : KnowledgeType) :
    KnowledgeType.ofValue type.value = .ok type := by
  cases type <;> rfl

/-- The type is a member of the enumeration, or not a text. -/
def TypeField.Decoded : TypeField → Prop
  | .known _ => True
  | .raw (.str _) => False
  | .raw _ => True

private theorem typeField_value {type : TypeField} (decoded : type.Decoded) :
    typeField (some type.value) = .ok type := by
  cases type with
  | known member =>
    rw [TypeField.value, typeField, KnowledgeType.ofValue_value]
    rfl
  | raw value =>
    cases value with
    | str text => exact decoded.elim
    | none => rfl
    | bool value => rfl
    | int value => rfl
    | float digits => rfl
    | list items => rfl
    | tuple items => rfl
    | dict items => rfl
    | object typeName => rfl

/-- Whatever has been built from a dictionary is rebuilt from its own dictionary. -/
theorem fromDict_toDict (now : String) {record : LooseRecord} (decoded : record.type.Decoded) :
    fromDict now record.toDict = .ok record := by
  have found : getItem (record.fields.map fun member => (.str member.1, member.2)) "type" =
      some record.type.value := rfl
  rw [LooseRecord.toDict, PyValue.record, fromDict, found, typeField_value decoded]
  rfl

end Swarmind.Orchestrator.FederatedMemory
