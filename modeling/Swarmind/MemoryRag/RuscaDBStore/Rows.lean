import Swarmind.Library.PyText
import Swarmind.Library.JsonText
import Mathlib.Data.List.Infix

/-!
Owns what the store makes of the rows and records of its engine: `_parse_rows`,
`_record_to_item` and the marks that the stored metadata may carry. The engine
may answer any value; what does not have the expected shape raises, as in the
source, or is skipped.
-/

namespace Swarmind.MemoryRag.RuscaDBStore

open Swarmind.Library

abbrev Members := List (PyKey × PyValue)

def get (members : Members) (key : String) : PyValue :=
  (Dict.find (.str key) members).getD .none

def attributeError (value : PyValue) : PyException :=
  ⟨"AttributeError", s!"'{value.typeName}' object has no attribute 'get'"⟩

def getFrom : PyValue → String → Except PyException PyValue
  | .dict members, key => .ok (get members key)
  | value, _ => .error (attributeError value)

def isRuscadbError (raised : PyException) : Bool := raised.typeName = "RuscadbError"

def jsonLoads (text : String) : Except PyException PyValue :=
  match Json.decode text.toList with
  | some json => .ok json.loads
  | none => .error ⟨"JSONDecodeError", "Expecting value"⟩

/-- `iter(value)`. -/
def iterate : PyValue → Except PyException (List PyValue)
  | .list items => .ok items
  | .tuple items => .ok items
  | .str text => .ok (text.toList.map fun character => .str character.toString)
  | .dict members => .ok (members.map fun member =>
    match member.1 with
    | .none => .none
    | .bool value => .bool value
    | .int value => .int value
    | .float digits => .float digits
    | .str text => .str text
    | .other typeName => .object typeName)
  | value => .error (.typeError s!"'{value.typeName}' object is not iterable")

def asMembers : PyValue → Option Members
  | .dict members => some members
  | _ => none

/-! ### Items -/

/-- What an item was made from: a row of a query or a record of `get_record`. -/
inductive Raw where
  | row (columns : Members)
  | record (fields : Members)

/-- A retrieval result. Keys that are not set are `none`. -/
structure Item (R : Type) where
  id : PyValue
  text : PyValue
  metadata : PyValue
  createdAt : PyValue := .none
  raw : Raw
  score : Option R := none
  distance : Option R := none
  oversample : Option Int := none
  trustTier : Option String := none
  trustWeight : Option R := none
  recencyWeight : Option R := none
  denseRank : Option Nat := none
  sparseRank : Option Nat := none

def scalarNames : List String :=
  ["Text", "Int", "UInt", "Float", "Bool", "Null", "TimestampMillis"]

def unwrapScalar : PyValue → PyValue
  | .dict [(.str name, value)] => if name ∈ scalarNames then value else .dict [(.str name, value)]
  | value => value

def rowMetadata (cell : PyValue) : PyValue :=
  match unwrapScalar cell with
  | .str text =>
    match Json.decode text.toList with
    | some json => json.loads
    | none => .record [("raw", .str text)]
  | .dict members => .dict members
  | value => .record [("value", value)]

def governanceColumns : List String :=
  ["source", "trust_tier", "session_id", "derived_from", "write_gate_verdict"]

/-- One governance column: `if isinstance(value, str) and value and column not in meta`. -/
def exposeColumn (columns : Members) (metadata : PyValue) (column : String) :
    Except PyException PyValue :=
  match unwrapScalar (get columns column) with
  | .str text =>
    if text = "" then .ok metadata
    else
      match metadata with
      | .dict members =>
        if (Dict.find (.str column) members).isSome then .ok metadata
        else .ok (.dict (Dict.assign (.str column) (.str text) members))
      | .list items =>
        if items.any fun item => item.equals (.str column) then .ok metadata
        else .error (.typeError "list indices must be integers or slices, not str")
      | .str whole =>
        if column.toList <:+: whole.toList then .ok metadata
        else .error (.typeError "'str' object does not support item assignment")
      | value => .error (.typeError s!"argument of type '{value.typeName}' is not iterable")
  | _ => .ok metadata

section

variable {R : Type}

def parseRow (columns : Members) : Except PyException (Item R) := do
  let metadata ←
    governanceColumns.foldlM (exposeColumn columns) (rowMetadata (get columns "metadata"))
  pure
    { id := unwrapScalar (get columns "id")
      text := (unwrapScalar (get columns "text")).orElse (.str "")
      metadata
      createdAt := unwrapScalar (get columns "created_at")
      raw := .row columns }

def loadRows : PyValue → Except PyException PyValue
  | .str text => jsonLoads text
  | value => .ok value

def parseRows (rows : PyValue) : Except PyException (List (Item R)) := do
  let parsed ← loadRows rows
  let values ← iterate (parsed.orElse (.list []))
  (values.filterMap asMembers).mapM parseRow

def recordMetadata (fields : Members) : Except PyException PyValue := do
  let cell ← getFrom ((get fields "scalars").orElse (.dict [])) "metadata"
  pure
    (match unwrapScalar cell with
    | .str text =>
      match Json.decode text.toList with
      | some json => json.loads
      | none => .record [("raw", .str text)]
    | .dict members => .dict members
    | _ => .dict [])

def recordToItem : PyValue → Except PyException (Item R)
  | .dict fields => do
    let scalars := (get fields "scalars").orElse (.dict [])
    let id ← getFrom scalars "id"
    let text ← getFrom scalars "text"
    let metadata ← recordMetadata fields
    pure
      { id := unwrapScalar id
        text := (unwrapScalar text).orElse (.str "")
        metadata
        raw := .record fields }
  | value => .error (attributeError value)

end

/-! ### Marks -/

/-- Metadata that says quarantined or evicted. -/
def isMarked : PyValue → Bool
  | .dict members =>
    (get members "trust_tier").equals (.str "quarantined") || (get members "evicted").isTruthy
  | _ => false

namespace Raw

def metadataCell : Raw → PyValue
  | .row columns => get columns "metadata"
  | .record fields =>
    match get fields "scalars" with
    | .dict scalars => get scalars "metadata"
    | _ => .none

def storedMetadata (raw : Raw) : PyValue :=
  match unwrapScalar raw.metadataCell with
  | .str text => ((Json.decode text.toList).map Json.loads).getD .none
  | value => value

def Marked (raw : Raw) : Prop := isMarked raw.storedMetadata = true

instance (raw : Raw) : Decidable raw.Marked := by
  unfold Marked
  infer_instance

end Raw

/-! ### What an item shows of the marks -/

theorem equals_str_iff (value : PyValue) (text : String) :
    value.equals (.str text) = true ↔ value = .str text := by
  cases value <;> simp [PyValue.equals, PyValue.equalsNumber, PyValue.asWhole]

/-- A record is marked by its quarantine or by its eviction. -/
theorem isMarked_dict_iff (members : Members) :
    isMarked (.dict members) = true ↔
      get members "trust_tier" = .str "quarantined" ∨
        (get members "evicted").isTruthy = true := by
  rw [isMarked, Bool.or_eq_true, equals_str_iff]

private theorem get_assign_of_absent {members : Members} {column key : String} {value : PyValue}
    (absent : Dict.find (.str column) members = none)
    (present : (Dict.find (.str key) members).isSome) :
    get (Dict.assign (.str column) value members) key = get members key := by
  have different : PyKey.str column ≠ .str key := by
    intro same
    rw [← same, absent] at present
    cases present
  rw [get, get, Dict.find_assign, if_neg different]

private theorem isSome_of_get_ne_none {members : Members} {key : String}
    (found : get members key ≠ .none) : (Dict.find (.str key) members).isSome := by
  cases look : Dict.find (.str key) members with
  | none => exact absurd (by rw [get, look]; rfl) found
  | some value => rfl

private theorem isMarked_of_exposeColumn {columns : Members} {metadata next : PyValue}
    {column : String}
    (exposed : exposeColumn columns metadata column = .ok next)
    (marked : isMarked metadata = true) : isMarked next = true := by
  unfold exposeColumn at exposed
  split at exposed
  · split at exposed
    · cases exposed
      exact marked
    · cases metadata with
      | dict members =>
        simp only at exposed
        split at exposed
        · cases exposed
          exact marked
        · rename_i absent
          cases exposed
          rw [Bool.not_eq_true, Option.isSome_eq_false_iff, Option.isNone_iff_eq_none] at absent
          rw [isMarked_dict_iff] at marked ⊢
          rcases marked with quarantined | evicted
          · left
            rw [get_assign_of_absent absent]
            · exact quarantined
            · apply isSome_of_get_ne_none
              rw [quarantined]
              exact PyValue.noConfusion
          · right
            rw [get_assign_of_absent absent]
            · exact evicted
            · apply isSome_of_get_ne_none
              intro missing
              rw [missing] at evicted
              cases evicted
      | _ => cases marked
  · cases exposed
    exact marked

private theorem isMarked_of_exposeColumns {columns : Members} (names : List String)
    {metadata last : PyValue} (exposed : names.foldlM (exposeColumn columns) metadata = .ok last)
    (marked : isMarked metadata = true) : isMarked last = true := by
  induction names generalizing metadata with
  | nil =>
    cases exposed
    exact marked
  | cons column rest ih =>
    rw [List.foldlM_cons] at exposed
    obtain ⟨next, first, later⟩ := ok_of_bind exposed
    exact ih later (isMarked_of_exposeColumn first marked)

private theorem isMarked_rowMetadata (columns : Members) :
    isMarked (rowMetadata (get columns "metadata")) =
      isMarked (Raw.row columns).storedMetadata := by
  unfold rowMetadata Raw.storedMetadata Raw.metadataCell
  cases unwrapScalar (get columns "metadata") with
  | str text =>
    simp only
    cases Json.decode text.toList with
    | some json => rfl
    | none => rfl
  | _ => rfl

/-- Items whose metadata shows every mark of what they were made from. -/
def Item.ShowsMarks {R : Type} (item : Item R) : Prop :=
  item.raw.Marked → isMarked item.metadata = true

section

variable {R : Type}

/-- A parsed row keeps the marks of its columns. -/
theorem showsMarks_of_parseRow {columns : Members} {item : Item R}
    (parsed : parseRow columns = .ok item) : item.ShowsMarks := by
  obtain ⟨metadata, exposed, made⟩ := ok_of_bind parsed
  cases made
  intro marked
  exact isMarked_of_exposeColumns _ exposed ((isMarked_rowMetadata columns).trans marked)

theorem raw_of_recordToItem {record : PyValue} {item : Item R}
    (read : recordToItem record = .ok item) :
    ∃ fields, record = .dict fields ∧ item.raw = .record fields := by
  cases record with
  | dict fields =>
    obtain ⟨id, _, read⟩ := ok_of_bind read
    obtain ⟨text, _, read⟩ := ok_of_bind read
    obtain ⟨metadata, _, made⟩ := ok_of_bind read
    cases made
    exact ⟨fields, rfl, rfl⟩
  | _ => cases read

private theorem isMarked_recordMetadata {fields : Members} {metadata : PyValue}
    (read : recordMetadata fields = .ok metadata) :
    isMarked metadata = isMarked (Raw.record fields).storedMetadata := by
  obtain ⟨cell, found, made⟩ := ok_of_bind read
  cases made
  have same : (Raw.record fields).metadataCell = cell := by
    rw [Raw.metadataCell]
    cases scalars : get fields "scalars" with
    | dict members =>
      rw [scalars] at found
      cases members with
      | nil =>
        cases found
        rfl
      | cons first rest =>
        cases found
        rfl
    | _ =>
      rw [scalars] at found
      simp only [PyValue.orElse] at found
      split at found
      · cases found
      · cases found
        rfl
  rw [Raw.storedMetadata, same]
  cases unwrapScalar cell with
  | str text =>
    simp only
    cases Json.decode text.toList with
    | some json => rfl
    | none => rfl
  | _ => rfl

/-- An item keeps the marks of the record that it was made from. -/
theorem showsMarks_of_recordToItem {record : PyValue} {item : Item R}
    (read : recordToItem record = .ok item) : item.ShowsMarks := by
  cases record with
  | dict fields =>
    obtain ⟨id, _, read⟩ := ok_of_bind read
    obtain ⟨text, _, read⟩ := ok_of_bind read
    obtain ⟨metadata, found, made⟩ := ok_of_bind read
    cases made
    intro marked
    exact (isMarked_recordMetadata found).trans marked
  | _ => cases read

end

end Swarmind.MemoryRag.RuscaDBStore
