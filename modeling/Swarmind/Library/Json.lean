import Swarmind.Library.Dict

/-!
Owns Python values as `json.dumps` sees them, JSON documents, and the pair
`dumps` / `loads`. A document is the parsed text: whitespace and escapes are
gone, repeated member names are not. `dumps` rejects a value that holds an
unsupported object or key; `loads` keeps the last of repeated members.

A value is native when it reads back as itself. Whatever `loads` returns is
native, so a second round trip changes nothing.
-/

namespace Swarmind.Library

/-- A dictionary key. `float` carries the text of `float.__repr__`, which
determines the number; `other` is a key `json.dumps` refuses. -/
inductive PyKey where
  | none
  | bool (value : Bool)
  | int (value : Int)
  | float (digits : String)
  | str (text : String)
  | other (typeName : String)
deriving DecidableEq, Repr

/-- A Python value. `object` stands for every value `json.dumps` refuses. -/
inductive PyValue where
  | none
  | bool (value : Bool)
  | int (value : Int)
  | float (digits : String)
  | str (text : String)
  | list (items : List PyValue)
  | tuple (items : List PyValue)
  | dict (items : List (PyKey × PyValue))
  | object (typeName : String)

/-- A parsed JSON document. -/
inductive Json where
  | null
  | bool (value : Bool)
  | int (value : Int)
  | float (digits : String)
  | str (text : String)
  | array (items : List Json)
  | object (members : List (String × Json))

def PyKey.memberName : PyKey → Option String
  | .none => some "null"
  | .bool true => some "true"
  | .bool false => some "false"
  | .int value => some (toString value)
  | .float digits => some digits
  | .str text => some text
  | .other _ => Option.none

namespace PyValue

mutual

def dumps : PyValue → Option Json
  | .none => some .null
  | .bool value => some (.bool value)
  | .int value => some (.int value)
  | .float digits => some (.float digits)
  | .str text => some (.str text)
  | .list items => (dumpsItems items).map .array
  | .tuple items => (dumpsItems items).map .array
  | .dict items => (dumpsMembers items).map .object
  | .object _ => Option.none

def dumpsItems : List PyValue → Option (List Json)
  | [] => some []
  | item :: rest => item.dumps.bind fun head => (dumpsItems rest).map fun later => head :: later

def dumpsMembers : List (PyKey × PyValue) → Option (List (String × Json))
  | [] => some []
  | (key, value) :: rest =>
    key.memberName.bind fun name => value.dumps.bind fun head =>
      (dumpsMembers rest).map fun later => (name, head) :: later

end

end PyValue

namespace Json

mutual

def loads : Json → PyValue
  | .null => .none
  | .bool value => .bool value
  | .int value => .int value
  | .float digits => .float digits
  | .str text => .str text
  | .array items => .list (loadsItems items)
  | .object members => .dict (Dict.ofList (loadsMembers members)).entries

def loadsItems : List Json → List PyValue
  | [] => []
  | item :: rest => item.loads :: loadsItems rest

def loadsMembers : List (String × Json) → List (PyKey × PyValue)
  | [] => []
  | (name, value) :: rest => (.str name, value.loads) :: loadsMembers rest

end

end Json

/-! ### Native values -/

namespace PyValue

/-- The value written out reads back as itself. -/
def Native (value : PyValue) : Prop :=
  ∃ json, value.dumps = some json ∧ json.loads = value

/-- What the value reads back as after one write. -/
def stored (value : PyValue) : Option PyValue := value.dumps.map Json.loads

theorem Native.dumps_isSome {value : PyValue} (native : value.Native) : value.dumps.isSome := by
  obtain ⟨json, written, _⟩ := native
  rw [written]
  rfl

theorem Native.stored_eq {value : PyValue} (native : value.Native) : value.stored = some value := by
  obtain ⟨json, written, back⟩ := native
  rw [stored, written, Option.map_some, back]

private theorem dumpsItems_native (items : List PyValue) (native : ∀ item ∈ items, item.Native) :
    ∃ document, dumpsItems items = some document ∧ Json.loadsItems document = items := by
  induction items with
  | nil => exact ⟨[], rfl, rfl⟩
  | cons item rest ih =>
    obtain ⟨json, written, back⟩ := native item (by simp)
    obtain ⟨later, writtenLater, backLater⟩ := ih
      (fun other member => native other (by simp [member]))
    exact ⟨json :: later, by simp [dumpsItems, written, writtenLater],
      by simp [Json.loadsItems, back, backLater]⟩

theorem dumpsMembers_native (items : List (PyKey × PyValue))
    (native : ∀ item ∈ items, (∃ name, item.1 = .str name) ∧ item.2.Native) :
    ∃ document, dumpsMembers items = some document ∧ Json.loadsMembers document = items := by
  induction items with
  | nil => exact ⟨[], rfl, rfl⟩
  | cons item rest ih =>
    obtain ⟨key, value⟩ := item
    obtain ⟨⟨name, rfl⟩, json, written, back⟩ := native (key, value) (by simp)
    obtain ⟨later, writtenLater, backLater⟩ := ih
      (fun other member => native other (by simp [member]))
    exact ⟨(name, json) :: later,
      by simp [dumpsMembers, PyKey.memberName, written, writtenLater],
      by simp [Json.loadsMembers, back, backLater]⟩

theorem Native.list {items : List PyValue} (native : ∀ item ∈ items, item.Native) :
    (PyValue.list items).Native := by
  obtain ⟨document, written, back⟩ := dumpsItems_native items native
  exact ⟨.array document, by simp [dumps, written], by simp [Json.loads, back]⟩

theorem Native.dict (members : Dict PyKey PyValue)
    (native : ∀ item ∈ members.entries, (∃ name, item.1 = .str name) ∧ item.2.Native) :
    (PyValue.dict members.entries).Native := by
  obtain ⟨document, written, back⟩ := dumpsMembers_native members.entries native
  exact ⟨.object document, by simp [dumps, written],
    by simp [Json.loads, back, Dict.ofList_entries]⟩

end PyValue

namespace Json

mutual

theorem native_loads : ∀ json : Json, json.loads.Native
  | .null => ⟨.null, rfl, rfl⟩
  | .bool value => ⟨.bool value, rfl, rfl⟩
  | .int value => ⟨.int value, rfl, rfl⟩
  | .float digits => ⟨.float digits, rfl, rfl⟩
  | .str text => ⟨.str text, rfl, rfl⟩
  | .array items => PyValue.Native.list (native_loadsItems items)
  | .object members => PyValue.Native.dict _ fun item member =>
    native_loadsMembers members item (Dict.mem_of_mem_ofList member)

private theorem native_loadsItems : ∀ items : List Json, ∀ item ∈ loadsItems items, item.Native
  | [] => fun item member => by cases member
  | head :: rest => by
    intro item member
    rw [loadsItems, List.mem_cons] at member
    rcases member with rfl | later
    · exact native_loads head
    · exact native_loadsItems rest item later

theorem native_loadsMembers : ∀ members : List (String × Json),
    ∀ item ∈ loadsMembers members, (∃ name, item.1 = PyKey.str name) ∧ item.2.Native
  | [] => fun item member => by cases member
  | (name, value) :: rest => by
    intro item member
    rw [loadsMembers, List.mem_cons] at member
    rcases member with rfl | later
    · exact ⟨⟨name, rfl⟩, native_loads value⟩
    · exact native_loadsMembers rest item later

end

end Json

namespace PyValue

/-! ### Records -/

/-- A dictionary literal with string keys. -/
def record (members : List (String × PyValue)) : PyValue :=
  .dict (members.map fun member => (.str member.1, member.2))

private theorem map_str_nodup {members : List (String × PyValue)}
    (distinct : (members.map Prod.fst).Nodup) :
    ((members.map fun member => (PyKey.str member.1, member.2)).map Prod.fst).Nodup := by
  have keys : (members.map fun member => (PyKey.str member.1, member.2)).map Prod.fst =
      (members.map Prod.fst).map PyKey.str := by
    simp
  rw [keys]
  exact distinct.map fun _ _ same => PyKey.str.inj same

theorem stored_record {members backs : List (String × PyValue)}
    (distinct : (backs.map Prod.fst).Nodup)
    (each : List.Forall₂ (fun member back => member.1 = back.1 ∧ member.2.stored = some back.2)
      members backs) :
    (record members).stored = some (record backs) := by
  have written : ∃ document,
      dumpsMembers (members.map fun member => (.str member.1, member.2)) = some document ∧
        Json.loadsMembers document = backs.map fun back => (.str back.1, back.2) := by
    clear distinct
    induction each with
    | nil => exact ⟨[], rfl, rfl⟩
    | @cons member back members backs head _ ih =>
      obtain ⟨later, writtenLater, backLater⟩ := ih
      obtain ⟨json, writtenHead, backHead⟩ := Option.map_eq_some_iff.mp head.2
      exact ⟨(member.1, json) :: later,
        by simp [dumpsMembers, PyKey.memberName, writtenHead, writtenLater],
        by simp [Json.loadsMembers, backLater, backHead, head.1]⟩
  obtain ⟨document, dumped, back⟩ := written
  have entries : (Dict.ofList (Json.loadsMembers document)).entries =
      backs.map fun back => (.str back.1, back.2) := by
    rw [back]
    exact Dict.entries_ofList (map_str_nodup distinct)
  rw [stored, record, dumps, dumped]
  simp only [Option.map_some, Json.loads, entries, record]

theorem stored_list {items : List PyValue} {back : PyValue}
    (reads : (PyValue.list items).stored = some back) : ∃ backs, back = .list backs := by
  obtain ⟨json, written, rfl⟩ := Option.map_eq_some_iff.mp reads
  obtain ⟨document, _, rfl⟩ := Option.map_eq_some_iff.mp written
  exact ⟨Json.loadsItems document, rfl⟩

/-- A native value is one that is stored as it is. -/
theorem native_iff_stored {value : PyValue} : value.Native ↔ value.stored = some value :=
  ⟨Native.stored_eq, fun reads => Option.map_eq_some_iff.mp reads⟩

theorem Native.record {members : List (String × PyValue)} (distinct : (members.map Prod.fst).Nodup)
    (native : ∀ member ∈ members, member.2.Native) : (record members).Native := by
  apply native_iff_stored.mpr
  apply stored_record distinct
  exact List.forall₂_same.mpr fun member among => ⟨rfl, (native member among).stored_eq⟩

theorem Native.str (text : String) : (PyValue.str text).Native := ⟨.str text, rfl, rfl⟩

theorem Native.bool (value : Bool) : (PyValue.bool value).Native := ⟨.bool value, rfl, rfl⟩

theorem Native.int (value : Int) : (PyValue.int value).Native := ⟨.int value, rfl, rfl⟩

theorem Native.float (digits : String) : (PyValue.float digits).Native :=
  ⟨.float digits, rfl, rfl⟩

end PyValue

/-- What is read back is native. -/
theorem PyValue.stored_native {value back : PyValue} (reads : value.stored = some back) :
    back.Native := by
  obtain ⟨json, _, rfl⟩ := Option.map_eq_some_iff.mp reads
  exact json.native_loads

end Swarmind.Library
