import Swarmind.Library.JsonOrder
import Swarmind.Library.PyText

/-!
Owns how a program takes a Python value apart: subscripts and `.get` with a text, loops
over a value, and enumerations whose members are texts. Values that differ in the order
of keys only are taken apart alike.
-/

namespace Swarmind.Library

def PyKey.value : PyKey → PyValue
  | .none => .none
  | .bool value => .bool value
  | .int value => .int value
  | .float digits => .float digits
  | .str text => .str text
  | .other typeName => .object typeName

namespace PyValue

/-- `value[name]`. -/
def item (name : String) : PyValue → Except PyException PyValue
  | .dict items =>
    match Dict.find (.str name) items with
    | some found => .ok found
    | Option.none => .error ⟨"KeyError", pyRepr name⟩
  | .str _ => .error (.typeError "string indices must be integers, not 'str'")
  | .list _ => .error (.typeError "list indices must be integers or slices, not str")
  | .tuple _ => .error (.typeError "tuple indices must be integers or slices, not str")
  | value => .error (.typeError s!"'{value.typeName}' object is not subscriptable")

/-- `value.get(name, default)`. -/
def get (value : PyValue) (name : String) (default : PyValue) : Except PyException PyValue :=
  match value with
  | .dict items => .ok ((Dict.find (.str name) items).getD default)
  | value => .error ⟨"AttributeError", s!"'{value.typeName}' object has no attribute 'get'"⟩

/-- What `for .. in value` goes through. -/
def iterate : PyValue → Except PyException (List PyValue)
  | .list items | .tuple items => .ok items
  | .str text => .ok (text.toList.map fun character => .str (String.singleton character))
  | .dict items => .ok (items.map fun item => item.1.value)
  | value => .error (.typeError s!"'{value.typeName}' object is not iterable")

end PyValue

def readItems {α : Type} (read : PyValue → Except PyException α) (value : PyValue) :
    Except PyException (List α) := do
  let items ← value.iterate
  items.mapM read

/-- `[str(item) for item in value]`. -/
def readTexts (value : PyValue) : Except PyException (List String) :=
  readItems (fun item => .ok item.text) value

/-- A class of texts with the values of its members. -/
structure StrEnum (α : Type) where
  className : String
  members : List α
  value : α → String

namespace StrEnum

variable {α : Type} (enum : StrEnum α)

def ofValue (value : PyValue) : Except PyException α :=
  let found := match value with
    | .str text => enum.members.find? fun member => enum.value member = text
    | _ => none
  match found with
  | some member => .ok member
  | none => .error (.valueError s!"{value.repr} is not a valid {enum.className}")

/-- Every member is listed, and no two have one value. -/
structure Lawful : Prop where
  all : ∀ member, member ∈ enum.members
  distinct : (enum.members.map enum.value).Nodup

variable {enum}

theorem Lawful.injective (lawful : enum.Lawful) : Function.Injective enum.value := by
  intro left right same
  exact List.inj_on_of_nodup_map lawful.distinct (lawful.all left) (lawful.all right) same

/-- A member is read from its own value. -/
theorem Lawful.ofValue_value (lawful : enum.Lawful) (member : α) :
    enum.ofValue (.str (enum.value member)) = .ok member := by
  rw [ofValue]
  cases found : enum.members.find? fun other => enum.value other = enum.value member with
  | some other =>
    have sameValue : enum.value other = enum.value member := by
      simpa using List.find?_some found
    rw [lawful.injective sameValue]
  | none =>
    have absent := List.find?_eq_none.mp found member (lawful.all member)
    rw [decide_eq_true rfl] at absent
    exact absurd rfl absent

end StrEnum

/-! ### Values up to the order of keys -/

namespace PyValue

theorem Same.eq_none {value : PyValue} (same : PyValue.none.Same value) : value = .none := by
  cases same
  rfl

theorem Same.eq_bool {flag : Bool} {value : PyValue} (same : (PyValue.bool flag).Same value) :
    value = .bool flag := by
  cases same
  rfl

theorem Same.eq_int {number : Int} {value : PyValue} (same : (PyValue.int number).Same value) :
    value = .int number := by
  cases same
  rfl

theorem Same.eq_str {text : String} {value : PyValue} (same : (PyValue.str text).Same value) :
    value = .str text := by
  cases same
  rfl

theorem Same.eq_list {items : List PyValue} {value : PyValue}
    (same : (PyValue.list items).Same value) :
    ∃ others, value = .list others ∧ List.Forall₂ Same items others := by
  cases same with
  | list each => exact ⟨_, rfl, each⟩

theorem Same.eq_texts {texts : List String} {value : PyValue}
    (same : (PyValue.list (texts.map .str)).Same value) : value = .list (texts.map .str) := by
  obtain ⟨others, rfl, each⟩ := same.eq_list
  rw [List.forall₂_map_left_iff] at each
  refine congrArg PyValue.list ?_
  clear same
  induction each with
  | nil => rfl
  | cons head _ ih =>
    rw [List.map_cons, head.eq_str, ih]

theorem find_record (members : List (String × PyValue)) (name : String) :
    Dict.find (.str name)
        (members.map fun member => ((.str member.1, member.2) : PyKey × PyValue)) =
      Dict.find name members := by
  induction members with
  | nil => rfl
  | cons member rest ih =>
    simp only [List.map_cons, Dict.find, PyKey.str.injEq, ih]

section Records

variable {members : List (String × PyValue)} {value : PyValue}

section

variable (same : (PyValue.record members).Same value)
include same

theorem Same.find : ∃ others, value = .dict others ∧
    ∀ name, Option.Rel Same (Dict.find name members) (Dict.find (.str name) others) := by
  cases same with
  | dict each => exact ⟨_, rfl, fun name => find_record members name ▸ each (.str name)⟩

/-- A member that a record has is there in every value that is the same. -/
theorem Same.item (name : String)
    (found : PyValue) (has : Dict.find name members = some found) :
    ∃ other, value.item name = .ok other ∧ found.Same other := by
  obtain ⟨others, rfl, each⟩ := same.find
  have related := each name
  rw [has] at related
  cases held : Dict.find (.str name) others with
  | none =>
    rw [held] at related
    cases related
  | some other =>
    rw [held] at related
    cases related with
    | some sameMember => exact ⟨other, by rw [PyValue.item, held], sameMember⟩

theorem Same.get (name : String)
    (found : PyValue) {default : PyValue} (isSame : default.Same default)
    (has : (Dict.find name members).getD default = found) :
    ∃ other, value.get name default = .ok other ∧ found.Same other := by
  obtain ⟨others, rfl, each⟩ := same.find
  have related := each name
  refine ⟨_, rfl, ?_⟩
  subst has
  cases held : Dict.find name members with
  | none =>
    rw [held] at related
    cases heldOther : Dict.find (.str name) others with
    | none => exact isSame
    | some other =>
      rw [heldOther] at related
      cases related
  | some found =>
    rw [held] at related
    cases heldOther : Dict.find (.str name) others with
    | none =>
      rw [heldOther] at related
      cases related
    | some other =>
      rw [heldOther] at related
      cases related with
      | some sameMember => exact sameMember

end

end Records

/-- The same values are alike in a test. -/
theorem Same.isTruthy_eq {left right : PyValue} (same : left.Same right) :
    left.isTruthy = right.isTruthy := by
  cases same with
  | none | bool _ | int _ | float _ | str _ => rfl
  | list each => cases each <;> rfl
  | @dict items others each =>
    cases items with
    | nil =>
      cases others with
      | nil => rfl
      | cons other _ =>
        have related := each other.1
        simp only [Dict.find, if_true] at related
        cases related
    | cons item _ =>
      cases others with
      | nil =>
        have related := each item.1
        simp only [Dict.find, if_true] at related
        cases related
      | cons _ _ => rfl

/-! ### Parts of JSON values -/

namespace IsJson

variable {value part : PyValue} {name : String}

theorem find {items : List (PyKey × PyValue)} (isJson : (PyValue.dict items).IsJson)
    (found : Dict.find (.str name) items = some part) : part.IsJson := by
  obtain ⟨json, standard, same⟩ := isJson
  cases json with
  | object members =>
    cases same
    rw [Json.find_memberValues] at found
    obtain ⟨member, held, rfl⟩ := Option.map_eq_some_iff.mp found
    have among := (Dict.find_eq_some_iff standard.1 name member).mp held
    exact ⟨member, (Json.membersStandard_iff members).mp standard.2 _ among, rfl⟩
  | null | bool _ | int _ | float _ | str _ | array _ => cases same

theorem item (isJson : value.IsJson) (found : value.item name = .ok part) : part.IsJson := by
  cases value with
  | dict items =>
    rw [PyValue.item] at found
    cases held : Dict.find (.str name) items with
    | none =>
      rw [held] at found
      cases found
    | some other =>
      rw [held] at found
      cases found
      exact isJson.find held
  | none | bool _ | int _ | float _ | str _ | list _ | tuple _ | object _ => cases found

theorem get (isJson : value.IsJson) {default : PyValue} (defaultJson : default.IsJson)
    (found : value.get name default = .ok part) : part.IsJson := by
  cases value with
  | dict items =>
    cases held : Dict.find (.str name) items with
    | none =>
      rw [PyValue.get, held] at found
      cases found
      exact defaultJson
    | some other =>
      rw [PyValue.get, held] at found
      cases found
      exact isJson.find held
  | none | bool _ | int _ | float _ | str _ | list _ | tuple _ | object _ => cases found

theorem iterate (isJson : value.IsJson) {parts : List PyValue}
    (went : value.iterate = .ok parts) : ∀ part ∈ parts, part.IsJson := by
  obtain ⟨json, standard, rfl⟩ := isJson
  cases json with
  | str text =>
    cases went
    rintro part among
    obtain ⟨character, _, rfl⟩ := List.mem_map.mp among
    exact .str _
  | array items =>
    rw [Json.value, PyValue.iterate, Except.ok.injEq] at went
    rw [← went, Json.itemValues_eq_map, List.forall_mem_map]
    exact fun item among => ⟨item, (Json.allStandard_iff items).mp standard item among, rfl⟩
  | object members =>
    rw [Json.value, PyValue.iterate, Except.ok.injEq] at went
    rw [← went, Json.memberValues_eq_map, List.map_map, List.forall_mem_map]
    exact fun member _ => .str member.1
  | null | bool _ | int _ | float _ => cases went

end IsJson

theorem IsJson.texts (texts : List String) : (PyValue.list (texts.map .str)).IsJson := by
  refine .list ?_
  rw [List.forall_mem_map]
  exact fun text _ => .str text

theorem Same.texts (texts : List String) :
    (PyValue.list (texts.map .str)).Same (.list (texts.map .str)) :=
  .refl (IsJson.texts texts)

end PyValue

/-! ### Items -/

theorem readItems_same {α β : Type} {write : α → PyValue}
    {read : PyValue → Except PyException β} {related : α → β → Prop}
    (each : ∀ item data, (write item).Same data → ∃ back, read data = .ok back ∧ related item back)
    {items : List α} {data : PyValue} (same : (PyValue.list (items.map write)).Same data) :
    ∃ backs, readItems read data = .ok backs ∧ List.Forall₂ related items backs := by
  obtain ⟨others, rfl, pairs⟩ := same.eq_list
  rw [List.forall₂_map_left_iff] at pairs
  clear same
  have went : readItems read (.list others) = others.mapM read := rfl
  rw [went]
  induction pairs with
  | nil => exact ⟨[], rfl, .nil⟩
  | @cons item data items others head _ ih =>
    obtain ⟨back, readBack, isRelated⟩ := each item data head
    obtain ⟨backs, readBacks, areRelated⟩ := ih rfl
    refine ⟨back :: backs, ?_, .cons isRelated areRelated⟩
    rw [List.mapM_cons, readBack, readBacks]
    rfl

theorem readTexts_same {texts : List String} {data : PyValue}
    (same : (PyValue.list (texts.map .str)).Same data) : readTexts data = .ok texts := by
  have each (text : String) (data : PyValue) (same : (PyValue.str text).Same data) :
      ∃ back, (Except.ok data.text : Except PyException String) = .ok back ∧ text = back := by
    rw [same.eq_str]
    exact ⟨text, rfl, rfl⟩
  obtain ⟨backs, read, related⟩ := readItems_same each same
  rw [List.forall₂_eq_eq_eq] at related
  rw [readTexts, read, related]

theorem readItems_isJson {α : Type} {read : PyValue → Except PyException α} {good : α → Prop}
    (each : ∀ item back, item.IsJson → read item = .ok back → good back) {data : PyValue}
    (isJson : data.IsJson) {backs : List α} (went : readItems read data = .ok backs) :
    ∀ back ∈ backs, good back := by
  obtain ⟨items, iterated, mapped⟩ := ok_of_bind went
  have itemsJson := isJson.iterate iterated
  clear iterated went
  induction items generalizing backs with
  | nil =>
    cases mapped
    exact fun _ among => absurd among List.not_mem_nil
  | cons item rest ih =>
    rw [List.forall_mem_cons] at itemsJson
    rw [List.mapM_cons] at mapped
    obtain ⟨back, readBack, mapped⟩ := ok_of_bind mapped
    obtain ⟨later, readLater, mapped⟩ := ok_of_bind mapped
    cases mapped
    exact List.forall_mem_cons.mpr
      ⟨each item back itemsJson.1 readBack, ih readLater itemsJson.2⟩

end Swarmind.Library
