import Swarmind.AlphaMining.FactorDsl.Sandbox
import Swarmind.Library.JsonReading

/-!
Owns that a tree survives being written and read as JSON. Tuples come back as
lists and keys as texts, and the parser sees no difference: it accepts lists and
tuples alike, and no other key turns into one of the members it looks for.
-/

namespace Swarmind.AlphaMining.FactorDsl

open Swarmind.Library

/-- A key of a Python dictionary: a float key is written as a float. -/
def ProperKey : PyKey → Prop
  | .float digits => Json.isFloatText digits = true
  | _ => True

mutual

/-- A value as Python has it: dictionaries have distinct keys. -/
def Proper : PyValue → Prop
  | .list items => AllProper items
  | .tuple items => AllProper items
  | .dict items =>
    (items.map Prod.fst).Nodup ∧ (∀ item ∈ items, ProperKey item.1) ∧ MembersProper items
  | _ => True

def AllProper : List PyValue → Prop
  | [] => True
  | item :: rest => Proper item ∧ AllProper rest

def MembersProper : List (PyKey × PyValue) → Prop
  | [] => True
  | (_, value) :: rest => Proper value ∧ MembersProper rest

end

variable {items : List (PyKey × PyValue)}

private theorem proper_of_find (proper : MembersProper items)
    {key : PyKey} {value : PyValue} (found : Dict.find key items = some value) : Proper value := by
  induction items with
  | nil => cases found
  | cons item rest ih =>
    obtain ⟨other, first⟩ := item
    rw [MembersProper] at proper
    rw [Dict.find] at found
    split at found
    · obtain rfl := Option.some.inj found
      exact proper.1
    · exact ih proper.2 found

def treeMembers : List String := ["field", "op", "children", "window"]

private theorem memberName_of_treeMember {key : PyKey} (proper : ProperKey key) {name : String}
    (isMember : name ∈ treeMembers) (named : key.memberName = some name) : key = .str name := by
  cases key with
  | str text => rw [Option.some.inj named]
  | none =>
    obtain rfl := Option.some.inj named
    exact absurd isMember (by decide)
  | bool value =>
    cases value <;> obtain rfl := Option.some.inj named <;> exact absurd isMember (by decide)
  | int value =>
    obtain rfl := Option.some.inj named
    have read := Json.tokenValue_int value
    simp only [treeMembers, List.mem_cons, List.not_mem_nil, or_false] at isMember
    rcases isMember with same | same | same | same <;> rw [same] at read <;> cases read
  | float digits =>
    obtain rfl := Option.some.inj named
    simp only [treeMembers, List.mem_cons, List.not_mem_nil, or_false] at isMember
    rcases isMember with rfl | rfl | rfl | rfl <;>
      exact absurd (show Json.isFloatText _ = true from proper) (by decide +kernel)
  | other typeName => cases named

private theorem get?_foldl_set_loadsMembers {document : List (String × Json)}
    (distinct : (items.map Prod.fst).Nodup) (keys : ∀ item ∈ items, ProperKey item.1)
    (written : PyValue.dumpsMembers items = some document) {name : String}
    (isMember : name ∈ treeMembers) (start : Dict PyKey PyValue) :
    ((Json.loadsMembers document).foldl (fun dict pair => dict.set pair.1 pair.2) start).get?
        (.str name) =
      match member items name with
      | some value => value.stored
      | none => start.get? (.str name) := by
  induction items generalizing document start with
  | nil =>
    obtain rfl := Option.some.inj written
    rfl
  | cons item rest ih =>
    obtain ⟨key, value⟩ := item
    rw [PyValue.dumpsMembers] at written
    obtain ⟨keyName, named, written⟩ := Option.bind_eq_some_iff.mp written
    obtain ⟨head, writtenHead, written⟩ := Option.bind_eq_some_iff.mp written
    obtain ⟨later, writtenLater, rfl⟩ := Option.map_eq_some_iff.mp written
    rw [List.map_cons, List.nodup_cons] at distinct
    have behind := ih distinct.2
      (fun other among => keys other (by simp [among])) writtenLater
      (start.set (.str keyName) head.loads)
    rw [Json.loadsMembers, List.foldl_cons, behind, member, member, Dict.find]
    by_cases here : key = .str name
    · obtain rfl := here
      obtain rfl : name = keyName := Option.some.inj named
      have absent : Dict.find (PyKey.str name) rest = none :=
        (Dict.find_eq_none_iff (PyKey.str name) rest).mpr distinct.1
      simp [absent, PyValue.stored, writtenHead]
    · have other : PyKey.str keyName ≠ .str name := by
        intro same
        obtain rfl := PyKey.str.inj same
        exact here (memberName_of_treeMember (keys (key, value) (by simp)) isMember named)
      simp [here, Dict.get?_set_of_ne _ _ other]

private theorem member_of_stored {items backs : List (PyKey × PyValue)}
    (proper : Proper (.dict items))
    (reads : (PyValue.dict items).stored = some (.dict backs)) {name : String}
    (isMember : name ∈ treeMembers) :
    member backs name = (member items name).bind PyValue.stored := by
  obtain ⟨json, written, loaded⟩ := Option.map_eq_some_iff.mp reads
  obtain ⟨document, writtenMembers, rfl⟩ := Option.map_eq_some_iff.mp written
  obtain rfl := PyValue.dict.inj loaded
  have looked := get?_foldl_set_loadsMembers proper.1 proper.2.1 writtenMembers isMember .empty
  rw [member, ← Dict.get?, Dict.ofList, looked]
  cases member items name <;> rfl

/-! ### Single members -/

/-- Text of a container: it starts with a bracket, which no name does. -/
def startsWithBracket (text : String) : Bool :=
  match text.toList.head? with
  | some first => first = '[' || first = '(' || first = '\x7b'
  | none => false

private theorem startsWithBracket_text {value : PyValue}
    (container : (listItems value).isSome ∨ ∃ items, value = .dict items) :
    startsWithBracket value.text = true := by
  rcases container with isList | ⟨items, rfl⟩
  · cases value with
    | list items => unfold PyValue.text; simp [PyValue.repr, startsWithBracket]
    | tuple items =>
      rcases items with - | ⟨item, - | ⟨other, rest⟩⟩ <;> unfold PyValue.text <;>
        simp [PyValue.repr, startsWithBracket]
    | none | bool _ | int _ | float _ | str _ | dict _ | object _ => cases isList
  · unfold PyValue.text
    simp [PyValue.repr, startsWithBracket]

private theorem stored_eq_self {value back : PyValue} (reads : value.stored = some back)
    (plain : startsWithBracket value.text = false) : back = value := by
  cases value with
  | none => exact (Option.some.inj reads).symm
  | bool flag => exact (Option.some.inj reads).symm
  | int number => exact (Option.some.inj reads).symm
  | float digits => exact (Option.some.inj reads).symm
  | str text => exact (Option.some.inj reads).symm
  | object typeName => cases reads
  | list items =>
    rw [startsWithBracket_text (.inl rfl)] at plain
    cases plain
  | tuple items =>
    rw [startsWithBracket_text (.inl rfl)] at plain
    cases plain
  | dict items =>
    rw [startsWithBracket_text (.inr ⟨items, rfl⟩)] at plain
    cases plain

private theorem parseField_stored {field back : PyValue} {expr : Expr}
    (parsed : parseField field = .ok expr) (reads : field.stored = some back) :
    parseField back = .ok expr := by
  obtain ⟨known, named⟩ := (parseField_classified field).returns.mp ⟨expr, parsed⟩
  rw [stored_eq_self reads (by rw [named]; cases known <;> decide), parsed]

private theorem parseOperator_stored {op : Option PyValue} {known : Operator}
    (parsed : parseOperator op = .ok known) (stores : ∀ value, op = some value →
      (PyValue.stored value).isSome) : parseOperator (op.bind PyValue.stored) = .ok known := by
  cases op with
  | none => exact parsed
  | some value =>
    have named : value.text = known.value := (parseOperator_eq_ok_iff _ _).mp parsed
    obtain ⟨back, reads⟩ := Option.isSome_iff_exists.mp (stores value rfl)
    rw [Option.bind_some, reads, stored_eq_self reads (by rw [named]; cases known <;> decide),
      parsed]

private theorem parseWindow_stored {window : Option PyValue} {value : Option Int}
    (parsed : parseWindow window = .ok value) (stores : ∀ value, window = some value →
      (PyValue.stored value).isSome) : parseWindow (window.bind PyValue.stored) = .ok value := by
  cases window with
  | none => exact parsed
  | some given =>
    obtain ⟨back, reads⟩ := Option.isSome_iff_exists.mp (stores given rfl)
    have same : back = given := by
      cases given with
      | list _ | tuple _ | dict _ | object _ => cases parsed
      | none | bool _ | int _ | float _ | str _ => exact (Option.some.inj reads).symm
    rw [Option.bind_some, reads, same, parsed]

/-! ### The whole tree -/

private theorem stored_isSome_of_find {document : List (String × Json)}
    (written : PyValue.dumpsMembers items = some document) {key : PyKey} {value : PyValue}
    (found : Dict.find key items = some value) : value.stored.isSome := by
  induction items generalizing document with
  | nil => cases found
  | cons item rest ih =>
    obtain ⟨other, first⟩ := item
    rw [PyValue.dumpsMembers] at written
    obtain ⟨_, _, written⟩ := Option.bind_eq_some_iff.mp written
    obtain ⟨head, writtenHead, written⟩ := Option.bind_eq_some_iff.mp written
    obtain ⟨later, writtenLater, rfl⟩ := Option.map_eq_some_iff.mp written
    rw [Dict.find] at found
    split at found
    · obtain rfl := Option.some.inj found
      rw [PyValue.stored, writtenHead]
      rfl
    · exact ih writtenLater found

/-- What the data denote, they denote after being written and read. -/
def Survives (data : PyValue) : Prop :=
  ∀ expr back, Proper data → parseExpr data = .ok expr → data.stored = some back →
    parseExpr back = .ok expr

private theorem parseAll_stored {items : List PyValue} {document : List Json} {trees : List Expr}
    (each : ∀ item ∈ items, Survives item) (proper : AllProper items)
    (written : PyValue.dumpsItems items = some document) (parsed : parseAll items = .ok trees) :
    parseAll (Json.loadsItems document) = .ok trees := by
  induction items generalizing document trees with
  | nil =>
    obtain rfl := Option.some.inj written
    exact parsed
  | cons item rest ih =>
    rw [PyValue.dumpsItems] at written
    obtain ⟨head, writtenHead, written⟩ := Option.bind_eq_some_iff.mp written
    obtain ⟨later, writtenLater, rfl⟩ := Option.map_eq_some_iff.mp written
    rw [parseAll] at parsed
    obtain ⟨tree, parsedHead, parsed⟩ := ok_of_bind parsed
    obtain ⟨more, parsedLater, rfl⟩ := ok_of_map parsed
    have here := each item (by simp) tree head.loads proper.1 parsedHead
      (by rw [PyValue.stored, writtenHead]; rfl)
    have behind := ih (fun other among => each other (by simp [among]))
      proper.2 writtenLater parsedLater
    rw [Json.loadsItems, parseAll, here, behind]
    rfl

private theorem stored_of_listItems {value back : PyValue} {items : List PyValue}
    (listed : listItems value = some items) (reads : value.stored = some back) :
    ∃ document, PyValue.dumpsItems items = some document ∧
      back = .list (Json.loadsItems document) := by
  obtain ⟨json, written, rfl⟩ := Option.map_eq_some_iff.mp reads
  cases value with
  | list others =>
    obtain rfl := Option.some.inj listed
    obtain ⟨document, writtenItems, rfl⟩ := Option.map_eq_some_iff.mp written
    exact ⟨document, writtenItems, rfl⟩
  | tuple others =>
    obtain rfl := Option.some.inj listed
    obtain ⟨document, writtenItems, rfl⟩ := Option.map_eq_some_iff.mp written
    exact ⟨document, writtenItems, rfl⟩
  | none | bool _ | int _ | float _ | str _ | dict _ | object _ => cases listed

private theorem parseChildren_stored {items backs : List (PyKey × PyValue)} {trees : List Expr}
    (each : ∀ children, childItems items = some children → ∀ child ∈ children, Survives child)
    (proper : Proper (.dict items))
    (stores : ∀ value, member items "children" = some value → value.stored.isSome)
    (looks : member backs "children" = (member items "children").bind PyValue.stored)
    (parsed : parseChildren items = .ok trees) : parseChildren backs = .ok trees := by
  rw [parseChildren_eq] at parsed ⊢
  cases found : member items "children" with
  | none =>
    rw [found, Option.bind_none] at looks
    rw [childItems, found] at parsed
    rw [childItems, looks]
    exact parsed
  | some value =>
    have childrenOf : childItems items = listItems value := by rw [childItems, found]; rfl
    obtain ⟨back, reads⟩ := Option.isSome_iff_exists.mp (stores value found)
    rw [childrenOf] at parsed each
    cases listed : listItems value with
    | none =>
      rw [listed] at parsed
      cases parsed
    | some children =>
      rw [listed] at parsed
      obtain ⟨document, written, rfl⟩ := stored_of_listItems listed reads
      have properValue := proper_of_find proper.2.2 found
      have properChildren : AllProper children := by
        cases value with
        | list others =>
          obtain rfl := Option.some.inj listed
          exact properValue
        | tuple others =>
          obtain rfl := Option.some.inj listed
          exact properValue
        | none | bool _ | int _ | float _ | str _ | dict _ | object _ => cases listed
      have backsChildren : childItems backs = some (Json.loadsItems document) := by
        rw [childItems, looks, found, Option.bind_some, reads]
        rfl
      rw [backsChildren]
      exact parseAll_stored (each children listed) properChildren written parsed

/-- A tree that is written as JSON and read back is parsed as the same tree. -/
theorem survives (data : PyValue) : Survives data := by
  induction data using data_induction with
  | other data isOther =>
    intro expr back _ parsed
    rw [parseExpr_other isOther] at parsed
    cases parsed
  | dict items ih =>
    intro expr back proper parsed reads
    obtain ⟨json, written, rfl⟩ := Option.map_eq_some_iff.mp reads
    obtain ⟨document, writtenMembers, rfl⟩ := Option.map_eq_some_iff.mp written
    have looks {name : String} (isMember : name ∈ treeMembers) :=
      member_of_stored proper reads isMember
    have stores {name : String} (value : PyValue) (found : member items name = some value) :=
      stored_isSome_of_find writtenMembers found
    rw [parseExpr_dict] at parsed
    rw [Json.loads, parseExpr_dict, looks (by decide), looks (by decide), looks (by decide)]
    cases found : member items "field" with
    | some field =>
      rw [found] at parsed
      obtain ⟨back, readsField⟩ := Option.isSome_iff_exists.mp (stores field found)
      rw [Option.bind_some, readsField]
      exact parseField_stored parsed readsField
    | none =>
      rw [found] at parsed
      obtain ⟨op, parsedOp, parsed⟩ := ok_of_bind parsed
      obtain ⟨trees, parsedChildren, parsed⟩ := ok_of_bind parsed
      obtain ⟨window, parsedWindow, applied⟩ := ok_of_bind parsed
      rw [Option.bind_none]
      simp only [parseOperator_stored parsedOp stores,
        parseChildren_stored ih proper stores (looks (by decide))
          parsedChildren,
        parseWindow_stored parsedWindow stores, Except.bind]
      exact applied

end Swarmind.AlphaMining.FactorDsl
