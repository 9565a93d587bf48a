import Swarmind.Library.CompactJson
import Swarmind.Library.JsonOrder
import Swarmind.Library.PrefixCode
import Swarmind.Library.PyText
import Mathlib.Data.List.Lex

/-!
Owns `canonical_json`. The canonical text of a JSON value is its document without blanks,
with the members of each object sorted and with what is nested too deep cut off. Reading
it back gives that document, so that two values with one canonical text are the same but
for the order of keys and what has been cut off.
-/

namespace Swarmind.ReverseEngineering

open Swarmind.Library

def maxDepth : Nat := 512

/-! ### Writing -/

/-- An escaped character of `_write_string`. -/
def escape (character : Char) : List Char :=
  if character = '"' then ['\\', '"']
  else if character = '\\' then ['\\', '\\']
  else if character.toNat = 0x08 then ['\\', 'b']
  else if character.toNat = 0x0C then ['\\', 'f']
  else if character = '\n' then ['\\', 'n']
  else if character = '\r' then ['\\', 'r']
  else if character = '\t' then ['\\', 't']
  else if character.toNat < 0x20 then
    ['\\', 'u', '0', '0', Json.hexDigit (character.toNat / 16),
      Json.hexDigit (character.toNat % 16)]
  else [character]

def writeString (text : String) : List Char := '"' :: (text.toList.flatMap escape ++ ['"'])

def codeUnits (character : Char) : List Nat :=
  if character.toNat < 0x10000 then [character.toNat]
  else [0xD800 + (character.toNat - 0x10000) / 0x400, 0xDC00 + (character.toNat - 0x10000) % 0x400]

/-- `key.encode("utf-16-be")`, by its code units: bytes in pairs compare as the units do. -/
def utf16 (text : String) : List Nat := text.toList.flatMap codeUnits

def keyText : PyKey → String
  | .str text => text
  | key => key.repr

/-- The keys of `_write_object` in their order. -/
def sortedKeys (items : List (PyKey × PyValue)) : List String :=
  (items.map fun item => keyText item.1).insertionSort fun left right => utf16 left ≤ utf16 right

/-- The loop of `_write_object` over the keys, each with what is written under it. -/
def writeMembers (written : List (PyKey × Except PyException (List Char))) :
    List String → Except PyException (List (List Char))
  | [] => .ok []
  | key :: rest =>
    ((Dict.find (.str key) written).getD (.error ⟨"KeyError", pyRepr key⟩)).bind fun member =>
      (writeMembers written rest).map fun later => (writeString key ++ ':' :: member) :: later

def notFinite : PyException := .valueError "JSON canónico no admite NaN ni Infinito"

def notJson (typeName : String) : PyException :=
  .valueError s!"valor no JSON-compatible: {typeName}"

mutual

def writeValue (depth : Nat) (value : PyValue) : Except PyException (List Char) :=
  if maxDepth < depth then .ok "null".toList
  else
    match value with
    | .none => .ok "null".toList
    | .bool true => .ok "true".toList
    | .bool false => .ok "false".toList
    | .int value => .ok (toString value).toList
    | .float digits =>
      if digits ∈ ["nan", "inf", "-inf"] then .error notFinite else .ok digits.toList
    | .str text => .ok (writeString text)
    | .list items | .tuple items =>
      (writeItems (depth + 1) items).map fun parts => '[' :: ([','].intercalate parts ++ [']'])
    | .dict items =>
      (writeMembers (writtenItems (depth + 1) items) (sortedKeys items)).map fun parts =>
        '\x7b' :: ([','].intercalate parts ++ ['\x7d'])
    | .object typeName => .error (notJson typeName)

def writeItems (depth : Nat) : List PyValue → Except PyException (List (List Char))
  | [] => .ok []
  | item :: rest =>
    (writeValue depth item).bind fun head =>
      (writeItems depth rest).map fun later => head :: later

/-- What `_write_object` writes under each key, once it comes to the key. -/
def writtenItems (depth : Nat) :
    List (PyKey × PyValue) → List (PyKey × Except PyException (List Char))
  | [] => []
  | (key, value) :: rest => (key, writeValue depth value) :: writtenItems depth rest

end

def canonicalJson (value : PyValue) : Except PyException String :=
  (writeValue 0 value).map String.ofList

/-! ### Strings and keys -/

private theorem escape_eq_escapeChar : escape = Json.escapeChar := by
  funext character
  unfold escape Json.escapeChar
  by_cases isBackspace : character.toNat = 0x08
  · obtain rfl : character = Char.ofNat 0x08 := by rw [← isBackspace, Char.ofNat_toNat]
    rfl
  by_cases isFormFeed : character.toNat = 0x0C
  · obtain rfl : character = Char.ofNat 0x0C := by rw [← isFormFeed, Char.ofNat_toNat]
    rfl
  rw [if_neg isBackspace, if_neg isFormFeed, if_neg isFormFeed, if_neg isBackspace]

private theorem writeString_eq_quote (text : String) : writeString text = Json.quote text := by
  rw [writeString, escape_eq_escapeChar, Json.quote]

private theorem toNat_valid (character : Char) :
    character.toNat < 0xD800 ∨ 0xDFFF < character.toNat ∧ character.toNat < 0x110000 :=
  character.valid

private theorem prefixCode_codeUnits : PrefixCode codeUnits := by
  intro left right s t same
  have leftValid := toNat_valid left
  have rightValid := toNat_valid right
  have codes : left.toNat = right.toNat := by
    unfold codeUnits at same
    split_ifs at same <;>
      simp only [List.cons_append, List.nil_append, List.cons.injEq] at same <;> omega
  exact Char.ext (UInt32.toNat_inj.mp codes)

private theorem codeUnits_ne_nil (character : Char) : codeUnits character ≠ [] := by
  unfold codeUnits
  split_ifs <;> exact List.cons_ne_nil _ _

private theorem utf16_injective : Function.Injective utf16 := by
  have general : ∀ left right : List Char,
      left.flatMap codeUnits = right.flatMap codeUnits → left = right := by
    intro left
    induction left with
    | nil =>
      intro right same
      cases right with
      | nil => rfl
      | cons head rest =>
        rw [List.flatMap_nil, List.flatMap_cons] at same
        exact absurd (List.append_eq_nil_iff.mp same.symm).1 (codeUnits_ne_nil head)
    | cons head rest ih =>
      intro right same
      cases right with
      | nil =>
        rw [List.flatMap_nil, List.flatMap_cons] at same
        exact absurd (List.append_eq_nil_iff.mp same).1 (codeUnits_ne_nil head)
      | cons other later =>
        rw [List.flatMap_cons, List.flatMap_cons] at same
        obtain ⟨rfl, sameRest⟩ := prefixCode_codeUnits.cancel same
        rw [ih later sameRest]
  exact fun left right same => String.toList_inj.mp (general _ _ same)

/-! ### Canonical texts -/

variable {depth : Nat}

variable (document : Json → Json)

private theorem writeItems_eq {items : List Json}
    (each : ∀ item ∈ items, writeValue depth item.value = .ok (document item).compact) :
    writeItems depth (Json.itemValues items) = .ok (Json.compactItems (items.map document)) := by
  induction items with
  | nil => rfl
  | cons item rest ih =>
    rw [List.forall_mem_cons] at each
    rw [Json.itemValues, writeItems, each.1, ih each.2]
    rfl

variable {members : List (String × Json)}

private theorem writtenItems_eq
    (each : ∀ member ∈ members, writeValue depth member.2.value = .ok (document member.2).compact) :
    writtenItems depth (Json.memberValues members) =
      members.map fun member => (.str member.1, .ok (document member.2).compact) := by
  induction members with
  | nil => rfl
  | cons member rest ih =>
    rw [List.forall_mem_cons] at each
    rw [Json.memberValues, writtenItems, each.1, ih each.2, List.map_cons]

private theorem writeMembers_eq {written : List (PyKey × Except PyException (List Char))}
    (each : ∀ member ∈ members, Dict.find (.str member.1) written = some (.ok member.2.compact)) :
    writeMembers written (members.map Prod.fst) = .ok (Json.compactMembers members) := by
  induction members with
  | nil => rfl
  | cons member rest ih =>
    rw [List.forall_mem_cons] at each
    rw [List.map_cons, writeMembers, each.1, ih each.2,
      writeString_eq_quote]
    rfl

private theorem sortedKeys_memberValues (members : List (String × Json)) :
    sortedKeys (Json.memberValues members) =
      (members.map Prod.fst).insertionSort fun left right => utf16 left ≤ utf16 right := by
  rw [sortedKeys, Json.memberValues_eq_map, List.map_map]
  rfl

def canonicalAt (depth : Nat) (json : Json) : Json := (json.cut (maxDepth + 1 - depth)).sortBy utf16

private theorem canonicalAt_succ (shallow : ¬maxDepth < depth) :
    maxDepth + 1 - depth = maxDepth + 1 - (depth + 1) + 1 := by
  omega

private theorem canonicalAt_deep (deep : maxDepth < depth) (json : Json) :
    canonicalAt depth json = .null := by
  have levels : maxDepth + 1 - depth = 0 := by omega
  rw [canonicalAt, levels, Json.cut, Json.sortBy]

private theorem canonicalAt_array (shallow : ¬maxDepth < depth) (items : List Json) :
    canonicalAt depth (.array items) = .array (items.map (canonicalAt (depth + 1))) := by
  rw [canonicalAt, canonicalAt_succ shallow, Json.cut, Json.sortBy, Json.sortItems_eq_map,
    List.map_map]
  rfl

private theorem canonicalAt_object (shallow : ¬maxDepth < depth) (members : List (String × Json)) :
    canonicalAt depth (.object members) =
      .object ((members.map fun member => (member.1, canonicalAt (depth + 1) member.2)).insertionSort
        fun left right => utf16 left.1 ≤ utf16 right.1) := by
  rw [canonicalAt, canonicalAt_succ shallow, Json.cut, Json.sortBy, Json.sortMembers_eq_map,
    List.map_map]
  rfl

private theorem canonicalAt_of_not_closed (shallow : ¬maxDepth < depth) {json : Json}
    (isOpen : ¬json.Closed) : canonicalAt depth json = json := by
  rw [canonicalAt, canonicalAt_succ shallow]
  cases json with
  | null | bool _ | int _ | float _ => rfl
  | str _ | array _ | object _ => exact absurd trivial isOpen

private theorem writeValue_deep (deep : maxDepth < depth) (json : Json) :
    writeValue depth json.value = .ok (canonicalAt depth json).compact := by
  rw [canonicalAt_deep deep]
  cases json with
  | bool value => cases value <;> (rw [Json.value, writeValue, if_pos deep]; rfl)
  | null | int _ | float _ | str _ | array _ | object _ =>
    rw [Json.value, writeValue, if_pos deep]
    rfl

private theorem names_sorted (members : List (String × Json)) :
    ((members.map fun member => (member.1, document member.2)).insertionSort
        fun left right => utf16 left.1 ≤ utf16 right.1).map Prod.fst =
      (members.map Prod.fst).insertionSort fun left right => utf16 left ≤ utf16 right := by
  rw [List.map_insertionSort _ (fun left right => utf16 left ≤ utf16 right) Prod.fst _
    fun _ _ _ _ => Iff.rfl, List.map_map]
  rfl

private theorem find_written (names : (members.map Prod.fst).Nodup) {member : String × Json}
    (among : member ∈ members.map fun member => (member.1, document member.2)) :
    Dict.find (.str member.1)
        (members.map fun member =>
          ((.str member.1, .ok (document member.2).compact) :
            PyKey × Except PyException (List Char))) =
      some (.ok member.2.compact) := by
  obtain ⟨original, held, rfl⟩ := List.mem_map.mp among
  refine (Dict.find_eq_some_iff ?_ _ _).mpr (List.mem_map.mpr ⟨original, held, rfl⟩)
  have keys : (members.map fun member =>
      ((.str member.1, .ok (document member.2).compact) :
        PyKey × Except PyException (List Char))).map Prod.fst =
      (members.map Prod.fst).map PyKey.str := by
    rw [List.map_map, List.map_map]
    rfl
  rw [keys]
  exact names.map fun _ _ => PyKey.str.inj

private theorem writeValue_value {json : Json} (standard : json.Standard) (depth : Nat) :
    writeValue depth json.value = .ok (canonicalAt depth json).compact := by
  induction json using Json.inductionOn generalizing depth with
  | null =>
    by_cases deep : maxDepth < depth
    · exact writeValue_deep deep _
    · rw [canonicalAt_of_not_closed deep id, Json.value, writeValue, if_neg deep]
      rfl
  | bool value =>
    by_cases deep : maxDepth < depth
    · exact writeValue_deep deep _
    · rw [canonicalAt_of_not_closed deep id]
      cases value <;> (rw [Json.value, writeValue, if_neg deep]; rfl)
  | int value =>
    by_cases deep : maxDepth < depth
    · exact writeValue_deep deep _
    · rw [canonicalAt_of_not_closed deep id, Json.value, writeValue, if_neg deep]
      rfl
  | float digits =>
    by_cases deep : maxDepth < depth
    · exact writeValue_deep deep _
    · have finite := standard.2
      simp only [List.mem_cons, List.not_mem_nil, or_false, not_or] at finite
      obtain ⟨notNan, notInf, notNegInf⟩ := finite
      rw [canonicalAt_of_not_closed deep id, Json.value, writeValue, if_neg deep,
        if_neg standard.2, Json.compact, Json.encode, Json.floatText, if_neg notNan, if_neg notInf,
        if_neg notNegInf]
      all_goals exact fun _ => Json.noConfusion
  | str text =>
    by_cases deep : maxDepth < depth
    · exact writeValue_deep deep _
    · rw [canonicalAt, canonicalAt_succ deep, Json.value, writeValue, if_neg deep,
        writeString_eq_quote]
      rfl
  | array items ih =>
    by_cases deep : maxDepth < depth
    · exact writeValue_deep deep _
    · have each := (Json.allStandard_iff items).mp standard
      have written := writeItems_eq (canonicalAt (depth + 1)) fun item among =>
        ih item among (each item among) (depth + 1)
      rw [canonicalAt_array deep, Json.value, writeValue, if_neg deep, written, Json.compact]
      rfl
  | object members ih =>
    by_cases deep : maxDepth < depth
    · exact writeValue_deep deep _
    · obtain ⟨names, each⟩ := standard
      rw [Json.membersStandard_iff] at each
      have written := writtenItems_eq (canonicalAt (depth + 1)) fun member among =>
        ih member among (each member among) (depth + 1)
      rw [canonicalAt_object deep, Json.value, writeValue, if_neg deep, written,
        sortedKeys_memberValues, ← names_sorted (canonicalAt (depth + 1)), Json.compact]
      rw [writeMembers_eq fun member among =>
        find_written (canonicalAt (depth + 1)) names
          ((List.perm_insertionSort _ _).mem_iff.mp among)]
      rfl

/-! ### What a canonical text tells -/

private theorem canonicalJson_value {json : Json} (standard : json.Standard) :
    canonicalJson json.value =
      .ok (String.ofList ((json.cut (maxDepth + 1)).sortBy utf16).compact) := by
  rw [canonicalJson, writeValue_value standard]
  rfl

/-- Every JSON value has a canonical text. -/
theorem canonicalJson_ok {value : PyValue} (isJson : value.IsJson) :
    ∃ text, canonicalJson value = .ok text := by
  obtain ⟨json, standard, rfl⟩ := isJson
  exact ⟨_, canonicalJson_value standard⟩

variable {left right : PyValue}

/-- Values with one canonical text are the same, but for what is cut off. -/
theorem same_of_canonicalJson_eq (leftJson : left.IsJson)
    (rightJson : right.IsJson) (same : canonicalJson left = canonicalJson right) :
    (left.cut (maxDepth + 1)).Same (right.cut (maxDepth + 1)) := by
  obtain ⟨one, oneStandard, rfl⟩ := leftJson
  obtain ⟨two, twoStandard, rfl⟩ := rightJson
  have oneCut := Json.standard_cut (maxDepth + 1) oneStandard
  have twoCut := Json.standard_cut (maxDepth + 1) twoStandard
  rw [canonicalJson_value oneStandard, canonicalJson_value twoStandard, Except.ok.injEq] at same
  have documents := Json.compact_injective (Json.standard_sortBy utf16 oneCut).textual
    (Json.standard_sortBy utf16 twoCut).textual (String.ofList_injective same)
  rw [← Json.value_cut, ← Json.value_cut]
  exact Json.same_of_sortBy_eq utf16 oneCut.distinct twoCut.distinct documents

/-- Values that are the same down to `MAX_DEPTH` have one text. -/
theorem canonicalJson_eq_of_cut (leftJson : left.IsJson)
    (rightJson : right.IsJson) (same : (left.cut (maxDepth + 1)).Same (right.cut (maxDepth + 1))) :
    canonicalJson left = canonicalJson right := by
  obtain ⟨one, oneStandard, rfl⟩ := leftJson
  obtain ⟨two, twoStandard, rfl⟩ := rightJson
  rw [← Json.value_cut, ← Json.value_cut] at same
  have sorted := Json.sortBy_eq_of_same utf16 utf16_injective
    (Json.standard_cut (maxDepth + 1) oneStandard).distinct
    (Json.standard_cut (maxDepth + 1) twoStandard).distinct same
  rw [canonicalJson_value oneStandard, canonicalJson_value twoStandard, sorted]

/-- Values that are the same have one text. -/
theorem canonicalJson_congr (leftJson : left.IsJson) (rightJson : right.IsJson)
    (same : left.Same right) : canonicalJson left = canonicalJson right := by
  obtain ⟨one, oneStandard, rfl⟩ := leftJson
  obtain ⟨two, twoStandard, rfl⟩ := rightJson
  have sorted := Json.sortBy_eq_of_same utf16 utf16_injective oneStandard.distinct
    twoStandard.distinct same
  rw [canonicalJson_value oneStandard, canonicalJson_value twoStandard, Json.sortBy_cut,
    Json.sortBy_cut, sorted]

end Swarmind.ReverseEngineering
