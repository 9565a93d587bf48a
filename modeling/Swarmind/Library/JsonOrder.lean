import Swarmind.Library.JsonLines
import Mathlib.Data.List.Sort

/-!
Owns JSON documents up to the order of their members. The value of a document is the
Python value it is written from; two values are the same when they differ in the order of
keys only. Sorting the members of every object by an injective rank leaves the value the
same, and tells values apart that are not. A value may be cut to its first levels, which
commutes with sorting.
-/

namespace Swarmind.Library

universe u

namespace Dict

variable {κ : Type} {ν : Type u} [DecidableEq κ]

private theorem find_of_perm {entries others : List (κ × ν)} (perm : entries.Perm others)
    (distinct : (entries.map Prod.fst).Nodup) (key : κ) : find key entries = find key others := by
  have distinctOthers : (others.map Prod.fst).Nodup := (perm.map Prod.fst).nodup_iff.mp distinct
  ext value
  rw [find_eq_some_iff distinct, find_eq_some_iff distinctOthers, perm.mem_iff]

end Dict

namespace PyValue

/-- Two JSON values that differ in the order of keys only. -/
inductive Same : PyValue → PyValue → Prop where
  | none : Same .none .none
  | bool (value : Bool) : Same (.bool value) (.bool value)
  | int (value : Int) : Same (.int value) (.int value)
  | float (digits : String) : Same (.float digits) (.float digits)
  | str (text : String) : Same (.str text) (.str text)
  | list {items others : List PyValue} (each : List.Forall₂ Same items others) :
      Same (.list items) (.list others)
  | dict {items others : List (PyKey × PyValue)}
      (each : ∀ key, Option.Rel Same (Dict.find key items) (Dict.find key others)) :
      Same (.dict items) (.dict others)

end PyValue

namespace Json

/-! ### Values of documents -/

mutual

/-- The Python value that a document is written from. -/
def value : Json → PyValue
  | .null => .none
  | .bool value => .bool value
  | .int value => .int value
  | .float digits => .float digits
  | .str text => .str text
  | .array items => .list (itemValues items)
  | .object members => .dict (memberValues members)

def itemValues : List Json → List PyValue
  | [] => []
  | item :: rest => item.value :: itemValues rest

def memberValues : List (String × Json) → List (PyKey × PyValue)
  | [] => []
  | (name, member) :: rest => (.str name, member.value) :: memberValues rest

end

variable (items : List Json)

theorem itemValues_eq_map : itemValues items = items.map value := by
  induction items with
  | nil => rfl
  | cons item rest ih => rw [itemValues, ih, List.map_cons]

theorem memberValues_eq_map (members : List (String × Json)) :
    memberValues members = members.map fun member => (.str member.1, member.2.value) := by
  induction members with
  | nil => rfl
  | cons member rest ih =>
    rw [memberValues, ih, List.map_cons]

theorem find_memberValues (members : List (String × Json)) (name : String) :
    Dict.find (.str name) (memberValues members) = (Dict.find name members).map value := by
  induction members with
  | nil => rfl
  | cons member rest ih =>
    simp only [memberValues, Dict.find, PyKey.str.injEq]
    split_ifs
    · rfl
    · exact ih

private theorem find_memberValues_of_not_str {key : PyKey} (other : ∀ name, key ≠ .str name)
    (members : List (String × Json)) : Dict.find key (memberValues members) = none := by
  rw [Dict.find_eq_none_iff, memberValues_eq_map, List.map_map]
  intro among
  obtain ⟨member, _, same⟩ := List.mem_map.mp among
  exact other member.1 same.symm

mutual

/-- No object has two members of one name. -/
def Distinct : Json → Prop
  | .array items => AllDistinct items
  | .object members => (members.map Prod.fst).Nodup ∧ MembersDistinct members
  | _ => True

def AllDistinct : List Json → Prop
  | [] => True
  | item :: rest => item.Distinct ∧ AllDistinct rest

def MembersDistinct : List (String × Json) → Prop
  | [] => True
  | (_, member) :: rest => member.Distinct ∧ MembersDistinct rest

end

theorem allDistinct_iff : AllDistinct items ↔ ∀ item ∈ items, item.Distinct := by
  induction items with
  | nil => simp [AllDistinct]
  | cons item rest ih => simp [AllDistinct, ih]

theorem membersDistinct_iff (members : List (String × Json)) :
    MembersDistinct members ↔ ∀ member ∈ members, member.2.Distinct := by
  induction members with
  | nil => simp [MembersDistinct]
  | cons member rest ih =>
    obtain ⟨name, held⟩ := member
    simp [MembersDistinct, ih]

/-- The value of a document is written as that document. -/
theorem dumps_value (json : Json) : json.value.dumps = some json := by
  induction json using inductionOn with
  | null | bool _ | int _ | float _ | str _ => rfl
  | array items ih =>
    have written : PyValue.dumpsItems (itemValues items) = some items := by
      induction items with
      | nil => rfl
      | cons item rest later =>
        rw [List.forall_mem_cons] at ih
        rw [itemValues, PyValue.dumpsItems, ih.1,
          later ih.2]
        rfl
    rw [value, PyValue.dumps, written]
    rfl
  | object members ih =>
    have written : PyValue.dumpsMembers (memberValues members) = some members := by
      induction members with
      | nil => rfl
      | cons member rest later =>
        rw [List.forall_mem_cons] at ih
        rw [memberValues, PyValue.dumpsMembers, ih.1,
          later ih.2]
        rfl
    rw [value, PyValue.dumps, written]
    rfl

variable {json : Json}

/-- A document without repeated names is loaded as its value. -/
theorem loads_eq_value (distinct : json.Distinct) : json.loads = json.value := by
  induction json using inductionOn with
  | null | bool _ | int _ | float _ | str _ => rfl
  | array items ih =>
    have read : loadsItems items = itemValues items := by
      rw [Distinct] at distinct
      induction items with
      | nil => rfl
      | cons item rest later =>
        rw [List.forall_mem_cons] at ih
        rw [loadsItems, itemValues, ih.1 distinct.1,
          later ih.2 distinct.2]
    rw [loads, value, read]
  | object members ih =>
    obtain ⟨names, each⟩ := distinct
    have read : loadsMembers members = memberValues members := by
      clear names
      induction members with
      | nil => rfl
      | cons member rest later =>
        rw [List.forall_mem_cons] at ih
        rw [loadsMembers, memberValues, ih.1 each.1,
          later ih.2 each.2]
    have keys : ((memberValues members).map Prod.fst).Nodup := by
      have same : (memberValues members).map Prod.fst = (members.map Prod.fst).map .str := by
        rw [memberValues_eq_map, List.map_map, List.map_map]
        rfl
      rw [same]
      exact names.map fun _ _ => PyKey.str.inj
    rw [loads, value, read, Dict.entries_ofList keys]

/-! ### Sorted members -/

variable {ρ : Type u} [LinearOrder ρ] (rank : String → ρ)

mutual

/-- The document with the members of every object sorted by the ranks of their names. -/
def sortBy : Json → Json
  | .null => .null
  | .bool value => .bool value
  | .int value => .int value
  | .float digits => .float digits
  | .str text => .str text
  | .array items => .array (sortItems items)
  | .object members =>
    .object ((sortMembers members).insertionSort fun left right => rank left.1 ≤ rank right.1)

def sortItems : List Json → List Json
  | [] => []
  | item :: rest => item.sortBy :: sortItems rest

def sortMembers : List (String × Json) → List (String × Json)
  | [] => []
  | (name, member) :: rest => (name, member.sortBy) :: sortMembers rest

end

theorem sortItems_eq_map : sortItems rank items = items.map (sortBy rank) := by
  induction items with
  | nil => rfl
  | cons item rest ih => rw [sortItems, ih, List.map_cons]

section

variable (members : List (String × Json))
include members

theorem sortMembers_eq_map :
    sortMembers rank members = members.map fun member => (member.1, member.2.sortBy rank) := by
  induction members with
  | nil => rfl
  | cons member rest ih =>
    rw [sortMembers, ih, List.map_cons]

private theorem names_sortMembers :
    (sortMembers rank members).map Prod.fst = members.map Prod.fst := by
  rw [sortMembers_eq_map, List.map_map]
  rfl

private theorem sorted_perm :
    ((sortMembers rank members).insertionSort fun left right => rank left.1 ≤ rank right.1).Perm
      (sortMembers rank members) :=
  List.perm_insertionSort _ _

private theorem find_sortMembers (name : String) :
    Dict.find name (sortMembers rank members) = (Dict.find name members).map (sortBy rank) := by
  rw [sortMembers_eq_map]
  exact Dict.find_map (sortBy rank) name members

end

private theorem find_sorted {members : List (String × Json)}
    (distinct : (members.map Prod.fst).Nodup)
    (name : String) :
    Dict.find name
        ((sortMembers rank members).insertionSort fun left right => rank left.1 ≤ rank right.1) =
      (Dict.find name members).map (sortBy rank) := by
  rw [← find_sortMembers]
  refine Dict.find_of_perm (sorted_perm rank members) ?_ name
  rw [((sorted_perm rank members).map Prod.fst).nodup_iff, names_sortMembers]
  exact distinct

private theorem same_items {items others : List Json}
    (each : ∀ item ∈ items, ∀ other ∈ others, item.sortBy rank = other.sortBy rank →
      item.value.Same other.value)
    (sorted : items.map (sortBy rank) = others.map (sortBy rank)) :
    List.Forall₂ PyValue.Same (items.map value) (others.map value) := by
  induction items generalizing others with
  | nil =>
    rw [List.map_nil, eq_comm, List.map_eq_nil_iff] at sorted
    rw [sorted]
    exact .nil
  | cons item rest ih =>
    cases others with
    | nil => cases sorted
    | cons other later =>
      rw [List.map_cons, List.map_cons, List.cons.injEq] at sorted
      refine .cons (each item List.mem_cons_self other List.mem_cons_self sorted.1) ?_
      exact ih (fun one among two held => each one
        (List.mem_cons_of_mem _ among) two (List.mem_cons_of_mem _ held)) sorted.2

/-- Equal sorted documents stand for the same value. -/
theorem same_of_sortBy_eq {left right : Json} (leftDistinct : left.Distinct)
    (rightDistinct : right.Distinct) (sorted : left.sortBy rank = right.sortBy rank) :
    left.value.Same right.value := by
  induction left using inductionOn generalizing right with
  | null | bool _ | int _ | float _ | str _ =>
    cases right <;> cases sorted
    constructor
  | array items ih =>
    cases right with
    | array others =>
      rw [sortBy, sortBy, Json.array.injEq, sortItems_eq_map, sortItems_eq_map] at sorted
      have leftEach := (allDistinct_iff items).mp leftDistinct
      have rightEach := (allDistinct_iff others).mp rightDistinct
      rw [value, value, itemValues_eq_map, itemValues_eq_map]
      exact .list (same_items rank (fun item among other held => ih item among
        (leftEach item among) (rightEach other held)) sorted)
    | null | bool _ | int _ | float _ | str _ | object _ => simp [sortBy] at sorted
  | object members ih =>
    cases right with
    | object others =>
      obtain ⟨leftNames, leftEach⟩ := leftDistinct
      obtain ⟨rightNames, rightEach⟩ := rightDistinct
      rw [membersDistinct_iff] at leftEach rightEach
      rw [sortBy, sortBy, Json.object.injEq] at sorted
      refine .dict fun key => ?_
      by_cases isName : ∃ name, key = .str name
      · obtain ⟨name, rfl⟩ := isName
        have found := find_sorted rank leftNames name
        rw [sorted, find_sorted rank rightNames name] at found
        rw [find_memberValues, find_memberValues]
        cases leftFound : Dict.find name members with
        | none =>
          rw [leftFound, Option.map_none, Option.map_eq_none_iff] at found
          rw [found]
          exact .none
        | some one =>
          rw [leftFound, Option.map_some, Option.map_eq_some_iff] at found
          obtain ⟨two, rightFound, same⟩ := found
          have leftHeld := (Dict.find_eq_some_iff leftNames name one).mp leftFound
          have rightHeld := (Dict.find_eq_some_iff rightNames name two).mp rightFound
          rw [rightFound]
          exact .some (ih _ leftHeld (leftEach _ leftHeld)
            (rightEach _ rightHeld) same.symm)
      · rw [find_memberValues_of_not_str fun name same => isName ⟨name, same⟩,
          find_memberValues_of_not_str fun name same => isName ⟨name, same⟩]
        exact .none
    | null | bool _ | int _ | float _ | str _ | array _ => simp [sortBy] at sorted

theorem same_refl (distinct : json.Distinct) : json.value.Same json.value :=
  same_of_sortBy_eq (fun _ => (0 : Nat)) distinct distinct rfl

private theorem sorted_eq_of_perm (injective : Function.Injective rank)
    {members others : List (String × Json)} (perm : members.Perm others)
    (distinct : (others.map Prod.fst).Nodup) :
    members.insertionSort (fun left right => rank left.1 ≤ rank right.1) =
      others.insertionSort fun left right => rank left.1 ≤ rank right.1 := by
  have total : Std.Total fun left right : String × Json => rank left.1 ≤ rank right.1 :=
    ⟨fun left right => le_total (rank left.1) (rank right.1)⟩
  have trans : IsTrans (String × Json) fun left right => rank left.1 ≤ rank right.1 :=
    ⟨fun _ _ _ => le_trans⟩
  have both := ((List.perm_insertionSort (fun left right : String × Json =>
    rank left.1 ≤ rank right.1) members).trans perm).trans
      (List.perm_insertionSort (fun left right : String × Json =>
        rank left.1 ≤ rank right.1) others).symm
  refine both.eq_of_pairwise ?_ (List.pairwise_insertionSort _ _) (List.pairwise_insertionSort _ _)
  intro one two held among below above
  have names : one.1 = two.1 := injective (le_antisymm below above)
  rw [both.mem_iff, (List.perm_insertionSort _ others).mem_iff] at held
  rw [(List.perm_insertionSort _ others).mem_iff] at among
  exact List.inj_on_of_nodup_map distinct held among names

theorem sortBy_sortBy {ρ' : Type u} [LinearOrder ρ'] (earlier : String → ρ')
    (injective : Function.Injective rank) (distinct : json.Distinct) :
    (json.sortBy earlier).sortBy rank = json.sortBy rank := by
  induction json using inductionOn with
  | null | bool _ | int _ | float _ | str _ => rfl
  | array items ih =>
    have each := (allDistinct_iff items).mp distinct
    rw [sortBy, sortBy, sortBy, sortItems_eq_map, sortItems_eq_map, sortItems_eq_map,
      List.map_map]
    exact congrArg Json.array (List.map_congr_left fun item among =>
      ih item among (each item among))
  | object members ih =>
    obtain ⟨names, each⟩ := distinct
    rw [membersDistinct_iff] at each
    have again : (sortMembers rank (sortMembers earlier members)) = sortMembers rank members := by
      rw [sortMembers_eq_map, sortMembers_eq_map, sortMembers_eq_map, List.map_map]
      exact List.map_congr_left fun member among => by
        rw [Function.comp_apply, ih member among (each member among)]
    have perm : (sortMembers rank ((sortMembers earlier members).insertionSort
        fun left right => earlier left.1 ≤ earlier right.1)).Perm (sortMembers rank members) := by
      rw [← again, sortMembers_eq_map, sortMembers_eq_map rank (sortMembers earlier members)]
      exact (sorted_perm earlier members).map _
    rw [sortBy, sortBy, sortBy]
    exact congrArg Json.object (sorted_eq_of_perm rank injective perm
      (by rw [names_sortMembers]; exact names))

section SameObjects

variable {members others : List (String × Json)}

private theorem find_sortMembers_eq
    (each : ∀ name, Option.Rel PyValue.Same ((Dict.find name members).map value)
      ((Dict.find name others).map value))
    (sorted : ∀ name one two, Dict.find name members = some one → Dict.find name others = some two →
      one.value.Same two.value → one.sortBy rank = two.sortBy rank) (name : String) :
    Dict.find name (sortMembers rank members) = Dict.find name (sortMembers rank others) := by
  have related := each name
  rw [find_sortMembers, find_sortMembers]
  cases leftFound : Dict.find name members with
  | none =>
    cases rightFound : Dict.find name others with
    | none => rfl
    | some two =>
      rw [leftFound, rightFound, Option.map_none, Option.map_some] at related
      cases related
  | some one =>
    cases rightFound : Dict.find name others with
    | none =>
      rw [leftFound, rightFound, Option.map_none, Option.map_some] at related
      cases related
    | some two =>
      rw [leftFound, rightFound, Option.map_some, Option.map_some] at related
      cases related with
      | some held =>
        rw [Option.map_some, Option.map_some, sorted name one two leftFound rightFound held]

private theorem perm_of_find_eq (names : (members.map Prod.fst).Nodup)
    (otherNames : (others.map Prod.fst).Nodup)
    (found : ∀ name, Dict.find name members = Dict.find name others) : members.Perm others := by
  rw [List.perm_ext_iff_of_nodup names.of_map otherNames.of_map]
  rintro ⟨name, held⟩
  rw [← Dict.find_eq_some_iff names, ← Dict.find_eq_some_iff otherNames, found]

end SameObjects

/-- The same values have equal sorted documents. -/
theorem sortBy_eq_of_same (injective : Function.Injective rank) {left right : Json}
    (leftDistinct : left.Distinct) (rightDistinct : right.Distinct)
    (same : left.value.Same right.value) : left.sortBy rank = right.sortBy rank := by
  induction left using inductionOn generalizing right with
  | null | bool _ | int _ | float _ | str _ =>
    cases right <;> cases same
    rfl
  | array items ih =>
    cases right with
    | array others =>
      have leftEach := (allDistinct_iff items).mp leftDistinct
      have rightEach := (allDistinct_iff others).mp rightDistinct
      rw [value, value, itemValues_eq_map, itemValues_eq_map] at same
      cases same with
      | list each =>
        rw [sortBy, sortBy, sortItems_eq_map, sortItems_eq_map]
        rw [List.forall₂_map_left_iff, List.forall₂_map_right_iff] at each
        refine congrArg Json.array ?_
        clear leftDistinct rightDistinct
        induction each with
        | nil => rfl
        | cons head _ later =>
          rw [List.forall_mem_cons] at ih leftEach rightEach
          rw [List.map_cons, List.map_cons,
            ih.1 leftEach.1 rightEach.1 head,
            later ih.2 leftEach.2 rightEach.2]
    | null | bool _ | int _ | float _ | str _ | object _ => cases same
  | object members ih =>
    cases right with
    | object others =>
      obtain ⟨leftNames, leftEach⟩ := leftDistinct
      obtain ⟨rightNames, rightEach⟩ := rightDistinct
      rw [membersDistinct_iff] at leftEach rightEach
      rw [value, value] at same
      cases same with
      | dict each =>
        have related (name : String) := each (.str name)
        simp only [find_memberValues] at related
        have found := find_sortMembers_eq rank related
          fun name one two leftFound rightFound held => by
            have leftHeld := (Dict.find_eq_some_iff leftNames name one).mp leftFound
            have rightHeld := (Dict.find_eq_some_iff rightNames name two).mp rightFound
            exact ih _ leftHeld (leftEach _ leftHeld)
              (rightEach _ rightHeld) held
        rw [← names_sortMembers rank] at leftNames rightNames
        rw [sortBy, sortBy, sorted_eq_of_perm rank injective
          (perm_of_find_eq leftNames rightNames found) rightNames]
    | null | bool _ | int _ | float _ | str _ | array _ => cases same

/-! ### JSON values -/

mutual

/-- No object repeats a name, and every float is a number of its text. -/
def Standard : Json → Prop
  | .float digits => isFloatText digits = true ∧ digits ∉ ["nan", "inf", "-inf"]
  | .array items => AllStandard items
  | .object members => (members.map Prod.fst).Nodup ∧ MembersStandard members
  | _ => True

def AllStandard : List Json → Prop
  | [] => True
  | item :: rest => item.Standard ∧ AllStandard rest

def MembersStandard : List (String × Json) → Prop
  | [] => True
  | (_, member) :: rest => member.Standard ∧ MembersStandard rest

end

theorem allStandard_iff : AllStandard items ↔ ∀ item ∈ items, item.Standard := by
  induction items with
  | nil => simp [AllStandard]
  | cons item rest ih => simp [AllStandard, ih]

theorem membersStandard_iff (members : List (String × Json)) :
    MembersStandard members ↔ ∀ member ∈ members, member.2.Standard := by
  induction members with
  | nil => simp [MembersStandard]
  | cons member rest ih =>
    obtain ⟨name, held⟩ := member
    simp [MembersStandard, ih]

theorem Standard.distinct (standard : json.Standard) : json.Distinct := by
  induction json using inductionOn with
  | null | bool _ | int _ | float _ | str _ => trivial
  | array items ih =>
    have each := (allStandard_iff items).mp standard
    exact (allDistinct_iff items).mpr fun item among =>
      ih item among (each item among)
  | object members ih =>
    have each := (membersStandard_iff members).mp standard.2
    exact ⟨standard.1, (membersDistinct_iff members).mpr fun member among =>
      ih member among (each member among)⟩

theorem Standard.textual (standard : json.Standard) : json.Textual := by
  induction json using inductionOn with
  | null | bool _ | int _ | str _ => trivial
  | float digits => exact standard.1
  | array items ih =>
    have each := (allStandard_iff items).mp standard
    exact (allTextual_iff items).mpr fun item among =>
      ih item among (each item among)
  | object members ih =>
    have each := (membersStandard_iff members).mp standard.2
    exact (membersTextual_iff members).mpr fun member among =>
      ih member among (each member among)

theorem standard_sortBy (standard : json.Standard) : (json.sortBy rank).Standard := by
  induction json using inductionOn with
  | null | bool _ | int _ | float _ | str _ => exact standard
  | array items ih =>
    have each := (allStandard_iff items).mp standard
    rw [sortBy, Standard, allStandard_iff, sortItems_eq_map, List.forall_mem_map]
    exact fun item among => ih item among (each item among)
  | object members ih =>
    obtain ⟨names, each⟩ := standard
    rw [membersStandard_iff] at each
    refine ⟨?_, (membersStandard_iff _).mpr fun member among => ?_⟩
    · rw [((sorted_perm rank members).map Prod.fst).nodup_iff, names_sortMembers]
      exact names
    · rw [(sorted_perm rank members).mem_iff, sortMembers_eq_map] at among
      obtain ⟨original, held, rfl⟩ := List.mem_map.mp among
      exact ih original held (each original held)

end Json

namespace PyValue

def IsJson (value : PyValue) : Prop := ∃ json : Json, json.Standard ∧ json.value = value

namespace IsJson

theorem none : IsJson .none := ⟨.null, trivial, rfl⟩

theorem bool (value : Bool) : IsJson (.bool value) := ⟨.bool value, trivial, rfl⟩

theorem int (value : Int) : IsJson (.int value) := ⟨.int value, trivial, rfl⟩

theorem str (text : String) : IsJson (.str text) := ⟨.str text, trivial, rfl⟩

theorem list {items : List PyValue} (each : ∀ item ∈ items, item.IsJson) :
    IsJson (.list items) := by
  obtain ⟨documents, standard, rfl⟩ : ∃ documents : List Json,
      (∀ document ∈ documents, document.Standard) ∧ documents.map Json.value = items := by
    induction items with
    | nil => exact ⟨[], fun _ among => absurd among List.not_mem_nil, rfl⟩
    | cons item rest ih =>
      rw [List.forall_mem_cons] at each
      obtain ⟨document, standard, rfl⟩ := each.1
      obtain ⟨documents, all, rfl⟩ := ih each.2
      exact ⟨document :: documents, List.forall_mem_cons.mpr ⟨standard, all⟩, rfl⟩
  exact ⟨.array documents, (Json.allStandard_iff documents).mpr standard,
    congrArg PyValue.list (Json.itemValues_eq_map documents)⟩

theorem record {members : List (String × PyValue)} (distinct : (members.map Prod.fst).Nodup)
    (each : ∀ member ∈ members, member.2.IsJson) : IsJson (.record members) := by
  obtain ⟨documents, standard, rfl⟩ : ∃ documents : List (String × Json),
      (∀ document ∈ documents, document.2.Standard) ∧
        (documents.map fun document => (document.1, document.2.value)) = members := by
    clear distinct
    induction members with
    | nil => exact ⟨[], fun _ among => absurd among List.not_mem_nil, rfl⟩
    | cons member rest ih =>
      rw [List.forall_mem_cons] at each
      obtain ⟨document, standard, same⟩ := each.1
      obtain ⟨documents, all, rfl⟩ := ih each.2
      exact ⟨(member.1, document) :: documents, List.forall_mem_cons.mpr ⟨standard, all⟩,
        by rw [List.map_cons, same]⟩
  rw [List.map_map] at distinct
  refine ⟨.object documents, ⟨distinct, (Json.membersStandard_iff documents).mpr standard⟩, ?_⟩
  rw [Json.value, Json.memberValues_eq_map, PyValue.record, List.map_map]
  rfl

end IsJson

theorem Same.refl {value : PyValue} (isJson : value.IsJson) : value.Same value := by
  obtain ⟨json, standard, rfl⟩ := isJson
  exact Json.same_refl standard.distinct

theorem Same.record {members others : List (String × PyValue)}
    (each : List.Forall₂ (fun member other => member.1 = other.1 ∧ member.2.Same other.2)
      members others) : (record members).Same (record others) := by
  refine .dict fun key => ?_
  induction each with
  | nil => exact .none
  | @cons member other members others head _ ih =>
    simp only [List.map_cons, Dict.find, head.1]
    split_ifs
    · exact .some head.2
    · exact ih

end PyValue

/-! ### Cut values -/

/-- The value with `levels` levels; what is nested deeper is none. -/
def PyValue.cut : Nat → PyValue → PyValue
  | 0, _ => .none
  | levels + 1, .list items => .list (items.map (cut levels))
  | levels + 1, .tuple items => .tuple (items.map (cut levels))
  | levels + 1, .dict items => .dict (items.map fun item => (item.1, cut levels item.2))
  | _ + 1, value => value

namespace Json

def cut : Nat → Json → Json
  | 0, _ => .null
  | levels + 1, .array items => .array (items.map (cut levels))
  | levels + 1, .object members =>
    .object (members.map fun member => (member.1, cut levels member.2))
  | _ + 1, json => json

theorem value_cut (levels : Nat) (json : Json) :
    (json.cut levels).value = json.value.cut levels := by
  induction levels generalizing json with
  | zero => simp [cut, value, PyValue.cut]
  | succ levels ih =>
    cases json with
    | null | bool _ | int _ | float _ | str _ => simp [cut, value, PyValue.cut]
    | array items =>
      simp only [cut, value, PyValue.cut, itemValues_eq_map, List.map_map]
      exact congrArg PyValue.list (List.map_congr_left fun item _ => ih item)
    | object members =>
      simp only [cut, value, PyValue.cut, memberValues_eq_map, List.map_map]
      refine congrArg PyValue.dict (List.map_congr_left fun member _ => ?_)
      rw [Function.comp_apply, Function.comp_apply, ih]

private theorem names_cut (levels : Nat) (members : List (String × Json)) :
    (members.map fun member => (member.1, cut levels member.2)).map Prod.fst =
      members.map Prod.fst := by
  rw [List.map_map]
  rfl

theorem standard_cut (levels : Nat) {json : Json} (standard : json.Standard) :
    (json.cut levels).Standard := by
  induction levels generalizing json with
  | zero => simp [cut, Standard]
  | succ levels ih =>
    cases json with
    | null | bool _ | int _ | float _ | str _ => simpa [cut] using standard
    | array items =>
      have each := (allStandard_iff items).mp standard
      rw [cut, Standard, allStandard_iff, List.forall_mem_map]
      exact fun item among => ih (each item among)
    | object members =>
      have each := (membersStandard_iff members).mp standard.2
      refine ⟨by rw [names_cut]; exact standard.1, (membersStandard_iff _).mpr ?_⟩
      rw [List.forall_mem_map]
      exact fun member among => ih (each member among)

theorem sortBy_cut {ρ : Type} [LinearOrder ρ] (rank : String → ρ) (levels : Nat) (json : Json) :
    (json.cut levels).sortBy rank = (json.sortBy rank).cut levels := by
  induction levels generalizing json with
  | zero => simp [cut, sortBy]
  | succ levels ih =>
    cases json with
    | null | bool _ | int _ | float _ | str _ => simp [cut, sortBy]
    | array items =>
      simp only [cut, sortBy, sortItems_eq_map, List.map_map]
      exact congrArg Json.array (List.map_congr_left fun item _ => ih item)
    | object members =>
      simp only [cut, sortBy, sortMembers_eq_map]
      refine congrArg Json.object ?_
      rw [List.map_insertionSort _ (fun left right : String × Json => rank left.1 ≤ rank right.1) _
        _ fun _ _ _ _ => Iff.rfl, List.map_map, List.map_map]
      refine congrArg _ (List.map_congr_left fun member _ => ?_)
      rw [Function.comp_apply, Function.comp_apply, ih]

end Json

end Swarmind.Library
