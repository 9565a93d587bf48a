import Mathlib.Data.List.Nodup
import Mathlib.Data.List.Perm.Basic

/-!
Owns insertion-ordered dictionaries: an association list whose keys are
distinct by construction. `set` keeps the position of a key that is present
and appends a new one, `erase` drops a key, and `traverse` maps every value
through a partial function.

The laws are stated on `get?` and `keys`; clients never unfold `entries`.
-/

namespace Swarmind.Library

universe u v w

/-- A dictionary that remembers the order of first insertion. -/
structure Dict (κ : Type u) (ν : Type v) where
  entries : List (κ × ν)
  distinct : (entries.map Prod.fst).Nodup

namespace Dict

variable {κ : Type u} {ν : Type v} {μ : Type w}

theorem ext {left right : Dict κ ν} (same : left.entries = right.entries) : left = right := by
  cases left
  cases right
  cases same
  rfl

instance [DecidableEq κ] [DecidableEq ν] : DecidableEq (Dict κ ν) :=
  fun left right => decidable_of_iff (left.entries = right.entries)
    ⟨ext, congrArg Dict.entries⟩

/-! ### Entry lists -/

section Entries

variable [DecidableEq κ]

/-- First value stored under `key`. -/
def find (key : κ) : List (κ × ν) → Option ν
  | [] => none
  | entry :: rest => if entry.1 = key then some entry.2 else find key rest

/-- Overwrite the value under `key` in place, or append a new entry. -/
def assign (key : κ) (value : ν) : List (κ × ν) → List (κ × ν)
  | [] => [(key, value)]
  | entry :: rest =>
    if entry.1 = key then (key, value) :: rest else entry :: assign key value rest

theorem map_fst_assign (key : κ) (value : ν) (entries : List (κ × ν)) :
    (assign key value entries).map Prod.fst =
      if key ∈ entries.map Prod.fst then entries.map Prod.fst
      else entries.map Prod.fst ++ [key] := by
  induction entries with
  | nil => simp [assign]
  | cons entry rest ih =>
    by_cases same : entry.1 = key
    · simp [assign, same]
    · have different : ¬ key = entry.1 := fun equal => same equal.symm
      simp only [assign, if_neg same, List.map_cons, ih, List.mem_cons,
        different, false_or]
      split_ifs <;> rfl

variable {entries : List (κ × ν)}

theorem assign_nodup (distinct : (entries.map Prod.fst).Nodup)
    (key : κ) (value : ν) : ((assign key value entries).map Prod.fst).Nodup := by
  rw [map_fst_assign]
  split_ifs with present
  · exact distinct
  · exact List.nodup_append.mpr ⟨distinct, List.nodup_singleton key, by
      intro other member last lastMember equal
      rw [List.mem_singleton] at lastMember
      exact present (lastMember ▸ equal ▸ member)⟩

theorem find_assign (key other : κ) (value : ν) (entries : List (κ × ν)) :
    find other (assign key value entries) =
      if key = other then some value else find other entries := by
  induction entries with
  | nil => simp [assign, find]
  | cons entry rest ih =>
    by_cases same : entry.1 = key
    · subst same
      by_cases wanted : entry.1 = other <;> simp [assign, find, wanted]
    · simp only [assign, if_neg same, find, ih]
      by_cases wanted : entry.1 = other
      · have different : ¬ key = other := fun equal => same (wanted.trans equal.symm)
        simp [wanted, different]
      · simp [wanted]

theorem find_eq_none_iff (key : κ) (entries : List (κ × ν)) :
    find key entries = none ↔ key ∉ entries.map Prod.fst := by
  induction entries with
  | nil => simp [find]
  | cons entry rest ih =>
    by_cases same : entry.1 = key
    · simp [find, same]
    · have different : ¬ key = entry.1 := fun equal => same equal.symm
      simp only [find, if_neg same, ih, List.map_cons, List.mem_cons,
        different, false_or]

theorem find_eq_some_iff (distinct : (entries.map Prod.fst).Nodup)
    (key : κ) (value : ν) : find key entries = some value ↔ (key, value) ∈ entries := by
  induction entries with
  | nil => simp [find]
  | cons entry rest ih =>
    rw [List.map_cons, List.nodup_cons] at distinct
    by_cases same : entry.1 = key
    · have absent : (key, value) ∉ rest := by
        intro member
        exact distinct.1 (same ▸ List.mem_map.mpr ⟨_, member, rfl⟩)
      simp only [find, if_pos same, Option.some.injEq, List.mem_cons, absent, or_false]
      constructor
      · rintro rfl
        exact Prod.ext same.symm rfl
      · rintro rfl
        rfl
    · have different : ¬ (key, value) = entry := fun equal => same (by rw [← equal])
      simp only [find, if_neg same, ih distinct.2, List.mem_cons, different,
        false_or]

theorem mem_assign_iff (distinct : (entries.map Prod.fst).Nodup)
    (key : κ) (value : ν) (entry : κ × ν) :
    entry ∈ assign key value entries ↔ entry = (key, value) ∨ entry ∈ entries ∧ entry.1 ≠ key := by
  obtain ⟨other, held⟩ := entry
  rw [← find_eq_some_iff (assign_nodup distinct key value), find_assign,
    ← find_eq_some_iff distinct, Prod.mk.injEq]
  by_cases same : key = other
  · subst same
    simp [eq_comm]
  · have different : ¬ other = key := fun equal => same equal.symm
    simp [same, different]

theorem find_map (f : ν → μ) (key : κ) (entries : List (κ × ν)) :
    find key (entries.map fun entry => (entry.1, f entry.2)) = (find key entries).map f := by
  induction entries with
  | nil => rfl
  | cons entry rest ih =>
    by_cases same : entry.1 = key
    · simp [find, same]
    · simpa [find, same] using ih

theorem find_filter_ne (key other : κ) (entries : List (κ × ν)) :
    find other (entries.filter fun entry => entry.1 ≠ key) =
      if key = other then none else find other entries := by
  induction entries with
  | nil => simp [find]
  | cons entry rest ih =>
    by_cases dropped : entry.1 = key
    · rw [List.filter_cons_of_neg (by simpa using dropped), ih]
      by_cases wanted : key = other
      · simp [wanted]
      · simp [find, dropped, wanted]
    · rw [List.filter_cons_of_pos (by simpa using dropped)]
      simp only [find, ih]
      by_cases found : entry.1 = other
      · have different : ¬ key = other := fun equal => dropped (found.trans equal.symm)
        simp [found, different]
      · simp [found]

/-- Map every value through a partial function; one failure fails the whole. -/
def traverseEntries (f : ν → Option μ) : List (κ × ν) → Option (List (κ × μ))
  | [] => some []
  | entry :: rest =>
    (f entry.2).bind fun value =>
      (traverseEntries f rest).map fun later => (entry.1, value) :: later

omit [DecidableEq κ] in
theorem map_fst_traverseEntries {f : ν → Option μ}
    {mapped : List (κ × μ)} (succeeds : traverseEntries f entries = some mapped) :
    mapped.map Prod.fst = entries.map Prod.fst := by
  induction entries generalizing mapped with
  | nil =>
    cases succeeds
    rfl
  | cons entry rest ih =>
    simp only [traverseEntries, Option.bind_eq_some_iff, Option.map_eq_some_iff] at succeeds
    obtain ⟨value, _, later, tail, rfl⟩ := succeeds
    simp [ih tail]

theorem find_traverseEntries {f : ν → Option μ}
    {mapped : List (κ × μ)} (succeeds : traverseEntries f entries = some mapped) (key : κ) :
    find key mapped = (find key entries).bind f := by
  induction entries generalizing mapped with
  | nil =>
    cases succeeds
    rfl
  | cons entry rest ih =>
    simp only [traverseEntries, Option.bind_eq_some_iff, Option.map_eq_some_iff] at succeeds
    obtain ⟨value, head, later, tail, rfl⟩ := succeeds
    by_cases same : entry.1 = key
    · simp [find, same, head]
    · simp [find, same, ih tail]

omit [DecidableEq κ] in
theorem traverseEntries_isSome (f : ν → Option μ) (entries : List (κ × ν)) :
    (traverseEntries f entries).isSome ↔ ∀ entry ∈ entries, (f entry.2).isSome := by
  induction entries with
  | nil => simp [traverseEntries]
  | cons entry rest ih =>
    rw [List.forall_mem_cons, ← ih]
    cases head : f entry.2 <;> cases tail : traverseEntries f rest <;>
      simp [traverseEntries, head, tail]

end Entries

/-! ### Operations -/

/-- The dictionary without entries. -/
def empty : Dict κ ν := ⟨[], List.nodup_nil⟩

instance : Inhabited (Dict κ ν) := ⟨empty⟩

/-- Keys in order of first insertion. -/
def keys (dict : Dict κ ν) : List κ := dict.entries.map Prod.fst

/-- Values in the order of their keys. -/
def values (dict : Dict κ ν) : List ν := dict.entries.map Prod.snd

/-- Number of keys. -/
def size (dict : Dict κ ν) : Nat := dict.entries.length

def mapValues (f : ν → μ) (dict : Dict κ ν) : Dict κ μ where
  entries := dict.entries.map fun entry => (entry.1, f entry.2)
  distinct := by
    rw [List.map_map]
    exact dict.distinct

/-- Map every value through a partial function; one failure fails the whole. -/
def traverse (f : ν → Option μ) (dict : Dict κ ν) : Option (Dict κ μ) :=
  match succeeds : traverseEntries f dict.entries with
  | none => none
  | some mapped => some ⟨mapped, map_fst_traverseEntries succeeds ▸ dict.distinct⟩

section Operations

variable [DecidableEq κ]

/-- The value stored under `key`. -/
def get? (dict : Dict κ ν) (key : κ) : Option ν := find key dict.entries

/-- Membership test on keys. -/
def contains (dict : Dict κ ν) (key : κ) : Bool := (dict.get? key).isSome

/-- Store `value` under `key`. -/
def set (dict : Dict κ ν) (key : κ) (value : ν) : Dict κ ν :=
  ⟨assign key value dict.entries, assign_nodup dict.distinct key value⟩

/-- Drop `key`. -/
def erase (dict : Dict κ ν) (key : κ) : Dict κ ν where
  entries := dict.entries.filter fun entry => entry.1 ≠ key
  distinct := dict.distinct.sublist (List.filter_sublist.map Prod.fst)

/-- Store a list of pairs from left to right; a later pair wins. -/
def ofList (pairs : List (κ × ν)) : Dict κ ν :=
  pairs.foldl (fun dict pair => dict.set pair.1 pair.2) empty

/-- Store every pair of `other`; its values win. -/
def update (dict other : Dict κ ν) : Dict κ ν :=
  other.entries.foldl (fun current pair => current.set pair.1 pair.2) dict

end Operations

/-! ### Laws -/

section Laws

variable [DecidableEq κ]

@[simp] theorem get?_empty (key : κ) : (empty : Dict κ ν).get? key = none := rfl

omit [DecidableEq κ] in
@[simp] theorem keys_empty : (empty : Dict κ ν).keys = [] := rfl

section

variable (dict : Dict κ ν)
include dict

/-- A `set` changes its own key. -/
theorem get?_set (key other : κ) (value : ν) :
    (dict.set key value).get? other = if key = other then some value else dict.get? other :=
  find_assign key other value dict.entries

@[simp] theorem get?_set_self (key : κ) (value : ν) :
    (dict.set key value).get? key = some value := by
  rw [get?_set, if_pos rfl]

theorem get?_set_of_ne {key other : κ} (value : ν) (different : key ≠ other) :
    (dict.set key value).get? other = dict.get? other := by
  rw [get?_set, if_neg different]

theorem get?_eq_none_iff (key : κ) : dict.get? key = none ↔ key ∉ dict.keys :=
  find_eq_none_iff key dict.entries

theorem get?_eq_some_iff (key : κ) (value : ν) :
    dict.get? key = some value ↔ (key, value) ∈ dict.entries :=
  find_eq_some_iff dict.distinct key value

theorem entries_eq_nil_iff : dict.entries = [] ↔ ∀ key, dict.get? key = none := by
  constructor
  · intro none key
    rw [get?_eq_none_iff, keys, none]
    exact List.not_mem_nil
  · intro absent
    apply List.eq_nil_iff_forall_not_mem.mpr
    intro entry member
    have found := (get?_eq_some_iff dict entry.1 entry.2).mpr member
    rw [absent] at found
    cases found

theorem mem_keys_iff (key : κ) :
    key ∈ dict.keys ↔ ∃ value, dict.get? key = some value := by
  rw [← Option.isSome_iff_exists, ← Option.ne_none_iff_isSome, ne_eq, get?_eq_none_iff, not_not]

theorem contains_iff (key : κ) : dict.contains key = true ↔ key ∈ dict.keys := by
  rw [contains, Option.isSome_iff_exists, mem_keys_iff]

end

omit [DecidableEq κ] in
theorem keys_nodup (dict : Dict κ ν) : dict.keys.Nodup := dict.distinct

/-- A key that is set again keeps its place. -/
theorem keys_set (dict : Dict κ ν) (key : κ) (value : ν) :
    (dict.set key value).keys = if key ∈ dict.keys then dict.keys else dict.keys ++ [key] :=
  map_fst_assign key value dict.entries

variable {key : κ}

theorem keys_set_of_mem (dict : Dict κ ν) (value : ν) (present : key ∈ dict.keys) :
    (dict.set key value).keys = dict.keys := by
  rw [keys_set, if_pos present]

@[simp] theorem mem_keys_set (dict : Dict κ ν) (key other : κ) (value : ν) :
    other ∈ (dict.set key value).keys ↔ other = key ∨ other ∈ dict.keys := by
  rw [keys_set]
  split_ifs with present
  · constructor
    · exact Or.inr
    · rintro (rfl | member)
      · exact present
      · exact member
  · rw [List.mem_append, List.mem_singleton, or_comm]

@[simp] theorem get?_mapValues (f : ν → μ) (dict : Dict κ ν) (key : κ) :
    (dict.mapValues f).get? key = (dict.get? key).map f := by
  exact find_map f key dict.entries

omit [DecidableEq κ] in
@[simp] theorem keys_mapValues (f : ν → μ) (dict : Dict κ ν) :
    (dict.mapValues f).keys = dict.keys := by
  simp [keys, mapValues, Function.comp_def]

/-- An `erase` removes its own key. -/
theorem get?_erase (dict : Dict κ ν) (key other : κ) :
    (dict.erase key).get? other = if key = other then none else dict.get? other := by
  exact find_filter_ne key other dict.entries

variable {value : ν}

private theorem mem_of_mem_assign {entries : List (κ × ν)} {entry : κ × ν}
    (member : entry ∈ assign key value entries) : entry = (key, value) ∨ entry ∈ entries := by
  induction entries with
  | nil => exact Or.inl (List.mem_singleton.mp member)
  | cons head rest ih =>
    by_cases same : head.1 = key
    · rw [assign, if_pos same, List.mem_cons] at member
      exact member.imp_right (List.mem_cons_of_mem head)
    · rw [assign, if_neg same, List.mem_cons] at member
      rcases member with rfl | later
      · exact Or.inr (by simp)
      · exact (ih later).imp_right (List.mem_cons_of_mem head)

variable {pairs : List (κ × ν)}

private theorem find_foldl_set (distinct : (pairs.map Prod.fst).Nodup)
    (start : Dict κ ν) (key : κ) :
    (pairs.foldl (fun dict pair => dict.set pair.1 pair.2) start).get? key =
      (find key pairs).or (start.get? key) := by
  induction pairs generalizing start with
  | nil => rfl
  | cons pair rest ih =>
    rw [List.map_cons, List.nodup_cons] at distinct
    rw [List.foldl_cons, ih distinct.2, get?_set, find]
    by_cases same : pair.1 = key
    · have absent : find key rest = none :=
        (find_eq_none_iff key rest).mpr (same ▸ distinct.1)
      rw [if_pos same, if_pos same, absent]
      rfl
    · rw [if_neg same, if_neg same]

/-- An `update` prefers the other table. -/
theorem get?_update (dict other : Dict κ ν) (key : κ) :
    (dict.update other).get? key = (other.get? key).or (dict.get? key) :=
  find_foldl_set other.distinct dict key

theorem mem_of_mem_foldl_set {start : Dict κ ν} {entry : κ × ν}
    (member : entry ∈ (pairs.foldl (fun dict pair => dict.set pair.1 pair.2) start).entries) :
    entry ∈ start.entries ∨ entry ∈ pairs := by
  induction pairs generalizing start with
  | nil => exact Or.inl member
  | cons pair rest ih =>
    rcases ih member with old | later
    · rcases mem_of_mem_assign old with rfl | before
      · exact Or.inr (by simp)
      · exact Or.inl before
    · exact Or.inr (List.mem_cons_of_mem pair later)

theorem mem_of_mem_ofList {entry : κ × ν}
    (member : entry ∈ (ofList pairs).entries) : entry ∈ pairs :=
  (mem_of_mem_foldl_set member).resolve_left (List.not_mem_nil)

private theorem assign_absent {entries : List (κ × ν)} (absent : key ∉ entries.map Prod.fst) :
    assign key value entries = entries ++ [(key, value)] := by
  induction entries with
  | nil => rfl
  | cons head rest ih =>
    rw [List.map_cons, List.mem_cons, not_or] at absent
    rw [assign, if_neg (fun equal => absent.1 equal.symm), ih absent.2]
    rfl

theorem values_set_of_not_mem (dict : Dict κ ν) (value : ν) (absent : key ∉ dict.keys) :
    (dict.set key value).values = dict.values ++ [value] := by
  have stored : (dict.set key value).entries = dict.entries ++ [(key, value)] :=
    assign_absent absent
  rw [values, stored, List.map_append]
  rfl

theorem values_perm_erase (dict : Dict κ ν)
    (found : dict.get? key = some value) : dict.values.Perm (value :: (dict.erase key).values) := by
  have member := (get?_eq_some_iff dict key value).mp found
  obtain ⟨before, after, split⟩ := List.append_of_mem member
  have distinct := dict.distinct
  rw [split, List.map_append, List.map_cons, List.nodup_middle, List.nodup_cons] at distinct
  have absent : ∀ entry ∈ before ++ after, entry.1 ≠ key := by
    intro entry inRest same
    rw [← List.map_append] at distinct
    exact distinct.1 (List.mem_map.mpr ⟨entry, inRest, same⟩)
  have kept : (dict.erase key).entries = before ++ after := by
    change dict.entries.filter (fun entry => entry.1 ≠ key) = before ++ after
    rw [split, List.filter_append, List.filter_cons]
    simp only [ne_eq, not_true_eq_false, decide_false, Bool.false_eq_true, if_false]
    rw [← List.filter_append]
    exact List.filter_eq_self.mpr fun entry inRest => decide_eq_true (absent entry inRest)
  rw [values, values, kept, split, List.map_append, List.map_cons, List.map_append]
  exact List.perm_middle

theorem erase_set (dict : Dict κ ν) (key : κ) (value : ν) :
    (dict.set key value).erase key = dict.erase key := by
  apply ext
  show (assign key value dict.entries).filter _ = dict.entries.filter _
  generalize dict.entries = entries
  induction entries with
  | nil => simp [assign]
  | cons entry rest ih =>
    by_cases same : entry.1 = key
    · simp [assign, same]
    · rw [assign, if_neg same, List.filter_cons, List.filter_cons, ih]

theorem erase_of_not_found (dict : Dict κ ν) (absent : dict.get? key = none) :
    dict.erase key = dict := by
  apply ext
  show dict.entries.filter _ = dict.entries
  apply List.filter_eq_self.mpr
  intro entry member
  apply decide_eq_true
  intro same
  have found : dict.get? entry.1 = some entry.2 := (dict.get?_eq_some_iff _ _).mpr member
  rw [same, absent] at found
  cases found

theorem mem_keys_erase (dict : Dict κ ν) (key other : κ) :
    other ∈ (dict.erase key).keys ↔ key ≠ other ∧ other ∈ dict.keys := by
  rw [mem_keys_iff, mem_keys_iff]
  simp only [get?_erase]
  split_ifs with same
  · simp [same]
  · simp [same]

theorem entries_foldl_set (pairs : List (κ × ν)) (start : Dict κ ν)
    (distinct : ((start.entries ++ pairs).map Prod.fst).Nodup) :
    (pairs.foldl (fun dict pair => dict.set pair.1 pair.2) start).entries =
      start.entries ++ pairs := by
  induction pairs generalizing start with
  | nil => simp
  | cons pair rest ih =>
    have absent : pair.1 ∉ start.entries.map Prod.fst := by
      intro member
      rw [List.map_append, List.map_cons] at distinct
      exact (List.nodup_append.mp distinct).2.2 _ member _ (by simp) rfl
    have stored : (start.set pair.1 pair.2).entries = start.entries ++ [pair] :=
      assign_absent absent
    rw [List.foldl_cons, ih _ (by
      rw [stored, List.append_assoc]
      exact distinct), stored, List.append_assoc]
    rfl

theorem entries_ofList (distinct : (pairs.map Prod.fst).Nodup) :
    (ofList pairs).entries = pairs := by
  have stored := entries_foldl_set pairs empty (by simpa [empty] using distinct)
  simpa [ofList, empty] using stored

theorem get?_ofList_iff (distinct : (pairs.map Prod.fst).Nodup) (key : κ)
    (value : ν) : (ofList pairs).get? key = some value ↔ (key, value) ∈ pairs := by
  rw [get?_eq_some_iff, entries_ofList distinct]

section

variable (dict : Dict κ ν)
include dict

theorem ofList_entries : ofList dict.entries = dict :=
  ext (entries_ofList dict.distinct)

theorem map_fst_filter_entries (test : ν → Bool) :
    (dict.entries.filter fun entry => test entry.2).map Prod.fst =
      dict.keys.filter fun key => (dict.get? key).any test := by
  rw [keys, List.filter_map]
  congr 1
  apply List.filter_congr
  intro entry member
  have found : dict.get? entry.1 = some entry.2 := (dict.get?_eq_some_iff _ _).mpr member
  simp [found]

theorem mem_values_iff (value : ν) :
    value ∈ dict.values ↔ ∃ key, dict.get? key = some value := by
  constructor
  · intro member
    obtain ⟨entry, among, rfl⟩ := List.mem_map.mp member
    exact ⟨entry.1, (get?_eq_some_iff dict entry.1 entry.2).mpr among⟩
  · rintro ⟨key, found⟩
    exact List.mem_map.mpr ⟨(key, value), (get?_eq_some_iff dict key value).mp found, rfl⟩

theorem values_nodup_iff :
    dict.values.Nodup ↔ ∀ first second value, dict.get? first = some value →
      dict.get? second = some value → first = second := by
  have distinct : dict.entries.Nodup := List.Nodup.of_map Prod.fst dict.distinct
  rw [values, List.nodup_map_iff_inj_on distinct]
  simp only [get?_eq_some_iff]
  constructor
  · intro apart first second value left right
    exact (Prod.mk.inj (apart _ left _ right rfl)).1
  · intro apart first left second right same
    have key := apart first.1 second.1 second.2 (same ▸ left) right
    exact Prod.ext key same

theorem values_foldl_erase (name : ν → κ)
    (keyed : ∀ key value, dict.get? key = some value → name value = key) (keys : List κ) :
    (keys.foldl erase dict).values = dict.values.filter fun value => name value ∉ keys := by
  induction keys generalizing dict with
  | nil => simp
  | cons key rest ih =>
    have keyedRest : ∀ other value, (dict.erase key).get? other = some value →
        name value = other := by
      intro other value found
      rw [get?_erase] at found
      split_ifs at found
      exact keyed other value found
    have erased : (dict.erase key).values = dict.values.filter fun value => name value ≠ key := by
      rw [values, values, erase, List.filter_map]
      congr 1
      apply List.filter_congr
      intro entry member
      have named := keyed entry.1 entry.2 ((get?_eq_some_iff dict entry.1 entry.2).mpr member)
      simp [named]
    rw [List.foldl_cons, ih _ keyedRest, erased, List.filter_filter]
    apply List.filter_congr
    intro value _
    simp [Bool.and_comm]

theorem keyed_foldl_erase (name : ν → κ)
    (keyed : ∀ key value, dict.get? key = some value → name value = key) (keys : List κ) (key : κ)
    (value : ν) (found : (keys.foldl erase dict).get? key = some value) : name value = key := by
  induction keys generalizing dict with
  | nil => exact keyed key value found
  | cons dropped rest ih =>
    refine ih (dict.erase dropped) (fun other value' kept => ?_) found
    rw [get?_erase] at kept
    split_ifs at kept
    exact keyed other value' kept

theorem ofList_values (name : ν → κ)
    (keyed : ∀ key value, dict.get? key = some value → name value = key) :
    ofList (dict.values.map fun value => (name value, value)) = dict := by
  have same : (dict.values.map fun value => (name value, value)) = dict.entries := by
    rw [values, List.map_map]
    conv_rhs => rw [← List.map_id dict.entries]
    apply List.map_congr_left
    intro entry member
    have key := keyed entry.1 entry.2 ((get?_eq_some_iff dict entry.1 entry.2).mpr member)
    exact Prod.ext key rfl
  rw [same, ofList_entries]

end

private theorem entries_ext : ∀ {left right : List (κ × ν)},
    (left.map Prod.fst).Nodup → left.map Prod.fst = right.map Prod.fst →
      (∀ key, find key left = find key right) → left = right
  | [], [], _, _, _ => rfl
  | [], _ :: _, _, keys, _ => by cases keys
  | _ :: _, [], _, keys, _ => by cases keys
  | (key, value) :: left, (other, second) :: right, distinct, keys, same => by
    obtain ⟨rfl, rest⟩ := List.cons.inj keys
    rw [List.map_cons, List.nodup_cons] at distinct
    have head := same key
    rw [find, find, if_pos rfl, if_pos rfl] at head
    have tails : left = right := by
      apply entries_ext distinct.2 rest
      intro wanted
      by_cases first : key = wanted
      · have absent : wanted ∉ right.map Prod.fst := rest ▸ first ▸ distinct.1
        rw [(find_eq_none_iff wanted left).mpr (first ▸ distinct.1),
          (find_eq_none_iff wanted right).mpr absent]
      · have later := same wanted
        rwa [find, find, if_neg first, if_neg first] at later
    exact congrArg₂ List.cons (Prod.ext rfl (Option.some.inj head)) tails

/-- A table is its keys in order, and their values. -/
theorem ext_get? {left right : Dict κ ν} (keys : left.keys = right.keys)
    (same : ∀ key, left.get? key = right.get? key) : left = right :=
  ext (entries_ext left.distinct keys same)

theorem exists_around (dict : Dict κ ν) (found : dict.get? key = some value) :
    ∃ before after, dict.entries = before ++ (key, value) :: after ∧
      (∀ entry ∈ before, entry.1 ≠ key ∧ dict.keys.idxOf entry.1 < dict.keys.idxOf key) ∧
      ∀ entry ∈ after, entry.1 ≠ key ∧ dict.keys.idxOf key < dict.keys.idxOf entry.1 := by
  obtain ⟨before, after, split⟩ := List.append_of_mem ((dict.get?_eq_some_iff key value).mp found)
  have keys : dict.keys = before.map Prod.fst ++ key :: after.map Prod.fst := by
    rw [Dict.keys, split, List.map_append, List.map_cons]
  have distinct := keys ▸ dict.keys_nodup
  rw [List.nodup_append, List.nodup_cons] at distinct
  obtain ⟨_, ⟨notLater, _⟩, apart⟩ := distinct
  have notEarlier : key ∉ before.map Prod.fst := fun early =>
    apart key early key List.mem_cons_self rfl
  have place : dict.keys.idxOf key = before.length := by
    rw [keys, List.idxOf_append_of_notMem notEarlier, List.idxOf_cons_self, List.length_map,
      Nat.add_zero]
  refine ⟨before, after, split, fun entry member => ?_, fun entry member => ?_⟩
  · have early : entry.1 ∈ before.map Prod.fst := List.mem_map.mpr ⟨entry, member, rfl⟩
    refine ⟨fun same => notEarlier (same ▸ early), ?_⟩
    have bound := List.idxOf_lt_length_of_mem early
    rw [place, keys, List.idxOf_append_of_mem early]
    rwa [List.length_map] at bound
  · have late : entry.1 ∈ after.map Prod.fst := List.mem_map.mpr ⟨entry, member, rfl⟩
    have different : entry.1 ≠ key := fun same => notLater (same ▸ late)
    have notBefore : entry.1 ∉ before.map Prod.fst := fun early =>
      apart entry.1 early entry.1 (List.mem_cons_of_mem _ late) rfl
    refine ⟨different, ?_⟩
    rw [place, keys, List.idxOf_append_of_notMem notBefore, List.length_map,
      List.idxOf_cons_ne _ different.symm]
    omega

theorem idxOf_keys_set_lt_iff (dict : Dict κ ν) {key other : κ} (value : ν)
    (present : other ∈ dict.keys) :
    (dict.set key value).keys.idxOf key < (dict.set key value).keys.idxOf other ↔
      dict.keys.idxOf key < dict.keys.idxOf other := by
  rw [keys_set]
  split_ifs with stored
  · rfl
  · have bound := List.idxOf_lt_length_of_mem present
    rw [List.idxOf_append_of_notMem stored, List.idxOf_append_of_mem present,
      List.idxOf_eq_length stored]
    omega

omit [DecidableEq κ] in
@[simp] theorem values_mapValues (f : ν → μ) (dict : Dict κ ν) :
    (dict.mapValues f).values = dict.values.map f := by
  simp [values, mapValues]

theorem filterMap_keys (dict : Dict κ ν) : dict.keys.filterMap dict.get? = dict.values := by
  rw [keys, values, List.filterMap_map, ← List.filterMap_eq_map]
  apply List.filterMap_congr
  intro entry member
  exact (get?_eq_some_iff dict entry.1 entry.2).mpr member

/-! ### Dictionaries from pairs -/

/-- Keep the first occurrence of every element. -/
def firsts : List κ → List κ
  | [] => []
  | head :: rest => head :: (firsts rest).filter fun other => other ≠ head

theorem mem_firsts {items : List κ} {item : κ} : item ∈ firsts items ↔ item ∈ items := by
  induction items with
  | nil => rfl
  | cons head rest ih =>
    by_cases same : item = head
    · simp [firsts, same]
    · simp [firsts, same, ih]

theorem keys_foldl_set (pairs : List (κ × ν)) (start : Dict κ ν) :
    (pairs.foldl (fun dict pair => dict.set pair.1 pair.2) start).keys =
      start.keys ++ (firsts (pairs.map Prod.fst)).filter fun key => key ∉ start.keys := by
  induction pairs generalizing start with
  | nil => simp [firsts]
  | cons pair rest ih =>
    rw [List.foldl_cons, ih, keys_set, List.map_cons, firsts]
    by_cases present : pair.1 ∈ start.keys
    · rw [if_pos present, List.filter_cons_of_neg (by simpa using present), List.filter_filter]
      congr 1
      apply List.filter_congr
      intro key _
      by_cases same : key = pair.1
      · simp [same, present]
      · simp [same]
    · rw [if_neg present, List.filter_cons_of_pos (by simpa using present), List.filter_filter,
        List.append_assoc, List.singleton_append]
      congr 2
      apply List.filter_congr
      intro key _
      simp [Bool.and_comm]

theorem keys_ofList (pairs : List (κ × ν)) : (ofList pairs).keys = firsts (pairs.map Prod.fst) := by
  have stored := keys_foldl_set pairs (empty : Dict κ ν)
  simpa [ofList] using stored

theorem get?_foldl_set_tabulate (f : κ → ν) (items : List κ) (start : Dict κ ν) (key : κ) :
    ((items.map fun item => (item, f item)).foldl
        (fun dict pair => dict.set pair.1 pair.2) start).get? key =
      if key ∈ items then some (f key) else start.get? key := by
  induction items generalizing start with
  | nil => simp
  | cons head rest ih =>
    rw [List.map_cons, List.foldl_cons, ih, get?_set]
    by_cases later : key ∈ rest
    · simp [later]
    · by_cases same : head = key
      · simp [same]
      · have different : ¬ key = head := fun equal => same equal.symm
        simp [later, same, different]

theorem get?_ofList_tabulate (f : κ → ν) (items : List κ) (key : κ) :
    (ofList (items.map fun item => (item, f item))).get? key =
      if key ∈ items then some (f key) else none :=
  get?_foldl_set_tabulate f items empty key

/-! ### Traversals -/

variable {f : ν → Option μ} {mapped : Dict κ μ} {dict : Dict κ ν}

omit [DecidableEq κ] in
private theorem traverse_entries (succeeds : dict.traverse f = some mapped) :
    traverseEntries f dict.entries = some mapped.entries := by
  unfold traverse at succeeds
  split at succeeds
  · cases succeeds
  · rename_i found
    cases succeeds
    exact found

omit [DecidableEq κ] in
theorem keys_traverse (succeeds : dict.traverse f = some mapped) : mapped.keys = dict.keys :=
  map_fst_traverseEntries (traverse_entries succeeds)

theorem get?_traverse (succeeds : dict.traverse f = some mapped) (key : κ) :
    mapped.get? key = (dict.get? key).bind f :=
  find_traverseEntries (traverse_entries succeeds) key

omit [DecidableEq κ] in
private theorem traverse_isSome_entries (f : ν → Option μ) (dict : Dict κ ν) :
    (dict.traverse f).isSome ↔ ∀ entry ∈ dict.entries, (f entry.2).isSome := by
  rw [← traverseEntries_isSome]
  unfold traverse
  split <;> simp_all

theorem traverse_isSome (f : ν → Option μ) (dict : Dict κ ν) :
    (dict.traverse f).isSome ↔
      ∀ key value, dict.get? key = some value → (f value).isSome := by
  rw [traverse_isSome_entries]
  constructor
  · intro accepts key value found
    exact accepts (key, value) ((dict.get?_eq_some_iff key value).mp found)
  · intro accepts entry member
    exact accepts entry.1 entry.2 ((dict.get?_eq_some_iff entry.1 entry.2).mpr member)

theorem traverse_value (succeeds : dict.traverse f = some mapped)
    (found : dict.get? key = some value) :
    ∃ image, f value = some image ∧ mapped.get? key = some image := by
  have accepted : (f value).isSome :=
    (traverse_isSome f dict).mp (by rw [succeeds]; rfl) key value found
  obtain ⟨image, equal⟩ := Option.isSome_iff_exists.mp accepted
  exact ⟨image, equal, by rw [get?_traverse succeeds, found, Option.bind_some, equal]⟩

end Laws

end Dict

end Swarmind.Library
