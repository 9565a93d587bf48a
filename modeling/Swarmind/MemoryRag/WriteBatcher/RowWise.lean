import Mathlib
import Swarmind.MemoryRag.WriteBatcher.Futures

/-!
Owns batched writes against a store whose insert works row by row. The three
lists of a batch are concatenated on their own, so a row keeps its metadata
exactly where it stands as far from the start as its metadata does, and keeps
its text exactly where explicit texts cover the metadata they stand beside.
-/

namespace Swarmind.MemoryRag

open Swarmind.Library

variable {Vectors Row : Type}

/-! ### A row-wise store -/

/-- What a row depends on besides its vector, its metadata and its text. -/
structure RowStore (Row : Type) where
  derive : Metadata → String
  rowId : Row → Metadata → String → String

structure StoredRow (Row : Type) where
  vector : Row
  metadata : Metadata
  text : String

namespace RowStore

def insertRow (store : RowStore Row) (metadata : List Metadata) (texts : List String)
    (index : Nat) (row : Row) : String × StoredRow Row :=
  let own := metadata[index]?.getD Dict.empty
  let text := texts[index]?.getD (store.derive own)
  (store.rowId row own text, ⟨row, own, text⟩)

/-- `insert`; an array without dimensions has no first one to loop over. -/
def insert (store : RowStore Row) (array : NdArray Row) (metadata : List Metadata)
    (texts : Option (List String)) : Except PyException (List (String × StoredRow Row)) :=
  match array with
  | .scalar _ => .error ⟨"IndexError", "tuple index out of range"⟩
  | .vector _ row => .ok [store.insertRow metadata (texts.getD []) 0 row]
  | .matrix _ rows => .ok (rows.mapIdx (store.insertRow metadata (texts.getD [])))

/-- The insert as the store of a batcher, with the identifiers of its rows. -/
def asInsert (store : RowStore Row) : Nat → Insert Row := fun _ _ stacked metadata texts =>
  (store.insert (.matrix stacked.shape stacked.rows) metadata texts).map
    fun inserted => inserted.map Prod.fst

end RowStore

/-- The insert of one request alone. -/
def direct (asarray : Vectors → Except PyException (NdArray Row)) (store : RowStore Row)
    (request : Request Vectors) : Except PyException (List (String × StoredRow Row)) :=
  match asarray request.vectors with
  | .error exception => .error exception
  | .ok array => store.insert array request.metadata request.texts

/-- The insert of a batch, with its rows handed out as `_distribute` does. -/
def batched (asarray : Vectors → Except PyException (NdArray Row)) (store : RowStore Row)
    (batch : List (Request Vectors)) : Except PyException (List (List (String × StoredRow Row))) :=
  if batch.isEmpty then .ok []
  else
    match combine asarray batch with
    | .error exception => .error exception
    | .ok combined =>
      (store.insert (.matrix combined.stacked.shape combined.stacked.rows) combined.metadata
        combined.textsArgument).map fun inserted => distribute inserted 0 combined.counts

/-- Every request gets from the batch what it gets alone. -/
def Faithful (asarray : Vectors → Except PyException (NdArray Row)) (store : RowStore Row)
    (batch : List (Request Vectors)) : Prop :=
  (batched asarray store batch).map (fun parts => parts.map .ok) =
    .ok (batch.map (direct asarray store))

private theorem map_distribute {α β : Type} (f : α → β) (ids : List α) (offset : Nat)
    (counts : List Nat) : distribute (ids.map f) offset counts =
      (distribute ids offset counts).map (List.map f) := by
  induction counts generalizing offset with
  | nil => rfl
  | cons count rest ih =>
    rw [distribute, distribute, ih, List.map_cons, List.map_take, List.map_drop]

/-- A flush resolves its futures with the identifiers that `batched` hands out. -/
theorem flushLocked_rowWise {asarray : Vectors → Except PyException (NdArray Row)}
    {store : RowStore Row} {batcher : WriteBatcher Vectors} {collection : String}
    {parts : List (List (String × StoredRow Row))}
    (inserted : batched asarray store (batcher.bucketRequests collection) = .ok parts) :
    (batcher.flushLocked asarray store.asInsert collection).2.resolutions =
      batcher.resolutions ++ (batcher.bucketFutures collection).zip
        (parts.map fun part => .ok (part.map Prod.fst)) := by
  unfold batched WriteBatcher.bucketRequests at inserted
  unfold WriteBatcher.flushLocked WriteBatcher.bucketFutures
  rw [List.isEmpty_map] at inserted
  dsimp only
  split_ifs at inserted ⊢ with empty
  · cases inserted
    rw [List.isEmpty_iff.mp empty]
    exact (List.append_nil _).symm
  · cases combined : combine asarray ((batcher.bucket collection).map PendingInsert.request) with
    | error exception =>
      rw [combined] at inserted
      cases inserted
    | ok all =>
      rw [combined] at inserted
      cases inserted
      dsimp only [RowStore.asInsert, RowStore.insert, Except.map]
      rw [map_distribute, List.map_map]
      rfl

/-! ### Rows in place -/

section Places

variable (asarray : Vectors → Except PyException (NdArray Row))

/-- Rows of the vectors of some requests. -/
def rowsIn (batch : List (Request Vectors)) : Nat :=
  (batch.map fun request => (rowsOf asarray request).length).sum

/-- Entries of the metadata of some requests. -/
def entriesIn (batch : List (Request Vectors)) : Nat :=
  (batch.map fun request => request.metadata.length).sum

/-- A request of a batch with the requests before it and after it. -/
def Splits (batch before : List (Request Vectors)) (request : Request Vectors)
    (after : List (Request Vectors)) : Prop :=
  batch = before ++ request :: after

/-- The vectors of all requests become arrays of one width with a first dimension. -/
def SameWidth (batch : List (Request Vectors)) : Prop :=
  ∃ shape, ∀ request ∈ batch, ∃ array, asarray request.vectors = .ok array ∧
    (∀ row, array ≠ .scalar row) ∧ array.atleast2d.shape = shape

/-- A row stands where its metadata does, a row without metadata stands past all
metadata, and explicit texts cover the metadata that they stand beside. -/
structure RowAligned (batch before : List (Request Vectors)) (request : Request Vectors)
    (row : Nat) : Prop where
  own : row < request.metadata.length → rowsIn asarray before = entriesIn before
  bare : request.metadata.length ≤ row → entriesIn batch ≤ rowsIn asarray before + row
  texts : hasTexts batch = true →
    (row < request.metadata.length ↔ row < request.rowTexts.length)

structure Aligned (batch : List (Request Vectors)) : Prop where
  arrays : SameWidth asarray batch
  rows : ∀ before request after, Splits batch before request after →
    ∀ row < (rowsOf asarray request).length, RowAligned asarray batch before request row

variable {asarray}

variable {batch : List (Request Vectors)}

private theorem SameWidth.combines (same : SameWidth asarray batch) : Combines asarray batch := by
  obtain ⟨shape, widths⟩ := same
  refine ⟨shape, fun request member => ?_⟩
  obtain ⟨array, converts, _, width⟩ := widths request member
  exact ⟨array, converts, width⟩

/-- What a request gets alone. -/
def ownRows (asarray : Vectors → Except PyException (NdArray Row)) (store : RowStore Row)
    (request : Request Vectors) : List (String × StoredRow Row) :=
  (rowsOf asarray request).mapIdx (store.insertRow request.metadata request.rowTexts)

variable {request : Request Vectors} {store : RowStore Row}

private theorem direct_eq_ok {array : NdArray Row}
    (converts : asarray request.vectors = .ok array) (loops : ∀ row, array ≠ .scalar row) :
    direct asarray store request = .ok (ownRows asarray store request) := by
  rw [direct, converts, ownRows, rowsOf, matrixOf_eq converts]
  cases array with
  | scalar row => exact absurd rfl (loops row)
  | vector size row => rfl
  | matrix shape rows => rfl

private theorem distribute_eq_iff {α β : Type} (inserted : List α) (count : β → Nat)
    (part : β → List α) (batch : List β) (offset : Nat) :
    distribute inserted offset (batch.map count) = batch.map part ↔
      ∀ before request after, batch = before ++ request :: after →
        (inserted.drop (offset + (before.map count).sum)).take (count request) =
          part request := by
  induction batch generalizing offset with
  | nil => simp [distribute]
  | cons first rest ih =>
    rw [List.map_cons, List.map_cons, distribute, List.cons.injEq, ih]
    constructor
    · rintro ⟨head, tail⟩ before request after split
      cases before with
      | nil =>
        rw [List.nil_append, List.cons.injEq] at split
        obtain ⟨rfl, rfl⟩ := split
        exact head
      | cons other more =>
        rw [List.cons_append, List.cons.injEq] at split
        obtain ⟨rfl, split⟩ := split
        rw [List.map_cons, List.sum_cons, ← Nat.add_assoc]
        exact tail more request after split
    · intro each
      refine ⟨each [] first rest rfl, fun before request after split => ?_⟩
      have later := each (first :: before) request after (by rw [split, List.cons_append])
      rwa [List.map_cons, List.sum_cons, ← Nat.add_assoc] at later

private theorem slice_mapIdx {α β γ : Type} (rows : α → List β) (f : Nat → β → γ)
    (before : List α) (request : α) (after : List α) :
    ((((before ++ request :: after).flatMap rows).mapIdx f).drop
        (0 + (before.map fun other => (rows other).length).sum)).take (rows request).length =
      (rows request).mapIdx fun index =>
        f (index + (before.map fun other => (rows other).length).sum) := by
  have size : (before.flatMap rows).length =
      (before.map fun other => (rows other).length).sum := List.length_flatMap
  rw [List.flatMap_append, List.flatMap_cons, List.mapIdx_append, List.mapIdx_append, Nat.zero_add,
    ← size]
  rw [List.drop_left' (by simp), List.take_left' (by simp)]

private theorem Combined.textsArgument_getD (combined : Combined Row) :
    combined.textsArgument.getD [] = combined.texts := by
  unfold textsArgument
  split_ifs with empty
  · rw [List.isEmpty_iff.mp empty]
    rfl
  · rfl

def batchTexts (batch : List (Request Vectors)) : List String :=
  if hasTexts batch then batch.flatMap fun request =>
    (List.range request.metadata.length).map fun index => request.rowTexts[index]?.getD ""
  else []

private theorem batched_eq_ok (combines : Combines asarray batch) :
    batched asarray store batch = .ok (distribute
      ((batch.flatMap (rowsOf asarray)).mapIdx
        (store.insertRow (batch.flatMap Request.metadata) (batchTexts batch)))
      0 (batch.map fun request => (rowsOf asarray request).length)) := by
  unfold batched
  split_ifs with empty
  · rw [List.isEmpty_iff.mp empty]
    rfl
  · obtain ⟨shape, combined⟩ := combine_eq_ok (by simpa using empty) combines
    rw [combined]
    dsimp only [RowStore.insert, Except.map]
    rw [Combined.textsArgument_getD]
    rfl

private theorem faithful_iff_rows (same : SameWidth asarray batch) :
    Faithful asarray store batch ↔
      ∀ before request after, Splits batch before request after →
        ∀ row, (bound : row < (rowsOf asarray request).length) →
          store.insertRow (batch.flatMap Request.metadata) (batchTexts batch)
              (row + rowsIn asarray before) (rowsOf asarray request)[row] =
            store.insertRow request.metadata request.rowTexts row
              (rowsOf asarray request)[row] := by
  have alone : batch.map (direct asarray store) =
      (batch.map (ownRows asarray store)).map .ok := by
    rw [List.map_map]
    apply List.map_congr_left
    intro request member
    obtain ⟨shape, widths⟩ := same
    obtain ⟨array, converts, loops, _⟩ := widths request member
    exact direct_eq_ok converts loops
  have injective : Function.Injective
      (List.map (Except.ok (ε := PyException) (α := List (String × StoredRow Row)))) :=
    List.map_injective_iff.mpr fun _ _ equal => Except.ok.inj equal
  rw [Faithful, batched_eq_ok same.combines, alone]
  show Except.ok _ = Except.ok _ ↔ _
  rw [Except.ok.injEq, injective.eq_iff, distribute_eq_iff]
  constructor
  · intro each before request after split row bound
    have slice := each before request after split
    rw [split, slice_mapIdx, ← split, ownRows, List.mapIdx_eq_mapIdx_iff] at slice
    exact slice row bound
  · intro each before request after split
    rw [split, slice_mapIdx, ← split, ownRows, List.mapIdx_eq_mapIdx_iff]
    exact each before request after split

private theorem insertRow_eq_iff (store : RowStore Row) {metadata own : List Metadata}
    {texts ownTexts : List String} {index row : Nat} (vector : Row) :
    store.insertRow metadata texts index vector = store.insertRow own ownTexts row vector ↔
      metadata[index]?.getD Dict.empty = own[row]?.getD Dict.empty ∧
        texts[index]?.getD (store.derive (metadata[index]?.getD Dict.empty)) =
          ownTexts[row]?.getD (store.derive (own[row]?.getD Dict.empty)) := by
  unfold RowStore.insertRow
  dsimp only
  constructor
  · intro equal
    have stored := (Prod.mk.inj equal).2
    exact ⟨congrArg StoredRow.metadata stored, congrArg StoredRow.text stored⟩
  · rintro ⟨sameMetadata, sameText⟩
    rw [sameMetadata] at sameText ⊢
    rw [sameText]

/-! ### Aligned batches -/

private theorem getElem?_flatMap_split {α β : Type} (part : α → List β) (before : List α)
    (request : α)
    (after : List α) (index : Nat) (bound : index < (part request).length) :
    ((before ++ request :: after).flatMap part)[index +
        (before.map fun other => (part other).length).sum]? = (part request)[index]? := by
  have size : (before.flatMap part).length =
      (before.map fun other => (part other).length).sum := List.length_flatMap
  rw [List.flatMap_append, List.flatMap_cons, ← size, Nat.add_comm index,
    List.getElem?_append_right (Nat.le_add_right _ _), Nat.add_sub_cancel_left,
    List.getElem?_append_left bound]

private theorem getElem?_flatMap_beyond {α β : Type} (part : α → List β) (batch : List α)
    {index : Nat}
    (beyond : (batch.map fun other => (part other).length).sum ≤ index) :
    (batch.flatMap part)[index]? = none := by
  apply List.getElem?_eq_none
  rw [List.length_flatMap]
  exact beyond

variable {after : List (Request Vectors)}

private theorem batchTexts_aligned {batch before : List (Request Vectors)}
    (split : Splits batch before request after) {row : Nat}
    (aligned : RowAligned asarray batch before request row) :
    (batchTexts batch)[row + rowsIn asarray before]? = request.rowTexts[row]? := by
  unfold batchTexts
  split_ifs with texts
  · have lengths (other : Request Vectors) : ((List.range other.metadata.length).map fun index =>
        other.rowTexts[index]?.getD "").length = other.metadata.length := by simp
    by_cases covered : row < request.metadata.length
    · have explicit := (aligned.texts texts).mp covered
      rw [aligned.own covered, entriesIn, split]
      have stands := getElem?_flatMap_split (fun other : Request Vectors =>
        (List.range other.metadata.length).map fun index => other.rowTexts[index]?.getD "")
        before request after row (by rwa [lengths])
      simp only [lengths] at stands
      rw [stands]
      simp [covered, explicit]
    · have bare := aligned.bare (Nat.le_of_not_lt covered)
      have absent : request.rowTexts.length ≤ row :=
        Nat.le_of_not_lt fun explicit => covered ((aligned.texts texts).mpr explicit)
      rw [List.getElem?_eq_none absent]
      apply getElem?_flatMap_beyond
      simp only [lengths]
      exact Nat.le_trans bare (Nat.le_of_eq (Nat.add_comm _ _))
  · have empty : request.rowTexts = [] := by
      have member : request ∈ batch := split ▸ List.mem_append_right _ List.mem_cons_self
      have none := List.any_eq_false.mp (Bool.eq_false_iff.mpr texts) request member
      simpa using none
    rw [empty]
    rfl

private theorem metadata_aligned {batch before : List (Request Vectors)}
    (split : Splits batch before request after) {row : Nat}
    (aligned : RowAligned asarray batch before request row) :
    (batch.flatMap Request.metadata)[row + rowsIn asarray before]? = request.metadata[row]? := by
  by_cases covered : row < request.metadata.length
  · rw [aligned.own covered, split]
    exact getElem?_flatMap_split Request.metadata before request after row covered
  · have bare := aligned.bare (Nat.le_of_not_lt covered)
    rw [List.getElem?_eq_none (Nat.le_of_not_lt covered)]
    apply getElem?_flatMap_beyond
    exact Nat.le_trans bare (Nat.le_of_eq (Nat.add_comm _ _))

private theorem faithful_of_aligned (aligned : Aligned asarray batch)
    (store : RowStore Row) : Faithful asarray store batch := by
  rw [faithful_iff_rows aligned.arrays]
  intro before request after split row bound
  have place := aligned.rows before request after split row bound
  rw [insertRow_eq_iff, metadata_aligned split place, batchTexts_aligned split place]
  exact ⟨rfl, rfl⟩

/-! ### Batches that are not aligned -/

/-- The two requests differ in what their metadata and their texts hold only. -/
structure SameShape (request contents : Request Vectors) : Prop where
  vectors : contents.vectors = request.vectors
  metadata : contents.metadata.length = request.metadata.length
  texts : contents.texts.map List.length = request.texts.map List.length

private theorem SameShape.rowTexts {request contents : Request Vectors}
    (same : SameShape request contents) : contents.rowTexts.length = request.rowTexts.length := by
  have lengths := same.texts
  unfold Request.rowTexts
  cases some₁ : contents.texts <;> cases some₂ : request.texts <;> simp_all

private theorem SameShape.rowsOf {request contents : Request Vectors}
    (same : SameShape request contents) : rowsOf asarray contents = rowsOf asarray request := by
  rw [MemoryRag.rowsOf, MemoryRag.rowsOf, matrixOf, matrixOf, same.vectors]

/-- Metadata that names its entry. -/
def rowLabel (entry : Nat) : Metadata := Dict.ofList [("row", .int entry)]

variable (entry : Nat)

private theorem rowLabel_get? : (rowLabel entry).get? "row" = some (.int entry) := rfl

private theorem rowLabel_injective {first second : Nat} (same : rowLabel first = rowLabel second) :
    first = second := by
  have value := congrArg (fun metadata => metadata.get? "row") same
  rw [rowLabel_get?, rowLabel_get?, Option.some.injEq, PyValue.int.injEq] at value
  exact Int.ofNat.inj value

private theorem rowLabel_ne_empty : rowLabel entry ≠ Dict.empty := by
  intro same
  have value := congrArg (fun metadata => metadata.get? "row") same
  rw [rowLabel_get?] at value
  cases value

/-- A request whose metadata is labelled from an entry on, with one explicit text. -/
def relabelOne (entry : Nat) (request : Request Vectors) : Request Vectors where
  vectors := request.vectors
  metadata := (List.range request.metadata.length).map fun index => rowLabel (entry + index)
  texts := request.texts.map fun texts => texts.map fun _ => "explicit"

def relabel : Nat → List (Request Vectors) → List (Request Vectors)
  | _, [] => []
  | entry, request :: rest =>
    relabelOne entry request :: relabel (entry + request.metadata.length) rest

private theorem sameShape_relabelOne (request : Request Vectors) :
    SameShape request (relabelOne entry request) where
  vectors := rfl
  metadata := by simp [relabelOne]
  texts := by
    unfold relabelOne
    cases request.texts <;> simp

private theorem sameShape_relabel (batch : List (Request Vectors)) :
    List.Forall₂ SameShape batch (relabel entry batch) := by
  induction batch generalizing entry with
  | nil => exact .nil
  | cons request rest ih =>
    exact .cons (sameShape_relabelOne entry request) (ih _)

private theorem relabel_append (before after : List (Request Vectors)) :
    relabel entry (before ++ after) =
      relabel entry before ++ relabel (entry + entriesIn before) after := by
  induction before generalizing entry with
  | nil => rfl
  | cons request rest ih =>
    rw [List.cons_append, relabel, relabel, ih, List.cons_append, entriesIn,
      entriesIn, List.map_cons, List.sum_cons, Nat.add_assoc]

private theorem metadata_relabel (batch : List (Request Vectors)) :
    (relabel entry batch).flatMap Request.metadata =
      (List.range (entriesIn batch)).map fun index => rowLabel (entry + index) := by
  induction batch generalizing entry with
  | nil => rfl
  | cons request rest ih =>
    rw [relabel, List.flatMap_cons, ih, entriesIn, entriesIn, List.map_cons,
      List.sum_cons, List.range_add, List.map_append, List.map_map]
    simp [relabelOne, Function.comp_def, Nat.add_assoc]

private theorem rowsIn_congr {batch contents : List (Request Vectors)}
    (same : List.Forall₂ SameShape batch contents) :
    rowsIn asarray contents = rowsIn asarray batch := by
  induction same with
  | nil => rfl
  | cons head _ ih =>
    unfold rowsIn at ih ⊢
    rw [List.map_cons, List.map_cons, List.sum_cons, List.sum_cons, ih,
      head.rowsOf]

private theorem entriesIn_congr {batch contents : List (Request Vectors)}
    (same : List.Forall₂ SameShape batch contents) : entriesIn contents = entriesIn batch := by
  induction same with
  | nil => rfl
  | cons head _ ih =>
    unfold entriesIn at ih ⊢
    rw [List.map_cons, List.map_cons, List.sum_cons, List.sum_cons, ih,
      head.metadata]

private theorem hasTexts_congr {batch contents : List (Request Vectors)}
    (same : List.Forall₂ SameShape batch contents) : hasTexts contents = hasTexts batch := by
  induction same with
  | nil => rfl
  | cons head _ ih =>
    unfold hasTexts at ih ⊢
    rw [List.any_cons, List.any_cons, ih]
    congr 2
    rw [Bool.eq_iff_iff, List.isEmpty_iff, List.isEmpty_iff, ← List.length_eq_zero_iff,
      head.rowTexts, List.length_eq_zero_iff]

private theorem splits_congr {batch contents before : List (Request Vectors)}
    (same : List.Forall₂ SameShape batch contents) (split : Splits contents before request after) :
    ∃ earlier other later, Splits batch earlier other later ∧ SameShape other request ∧
      List.Forall₂ SameShape earlier before := by
  rw [split] at same
  have first := List.forall₂_take_append batch before (request :: after) same
  have rest := List.forall₂_drop_append batch before (request :: after) same
  cases late : batch.drop before.length with
  | nil =>
    rw [late] at rest
    cases rest
  | cons other later =>
    rw [late] at rest
    cases rest with
    | cons head _ =>
      refine ⟨batch.take before.length, other, later, ?_, head, first⟩
      rw [Splits, ← late, List.take_append_drop]

private theorem sameWidth_of_faithful
    (faithful : Faithful asarray store batch) : SameWidth asarray batch := by
  unfold Faithful at faithful
  cases done : batched asarray store batch with
  | error exception =>
    rw [done] at faithful
    cases faithful
  | ok parts =>
    rw [done] at faithful
    have alone : parts.map .ok = batch.map (direct asarray store) := Except.ok.inj faithful
    have combines : Combines asarray batch := by
      unfold batched at done
      split_ifs at done with empty
      · rw [List.isEmpty_iff.mp empty]
        exact WriteBatcher.combines_nil
      · cases combined : combine asarray batch with
        | error exception =>
          rw [combined] at done
          cases done
        | ok all => exact combines_of_combine combined
    obtain ⟨shape, widths⟩ := combines
    refine ⟨shape, fun request member => ?_⟩
    obtain ⟨array, converts, width⟩ := widths request member
    refine ⟨array, converts, fun row scalar => ?_, width⟩
    have among : direct asarray store request ∈ parts.map Except.ok :=
      alone ▸ List.mem_map.mpr ⟨request, member, rfl⟩
    obtain ⟨part, _, got⟩ := List.mem_map.mp among
    rw [direct, converts, scalar] at got
    cases got

def plainStore : RowStore Row := ⟨fun _ => "derived", fun _ _ _ => "id"⟩

private theorem sameWidth_relabel {entry : Nat}
    (same : SameWidth asarray (relabel entry batch)) : SameWidth asarray batch := by
  obtain ⟨shape, widths⟩ := same
  refine ⟨shape, fun request member => ?_⟩
  obtain ⟨before, after, split⟩ := List.append_of_mem member
  have among : relabelOne (entry + entriesIn before) request ∈ relabel entry batch := by
    rw [split, relabel_append]
    exact List.mem_append_right _ List.mem_cons_self
  obtain ⟨array, converts, loops, width⟩ := widths _ among
  exact ⟨array, converts, loops, width⟩

private theorem place_of_metadata {entries entry place row size : Nat}
    (same : ((List.range entries).map fun index => rowLabel (0 + index))[row + place]?.getD
        Dict.empty =
      ((List.range size).map fun index => rowLabel (entry + index))[row]?.getD Dict.empty) :
    (row < size → place = entry) ∧ (size ≤ row → entries ≤ place + row) := by
  by_cases position : row + place < entries
  · rw [List.getElem?_map, List.getElem?_range position, Option.map_some, Option.getD_some] at same
    by_cases inside : row < size
    · rw [List.getElem?_map, List.getElem?_range inside, Option.map_some, Option.getD_some] at same
      have label := rowLabel_injective same
      exact ⟨fun _ => by omega, fun _ => by omega⟩
    · rw [List.getElem?_eq_none (by simpa using inside)] at same
      exact absurd same (rowLabel_ne_empty _)
  · refine ⟨fun inside => ?_, fun _ => by omega⟩
    rw [List.getElem?_eq_none (by simpa using position), List.getElem?_map,
      List.getElem?_range inside] at same
    exact absurd same.symm (rowLabel_ne_empty _)

private theorem rowTexts_relabelOne (request : Request Vectors) :
    (relabelOne entry request).rowTexts = request.rowTexts.map fun _ => "explicit" := by
  unfold relabelOne Request.rowTexts
  cases request.texts <;> rfl

private theorem aligned_of_faithful_relabel
    (faithful : Faithful asarray plainStore (relabel 0 batch)) : Aligned asarray batch := by
  have same := sameWidth_of_faithful faithful
  refine ⟨sameWidth_relabel same, fun before request after split row bound => ?_⟩
  have contents : Splits (relabel 0 batch) (relabel 0 before)
      (relabelOne (entriesIn before) request)
      (relabel (entriesIn before + request.metadata.length) after) := by
    rw [Splits, split, relabel_append, Nat.zero_add, relabel]
  have boundOne : row < (rowsOf asarray (relabelOne (entriesIn before) request)).length := by
    rwa [(sameShape_relabelOne _ request).rowsOf]
  have stored := (faithful_iff_rows same).mp faithful _ _ _ contents row boundOne
  rw [insertRow_eq_iff, metadata_relabel, rowsIn_congr (sameShape_relabel 0 before),
    rowTexts_relabelOne] at stored
  obtain ⟨sameMetadata, sameText⟩ := stored
  obtain ⟨own, bare⟩ := place_of_metadata sameMetadata
  refine ⟨own, bare, fun texts => ?_⟩
  -- The texts of the labelled batch tell explicit, filled and derived ones apart.
  have lengths (other : Request Vectors) : ((List.range other.metadata.length).map fun index =>
      other.rowTexts[index]?.getD "").length = other.metadata.length := by simp
  have some := (hasTexts_congr (sameShape_relabel 0 batch)).trans texts
  unfold batchTexts at sameText
  simp only [plainStore] at sameText
  rw [if_pos some, List.getElem?_map] at sameText
  constructor
  · intro inside
    have stands := getElem?_flatMap_split (fun other : Request Vectors =>
      (List.range other.metadata.length).map fun index => other.rowTexts[index]?.getD "")
      (relabel 0 before) (relabelOne (entriesIn before) request)
      (relabel (entriesIn before + request.metadata.length) after) row
      (by simpa [relabelOne] using inside)
    have entries : ((relabel 0 before).map fun other => other.metadata.length).sum =
        entriesIn before := entriesIn_congr (sameShape_relabel 0 before)
    simp only [lengths] at stands
    rw [entries] at stands
    rw [own inside, contents, stands, rowTexts_relabelOne] at sameText
    by_contra outside
    simp [relabelOne, inside, outside, List.getElem?_replicate] at sameText
  · intro explicit
    by_contra outside
    have beyond := bare (Nat.le_of_not_lt outside)
    have absent := getElem?_flatMap_beyond (fun other : Request Vectors =>
      (List.range other.metadata.length).map fun index => other.rowTexts[index]?.getD "")
      (relabel 0 batch) (show _ ≤ row + rowsIn asarray before by
        have entries := entriesIn_congr (sameShape_relabel 0 batch)
        unfold entriesIn at entries beyond
        simp only [lengths]
        omega)
    rw [absent, List.getElem?_eq_getElem explicit] at sameText
    have clash : "derived" = "explicit" := sameText
    exact absurd clash (by decide)

private theorem Aligned.congr {batch contents : List (Request Vectors)}
    (same : List.Forall₂ SameShape batch contents) (aligned : Aligned asarray batch) :
    Aligned asarray contents := by
  constructor
  · obtain ⟨shape, widths⟩ := aligned.arrays
    refine ⟨shape, fun request member => ?_⟩
    obtain ⟨before, after, split⟩ := List.append_of_mem member
    obtain ⟨earlier, other, later, place, shapes, _⟩ := splits_congr same split
    have among : other ∈ batch := place ▸ List.mem_append_right _ List.mem_cons_self
    rw [shapes.vectors]
    exact widths other among
  · intro before request after split row bound
    obtain ⟨earlier, other, later, place, shapes, front⟩ := splits_congr same split
    rw [shapes.rowsOf] at bound
    obtain ⟨own, bare, texts⟩ := aligned.rows earlier other later place row bound
    constructor
    · rwa [shapes.metadata, rowsIn_congr front, entriesIn_congr front]
    · rwa [shapes.metadata, rowsIn_congr front, entriesIn_congr same]
    · rwa [shapes.metadata, shapes.rowTexts, hasTexts_congr same]

/-- Batched writes equal individual writes, whatever the requests hold and however
the store derives, exactly where every batch is aligned. -/
theorem faithful_iff_aligned (asarray : Vectors → Except PyException (NdArray Row))
    (groups : List (List (Request Vectors))) :
    (∀ group ∈ groups, ∀ contents, List.Forall₂ SameShape group contents →
        ∀ store : RowStore Row, Faithful asarray store contents) ↔
      ∀ group ∈ groups, Aligned asarray group := by
  refine forall₂_congr fun group _ => ⟨fun faithful => ?_, fun aligned contents same store => ?_⟩
  · exact aligned_of_faithful_relabel (faithful _ (sameShape_relabel 0 group) plainStore)
  · exact faithful_of_aligned (aligned.congr same) store

/-- `_derive_text` on metadata whose `text` is a string that is not blank. -/
def textStore : RowStore (List Int) where
  derive metadata :=
    match metadata.get? "text" with
    | some (.str text) => text
    | _ => ""
  rowId _ _ text := text

/-- A request without texts beside one that has them. -/
def mixedTexts : List (Request (List Int)) :=
  [⟨[1, 0], [Dict.ofList [("text", .str "alpha")]], none⟩,
    ⟨[0, 1], [Dict.ofList [("text", .str "beta")]], some ["gamma"]⟩]

/-- In a batch, the request without texts gets none from its metadata. -/
theorem batching_changes_rows :
    ¬ ∀ (batch : List (Request (List Int))) (store : RowStore (List Int)),
      Faithful WriteBatcher.listArray store batch := by
  intro faithful
  have first := congrArg (fun outcome => outcome.toOption.bind fun parts =>
    parts.head?.bind fun part => part.toOption.map fun rows => rows.map Prod.fst)
    (faithful mixedTexts textStore)
  exact absurd first (by decide)

end Places

end Swarmind.MemoryRag
