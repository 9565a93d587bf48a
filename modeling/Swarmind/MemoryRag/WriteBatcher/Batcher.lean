import Swarmind.Library.Json
import Swarmind.Library.Python
import Swarmind.Library.Runs

/-!
Owns the write batcher: requests wait in a bucket for each collection, a flush
pops a bucket, combines its requests into one insert and hands the ids out. The
store and numpy's conversion of vectors are parameters; every step here runs
under the lock, and time enters only as a forced flush.
-/

namespace Swarmind.MemoryRag

open Swarmind.Library

/-! ### Arrays -/

/-- An array of numpy with no dimension, with one, or with more; `shape` holds
the dimensions after the first. -/
inductive NdArray (Row : Type) where
  | scalar (row : Row)
  | vector (size : Nat) (row : Row)
  | matrix (shape : List Nat) (rows : List Row)

/-- An array of at least two dimensions. -/
structure RowMatrix (Row : Type) where
  shape : List Nat
  rows : List Row

variable {Vectors Row : Type}

def NdArray.atleast2d : NdArray Row → RowMatrix Row
  | .scalar row => ⟨[1], [row]⟩
  | .vector size row => ⟨[size], [row]⟩
  | .matrix shape rows => ⟨shape, rows⟩

/-- The start of numpy's message. -/
def dimensionMismatch : PyException := .valueError
  "all the input array dimensions except for the concatenation axis must match exactly"

/-- `np.vstack` on arrays of at least two dimensions. -/
def vstack : List (RowMatrix Row) → Except PyException (RowMatrix Row)
  | [] => .error (.valueError "need at least one array to concatenate")
  | first :: rest =>
    if ∀ matrix ∈ rest, matrix.shape = first.shape then
      .ok ⟨first.shape, (first :: rest).flatMap RowMatrix.rows⟩
    else .error dimensionMismatch

/-! ### Requests -/

abbrev Metadata := Dict String PyValue

structure Request (Vectors : Type) where
  vectors : Vectors
  metadata : List Metadata
  texts : Option (List String)

namespace Request

def rowTexts (request : Request Vectors) : List String := request.texts.getD []

end Request

/-- `any(item["texts"] for item in batch)`. -/
def hasTexts (batch : List (Request Vectors)) : Bool :=
  batch.any fun request => !request.rowTexts.isEmpty

/-- The matrices of a batch; `asarray` is numpy's conversion to `float32`. -/
def matrices (asarray : Vectors → Except PyException (NdArray Row)) :
    List (Request Vectors) → Except PyException (List (RowMatrix Row))
  | [] => .ok []
  | request :: rest =>
    match asarray request.vectors with
    | .error exception => .error exception
    | .ok array => (matrices asarray rest).map (array.atleast2d :: ·)

structure Combined (Row : Type) where
  stacked : RowMatrix Row
  counts : List Nat
  metadata : List Metadata
  texts : List String

def combine (asarray : Vectors → Except PyException (NdArray Row))
    (batch : List (Request Vectors)) : Except PyException (Combined Row) :=
  match matrices asarray batch with
  | .error exception => .error exception
  | .ok converted => (vstack converted).map fun stacked =>
    { stacked := stacked
      counts := converted.map fun matrix => matrix.rows.length
      metadata := batch.flatMap Request.metadata
      texts :=
        if hasTexts batch then batch.flatMap fun request =>
          (List.range request.metadata.length).map fun index =>
            request.rowTexts[index]?.getD ""
        else [] }

/-- The `texts` argument of the insert: absent where the list is empty. -/
def Combined.textsArgument (combined : Combined Row) : Option (List String) :=
  if combined.texts.isEmpty then none else some combined.texts

/-- The loop of `_distribute`: the slice of each request, from an offset on. -/
def distribute {α : Type} (ids : List α) : Nat → List Nat → List (List α)
  | _, [] => []
  | offset, count :: rest => (ids.drop offset).take count :: distribute ids (offset + count) rest

/-! ### The batcher -/

abbrev Insert (Row : Type) :=
  String → RowMatrix Row → List Metadata → Option (List String) → Except PyException (List String)

/-- A request that waits, with its future. -/
structure PendingInsert (Vectors : Type) where
  request : Request Vectors
  future : Nat

/-- Futures are numbered as `submit` creates them; `resolutions` logs every
`set_result` and `set_exception`, and `inserts` counts the calls of the store. -/
structure WriteBatcher (Vectors : Type) where
  maxBatch : Nat
  pending : Dict String (List (PendingInsert Vectors))
  futures : Nat
  resolutions : List (Nat × Except PyException (List String))
  inserts : Nat

/-- One step under the lock. `waitOrFlush` is its forced flush. -/
inductive BatchCall (Vectors : Type) where
  | add (collection : String) (request : Request Vectors)
  | waitOrFlush (collection : String)
  | flush

namespace WriteBatcher

def create (maxBatch : Nat) : WriteBatcher Vectors := ⟨maxBatch, Dict.empty, 0, [], 0⟩

/-- `_pending.pop(collection, [])`. -/
def bucket (batcher : WriteBatcher Vectors) (collection : String) : List (PendingInsert Vectors) :=
  (batcher.pending.get? collection).getD []

/-- The bucket is popped before `_combine`, and only the insert is guarded. -/
def flushLocked (asarray : Vectors → Except PyException (NdArray Row)) (store : Nat → Insert Row)
    (batcher : WriteBatcher Vectors) (collection : String) :
    Except PyException Nat × WriteBatcher Vectors :=
  let batch := batcher.bucket collection
  let popped := { batcher with pending := batcher.pending.erase collection }
  if batch.isEmpty then (.ok 0, popped)
  else
    match combine asarray (batch.map PendingInsert.request) with
    | .error exception => (.error exception, popped)
    | .ok combined =>
      let called := { popped with inserts := popped.inserts + 1 }
      match store popped.inserts collection combined.stacked combined.metadata
          combined.textsArgument with
      | .error exception => (.ok 0, { called with
          resolutions := called.resolutions ++
            batch.map fun item => (item.future, .error exception) })
      | .ok ids => (.ok batch.length, { called with
          resolutions := called.resolutions ++
            (batch.map PendingInsert.future).zip ((distribute ids 0 combined.counts).map .ok) })

/-- `_add`; what the flush answers is dropped, what it raises is not. -/
def add (asarray : Vectors → Except PyException (NdArray Row)) (store : Nat → Insert Row)
    (batcher : WriteBatcher Vectors) (collection : String) (request : Request Vectors) :
    Except PyException Nat × WriteBatcher Vectors :=
  let queued := batcher.bucket collection ++ [⟨request, batcher.futures⟩]
  let appended := { batcher with
    pending := batcher.pending.set collection queued
    futures := batcher.futures + 1 }
  if batcher.maxBatch ≤ queued.length then appended.flushLocked asarray store collection
  else (.ok 0, appended)

/-- The sum of `flush`; the first bucket that raises ends it. -/
def flushEach (asarray : Vectors → Except PyException (NdArray Row)) (store : Nat → Insert Row) :
    List String → WriteBatcher Vectors → Except PyException Nat × WriteBatcher Vectors
  | [], batcher => (.ok 0, batcher)
  | collection :: rest, batcher =>
    match batcher.flushLocked asarray store collection with
    | (.error exception, flushed) => (.error exception, flushed)
    | (.ok count, flushed) =>
      let others := flushEach asarray store rest flushed
      (others.1.map (count + ·), others.2)

def flush (asarray : Vectors → Except PyException (NdArray Row)) (store : Nat → Insert Row)
    (batcher : WriteBatcher Vectors) : Except PyException Nat × WriteBatcher Vectors :=
  flushEach asarray store batcher.pending.keys batcher

def machine (asarray : Vectors → Except PyException (NdArray Row)) (store : Nat → Insert Row) :
    Machine (WriteBatcher Vectors) (BatchCall Vectors) (Except PyException Nat) where
  step batcher call :=
    match call with
    | .add collection request => batcher.add asarray store collection request
    | .waitOrFlush collection => batcher.flushLocked asarray store collection
    | .flush => batcher.flush asarray store

end WriteBatcher

/-! ### Combining -/

section Combining

variable (asarray : Vectors → Except PyException (NdArray Row))

/-- The vectors of all requests become arrays of one width. -/
def Combines (batch : List (Request Vectors)) : Prop :=
  ∃ shape, ∀ request ∈ batch, ∃ array, asarray request.vectors = .ok array ∧
    array.atleast2d.shape = shape

/-- The matrix of a request whose vectors convert. -/
def matrixOf (request : Request Vectors) : RowMatrix Row :=
  match asarray request.vectors with
  | .ok array => array.atleast2d
  | .error _ => ⟨[], []⟩

def rowsOf (request : Request Vectors) : List Row := (matrixOf asarray request).rows

variable {asarray}

theorem matrixOf_eq {request : Request Vectors} {array : NdArray Row}
    (converts : asarray request.vectors = .ok array) :
    matrixOf asarray request = array.atleast2d := by
  rw [matrixOf, converts]

variable {batch : List (Request Vectors)}

private theorem matrices_eq_ok
    (converts : ∀ request ∈ batch, ∃ array, asarray request.vectors = .ok array) :
    matrices asarray batch = .ok (batch.map (matrixOf asarray)) := by
  induction batch with
  | nil => rfl
  | cons request rest ih =>
    obtain ⟨⟨array, first⟩, others⟩ := List.forall_mem_cons.mp converts
    rw [matrices, first, ih others, List.map_cons, matrixOf_eq first]
    rfl

private theorem converts_of_matrices {converted : List (RowMatrix Row)}
    (done : matrices asarray batch = .ok converted) :
    ∀ request ∈ batch, ∃ array, asarray request.vectors = .ok array := by
  induction batch generalizing converted with
  | nil => exact fun request member => absurd member List.not_mem_nil
  | cons request rest ih =>
    rw [matrices] at done
    cases first : asarray request.vectors with
    | error exception =>
      rw [first] at done
      cases done
    | ok array =>
      cases later : matrices asarray rest with
      | error exception =>
        rw [first, later] at done
        cases done
      | ok others =>
        exact List.forall_mem_cons.mpr ⟨⟨array, first⟩, ih later⟩

/-- Requests that combine are stacked in their order. -/
theorem combine_eq_ok (nonempty : batch ≠ []) (combines : Combines asarray batch) :
    ∃ shape, combine asarray batch = .ok
      { stacked := ⟨shape, batch.flatMap (rowsOf asarray)⟩
        counts := batch.map fun request => (rowsOf asarray request).length
        metadata := batch.flatMap Request.metadata
        texts :=
          if hasTexts batch then batch.flatMap fun request =>
            (List.range request.metadata.length).map fun index =>
              request.rowTexts[index]?.getD ""
          else [] } := by
  obtain ⟨shape, widths⟩ := combines
  have converts : ∀ request ∈ batch, ∃ array, asarray request.vectors = .ok array :=
    fun request member => (widths request member).imp fun _ both => both.1
  have shapes : ∀ request ∈ batch, (matrixOf asarray request).shape = shape := by
    intro request member
    obtain ⟨array, first, width⟩ := widths request member
    rw [matrixOf_eq first, width]
  refine ⟨shape, ?_⟩
  cases batch with
  | nil => exact absurd rfl nonempty
  | cons request rest =>
    obtain ⟨head, tail⟩ := List.forall_mem_cons.mp shapes
    have equal : ∀ matrix ∈ rest.map (matrixOf asarray),
        matrix.shape = (matrixOf asarray request).shape := by
      intro matrix member
      obtain ⟨other, among, rfl⟩ := List.mem_map.mp member
      rw [head, tail other among]
    rw [combine, matrices_eq_ok converts, List.map_cons]
    dsimp only
    rw [vstack, if_pos equal, head, ← List.map_cons, List.flatMap_map, List.map_map]
    rfl

theorem combines_of_combine {combined : Combined Row}
    (done : combine asarray batch = .ok combined) : Combines asarray batch := by
  rw [combine] at done
  cases converted : matrices asarray batch with
  | error exception =>
    rw [converted] at done
    cases done
  | ok all =>
    have converts := converts_of_matrices converted
    rw [matrices_eq_ok converts] at converted
    cases converted
    rw [matrices_eq_ok converts] at done
    cases batch with
    | nil => cases done
    | cons request rest =>
      rw [List.map_cons] at done
      dsimp only at done
      rw [vstack] at done
      by_cases equal : ∀ matrix ∈ rest.map (matrixOf asarray),
          matrix.shape = (matrixOf asarray request).shape
      · refine ⟨(matrixOf asarray request).shape, List.forall_mem_cons.mpr ⟨?_, ?_⟩⟩
        · obtain ⟨array, first⟩ := converts request List.mem_cons_self
          exact ⟨array, first, by rw [matrixOf_eq first]⟩
        · intro other member
          obtain ⟨array, later⟩ := converts other (List.mem_cons_of_mem _ member)
          refine ⟨array, later, ?_⟩
          rw [← matrixOf_eq later]
          exact equal _ (List.mem_map.mpr ⟨other, member, rfl⟩)
      · rw [if_neg equal] at done
        cases done

/-- Every request gets a part of the ids. -/
theorem distribute_length {α : Type} (ids : List α) (offset : Nat) (counts : List Nat) :
    (distribute ids offset counts).length = counts.length := by
  induction counts generalizing offset with
  | nil => rfl
  | cons count rest ih =>
    rw [distribute, List.length_cons, ih, List.length_cons]

end Combining

end Swarmind.MemoryRag
