import Swarmind.MemoryRag.WriteBatcher.Batcher

/-!
Owns the futures of the write batcher. A flush pops its bucket before it
combines it, and what `_combine` raises reaches no future: the popped futures
stay open exactly where the vectors of the bucket do not combine. No future is
ever resolved twice.
-/

namespace Swarmind.MemoryRag.WriteBatcher

open Swarmind.Library

variable {Vectors Row : Type}

/-! ### Waiting and resolved futures -/

def waiting (batcher : WriteBatcher Vectors) : List Nat :=
  batcher.pending.values.flatten.map PendingInsert.future

/-- Futures in the order of their resolutions. -/
def resolved (batcher : WriteBatcher Vectors) : List Nat := batcher.resolutions.map Prod.fst

def bucketFutures (batcher : WriteBatcher Vectors) (collection : String) : List Nat :=
  (batcher.bucket collection).map PendingInsert.future

def bucketRequests (batcher : WriteBatcher Vectors) (collection : String) :
    List (Request Vectors) :=
  (batcher.bucket collection).map PendingInsert.request

/-- No future is in two places, and every one was created. -/
structure Books (batcher : WriteBatcher Vectors) : Prop where
  apart : (batcher.resolved ++ batcher.waiting).Nodup
  created : ∀ future ∈ batcher.resolved ++ batcher.waiting, future < batcher.futures

/-- Every future is resolved or still in a bucket. -/
def Accounted (batcher : WriteBatcher Vectors) : Prop :=
  ∀ future < batcher.futures, future ∈ batcher.resolved ∨ future ∈ batcher.waiting

private theorem waiting_perm (batcher : WriteBatcher Vectors) (collection : String) :
    batcher.waiting.Perm (batcher.bucketFutures collection ++
      waiting { batcher with pending := batcher.pending.erase collection }) := by
  unfold waiting bucketFutures bucket
  rw [← List.map_append]
  apply List.Perm.map
  cases found : batcher.pending.get? collection with
  | none => rw [batcher.pending.erase_of_not_found found, Option.getD_none, List.nil_append]
  | some items => exact (batcher.pending.values_perm_erase found).flatten

/-! ### One flush -/

section Flush

variable {asarray : Vectors → Except PyException (NdArray Row)} {store : Nat → Insert Row}

/-- What a flush of one bucket leaves. -/
structure FlushSpec (asarray : Vectors → Except PyException (NdArray Row))
    (batcher : WriteBatcher Vectors) (collection : String)
    (result : Except PyException Nat × WriteBatcher Vectors) : Prop where
  pending : result.2.pending = batcher.pending.erase collection
  futures : result.2.futures = batcher.futures
  succeeds : Combines asarray (batcher.bucketRequests collection) →
    (∃ count, result.1 = .ok count) ∧
      result.2.resolved = batcher.resolved ++ batcher.bucketFutures collection
  fails : ¬ Combines asarray (batcher.bucketRequests collection) →
    (∃ exception, result.1 = .error exception) ∧ result.2.resolved = batcher.resolved

theorem combines_nil : Combines asarray [] :=
  ⟨[], fun _ member => absurd member List.not_mem_nil⟩

private theorem flushLocked_spec (batcher : WriteBatcher Vectors) (collection : String) :
    FlushSpec asarray batcher collection (batcher.flushLocked asarray store collection) := by
  unfold flushLocked
  dsimp only
  split_ifs with empty
  · rw [List.isEmpty_iff] at empty
    refine ⟨rfl, rfl, fun _ => ⟨⟨0, rfl⟩, ?_⟩, fun fails => absurd ?_ fails⟩
    · simp [resolved, bucketFutures, empty]
    · rw [bucketRequests, empty]
      exact combines_nil
  · have nonempty : (batcher.bucket collection).map PendingInsert.request ≠ [] := by
      simpa using empty
    by_cases combines : Combines asarray (batcher.bucketRequests collection)
    · obtain ⟨shape, combined⟩ := combine_eq_ok nonempty combines
      rw [combined]
      dsimp only
      cases store batcher.inserts collection _ _ _ with
      | error exception =>
        refine ⟨rfl, rfl, fun _ => ⟨⟨0, rfl⟩, ?_⟩, fun fails => absurd combines fails⟩
        simp [resolved, bucketFutures, Function.comp_def]
      | ok ids =>
        refine ⟨rfl, rfl, fun _ => ⟨⟨_, rfl⟩, ?_⟩, fun fails => absurd combines fails⟩
        rw [resolved, List.map_append, List.map_fst_zip]
        · rfl
        · simp [distribute_length]
    · cases combined : combine asarray ((batcher.bucket collection).map PendingInsert.request) with
      | ok all => exact absurd (combines_of_combine combined) combines
      | error exception =>
        exact ⟨rfl, rfl, fun holds => absurd holds combines, fun _ => ⟨⟨exception, rfl⟩, rfl⟩⟩

variable {batcher : WriteBatcher Vectors} {result : Except PyException Nat × WriteBatcher Vectors}
variable {collection : String}

section

variable (spec : FlushSpec asarray batcher collection result)
include spec

private theorem FlushSpec.waiting_perm :
    batcher.waiting.Perm (batcher.bucketFutures collection ++ result.2.waiting) := by
  have split := batcher.waiting_perm collection
  have same : waiting { batcher with pending := batcher.pending.erase collection } =
      result.2.waiting := by
    rw [waiting, waiting, spec.pending]
  rwa [same] at split

private theorem FlushSpec.moves (combines : Combines asarray (batcher.bucketRequests collection)) :
    (result.2.resolved ++ result.2.waiting).Perm (batcher.resolved ++ batcher.waiting) := by
  rw [(spec.succeeds combines).2, List.append_assoc]
  exact (spec.waiting_perm.symm).append_left _

private theorem FlushSpec.books (books : batcher.Books) : result.2.Books := by
  by_cases combines : Combines asarray (batcher.bucketRequests collection)
  · have moves := spec.moves combines
    constructor
    · exact moves.nodup_iff.mpr books.apart
    · intro future member
      rw [spec.futures]
      exact books.created future (moves.mem_iff.mp member)
  · have kept := (spec.fails combines).2
    have fewer : (result.2.resolved ++ result.2.waiting).Sublist
        (batcher.resolved ++ (batcher.bucketFutures collection ++ result.2.waiting)) := by
      rw [kept]
      exact (List.sublist_append_right _ _).append_left _
    have whole : (batcher.resolved ++ batcher.waiting).Perm
        (batcher.resolved ++ (batcher.bucketFutures collection ++ result.2.waiting)) :=
      spec.waiting_perm.append_left _
    constructor
    · exact (whole.nodup_iff.mp books.apart).sublist fewer
    · intro future member
      rw [spec.futures]
      exact books.created future (whole.mem_iff.mpr (fewer.subset member))

private theorem FlushSpec.accounted_iff (books : batcher.Books) (accounted : batcher.Accounted) :
    result.2.Accounted ↔ Combines asarray (batcher.bucketRequests collection) := by
  constructor
  · intro kept
    by_contra fails
    have apart := books.apart
    rw [List.nodup_append] at apart
    have split := spec.waiting_perm
    have waits := split.nodup_iff.mp apart.2.1
    rw [List.nodup_append] at waits
    cases popped : batcher.bucket collection with
    | nil =>
      apply fails
      rw [bucketRequests, popped]
      exact combines_nil
    | cons item rest =>
      have among : item.future ∈ batcher.bucketFutures collection := by
        rw [bucketFutures, popped]
        exact List.mem_cons_self
      have waited : item.future ∈ batcher.waiting :=
        split.mem_iff.mpr (List.mem_append_left _ among)
      have created := books.created item.future (List.mem_append_right _ waited)
      rw [← spec.futures] at created
      rcases kept item.future created with done | waits_on
      · rw [(spec.fails fails).2] at done
        exact apart.2.2 _ done _ waited rfl
      · exact waits.2.2 _ among _ waits_on rfl
  · intro combines future created
    rw [spec.futures] at created
    have somewhere := List.mem_append.mpr (accounted future created)
    exact List.mem_append.mp ((spec.moves combines).mem_iff.mpr somewhere)

end

/-! ### All steps -/

def FlushesCombine (asarray : Vectors → Except PyException (NdArray Row))
    (batcher : WriteBatcher Vectors) : BatchCall Vectors → Prop
  | .add collection request => batcher.maxBatch ≤ (batcher.bucket collection).length + 1 →
      Combines asarray (batcher.bucketRequests collection ++ [request])
  | .waitOrFlush collection => Combines asarray (batcher.bucketRequests collection)
  | .flush => ∀ collection ∈ batcher.pending.keys,
      Combines asarray (batcher.bucketRequests collection)

private theorem bucket_erase (batcher : WriteBatcher Vectors) {collection other : String}
    (different : collection ≠ other) {flushed : WriteBatcher Vectors}
    (pending : flushed.pending = batcher.pending.erase collection) :
    flushed.bucketRequests other = batcher.bucketRequests other := by
  rw [bucketRequests, bucketRequests, bucket, bucket, pending, Dict.get?_erase, if_neg different]

private theorem flushEach_cons_ok {rest : List String} {count : Nat}
    (succeeded : (batcher.flushLocked asarray store collection).1 = .ok count) :
    batcher.flushEach asarray store (collection :: rest) =
      (((batcher.flushLocked asarray store collection).2.flushEach asarray store rest).1.map
          (count + ·),
        ((batcher.flushLocked asarray store collection).2.flushEach asarray store rest).2) := by
  rw [flushEach]
  split
  next failed flushed =>
    rw [flushed] at succeeded
    cases succeeded
  next other flushed done =>
    rw [done] at succeeded
    cases succeeded
    rw [done]

private theorem flushEach_cons_error {rest : List String} {exception : PyException}
    (failed : (batcher.flushLocked asarray store collection).1 = .error exception) :
    batcher.flushEach asarray store (collection :: rest) =
      (.error exception, (batcher.flushLocked asarray store collection).2) := by
  rw [flushEach]
  split
  next other flushed done =>
    rw [done] at failed
    cases failed
    rw [done]
  next other flushed done =>
    rw [done] at failed
    cases failed

private theorem books_flushEach (collections : List String)
    (books : batcher.Books) : (batcher.flushEach asarray store collections).2.Books := by
  induction collections generalizing batcher with
  | nil => exact books
  | cons collection rest ih =>
    have spec : FlushSpec asarray batcher collection
        (batcher.flushLocked asarray store collection) := batcher.flushLocked_spec collection
    have next := spec.books books
    by_cases combines : Combines asarray (batcher.bucketRequests collection)
    · obtain ⟨⟨count, succeeded⟩, _⟩ := spec.succeeds combines
      rw [flushEach_cons_ok succeeded]
      exact ih next
    · obtain ⟨⟨exception, failed⟩, _⟩ := spec.fails combines
      rw [flushEach_cons_error failed]
      exact next

private theorem flushEach_spec {collections : List String} (distinct : collections.Nodup)
    (books : batcher.Books) (accounted : batcher.Accounted) :
    ((batcher.flushEach asarray store collections).2.Accounted ↔
        ∀ collection ∈ collections, Combines asarray (batcher.bucketRequests collection)) ∧
      ((∀ collection ∈ collections, Combines asarray (batcher.bucketRequests collection)) →
        ∃ count, (batcher.flushEach asarray store collections).1 = .ok count) := by
  induction collections generalizing batcher with
  | nil =>
    exact ⟨iff_of_true accounted fun _ member => absurd member List.not_mem_nil,
      fun _ => ⟨0, rfl⟩⟩
  | cons collection rest ih =>
    obtain ⟨absent, distinctRest⟩ := List.nodup_cons.mp distinct
    have spec : FlushSpec asarray batcher collection
        (batcher.flushLocked asarray store collection) := batcher.flushLocked_spec collection
    have exactly := spec.accounted_iff books accounted
    rw [List.forall_mem_cons]
    by_cases combines : Combines asarray (batcher.bucketRequests collection)
    · obtain ⟨⟨count, succeeded⟩, _⟩ := spec.succeeds combines
      have unchanged : ∀ other ∈ rest,
          (batcher.flushLocked asarray store collection).2.bucketRequests other =
            batcher.bucketRequests other := by
        intro other member
        have different : collection ≠ other := fun same => absent (same ▸ member)
        exact batcher.bucket_erase different spec.pending
      obtain ⟨accountedRest, succeedsRest⟩ :=
        ih distinctRest (spec.books books) (exactly.mpr combines)
      have later : (∀ other ∈ rest, Combines asarray
            ((batcher.flushLocked asarray store collection).2.bucketRequests other)) ↔
          ∀ other ∈ rest, Combines asarray (batcher.bucketRequests other) :=
        forall₂_congr fun other member => by rw [unchanged other member]
      rw [flushEach_cons_ok succeeded]
      refine ⟨accountedRest.trans (later.trans (and_iff_right combines).symm), ?_⟩
      rintro ⟨_, others⟩
      obtain ⟨more, done⟩ := succeedsRest (later.mpr others)
      exact ⟨count + more, by rw [done]; rfl⟩
    · obtain ⟨⟨exception, failed⟩, _⟩ := spec.fails combines
      rw [flushEach_cons_error failed]
      refine ⟨exactly.trans ?_, fun both => absurd both.1 combines⟩
      exact iff_of_false combines fun both => combines both.1

/-- A batcher that has taken in one more request. -/
def appended (batcher : WriteBatcher Vectors) (collection : String) (request : Request Vectors) :
    WriteBatcher Vectors :=
  { batcher with
    pending := batcher.pending.set collection
      (batcher.bucket collection ++ [⟨request, batcher.futures⟩])
    futures := batcher.futures + 1 }

private theorem bucket_appended (batcher : WriteBatcher Vectors) (collection : String)
    (request : Request Vectors) : (batcher.appended collection request).bucket collection =
      batcher.bucket collection ++ [⟨request, batcher.futures⟩] := by
  rw [appended, bucket, Dict.get?_set_self, Option.getD_some]

private theorem waiting_appended (batcher : WriteBatcher Vectors) (collection : String)
    (request : Request Vectors) : (batcher.appended collection request).waiting.Perm
      (batcher.futures :: batcher.waiting) := by
  have after := (batcher.appended collection request).waiting_perm collection
  have before := batcher.waiting_perm collection
  have same : waiting { batcher.appended collection request with
      pending := (batcher.appended collection request).pending.erase collection } =
      waiting { batcher with pending := batcher.pending.erase collection } := by
    rw [waiting, waiting, appended, Dict.erase_set]
  rw [same, bucketFutures, bucket_appended, List.map_append, List.append_assoc] at after
  exact after.trans (List.perm_middle.trans (before.symm.cons _))

private theorem books_appended (books : batcher.Books) (collection : String)
    (request : Request Vectors) :
    (batcher.appended collection request).Books := by
  have whole : ((batcher.appended collection request).resolved ++
      (batcher.appended collection request).waiting).Perm
        (batcher.futures :: (batcher.resolved ++ batcher.waiting)) :=
    ((batcher.waiting_appended collection request).append_left _).trans List.perm_middle
  have fresh : batcher.futures ∉ batcher.resolved ++ batcher.waiting := fun member =>
    Nat.lt_irrefl _ (books.created _ member)
  constructor
  · exact whole.nodup_iff.mpr (List.nodup_cons.mpr ⟨fresh, books.apart⟩)
  · intro future member
    show future < batcher.futures + 1
    rcases List.mem_cons.mp (whole.mem_iff.mp member) with rfl | old
    · exact Nat.lt_succ_self _
    · exact Nat.lt_succ_of_lt (books.created future old)

private theorem accounted_appended (accounted : batcher.Accounted) (collection : String)
    (request : Request Vectors) : (batcher.appended collection request).Accounted := by
  intro future created
  have waits := batcher.waiting_appended collection request
  rcases Nat.lt_succ_iff_lt_or_eq.mp created with old | rfl
  · exact (accounted future old).imp_right fun waited =>
      waits.mem_iff.mpr (List.mem_cons_of_mem _ waited)
  · exact .inr (waits.mem_iff.mpr List.mem_cons_self)

private theorem requests_appended (batcher : WriteBatcher Vectors) (collection : String)
    (request : Request Vectors) : (batcher.appended collection request).bucketRequests collection =
      batcher.bucketRequests collection ++ [request] := by
  rw [bucketRequests, bucket_appended, List.map_append]
  rfl

private theorem add_eq (batcher : WriteBatcher Vectors) (collection : String)
    (request : Request Vectors) : batcher.add asarray store collection request =
      if batcher.maxBatch ≤ (batcher.bucket collection).length + 1 then
        (batcher.appended collection request).flushLocked asarray store collection
      else (.ok 0, batcher.appended collection request) := by
  simp only [add, appended, List.length_append, List.length_singleton]

private theorem books_step (books : batcher.Books)
    (call : BatchCall Vectors) : ((machine asarray store).step batcher call).2.Books := by
  cases call with
  | add collection request =>
    show (batcher.add asarray store collection request).2.Books
    have next := books_appended books collection request
    rw [add_eq]
    split_ifs
    · exact (flushLocked_spec _ collection).books next
    · exact next
  | waitOrFlush collection => exact (flushLocked_spec batcher collection).books books
  | flush => exact books_flushEach batcher.pending.keys books

private theorem step_spec (books : batcher.Books)
    (accounted : batcher.Accounted) (call : BatchCall Vectors) :
    (((machine asarray store).step batcher call).2.Accounted ↔
        batcher.FlushesCombine asarray call) ∧
      (batcher.FlushesCombine asarray call →
        ∃ count, ((machine asarray store).step batcher call).1 = .ok count) := by
  cases call with
  | add collection request =>
    show ((batcher.add asarray store collection request).2.Accounted ↔ _) ∧
      (_ → ∃ count, (batcher.add asarray store collection request).1 = .ok count)
    have booksNext := books_appended books collection request
    have accountedNext := accounted_appended accounted collection request
    have requests := requests_appended batcher collection request
    rw [add_eq, FlushesCombine]
    split_ifs with full
    · have spec : FlushSpec asarray (batcher.appended collection request) collection
          ((batcher.appended collection request).flushLocked asarray store collection) :=
        flushLocked_spec _ collection
      constructor
      · rw [spec.accounted_iff booksNext accountedNext, requests]
        exact ⟨fun combines _ => combines, fun fills => fills full⟩
      · exact fun combines => (spec.succeeds (requests.symm ▸ combines full)).1
    · constructor
      · exact iff_of_true accountedNext fun fills => absurd fills full
      · exact fun _ => ⟨0, rfl⟩
  | waitOrFlush collection =>
    have spec : FlushSpec asarray batcher collection
        (batcher.flushLocked asarray store collection) := batcher.flushLocked_spec collection
    exact ⟨spec.accounted_iff books accounted, fun combines => (spec.succeeds combines).1⟩
  | flush => exact flushEach_spec batcher.pending.keys_nodup books accounted

/-! ### Runs -/

/-- The vectors of a request do not convert, or a companion has another width. -/
def IllShaped (asarray : Vectors → Except PyException (NdArray Row))
    (batch : List (Request Vectors)) (request : Request Vectors) : Prop :=
  ∀ array, asarray request.vectors = .ok array → ∃ companion ∈ batch, ∃ other,
    asarray companion.vectors = .ok other ∧ other.atleast2d.shape ≠ array.atleast2d.shape

/-- A step raises only in the submitter of an ill-shaped request. -/
def OnlyOwnFails (asarray : Vectors → Except PyException (NdArray Row)) (store : Nat → Insert Row)
    (batcher : WriteBatcher Vectors) (call : BatchCall Vectors) : Prop :=
  ∀ exception, ((machine asarray store).step batcher call).1 = .error exception →
    ∃ collection request, call = .add collection request ∧
      IllShaped asarray (batcher.bucketRequests collection) request

/-- Every future is in a bucket until its flush resolves it, none is resolved
twice, and only ill-shaped requests make their own submit raise. -/
def Resolves (asarray : Vectors → Except PyException (NdArray Row)) (store : Nat → Insert Row)
    (maxBatch : Nat) (calls : List (BatchCall Vectors)) : Prop :=
  (∀ before rest, calls = before ++ rest →
    ((machine asarray store).after (create maxBatch) before).Accounted ∧
      ((machine asarray store).after (create maxBatch) before).resolved.Nodup) ∧
  (machine asarray store).Along (OnlyOwnFails asarray store) (create maxBatch) calls

private theorem books_create (maxBatch : Nat) : (create maxBatch : WriteBatcher Vectors).Books where
  apart := List.nodup_nil
  created _ member := absurd member List.not_mem_nil

private theorem books_after (maxBatch : Nat) (calls : List (BatchCall Vectors)) :
    ((machine asarray store).after (create maxBatch) calls).Books :=
  Machine.invariant_after Books (fun _ call books _ => books_step books call)
    (books_create maxBatch) (Machine.along_of_forall _ (fun _ _ => trivial) _ calls)

/-- The batcher resolves every request exactly in the runs whose flushes find
vectors of one width. -/
theorem resolves_iff (asarray : Vectors → Except PyException (NdArray Row))
    (store : Nat → Insert Row) (maxBatch : Nat) (calls : List (BatchCall Vectors)) :
    Resolves asarray store maxBatch calls ↔
      (machine asarray store).Along (FlushesCombine asarray) (create maxBatch) calls := by
  have empty : (create maxBatch : WriteBatcher Vectors).Accounted := fun _ created =>
    absurd created (Nat.not_lt_zero _)
  have permitted : (machine asarray store).Along (fun _ _ => True) (create maxBatch) calls :=
    Machine.along_of_forall _ (fun _ _ => trivial) _ calls
  have preserved : ∀ (batcher : WriteBatcher Vectors) call, batcher.Books → True →
      ((machine asarray store).step batcher call).2.Books :=
    fun _ call books _ => books_step books call
  have exactStep : ∀ (batcher : WriteBatcher Vectors) call, batcher.Books → True →
      batcher.Accounted → (((machine asarray store).step batcher call).2.Accounted ↔
        batcher.FlushesCombine asarray call) :=
    fun _ call books _ accounted => (step_spec books accounted call).1
  have everywhere : (∀ before rest, calls = before ++ rest →
        ((machine asarray store).after (create maxBatch) before).Accounted) ↔
      (machine asarray store).Along (FlushesCombine asarray) (create maxBatch) calls :=
    (machine asarray store).always_iff_along preserved exactStep (books_create maxBatch) empty
      permitted
  constructor
  · rintro ⟨always, _⟩
    exact everywhere.mp fun before rest split => (always before rest split).1
  · intro combine
    have accounted := everywhere.mpr combine
    refine ⟨fun before rest split => ⟨accounted before rest split, ?_⟩, ?_⟩
    · exact (List.nodup_append.mp (books_after maxBatch before).apart).1
    · rw [Machine.along_iff_each] at combine ⊢
      intro before call rest split exception failed
      obtain ⟨count, succeeded⟩ := (step_spec (books_after maxBatch before)
        (accounted before (call :: rest) split) call).2 (combine before call rest split)
      rw [succeeded] at failed
      cases failed

/-- Vectors of numbers as numpy reads them. -/
def listArray (vectors : List Int) : Except PyException (NdArray (List Int)) :=
  .ok (.vector vectors.length vectors)

/-- A store that gives every row the same id. -/
def anyStore : Nat → Insert (List Int) := fun _ _ stacked _ _ =>
  .ok (stacked.rows.map fun _ => "id")

/-- Vectors of two and of three numbers meet in one bucket. -/
theorem batch_loses_futures :
    ¬ ∀ (maxBatch : Nat) (calls : List (BatchCall (List Int))),
      Resolves listArray anyStore maxBatch calls := by
  intro resolves
  have always := (resolves 2 [.add "memory" ⟨[1, 0], [Dict.empty], none⟩,
    .add "memory" ⟨[1, 0, 0], [Dict.empty], none⟩]).1
  exact absurd ((always _ [] (List.append_nil _).symm).1 0 (by decide)) (by decide)

end Flush

end Swarmind.MemoryRag.WriteBatcher
