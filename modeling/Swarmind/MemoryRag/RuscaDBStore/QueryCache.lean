import Swarmind.Library.Json
import Mathlib.Data.Rat.Defs

/-!
Owns the cache of query results. Entries are found under the digest of the query
text alone; the collection that a query was cached with only says when the entry
is dropped. The digest is taken to be free of collisions.
-/

namespace Swarmind.MemoryRag.RuscaDBStore

open Swarmind.Library

/-- `hashlib.sha256(..).hexdigest()`. -/
structure Digest (κ : Type) where
  hexdigest : String → κ
  injective : Function.Injective hexdigest

/-- `QueryResultCache(ttl_sec=300.0)`. The sets of keys hold each key once or more. -/
structure QueryResultCache (κ : Type) where
  store : Dict κ (ℚ × PyValue)
  collectionKeys : Dict String (List κ)

def ttlSec : ℚ := 300

namespace QueryResultCache

variable {κ : Type} [DecidableEq κ]

def empty : QueryResultCache κ := ⟨.empty, .empty⟩

/-- `get`, at a reading of the monotonic clock. -/
def get (cache : QueryResultCache κ) (key : κ) (now : ℚ) : PyValue × QueryResultCache κ :=
  match cache.store.get? key with
  | none => (.none, cache)
  | some (stamp, value) =>
    if ttlSec < now - stamp then (.none, { cache with store := cache.store.erase key })
    else (value, cache)

def keysOf (cache : QueryResultCache κ) (collection : String) : List κ :=
  (cache.collectionKeys.get? collection).getD []

def set (cache : QueryResultCache κ) (key : κ) (value : PyValue) (collection : String)
    (now : ℚ) : QueryResultCache κ where
  store := cache.store.set key (now, value)
  collectionKeys :=
    if collection = "" then cache.collectionKeys
    else cache.collectionKeys.set collection (key :: cache.keysOf collection)

def invalidate (cache : QueryResultCache κ) (collection : String) : QueryResultCache κ where
  store := (cache.keysOf collection).foldl Dict.erase cache.store
  collectionKeys := cache.collectionKeys.erase collection

/-! ### Lookups -/

variable (cache : QueryResultCache κ)

theorem keysOf_set (key : κ) (value : PyValue)
    {collection : String} (named : collection ≠ "") (now : ℚ) (other : String) :
    (cache.set key value collection now).keysOf other =
      if other = collection then key :: cache.keysOf collection else cache.keysOf other := by
  rw [keysOf, set, if_neg named, Dict.get?_set]
  by_cases same : collection = other
  · rw [if_pos same, if_pos same.symm]
    rfl
  · rw [if_neg same, if_neg (Ne.symm same)]
    rfl

private theorem keysOf_invalidate {collection other : String} (different : other ≠ collection) :
    (cache.invalidate collection).keysOf other = cache.keysOf other := by
  rw [keysOf, invalidate, Dict.get?_erase, if_neg (Ne.symm different)]
  rfl

private theorem get?_foldl_erase (keys : List κ) (store : Dict κ (ℚ × PyValue)) (key : κ) :
    (keys.foldl Dict.erase store).get? key = if key ∈ keys then none else store.get? key := by
  induction keys generalizing store with
  | nil => rfl
  | cons first rest ih =>
    rw [List.foldl_cons, ih, Dict.get?_erase]
    by_cases later : key ∈ rest
    · simp [later]
    · by_cases here : first = key
      · simp [here]
      · simp [later, here, Ne.symm here]

/-- Exactly the keys that are registered for the collection are dropped. -/
theorem get?_invalidate (collection : String) (key : κ) :
    (cache.invalidate collection).store.get? key =
      if key ∈ cache.keysOf collection then none else cache.store.get? key :=
  get?_foldl_erase _ _ _

/-! ### Caches that only lose entries -/

/-- `after` holds entries of `before` only, each still under its collections. -/
structure Shrinks (before after : QueryResultCache κ) : Prop where
  kept : ∀ {key entry}, after.store.get? key = some entry → before.store.get? key = some entry
  registered : ∀ {collection key}, key ∈ before.keysOf collection →
    (after.store.get? key).isSome → key ∈ after.keysOf collection

instance : IsPreorder (QueryResultCache κ) Shrinks where
  refl cache := ⟨fun found => found, fun among _ => among⟩
  trans first second third := by
    intro early late
    refine ⟨fun found => early.kept (late.kept found), fun among present => ?_⟩
    obtain ⟨entry, found⟩ := Option.isSome_iff_exists.mp present
    apply late.registered (early.registered among _) present
    rw [late.kept found]
    rfl

theorem shrinks_invalidate (collection : String) :
    Shrinks cache (cache.invalidate collection) where
  kept := by
    intro key entry found
    rw [get?_invalidate] at found
    split at found
    · cases found
    · exact found
  registered := by
    intro other key among present
    by_cases same : other = collection
    · rw [get?_invalidate, if_pos (same ▸ among)] at present
      cases present
    · rw [keysOf_invalidate cache same]
      exact among

theorem shrinks_get (key : κ) (now : ℚ) : Shrinks cache (cache.get key now).2 := by
  unfold get
  split
  · exact Std.Refl.refl cache
  · split
    · refine ⟨fun {other entry} found => ?_, fun among _ => among⟩
      simp only [Dict.get?_erase] at found
      split at found
      · cases found
      · exact found
    · exact Std.Refl.refl cache

end QueryResultCache

end Swarmind.MemoryRag.RuscaDBStore
