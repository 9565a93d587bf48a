import Swarmind.Library.Register
import Swarmind.Orchestrator.FederatedMemory.Published

/-!
Owns the convergence of the federated memory. While projects store, query and
sync, the record under an id is a register: its owner writes it, every other
project copies it, directly or from somebody else's copy.

What is compared is what a record reads back as, since every copy has gone
through a file.
-/

namespace Swarmind.Orchestrator.FederatedMemory

open Swarmind.Library

variable {ι C : Type}

/-- A store of a value that can be written, a query or a sync. -/
def Call.Shares : Call C → Prop
  | .storeKnowledge request => request.value.stored.isSome
  | .queryKnowledge _ => True
  | .getKnowledge _ _ _ => True
  | .sync _ => True
  | _ => False

def Call.Stores (type : KnowledgeType) (key : String) : Call C → Prop
  | .storeKnowledge request => request.type = type ∧ request.key = key
  | _ => False

/-- Both records can be written, and read back as the same record. -/
def SameOnDisk (first second : KnowledgeRecord C) : Prop :=
  ∃ back, first.reread = some back ∧ second.reread = some back

/-- The answers of a run, with the calls they answer. -/
abbrev History (ι C : Type) := List ((ι × Call C) × Except PyException (Reply C))

section Definitions

variable [DecidableEq ι]

/-- The record under the id that an answer hands to its owner. -/
def storedIn (owner : ι) (id : String) :
    (ι × Call C) × Except PyException (Reply C) → Option (KnowledgeRecord C)
  | ((caller, _), .ok (.stored record)) =>
    if caller = owner ∧ record.id = id then some record else none
  | _ => none

/-- The records under the id that the owner's calls have left, oldest first. -/
def storedBy (owner : ι) (id : String) (history : History ι C) : List (KnowledgeRecord C) :=
  history.filterMap (storedIn owner id)

variable [LinearOrder C] [Zero C]

/-- Every copy is a version the owner had, and a project that syncs after the last
store of a key has the current one. `same` compares a copy with a record of the
owner. -/
structure Converged (same : KnowledgeRecord C → KnowledgeRecord C → Prop) (names : ι → String)
    (calls : List (ι × Call C)) : Prop where
  genuine : ∀ project id held,
    (((federation names).after Federation.initial calls).stores project).get? id = some held →
      ∃ owner own, names owner = held.sourceProject ∧
        (((federation names).after Federation.initial calls).stores owner).get? id = some own ∧
        held.version ≤ own.version ∧
        (∃ record ∈ storedBy owner id ((federation names).replies Federation.initial calls),
          record.version = held.version) ∧
        ∀ record ∈ storedBy owner id ((federation names).replies Federation.initial calls),
          record.version = held.version → same held record
  current : ∀ before follower order later owner type key,
    calls = before ++ (follower, Call.sync order) :: later →
    (∀ call ∈ later, call.1 = owner → ¬ call.2.Stores type key) →
    ∀ own, (((federation names).after Federation.initial calls).stores owner).get?
        (recordId type (names owner) key) = some own →
      ∃ held, (((federation names).after Federation.initial calls).stores follower).get?
        (recordId type (names owner) key) = some held ∧ same held own

end Definitions

/-! ### The register under an id -/

variable [DecidableEq ι]

def Federation.register (state : Federation ι C) (history : History ι C) (owner : ι)
    (id : String) : Register ι (KnowledgeRecord C) where
  copies project := (state.stores project).copy id
  written := (storedBy owner id history).filterMap KnowledgeRecord.reread

private theorem catches_foldl_merge {place : ι} {id : String} (records : List (KnowledgeRecord C))
    (store : LocalStore C) (register : Register ι (KnowledgeRecord C))
    (here : register.copies place = store.copy id)
    (held : ∀ record ∈ records, record.id = id →
      record.reread = some record ∧ ∃ source, source ≠ place ∧
        register.copies source = some record) :
    Register.Catches KnowledgeRecord.version place register
      ⟨Function.update register.copies place ((records.foldl LocalStore.merge store).copy id),
        register.written⟩ := by
  induction records generalizing store register with
  | nil =>
    rw [List.foldl_nil, ← here, Function.update_eq_self]
  | cons record rest ih =>
    rw [List.forall_mem_cons] at held
    rw [List.foldl_cons]
    by_cases adopted : record.id = id ∧ store.imports record = true
    · obtain ⟨rfl, imported⟩ := adopted
      obtain ⟨native, source, other, holds⟩ := held.1 rfl
      have newer : ∀ current, register.copies place = some current →
          current.version < record.version := by
        intro current copied
        obtain ⟨existing, found, reads⟩ := LocalStore.exists_of_copy (here.symm.trans copied)
        rw [KnowledgeRecord.reread_version reads]
        exact (LocalStore.imports_iff_newer found).mp imported
      have step : Register.Adopts KnowledgeRecord.version place register
          (register.adopt place record) := .newer source holds newer
      have next := ih (store.merge record) (register.adopt place record)
        (by
          rw [Register.copies_adopt_self, LocalStore.merge_of_imports imported,
            LocalStore.copy_put, if_pos rfl, native])
        (by
          intro later member named
          obtain ⟨laterNative, laterSource, apart, laterHolds⟩ := held.2 later member named
          refine ⟨laterNative, laterSource, apart, ?_⟩
          rw [Register.copies_adopt_of_ne _ _ apart, laterHolds])
      refine Relation.ReflTransGen.head step ?_
      rw [Register.adopt, Function.update_idem] at next
      exact next
    · have kept : (store.merge record).copy id = store.copy id := by
        unfold LocalStore.merge
        split_ifs with imported
        · rw [LocalStore.copy_put, if_neg fun named => adopted ⟨named, imported⟩]
        · rfl
      exact ih _ register (here.trans kept.symm) held.2

/-! ### The invariant -/

section Invariant

variable (names : ι → String)

/-- Stores and files are together, what was stored could be written, and every id
is a sound register. -/
structure Consistent (state : Federation ι C) (history : History ι C) : Prop where
  published : Published names state
  recorded : ∀ owner id, ∀ record ∈ storedBy owner id history, record.reread.isSome
  sound : ∀ owner type key, Register.Sound KnowledgeRecord.version owner
    (state.register history owner (recordId type (names owner) key))

private theorem consistent_initial : Consistent names (Federation.initial : Federation ι C) [] where
  published := published_initial names
  recorded := by
    intro owner id record member
    cases member
  sound := fun _ _ _ => Register.blank_sound

end Invariant

/-! ### Steps -/

section Steps

variable {names : ι → String} {state : Federation ι C} {history : History ι C}

variable [LinearOrder C] [Zero C]

variable (names state history) in
/-- A step puts what the caller has left into its place, and what it has stored
behind everything written. -/
theorem register_step (caller : ι) (call : Call C) (owner : ι) (id : String) :
    ((federation names).step state (caller, call)).2.register
        (history ++ [((caller, call), ((federation names).step state (caller, call)).1)]) owner id =
      ⟨Function.update (state.register history owner id).copies caller
          ((state.outcome names caller call).store.copy id),
        (state.register history owner id).written ++
          ((storedIn owner id ((caller, call), (state.outcome names caller call).result)).bind
            KnowledgeRecord.reread).toList⟩ := by
  have answer : ((federation names).step state (caller, call)).1 =
      (state.outcome names caller call).result := rfl
  rw [Federation.register, Register.mk.injEq]
  constructor
  · funext project
    by_cases same : project = caller
    · subst same
      rw [step_stores_self, Function.update_self]
    · rw [step_stores_of_ne _ _ _ _ same, Function.update_of_ne same]
      rfl
  · rw [answer, storedBy, List.filterMap_append, List.filterMap_append]
    congr 1
    cases stored : storedIn owner id ((caller, call), (state.outcome names caller call).result) with
    | none => simp [stored]
    | some record => cases reads : record.reread <;> simp [stored, reads]

end Steps

omit [DecidableEq ι] in
private theorem Call.Shares.writable {call : Call C} (shares : call.Shares) : call.Writable := by
  cases call with
  | storeKnowledge request => exact shares
  | construct => trivial
  | deleteKnowledge key type => trivial
  | queryKnowledge query => trivial
  | getKnowledge key type now => trivial
  | sync order => trivial
  | clear => trivial

omit [DecidableEq ι] in
private theorem names_injective {names : ι → String}
    (files : Function.Injective fun project => projectFile (names project)) :
    Function.Injective names :=
  fun _ _ same => files (congrArg projectFile same)

/-! ### Runs -/

section Runs

variable {names : ι → String} {state : Federation ι C} {history : History ι C} {caller : ι}

private theorem storedIn_map {β : Type} (owner : ι) (id : String) (call : Call C)
    (result : Except PyException β) (embed : β → Reply C)
    (other : ∀ answer record, embed answer ≠ .stored record) :
    storedIn owner id ((caller, call), result.map embed) = none := by
  cases result with
  | error raised => rfl
  | ok answer =>
    change storedIn owner id ((caller, call), .ok (embed answer)) = none
    cases reply : embed answer with
    | stored record => exact absurd reply (other answer record)
    | none => rfl
    | deleted removed => rfl
    | records records => rfl
    | found record => rfl
    | imported count => rfl

variable [LinearOrder C] [Zero C] {call : Call C}

private theorem storedIn_of_other (owner : ι) (id : String)
    (other : ∀ request, call ≠ .storeKnowledge request) :
    storedIn owner id ((caller, call), (state.outcome names caller call).result) = none := by
  cases call with
  | storeKnowledge request => exact absurd rfl (other request)
  | construct => rfl
  | deleteKnowledge key type =>
    exact storedIn_map owner id _ _ Reply.deleted fun _ _ same => by cases same
  | queryKnowledge query =>
    exact storedIn_map owner id _ (.ok _) Reply.records fun _ _ same => by cases same
  | getKnowledge key type now =>
    exact storedIn_map owner id _ (.ok _) Reply.found fun _ _ same => by cases same
  | sync order => exact storedIn_map owner id _ _ Reply.imported fun _ _ same => by cases same
  | clear =>
    exact storedIn_map owner id _ (clear (names caller) state.dir).result (fun _ => Reply.none)
      fun _ _ same => by cases same

private theorem register_step_of_kept {owner : ι} {id : String}
    (kept : (state.outcome names caller call).store.copy id = (state.stores caller).copy id)
    (silent : storedIn owner id ((caller, call), (state.outcome names caller call).result) = none) :
    ((federation names).step state (caller, call)).2.register
        (history ++ [((caller, call), ((federation names).step state (caller, call)).1)]) owner id =
      state.register history owner id := by
  rw [register_step, kept, silent, Option.bind_none, Option.toList_none, List.append_nil]
  exact congrArg (Register.mk · _) (Function.update_eq_self caller _)

section

variable (consistent : Consistent names state history)
include consistent

private theorem Consistent.register_writes
    {request : StoreRequest C} (shares : (Call.storeKnowledge request).Shares) :
    let id := recordId request.type (names caller) request.key
    let register := state.register history caller id
    ∃ value, (∀ current, register.copies caller = some current →
        current.version < value.version) ∧
      ((federation names).step state (caller, .storeKnowledge request)).2.register
          (history ++ [((caller, .storeKnowledge request),
            ((federation names).step state (caller, .storeKnowledge request)).1)]) caller id =
        register.write caller value := by
  have id := storedRecord_id (names caller) (state.stores caller) request
  have answer := consistent.published.store_answer caller shares
  have store : (state.outcome names caller (.storeKnowledge request)).store =
      (state.stores caller).put (storedRecord (names caller) (state.stores caller) request) := rfl
  obtain ⟨back, reads⟩ := Option.isSome_iff_exists.mp
    (consistent.published.sharable_storedRecord caller shares).writable
  refine ⟨back, ?_, ?_⟩
  · intro current copied
    obtain ⟨existing, found, readsCurrent⟩ := LocalStore.exists_of_copy copied
    rw [KnowledgeRecord.reread_version readsCurrent, KnowledgeRecord.reread_version reads]
    exact storedRecord_newer found
  · rw [register_step, answer, store, LocalStore.copy_put, if_pos id, storedIn,
      if_pos ⟨rfl, id⟩, Option.bind_some, reads]
    rfl

private theorem Consistent.register_of_other_store
    {request : StoreRequest C} (shares : (Call.storeKnowledge request).Shares) (owner : ι)
    {id : String} (other : recordId request.type (names caller) request.key ≠ id) :
    ((federation names).step state (caller, .storeKnowledge request)).2.register
        (history ++ [((caller, .storeKnowledge request),
          ((federation names).step state (caller, .storeKnowledge request)).1)]) owner id =
      state.register history owner id := by
  have different : (storedRecord (names caller) (state.stores caller) request).id ≠ id := by
    rw [storedRecord_id]
    exact other
  have store : (state.outcome names caller (.storeKnowledge request)).store =
      (state.stores caller).put (storedRecord (names caller) (state.stores caller) request) := rfl
  apply register_step_of_kept
  · rw [store, LocalStore.copy_put, if_neg different]
  · rw [consistent.published.store_answer caller shares, storedIn,
      if_neg fun both => different both.2]

private theorem Consistent.register_of_load (call : Call C)
    {owner : ι} {id : String} (loads : (state.outcome names caller call).store =
      loadLocal (names caller) (state.stores caller) state.dir)
    (other : ∀ request, call ≠ .storeKnowledge request) :
    ((federation names).step state (caller, call)).2.register
        (history ++ [((caller, call), ((federation names).step state (caller, call)).1)]) owner id =
      state.register history owner id :=
  register_step_of_kept
    (loads ▸ copy_of_get?_eq (consistent.published.get?_loadLocal caller id))
    (storedIn_of_other owner id other)

private theorem Consistent.register_catches
    (files : Function.Injective fun project => projectFile (names project)) (order : List String)
    (owner : ι) (id : String) :
    Register.Catches KnowledgeRecord.version caller (state.register history owner id)
      (((federation names).step state (caller, Call.sync order)).2.register
        (history ++ [((caller, .sync order),
          ((federation names).step state (caller, Call.sync order)).1)]) owner id) := by
  have store : (state.outcome names caller (.sync order)).store =
      (peerRecords (names caller) state.dir order).foldl LocalStore.merge
        (state.stores caller) := sync_store ..
  rw [register_step, storedIn_of_other owner _ (fun _ same => by cases same), Option.bind_none,
    Option.toList_none, List.append_nil, store]
  apply catches_foldl_merge _ _ _ rfl
  intro record member named
  obtain ⟨source, other, copied⟩ := (consistent.published.mem_peerRecords_iff files _ _ _).mp member
  exact ⟨LocalStore.reread_of_copy copied, source, other, named ▸ copied⟩

private theorem Consistent.register_moves (caller : ι)
    (files : Function.Injective fun project => projectFile (names project))
    (plain : ∀ project, ':' ∉ (names project).toList) (shares : call.Shares) (owner : ι)
    (type : KnowledgeType) (key : String) :
    (caller = owner ∧ call.Stores type key ∧ ∃ value,
        (∀ current, (state.register history owner (recordId type (names owner) key)).copies owner =
          some current → current.version < value.version) ∧
        ((federation names).step state (caller, call)).2.register
            (history ++ [((caller, call), ((federation names).step state (caller, call)).1)])
            owner (recordId type (names owner) key) =
          (state.register history owner (recordId type (names owner) key)).write owner value) ∨
      Register.Catches KnowledgeRecord.version caller
        (state.register history owner (recordId type (names owner) key))
        (((federation names).step state (caller, call)).2.register
          (history ++ [((caller, call), ((federation names).step state (caller, call)).1)])
          owner (recordId type (names owner) key)) := by
  cases call with
  | storeKnowledge request =>
    by_cases named : recordId request.type (names caller) request.key =
        recordId type (names owner) key
    · obtain ⟨rfl, sameName, rfl⟩ := recordId_injective (plain caller) (plain owner) named
      obtain rfl := names_injective files sameName
      exact Or.inl ⟨rfl, ⟨rfl, rfl⟩, consistent.register_writes shares⟩
    · right
      rw [consistent.register_of_other_store shares owner named]
  | queryKnowledge query =>
    right
    rw [consistent.register_of_load (.queryKnowledge query) rfl fun _ same => by cases same]
  | getKnowledge key' type' now =>
    right
    rw [consistent.register_of_load (.getKnowledge key' type' now) rfl fun _ same => by cases same]
  | sync order => exact Or.inr (consistent.register_catches files order owner _)
  | construct => cases shares
  | deleteKnowledge key' type' => cases shares
  | clear => cases shares

private theorem Consistent.reread_of_storedIn
    (shares : call.Shares) {owner : ι} {id : String} {record : KnowledgeRecord C}
    (stored : storedIn owner id ((caller, call), (state.outcome names caller call).result) =
      some record) : record.reread.isSome := by
  by_cases stores : ∃ request, call = .storeKnowledge request
  · obtain ⟨request, rfl⟩ := stores
    rw [consistent.published.store_answer caller shares, storedIn] at stored
    split_ifs at stored
    exact Option.some.inj stored ▸ (consistent.published.sharable_storedRecord caller shares).writable
  · rw [storedIn_of_other owner id fun request same => stores ⟨request, same⟩] at stored
    cases stored

private theorem Consistent.step
    (files : Function.Injective fun project => projectFile (names project))
    (plain : ∀ project, ':' ∉ (names project).toList) (shares : call.Shares) :
    Consistent names ((federation names).step state (caller, call)).2
      (history ++ [((caller, call), ((federation names).step state (caller, call)).1)]) where
  published := consistent.published.step files caller shares.writable
  recorded := by
    intro owner id record member
    rw [storedBy, List.filterMap_append, List.mem_append] at member
    rcases member with before | now
    · exact consistent.recorded owner id record before
    · obtain ⟨entry, last, stored⟩ := List.mem_filterMap.mp now
      rw [List.mem_singleton.mp last] at stored
      exact consistent.reread_of_storedIn shares stored
  sound := by
    intro owner type key
    rcases consistent.register_moves caller files plain shares owner type key with
      ⟨_, _, value, newer, written⟩ | catches
    · rw [written]
      exact (consistent.sound owner type key).write newer
    · exact (consistent.sound owner type key).catches catches

end

end Runs

/-! ### Convergence -/

section Main

variable [LinearOrder C] [Zero C] {names : ι → String} {state : Federation ι C}
  {history : History ι C}

private theorem consistent_after
    (files : Function.Injective fun project => projectFile (names project))
    (plain : ∀ project, ':' ∉ (names project).toList) {calls : List (ι × Call C)}
    (sharing : ∀ call ∈ calls, call.2.Shares) :
    Consistent names ((federation names).after Federation.initial calls)
      ((federation names).replies Federation.initial calls) := by
  have along := (federation names).along_of_mem sharing Federation.initial
  exact Machine.history_invariant (Consistent names)
    (fun _ _ _ consistent shares => consistent.step files plain shares)
    (consistent_initial names) along

private theorem Consistent.current_of_sync (consistent : Consistent names state history)
    (files : Function.Injective fun project => projectFile (names project))
    (plain : ∀ project, ':' ∉ (names project).toList) (follower owner : ι) (order : List String)
    (type : KnowledgeType) (key : String) :
    let next := ((federation names).step state (follower, Call.sync order)).2
    (next.stores follower).copy (recordId type (names owner) key) =
      (next.stores owner).copy (recordId type (names owner) key) := by
  intro next
  by_cases other : owner = follower
  · rw [other]
  · have shares : (Call.sync order : Call C).Shares := trivial
    have after : Consistent names next
        (history ++ [((follower, .sync order), ((federation names).step state
          (follower, .sync order)).1)]) := consistent.step files plain shares
    have sound := after.sound owner type key
    have own : (next.stores owner).copy (recordId type (names owner) key) =
        (state.stores owner).copy (recordId type (names owner) key) := by
      rw [step_stores_of_ne names state follower _ other]
    cases latest : (next.stores owner).copy (recordId type (names owner) key) with
    | none =>
      by_contra held
      obtain ⟨back, copied⟩ := Option.ne_none_iff_exists'.mp held
      obtain ⟨value, holds, _⟩ := sound.exists_latest (sound.genuine follower back copied)
      exact absurd (latest.symm.trans holds) (by simp)
    | some value =>
      have named := LocalStore.id_of_copy latest
      have seen : value ∈ peerRecords (names follower) state.dir order :=
        (consistent.published.mem_peerRecords_iff files follower order value).mpr
          ⟨owner, other, by rw [named, ← own, latest]⟩
      have merged : next.stores follower =
          (peerRecords (names follower) state.dir order).foldl LocalStore.merge
            (state.stores follower) :=
        (step_stores_self names state follower (.sync order)).trans (sync_store ..)
      obtain ⟨held, found, covers⟩ := LocalStore.foldl_merge_covers seen
      rw [← merged, named] at found
      obtain ⟨back, reads⟩ := Option.isSome_iff_exists.mp
        (after.published.sharable follower _ held found).writable
      have copied := (LocalStore.copy_of_get? found).trans reads
      rw [← latest]
      refine sound.current_of_le latest copied ?_
      rw [KnowledgeRecord.reread_version reads]
      exact covers

private theorem Consistent.stays_current (consistent : Consistent names state history)
    (files : Function.Injective fun project => projectFile (names project))
    (plain : ∀ project, ':' ∉ (names project).toList) {follower owner : ι} {type : KnowledgeType}
    {key : String} {later : List (ι × Call C)} (sharing : ∀ call ∈ later, call.2.Shares)
    (quiet : ∀ call ∈ later, call.1 = owner → ¬ call.2.Stores type key)
    (current : (state.stores follower).copy (recordId type (names owner) key) =
      (state.stores owner).copy (recordId type (names owner) key)) :
    (((federation names).after state later).stores follower).copy
        (recordId type (names owner) key) =
      (((federation names).after state later).stores owner).copy
        (recordId type (names owner) key) := by
  have along := (federation names).along_of_mem
    (fun call member => And.intro (sharing call member) (quiet call member)) state
  have kept := Machine.history_invariant
    (fun state history => Consistent names state history ∧
      (state.stores follower).copy (recordId type (names owner) key) =
        (state.stores owner).copy (recordId type (names owner) key))
    (by
      rintro before answered ⟨caller, call⟩ ⟨consistentBefore, same⟩ ⟨shares, silent⟩
      refine ⟨consistentBefore.step files plain shares, ?_⟩
      rcases consistentBefore.register_moves caller files plain shares owner type key with
        ⟨rfl, stores, _⟩ | catches
      · exact absurd stores (silent rfl)
      · exact (consistentBefore.sound owner type key).catches_current same catches)
    ⟨consistent, current⟩ along
  exact kept.2

/-- Projects with files of their own and names without colons converge on what
the owners hold. -/
theorem copies_converge (files : Function.Injective fun project => projectFile (names project))
    (plain : ∀ project, ':' ∉ (names project).toList) {calls : List (ι × Call C)}
    (sharing : ∀ call ∈ calls, call.2.Shares) : Converged SameOnDisk names calls where
  genuine := by
    intro project id held found
    have consistent := consistent_after files plain sharing
    obtain ⟨writable, identified, owner, owned⟩ := consistent.published.sharable project id held found
    obtain ⟨back, reads⟩ := Option.isSome_iff_exists.mp writable
    have named : recordId held.type (names owner) held.key = id := by
      rw [← owned, ← identified, LocalStore.id_of_get? found]
    have sound := consistent.sound owner held.type held.key
    rw [named] at sound
    have written := sound.genuine project back ((LocalStore.copy_of_get? found).trans reads)
    have version := KnowledgeRecord.reread_version reads
    obtain ⟨latest, holds, bounded⟩ := sound.exists_latest written
    obtain ⟨own, foundOwn, readsOwn⟩ := LocalStore.exists_of_copy holds
    refine ⟨owner, own, owned.symm, foundOwn, ?_, ?_, ?_⟩
    · rw [← version, ← KnowledgeRecord.reread_version readsOwn]
      exact bounded
    · obtain ⟨record, member, readsRecord⟩ := List.mem_filterMap.mp written
      exact ⟨record, member, by rw [← version, KnowledgeRecord.reread_version readsRecord]⟩
    · intro record member sameVersion
      obtain ⟨other, readsRecord⟩ := Option.isSome_iff_exists.mp
        (consistent.recorded owner id record member)
      have otherWritten := List.mem_filterMap.mpr ⟨record, member, readsRecord⟩
      have same : back = other := by
        apply sound.eq_of_version written otherWritten
        rw [version, KnowledgeRecord.reread_version readsRecord, sameVersion]
      exact ⟨back, reads, same ▸ readsRecord⟩
  current := by
    rintro before follower order later owner type key rfl quiet own foundOwn
    have consistentBefore := consistent_after files plain fun call member =>
      sharing call (List.mem_append_left _ member)
    have shares : (Call.sync order : Call C).Shares := trivial
    have synced := consistentBefore.current_of_sync files plain follower owner order type key
    have stays := (consistentBefore.step files plain shares).stays_current files plain
      (fun call member => sharing call
        (List.mem_append_right _ (List.mem_cons_of_mem _ member))) quiet synced
    have consistent := consistent_after files plain sharing
    obtain ⟨back, reads⟩ := Option.isSome_iff_exists.mp
      (consistent.published.sharable owner _ own foundOwn).writable
    rw [← Machine.after_cons, ← Machine.after_append, LocalStore.copy_of_get? foundOwn,
      reads] at stays
    obtain ⟨held, found, readsHeld⟩ := LocalStore.exists_of_copy stays
    exact ⟨held, found, back, readsHeld, reads⟩

end Main

/-- One project stores a pair, the other one syncs. -/
def pairRun : List (Bool × Call Int) :=
  [(false, .storeKnowledge ⟨"k", .tuple [.int 1, .int 2], .pattern, "system", [], 1, 0, 0, []⟩),
    (true, .sync [])]

private theorem pairRun_shares : ∀ call ∈ pairRun, call.2.Shares := by
  intro call member
  rcases List.mem_cons.mp member with rfl | synced
  · rfl
  · rw [List.mem_singleton.mp synced]
    trivial

/-- A pair and the list that is read back are the same on the disk. -/
theorem copies_converge_pair : Converged SameOnDisk (twoProjects "alpha" "beta") pairRun :=
  copies_converge
    (by
      intro first second same
      cases first <;> cases second <;> first | rfl | exact absurd same (by decide))
    (by decide) pairRun_shares

/-- The owner keeps the pair it has stored, and a copy is a list. -/
theorem copies_differ_in_memory :
    ¬ ∀ calls : List (Bool × Call Int), (∀ call ∈ calls, call.2.Shares) →
      Converged Eq (twoProjects "alpha" "beta") calls := by
  intro converge
  have strict := converge pairRun pairRun_shares
  obtain ⟨owner, own, owned, _, _, _, same⟩ := strict.genuine true "pattern:alpha:k"
    ⟨"pattern:alpha:k", .pattern, "alpha", "system", "k", .list [.int 1, .int 2], [], 1, 0, 0, 0,
      1⟩ rfl
  have alpha : owner = false := by
    cases owner with
    | false => rfl
    | true => exact absurd owned (by decide)
  subst alpha
  have equal := same ⟨"pattern:alpha:k", .pattern, "alpha", "system", "k",
    .tuple [.int 1, .int 2], [], 1, 0, 0, 0, 1⟩ List.mem_cons_self rfl
  have values := congrArg KnowledgeRecord.value equal
  cases values

end Swarmind.Orchestrator.FederatedMemory
