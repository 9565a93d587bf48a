import Swarmind.Library.Argmax
import Swarmind.Orchestrator.FederatedMemory.Effects

/-!
Owns what a project reads right after it has stored. `get_knowledge` is a prefix
query over the records of all projects, by falling confidence and cut to one, so
a store reads back exactly when the record under its id is its own and nothing
else that the query selects ranks before it.
-/

namespace Swarmind.Orchestrator.FederatedMemory

open Swarmind.Library

variable {ι C : Type}

/-- At the time of the read the time to live of the call has not run out. -/
def StoreRequest.Fresh (request : StoreRequest C) (now : Int) : Prop :=
  request.ttlSeconds = 0 ∨ now - request.now < request.ttlSeconds * 1000000

def getQuery [Zero C] (key : String) (type : KnowledgeType) (now : Int) : Query C :=
  ⟨key, some type, [], 0, false, 1, now⟩

/-! ### Ids in every run -/

section Identified

private theorem identified_storedRecord {project : String} {store : LocalStore C}
    (identified : ∀ id record, store.get? id = some record → record.Identified)
    (request : StoreRequest C) : (storedRecord project store request).Identified := by
  cases found : store.get? (recordId request.type project request.key) with
  | none => simp only [storedRecord, found, KnowledgeRecord.Identified]
  | some existing =>
    have before := identified _ existing found
    simp only [storedRecord, found]
    exact before

variable [DecidableEq ι] [LinearOrder C] [Zero C] (names : ι → String)

private theorem identified_after (calls : List (ι × Call C)) :
    Everywhere KnowledgeRecord.Identified
      ((federation names).after Federation.initial calls) := by
  have preserved : ∀ (state : Federation ι C) (action : ι × Call C),
      Everywhere KnowledgeRecord.Identified state → True →
        Everywhere KnowledgeRecord.Identified ((federation names).step state action).2 := by
    rintro state ⟨caller, call⟩ holds _
    refine holds.step (fun _ _ => KnowledgeRecord.Identified.reread) ?_
    intro request _
    exact identified_storedRecord (holds.held caller) request
  exact Machine.invariant_after _ preserved (everywhere_initial _)
    ((federation names).along_of_forall (fun _ _ => trivial) _ _)

end Identified

/-! ### Loading what has just been written -/

namespace LocalStore

/-- What a record of the store is after the store has been written and loaded. -/
def settle (store : LocalStore C) (record : KnowledgeRecord C) : KnowledgeRecord C :=
  if store.saved.isSome then record.reread.getD record else record

private theorem settle_eq (store : LocalStore C) (record : KnowledgeRecord C) :
    store.settle record = { record with value := (store.settle record).value } := by
  unfold settle
  split_ifs
  · cases reads : record.reread with
    | none => rfl
    | some back => exact ((KnowledgeRecord.reread_eq_some_iff record back).mp reads).2
  · rfl

private theorem keys_foldl_put {records : List (KnowledgeRecord C)} {store : LocalStore C}
    (present : ∀ record ∈ records, record.id ∈ store.records.keys) :
    (records.foldl put store).records.keys = store.records.keys := by
  induction records generalizing store with
  | nil => rfl
  | cons record rest ih =>
    rw [List.forall_mem_cons] at present
    have keys : (store.put record).records.keys = store.records.keys :=
      store.records.keys_set_of_mem record present.1
    rw [List.foldl_cons, ih, keys]
    intro other member
    rw [keys]
    exact present.2 other member

private theorem load_saved (store : LocalStore C) (project : String) (dir : Directory C) :
    (loadLocal project store (dir.set (projectFile project) store.saved)).records =
      store.records.mapValues store.settle := by
  rw [loadLocal, readFile_set_self]
  cases written : store.saved with
  | none =>
    have kept : store.settle = id := by
      funext record
      rw [settle, if_neg (by simp [written])]
      rfl
    apply Dict.ext_get?
    · rw [Dict.keys_mapValues]
      rfl
    · intro key
      rw [Dict.get?_mapValues, kept, Option.map_id_fun]
      rfl
  | some records =>
    have mirrors := mirrors_of_saved written
    apply Dict.ext_get?
    · rw [Dict.keys_mapValues]
      apply keys_foldl_put
      intro record member
      obtain ⟨held, found, _⟩ := (mirrors record).mp member
      exact (store.records.mem_keys_iff record.id).mpr ⟨held, found⟩
    · intro key
      rw [Dict.get?_mapValues]
      refine (mirrors.get?_load store key).trans ?_
      change _ = (store.get? key).map store.settle
      cases store.get? key with
      | none => rfl
      | some held =>
        have settled : store.settle held = held.reread.getD held :=
          if_pos (by simp [written])
        rw [Option.map_some, settled, Option.bind_some]
        cases held.reread <;> rfl

end LocalStore

/-! ### The read after a store -/

section Read

private theorem confidence_settle (store : LocalStore C) (record : KnowledgeRecord C) :
    (store.settle record).confidence = record.confidence := by
  rw [LocalStore.settle_eq store record]

variable [LinearOrder C]

private theorem selects_settle (query : Query C) (store : LocalStore C)
    (record : KnowledgeRecord C) :
    query.selects (store.settle record) = query.selects record := by
  rw [LocalStore.settle_eq store record]
  rfl

variable [Zero C]

private theorem selects_getQuery (key : String) (type : KnowledgeType) (now : Int)
    (record : KnowledgeRecord C) :
    (getQuery key type now).selects record = true ↔
      record.type = type ∧ key.toList <+: record.key.toList ∧ 0 ≤ record.confidence ∧
        record.isExpired now = false := by
  simp only [Query.selects, Bool.and_eq_true, List.isPrefixOf_iff_prefix, Bool.not_eq_true',
    decide_eq_false_iff_not, not_lt, and_assoc]
  simp only [getQuery, Option.all_some, decide_eq_true_eq, List.all_nil, true_and, Bool.false_or,
    Bool.not_eq_true']

private theorem getKnowledge_saved (project : String) (store : LocalStore C) (dir : Directory C)
    (key : String) (type : KnowledgeType) (now : Int) :
    (getKnowledge project store (dir.set (projectFile project) store.saved) key type now).result =
      .ok ((argmax KnowledgeRecord.confidence
        (store.records.values.filter (getQuery key type now).selects)).map store.settle) := by
  have ranked : (getQuery key type now).ranked
      (loadLocal project store (dir.set (projectFile project) store.saved)) =
        ((store.records.values.filter (getQuery key type now).selects).map
          store.settle).insertionSort fun left right => right.confidence ≤ left.confidence := by
    rw [Query.ranked, LocalStore.load_saved, Dict.values_mapValues, List.filter_map]
    congr 2
    apply List.filter_congr
    intro record _
    exact selects_settle _ store record
  have first : ∀ records : List (KnowledgeRecord C), (slice records 1).head? = records.head? := by
    intro records
    cases records <;> rfl
  change Except.ok (slice ((getQuery key type now).ranked _) 1).head? = _
  rw [first, ranked, head?_insertionSort, argmax_map]
  simp only [confidence_settle]

end Read

/-! ### Reading one's own write -/

section OwnWrite

variable [DecidableEq ι] [LinearOrder C] [Zero C] (names : ι → String)

/-- A store and the read right after it answer with the stored key and value, and
the project's own name. -/
def ReadsBack (state : Federation ι C) (project : ι) (request : StoreRequest C) (now : Int) :
    Prop :=
  ∃ record,
    ((federation names).step
        ((federation names).step state (project, Call.storeKnowledge request)).2
        (project, Call.getKnowledge request.key request.type now)).1 =
      .ok (.found (some record)) ∧
    record.key = request.key ∧ record.sourceProject = names project ∧
    record.value = request.value

/-- What the state before the store has to be like: the record under the id, if
there is one, is the project's own and lives on, the value is one that JSON keeps
(unless nothing can be written), and whatever else the read selects ranks lower. -/
structure RanksFirst (state : Federation ι C) (project : ι) (request : StoreRequest C)
    (now : Int) : Prop where
  own : ∀ existing, (state.stores project).get?
      (recordId request.type (names project) request.key) = some existing →
    existing.key = request.key ∧ existing.sourceProject = names project ∧
      existing.isExpired now = false
  value : request.value.stored.isSome →
    (∀ id held, id ≠ recordId request.type (names project) request.key →
      (state.stores project).get? id = some held → held.value.stored.isSome) →
    request.value.Native
  confidence : 0 ≤ request.confidence
  rivals : ∀ id rival, id ≠ recordId request.type (names project) request.key →
    (state.stores project).get? id = some rival → rival.type = request.type →
    request.key.toList <+: rival.key.toList → rival.isExpired now = false →
    rival.confidence < request.confidence ∨ rival.confidence = request.confidence ∧
      (state.stores project).records.keys.idxOf
          (recordId request.type (names project) request.key) <
        (state.stores project).records.keys.idxOf id

end OwnWrite

/-! ### The stored record -/

section Stored

variable {project : String} {store : LocalStore C} {request : StoreRequest C}

private theorem storedRecord_confidence :
    (storedRecord project store request).confidence = request.confidence := by
  unfold storedRecord
  split <;> rfl

private theorem storedRecord_type
    (identified : ∀ id record, store.get? id = some record → record.Identified) :
    (storedRecord project store request).type = request.type := by
  have named : (storedRecord project store request).Identified :=
    identified_storedRecord identified request
  rw [KnowledgeRecord.Identified, storedRecord_id project store request, recordId_eq_iff] at named
  exact named.1.symm

private theorem storedRecord_own_iff {now : Int} (fresh : request.Fresh now) :
    ((storedRecord project store request).key = request.key ∧
        (storedRecord project store request).sourceProject = project ∧
        (storedRecord project store request).isExpired now = false) ↔
      ∀ existing, store.get? (recordId request.type project request.key) = some existing →
        existing.key = request.key ∧ existing.sourceProject = project ∧
          existing.isExpired now = false := by
  cases found : store.get? (recordId request.type project request.key) with
  | none =>
    have live : (storedRecord project store request).isExpired now = false := by
      simp only [storedRecord, found, KnowledgeRecord.isExpired, Bool.and_eq_false_iff,
        decide_eq_false_iff_not]
      rcases fresh with forever | early
      · exact Or.inl (by omega)
      · exact Or.inr (by omega)
    refine ⟨fun _ _ none => (by cases none), fun _ => ⟨?_, ?_, live⟩⟩
    · simp only [storedRecord, found]
    · simp only [storedRecord, found]
  | some existing =>
    simp only [storedRecord, found, KnowledgeRecord.isExpired, Option.some.injEq, forall_eq']

private theorem get?_put_storedRecord :
    (store.put (storedRecord project store request)).get?
      (recordId request.type project request.key) =
        some (storedRecord project store request) := by
  rw [← storedRecord_id project store request, LocalStore.get?_put_self]

private theorem get?_put_storedRecord_of_ne {id : String}
    (different : id ≠ recordId request.type project request.key) :
    (store.put (storedRecord project store request)).get? id = store.get? id := by
  apply LocalStore.get?_put_of_ne
  rw [storedRecord_id]
  exact different.symm

private theorem eq_recordId_of_put_storedRecord {id : String}
    (found : (store.put (storedRecord project store request)).records.get? id =
      some (storedRecord project store request)) :
    id = recordId request.type project request.key :=
  (LocalStore.id_of_get? found).symm.trans (storedRecord_id ..)

private theorem idxOf_put_storedRecord_lt_iff {id : String} {rival : KnowledgeRecord C}
    (found : store.get? id = some rival) :
    (store.put (storedRecord project store request)).records.keys.idxOf
          (recordId request.type project request.key) <
        (store.put (storedRecord project store request)).records.keys.idxOf id ↔
      store.records.keys.idxOf (recordId request.type project request.key) <
        store.records.keys.idxOf id := by
  have held : id ∈ store.records.keys := (store.records.mem_keys_iff id).mpr ⟨rival, found⟩
  rw [← storedRecord_id project store request]
  exact Dict.idxOf_keys_set_lt_iff store.records (storedRecord project store request) held

private theorem saved_put_iff :
    (store.put (storedRecord project store request)).saved.isSome ↔
      request.value.stored.isSome ∧ ∀ id held,
        id ≠ recordId request.type project request.key → store.get? id = some held →
          held.value.stored.isSome := by
  rw [saved_isSome_iff]
  simp only [KnowledgeRecord.reread_isSome]
  constructor
  · intro writable
    refine ⟨?_, fun id held different found => ?_⟩
    · rw [← storedRecord_value project store request]
      exact writable _ _ get?_put_storedRecord
    · exact writable id held ((get?_put_storedRecord_of_ne different).trans found)
  · rintro ⟨own, others⟩ id held found
    by_cases same : id = recordId request.type project request.key
    · rw [same, get?_put_storedRecord] at found
      rw [← Option.some.inj found, storedRecord_value]
      exact own
    · rw [get?_put_storedRecord_of_ne same] at found
      exact others id held same found

private theorem settle_value_iff :
    (((store.put (storedRecord project store request)).settle
        (storedRecord project store request)).value = request.value) ↔
      (request.value.stored.isSome →
        (∀ id held, id ≠ recordId request.type project request.key →
          store.get? id = some held → held.value.stored.isSome) → request.value.Native) := by
  rw [← and_imp, ← saved_put_iff, LocalStore.settle]
  split_ifs with saved
  · obtain ⟨back, stored⟩ := Option.isSome_iff_exists.mp (saved_put_iff.mp saved).1
    have reads : (storedRecord project store request).reread =
        some { storedRecord project store request with value := back } := by
      rw [KnowledgeRecord.reread, storedRecord_value, stored, Option.map_some]
    rw [reads, Option.getD_some, PyValue.native_iff_stored, stored, Option.some.injEq]
    exact ⟨fun same _ => same, fun same => same saved⟩
  · rw [storedRecord_value]
    exact ⟨fun _ written => absurd written saved, fun _ => rfl⟩

end Stored

/-! ### When a store reads back -/

section Main

variable [DecidableEq ι] [LinearOrder C] [Zero C] (names : ι → String)

private theorem answer_after_store (state : Federation ι C) (project : ι) (request : StoreRequest C)
    (now : Int) :
    ((federation names).step
        ((federation names).step state (project, Call.storeKnowledge request)).2
        (project, Call.getKnowledge request.key request.type now)).1 =
      .ok (.found ((argmax KnowledgeRecord.confidence
          (((state.stores project).put
              (storedRecord (names project) (state.stores project) request)).records.values.filter
            (getQuery request.key request.type now).selects)).map
        ((state.stores project).put
          (storedRecord (names project) (state.stores project) request)).settle)) := by
  have stored : ((federation names).step state (project, Call.storeKnowledge request)).2.stores
      project = (state.stores project).put
        (storedRecord (names project) (state.stores project) request) :=
    step_stores_self names state project (.storeKnowledge request)
  have read := getKnowledge_saved (names project) ((state.stores project).put
    (storedRecord (names project) (state.stores project) request)) state.dir request.key
    request.type now
  change Except.map Reply.found (getKnowledge (names project) _ (state.dir.set _ _) request.key
    request.type now).result = _
  rw [stored, read]
  rfl

variable {names} in
omit [DecidableEq ι] [LinearOrder C] [Zero C] in
private theorem eq_storedRecord_of_own {state : Federation ι C}
    (identified : Everywhere KnowledgeRecord.Identified state) {project : ι}
    {request : StoreRequest C} {id : String} {best : KnowledgeRecord C}
    (found : ((state.stores project).put
      (storedRecord (names project) (state.stores project) request)).get? id = some best)
    (type : best.type = request.type) (key : best.key = request.key)
    (source : best.sourceProject = names project) :
    best = storedRecord (names project) (state.stores project) request := by
  by_cases same : id = recordId request.type (names project) request.key
  · rw [same, get?_put_storedRecord] at found
    exact (Option.some.inj found).symm
  · rw [get?_put_storedRecord_of_ne same] at found
    have named := identified.held project id best found
    rw [KnowledgeRecord.Identified, type, key, source, LocalStore.id_of_get? found] at named
    exact absurd named same

omit [DecidableEq ι] in
private theorem wins_iff {state : Federation ι C}
    (identified : Everywhere KnowledgeRecord.Identified state)
    {project : ι} {request : StoreRequest C} {now : Int} (fresh : request.Fresh now) :
    (argmax KnowledgeRecord.confidence
          (((state.stores project).put
              (storedRecord (names project) (state.stores project) request)).records.values.filter
            (getQuery request.key request.type now).selects) =
        some (storedRecord (names project) (state.stores project) request) ∧
      (storedRecord (names project) (state.stores project) request).key = request.key ∧
      (storedRecord (names project) (state.stores project) request).sourceProject =
        names project ∧
      (((state.stores project).put
          (storedRecord (names project) (state.stores project) request)).settle
        (storedRecord (names project) (state.stores project) request)).value = request.value) ↔
      RanksFirst names state project request now := by
  have type : (storedRecord (names project) (state.stores project) request).type =
      request.type := storedRecord_type (identified.held project)
  have own : ((storedRecord (names project) (state.stores project) request).key = request.key ∧
      (storedRecord (names project) (state.stores project) request).sourceProject =
        names project ∧
      (storedRecord (names project) (state.stores project) request).isExpired now = false) ↔ _ :=
    storedRecord_own_iff fresh
  rw [argmax_values_filter_iff _ _ get?_put_storedRecord
      (fun _ => eq_recordId_of_put_storedRecord), selects_getQuery,
    storedRecord_confidence, settle_value_iff]
  constructor
  · rintro ⟨⟨⟨_, _, positive, live⟩, rivals⟩, key, source, value⟩
    refine ⟨own.mp ⟨key, source, live⟩, value, positive, ?_⟩
    intro id rival different found sameType begins rivalLive
    by_cases selected : 0 ≤ rival.confidence
    · rw [← idxOf_put_storedRecord_lt_iff found]
      exact rivals id rival different ((get?_put_storedRecord_of_ne different).trans found)
        ((selects_getQuery ..).mpr ⟨sameType, begins, selected, rivalLive⟩)
    · exact Or.inl ((not_le.mp selected).trans_le positive)
  · rintro ⟨ownRecord, value, positive, rivals⟩
    obtain ⟨key, source, live⟩ := own.mpr ownRecord
    refine ⟨⟨⟨type, key ▸ List.prefix_rfl, positive, live⟩, ?_⟩, key, source, value⟩
    intro id rival different found passes
    obtain ⟨sameType, begins, _, rivalLive⟩ := (selects_getQuery ..).mp passes
    have before := (get?_put_storedRecord_of_ne different).symm.trans found
    rw [idxOf_put_storedRecord_lt_iff before]
    exact rivals id rival different before sameType begins rivalLive

/-- In every reachable state, a fresh store reads back exactly when its record
ranks first. -/
theorem readsBack_iff (calls : List (ι × Call C)) (project : ι) (request : StoreRequest C)
    (now : Int) (fresh : request.Fresh now) :
    ReadsBack names ((federation names).after Federation.initial calls) project request now ↔
      RanksFirst names ((federation names).after Federation.initial calls) project request now := by
  have identified := identified_after names calls
  rw [← wins_iff names identified fresh, ReadsBack]
  simp only [answer_after_store, Except.ok.injEq, Reply.found.injEq]
  constructor
  · rintro ⟨answer, found, key, source, value⟩
    obtain ⟨best, wins, rfl⟩ := Option.map_eq_some_iff.mp found
    obtain ⟨member, selected⟩ := List.mem_filter.mp (argmax_mem wins)
    obtain ⟨id, stored⟩ := (Dict.mem_values_iff _ best).mp member
    rw [LocalStore.settle_eq] at key source
    have same := eq_storedRecord_of_own identified stored
      ((selects_getQuery ..).mp selected).1 key source
    rw [same] at wins key source value
    exact ⟨wins, key, source, value⟩
  · rintro ⟨wins, key, source, value⟩
    refine ⟨_, by rw [wins, Option.map_some], ?_, ?_, value⟩
    · rw [LocalStore.settle_eq]
      exact key
    · rw [LocalStore.settle_eq]
      exact source

end Main

/-- `store_knowledge` of an integer with the default arguments. -/
def plainRequest (key : String) (value : Int) : StoreRequest Int :=
  ⟨key, .int value, .pattern, "system", [], 1, 0, 0, []⟩

/-- The first record of a project is read back. -/
theorem readsBack_first :
    ReadsBack (twoProjects "alpha" "beta")
      ((federation (twoProjects "alpha" "beta")).after Federation.initial []) false
      (plainRequest "k" 2) 0 := by
  apply (readsBack_iff (twoProjects "alpha" "beta") [] false (plainRequest "k" 2) 0
    (Or.inl rfl)).mpr
  refine ⟨?_, fun _ _ => ⟨.int 2, rfl, rfl⟩, by decide, ?_⟩
  · intro existing found
    cases found
  · intro id rival _ found
    cases found

/-- A key that begins with the one that is read answers instead of it. -/
theorem longer_key_is_read :
    ¬ ∀ calls project request now, request.Fresh now →
      ReadsBack (twoProjects "alpha" "beta")
        ((federation (twoProjects "alpha" "beta")).after Federation.initial calls) project
        (request : StoreRequest Int) now := by
  intro always
  obtain ⟨record, answer, key, _⟩ := always [(false, .storeKnowledge (plainRequest "key2" 1))] false
    (plainRequest "key" 2) 0 (Or.inl rfl)
  have read : record.key = "key2" := by
    cases answer
    rfl
  exact absurd (read.symm.trans key) (by decide)

end Swarmind.Orchestrator.FederatedMemory
