import Swarmind.Library.JsonReading
import Swarmind.MemoryRag.SemanticCache.Cache

/-!
Owns what calls of `set` leave in the stores: every row is that of a call, and what a
key holds in RuscaDB is from the last call for it.
-/

namespace Swarmind.MemoryRag.SemanticCache

open Swarmind.Library RuscaDBStore

def ownFields : List String :=
  ["prompt_hash", "response", "agent_role", "created_at", "ttl_seconds", "dataset_version",
    "verified", "ttl_sec", "cached_at"]

variable {R : Type} (cache : SemanticCache R)

/-- What is documented of the library functions and of the stores. -/
structure Documented : Prop where
  moments : ∀ moment, cache.fromIsoFormat (cache.isoFormat moment) = some moment
  stamped : ∀ moment, cache.isoFormat moment ≠ ""
  digests : ∀ text, ∀ digit ∈ (cache.sha256 text).toList, digit ∈ "0123456789abcdef".toList
  nonempty : ∀ text, cache.sha256 text ≠ ""
  /-- SQL compares a column with a text that has no quote in it. -/
  clauses : ∀ table, cache.backend = .lancedb table → ∀ promptHash agentRole row,
    '\'' ∉ promptHash.toList → '\'' ∉ agentRole.toList →
      table.holds (hashClause promptHash) row = row.promptHash.equals (.str promptHash) ∧
      (agentRole ≠ "*" → table.holds (exactClause promptHash agentRole) row =
        (row.promptHash.equals (.str promptHash) && row.role.equals (.str agentRole)))
  /-- RuscaDB reads the same times, and its tags are other fields. -/
  stamps : ∀ table, cache.backend = .ruscadb table →
    table.retrieval.fromIsoFormat = cache.fromIsoFormat
  tags : ∀ table, cache.backend = .ruscadb table → ∀ key ∈ ownFields, ∀ metadata,
    Dict.find (.str key) (table.tag metadata) = Dict.find (.str key) metadata

variable {cache} in
/-- An entry that is stored expires when its time to live has passed. -/
theorem Documented.expired (documented : cache.Documented) (now moment seconds : Int) :
    cache.expired now (.str (cache.isoFormat moment)) (.int seconds) =
      decide ((seconds : ℚ) < ((now - moment : Int) : ℚ) / 1000000) := by
  rw [SemanticCache.expired, isExpired]
  simp only [documented.stamped, if_false, documented.moments, numberOf]

/-! ### The row of a call -/

section Rows

variable {cache} (documented : cache.Documented) (call : SetCall) (dumped : String)

include documented

theorem find_rowOf {key : String} (own : key ∈ ownFields) :
    Dict.find (.str key) (cache.rowOf call dumped).metadata =
      Dict.find (.str key) (cache.entryMetadata call dumped) := by
  unfold rowOf
  cases backend : cache.backend with
  | ruscadb table => exact documented.tags table backend key own _
  | memory numpy => rfl
  | lancedb table => rfl

theorem promptHash_rowOf :
    (cache.rowOf call dumped).promptHash = .str (cache.cacheKey call.prompt) := by
  rw [Row.promptHash, RuscaDBStore.get, find_rowOf documented call dumped (by simp [ownFields])]
  simp [entryMetadata, Dict.find]

theorem role_rowOf : (cache.rowOf call dumped).role = .str call.agentRole := by
  rw [Row.role, getOr, find_rowOf documented call dumped (by simp [ownFields])]
  simp [entryMetadata, Dict.find]

theorem response_rowOf : (cache.rowOf call dumped).response = .str call.response := by
  rw [Row.response, getOr, find_rowOf documented call dumped (by simp [ownFields])]
  simp [entryMetadata, Dict.find]

theorem pending_rowOf : (cache.rowOf call dumped).pending = isPending call.response := by
  rw [Row.pending, response_rowOf documented]

theorem rowExpired_rowOf (now : Int) :
    cache.rowExpired now (cache.rowOf call dumped) =
      cache.expired now (.str (cache.isoFormat call.now)) (.int (cache.ttlOf call)) := by
  rw [rowExpired, getOr, getOr, find_rowOf documented call dumped (by simp [ownFields]),
    find_rowOf documented call dumped (by simp [ownFields])]
  simp [entryMetadata, Dict.find]

end Rows

/-! ### Calls -/

/-- The metadata of a call that is inserted, as JSON. -/
def inserts (call : SetCall) : Option String :=
  if call.accepted then (jsonDumps (.dict call.metadata)).toOption else none

variable [Field R] [LinearOrder R]

theorem set_snd (call : SetCall) (contents : Contents R) :
    (cache.set call contents).2 =
      match inserts call with
      | none => cache.tryRemovePending (cache.cacheKey call.prompt) contents
      | some dumped =>
        let cleared := cache.tryRemovePending (cache.cacheKey call.prompt) contents
        let inserted := { cleared with rows := cleared.rows ++ [cache.rowOf call dumped] }
        match cache.persist call cleared.keyed with
        | some keyed => cache.maybeSweep call.now { inserted with keyed := keyed }
        | none => inserted := by
  unfold set inserts
  cases jsonDumps (.dict call.metadata) with
  | error raised => cases call.accepted <;> rfl
  | ok dumped =>
    cases call.accepted with
    | false => rfl
    | true =>
      simp only [if_true, Except.toOption]
      cases cache.persist call _ <;> rfl

/-! ### Rows after calls -/

omit [LinearOrder R] in
private theorem rows_tryRemovePending (promptHash : String) (contents : Contents R) :
    (cache.tryRemovePending promptHash contents).rows.Sublist contents.rows := by
  unfold tryRemovePending
  cases cache.backend with
  | ruscadb table => exact List.Sublist.refl _
  | memory numpy => exact List.eraseP_sublist
  | lancedb table =>
    dsimp only
    split_ifs
    · exact List.filter_sublist
    · exact List.Sublist.refl _

omit [LinearOrder R] [Field R] in
private theorem foldl_delete_sublist (table : LanceTable R) (doomed rows : List (Row R)) :
    (doomed.foldl (fun rows row => table.delete (hashClause row.promptHash.text) rows)
      rows).Sublist rows := by
  induction doomed generalizing rows with
  | nil => exact List.Sublist.refl _
  | cons row rest ih =>
    exact (ih _).trans List.filter_sublist

private theorem rows_clearExpired (now : Int) (contents : Contents R) :
    (cache.clearExpired now contents).rows.Sublist contents.rows := by
  unfold clearExpired
  cases cache.backend with
  | ruscadb table => exact List.filter_sublist
  | memory numpy => exact List.filter_sublist
  | lancedb table => exact foldl_delete_sublist table _ _

private theorem rows_maybeSweep (now : Int) (contents : Contents R) :
    (cache.maybeSweep now contents).rows.Sublist contents.rows := by
  unfold maybeSweep
  split_ifs
  · exact List.Sublist.refl _
  · exact cache.rows_clearExpired now _

private theorem rows_set {call : SetCall} {contents : Contents R} {row : Row R}
    (held : row ∈ (cache.set call contents).2.rows) :
    row ∈ contents.rows ∨ ∃ dumped, inserts call = some dumped ∧ row = cache.rowOf call dumped := by
  have cleared := (cache.rows_tryRemovePending (cache.cacheKey call.prompt) contents).subset
  rw [set_snd] at held
  cases inserted : inserts call with
  | none =>
    rw [inserted] at held
    exact .inl (cleared held)
  | some dumped =>
    simp only [inserted] at held
    have among : row ∈ (cache.tryRemovePending (cache.cacheKey call.prompt) contents).rows ++
        [cache.rowOf call dumped] := by
      split at held
      · exact (cache.rows_maybeSweep _ _).subset held
      · exact held
    rcases List.mem_append.mp among with old | new
    · exact .inl (cleared old)
    · exact .inr ⟨dumped, rfl, List.mem_singleton.mp new⟩

theorem after_append (calls : List SetCall) (call : SetCall) :
    cache.after (calls ++ [call]) = (cache.set call (cache.after calls)).2 := by
  rw [after, List.foldl_append]
  rfl

/-- Every row stands for a set of the run. -/
theorem rows_after {calls : List SetCall} {row : Row R} (held : row ∈ (cache.after calls).rows) :
    ∃ call ∈ calls, ∃ dumped, inserts call = some dumped ∧ row = cache.rowOf call dumped := by
  induction calls using List.reverseRecOn with
  | nil => exact absurd held List.not_mem_nil
  | append_singleton calls call ih =>
    rw [after_append] at held
    rcases cache.rows_set held with old | ⟨dumped, inserted, rfl⟩
    · obtain ⟨earlier, among, dumped, inserted, rfl⟩ := ih old
      exact ⟨earlier, List.mem_append_left _ among, dumped, inserted, rfl⟩
    · exact ⟨call, List.mem_append_right _ List.mem_cons_self, dumped, inserted, rfl⟩

/-! ### Keyed rows after calls -/

def keyedRowOf (call : SetCall) : KeyedRow :=
  ⟨cache.cacheKey call.prompt, String.ofList (Json.str call.response).encode,
    cache.keyedMetadata call⟩

def lastStored (calls : List SetCall) (key : String) : Option SetCall :=
  (calls.filter fun call => (inserts call).isSome && cache.cacheKey call.prompt = key).getLast?

omit [Field R] [LinearOrder R] in
private theorem lastStored_append (calls : List SetCall) (call : SetCall) (key : String) :
    cache.lastStored (calls ++ [call]) key =
      if (inserts call).isSome ∧ cache.cacheKey call.prompt = key then some call
      else cache.lastStored calls key := by
  unfold lastStored
  rw [List.filter_append]
  by_cases stored : (inserts call).isSome ∧ cache.cacheKey call.prompt = key
  · rw [if_pos stored, List.filter_cons_of_pos (by simpa using stored), List.filter_nil,
      List.getLast?_concat]
  · rw [if_neg stored, List.filter_cons_of_neg (by simpa using stored), List.filter_nil,
      List.append_nil]

theorem jsonLoads_str (text : String) :
    jsonLoads (String.ofList (Json.str text).encode) = .ok (.str text) := by
  have textual : (Json.str text).Textual := by
    rw [Json.Textual] <;> simp
  rw [jsonLoads, String.toList_ofList, Json.decode_encode textual]
  rfl

private theorem cacheSet_str {key : String} (nonblank : isBlank key = false) (value : String)
    (metadata : Members) (keyed : List KeyedRow) :
    RuscaTable.cacheSet key (.str value) metadata keyed =
      some ((keyed.filter fun row => row.key ≠ key) ++
        [⟨key, String.ofList (Json.str value).encode, metadata⟩]) := by
  rw [RuscaTable.cacheSet, nonblank]
  rfl

section Keyed

variable {cache} (documented : cache.Documented)

omit [Field R] [LinearOrder R] in
include documented in
private theorem isBlank_cacheKey (prompt : String) : isBlank (cache.cacheKey prompt) = false := by
  have digits := documented.digests s!"{cache.datasetVersion}\n{prompt}"
  have some_digit := documented.nonempty s!"{cache.datasetVersion}\n{prompt}"
  rw [isBlank, Bool.eq_false_iff]
  intro blank
  rcases text : (cache.cacheKey prompt).toList with _ | ⟨first, rest⟩
  · exact some_digit (String.toList_inj.mp (text.trans rfl))
  · rw [text, List.all_cons, Bool.and_eq_true] at blank
    have digit := digits first (by
      change first ∈ (cache.cacheKey prompt).toList
      rw [text]
      exact List.mem_cons_self)
    have table : "0123456789abcdef".toList.all (fun digit => !isSpace digit) = true := by
      decide +kernel
    have visible := List.all_eq_true.mp table first digit
    rw [blank.1] at visible
    exact Bool.noConfusion visible

omit [LinearOrder R] in
private theorem keyed_tryRemovePending (promptHash : String) (contents : Contents R) :
    (cache.tryRemovePending promptHash contents).keyed = contents.keyed := by
  unfold tryRemovePending
  cases cache.backend with
  | ruscadb table => rfl
  | memory numpy => rfl
  | lancedb table =>
    dsimp only
    split_ifs <;> rfl

private theorem keyed_maybeSweep (now : Int) (contents : Contents R) :
    (cache.maybeSweep now contents).keyed.Sublist contents.keyed := by
  unfold maybeSweep clearExpired
  split_ifs
  · exact List.Sublist.refl _
  · cases cache.backend with
    | ruscadb table => exact List.filter_sublist
    | memory numpy => exact List.Sublist.refl _
    | lancedb table => exact List.Sublist.refl _

include documented

omit [Field R] [LinearOrder R] in
theorem persist_ruscadb {table : RuscaTable R} (ruscadb : cache.backend = .ruscadb table)
    (call : SetCall) (keyed : List KeyedRow) :
    cache.persist call keyed =
      some ((keyed.filter fun row => row.key ≠ cache.cacheKey call.prompt) ++
        [cache.keyedRowOf call]) := by
  rw [persist, ruscadb]
  exact cacheSet_str (isBlank_cacheKey documented call.prompt) _ _ _

/-- Every keyed row stands for a set of the run. -/
theorem keyed_after {table : RuscaTable R} (ruscadb : cache.backend = .ruscadb table)
    {calls : List SetCall} {row : KeyedRow} (held : row ∈ (cache.after calls).keyed) :
    ∃ call, cache.lastStored calls row.key = some call ∧ row = cache.keyedRowOf call := by
  induction calls using List.reverseRecOn with
  | nil => exact absurd held List.not_mem_nil
  | append_singleton calls call ih =>
    rw [after_append, set_snd] at held
    rw [lastStored_append]
    cases inserted : inserts call with
    | none =>
      simp only [inserted] at held
      rw [keyed_tryRemovePending] at held
      exact ih held
    | some dumped =>
      simp only [inserted, persist_ruscadb documented ruscadb] at held
      have among := (keyed_maybeSweep _ _).subset held
      rcases List.mem_append.mp among with old | new
      · obtain ⟨kept, other⟩ := List.mem_filter.mp old
        rw [if_neg fun same => of_decide_eq_true other same.2.symm]
        rw [keyed_tryRemovePending] at kept
        exact ih kept
      · obtain rfl := List.mem_singleton.mp new
        exact ⟨call, if_pos ⟨rfl, rfl⟩, rfl⟩

end Keyed

end Swarmind.MemoryRag.SemanticCache
