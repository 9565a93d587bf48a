import Swarmind.Library.Alignment
import Swarmind.MemoryRag.SemanticCache.Runs
import Swarmind.MemoryRag.SemanticCache.Threshold

/-!
Owns the isolation of roles: whose responses `get` gives to a role, and which
responses have a part in it. Two runs that differ in the responses of other roles
only keep their stores aligned, unless one of these responses is pending or is what
RuscaDB holds under the key.
-/

namespace Swarmind.MemoryRag.SemanticCache

open Swarmind.Library RuscaDBStore

variable {R : Type} (cache : SemanticCache R)

/-! ### Conditions -/

/-- The calls are the same, but for a response that the role does not see. -/
def SameVisible (agentRole : String) (call other : SetCall) : Prop :=
  ∃ response, other = { call with response := response } ∧
    (visible agentRole call.agentRole = true → response = call.response)

/-- No prompt is set again while a response of another role for it is pending. -/
def Settled (agentRole : String) (calls : List SetCall) : Prop :=
  calls.Pairwise fun earlier later =>
    visible agentRole earlier.agentRole = false →
      cache.cacheKey earlier.prompt = cache.cacheKey later.prompt →
        isPending earlier.response = false

/-- RuscaDB answers with the response of a call. -/
def counts [Field R] [LinearOrder R] (table : RuscaTable R) (now : Int) (call : SetCall) : Bool :=
  !table.overdue now (.int (cache.ttlOf call)) (.str (cache.isoFormat call.now)) &&
    !(cache.failClosed && !(verifiedOf call).isTruthy)

/-- Where RuscaDB answers with the last call for the prompt, the role sees that call. -/
def AnswersOwn [Field R] [LinearOrder R] (prompt agentRole : String) (now : Int)
    (calls : List SetCall) : Prop :=
  ∀ table, cache.backend = .ruscadb table →
    ∀ last, cache.lastStored calls (cache.cacheKey prompt) = some last →
      cache.counts table now last = true → visible agentRole last.agentRole = true

/-- With the other stores no set meets a pending response of another role, and LanceDB is
asked for a role without quotes. -/
def Undisturbed (agentRole : String) (calls : List SetCall) : Prop :=
  match cache.backend with
  | .memory _ => cache.Settled agentRole calls
  | .lancedb _ => cache.Settled agentRole calls ∧ '\'' ∉ agentRole.toList
  | .ruscadb _ => True

/-! ### Two runs -/

def RowPair (agentRole : String) (row other : Row R) : Prop :=
  ∃ call otherCall dumped, SameVisible agentRole call otherCall ∧
    row = cache.rowOf call dumped ∧ other = cache.rowOf otherCall dumped

def KeyedPair (agentRole : String) (row other : KeyedRow) : Prop :=
  ∃ call otherCall, SameVisible agentRole call otherCall ∧
    row = cache.keyedRowOf call ∧ other = cache.keyedRowOf otherCall

/-- Contents that differ in responses of other roles only. -/
structure Aligned (agentRole : String) (contents others : Contents R) : Prop where
  rows : List.Forall₂ (cache.RowPair agentRole) contents.rows others.rows
  keyed : List.Forall₂ (cache.KeyedPair agentRole) contents.keyed others.keyed
  sweeps : contents.setsSinceSweep = others.setsSinceSweep

variable {cache} {agentRole : String}

theorem KeyedPair.key {row other : KeyedRow} (pair : cache.KeyedPair agentRole row other) :
    row.key = other.key := by
  obtain ⟨call, _, ⟨response, rfl, -⟩, rfl, rfl⟩ := pair
  rfl

theorem KeyedPair.metadata {row other : KeyedRow} (pair : cache.KeyedPair agentRole row other) :
    row.metadata = other.metadata := by
  obtain ⟨call, _, ⟨response, rfl, -⟩, rfl, rfl⟩ := pair
  rfl

section Pairs

variable {row other : Row R} (pair : cache.RowPair agentRole row other)

include pair

theorem RowPair.id : row.id = other.id := by
  obtain ⟨call, _, dumped, ⟨response, rfl, -⟩, rfl, rfl⟩ := pair
  rfl

theorem RowPair.vector : row.vector = other.vector := by
  obtain ⟨call, _, dumped, ⟨response, rfl, -⟩, rfl, rfl⟩ := pair
  rfl

theorem RowPair.createdAt : row.createdAt = other.createdAt := by
  obtain ⟨call, _, dumped, ⟨response, rfl, -⟩, rfl, rfl⟩ := pair
  rfl

variable (documented : cache.Documented)

include documented

theorem RowPair.find (key : String) (own : key ∈ ownFields) (field : key ≠ "response") :
    Dict.find (.str key) row.metadata = Dict.find (.str key) other.metadata := by
  obtain ⟨call, _, dumped, ⟨response, rfl, -⟩, rfl, rfl⟩ := pair
  rw [find_rowOf documented _ _ own, find_rowOf documented _ _ own]
  have different : ¬"response" = key := fun same => field same.symm
  simp only [entryMetadata, Dict.find, PyKey.str.injEq, different, if_false]
  rfl

theorem RowPair.promptHash : row.promptHash = other.promptHash := by
  rw [Row.promptHash, Row.promptHash, RuscaDBStore.get, RuscaDBStore.get,
    pair.find documented "prompt_hash" (by simp [ownFields]) (by decide)]

theorem RowPair.role : row.role = other.role := by
  rw [Row.role, Row.role, getOr, getOr,
    pair.find documented "agent_role" (by simp [ownFields]) (by decide)]

theorem RowPair.rowExpired (now : Int) : cache.rowExpired now row = cache.rowExpired now other := by
  rw [SemanticCache.rowExpired, SemanticCache.rowExpired, getOr, getOr, getOr, getOr,
    pair.find documented "created_at" (by simp [ownFields]) (by decide),
    pair.find documented "ttl_seconds" (by simp [ownFields]) (by decide)]

/-- What the role may see is the same in both runs. -/
theorem RowPair.eq_of_admits (admitted : admits agentRole row.role = true) : row = other := by
  obtain ⟨call, _, dumped, ⟨response, rfl, same⟩, rfl, rfl⟩ := pair
  rw [role_rowOf documented, admits_str] at admitted
  rw [same admitted]

end Pairs

/-! ### What is served was stored for the role -/

variable [Field R] [LinearOrder R]

/-- Roles are isolated in a lookup after calls: the response is that of a call for the
role, and calls that differ in what the role does not see give the same one. -/
structure Isolated (cache : SemanticCache R) (prompt agentRole : String) (threshold : Option R)
    (now : Int) (calls : List SetCall) : Prop where
  own : ∀ response,
    (cache.get prompt agentRole threshold now (cache.after calls)).1 = some response →
      ∃ call ∈ calls, response = .str call.response ∧ visible agentRole call.agentRole = true
  uninfluenced : ∀ others, List.Forall₂ (SameVisible agentRole) calls others →
    cache.Undisturbed agentRole calls → cache.Undisturbed agentRole others →
      (cache.get prompt agentRole threshold now (cache.after others)).1 =
        (cache.get prompt agentRole threshold now (cache.after calls)).1

variable {calls : List SetCall}

private theorem call_of_admitted (documented : cache.Documented) {row : Row R} {agentRole : String}
    (held : row ∈ (cache.after calls).rows) (admitted : admits agentRole row.role = true) :
    ∃ call ∈ calls, row.response = .str call.response ∧
      visible agentRole call.agentRole = true := by
  obtain ⟨call, among, dumped, -, rfl⟩ := cache.rows_after held
  rw [role_rowOf documented, admits_str] at admitted
  exact ⟨call, among, response_rowOf documented call dumped, admitted⟩

private theorem row_of_searchExact {now : Int} {promptHash agentRole : String}
    {contents : Contents R}
    {entry : CacheEntry} (plain : ∀ table, cache.backend ≠ .ruscadb table)
    (found : cache.searchExact now promptHash agentRole contents = some entry) :
    ∃ row ∈ contents.rows, admits agentRole row.role = true ∧ entry.response = row.response := by
  have of_entry {row : Row R} (inside : row ∈ contents.rows)
      (made : entryOf agentRole promptHash row = some entry) :
      ∃ row ∈ contents.rows, admits agentRole row.role = true ∧
        entry.response = row.response := by
    unfold entryOf at made
    split_ifs at made with shown
    rw [Bool.and_eq_true] at shown
    obtain rfl := Option.some.inj made
    exact ⟨row, inside, shown.1, rfl⟩
  unfold searchExact at found
  split at found
  · exact absurd ‹_› (plain _)
  · obtain ⟨row, first, made⟩ := Option.bind_eq_some_iff.mp found
    have inside := List.mem_of_mem_take (List.mem_of_mem_head? first)
    exact of_entry (List.mem_of_mem_filter (mem_of_mem_pick inside)) made
  · obtain ⟨row, first, made⟩ := Option.bind_eq_some_iff.mp found
    exact of_entry (List.mem_of_find?_eq_some first) made

theorem call_of_exactEntry (documented : cache.Documented) {table : RuscaTable R}
    (ruscadb : cache.backend = .ruscadb table) {prompt agentRole : String} {now : Int}
    {entry : CacheEntry}
    (found : cache.exactEntry prompt agentRole now (cache.after calls) = some entry) :
    ∃ call, cache.lastStored calls (cache.cacheKey prompt) = some call ∧
      cache.counts table now call = true ∧ entry.response = .str call.response := by
  obtain ⟨exact, policy⟩ := Option.filter_eq_some_iff.mp found
  rw [searchExact, ruscadb] at exact
  obtain ⟨stored, got, made⟩ := Option.bind_eq_some_iff.mp exact
  obtain ⟨row, first, read⟩ := Option.bind_eq_some_iff.mp got
  obtain ⟨call, last, rfl⟩ := keyed_after documented ruscadb (List.mem_of_find?_eq_some first)
  have key : (cache.keyedRowOf call).key = cache.cacheKey prompt := by
    simpa using List.find?_some first
  have value : ((jsonLoads (cache.keyedRowOf call).text).toOption).getD
      (.str (cache.keyedRowOf call).text) = .str call.response := by
    rw [keyedRowOf, jsonLoads_str]
    rfl
  rw [value] at read
  split_ifs at read with overdue
  obtain rfl := Option.some.inj read
  rw [Bool.not_eq_true] at overdue
  dsimp only at made
  split_ifs at made with blank
  obtain rfl := Option.some.inj made
  refine ⟨call, ?_, ?_, rfl⟩
  · rw [← key]
    exact last
  · rw [counts, Bool.and_eq_true]
    exact ⟨by rw [Bool.not_eq_true']; exact overdue, policy⟩

/-- RuscaDB answers with what stands under the key, unless it is empty. -/
theorem get_of_keyed (documented : cache.Documented) {table : RuscaTable R}
    (ruscadb : cache.backend = .ruscadb table) {prompt agentRole : String} {threshold : Option R}
    {now : Int} {contents : Contents R} {call : SetCall}
    (first : contents.keyed.find? (fun row => row.key = cache.cacheKey prompt) =
      some (cache.keyedRowOf call))
    (answers : cache.counts table now call = true) (nonempty : call.response ≠ "")
    (sign : 0 ≤ cache.defaultTtl) :
    (cache.get prompt agentRole threshold now contents).1 = some (.str call.response) := by
  rw [counts, Bool.and_eq_true, Bool.not_eq_true'] at answers
  have value : ((jsonLoads (cache.keyedRowOf call).text).toOption).getD
      (.str (cache.keyedRowOf call).text) = .str call.response := by
    rw [keyedRowOf, jsonLoads_str]
    rfl
  have due : table.overdue now (RuscaDBStore.get (cache.keyedRowOf call).metadata "ttl_sec")
      (RuscaDBStore.get (cache.keyedRowOf call).metadata "cached_at") = false := answers.1
  have exact : cache.searchExact now (cache.cacheKey prompt) agentRole contents =
      some { promptHash := .str (cache.cacheKey prompt), response := .str call.response,
             createdAt := .str (cache.isoFormat now), ttlSeconds := .int cache.defaultTtl,
             hitCount := .int 1, verified := verifiedOf call } := by
    rw [searchExact, ruscadb]
    simp only [searchExactPersistent, RuscaTable.cacheGetMeta, first, Option.bind_some, due, value,
      Bool.false_eq_true, if_false, nonempty]
    rfl
  have fresh : cache.expired now (.str (cache.isoFormat now)) (.int cache.defaultTtl) = false := by
    rw [documented.expired, sub_self, decide_eq_false_iff_not, not_lt]
    simpa using sign
  rw [get, exactEntry, exact, Option.filter_some, if_pos answers.2]
  simp only [fresh, Bool.false_eq_true, if_false]

/-- The response that a role is given is that of a call for the role. -/
theorem visible_of_get (documented : cache.Documented) {prompt agentRole : String}
    {threshold : Option R} {now : Int}
    (own : cache.AnswersOwn prompt agentRole now calls) {response : PyValue}
    (given : (cache.get prompt agentRole threshold now (cache.after calls)).1 = some response) :
    ∃ call ∈ calls, response = .str call.response ∧ visible agentRole call.agentRole = true := by
  cases searches : cache.searched prompt agentRole now (cache.after calls) with
  | some found =>
    rw [cache.get_of_searched threshold searches] at given
    obtain ⟨result, serves, rfl⟩ := Option.map_eq_some_iff.mp given
    have inside := cache.rows_searched searches
      (cache.row_of_mem_search (cache.of_served serves).1)
    have allowed := List.find?_some serves
    simp only [fresh, servable, Bool.and_eq_true] at allowed
    exact call_of_admitted documented inside allowed.2.1.1.2
  | none =>
    obtain ⟨entry, exact, answer⟩ := cache.get_of_not_searched threshold searches
    obtain rfl := Option.some.inj (answer.symm.trans given)
    have found := (Option.filter_eq_some_iff.mp exact).1
    have of_row (plain : ∀ table, cache.backend ≠ .ruscadb table) :
        ∃ call ∈ calls, entry.response = .str call.response ∧
          visible agentRole call.agentRole = true := by
      obtain ⟨row, held, admitted, same⟩ := row_of_searchExact plain found
      rw [same]
      exact call_of_admitted documented held admitted
    cases backend : cache.backend with
    | memory numpy => exact of_row fun table => by simp [backend]
    | lancedb table => exact of_row fun table => by simp [backend]
    | ruscadb table =>
      obtain ⟨call, last, answers, response⟩ := call_of_exactEntry documented backend exact
      have among := List.mem_of_mem_getLast? (Option.mem_def.mpr last)
      exact ⟨call, List.mem_of_mem_filter among, response, own table backend call last answers⟩

/-! ### Operations on aligned contents -/

omit [Field R] [LinearOrder R] in
theorem aligned_table_search (table : LanceTable R) (query : List R) (limit : Nat)
    {rows others : List (Row R)} (aligned : List.Forall₂ (cache.RowPair agentRole) rows others) :
    List.Forall₂ (cache.RowPair agentRole) (table.search query limit rows)
      (table.search query limit others) := by
  have distances : rows.map (fun row => table.distance query row.vector) =
      others.map (fun row => table.distance query row.vector) :=
    aligned_map_eq (fun row other pair => by rw [pair.vector]) aligned
  rw [LanceTable.search, LanceTable.search, distances]
  exact List.forall₂_take limit (aligned_positions aligned _)

omit [LinearOrder R] in
private theorem aligned_first {table : LanceTable R} {clause : String} {rows others : List (Row R)}
    (aligned : List.Forall₂ (cache.RowPair agentRole) rows others)
    (alike : ∀ row other, cache.RowPair agentRole row other →
      table.holds clause row = table.holds clause other) :
    (table.first clause rows = none ∧ table.first clause others = none) ∨
      ∃ row other, table.first clause rows = some row ∧ table.first clause others = some other ∧
        cache.RowPair agentRole row other :=
  aligned_head? (aligned_table_search table _ _ (aligned_filter alike aligned))

omit [LinearOrder R] in
private theorem mem_of_first {table : LanceTable R} {clause : String} {rows : List (Row R)}
    {row : Row R}
    (found : table.first clause rows = some row) : row ∈ rows ∧ table.holds clause row = true :=
  List.mem_filter.mp (mem_of_mem_pick (List.mem_of_mem_take (List.mem_of_mem_head? found)))

section Operations

variable (documented : cache.Documented)

include documented

omit [Field R] [LinearOrder R] in
theorem quote_not_mem_cacheKey (prompt : String) : '\'' ∉ (cache.cacheKey prompt).toList := by
  intro quote
  have hexadecimal := documented.digests _ _ quote
  exact absurd hexadecimal (by decide +kernel)

variable {table : LanceTable R}

omit [Field R] [LinearOrder R] in
private theorem holds_hashClause (lancedb : cache.backend = .lancedb table)
    (prompt : String) (row : Row R) :
    table.holds (hashClause (cache.cacheKey prompt)) row =
      row.promptHash.equals (.str (cache.cacheKey prompt)) :=
  (documented.clauses table lancedb _ "*" row (quote_not_mem_cacheKey documented prompt)
    (by decide)).1

omit [Field R] [LinearOrder R] in
private theorem aligned_delete (lancedb : cache.backend = .lancedb table) (prompt : String)
    {rows others : List (Row R)} (aligned : List.Forall₂ (cache.RowPair agentRole) rows others) :
    List.Forall₂ (cache.RowPair agentRole)
      (table.delete (hashClause (cache.cacheKey prompt)) rows)
      (table.delete (hashClause (cache.cacheKey prompt)) others) :=
  aligned_filter (fun row other pair => by
    rw [holds_hashClause documented lancedb, holds_hashClause documented lancedb,
      pair.promptHash documented]) aligned

/-- No row of another role is pending under the key. -/
def Quiet (agentRole key : String) (contents : Contents R) : Prop :=
  ∀ row ∈ contents.rows, row.promptHash.equals (.str key) = true →
    admits agentRole row.role = false → row.pending = false

variable {contents others : Contents R}

omit [Field R] [LinearOrder R] in
private theorem pending_alike {key : String} {row other : Row R}
    (quiet : Quiet agentRole key contents)
    (quietOthers : Quiet agentRole key others) (held : row ∈ contents.rows)
    (otherHeld : other ∈ others.rows) (pair : cache.RowPair agentRole row other)
    (same : row.promptHash.equals (.str key) = true) : row.pending = other.pending := by
  cases admitted : admits agentRole row.role with
  | true => rw [pair.eq_of_admits documented admitted]
  | false =>
    rw [quiet row held same admitted, quietOthers other otherHeld
      (by rw [← pair.promptHash documented]; exact same)
      (by rw [← pair.role documented]; exact admitted)]

omit [LinearOrder R] in
private theorem aligned_tryRemovePending (prompt : String)
    (aligned : cache.Aligned agentRole contents others)
    (quiet : Quiet agentRole (cache.cacheKey prompt) contents)
    (quietOthers : Quiet agentRole (cache.cacheKey prompt) others) :
    cache.Aligned agentRole (cache.tryRemovePending (cache.cacheKey prompt) contents)
      (cache.tryRemovePending (cache.cacheKey prompt) others) := by
  unfold tryRemovePending
  cases backend : cache.backend with
  | ruscadb table => exact aligned
  | memory numpy =>
    refine ⟨?_, aligned.keyed, aligned.sweeps⟩
    refine aligned_eraseP aligned.rows fun row held other otherHeld pair => ?_
    rw [← pair.promptHash documented]
    cases same : row.promptHash.equals (.str (cache.cacheKey prompt)) with
    | false => rfl
    | true =>
      rw [pending_alike documented quiet quietOthers held otherHeld pair same]
  | lancedb table =>
    have clause := fun row : Row R => holds_hashClause documented backend prompt row
    have alike (row other : Row R) (pair : cache.RowPair agentRole row other) :
        table.holds (hashClause (cache.cacheKey prompt)) row =
          table.holds (hashClause (cache.cacheKey prompt)) other := by
      rw [clause, clause, pair.promptHash documented]
    have same : (table.first (hashClause (cache.cacheKey prompt)) contents.rows).any Row.pending =
        (table.first (hashClause (cache.cacheKey prompt)) others.rows).any Row.pending := by
      rcases aligned_first aligned.rows alike with
        ⟨found, otherFound⟩ | ⟨row, other, found, otherFound, pair⟩
      · rw [found, otherFound]
      · rw [found, otherFound]
        obtain ⟨held, meets⟩ := mem_of_first found
        rw [clause] at meets
        exact pending_alike documented quiet quietOthers held (mem_of_first otherFound).1 pair
          meets
    dsimp only
    rw [same]
    split_ifs
    · exact ⟨aligned_delete documented backend prompt aligned.rows, aligned.keyed, aligned.sweeps⟩
    · exact aligned

omit [Field R] [LinearOrder R] in
private theorem aligned_foldl_delete (lancedb : cache.backend = .lancedb table)
    {doomed doomedOthers rows others : List (Row R)}
    (pairs : List.Forall₂ (cache.RowPair agentRole) doomed doomedOthers)
    (aligned : List.Forall₂ (cache.RowPair agentRole) rows others) :
    List.Forall₂ (cache.RowPair agentRole)
      (doomed.foldl (fun rows row => table.delete (hashClause row.promptHash.text) rows) rows)
      (doomedOthers.foldl (fun rows row => table.delete (hashClause row.promptHash.text) rows)
        others) := by
  induction pairs generalizing rows others with
  | nil => exact aligned
  | @cons row other _ _ pair _ ih =>
    refine ih ?_
    dsimp only
    rw [← pair.promptHash documented]
    obtain ⟨call, otherCall, dumped, -, rfl, -⟩ := pair
    rw [promptHash_rowOf documented]
    exact aligned_delete documented lancedb call.prompt aligned

omit [Field R] [LinearOrder R] documented in
private theorem aligned_listedIds (table : RuscaTable R)
    (aligned : cache.Aligned agentRole contents others) :
    table.listedIds contents = table.listedIds others := by
  unfold RuscaTable.listedIds
  rw [aligned_map_eq (fun row other pair => pair.id) aligned.rows,
    aligned_map_eq (fun row other pair => pair.key) aligned.keyed]

omit [Field R] [LinearOrder R] in
private theorem aligned_vectorIdsOf (table : RuscaTable R) (keys : List String)
    (aligned : cache.Aligned agentRole contents others) :
    table.vectorIdsOf keys contents = table.vectorIdsOf keys others := by
  unfold RuscaTable.vectorIdsOf
  rw [aligned_listedIds table aligned]
  refine aligned_map_eq (fun row other pair => pair.id) (aligned_filter ?_ aligned.rows)
  intro row other pair
  rw [pair.id, pair.promptHash documented]

omit [Field R] [LinearOrder R] documented in
private theorem aligned_deleteRows (keys vectorIds : List String)
    (aligned : cache.Aligned agentRole contents others) :
    cache.Aligned agentRole (RuscaTable.deleteRows keys vectorIds contents)
      (RuscaTable.deleteRows keys vectorIds others) where
  rows := aligned_filter (fun row other pair => by rw [pair.id]) aligned.rows
  keyed := aligned_filter (fun row other pair => by rw [pair.key]) aligned.keyed
  sweeps := aligned.sweeps

private theorem aligned_purgeExpired (table : RuscaTable R) (now : Int) (defaultTtl : Int)
    (aligned : cache.Aligned agentRole contents others) :
    cache.Aligned agentRole (table.purgeExpired now defaultTtl contents)
      (table.purgeExpired now defaultTtl others) := by
  have keys := aligned_map_eq (fun row other pair => pair.key) (aligned_filter
    (p := fun row => table.overdue now (getOr row.metadata "ttl_sec" (.int defaultTtl))
      ((RuscaDBStore.get row.metadata "cached_at").orElse .none))
    (q := fun row => table.overdue now (getOr row.metadata "ttl_sec" (.int defaultTtl))
      ((RuscaDBStore.get row.metadata "cached_at").orElse .none))
    (fun row other (pair : cache.KeyedPair agentRole row other) => by rw [pair.metadata])
    aligned.keyed)
  have ids := aligned_map_eq (fun row other pair => pair.id) (aligned_filter
    (p := fun row => table.overdue now (getOr row.metadata "ttl_sec" (.int defaultTtl))
      ((RuscaDBStore.get row.metadata "cached_at").orElse (.str row.createdAt)))
    (q := fun row => table.overdue now (getOr row.metadata "ttl_sec" (.int defaultTtl))
      ((RuscaDBStore.get row.metadata "cached_at").orElse (.str row.createdAt)))
    (fun row other (pair : cache.RowPair agentRole row other) => by
      rw [getOr, getOr, RuscaDBStore.get, RuscaDBStore.get,
        pair.find documented "ttl_sec" (by simp [ownFields]) (by decide),
        pair.find documented "cached_at" (by simp [ownFields]) (by decide), pair.createdAt])
    aligned.rows)
  unfold RuscaTable.purgeExpired
  dsimp only
  rw [keys, ids, aligned_listedIds table aligned, aligned_vectorIdsOf documented table _ aligned]
  exact aligned_deleteRows _ _ aligned

private theorem aligned_clearExpired (now : Int)
    (aligned : cache.Aligned agentRole contents others) :
    cache.Aligned agentRole (cache.clearExpired now contents) (cache.clearExpired now others) := by
  unfold clearExpired
  cases backend : cache.backend with
  | ruscadb table => exact aligned_purgeExpired documented table now _ aligned
  | memory numpy =>
    refine ⟨aligned_filter (fun row other pair => ?_) aligned.rows, aligned.keyed, aligned.sweeps⟩
    rw [pair.rowExpired documented]
  | lancedb table =>
    refine ⟨aligned_foldl_delete documented backend (aligned_filter (fun row other pair => ?_)
      (List.forall₂_take _ aligned.rows)) aligned.rows, aligned.keyed, aligned.sweeps⟩
    rw [pair.rowExpired documented, pair.promptHash documented]

private theorem aligned_maybeSweep (now : Int) (aligned : cache.Aligned agentRole contents others) :
    cache.Aligned agentRole (cache.maybeSweep now contents) (cache.maybeSweep now others) := by
  unfold maybeSweep
  rw [aligned.sweeps]
  split_ifs
  · exact ⟨aligned.rows, aligned.keyed, rfl⟩
  · exact aligned_clearExpired documented now ⟨aligned.rows, aligned.keyed, rfl⟩

omit [Field R] [LinearOrder R] in
theorem aligned_deleteEntry (prompt : String) (aligned : cache.Aligned agentRole contents others) :
    cache.Aligned agentRole (cache.deleteEntry (.str (cache.cacheKey prompt)) contents)
      (cache.deleteEntry (.str (cache.cacheKey prompt)) others) := by
  unfold deleteEntry
  cases backend : cache.backend with
  | ruscadb table =>
    dsimp only [RuscaTable.cacheDelete]
    rw [aligned_vectorIdsOf documented table _ aligned]
    exact aligned_deleteRows _ _ aligned
  | memory numpy =>
    refine ⟨aligned_filter (fun row other pair => ?_) aligned.rows, aligned.keyed, aligned.sweeps⟩
    rw [pair.promptHash documented]
  | lancedb table =>
    exact ⟨aligned_delete documented backend prompt aligned.rows, aligned.keyed, aligned.sweeps⟩

end Operations

/-! ### Aligned runs -/

section Runs

variable (documented : cache.Documented)

include documented

private theorem aligned_set {call other : SetCall} (same : SameVisible agentRole call other)
    {contents others : Contents R} (aligned : cache.Aligned agentRole contents others)
    (quiet : (∀ table, cache.backend ≠ .ruscadb table) →
      Quiet agentRole (cache.cacheKey call.prompt) contents ∧
        Quiet agentRole (cache.cacheKey call.prompt) others) :
    cache.Aligned agentRole (cache.set call contents).2 (cache.set other others).2 := by
  have pair := same
  obtain ⟨response, rfl, -⟩ := same
  have cleared : cache.Aligned agentRole
      (cache.tryRemovePending (cache.cacheKey call.prompt) contents)
      (cache.tryRemovePending (cache.cacheKey call.prompt) others) := by
    cases backend : cache.backend with
    | ruscadb table =>
      rw [tryRemovePending, tryRemovePending, backend]
      exact aligned
    | memory numpy =>
      obtain ⟨quietHere, quietThere⟩ := quiet fun table => by simp [backend]
      exact aligned_tryRemovePending documented _ aligned quietHere quietThere
    | lancedb table =>
      obtain ⟨quietHere, quietThere⟩ := quiet fun table => by simp [backend]
      exact aligned_tryRemovePending documented _ aligned quietHere quietThere
  have alike : inserts { call with response := response } = inserts call := rfl
  rw [set_snd, set_snd, alike]
  cases inserted : inserts call with
  | none => exact cleared
  | some dumped =>
    have rows := List.rel_append cleared.rows (List.Forall₂.cons (R := cache.RowPair agentRole)
      ⟨call, _, dumped, pair, rfl, rfl⟩ .nil)
    have persisted : ∃ keyed otherKeyed,
        cache.persist call
          (cache.tryRemovePending (cache.cacheKey call.prompt) contents).keyed = some keyed ∧
        cache.persist { call with response := response }
          (cache.tryRemovePending (cache.cacheKey call.prompt) others).keyed = some otherKeyed ∧
        List.Forall₂ (cache.KeyedPair agentRole) keyed otherKeyed := by
      cases backend : cache.backend with
      | ruscadb table =>
        refine ⟨_, _, persist_ruscadb documented backend _ _,
          persist_ruscadb documented backend _ _, List.rel_append (aligned_filter
            (fun row other pair => by rw [pair.key]) cleared.keyed)
            (.cons ⟨call, _, pair, rfl, rfl⟩ .nil)⟩
      | memory numpy =>
        exact ⟨_, _, by rw [persist, backend], by rw [persist, backend], cleared.keyed⟩
      | lancedb table =>
        exact ⟨_, _, by rw [persist, backend], by rw [persist, backend], cleared.keyed⟩
    obtain ⟨keyed, otherKeyed, kept, otherKept, pairs⟩ := persisted
    dsimp only
    rw [kept, otherKept]
    exact aligned_maybeSweep documented call.now ⟨rows, pairs, cleared.sweeps⟩

omit [Field R] [LinearOrder R] in
private theorem quiet_of_settled [Field R] [LinearOrder R] {calls : List SetCall} {call : SetCall}
    (settled : cache.Settled agentRole (calls ++ [call])) :
    Quiet agentRole (cache.cacheKey call.prompt) (cache.after calls) := by
  intro row held sameHash hidden
  obtain ⟨earlier, among, dumped, -, rfl⟩ := cache.rows_after held
  rw [promptHash_rowOf documented, equals_str, decide_eq_true_eq] at sameHash
  rw [role_rowOf documented, admits_str] at hidden
  rw [pending_rowOf documented]
  exact (List.pairwise_append.mp settled).2.2 earlier among call List.mem_cons_self hidden sameHash

/-- Runs that differ in what the role may not see stay aligned. -/
theorem aligned_after {calls others : List SetCall}
    (same : List.Forall₂ (SameVisible agentRole) calls others)
    (settled : (∀ table, cache.backend ≠ .ruscadb table) →
      cache.Settled agentRole calls ∧ cache.Settled agentRole others) :
    cache.Aligned agentRole (cache.after calls) (cache.after others) := by
  induction calls using List.reverseRecOn generalizing others with
  | nil =>
    cases same
    exact ⟨.nil, .nil, rfl⟩
  | append_singleton calls call ih =>
    obtain ⟨rest, other, rfl, pairs, pair⟩ := aligned_concat same
    rw [after_append, after_append]
    refine aligned_set documented pair (ih pairs fun plain => ?_) fun plain => ?_
    · obtain ⟨settledHere, settledThere⟩ := settled plain
      exact ⟨(List.pairwise_append.mp settledHere).1, (List.pairwise_append.mp settledThere).1⟩
    · obtain ⟨settledHere, settledThere⟩ := settled plain
      have key : cache.cacheKey other.prompt = cache.cacheKey call.prompt := by
        obtain ⟨response, rfl, -⟩ := pair
        rfl
      have quietThere := quiet_of_settled documented settledThere
      rw [key] at quietThere
      exact ⟨quiet_of_settled documented settledHere, quietThere⟩

end Runs

end Swarmind.MemoryRag.SemanticCache
