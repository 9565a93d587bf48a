import Swarmind.MemoryRag.SemanticCache.Isolation

/-!
Owns which of several sets of a prompt a lookup answers with. RuscaDB keeps one response
under the key of a prompt, and the last set replaces it. The store in memory keeps a row
for each set and gives the first one, so the last set prevails only over rows that agree
with it.
-/

namespace Swarmind.MemoryRag.SemanticCache

open Swarmind.Library RuscaDBStore

variable {R : Type} (cache : SemanticCache R)

/-! ### Conditions -/

/-- Calls until now that a store takes. Ids are those of `uuid4`. -/
structure Accepted (calls : List SetCall) (now : Int) : Prop where
  inserts : ∀ call ∈ calls, (inserts call).isSome
  past : ∀ call ∈ calls, call.now ≤ now
  ids : ∀ call ∈ calls, '-' ∈ call.id.toList

def LastSet (calls : List SetCall) (prompt : String) (earlier : List SetCall) (last : SetCall) :
    Prop :=
  last.prompt = prompt ∧
    ∃ later, calls = earlier ++ last :: later ∧ ∀ call ∈ later, call.prompt ≠ prompt

def callExpired (now : Int) (call : SetCall) : Bool :=
  cache.expired now (.str (cache.isoFormat call.now)) (.int (cache.ttlOf call))

def keyedLike (call : SetCall) (row : Row R) : Bool :=
  row.promptHash.equals (.str (cache.cacheKey call.prompt))

/-- A row with the response of a call, which does not expire before it. -/
structure Agrees [Field R] [LinearOrder R] (call : SetCall) (row : Row R) : Prop where
  response : row.response = .str call.response
  outlasts : ∀ later, cache.rowExpired later row = true → cache.callExpired later call = true

variable [Field R] [LinearOrder R]

/-- A call prevails over what the store holds before it: in memory the first row with its
key agrees with it, once a pending row is removed. -/
def Prevails (call : SetCall) (contents : Contents R) : Prop :=
  call.response ≠ "" ∧
    match cache.backend with
    | .memory _ =>
      cache.failClosed = false ∧
        ∀ row, (cache.tryRemovePending (cache.cacheKey call.prompt) contents).rows.find?
          (cache.keyedLike call) = some row → cache.Agrees call row
    | .lancedb _ => True
    | .ruscadb _ =>
      0 ≤ cache.defaultTtl ∧ (cache.failClosed = true → (verifiedOf call).isTruthy = true)

/-- A lookup gives the response of the last set, unless it has expired. -/
def LastWriteWins (prompt : String) (threshold : Option R) (now : Int) (calls : List SetCall) :
    Prop :=
  ∀ earlier last, LastSet calls prompt earlier last → cache.callExpired now last = false →
    (cache.get prompt "*" threshold now (cache.after calls)).1 = some (.str last.response)

/-! ### Keys and expiry -/

section Keys

variable {cache} (documented : cache.Documented)

omit [Field R] [LinearOrder R] in
private theorem cacheKey_injective (injective : Function.Injective cache.sha256) :
    Function.Injective cache.cacheKey := by
  intro prompt other same
  have texts := congrArg String.toList (injective same)
  simp only [String.toList_append] at texts
  exact String.toList_inj.mp (List.append_cancel_left texts)

include documented

omit documented [Field R] [LinearOrder R] in
private theorem callExpired_mono {earlier later : Int} {call : SetCall} (order : earlier ≤ later)
    (expired : cache.callExpired later call = false) : cache.callExpired earlier call = false := by
  rw [Bool.eq_false_iff] at expired ⊢
  intro before
  rw [callExpired, SemanticCache.expired] at before expired
  exact expired (isExpired_mono order before)

omit [Field R] [LinearOrder R] in
private theorem keyedLike_rowOf (call other : SetCall) (dumped : String) :
    cache.keyedLike call (cache.rowOf other dumped) =
      decide (cache.cacheKey other.prompt = cache.cacheKey call.prompt) := by
  rw [keyedLike, promptHash_rowOf documented, equals_str]

omit [Field R] [LinearOrder R] in
private theorem id_ne_cacheKey {id : String} (prompt : String) (dashed : '-' ∈ id.toList) :
    id ≠ cache.cacheKey prompt := by
  rintro rfl
  exact absurd (documented.digests _ _ dashed) (by decide +kernel)

private theorem ageSeconds_isoFormat [IsStrictOrderedRing R] {table : RuscaTable R}
    (ruscadb : cache.backend = .ruscadb table) (now moment : Int) :
    ∃ age : R, table.ageSeconds now (.str (cache.isoFormat moment)) = some age ∧
      (0 < age → age = ((((now - moment : Int) : ℚ) / 1000000 : ℚ) : R)) := by
  have days : (table.storeAt now).fromIsoFormat (cache.isoFormat moment) = some moment := by
    change table.retrieval.fromIsoFormat (cache.isoFormat moment) = some moment
    rw [documented.stamps table ruscadb, documented.moments]
  have read : table.ageSeconds now (.str (cache.isoFormat moment)) =
      some ((if ((((now - moment : Int) : ℚ) / 1000000 : ℚ) : R) / ((86400 : ℚ) : R) < ((0 : ℚ) : R)
        then ((0 : ℚ) : R)
        else ((((now - moment : Int) : ℚ) / 1000000 : ℚ) : R) / ((86400 : ℚ) : R)) * 86400) := by
    unfold RuscaTable.ageSeconds RuscaDBStore.Store.ageDays
    dsimp only
    rw [days]
    rfl
  rw [read]
  refine ⟨_, rfl, fun positive => ?_⟩
  split_ifs at positive ⊢
  · rw [Rat.cast_zero, zero_mul] at positive
    exact absurd positive (lt_irrefl 0)
  · rw [Rat.cast_ofNat, div_mul_cancel₀ _ (by norm_num)]

private theorem overdue_eq_false [IsStrictOrderedRing R] {table : RuscaTable R}
    (ruscadb : cache.backend = .ruscadb table) {now : Int} {call : SetCall}
    (fresh : cache.callExpired now call = false) :
    table.overdue now (.int (cache.ttlOf call)) (.str (cache.isoFormat call.now)) = false := by
  obtain ⟨age, aged, seconds⟩ := ageSeconds_isoFormat documented ruscadb now call.now
  rw [Bool.eq_false_iff]
  intro overdue
  rw [callExpired, documented.expired, decide_eq_false_iff_not] at fresh
  refine fresh ?_
  simp only [RuscaTable.overdue, numberOf, aged, Bool.and_eq_true, decide_eq_true_eq] at overdue
  obtain ⟨sign, due⟩ := overdue
  have positive : (0 : R) < ((cache.ttlOf call : ℚ) : R) := Rat.cast_pos.mpr sign
  rw [seconds (positive.trans due)] at due
  exact Rat.cast_lt.mp due

end Keys

/-! ### The first row in memory -/

/-- The first row with the key of a call agrees with it. -/
def Leads (call : SetCall) (contents : Contents R) : Prop :=
  ∃ row, contents.rows.find? (cache.keyedLike call) = some row ∧ cache.Agrees call row

section Memory

variable {cache} {numpy : Numpy R} (memory : cache.backend = .memory numpy)

include memory

variable {contents : Contents R}

private theorem leads_maybeSweep {call : SetCall} {now : Int}
    (fresh : cache.callExpired now call = false)
    (leads : cache.Leads call contents) : cache.Leads call (cache.maybeSweep now contents) := by
  obtain ⟨row, first, agrees⟩ := leads
  have kept : (!cache.rowExpired now row) = true := by
    rw [Bool.not_eq_true', Bool.eq_false_iff]
    intro expired
    rw [agrees.outlasts now expired] at fresh
    exact Bool.noConfusion fresh
  unfold maybeSweep clearExpired
  split_ifs
  · exact ⟨row, first, agrees⟩
  · rw [memory]
    exact ⟨row, find?_filter_of_kept first kept, agrees⟩

variable (documented : cache.Documented)

include documented

omit documented in
private theorem leads_set {call other : SetCall}
    (different : cache.cacheKey other.prompt ≠ cache.cacheKey call.prompt)
    (fresh : cache.callExpired other.now call = false) (leads : cache.Leads call contents) :
    cache.Leads call (cache.set other contents).2 := by
  obtain ⟨row, first, agrees⟩ := leads
  have cleared : (cache.tryRemovePending (cache.cacheKey other.prompt) contents).rows.find?
      (cache.keyedLike call) = some row := by
    rw [tryRemovePending, memory]
    refine (find?_eraseP fun row pending => ?_).trans first
    rw [Bool.and_eq_true, equals_str_iff] at pending
    rw [keyedLike, pending.1, equals_str]
    exact decide_eq_false different
  rw [set_snd]
  cases inserts other with
  | none => exact ⟨row, cleared, agrees⟩
  | some dumped =>
    dsimp only
    rw [persist, memory]
    refine leads_maybeSweep memory fresh ⟨row, ?_, agrees⟩
    rw [List.find?_append, cleared]
    rfl

private theorem leads_set_self {call : SetCall} (stored : (inserts call).isSome)
    (prevails : cache.Prevails call contents) (fresh : cache.callExpired call.now call = false) :
    cache.Leads call (cache.set call contents).2 := by
  obtain ⟨dumped, inserted⟩ := Option.isSome_iff_exists.mp stored
  unfold Prevails at prevails
  rw [memory] at prevails
  rw [set_snd, inserted]
  dsimp only
  rw [persist, memory]
  refine leads_maybeSweep memory fresh ?_
  unfold Leads
  rw [List.find?_append]
  cases first : (cache.tryRemovePending (cache.cacheKey call.prompt) contents).rows.find?
      (cache.keyedLike call) with
  | some row => exact ⟨row, rfl, prevails.2.2 row first⟩
  | none =>
    refine ⟨cache.rowOf call dumped, ?_, response_rowOf documented call dumped, ?_⟩
    · rw [Option.none_or, List.find?_cons, keyedLike_rowOf documented, decide_eq_true rfl]
    · intro later expired
      rw [rowExpired_rowOf documented] at expired
      exact expired

end Memory

/-! ### The row under a key in RuscaDB -/

/-- The row that RuscaDB keeps under the key of a call is that of the call. -/
structure Stands (call : SetCall) (contents : Contents R) : Prop where
  held : cache.keyedRowOf call ∈ contents.keyed
  only : ∀ row ∈ contents.keyed, row.key = cache.cacheKey call.prompt → row = cache.keyedRowOf call
  ids : ∀ row ∈ contents.rows, row.id ≠ cache.cacheKey call.prompt

section Keyed

variable {cache} {table : RuscaTable R} (ruscadb : cache.backend = .ruscadb table)
  (documented : cache.Documented)

include ruscadb

variable {contents : Contents R} {call : SetCall}

private theorem stands_maybeSweep {now : Int}
    (due : table.overdue now (.int (cache.ttlOf call)) (.str (cache.isoFormat call.now)) = false)
    (nonempty : cache.isoFormat call.now ≠ "") (stands : cache.Stands call contents) :
    cache.Stands call (cache.maybeSweep now contents) := by
  unfold maybeSweep clearExpired
  split_ifs
  · exact ⟨stands.held, stands.only, stands.ids⟩
  · rw [ruscadb]
    refine ⟨List.mem_filter.mpr ⟨stands.held, ?_⟩,
      fun row held => stands.only row (List.mem_of_mem_filter held),
      fun row held => stands.ids row (List.mem_of_mem_filter held)⟩
    rw [decide_eq_true_eq]
    intro doomed
    rcases List.mem_append.mp (List.mem_of_mem_filter doomed) with key | id
    · obtain ⟨row, among, same⟩ := List.mem_map.mp key
      obtain ⟨held, overdue⟩ := List.mem_filter.mp among
      have stamp : ((RuscaDBStore.get (cache.keyedRowOf call).metadata "cached_at").orElse .none) =
          .str (cache.isoFormat call.now) := by
        change (PyValue.str (cache.isoFormat call.now)).orElse .none = _
        rw [PyValue.orElse, if_pos]
        simpa [PyValue.isTruthy] using nonempty
      rw [stands.only row held same] at overdue
      dsimp only at overdue
      rw [stamp] at overdue
      exact absurd overdue (Bool.eq_false_iff.mp due)
    · obtain ⟨row, among, same⟩ := List.mem_map.mp id
      exact stands.ids row (List.mem_of_mem_filter among) same

include documented

private theorem set_snd_ruscadb {dumped : String} (inserted : inserts call = some dumped) :
    (cache.set call contents).2 =
      cache.maybeSweep call.now
        { contents with
          rows := contents.rows ++ [cache.rowOf call dumped]
          keyed := (contents.keyed.filter fun row => row.key ≠ cache.cacheKey call.prompt) ++
            [cache.keyedRowOf call] } := by
  have unchanged : cache.tryRemovePending (cache.cacheKey call.prompt) contents = contents := by
    rw [tryRemovePending, ruscadb]
  rw [set_snd, inserted, unchanged]
  dsimp only
  rw [persist_ruscadb documented ruscadb]

omit ruscadb documented [Field R] [LinearOrder R] in
private theorem id_ne_of_mem_append {key : String} {rows : List (Row R)} {dumped : String}
    (ids : ∀ row ∈ rows, row.id ≠ key) (id : call.id ≠ key) :
    ∀ row ∈ rows ++ [cache.rowOf call dumped], row.id ≠ key := by
  rw [List.forall_mem_append, List.forall_mem_singleton]
  exact ⟨ids, id⟩

private theorem stands_set {call other : SetCall} (stored : (inserts other).isSome)
    (different : cache.cacheKey other.prompt ≠ cache.cacheKey call.prompt)
    (id : other.id ≠ cache.cacheKey call.prompt)
    (due : table.overdue other.now (.int (cache.ttlOf call)) (.str (cache.isoFormat call.now)) =
      false) (stands : cache.Stands call contents) :
    cache.Stands call (cache.set other contents).2 := by
  obtain ⟨dumped, inserted⟩ := Option.isSome_iff_exists.mp stored
  rw [set_snd_ruscadb ruscadb documented inserted]
  refine stands_maybeSweep ruscadb due (documented.stamped _)
    ⟨?_, ?_, id_ne_of_mem_append stands.ids id⟩
  · exact List.mem_append_left _
      (List.mem_filter.mpr ⟨stands.held, decide_eq_true different.symm⟩)
  · intro row held same
    rcases List.mem_append.mp held with old | new
    · exact stands.only row (List.mem_of_mem_filter old) same
    · rw [List.mem_singleton.mp new] at same
      exact absurd same different

private theorem stands_set_self (stored : (inserts call).isSome)
    (id : call.id ≠ cache.cacheKey call.prompt)
    (ids : ∀ row ∈ contents.rows, row.id ≠ cache.cacheKey call.prompt)
    (due : table.overdue call.now (.int (cache.ttlOf call)) (.str (cache.isoFormat call.now)) =
      false) : cache.Stands call (cache.set call contents).2 := by
  obtain ⟨dumped, inserted⟩ := Option.isSome_iff_exists.mp stored
  rw [set_snd_ruscadb ruscadb documented inserted]
  refine stands_maybeSweep ruscadb due (documented.stamped _)
    ⟨List.mem_append_right _ List.mem_cons_self, ?_, id_ne_of_mem_append ids id⟩
  intro row held same
  rcases List.mem_append.mp held with old | new
  · exact absurd same (of_decide_eq_true (List.mem_filter.mp old).2)
  · exact List.mem_singleton.mp new

end Keyed

/-! ### Runs -/

section Runs

variable {cache}

private theorem after_of_last {holds : Contents R → Prop} {earlier later : List SetCall}
    {last : SetCall}
    (first : holds (cache.set last (cache.after earlier)).2)
    (step : ∀ other ∈ later, ∀ contents, holds contents → holds (cache.set other contents).2) :
    holds (cache.after (earlier ++ last :: later)) := by
  rw [after, List.foldl_append, List.foldl_cons]
  exact List.foldlRecOn later _ first fun contents held other among => step other among contents held

variable (documented : cache.Documented)

include documented

omit [Field R] [LinearOrder R] in
private theorem rowExpired_of_entry {now : Int} {call : SetCall}
    {dumped agentRole promptHash : String}
    {entry : CacheEntry}
    (made : entryOf agentRole promptHash (cache.rowOf call dumped) = some entry)
    (expired : cache.expired now entry.createdAt entry.ttlSeconds = true) :
    cache.rowExpired now (cache.rowOf call dumped) = true := by
  rw [rowExpired_rowOf documented]
  unfold entryOf at made
  split_ifs at made
  obtain rfl := Option.some.inj made
  have created : (getOr (cache.rowOf call dumped).metadata "created_at" (.str "")).orElse
      (.str (cache.rowOf call dumped).createdAt) = .str (cache.isoFormat call.now) := by
    rw [getOr, find_rowOf documented call dumped (by simp [ownFields])]
    simp [entryMetadata, Dict.find, PyValue.orElse, PyValue.isTruthy, documented.stamped]
  have lives : getOr (cache.rowOf call dumped).metadata "ttl_seconds" (.int defaultTtlSeconds) =
      .int (cache.ttlOf call) := by
    rw [getOr, find_rowOf documented call dumped (by simp [ownFields])]
    simp [entryMetadata, Dict.find]
  dsimp only at expired
  rw [created, lives, PyValue.orElse] at expired
  split_ifs at expired with given
  · exact expired
  · -- A time to live of zero is read as the default.
    have zero : cache.ttlOf call = 0 := by
      simpa [PyValue.isTruthy, PyValue.asWhole] using given
    rw [documented.expired, decide_eq_true_eq] at expired ⊢
    rw [zero]
    exact lt_trans (by norm_num [defaultTtlSeconds]) expired

private theorem get_of_leads {numpy : Numpy R} (memory : cache.backend = .memory numpy)
    {threshold : Option R} {now : Int} {calls : List SetCall} {last : SetCall}
    (leads : cache.Leads last (cache.after calls)) (policy : cache.failClosed = false)
    (nonempty : last.response ≠ "") (fresh : cache.callExpired now last = false) :
    (cache.get last.prompt "*" threshold now (cache.after calls)).1 =
      some (.str last.response) := by
  obtain ⟨row, first, agrees⟩ := leads
  obtain ⟨call, -, dumped, -, rfl⟩ := cache.rows_after (List.mem_of_find?_eq_some first)
  have shown : (admits "*" (cache.rowOf call dumped).role &&
      (cache.rowOf call dumped).response.isTruthy) = true := by
    rw [agrees.response]
    simpa [admits, PyValue.isTruthy] using nonempty
  obtain ⟨entry, made, response⟩ : ∃ entry, entryOf "*" (cache.cacheKey last.prompt)
      (cache.rowOf call dumped) = some entry ∧ entry.response = .str last.response := by
    rw [entryOf, if_pos shown]
    exact ⟨_, rfl, agrees.response⟩
  have exact : cache.exactEntry last.prompt "*" now (cache.after calls) = some entry := by
    rw [exactEntry, searchExact, memory]
    dsimp only
    have every : (fun row : Row R => row.promptHash.equals (.str (cache.cacheKey last.prompt)) &&
        admits "*" row.role) = cache.keyedLike last := by
      funext row
      simp [admits, keyedLike]
    rw [every, first, Option.bind_some, made, Option.filter_some, policy]
    rfl
  have current : cache.expired now entry.createdAt entry.ttlSeconds = false := by
    rw [Bool.eq_false_iff]
    intro expired
    rw [agrees.outlasts now (rowExpired_of_entry documented made expired)] at fresh
    exact Bool.noConfusion fresh
  rw [get, exact]
  simp only [current, Bool.false_eq_true, if_false, response]

private theorem get_of_stands [IsStrictOrderedRing R] {table : RuscaTable R}
    (ruscadb : cache.backend = .ruscadb table) {threshold : Option R} {now : Int}
    {contents earlier : Contents R} {last : SetCall} (stands : cache.Stands last contents)
    (prevails : cache.Prevails last earlier) (fresh : cache.callExpired now last = false) :
    (cache.get last.prompt "*" threshold now contents).1 = some (.str last.response) := by
  unfold Prevails at prevails
  rw [ruscadb] at prevails
  obtain ⟨nonempty, sign, verified⟩ := prevails
  have first : contents.keyed.find? (fun row => row.key = cache.cacheKey last.prompt) =
      some (cache.keyedRowOf last) := by
    obtain ⟨row, found⟩ := Option.isSome_iff_exists.mp (List.find?_isSome
      (p := fun row : KeyedRow => decide (row.key = cache.cacheKey last.prompt)).mpr
        ⟨_, stands.held, decide_eq_true rfl⟩)
    have key : row.key = cache.cacheKey last.prompt := by
      simpa using List.find?_some found
    rw [found, stands.only row (List.mem_of_find?_eq_some found) key]
  refine get_of_keyed documented ruscadb first ?_ nonempty sign
  rw [counts, overdue_eq_false documented ruscadb fresh]
  cases policy : cache.failClosed with
  | false => rfl
  | true => rw [verified policy]; rfl

/-- The last set of a prompt that prevails over what the store holds before it wins. -/
theorem lastWriteWins_of_prevails [IsStrictOrderedRing R]
    (injective : Function.Injective cache.sha256)
    (other : ∀ table, cache.backend ≠ .lancedb table) {prompt : String} {threshold : Option R}
    {now : Int} {calls : List SetCall} (accepted : Accepted calls now)
    (prevails : ∀ earlier last, LastSet calls prompt earlier last →
      cache.Prevails last (cache.after earlier)) :
    cache.LastWriteWins prompt threshold now calls := by
  intro earlier last lastSet fresh
  have wins := prevails earlier last lastSet
  obtain ⟨rfl, later, rfl, others⟩ := lastSet
  have among : last ∈ earlier ++ last :: later := List.mem_append_right _ List.mem_cons_self
  have stored := accepted.inserts last among
  have sound (call : SetCall) (held : call ∈ later) :
      cache.cacheKey call.prompt ≠ cache.cacheKey last.prompt ∧
        cache.callExpired call.now last = false :=
    ⟨fun same => others call held (cacheKey_injective injective same),
      callExpired_mono (accepted.past call (List.mem_append_right _ (List.mem_cons_of_mem _ held)))
        fresh⟩
  have current := callExpired_mono (accepted.past last among) fresh
  cases backend : cache.backend with
  | lancedb table => exact absurd backend (other table)
  | memory numpy =>
    have leads : cache.Leads last (cache.after (earlier ++ last :: later)) :=
      after_of_last (leads_set_self backend documented stored wins current)
        fun call held contents leads =>
          leads_set backend (sound call held).1 (sound call held).2 leads
    unfold Prevails at wins
    rw [backend] at wins
    exact get_of_leads documented backend leads wins.2.1 wins.1 fresh
  | ruscadb table =>
    have ids {call : SetCall} (held : call ∈ earlier ++ last :: later) :
        call.id ≠ cache.cacheKey last.prompt :=
      id_ne_cacheKey documented last.prompt (accepted.ids call held)
    have stands : cache.Stands last (cache.after (earlier ++ last :: later)) :=
      after_of_last (stands_set_self backend documented stored (ids among)
        (fun row held => by
          obtain ⟨call, inside, dumped, -, rfl⟩ := cache.rows_after held
          exact ids (List.mem_append_left _ inside))
        (overdue_eq_false documented backend current))
        fun call held contents stands => stands_set backend documented
          (accepted.inserts call (List.mem_append_right _ (List.mem_cons_of_mem _ held)))
          (sound call held).1 (ids (List.mem_append_right _ (List.mem_cons_of_mem _ held)))
          (overdue_eq_false documented backend (sound call held).2) stands
    exact get_of_stands documented backend stands wins fresh

end Runs

/-! ### Two responses -/

/-- A set that leaves a pending response. -/
def pendingCall : SetCall :=
  { passwordCall with
    response := "[PENDING] How do I reset my password?"
    id := "5f1c7a52-0d8e-4b53-8a8f-6f2f9a7be0c4" }

private theorem accepted_pair {first second : SetCall} (inserted : (inserts first).isSome)
    (insertedLater : (inserts second).isSome) (past : first.now ≤ 0 ∧ second.now ≤ 0)
    (ids : '-' ∈ first.id.toList ∧ '-' ∈ second.id.toList) : Accepted [first, second] 0 where
  inserts := by
    rw [List.forall_mem_cons, List.forall_mem_singleton]
    exact ⟨inserted, insertedLater⟩
  past := by
    rw [List.forall_mem_cons, List.forall_mem_singleton]
    exact past
  ids := by
    rw [List.forall_mem_cons, List.forall_mem_singleton]
    exact ids

private theorem lastSet_concat (calls : List SetCall) {earlier : List SetCall} {call last : SetCall}
    (lastSet : LastSet (calls ++ [call]) call.prompt earlier last) :
    earlier = calls ∧ last = call := by
  obtain ⟨-, later, same, others⟩ := lastSet
  rcases List.eq_nil_or_concat later with rfl | ⟨rest, final, rfl⟩
  · obtain ⟨rfl, single⟩ := List.append_inj' same rfl
    exact ⟨rfl, (List.cons.inj single).1.symm⟩
  · have ends : calls ++ [call] = (earlier ++ last :: rest) ++ [final] := by
      simpa using same
    obtain ⟨-, single⟩ := List.append_inj' ends rfl
    refine absurd ?_ (others final (by simp))
    rw [(List.cons.inj single).1]

/-- A pending response makes way for the later one. -/
theorem lastWriteWins_pendingCall : Accepted [pendingCall, passwordCall] 0 ∧
    (sharedCache (.memory plainNumpy)).LastWriteWins passwordCall.prompt none 0
      [pendingCall, passwordCall] := by
  have accepted : Accepted [pendingCall, passwordCall] 0 :=
    accepted_pair (by decide) (by decide) (by decide) (by decide +kernel)
  refine ⟨accepted, lastWriteWins_of_prevails (documented_sharedCache (.inl rfl))
    (fun left right => digestAt_injective (by decide)) (fun table lancedb => by cases lancedb)
    accepted fun earlier last lastSet => ?_⟩
  obtain ⟨rfl, rfl⟩ := lastSet_concat [pendingCall] lastSet
  refine ⟨by decide, rfl, fun row found => ?_⟩
  have removed : ((sharedCache (.memory plainNumpy)).tryRemovePending
      ((sharedCache (.memory plainNumpy)).cacheKey passwordCall.prompt)
        ((sharedCache (.memory plainNumpy)).after [pendingCall])).rows = [] := by
    rfl
  rw [removed] at found
  cases found

/-- A second response to the prompt. -/
def laterCall : SetCall :=
  { passwordCall with
    response := "On the profile page."
    id := "c93e5b6a-4d0f-4d35-b0a7-2f0d3c1f8e77" }

/-- The store in memory answers with the first response. -/
theorem not_lastWriteWins_laterCall :
    ¬∀ (prompt : String) (threshold : Option ℚ) (now : Int) (calls : List SetCall),
      Accepted calls now →
        (sharedCache (.memory plainNumpy)).LastWriteWins prompt threshold now calls := by
  intro wins
  have accepted : Accepted [passwordCall, laterCall] 0 :=
    accepted_pair (by decide) (by decide) (by decide) (by decide +kernel)
  have latest := wins passwordCall.prompt none 0 _ accepted [passwordCall] laterCall
    ⟨rfl, [], rfl, by simp⟩ (by decide +kernel)
  have first : ((sharedCache (.memory plainNumpy)).get passwordCall.prompt "*" none 0
      ((sharedCache (.memory plainNumpy)).after [passwordCall, laterCall])).1 =
        some (.str passwordCall.response) := by
    refine get_of_leads (documented_sharedCache (.inl rfl)) rfl ⟨_, rfl, rfl, ?_⟩ rfl (by decide)
      (by decide +kernel)
    intro later expired
    rw [rowExpired_rowOf (documented_sharedCache (.inl rfl))] at expired
    exact expired
  rw [first] at latest
  exact absurd (PyValue.str.inj (Option.some.inj latest)) (by decide)

end Swarmind.MemoryRag.SemanticCache
