import Swarmind.MemoryRag.TokenBudget.Grants

/-!
Owns what becomes of a request that is released or committed at once. Both know the pool only,
so tokens that the request drained from other pools are never given back, and are counted
twice where the pool had reserved tokens of its own.
-/

namespace Swarmind.MemoryRag

open Swarmind.Library

namespace TokenBudget

/-- What a pool has left. -/
def remainingOf (pools : Dict String TokenPool) (poolName : String) : Option Int :=
  (pools.get? poolName).map TokenPool.remaining

def usedBy (pools : Dict String TokenPool) : Int := (pools.values.map TokenPool.used).sum

/-- The tokens that a pool may be drained of. -/
def spare (minReserve : Int) (pool : TokenPool) : Int := max 0 (pool.remaining - minReserve)

/-- The pools that may be drained for another one. -/
def lenders (needyPool : String) (entries : List (String × TokenPool)) : List TokenPool :=
  (entries.filter fun entry =>
    entry.1 ≠ needyPool ∧ entry.2.priority < poolPriority needyPool).map Prod.snd

/-- The pools that are drained had nothing left before; a negative reserve lets that happen. -/
def DrainsOnlyEmpty (deficit minReserve : Int) : List TokenPool → Int → Prop
  | [], _ => True
  | pool :: rest, total =>
    (total < deficit → 0 < spare minReserve pool → pool.remaining = 0) ∧
      DrainsOnlyEmpty deficit minReserve rest (total + spare minReserve pool)

/-! ### The drain -/

private theorem spare_nonneg (minReserve : Int) (pool : TokenPool) : 0 ≤ spare minReserve pool :=
  le_max_left _ _

private theorem sum_spare_nonneg (minReserve : Int) (pools : List TokenPool) :
    0 ≤ (pools.map (spare minReserve)).sum := by
  apply List.sum_nonneg
  intro amount among
  obtain ⟨pool, _, rfl⟩ := List.mem_map.mp among
  exact spare_nonneg minReserve pool

private theorem drainsOnlyEmpty_of_met {deficit minReserve : Int} {pools : List TokenPool}
    {total : Int}
    (met : deficit ≤ total) : DrainsOnlyEmpty deficit minReserve pools total := by
  induction pools generalizing total with
  | nil => trivial
  | cons pool rest ih =>
    have := spare_nonneg minReserve pool
    exact ⟨fun short => absurd met (not_le.mpr short), ih (by omega)⟩

private theorem drainsOnlyEmpty_of_no_spare {deficit minReserve : Int} {pools : List TokenPool}
    {total : Int} (none : (pools.map (spare minReserve)).sum = 0) :
    DrainsOnlyEmpty deficit minReserve pools total := by
  induction pools generalizing total with
  | nil => trivial
  | cons pool rest ih =>
    have head := spare_nonneg minReserve pool
    have tail := sum_spare_nonneg minReserve rest
    rw [List.map_cons, List.sum_cons] at none
    exact ⟨fun _ some => by omega, ih (by omega)⟩

private theorem sum_spare_eq_zero_iff {minReserve : Int} {pools : List TokenPool} :
    (pools.map (spare minReserve)).sum = 0 ↔ ∀ pool ∈ pools, pool.remaining ≤ minReserve := by
  induction pools with
  | nil => simp
  | cons pool rest ih =>
    have head := spare_nonneg minReserve pool
    have tail := sum_spare_nonneg minReserve rest
    have idle : spare minReserve pool = 0 ↔ pool.remaining ≤ minReserve := by
      unfold spare
      omega
    rw [List.map_cons, List.sum_cons, List.forall_mem_cons, ← ih, ← idle]
    omega

private theorem lenders_cons_of_not {needyPool poolName : String} {pool : TokenPool}
    {rest : List (String × TokenPool)}
    (excluded : ¬(poolName ≠ needyPool ∧ pool.priority < poolPriority needyPool)) :
    lenders needyPool ((poolName, pool) :: rest) = lenders needyPool rest := by
  rw [lenders, List.filter_cons, if_neg (by simpa using excluded), lenders]

private theorem lenders_cons {needyPool poolName : String} {pool : TokenPool}
    {rest : List (String × TokenPool)} (other : poolName ≠ needyPool)
    (lower : pool.priority < poolPriority needyPool) :
    lenders needyPool ((poolName, pool) :: rest) = pool :: lenders needyPool rest := by
  rw [lenders, List.filter_cons, if_pos (by simpa using ⟨other, lower⟩), List.map_cons, lenders]

private theorem drain_cons_cases {needyPool poolName : String} {deficit minReserve total : Int}
    {pool : TokenPool} {rest : List (String × TokenPool)} {pools : Dict String TokenPool}
    (short : total < deficit) :
    (drain needyPool deficit minReserve ((poolName, pool) :: rest) total pools =
          drain needyPool deficit minReserve rest total pools ∧
        (lenders needyPool ((poolName, pool) :: rest) = lenders needyPool rest ∨
          lenders needyPool ((poolName, pool) :: rest) = pool :: lenders needyPool rest ∧
            spare minReserve pool = 0)) ∨
      ∃ take, take = min (spare minReserve pool) (deficit - total) ∧ 0 < take ∧
        poolName ≠ needyPool ∧
        lenders needyPool ((poolName, pool) :: rest) = pool :: lenders needyPool rest ∧
        drain needyPool deficit minReserve ((poolName, pool) :: rest) total pools =
          if deficit ≤ total + take then
            (total + take, pools.set poolName { pool with used := pool.used + take })
          else
            drain needyPool deficit minReserve rest (total + take)
              (pools.set poolName { pool with used := pool.used + take }) := by
  rw [drain]
  by_cases needy : poolName = needyPool
  · rw [if_pos needy]
    exact .inl ⟨rfl, .inl (lenders_cons_of_not fun both => both.1 needy)⟩
  rw [if_neg needy]
  by_cases priority : poolPriority needyPool ≤ pool.priority
  · rw [if_pos priority]
    exact .inl ⟨rfl, .inl (lenders_cons_of_not fun both => absurd priority (not_le.mpr both.2))⟩
  rw [if_neg priority]
  have lends := @lenders_cons needyPool poolName pool rest needy (not_le.mp priority)
  have available := spare_nonneg minReserve pool
  rw [show max 0 (pool.remaining - minReserve) = spare minReserve pool from rfl]
  dsimp only
  by_cases idle : spare minReserve pool ≤ 0
  · rw [if_pos idle]
    exact .inl ⟨rfl, .inr ⟨lends, by omega⟩⟩
  · have takes : 0 < min (spare minReserve pool) (deficit - total) := by omega
    rw [if_neg idle, if_pos takes]
    exact .inr ⟨_, rfl, takes, needy, lends, rfl⟩

/-- What a drain does: it gets what is missing or all that may be taken, counts it as used,
and leaves every pool as much as before exactly where it only drains empty ones. -/
structure Drains (needyPool : String) (deficit minReserve : Int)
    (entries : List (String × TokenPool)) (total : Int) (pools : Dict String TokenPool)
    (result : Int × Dict String TokenPool) : Prop where
  amount : result.1 =
    min deficit (total + ((lenders needyPool entries).map (spare minReserve)).sum)
  used : usedBy result.2 + total = usedBy pools + result.1
  untouched : ∀ poolName, (∀ entry ∈ entries, entry.1 = poolName → poolName = needyPool) →
    result.2.get? poolName = pools.get? poolName
  remaining_iff : (∀ poolName, remainingOf result.2 poolName = remainingOf pools poolName) ↔
    DrainsOnlyEmpty deficit minReserve (lenders needyPool entries) total

section Take

variable {needyPool poolName : String} {deficit minReserve total take : Int} {pool : TokenPool}
  {rest : List (String × TokenPool)} {pools : Dict String TokenPool}

/-- The pool that lends `take` tokens. -/
def lent (pool : TokenPool) (take : Int) : TokenPool := { pool with used := pool.used + take }

private theorem remaining_lent_iff (takes : 0 < take) :
    (lent pool take).remaining = pool.remaining ↔ pool.remaining = 0 := by
  simp only [lent, TokenPool.remaining]
  omega

private theorem usedBy_lent (found : pools.get? poolName = some pool) :
    usedBy (pools.set poolName (lent pool take)) = usedBy pools + take := by
  have moved := Dict.sum_values_set TokenPool.used found (lent pool take)
  simp only [lent] at moved
  unfold usedBy lent
  omega

private theorem remaining_take_iff {after : Dict String TokenPool} (takes : 0 < take)
    (found : pools.get? poolName = some pool)
    (alone : after.get? poolName = (pools.set poolName (lent pool take)).get? poolName) :
    (∀ other, remainingOf after other = remainingOf pools other) ↔
      pool.remaining = 0 ∧
        ∀ other, remainingOf after other =
          remainingOf (pools.set poolName (lent pool take)) other := by
  have elsewhere : ∀ other, poolName ≠ other →
      remainingOf (pools.set poolName (lent pool take)) other = remainingOf pools other := by
    intro other different
    rw [remainingOf, Dict.get?_set_of_ne _ _ different, remainingOf]
  have here : remainingOf after poolName = some (lent pool take).remaining := by
    rw [remainingOf, alone, Dict.get?_set_self, Option.map_some]
  have start : remainingOf pools poolName = some pool.remaining := by
    rw [remainingOf, found, Option.map_some]
  constructor
  · intro same
    refine ⟨?_, fun other => ?_⟩
    · rw [← remaining_lent_iff takes]
      exact Option.some.inj (here.symm.trans ((same poolName).trans start))
    · by_cases at_pool : poolName = other
      · rw [remainingOf, remainingOf, ← at_pool, alone]
      · rw [elsewhere other at_pool, same]
  · rintro ⟨empty, same⟩ other
    by_cases at_pool : poolName = other
    · rw [← at_pool, here, start, (remaining_lent_iff takes).mpr empty]
    · rw [same, elsewhere other at_pool]

private theorem Drains.skip {result : Int × Dict String TokenPool}
    (drained : Drains needyPool deficit minReserve rest total pools result)
    (lends : lenders needyPool ((poolName, pool) :: rest) = lenders needyPool rest ∨
      lenders needyPool ((poolName, pool) :: rest) = pool :: lenders needyPool rest ∧
        spare minReserve pool = 0) :
    Drains needyPool deficit minReserve ((poolName, pool) :: rest) total pools result := by
  obtain ⟨amount, used, untouched, remaining_iff⟩ := drained
  have outside : ∀ name, (∀ entry ∈ (poolName, pool) :: rest, entry.1 = name →
      name = needyPool) → result.2.get? name = pools.get? name :=
    fun name all => untouched name fun entry among => all entry (List.mem_cons_of_mem _ among)
  rcases lends with lends | ⟨lends, none⟩
  · rw [← lends] at amount remaining_iff
    exact ⟨amount, used, outside, remaining_iff⟩
  · refine ⟨?_, used, outside, ?_⟩
    · rw [lends, List.map_cons, List.sum_cons, none, Int.zero_add]
      exact amount
    · rw [lends, DrainsOnlyEmpty, none, Int.add_zero, remaining_iff]
      exact ⟨fun exempt => ⟨fun _ some => absurd some (lt_irrefl 0), exempt⟩, And.right⟩

variable (found : pools.get? poolName = some pool) (other : poolName ≠ needyPool)
  (lends : lenders needyPool ((poolName, pool) :: rest) = pool :: lenders needyPool rest)
  (short : total < deficit) (taking : take = min (spare minReserve pool) (deficit - total))
  (takes : 0 < take)

include found other lends short taking takes

private theorem drains_enough (enough : deficit ≤ total + take) :
    Drains needyPool deficit minReserve ((poolName, pool) :: rest) total pools
      (total + take, pools.set poolName (lent pool take)) := by
  have others := sum_spare_nonneg minReserve (lenders needyPool rest)
  have lending : usedBy (pools.set poolName (lent pool take)) = usedBy pools + take :=
    usedBy_lent found
  refine ⟨?_, ?_, fun name all => Dict.get?_set_of_ne _ _ ?_, ?_⟩
  · rw [lends, List.map_cons, List.sum_cons]
    omega
  · dsimp only
    omega
  · rintro rfl
    exact other (all _ List.mem_cons_self rfl)
  · rw [remaining_take_iff takes found rfl, lends, DrainsOnlyEmpty]
    have met : deficit ≤ total + spare minReserve pool := by omega
    have spends : 0 < spare minReserve pool := by omega
    exact ⟨fun empty => ⟨fun _ _ => empty.1, drainsOnlyEmpty_of_met met⟩,
      fun exempt => ⟨exempt.1 short spends, fun _ => rfl⟩⟩

private theorem Drains.more {result : Int × Dict String TokenPool}
    (drained : Drains needyPool deficit minReserve rest (total + take)
      (pools.set poolName (lent pool take)) result)
    (lacking : ¬ deficit ≤ total + take) (absent : poolName ∉ rest.map Prod.fst) :
    Drains needyPool deficit minReserve ((poolName, pool) :: rest) total pools result := by
  obtain ⟨amount, used, untouched, remaining_iff⟩ := drained
  have all_spare : take = spare minReserve pool := by omega
  have lending : usedBy (pools.set poolName (lent pool take)) = usedBy pools + take :=
    usedBy_lent found
  have alone : ∀ entry ∈ rest, entry.1 = poolName → poolName = needyPool :=
    fun entry among same => absurd (List.mem_map.mpr ⟨entry, among, same⟩) absent
  refine ⟨?_, by omega, fun name all => ?_, ?_⟩
  · rw [lends, List.map_cons, List.sum_cons, amount, all_spare, Int.add_assoc]
  · have elsewhere : poolName ≠ name := by
      rintro rfl
      exact other (all _ List.mem_cons_self rfl)
    rw [untouched name fun entry among => all entry (List.mem_cons_of_mem _ among),
      Dict.get?_set_of_ne _ _ elsewhere]
  · have spends : 0 < spare minReserve pool := by omega
    rw [remaining_take_iff takes found (untouched poolName alone), lends, DrainsOnlyEmpty,
      remaining_iff, all_spare]
    exact ⟨fun exempt => ⟨fun _ _ => exempt.1, exempt.2⟩,
      fun exempt => ⟨exempt.1 short spends, exempt.2⟩⟩

end Take

private theorem drains {needyPool : String} {deficit minReserve : Int}
    {entries : List (String × TokenPool)} {total : Int} {pools : Dict String TokenPool}
    (short : total < deficit) (distinct : (entries.map Prod.fst).Nodup)
    (current : ∀ entry ∈ entries, pools.get? entry.1 = some entry.2) :
    Drains needyPool deficit minReserve entries total pools
      (drain needyPool deficit minReserve entries total pools) := by
  induction entries generalizing total pools with
  | nil =>
    refine ⟨?_, ?_, fun _ _ => rfl, iff_of_true (fun _ => rfl) trivial⟩
    · show total = min deficit (total + 0)
      omega
    · show usedBy pools + total = usedBy pools + total
      rfl
  | cons entry rest ih =>
    obtain ⟨poolName, pool⟩ := entry
    obtain ⟨absent, distinctRest⟩ := List.nodup_cons.mp distinct
    obtain ⟨found, currentRest⟩ := List.forall_mem_cons.mp current
    rcases @drain_cons_cases needyPool poolName deficit minReserve total pool rest pools short
      with ⟨skips, lends⟩ | ⟨take, taking, takes, other, lends, moved⟩
    · rw [skips]
      exact (ih short distinctRest currentRest).skip lends
    · rw [moved, show { pool with used := pool.used + take } = lent pool take from rfl]
      split
      · rename_i enough
        exact drains_enough found other lends short taking takes enough
      · rename_i lacking
        have currentNext : ∀ entry ∈ rest,
            (pools.set poolName (lent pool take)).get? entry.1 = some entry.2 := by
          intro entry among
          rw [Dict.get?_set_of_ne _ _ fun same =>
            absent (List.mem_map.mpr ⟨entry, among, same.symm⟩)]
          exact currentRest entry among
        have next := ih (not_le.mp lacking) distinctRest currentNext
        exact next.more found other lends short taking takes lacking absent

private theorem redistribute_drains (minReserve : Int) (pools : Dict String TokenPool)
    (needyPool : String) {deficit : Int} (lacking : 0 < deficit) :
    Drains needyPool deficit minReserve (sortedPools pools) 0 pools
      (redistribute minReserve pools needyPool deficit) := by
  have sorted : (sortedPools pools).Perm pools.entries := List.mergeSort_perm _ _
  apply drains lacking
  · exact (sorted.map Prod.fst).nodup_iff.mpr pools.distinct
  · exact fun entry among => (pools.get?_eq_some_iff _ _).mpr (sorted.mem_iff.mp among)

/-! ### Requests -/

private theorem assign_eq_map {key : String} {value : TokenPool}
    {entries : List (String × TokenPool)}
    (distinct : (entries.map Prod.fst).Nodup) (present : key ∈ entries.map Prod.fst) :
    Dict.assign key value entries =
      entries.map fun entry => if entry.1 = key then (key, value) else entry := by
  induction entries with
  | nil => cases present
  | cons entry rest ih =>
    rw [List.map_cons, List.nodup_cons] at distinct
    by_cases same : entry.1 = key
    · have alone : rest.map (fun entry => if entry.1 = key then (key, value) else entry) =
          rest.map id := by
        refine List.map_congr_left fun other among => if_neg fun equal => distinct.1 ?_
        exact List.mem_map.mpr ⟨other, among, equal.trans same.symm⟩
      rw [Dict.assign, if_pos same, List.map_cons, if_pos same, alone, List.map_id]
    · have later : key ∈ rest.map Prod.fst :=
        (List.mem_cons.mp present).resolve_left fun equal => same equal.symm
      rw [Dict.assign, if_neg same, List.map_cons, if_neg same,
        ih distinct.2 later]

private theorem lenders_sortedPools_set {pools : Dict String TokenPool} {needyPool : String}
    {pool updated : TokenPool} (found : pools.get? needyPool = some pool)
    (same : updated.priority = pool.priority) :
    lenders needyPool (sortedPools (pools.set needyPool updated)) =
      lenders needyPool (sortedPools pools) := by
  have present : needyPool ∈ pools.entries.map Prod.fst :=
    (pools.mem_keys_iff needyPool).mpr ⟨pool, found⟩
  have replaced : (pools.set needyPool updated).entries = pools.entries.map fun entry =>
      if entry.1 = needyPool then (needyPool, updated) else entry :=
    assign_eq_map pools.distinct present
  have priorities : ∀ entry ∈ pools.entries,
      (if entry.1 = needyPool then (needyPool, updated) else entry).2.priority =
        entry.2.priority := by
    intro entry among
    by_cases at_pool : entry.1 = needyPool
    · have stored := (pools.get?_eq_some_iff _ _).mpr among
      rw [at_pool, found, Option.some.injEq] at stored
      rw [if_pos at_pool, ← stored, same]
    · rw [if_neg at_pool]
  have sorted : sortedPools (pools.set needyPool updated) = (sortedPools pools).map fun entry =>
      if entry.1 = needyPool then (needyPool, updated) else entry := by
    rw [sortedPools, replaced, sortedPools]
    refine (List.map_mergeSort fun first firstAmong second secondAmong => ?_).symm
    rw [priorities first firstAmong, priorities second secondAmong]
  rw [sorted]
  generalize sortedPools pools = entries
  induction entries with
  | nil => rfl
  | cons entry rest ih =>
    obtain ⟨poolName, other⟩ := entry
    rw [List.map_cons]
    by_cases at_pool : poolName = needyPool
    · rw [if_pos at_pool, lenders_cons_of_not (by simp), lenders_cons_of_not (by simp [at_pool]),
        ih]
    · rw [if_neg at_pool]
      by_cases lower : other.priority < poolPriority needyPool
      · rw [lenders_cons at_pool lower, lenders_cons at_pool lower, ih]
      · rw [lenders_cons_of_not fun both => lower both.2,
          lenders_cons_of_not fun both => lower both.2, ih]

variable {R : Type} [Field R] [LinearOrder R] [FloorRing R]

/-- What a request lacks in its own pool. -/
def shortfall (budget : TokenBudget R) (pool : TokenPool) (tokens : Int) : Int :=
  budget.reduced tokens - pool.remaining

/-- The pools that may be drained for a request. -/
def lendersOf (budget : TokenBudget R) (poolName : String) : List TokenPool :=
  lenders poolName (sortedPools budget.pools)

/-- Nothing is drained: the pool has what is asked, or no other pool has any to spare. -/
def Undrained (budget : TokenBudget R) (poolName : String) (pool : TokenPool) (tokens : Int) :
    Prop :=
  budget.shortfall pool tokens ≤ 0 ∨
    ∀ lender ∈ budget.lendersOf poolName, lender.remaining ≤ budget.minReserve

/-- What a request needs for its release or commit to settle it. -/
def SettlesWhen (budget : TokenBudget R) (poolName : String) (tokens : Int) : Prop :=
  ∀ pool, budget.pools.get? poolName = some pool →
    0 ≤ pool.reserved ∧
      (budget.gated poolName = true ∨ budget.Undrained poolName pool tokens ∨
        pool.reserved = 0 ∧ DrainsOnlyEmpty (budget.shortfall pool tokens) budget.minReserve
          (budget.lendersOf poolName) 0)

/-- A release gives every pool back what it had, and a commit counts what was granted. -/
structure Settles (budget : TokenBudget R) (poolName : String) (tokens : Int) : Prop where
  released : ∀ other,
    remainingOf ((budget.request poolName tokens).2.release poolName
      (budget.request poolName tokens).1).pools other = remainingOf budget.pools other
  committed :
    ((budget.request poolName tokens).2.commit poolName
      (budget.request poolName tokens).1).totalUsed =
        budget.totalUsed + (budget.request poolName tokens).1

section Settle

variable {pools moved : Dict String TokenPool} {poolName : String} {pool : TokenPool}
  {own drained : Int}

private theorem settle_iff (found : pools.get? poolName = some pool)
    (reserved : moved.get? poolName = some { pool with reserved := pool.reserved + own })
    (used : usedBy moved = usedBy pools + drained) (nonneg : 0 ≤ drained) :
    ((∀ other, remainingOf (moved.set poolName
            (TokenPool.release { pool with reserved := pool.reserved + own } (own + drained)))
          other = remainingOf pools other) ∧
        usedBy (moved.set poolName
          (TokenPool.commit { pool with reserved := pool.reserved + own } (own + drained))) =
            usedBy pools + (own + drained)) ↔
      0 ≤ pool.reserved ∧ (drained = 0 ∨ pool.reserved = 0) ∧
        ∀ other, poolName ≠ other → remainingOf moved other = remainingOf pools other := by
  have commits := Dict.sum_values_set TokenPool.used reserved
    (TokenPool.commit { pool with reserved := pool.reserved + own } (own + drained))
  have committed : usedBy (moved.set poolName
        (TokenPool.commit { pool with reserved := pool.reserved + own } (own + drained))) =
      usedBy pools + drained + min (own + drained) (pool.reserved + own) := by
    simp only [TokenPool.commit] at commits ⊢
    unfold usedBy at used ⊢
    omega
  have here : remainingOf (moved.set poolName
        (TokenPool.release { pool with reserved := pool.reserved + own } (own + drained)))
      poolName = some (max 0 (pool.allocated - pool.used -
        (pool.reserved + own - min (own + drained) (pool.reserved + own)))) := by
    rw [remainingOf, Dict.get?_set_self]
    rfl
  have start : remainingOf pools poolName =
      some (max 0 (pool.allocated - pool.used - pool.reserved)) := by
    rw [remainingOf, found]
    rfl
  rw [committed]
  constructor
  · rintro ⟨released, counted⟩
    refine ⟨by omega, by omega, fun other different => ?_⟩
    have same := released other
    rwa [remainingOf, Dict.get?_set_of_ne _ _ different] at same
  · rintro ⟨reservedNonneg, either, others⟩
    refine ⟨fun other => ?_, by omega⟩
    by_cases same : poolName = other
    · rw [← same, here, start, Option.some.injEq]
      omega
    · rw [remainingOf, Dict.get?_set_of_ne _ _ same]
      exact others other same

end Settle

variable (budget : TokenBudget R)

omit [Field R] [LinearOrder R] [FloorRing R] in
private theorem release_pools {poolName : String} {pool : TokenPool}
    (found : budget.pools.get? poolName = some pool) (tokens : Int) :
    (budget.release poolName tokens).pools = budget.pools.set poolName (pool.release tokens) := by
  rw [release, found]

omit [Field R] [LinearOrder R] [FloorRing R] in
private theorem commit_pools {poolName : String} {pool : TokenPool}
    (found : budget.pools.get? poolName = some pool) (tokens : Int) :
    (budget.commit poolName tokens).pools = budget.pools.set poolName (pool.commit tokens) := by
  rw [commit, found]

private theorem request_parts {poolName : String} {pool : TokenPool}
    (found : budget.pools.get? poolName = some pool) (tokens : Int)
    (openGate : budget.gated poolName = false) :
    ∃ own drained moved,
      budget.request poolName tokens = (own + drained, { budget with pools := moved }) ∧
      moved.get? poolName = some { pool with reserved := pool.reserved + own } ∧
      usedBy moved = usedBy budget.pools + drained ∧ 0 ≤ drained ∧
      (drained = 0 ↔ budget.Undrained poolName pool tokens) ∧
      ((∀ other, poolName ≠ other → remainingOf moved other = remainingOf budget.pools other) ↔
        DrainsOnlyEmpty (budget.shortfall pool tokens) budget.minReserve
          (budget.lendersOf poolName) 0) := by
  let own := min (budget.reduced tokens) pool.remaining
  let pools := budget.pools.set poolName { pool with reserved := pool.reserved + own }
  have requested : budget.request poolName tokens =
      if own < budget.reduced tokens then
        let moved := redistribute budget.minReserve pools poolName (budget.reduced tokens - own)
        (own + moved.1, { budget with pools := moved.2 })
      else (own, { budget with pools := pools }) := by
    rw [request, openGate, if_neg Bool.false_ne_true, found]
    rfl
  have reserved : pools.get? poolName = some { pool with reserved := pool.reserved + own } :=
    Dict.get?_set_self _ _ _
  have used : usedBy pools = usedBy budget.pools := by
    have moved := Dict.sum_values_set TokenPool.used found
      { pool with reserved := pool.reserved + own }
    dsimp only at moved
    exact add_right_cancel moved
  have elsewhere : ∀ other, poolName ≠ other →
      remainingOf pools other = remainingOf budget.pools other := by
    intro other different
    rw [remainingOf, Dict.get?_set_of_ne _ _ different, remainingOf]
  by_cases short : own < budget.reduced tokens
  · have lacking : budget.reduced tokens - own = budget.shortfall pool tokens := by
      unfold shortfall
      omega
    have positive : 0 < budget.shortfall pool tokens := by omega
    have drained := redistribute_drains budget.minReserve pools poolName positive
    have lends : lenders poolName (sortedPools pools) = budget.lendersOf poolName :=
      lenders_sortedPools_set found rfl
    have kept := drained.untouched poolName fun _ _ _ => rfl
    have available := sum_spare_nonneg budget.minReserve (budget.lendersOf poolName)
    rw [if_pos short, lacking] at requested
    refine ⟨own, _, _, requested, ?_, ?_, ?_, ?_, ?_⟩
    · exact kept.trans reserved
    · have counted := drained.used
      rw [used] at counted
      exact (Int.add_zero _).symm.trans counted
    · have amount := drained.amount
      rw [lends] at amount
      exact amount ▸ (by omega)
    · rw [Undrained, ← sum_spare_eq_zero_iff, drained.amount, lends]
      omega
    · rw [← lends, ← drained.remaining_iff]
      constructor
      · intro others other
        by_cases same : poolName = other
        · rw [← same, remainingOf, remainingOf]
          exact congrArg _ kept
        · rw [elsewhere other same]
          exact others other same
      · intro all other different
        rw [← elsewhere other different]
        exact all other
  · have enough : budget.shortfall pool tokens ≤ 0 := by
      unfold shortfall
      omega
    rw [if_neg short] at requested
    refine ⟨own, 0, pools, by rw [requested, Int.add_zero], reserved, by omega, le_refl 0, ?_, ?_⟩
    · exact iff_of_true rfl (.inl enough)
    · exact iff_of_true elsewhere (drainsOnlyEmpty_of_met enough)

private theorem settles_iff_of_request {budget : TokenBudget R} {poolName : String}
    {pool : TokenPool}
    {tokens own drained : Int} {moved : Dict String TokenPool}
    (found : budget.pools.get? poolName = some pool)
    (requested : budget.request poolName tokens =
      (own + drained, { budget with pools := moved }))
    (reserved : moved.get? poolName = some { pool with reserved := pool.reserved + own })
    (used : usedBy moved = usedBy budget.pools + drained) (nonneg : 0 ≤ drained) :
    budget.Settles poolName tokens ↔
      0 ≤ pool.reserved ∧ (drained = 0 ∨ pool.reserved = 0) ∧
        ∀ other, poolName ≠ other → remainingOf moved other = remainingOf budget.pools other := by
  rw [← settle_iff found reserved used nonneg]
  have released := release_pools { budget with pools := moved } reserved (own + drained)
  have committed := commit_pools { budget with pools := moved } reserved (own + drained)
  constructor
  · rintro ⟨back, counted⟩
    rw [requested] at back counted
    rw [totalUsed, committed] at counted
    rw [released] at back
    exact ⟨back, counted⟩
  · rintro ⟨back, counted⟩
    constructor
    · rw [requested, released]
      exact back
    · rw [requested, totalUsed, committed]
      exact counted

/-- What a request grants is released or committed in full exactly under `SettlesWhen`. -/
theorem settles_iff (budget : TokenBudget R) (poolName : String) (tokens : Int) :
    budget.Settles poolName tokens ↔ budget.SettlesWhen poolName tokens := by
  cases found : budget.pools.get? poolName with
  | none =>
    have unknown : budget.request poolName tokens = (0, budget) := by
      rw [request, found, ite_self]
    refine iff_of_true ⟨fun other => ?_, ?_⟩ fun pool held => ?_
    · rw [unknown, release, found]
    · rw [unknown, commit, found, Int.add_zero]
    · rw [found] at held
      cases held
  | some pool =>
    have condition : budget.SettlesWhen poolName tokens ↔ 0 ≤ pool.reserved ∧
        (budget.gated poolName = true ∨ budget.Undrained poolName pool tokens ∨
          pool.reserved = 0 ∧ DrainsOnlyEmpty (budget.shortfall pool tokens) budget.minReserve
            (budget.lendersOf poolName) 0) := by
      rw [SettlesWhen, found]
      exact ⟨fun all => all pool rfl, fun here _ same => Option.some.inj same ▸ here⟩
    rw [condition]
    cases gate : budget.gated poolName with
    | true =>
      have nothing : budget.request poolName tokens =
          (0 + 0, { budget with pools := budget.pools }) := by
        rw [request, if_pos gate]
        rfl
      rw [settles_iff_of_request found nothing (by rw [found, Int.add_zero])
        (Int.add_zero _).symm (le_refl 0)]
      exact ⟨fun settles => ⟨settles.1, .inl rfl⟩,
        fun condition => ⟨condition.1, .inl rfl, fun _ _ => rfl⟩⟩
    | false =>
      obtain ⟨own, drained, moved, requested, reserved, used, nonneg, idle, others⟩ :=
        budget.request_parts found tokens gate
      rw [settles_iff_of_request found requested reserved used nonneg, others, idle]
      have exempt : budget.Undrained poolName pool tokens →
          DrainsOnlyEmpty (budget.shortfall pool tokens) budget.minReserve
            (budget.lendersOf poolName) 0 := by
        rintro (enough | none)
        · exact drainsOnlyEmpty_of_met enough
        · exact drainsOnlyEmpty_of_no_spare (sum_spare_eq_zero_iff.mpr none)
      refine and_congr_right fun _ => ?_
      rw [eq_false Bool.false_ne_true, false_or]
      constructor
      · rintro ⟨undrained | unreserved, drains⟩
        · exact .inl undrained
        · exact .inr ⟨unreserved, drains⟩
      · rintro (undrained | ⟨unreserved, drains⟩)
        · exact ⟨.inl undrained, exempt undrained⟩
        · exact ⟨.inr unreserved, drains⟩

/-! ### A request that is drained from another pool -/

/-- Half of the tokens for `system`, of which 100 are requested, and half for `user`. -/
def halves : TokenBudget ℚ :=
  ((create 1000 50 (Dict.ofList [(poolSystem, 0.5), (poolUser, 0.5)]) 0 0 3).request
    poolSystem 100).2

/-- The tokens that are taken from `user` stay booked. -/
theorem not_settles_halves : ¬halves.Settles poolSystem 500 := by
  intro settles
  have found : halves.pools.get? poolSystem =
      some ⟨poolSystem, 500, 0, 100, poolPriority poolSystem⟩ := by decide +kernel
  obtain ⟨own, drained, moved, requested, reserved, used, nonneg, idle, _⟩ :=
    halves.request_parts found 500 (by decide +kernel)
  obtain ⟨_, either, _⟩ :=
    (settles_iff_of_request found requested reserved used nonneg).mp settles
  have undrained : halves.Undrained poolSystem
      ⟨poolSystem, 500, 0, 100, poolPriority poolSystem⟩ 500 :=
    idle.mp (either.resolve_right (by decide))
  rcases undrained with enough | none
  · revert enough
    decide +kernel
  · have among : (poolUser, (⟨poolUser, 500, 0, 0, poolPriority poolUser⟩ : TokenPool)) ∈
        sortedPools halves.pools :=
      (List.mergeSort_perm _ _).mem_iff.mpr (by decide +kernel)
    have lends : (⟨poolUser, 500, 0, 0, poolPriority poolUser⟩ : TokenPool) ∈
        halves.lendersOf poolSystem :=
      List.mem_map.mpr ⟨_, List.mem_filter.mpr ⟨among, by decide +kernel⟩, rfl⟩
    have left := none _ lends
    revert left
    decide +kernel

end TokenBudget

end Swarmind.MemoryRag
