import Swarmind.MemoryRag.TokenBudget.Pools

/-!
Owns what a budget grants. A pool covers the greater of its allocation and of
what it already holds; requests, commits and releases keep the sum of these
within the total. Only a failure can break it: it cuts the total, and with it
the allocations, under what the pools hold.

The gate of a request looks at the confidence and never at `disabled`.
-/

namespace Swarmind.MemoryRag

open Swarmind.Library

/-! ### One pool -/

namespace TokenPool

def held (pool : TokenPool) : Int := pool.used + pool.reserved

/-- What the pool may come to hold without another allocation. -/
def extent (pool : TokenPool) : Int := max pool.allocated pool.held

def Sound (pool : TokenPool) : Prop := 0 ≤ pool.used ∧ 0 ≤ pool.reserved

variable (pool : TokenPool)

private theorem held_le_extent : pool.held ≤ pool.extent := le_max_right _ _

private theorem remaining_nonneg : 0 ≤ pool.remaining := le_max_left _ _

private theorem extent_of_spent {pool updated : TokenPool} {amount : Int}
    (allocated : updated.allocated = pool.allocated) (holds : updated.held = pool.held + amount)
    (nonneg : 0 ≤ amount) (fits : amount ≤ pool.remaining) : updated.extent = pool.extent := by
  unfold extent
  unfold remaining at fits
  rw [allocated, holds]
  unfold held
  omega

private theorem allocate_fst_le (tokens : Int) :
    (pool.allocate tokens).1 ≤ pool.remaining := min_le_right _ _

private theorem allocate_fst_nonneg {tokens : Int} (nonneg : 0 ≤ tokens) :
    0 ≤ (pool.allocate tokens).1 := le_min nonneg pool.remaining_nonneg

private theorem held_allocate (tokens : Int) :
    (pool.allocate tokens).2.held = pool.held + (pool.allocate tokens).1 := by
  simp only [held, allocate]
  omega

private theorem held_commit (tokens : Int) : (pool.commit tokens).held = pool.held := by
  simp only [held, commit]
  omega

end TokenPool

/-! ### All pools -/

def heldBy (pools : Dict String TokenPool) : Int := (pools.values.map TokenPool.held).sum

def extentOf (pools : Dict String TokenPool) : Int := (pools.values.map TokenPool.extent).sum

def AllSound (pools : Dict String TokenPool) : Prop := ∀ pool ∈ pools.values, pool.Sound

private theorem heldBy_le_extentOf (pools : Dict String TokenPool) :
    heldBy pools ≤ extentOf pools :=
  List.sum_le_sum fun pool _ => pool.held_le_extent

variable {pools : Dict String TokenPool}

private theorem AllSound.heldBy_nonneg (sound : AllSound pools) : 0 ≤ heldBy pools := by
  apply List.sum_nonneg
  intro held member
  obtain ⟨pool, among, rfl⟩ := List.mem_map.mp member
  exact add_nonneg (sound pool among).1 (sound pool among).2

private theorem AllSound.set (sound : AllSound pools) {poolName : String}
    {pool : TokenPool} (soundPool : pool.Sound) : AllSound (pools.set poolName pool) := by
  intro other member
  obtain ⟨key, found⟩ := (Dict.mem_values_iff _ _).mp member
  rw [Dict.get?_set] at found
  split_ifs at found with same
  · exact Option.some.inj found ▸ soundPool
  · exact sound other ((Dict.mem_values_iff _ _).mpr ⟨key, found⟩)

private theorem AllSound.get? (sound : AllSound pools) {poolName : String}
    {pool : TokenPool} (found : pools.get? poolName = some pool) : pool.Sound :=
  sound pool ((Dict.mem_values_iff _ _).mpr ⟨poolName, found⟩)

/-- The pools came to hold `amount` tokens more, within their extents. -/
structure Spends (before after : Dict String TokenPool) (amount : Int) : Prop where
  held : heldBy after = heldBy before + amount
  extent : extentOf after = extentOf before
  sound : AllSound before → AllSound after

namespace Spends

private theorem refl (pools : Dict String TokenPool) : Spends pools pools 0 :=
  ⟨(add_zero _).symm, rfl, id⟩

/-- Two spendings add up. -/
theorem trans {first second third : Dict String TokenPool} {early late : Int}
    (start : Spends first second early) (finish : Spends second third late) :
    Spends first third (early + late) :=
  ⟨by rw [finish.held, start.held, add_assoc], finish.extent.trans start.extent,
    fun sound => finish.sound (start.sound sound)⟩

theorem set {pools : Dict String TokenPool} {poolName : String} {pool updated : TokenPool}
    {amount : Int} (found : pools.get? poolName = some pool)
    (holds : updated.held = pool.held + amount) (sameExtent : updated.extent = pool.extent)
    (sound : pool.Sound → updated.Sound) : Spends pools (pools.set poolName updated) amount := by
  have heldSum := Dict.sum_values_set TokenPool.held found updated
  have extentSum := Dict.sum_values_set TokenPool.extent found updated
  constructor
  · unfold heldBy
    omega
  · unfold extentOf
    omega
  · exact fun all => all.set (sound (all.get? found))

/-- Taking tokens from a pool spends that many. -/
theorem take {pools : Dict String TokenPool} {poolName : String} {pool : TokenPool} {amount : Int}
    (found : pools.get? poolName = some pool) (nonneg : 0 ≤ amount)
    (fits : amount ≤ pool.remaining) :
    Spends pools (pools.set poolName { pool with used := pool.used + amount }) amount := by
  have holds : ({ pool with used := pool.used + amount } : TokenPool).held =
      pool.held + amount := by
    simp only [TokenPool.held]
    omega
  apply Spends.set found holds
  · exact TokenPool.extent_of_spent rfl holds nonneg fits
  · exact fun sound => ⟨add_nonneg sound.1 nonneg, sound.2⟩

end Spends

/-! ### The drain -/

namespace TokenBudget

/-- The pools from which `drain` may take. -/
def Drained (needyPool : String) (minReserve : Int) (entries : List (String × TokenPool)) : Prop :=
  ∀ entry ∈ entries, entry.1 ≠ needyPool → entry.2.priority < poolPriority needyPool →
    entry.2.remaining ≤ minReserve

instance (needyPool : String) (minReserve : Int) (entries : List (String × TokenPool)) :
    Decidable (Drained needyPool minReserve entries) := by
  unfold Drained
  infer_instance

variable {needyPool : String}

private theorem drained_cons {minReserve : Int} {entry : String × TokenPool}
    {rest : List (String × TokenPool)}
    (idle : entry.1 ≠ needyPool → entry.2.priority < poolPriority needyPool →
      entry.2.remaining ≤ minReserve) :
    Drained needyPool minReserve (entry :: rest) ↔ Drained needyPool minReserve rest :=
  ⟨fun all other member => all other (List.mem_cons_of_mem entry member),
    fun later => List.forall_mem_cons.mpr ⟨idle, later⟩⟩

/-- What `drain` leaves: the taken tokens are held, within the extents, and
nothing is taken exactly where no pool has tokens to spare. -/
structure DrainSpec (needyPool : String) (deficit minReserve : Int)
    (entries : List (String × TokenPool)) (total : Int) (pools : Dict String TokenPool)
    (result : Int × Dict String TokenPool) : Prop where
  spends : Spends pools result.2 (result.1 - total)
  grows : total ≤ result.1
  idle : total < deficit → (result.1 = total ↔ Drained needyPool minReserve entries)

variable {deficit minReserve : Int}

private theorem DrainSpec.refl
    {entries : List (String × TokenPool)} {total : Int} (pools : Dict String TokenPool)
    (idle : total < deficit → Drained needyPool minReserve entries) :
    DrainSpec needyPool deficit minReserve entries total pools (total, pools) where
  spends := by
    rw [sub_self]
    exact Spends.refl pools
  grows := le_refl total
  idle short := iff_of_true rfl (idle short)

private theorem DrainSpec.take {entries rest : List (String × TokenPool)} {total take : Int}
    {pools taken : Dict String TokenPool} {result : Int × Dict String TokenPool}
    (moved : Spends pools taken take) (takes : 0 < take)
    (busy : ¬ Drained needyPool minReserve entries)
    (later : DrainSpec needyPool deficit minReserve rest (total + take) taken result) :
    DrainSpec needyPool deficit minReserve entries total pools result := by
  have grows := later.grows
  have amount : take + (result.1 - (total + take)) = result.1 - total := by omega
  exact ⟨amount ▸ moved.trans later.spends, by omega, fun _ => iff_of_false (by omega) busy⟩

private theorem drain_spec (reserve : 0 ≤ minReserve) {entries : List (String × TokenPool)}
    {total : Int}
    {pools : Dict String TokenPool} (distinct : (entries.map Prod.fst).Nodup)
    (current : ∀ entry ∈ entries, pools.get? entry.1 = some entry.2) :
    DrainSpec needyPool deficit minReserve entries total pools
      (drain needyPool deficit minReserve entries total pools) := by
  induction entries generalizing total pools with
  | nil => exact DrainSpec.refl pools fun _ entry member => by cases member
  | cons entry rest ih =>
    obtain ⟨absent, distinctRest⟩ := List.nodup_cons.mp distinct
    obtain ⟨head, currentRest⟩ := List.forall_mem_cons.mp current
    obtain ⟨poolName, pool⟩ := entry
    have found : pools.get? poolName = some pool := head
    have skip (idle : poolName ≠ needyPool → pool.priority < poolPriority needyPool →
        pool.remaining ≤ minReserve) :
        DrainSpec needyPool deficit minReserve ((poolName, pool) :: rest) total pools
          (drain needyPool deficit minReserve rest total pools) := by
      have later : DrainSpec needyPool deficit minReserve rest total pools
          (drain needyPool deficit minReserve rest total pools) :=
        ih distinctRest currentRest
      obtain ⟨spends, grows, idleRest⟩ := later
      exact ⟨spends, grows, fun short => (idleRest short).trans (drained_cons idle).symm⟩
    by_cases needy : poolName = needyPool
    · rw [drain, if_pos needy]
      exact skip fun different => absurd needy different
    by_cases priority : poolPriority needyPool ≤ pool.priority
    · rw [drain, if_neg needy, if_pos priority]
      exact skip fun _ lower => absurd priority (not_le.mpr lower)
    by_cases spare : max 0 (pool.remaining - minReserve) ≤ 0
    · rw [drain, if_neg needy, if_neg priority, if_pos spare]
      exact skip fun _ _ => by omega
    -- The pool has tokens to spare, so something is taken while the deficit lasts.
    have busy : ¬ Drained needyPool minReserve ((poolName, pool) :: rest) := by
      intro drained
      have bounded := drained _ List.mem_cons_self needy (not_le.mp priority)
      dsimp only at bounded
      omega
    rw [drain, if_neg needy, if_neg priority, if_neg spare]
    generalize taking : min (max 0 (pool.remaining - minReserve)) (deficit - total) = take
    dsimp only
    by_cases takes : 0 < take
    · have fits : take ≤ pool.remaining := by omega
      have moved := Spends.take found takes.le fits
      rw [if_pos takes]
      split_ifs with enough
      · exact DrainSpec.take moved takes busy
          (DrainSpec.refl _ fun short => absurd enough (not_le.mpr short) : DrainSpec _ _ _ rest ..)
      · have currentNext : ∀ entry ∈ rest,
            (pools.set poolName { pool with used := pool.used + take }).get? entry.1 =
              some entry.2 := by
          intro other member
          have different : poolName ≠ other.1 := fun equal =>
            absent (List.mem_map.mpr ⟨other, member, equal.symm⟩)
          rw [Dict.get?_set_of_ne _ _ different]
          exact currentRest other member
        exact DrainSpec.take moved takes busy (ih distinctRest currentNext)
    · have met : deficit ≤ total := by omega
      rw [if_neg takes, if_pos met]
      exact DrainSpec.refl pools fun short => absurd met (not_le.mpr short)

private theorem redistribute_spec {minReserve : Int} (reserve : 0 ≤ minReserve)
    (pools : Dict String TokenPool) (needyPool : String) (deficit : Int) :
    DrainSpec needyPool deficit minReserve (sortedPools pools) 0 pools
      (redistribute minReserve pools needyPool deficit) := by
  have sorted : (sortedPools pools).Perm pools.entries := List.mergeSort_perm _ _
  apply drain_spec reserve
  · exact (sorted.map Prod.fst).nodup_iff.mpr pools.distinct
  · intro entry member
    exact (pools.get?_eq_some_iff _ _).mpr (sorted.mem_iff.mp member)

/-! ### Requests -/

variable {R : Type} [Field R] [LinearOrder R] [FloorRing R]

def NothingToGive (budget : TokenBudget R) (poolName : String) (tokens : Int) : Prop :=
  budget.gated poolName = true ∨ budget.reduced tokens ≤ 0 ∨
    ∀ pool ∈ budget.pools.get? poolName, pool.remaining = 0 ∧
      Drained poolName budget.minReserve budget.pools.entries

instance (budget : TokenBudget R) (poolName : String) (tokens : Int) :
    Decidable (NothingToGive budget poolName tokens) :=
  inferInstanceAs (Decidable (budget.gated poolName = true ∨ budget.reduced tokens ≤ 0 ∨
    ∀ pool ∈ budget.pools.get? poolName, pool.remaining = 0 ∧
      Drained poolName budget.minReserve budget.pools.entries))

/-- What a request leaves: the granted tokens are held, within the extents, and
nothing but the pools changes. -/
structure RequestSpec (budget : TokenBudget R) (poolName : String) (tokens : Int)
    (result : Int × TokenBudget R) : Prop where
  spends : Spends budget.pools result.2.pools result.1
  grants : 0 ≤ result.1
  frame : result.2 = { budget with pools := result.2.pools }
  idle : result.1 = 0 ↔ NothingToGive budget poolName tokens

variable {tokens : Int}

private theorem reduced_nonneg [IsStrictOrderedRing R] (budget : TokenBudget R)
    (nonneg : 0 ≤ tokens) : 0 ≤ budget.reduced tokens := by
  unfold reduced
  split_ifs
  · apply truncate_nonneg
    have scaled : (0 : R) ≤ tokens := Int.cast_nonneg nonneg
    positivity
  · exact nonneg

private theorem spends_allocate {pools : Dict String TokenPool} {poolName : String}
    {pool : TokenPool}
    (found : pools.get? poolName = some pool) (nonneg : 0 ≤ tokens) :
    Spends pools (pools.set poolName (pool.allocate tokens).2) (pool.allocate tokens).1 := by
  have gives := pool.allocate_fst_nonneg nonneg
  apply Spends.set found (pool.held_allocate tokens)
  · exact TokenPool.extent_of_spent rfl (pool.held_allocate tokens) gives
      (pool.allocate_fst_le tokens)
  · exact fun sound => ⟨sound.1, add_nonneg sound.2 gives⟩

private theorem drained_sortedPools_set (pools : Dict String TokenPool) (poolName : String)
    (pool : TokenPool) (minReserve : Int) :
    Drained poolName minReserve (sortedPools (pools.set poolName pool)) ↔
      Drained poolName minReserve pools.entries := by
  have sorted : (sortedPools (pools.set poolName pool)).Perm (pools.set poolName pool).entries :=
    List.mergeSort_perm _ _
  have same (entry : String × TokenPool) (different : entry.1 ≠ poolName) :
      entry ∈ sortedPools (pools.set poolName pool) ↔ entry ∈ pools.entries := by
    rw [sorted.mem_iff, ← Dict.get?_eq_some_iff, ← Dict.get?_eq_some_iff,
      Dict.get?_set_of_ne _ _ different.symm]
  exact ⟨fun all entry member different => all entry ((same entry different).mpr member) different,
    fun all entry member different => all entry ((same entry different).mp member) different⟩

variable {budget : TokenBudget R}

private theorem request_spec [IsStrictOrderedRing R]
    (reserve : 0 ≤ budget.minReserve) (poolName : String) (nonneg : 0 ≤ tokens) :
    RequestSpec budget poolName tokens (budget.request poolName tokens) := by
  have asks := budget.reduced_nonneg nonneg
  unfold request
  split_ifs with gate
  · exact ⟨Spends.refl _, le_refl 0, rfl, iff_of_true rfl (.inl gate)⟩
  cases found : budget.pools.get? poolName with
  | none =>
    refine ⟨Spends.refl _, le_refl 0, rfl, iff_of_true rfl (.inr (.inr ?_))⟩
    rw [found]
    exact fun pool absent => absurd absent (Option.not_mem_none pool)
  | some pool =>
    have own := spends_allocate found asks
    have gives := pool.allocate_fst_nonneg asks
    have amount : (pool.allocate (budget.reduced tokens)).1 =
        min (budget.reduced tokens) pool.remaining := rfl
    have remains := pool.remaining_nonneg
    have nothing : NothingToGive budget poolName tokens ↔
        budget.reduced tokens ≤ 0 ∨ (pool.remaining = 0 ∧
          Drained poolName budget.minReserve budget.pools.entries) := by
      rw [NothingToGive, found]
      simp [gate]
    dsimp only
    split_ifs with short
    · obtain ⟨spends, grows, idle⟩ := redistribute_spec reserve
        (budget.pools.set poolName (pool.allocate (budget.reduced tokens)).2) poolName
        (budget.reduced tokens - (pool.allocate (budget.reduced tokens)).1)
      rw [sub_zero] at spends
      refine ⟨own.trans spends, by dsimp only; omega, rfl, ?_⟩
      rw [nothing, ← drained_sortedPools_set budget.pools poolName
        (pool.allocate (budget.reduced tokens)).2, ← idle (by omega)]
      dsimp only
      omega
    · refine ⟨own, gives, rfl, ?_⟩
      rw [nothing]
      dsimp only
      constructor
      · exact fun none => .inl (by omega)
      · rintro (asksNothing | ⟨empty, _⟩)
        · omega
        · omega

/-! ### Coverage -/

/-- The extents of all pools fit in the total. -/
structure Covered (budget : TokenBudget R) : Prop where
  sound : AllSound budget.pools
  fits : extentOf budget.pools ≤ max 0 budget.totalBudget
  reserve : 0 ≤ budget.minReserve

variable {allocation : Dict String R}

private theorem mem_values_initialPools {totalBudget : Int}
    {pool : TokenPool} (member : pool ∈ (initialPools totalBudget allocation).values) :
    pool.used = 0 ∧ pool.reserved = 0 := by
  obtain ⟨key, found⟩ := (Dict.mem_values_iff _ _).mp member
  obtain ⟨poolName, _, equal⟩ := List.mem_map.mp
    (Dict.mem_of_mem_ofList ((Dict.get?_eq_some_iff _ _ _).mp found))
  rw [← (Prod.mk.inj equal).2]
  exact ⟨rfl, rfl⟩

private theorem extentOf_initialPools (totalBudget : Int) (allocation : Dict String R) :
    extentOf (initialPools totalBudget allocation) =
      (allPools.map fun poolName => max (allocatedShare totalBudget allocation poolName) 0).sum := by
  have distinct : ((allPools.map fun poolName => (poolName,
      { name := poolName
        allocated := allocatedShare totalBudget allocation poolName
        used := 0
        reserved := 0
        priority := poolPriority poolName : TokenPool })).map Prod.fst).Nodup :=
    (by decide : allPools.Nodup)
  rw [extentOf, initialPools, Dict.values, Dict.entries_ofList distinct]
  rfl

omit [FloorRing R] in
private theorem share_nonneg (nonneg : ∀ share ∈ allocation.values, 0 ≤ share)
    (poolName : String) : 0 ≤ (allocation.get? poolName).getD 0 := by
  cases found : allocation.get? poolName with
  | none => exact le_refl 0
  | some share => exact nonneg share ((Dict.mem_values_iff _ _).mpr ⟨poolName, found⟩)

private theorem sum_allocatedShare_le [IsStrictOrderedRing R] (totalBudget : Int)
    (nonneg : ∀ share ∈ allocation.values, 0 ≤ share) (whole : allocation.values.sum ≤ 1) :
    (allPools.map fun poolName => max (allocatedShare totalBudget allocation poolName) 0).sum ≤
      max 0 totalBudget := by
  have each := share_nonneg nonneg
  rcases le_total 0 totalBudget with funded | overdrawn
  · have scaled : (0 : R) ≤ totalBudget := Int.cast_nonneg funded
    have same : (allPools.map fun poolName =>
          max (allocatedShare totalBudget allocation poolName) 0) =
        (allPools.map fun poolName => (allocation.get? poolName).getD 0).map fun share =>
          truncate ((totalBudget : R) * share) := by
      rw [List.map_map]
      apply List.map_congr_left
      exact fun poolName _ => max_eq_left (truncate_nonneg (mul_nonneg scaled (each poolName)))
    rw [same, max_eq_right funded]
    apply sum_truncate_le funded
    · intro share member
      obtain ⟨poolName, _, rfl⟩ := List.mem_map.mp member
      exact each poolName
    · exact (Dict.sum_getD_le nonneg (by decide : allPools.Nodup)).trans whole
  · have scaled : (totalBudget : R) ≤ 0 := Int.cast_nonpos.mpr overdrawn
    rw [max_eq_left overdrawn]
    apply le_of_eq
    apply List.sum_eq_zero
    intro share member
    obtain ⟨poolName, _, rfl⟩ := List.mem_map.mp member
    exact max_eq_right (truncate_nonpos (mul_nonpos_of_nonpos_of_nonneg scaled (each poolName)))

private theorem covered_create [IsStrictOrderedRing R] (totalBudget priority : Int)
    (nonneg : ∀ share ∈ allocation.values, 0 ≤ share) (whole : allocation.values.sum ≤ 1)
    (confidence : R) {minReserve : Int} (reserve : 0 ≤ minReserve) (maxFailures : Int) :
    Covered (create totalBudget priority allocation confidence minReserve maxFailures) := by
  refine ⟨?_, ?_, reserve⟩
  · intro pool member
    obtain ⟨unused, unreserved⟩ := mem_values_initialPools member
    exact ⟨unused.ge, unreserved.ge⟩
  · show extentOf (initialPools totalBudget allocation) ≤ _
    rw [extentOf_initialPools]
    exact sum_allocatedShare_le totalBudget nonneg whole

def NonNegative : BudgetCall R → Prop
  | .request _ tokens | .commit _ tokens | .release _ tokens | .recordFailure _ tokens =>
    0 ≤ tokens
  | .setConfidence _ => True

instance : DecidablePred (NonNegative (R := R))
  | .request _ tokens | .commit _ tokens | .release _ tokens | .recordFailure _ tokens =>
    inferInstanceAs (Decidable (0 ≤ tokens))
  | .setConfidence _ => .isTrue trivial

/-- A failure leaves a total that covers the shrunk pools with what they hold. -/
def CoversFailures (budget : TokenBudget R) : BudgetCall R → Prop
  | .recordFailure _ tokensUsed =>
    extentOf (budget.shrunkPools tokensUsed) ≤ budget.penalized tokensUsed
  | _ => True

instance (budget : TokenBudget R) : DecidablePred (CoversFailures budget)
  | .recordFailure _ tokensUsed => inferInstanceAs
      (Decidable (extentOf (budget.shrunkPools tokensUsed) ≤ budget.penalized tokensUsed))
  | .request _ _ | .commit _ _ | .release _ _ | .setConfidence _ => .isTrue trivial

omit [Field R] [LinearOrder R] [FloorRing R] in
private theorem Covered.release (covered : Covered budget) (poolName : String)
    (nonneg : 0 ≤ tokens) :
    Covered (budget.release poolName tokens) := by
  unfold TokenBudget.release
  cases found : budget.pools.get? poolName with
  | none => exact covered
  | some pool =>
    obtain ⟨used, reserved⟩ := covered.sound.get? found
    have extents := Dict.sum_values_set TokenPool.extent found (pool.release tokens)
    have smaller : (pool.release tokens).extent ≤ pool.extent := by
      simp only [TokenPool.extent, TokenPool.held, TokenPool.release]
      omega
    refine ⟨covered.sound.set ⟨used, ?_⟩, ?_, covered.reserve⟩
    · exact sub_nonneg.mpr (min_le_right _ _)
    · have fits := covered.fits
      unfold extentOf at fits
      show extentOf (budget.pools.set poolName (pool.release tokens)) ≤ max 0 budget.totalBudget
      unfold extentOf
      omega

omit [Field R] [LinearOrder R] [FloorRing R] in
private theorem Covered.commit (covered : Covered budget) (poolName : String)
    (nonneg : 0 ≤ tokens) :
    Covered (budget.commit poolName tokens) := by
  unfold TokenBudget.commit
  cases found : budget.pools.get? poolName with
  | none => exact covered
  | some pool =>
    have holds : (pool.commit tokens).held = pool.held + 0 := by
      rw [pool.held_commit, add_zero]
    have spends : Spends budget.pools (budget.pools.set poolName (pool.commit tokens)) 0 := by
      apply Spends.set found holds
      · exact TokenPool.extent_of_spent rfl holds le_rfl pool.remaining_nonneg
      · rintro ⟨used, reserved⟩
        exact ⟨add_nonneg used (le_min nonneg reserved), sub_nonneg.mpr (min_le_right _ _)⟩
    exact ⟨spends.sound covered.sound, spends.extent.trans_le covered.fits, covered.reserve⟩

private theorem Covered.request [IsStrictOrderedRing R] (covered : Covered budget)
    (poolName : String)
    (nonneg : 0 ≤ tokens) : Covered (budget.request poolName tokens).2 := by
  obtain ⟨spends, _, frame, _⟩ := request_spec covered.reserve poolName nonneg
  rw [frame]
  exact ⟨spends.sound covered.sound, spends.extent.trans_le covered.fits, covered.reserve⟩

private theorem allSound_shrunkPools (sound : AllSound budget.pools)
    (tokensUsed : Int) : AllSound (budget.shrunkPools tokensUsed) := by
  unfold shrunkPools
  split_ifs
  · intro pool member
    obtain ⟨key, found⟩ := (Dict.mem_values_iff _ _).mp member
    rw [Dict.get?_mapValues] at found
    obtain ⟨old, stored, rfl⟩ := Option.map_eq_some_iff.mp found
    have kept : old.Sound := sound.get? stored
    exact kept
  · exact sound

private theorem covered_step [IsStrictOrderedRing R] {call : BudgetCall R}
    (covered : Covered budget) (nonneg : NonNegative call) (covers : CoversFailures budget call) :
    Covered (machine.step budget call).2 := by
  cases call with
  | request poolName tokens => exact covered.request poolName nonneg
  | commit poolName tokens => exact covered.commit poolName nonneg
  | release poolName tokens => exact covered.release poolName nonneg
  | setConfidence confidence => exact ⟨covered.sound, covered.fits, covered.reserve⟩
  | recordFailure agentId tokensUsed =>
    exact ⟨allSound_shrunkPools covered.sound tokensUsed, le_max_of_le_right covers,
      covered.reserve⟩

/-! ### Grants -/

/-- A positive grant leaves the pools within the total, and a disabled budget
grants nothing. -/
def GrantsSafely (budget : TokenBudget R) : BudgetCall R → Prop
  | .request poolName tokens =>
    (0 < (budget.request poolName tokens).1 →
      heldBy (budget.request poolName tokens).2.pools ≤
        (budget.request poolName tokens).2.totalBudget) ∧
    (budget.disabled = true → (budget.request poolName tokens).1 = 0)
  | _ => True

instance (budget : TokenBudget R) : DecidablePred (GrantsSafely budget)
  | .request poolName tokens => inferInstanceAs (Decidable (
      (0 < (budget.request poolName tokens).1 →
        heldBy (budget.request poolName tokens).2.pools ≤
          (budget.request poolName tokens).2.totalBudget) ∧
      (budget.disabled = true → (budget.request poolName tokens).1 = 0)))
  | .recordFailure _ _ | .commit _ _ | .release _ _ | .setConfidence _ => .isTrue trivial

def SparesDisabled (budget : TokenBudget R) : BudgetCall R → Prop
  | .request poolName tokens => budget.disabled = true → NothingToGive budget poolName tokens
  | _ => True

instance (budget : TokenBudget R) : DecidablePred (SparesDisabled budget)
  | .request poolName tokens => inferInstanceAs
      (Decidable (budget.disabled = true → NothingToGive budget poolName tokens))
  | .recordFailure _ _ | .commit _ _ | .release _ _ | .setConfidence _ => .isTrue trivial

private theorem grantsSafely_iff [IsStrictOrderedRing R] {call : BudgetCall R}
    (covered : Covered budget)
    (nonneg : NonNegative call) : GrantsSafely budget call ↔ SparesDisabled budget call := by
  cases call with
  | request poolName tokens =>
    obtain ⟨spends, grants, frame, idle⟩ := request_spec covered.reserve poolName nonneg
    have sameTotal : (budget.request poolName tokens).2.totalBudget = budget.totalBudget := by
      rw [frame]
    have within : 0 < (budget.request poolName tokens).1 →
        heldBy (budget.request poolName tokens).2.pools ≤
          (budget.request poolName tokens).2.totalBudget := by
      intro positive
      have holds := spends.held
      have before := covered.sound.heldBy_nonneg
      have bounded := heldBy_le_extentOf (budget.request poolName tokens).2.pools
      have fits := covered.fits
      rw [← spends.extent] at fits
      omega
    rw [GrantsSafely, SparesDisabled, idle]
    exact and_iff_right within
  | commit poolName tokens => exact Iff.rfl
  | release poolName tokens => exact Iff.rfl
  | setConfidence confidence => exact Iff.rfl
  | recordFailure agentId tokensUsed => exact Iff.rfl

/-- While every failure leaves enough, a run breaks the limits exactly where it
asks a disabled budget that still has something to give. -/
theorem grantsSafely_along_iff [IsStrictOrderedRing R] (totalBudget priority : Int)
    {allocation : Dict String R} (shares : ∀ share ∈ allocation.values, 0 ≤ share)
    (whole : allocation.values.sum ≤ 1) (confidence : R) {minReserve : Int}
    (reserve : 0 ≤ minReserve) (maxFailures : Int) {calls : List (BudgetCall R)}
    (nonneg : ∀ call ∈ calls, NonNegative call)
    (covers : machine.Along CoversFailures
      (create totalBudget priority allocation confidence minReserve maxFailures) calls) :
    machine.Along GrantsSafely
        (create totalBudget priority allocation confidence minReserve maxFailures) calls ↔
      machine.Along SparesDisabled
        (create totalBudget priority allocation confidence minReserve maxFailures) calls := by
  have start := covered_create totalBudget priority shares whole confidence reserve maxFailures
  have permitted : machine.Along (fun budget call => NonNegative call ∧ CoversFailures budget call)
      (create totalBudget priority allocation confidence minReserve maxFailures) calls :=
    (machine.along_and _ _ _ _).mpr ⟨machine.along_of_mem nonneg _, covers⟩
  exact machine.along_congr_of_invariant
    (fun _ _ covered allowed => covered_step covered allowed.1 allowed.2)
    (fun _ _ covered allowed => grantsSafely_iff covered allowed.1) start permitted

/-- The budget of the examples below: the default shares of 1000 tokens. -/
def smallBudget (maxFailures : Int) : TokenBudget Rat :=
  create 1000 priorityNormal defaultPoolAllocation 0 0 maxFailures

/-- A run with a commit, a failure and a change of the confidence. -/
theorem grantsSafely_small :
    machine.Along GrantsSafely (smallBudget 1)
      [.request poolRag 200, .commit poolRag 100, .recordFailure "coder" 200,
        .setConfidence 0.95, .request poolRag 10] :=
  (grantsSafely_along_iff 1000 priorityNormal (by decide +kernel) (by decide +kernel) 0
    (le_refl 0) 1 (by decide) (by decide +kernel)).mpr (by decide +kernel)

/-- A failure cuts the total under what `rag` holds, and `system` still grants;
after the first failure allowed, a disabled budget grants. -/
theorem over_grants :
    (¬ ∀ calls : List (BudgetCall Rat), (∀ call ∈ calls, NonNegative call) →
      machine.Along GrantsSafely (smallBudget 3) calls) ∧
    ¬ ∀ calls : List (BudgetCall Rat), (∀ call ∈ calls, NonNegative call) →
      machine.Along GrantsSafely (smallBudget 1) calls := by
  constructor
  · intro safe
    exact absurd (safe [.request poolRag 300, .recordFailure "coder" 1600,
      .request poolSystem 30] (by decide)) (by decide +kernel)
  · intro safe
    exact absurd (safe [.recordFailure "coder" 0, .request poolRag 10] (by decide))
      (by decide +kernel)

end TokenBudget

end Swarmind.MemoryRag
