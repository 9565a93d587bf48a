import Swarmind.MemoryRag.TokenBudget.Pools

/-!
Owns the budgets of a session and `redistribute_idle`. Every transfer is
credited to its recipient and debited from no donor, so the totals move with
every transfer that is not zero.
-/

namespace Swarmind.MemoryRag

open Swarmind.Library

structure BudgetManager (R : Type) where
  defaultAgentBudget : Int
  minReserve : Int
  agentBudgets : Dict String (TokenBudget R)

/-- One transfer that `redistribute_idle` logs. -/
structure Transfer where
  donorId : String
  recipientId : String
  give : Int
deriving DecidableEq

/-- The variables of the two loops. -/
structure Round (R : Type) where
  agentBudgets : Dict String (TokenBudget R)
  totalRedistributed : Dict String Int
  transfers : List Transfer

variable {R : Type} [Field R] [LinearOrder R] [FloorRing R]

/-- What a recipient gains: the total, and its pools in proportion. -/
def TokenBudget.credit (budget : TokenBudget R) (give : Int) : TokenBudget R :=
  { budget with
    totalBudget := budget.totalBudget + give
    pools := budget.pools.mapValues fun pool => { pool with
      allocated := pool.allocated +
        truncate (((give * pool.allocated : Int) : R) / ((max budget.totalBudget 1 : Int) : R)) } }

/-- The body of the inner loop. -/
def Round.transfer (round : Round R) (donorId recipientId : String) (give : Int) : Round R where
  agentBudgets :=
    match round.agentBudgets.get? recipientId with
    | some budget => round.agentBudgets.set recipientId (budget.credit give)
    | none => round.agentBudgets
  totalRedistributed := round.totalRedistributed.set recipientId
    ((round.totalRedistributed.get? recipientId).getD 0 + give)
  transfers := round.transfers ++ [⟨donorId, recipientId, give⟩]

/-- The loop over the recipients. -/
def serve (cap : Int) (donorId : String) : List String → Int → Round R → Round R
  | [], _, round => round
  | recipientId :: rest, donorRemaining, round =>
    if donorRemaining ≤ 0 then round
    else
      let give := min donorRemaining cap
      serve cap donorId rest (donorRemaining - give) (round.transfer donorId recipientId give)

/-- The loop over the donors. -/
def serveAll (cap : Int) (recipients : List String) : List (String × Int) → Round R → Round R
  | [], round => round
  | (donorId, donorRemaining) :: rest, round =>
    if donorRemaining ≤ 0 then serveAll cap recipients rest round
    else serveAll cap recipients rest (serve cap donorId recipients donorRemaining round)

namespace BudgetManager

def isDonor (manager : BudgetManager R) (budget : TokenBudget R) : Bool :=
  !budget.canSpend && decide (manager.minReserve < budget.totalRemaining)

/-- Idle agents with what they have above the reserve, the least important first. -/
def donors (manager : BudgetManager R) : List (String × Int) :=
  ((manager.agentBudgets.entries.filter fun entry => manager.isDonor entry.2).mergeSort
      fun first second => first.2.priority ≤ second.2.priority).map
    fun entry => (entry.1, entry.2.totalRemaining - manager.minReserve)

/-- Active agents, the most important first. -/
def recipients (manager : BudgetManager R) : List String :=
  ((manager.agentBudgets.entries.filter fun entry => entry.2.canSpend).mergeSort
      fun first second => second.2.priority ≤ first.2.priority).map Prod.fst

/-- The most that one transfer gives. -/
def cap (manager : BudgetManager R) : Int := manager.defaultAgentBudget / 4

/-- `redistribute_idle`: what each agent received, with the transfers. -/
def redistributeIdle (manager : BudgetManager R) :
    (Dict String Int × List Transfer) × BudgetManager R :=
  if manager.donors = [] ∨ manager.recipients = [] then ((Dict.empty, []), manager)
  else
    let round := serveAll manager.cap manager.recipients manager.donors
      { agentBudgets := manager.agentBudgets, totalRedistributed := Dict.empty, transfers := [] }
    ((round.totalRedistributed, round.transfers),
      { manager with agentBudgets := round.agentBudgets })

/-- Calls of `redistribute_idle` one after the other. -/
def machine : Machine (BudgetManager R) Unit (Dict String Int × List Transfer) where
  step manager _ := manager.redistributeIdle

end BudgetManager

/-! ### What the transfers move -/

def totals (agentBudgets : Dict String (TokenBudget R)) : Int :=
  (agentBudgets.values.map TokenBudget.totalBudget).sum

/-- `after` continues `before` by transfers that raise the totals. -/
structure Serves (cap : Int) (before after : Round R) (made : List Transfer) : Prop where
  logged : after.transfers = before.transfers ++ made
  raises : totals after.agentBudgets = totals before.agentBudgets + (made.map Transfer.give).sum
  keys : after.agentBudgets.keys = before.agentBudgets.keys
  signed : ∀ transfer ∈ made, transfer.give.sign = cap.sign

namespace Serves

omit [Field R] [LinearOrder R] [FloorRing R] in
private theorem refl (cap : Int) (round : Round R) : Serves cap round round [] :=
  ⟨(List.append_nil _).symm, (add_zero _).symm, rfl, fun _ member => absurd member List.not_mem_nil⟩

omit [Field R] [LinearOrder R] [FloorRing R] in
private theorem trans {cap : Int} {first second third : Round R} {early late : List Transfer}
    (start : Serves cap first second early) (finish : Serves cap second third late) :
    Serves cap first third (early ++ late) := by
  constructor
  · rw [finish.logged, start.logged, List.append_assoc]
  · rw [finish.raises, start.raises, List.map_append, List.sum_append, add_assoc]
  · rw [finish.keys, start.keys]
  · intro transfer member
    exact (List.mem_append.mp member).elim (start.signed transfer) (finish.signed transfer)

private theorem transfer {cap give : Int} (round : Round R) (donorId : String)
    {recipientId : String}
    (registered : recipientId ∈ round.agentBudgets.keys) (sign : give.sign = cap.sign) :
    Serves cap round (round.transfer donorId recipientId give) [⟨donorId, recipientId, give⟩] := by
  obtain ⟨budget, found⟩ := (Dict.mem_keys_iff _ _).mp registered
  have credited : (round.transfer donorId recipientId give).agentBudgets =
      round.agentBudgets.set recipientId (budget.credit give) := by
    simp only [Round.transfer, found]
  refine ⟨rfl, ?_, ?_, List.forall_mem_singleton.mpr sign⟩
  · have moved := Dict.sum_values_set TokenBudget.totalBudget found (budget.credit give)
    have gained : (budget.credit give).totalBudget = budget.totalBudget + give := rfl
    rw [credited, totals, totals, List.map_singleton, List.sum_singleton]
    dsimp only
    omega
  · rw [credited, Dict.keys_set_of_mem _ _ registered]

end Serves

private theorem sign_min {available cap : Int} (positive : 0 < available) :
    (min available cap).sign = cap.sign := by
  rcases lt_trichotomy cap 0 with negative | rfl | positiveCap
  · rw [min_eq_right (by omega)]
  · rw [min_eq_right positive.le]
  · rw [Int.sign_eq_one_of_pos positiveCap, Int.sign_eq_one_of_pos (lt_min positive positiveCap)]

private theorem serve_spec (cap : Int) (donorId : String) {recipients : List String}
    (donorRemaining : Int) (round : Round R)
    (registered : ∀ recipientId ∈ recipients, recipientId ∈ round.agentBudgets.keys) :
    ∃ made, Serves cap round (serve cap donorId recipients donorRemaining round) made ∧
      (recipients ≠ [] → 0 < donorRemaining → made ≠ []) := by
  induction recipients generalizing donorRemaining round with
  | nil => exact ⟨[], Serves.refl cap round, fun nonempty => absurd rfl nonempty⟩
  | cons recipientId rest ih =>
    obtain ⟨known, others⟩ := List.forall_mem_cons.mp registered
    rw [serve]
    split_ifs with exhausted
    · exact ⟨[], Serves.refl cap round, fun _ positive => absurd exhausted (not_le.mpr positive)⟩
    · have sign : (min donorRemaining cap).sign = cap.sign := sign_min (not_le.mp exhausted)
      have first := Serves.transfer round donorId known sign
      obtain ⟨made, later, _⟩ := ih
        (donorRemaining - min donorRemaining cap)
        (round.transfer donorId recipientId (min donorRemaining cap))
        (fun other member => first.keys ▸ others other member)
      exact ⟨_, first.trans later, fun _ _ => List.cons_ne_nil _ _⟩

private theorem serveAll_spec (cap : Int) {recipients : List String} {donors : List (String × Int)}
    (round : Round R)
    (registered : ∀ recipientId ∈ recipients, recipientId ∈ round.agentBudgets.keys)
    (spare : ∀ donor ∈ donors, 0 < donor.2) :
    ∃ made, Serves cap round (serveAll cap recipients donors round) made ∧
      (recipients ≠ [] → donors ≠ [] → made ≠ []) := by
  induction donors generalizing round with
  | nil => exact ⟨[], Serves.refl cap round, fun _ nonempty => absurd rfl nonempty⟩
  | cons donor rest ih =>
    obtain ⟨positive, others⟩ := List.forall_mem_cons.mp spare
    obtain ⟨donorId, donorRemaining⟩ := donor
    rw [serveAll, if_neg (not_le.mpr positive)]
    obtain ⟨early, first, moves⟩ := serve_spec cap donorId donorRemaining round registered
    obtain ⟨late, second, _⟩ := ih
      (serve cap donorId recipients donorRemaining round)
      (fun other member => first.keys ▸ registered other member) others
    refine ⟨early ++ late, first.trans second, fun nonempty _ empty => ?_⟩
    exact moves nonempty positive (List.append_eq_nil_iff.mp empty).1

private theorem sign_sum {made : List Transfer} {cap : Int} (nonempty : made ≠ [])
    (signed : ∀ transfer ∈ made, transfer.give.sign = cap.sign) :
    (made.map Transfer.give).sum.sign = cap.sign := by
  induction made with
  | nil => exact absurd rfl nonempty
  | cons transfer rest ih =>
    obtain ⟨first, others⟩ := List.forall_mem_cons.mp signed
    rw [List.map_cons, List.sum_cons]
    cases rest with
    | nil => simpa using first
    | cons other later =>
      have second := ih (List.cons_ne_nil _ _) others
      rcases lt_trichotomy cap 0 with negative | rfl | positive
      · rw [Int.sign_eq_neg_one_of_neg negative, Int.sign_eq_neg_one_iff_neg] at first second ⊢
        omega
      · rw [Int.sign_zero, Int.sign_eq_zero_iff_zero] at first second ⊢
        omega
      · rw [Int.sign_eq_one_of_pos positive, Int.sign_eq_one_iff_pos] at first second ⊢
        omega

namespace BudgetManager

variable {manager : BudgetManager R}

omit [FloorRing R] in
private theorem registered_of_mem_recipients {recipientId : String}
    (member : recipientId ∈ manager.recipients) : recipientId ∈ manager.agentBudgets.keys := by
  obtain ⟨entry, sorted, rfl⟩ := List.mem_map.mp member
  have among := (List.mergeSort_perm _ _).mem_iff.mp sorted
  exact List.mem_map.mpr ⟨entry, (List.mem_filter.mp among).1, rfl⟩

omit [FloorRing R] in
private theorem spare_of_mem_donors {donor : String × Int}
    (member : donor ∈ manager.donors) : 0 < donor.2 := by
  obtain ⟨entry, sorted, rfl⟩ := List.mem_map.mp member
  have among := (List.mergeSort_perm _ _).mem_iff.mp sorted
  have idle := (List.mem_filter.mp among).2
  rw [isDonor, Bool.and_eq_true, decide_eq_true_eq] at idle
  exact sub_pos.mpr idle.2

/-- No call can move a token: nobody gives, nobody receives, or a quarter of the
default budget is nothing. -/
def NothingMoves (manager : BudgetManager R) : Prop :=
  manager.donors = [] ∨ manager.recipients = [] ∨ manager.cap = 0

instance : DecidablePred (NothingMoves (R := R)) := fun manager =>
  inferInstanceAs (Decidable (manager.donors = [] ∨ manager.recipients = [] ∨ manager.cap = 0))

private theorem redistributeIdle_spec (manager : BudgetManager R) :
    totals manager.redistributeIdle.2.agentBudgets =
        totals manager.agentBudgets + (manager.redistributeIdle.1.2.map Transfer.give).sum ∧
      (∀ transfer ∈ manager.redistributeIdle.1.2, transfer.give.sign = manager.cap.sign) ∧
      (manager.redistributeIdle.1.2 = [] ↔ manager.donors = [] ∨ manager.recipients = []) := by
  unfold redistributeIdle
  split_ifs with idle
  · exact ⟨(add_zero _).symm, fun _ member => absurd member List.not_mem_nil,
      iff_of_true rfl idle⟩
  · have registered : ∀ recipientId ∈ manager.recipients,
        recipientId ∈ manager.agentBudgets.keys :=
      fun _ member => registered_of_mem_recipients member
    have spare : ∀ donor ∈ manager.donors, 0 < donor.2 := fun _ member => spare_of_mem_donors member
    obtain ⟨made, serves, moves⟩ := serveAll_spec manager.cap
      { agentBudgets := manager.agentBudgets, totalRedistributed := Dict.empty, transfers := [] }
      registered spare
    have logged := serves.logged
    rw [List.nil_append] at logged
    dsimp only
    rw [logged]
    refine ⟨serves.raises, serves.signed, iff_of_false ?_ idle⟩
    rw [not_or] at idle
    exact moves idle.2 idle.1

private theorem nothingMoves_step (idle : manager.NothingMoves) :
    manager.redistributeIdle.2.NothingMoves := by
  rcases idle with noDonor | noRecipient | noCap
  · rw [redistributeIdle, if_pos (.inl noDonor)]
    exact .inl noDonor
  · rw [redistributeIdle, if_pos (.inr noRecipient)]
    exact .inr (.inl noRecipient)
  · unfold redistributeIdle
    split_ifs
    · exact .inr (.inr noCap)
    · exact .inr (.inr noCap)

private theorem give_eq_zero (idle : manager.NothingMoves) {transfer : Transfer}
    (member : transfer ∈ manager.redistributeIdle.1.2) : transfer.give = 0 := by
  obtain ⟨_, signed, empty⟩ := manager.redistributeIdle_spec
  rcases idle with noDonor | noRecipient | noCap
  · rw [empty.mpr (.inl noDonor)] at member
    exact absurd member List.not_mem_nil
  · rw [empty.mpr (.inr noRecipient)] at member
    exact absurd member List.not_mem_nil
  · have sign := signed transfer member
    rwa [noCap, Int.sign_zero, Int.sign_eq_zero_iff_zero] at sign

def KeepsTotals (manager : BudgetManager R) : Prop :=
  totals manager.redistributeIdle.2.agentBudgets = totals manager.agentBudgets

instance : DecidablePred (KeepsTotals (R := R)) := fun manager => inferInstanceAs
  (Decidable (totals manager.redistributeIdle.2.agentBudgets = totals manager.agentBudgets))

private theorem keepsTotals_iff (manager : BudgetManager R) :
    manager.KeepsTotals ↔ manager.NothingMoves := by
  obtain ⟨raises, signed, empty⟩ := manager.redistributeIdle_spec
  rw [KeepsTotals, raises, add_eq_left]
  constructor
  · intro zero
    by_cases moves : manager.redistributeIdle.1.2 = []
    · exact (empty.mp moves).elim .inl fun noRecipient => .inr (.inl noRecipient)
    · have sign := sign_sum moves signed
      rw [zero, Int.sign_zero] at sign
      exact .inr (.inr (Int.sign_eq_zero_iff_zero.mp sign.symm))
  · intro idle
    apply List.sum_eq_zero
    intro give member
    obtain ⟨transfer, among, rfl⟩ := List.mem_map.mp member
    exact give_eq_zero idle among

/-- What an agent gives away in one call. -/
def givenIn (donorId : String) (transfers : List Transfer) : Int :=
  ((transfers.filter fun transfer => transfer.donorId = donorId).map Transfer.give).sum

/-- What an agent gives away in a sequence of calls. -/
def given (manager : BudgetManager R) (calls : List Unit) (donorId : String) : Int :=
  ((machine.replies manager calls).map fun reply => givenIn donorId reply.2.2).sum

/-- What an agent has above the reserve. -/
def spare (manager : BudgetManager R) (agentId : String) : Int :=
  match manager.agentBudgets.get? agentId with
  | some budget => max 0 (budget.totalRemaining - manager.minReserve)
  | none => 0

omit [Field R] [LinearOrder R] [FloorRing R] in
private theorem spare_nonneg (manager : BudgetManager R) (agentId : String) :
    0 ≤ manager.spare agentId := by
  unfold spare
  split
  · exact le_max_left _ _
  · exact le_refl 0

private theorem givenIn_eq_zero (idle : manager.NothingMoves)
    (donorId : String) : givenIn donorId manager.redistributeIdle.1.2 = 0 := by
  apply List.sum_eq_zero
  intro give member
  obtain ⟨transfer, among, rfl⟩ := List.mem_map.mp member
  exact give_eq_zero idle (List.mem_filter.mp among).1

private theorem given_eq_zero (idle : manager.NothingMoves)
    (calls : List Unit) (donorId : String) : manager.given calls donorId = 0 := by
  induction calls generalizing manager with
  | nil => rfl
  | cons call rest ih =>
    have later := ih (nothingMoves_step idle)
    have first := givenIn_eq_zero idle donorId
    unfold given at later ⊢
    rw [Machine.replies, List.map_cons, List.sum_cons]
    exact (congrArg₂ (· + ·) first later).trans (add_zero 0)

/-- The calls keep the totals, and no agent gives away more than it had above
the reserve. -/
def Conserves (manager : BudgetManager R) (calls : List Unit) : Prop :=
  machine.Along (fun current _ => current.KeepsTotals) manager calls ∧
    ∀ donorId, manager.given calls donorId ≤ manager.spare donorId

/-- Redistribution conserves the tokens of a session exactly where it moves none. -/
theorem conserves_iff (manager : BudgetManager R) (calls : List Unit) :
    manager.Conserves calls ↔ calls = [] ∨ manager.NothingMoves := by
  constructor
  · rintro ⟨keeps, _⟩
    cases calls with
    | nil => exact .inl rfl
    | cons call rest => exact .inr (manager.keepsTotals_iff.mp keeps.1)
  · rintro (rfl | idle)
    · exact ⟨trivial, manager.spare_nonneg⟩
    · have always : machine.Along (fun _ _ => True) manager calls :=
        machine.along_of_forall (fun _ _ => trivial) manager calls
      have stays := Machine.along_invariant NothingMoves
        (fun _ _ current _ => nothingMoves_step current) idle always
      constructor
      · exact stays.mono machine fun current _ both => current.keepsTotals_iff.mpr both.1
      · intro donorId
        rw [given_eq_zero idle calls donorId]
        exact manager.spare_nonneg donorId

/-- Two agents with the default budget: `architect` is done, `coder` is not. -/
def smallManager : BudgetManager Rat where
  defaultAgentBudget := 4000
  minReserve := 500
  agentBudgets := Dict.ofList
    [("architect", TokenBudget.create 4000 priorityNormal defaultPoolAllocation 0.95 500 3),
      ("coder", TokenBudget.create 4000 priorityNormal defaultPoolAllocation 0 500 3)]

/-- The agent that gives tokens away keeps them too. -/
theorem redistribution_creates_tokens :
    ¬ ∀ (manager : BudgetManager Rat) (calls : List Unit), manager.Conserves calls := by
  intro conserves
  exact absurd (conserves smallManager [()]).1 (by decide +kernel)

end BudgetManager

end Swarmind.MemoryRag
