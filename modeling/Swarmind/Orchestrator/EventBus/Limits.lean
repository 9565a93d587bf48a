import Swarmind.Orchestrator.EventBus.Bus

/-!
Owns the delivery limits of the event bus under re-entrancy. What a subscription
has had and what it still waits for never shrinks until its frames are done, so
a limit holds exactly where every publish call leaves room for the turns that
already wait, and a cancelled subscription is silent exactly where none waits.
-/

namespace Swarmind.Orchestrator.EventBus

open Swarmind.Library

variable {Data : Type}

/-! ### Steps -/

/-- Ids have addresses of their own, and addresses are in use once handed out. -/
structure WellFormed (bus : EventBus Data) : Prop where
  allocated : ∀ address ∈ bus.subscriptions.values, address < bus.objects.length
  distinct : bus.subscriptions.values.Nodup
  waiting : ∀ address, bus.pending address ≠ 0 → address < bus.objects.length

/-- What a step does to the counters; `added` turns were chosen for an address. -/
structure Moves (bus : EventBus Data) (added : Nat → Nat)
    (result : BusReply Data × EventBus Data) : Prop where
  counts : ∀ address, result.2.eventCount address =
    bus.eventCount address + if result.1.callsBack address then 1 else 0
  turns : ∀ address, (result.2.pending address + if result.1.callsBack address then 1 else 0) ≤
    bus.pending address + added address
  limits : ∀ address < bus.objects.length, result.2.limit address = bus.limit address
  grows : bus.objects.length ≤ result.2.objects.length

private theorem moves_of_quiet {bus after : EventBus Data} {reply : BusReply Data}
    {added : Nat → Nat}
    (silent : ∀ address, reply.callsBack address = false) (objects : after.objects = bus.objects)
    (frames : after.frames = bus.frames) : Moves bus added (reply, after) := by
  constructor
  · intro address
    simp [silent, eventCount, objects]
  · intro address
    simp [silent, pending, frames]
  · intro address _
    simp [limit, objects]
  · exact Nat.le_of_eq (congrArg List.length objects.symm)

private theorem advance_cases (bus : EventBus Data) :
    (bus.frames = [] ∧ bus.advance = (.nothing, bus)) ∨
    (∃ frame outer, bus.frames = frame :: outer ∧ frame.waiting = [] ∧
      bus.advance = (.published frame.notified, { bus with frames := outer })) ∨
    ∃ frame outer turn rest, bus.frames = frame :: outer ∧ frame.waiting = turn :: rest ∧
      bus.advance = (.invokes turn frame.event, { bus with
        objects := bus.objects.modify turn fun sub =>
          { sub with eventCount := sub.eventCount + 1 }
        frames := { frame with waiting := rest } :: outer }) := by
  cases frames : bus.frames with
  | nil => exact .inl ⟨rfl, by simp only [advance, frames]⟩
  | cons frame outer =>
    cases waiting : frame.waiting with
    | nil =>
      exact .inr (.inl ⟨frame, outer, rfl, waiting, by simp only [advance, frames, waiting]⟩)
    | cons turn rest =>
      exact .inr (.inr ⟨frame, outer, turn, rest, rfl, waiting,
        by simp only [advance, frames, waiting]⟩)

private theorem advance_subscriptions (bus : EventBus Data) :
    bus.advance.2.subscriptions = bus.subscriptions := by
  rcases bus.advance_cases with ⟨_, step⟩ | ⟨_, _, _, _, step⟩ | ⟨_, _, _, _, _, _, step⟩
  all_goals rw [step]

private theorem advance_length (bus : EventBus Data) :
    bus.advance.2.objects.length = bus.objects.length := by
  rcases bus.advance_cases with ⟨_, step⟩ | ⟨_, _, _, _, step⟩ | ⟨_, _, _, _, _, _, step⟩
  · rw [step]
  · rw [step]
  · rw [step]
    exact List.length_modify _ _ _

variable {bus : EventBus Data}

private theorem advance_turn
    (waiting : ∀ address, bus.pending address ≠ 0 → address < bus.objects.length)
    (address : Nat) :
    bus.advance.2.eventCount address =
        (bus.eventCount address + if bus.advance.1.callsBack address then 1 else 0) ∧
      (bus.advance.2.pending address + if bus.advance.1.callsBack address then 1 else 0) =
        bus.pending address ∧
      bus.advance.2.limit address = bus.limit address := by
  rcases bus.advance_cases with ⟨_, step⟩ | ⟨frame, outer, frames, empty, step⟩ |
    ⟨frame, outer, turn, rest, frames, turns, step⟩
  · rw [step]
    exact ⟨rfl, rfl, rfl⟩
  · rw [step]
    refine ⟨rfl, ?_, rfl⟩
    simp [pending, frames, empty, BusReply.callsBack]
  · have before : bus.pending address = (turn :: rest).count address +
        (outer.map fun frame => frame.waiting.count address).sum := by
      rw [pending, frames, List.map_cons, List.sum_cons, turns]
    have after : bus.advance.2.pending address = rest.count address +
        (outer.map fun frame => frame.waiting.count address).sum := by
      rw [step]
      rfl
    rw [after, before, step]
    by_cases same : turn = address
    · subst same
      rw [List.count_cons_self] at before ⊢
      have used : turn < bus.objects.length := waiting turn (by omega)
      refine ⟨?_, ?_, ?_⟩
      · simp [eventCount, BusReply.callsBack, used]
      · simp [BusReply.callsBack]
        omega
      · simp [limit, used]
    · rw [List.count_cons_of_ne same]
      refine ⟨?_, ?_, ?_⟩
      · simp [eventCount, BusReply.callsBack, same]
      · simp [BusReply.callsBack, same]
      · simp [limit, same]

private theorem moves_advance
    (waiting : ∀ address, bus.pending address ≠ 0 → address < bus.objects.length) :
    Moves bus (fun _ => 0) bus.advance where
  counts address := (advance_turn waiting address).1
  turns address := Nat.le_of_eq (advance_turn waiting address).2.1
  limits address _ := (advance_turn waiting address).2.2
  grows := Nat.le_of_eq bus.advance_length.symm

/-- The turns that a call adds to those that wait. -/
def added (bus : EventBus Data) (call : BusCall Data) (address : Nat) : Nat :=
  match call with
  | .publish event =>
    match bus.matching event with
    | .ok addresses => addresses.count address
    | .error _ => 0
  | _ => 0

variable {event : Event Data} {addresses : List Nat}

private theorem added_publish (chosen : bus.matching event = .ok addresses) (address : Nat) :
    bus.added (.publish event) address = addresses.count address := by
  simp only [added, chosen]

/-- A bus that waits for the turns of a new publish call. -/
def opened (bus : EventBus Data) (event : Event Data) (addresses : List Nat) : EventBus Data :=
  { bus with frames := ⟨event, addresses, 0⟩ :: bus.frames }

private theorem pending_opened (bus : EventBus Data) (event : Event Data) (addresses : List Nat)
    (address : Nat) : (bus.opened event addresses).pending address =
      addresses.count address + bus.pending address := rfl

private theorem waiting_opened (wellFormed : bus.WellFormed)
    (chosen : bus.matching event = .ok addresses)
    (address : Nat) (waits : (bus.opened event addresses).pending address ≠ 0) :
    address < bus.objects.length := by
  rw [pending_opened] at waits
  by_cases member : address ∈ addresses
  · exact wellFormed.allocated address ((matching_sublist chosen).subset member)
  · rw [List.count_eq_zero_of_not_mem member, Nat.zero_add] at waits
    exact wellFormed.waiting address waits

/-- A bus whose first frame counts the callback that has returned. -/
def notified (bus : EventBus Data) (frame : PublishFrame Data) (outer : List (PublishFrame Data)) :
    EventBus Data :=
  { bus with frames := { frame with notified := frame.notified + 1 } :: outer }

private theorem callbackReturns_of_frames {frame : PublishFrame Data}
    {outer : List (PublishFrame Data)} (frames : bus.frames = frame :: outer) :
    bus.callbackReturns = (bus.notified frame outer).advance := by
  simp only [callbackReturns, frames, notified]

private theorem pending_notified {frame : PublishFrame Data} {outer : List (PublishFrame Data)}
    (frames : bus.frames = frame :: outer) : (bus.notified frame outer).pending = bus.pending := by
  funext address
  rw [pending, pending, frames]
  rfl

private theorem moves_subscribe (bus : EventBus Data) (uuid channel : String)
    (filterFn : Option (Event Data → Except PyException Bool)) (maxEvents : Int) :
    Moves bus (fun _ => 0) (bus.subscribe uuid channel filterFn maxEvents) := by
  unfold subscribe
  split
  · exact moves_of_quiet (fun _ => rfl) rfl rfl
  · refine ⟨fun address => ?_, fun _ => Nat.le_refl _, fun address used => ?_, ?_⟩
    · rcases Nat.lt_trichotomy address bus.objects.length with used | same | unused
      · simp [eventCount, BusReply.callsBack, List.getElem?_append_left used]
      · simp [eventCount, BusReply.callsBack, same]
      · have before : bus.objects[address]? = none :=
          List.getElem?_eq_none (Nat.le_of_lt unused)
        have after : (bus.objects ++ [⟨"sub_" ++ uuid, channel, filterFn, maxEvents, 0⟩])[
            address]? = none := by
          apply List.getElem?_eq_none
          rw [List.length_append, List.length_singleton]
          exact unused
        rw [eventCount, eventCount, before, after]
        rfl
    · simp [limit, List.getElem?_append_left used]
    · simp

private theorem moves_step (wellFormed : bus.WellFormed) (call : BusCall Data) :
    Moves bus (bus.added call) (machine.step bus call) := by
  cases call with
  | publish event =>
    show Moves bus _ (bus.publish event)
    unfold publish
    cases chosen : bus.matching event with
    | error exception => exact moves_of_quiet (fun _ => rfl) rfl rfl
    | ok addresses =>
      obtain ⟨counts, turns, limits, grows⟩ :=
        moves_advance (waiting_opened wellFormed chosen)
      refine ⟨counts, fun address => ?_, limits, grows⟩
      have turn := turns address
      rw [pending_opened, Nat.add_zero, Nat.add_comm (addresses.count address)] at turn
      rw [added_publish chosen]
      exact turn
  | subscribe uuid channel filterFn maxEvents =>
    exact bus.moves_subscribe uuid channel filterFn maxEvents
  | unsubscribe subId =>
    show Moves bus _ (bus.unsubscribe subId)
    unfold unsubscribe
    split
    · exact moves_of_quiet (fun _ => rfl) rfl rfl
    · exact moves_of_quiet (fun _ => rfl) rfl rfl
  | returns =>
    show Moves bus _ bus.callbackReturns
    cases frames : bus.frames with
    | nil =>
      rw [callbackReturns, frames]
      exact moves_of_quiet (fun _ => rfl) rfl rfl
    | cons frame outer =>
      have same := pending_notified frames
      have moved := moves_advance (same ▸ wellFormed.waiting)
      rw [callbackReturns_of_frames frames]
      exact ⟨moved.counts, fun address => same ▸ moved.turns address, moved.limits, moved.grows⟩
  | raises => exact moves_advance wellFormed.waiting
  | aborts =>
    refine ⟨fun _ => rfl, fun address => ?_, fun _ _ => rfl, Nat.le_refl _⟩
    show pending { bus with frames := bus.frames.tail } address ≤ bus.pending address
    unfold pending
    cases bus.frames with
    | nil => exact Nat.le_refl _
    | cons frame outer =>
      rw [List.map_cons, List.sum_cons]
      exact Nat.le_add_left _ _

variable {address : Nat} {call : BusCall Data}

private theorem subscriptions_step {subId : String}
    (found : (machine.step bus call).2.subscriptions.get? subId = some address) :
    bus.subscriptions.get? subId = some address ∨
      (address = bus.objects.length ∧ bus.objects.length < (machine.step bus call).2.objects.length ∧
        ∃ uuid channel filterFn maxEvents, call = .subscribe uuid channel filterFn maxEvents ∧
          subId = "sub_" ++ uuid) := by
  cases call with
  | publish event =>
    left
    change (bus.publish event).2.subscriptions.get? subId = some address at found
    unfold publish at found
    split at found
    · exact found
    · rwa [advance_subscriptions] at found
  | subscribe uuid channel filterFn maxEvents =>
    change (bus.subscribe uuid channel filterFn maxEvents).2.subscriptions.get? subId =
      some address at found
    show _ ∨ (_ ∧ _ < (bus.subscribe uuid channel filterFn maxEvents).2.objects.length ∧ _)
    unfold subscribe at found ⊢
    split at found
    · exact .inl found
    next named =>
      dsimp only at found
      rw [Dict.get?_set] at found
      split_ifs at found with same
      · right
        cases found
        rw [if_neg named]
        exact ⟨rfl, by simp, _, _, _, _, rfl, same.symm⟩
      · exact .inl found
  | unsubscribe other =>
    left
    change (bus.unsubscribe other).2.subscriptions.get? subId = some address at found
    unfold unsubscribe at found
    split at found
    · exact found
    · dsimp only at found
      rw [Dict.get?_erase] at found
      split_ifs at found
      exact found
  | returns =>
    left
    change bus.callbackReturns.2.subscriptions.get? subId = some address at found
    unfold callbackReturns at found
    split at found
    · exact found
    · rwa [advance_subscriptions] at found
  | raises =>
    left
    change bus.advance.2.subscriptions.get? subId = some address at found
    rwa [advance_subscriptions] at found
  | aborts => exact .inl found

private theorem added_cases (wellFormed : bus.WellFormed) (call : BusCall Data) (address : Nat) :
    bus.added call address = 0 ∨ (bus.added call address = 1 ∧
      ∃ event addresses, call = .publish event ∧ bus.matching event = .ok addresses ∧
        address ∈ addresses ∧ address ∈ bus.subscriptions.values) := by
  unfold added
  split
  next event =>
    split
    next addresses chosen =>
      have listed := matching_sublist chosen
      by_cases member : address ∈ addresses
      · right
        have once : addresses.count address ≤ 1 :=
          List.nodup_iff_count_le_one.mp (wellFormed.distinct.sublist listed) address
        have positive := List.count_pos_iff.mpr member
        exact ⟨by omega, event, addresses, rfl, chosen, member, listed.subset member⟩
      · exact .inl (List.count_eq_zero_of_not_mem member)
    next => exact .inl rfl
  next => exact .inl rfl

private theorem wellFormed_step (wellFormed : bus.WellFormed)
    (call : BusCall Data) : (machine.step bus call).2.WellFormed := by
  have moved := moves_step wellFormed call
  constructor
  · intro address member
    obtain ⟨subId, found⟩ := (Dict.mem_values_iff _ _).mp member
    rcases subscriptions_step found with before | ⟨rfl, appended, _⟩
    · have used := wellFormed.allocated address ((Dict.mem_values_iff _ _).mpr ⟨subId, before⟩)
      exact Nat.lt_of_lt_of_le used moved.grows
    · exact appended
  · rw [Dict.values_nodup_iff]
    intro first second address left right
    have old {subId : String} (found : bus.subscriptions.get? subId = some address) :
        address < bus.objects.length :=
      wellFormed.allocated address ((Dict.mem_values_iff _ _).mpr ⟨subId, found⟩)
    rcases subscriptions_step left with leftOld | ⟨leftNew, _, uuid, _, _, _, call₁, rfl⟩
    · rcases subscriptions_step right with rightOld | ⟨rightNew, _⟩
      · exact (Dict.values_nodup_iff _).mp wellFormed.distinct first second address leftOld rightOld
      · exact absurd (old leftOld) (by omega)
    · rcases subscriptions_step right with rightOld | ⟨_, _, other, _, _, _, call₂, rfl⟩
      · exact absurd (old rightOld) (by omega)
      · rw [call₁] at call₂
        cases call₂
        rfl
  · intro address waits
    have turns := moved.turns address
    rcases added_cases wellFormed call address with none | ⟨_, _, _, _, _, _, live⟩
    · have waited := wellFormed.waiting address (by omega)
      exact Nat.lt_of_lt_of_le waited moved.grows
    · exact Nat.lt_of_lt_of_le (wellFormed.allocated address live) moved.grows

private theorem wellFormed_create : (create : EventBus Data).WellFormed where
  allocated _ member := absurd member List.not_mem_nil
  distinct := List.nodup_nil
  waiting _ waits := absurd rfl waits

/-! ### Limits -/

/-- What every limited subscription has had and waits for is within its limit. -/
def Within (bus : EventBus Data) : Prop :=
  ∀ address, 0 < bus.limit address →
    (bus.eventCount address + bus.pending address : Nat) ≤ bus.limit address

/-- A publish call leaves room for the turns that wait, and an unsubscribe call
finds none that waits. -/
def Orderly (bus : EventBus Data) (call : BusCall Data) : Prop :=
  match call with
  | .publish event => ∀ addresses, bus.matching event = .ok addresses →
      ∀ address ∈ addresses, 0 < bus.limit address →
        (bus.eventCount address + bus.pending address : Nat) < bus.limit address
  | .unsubscribe subId => ∀ address, bus.subscriptions.get? subId = some address →
      bus.pending address = 0
  | _ => True

private theorem within_step (wellFormed : bus.WellFormed) (within : bus.Within)
    (orderly : bus.Orderly call) : (machine.step bus call).2.Within := by
  intro address limited
  have moved := moves_step wellFormed call
  have counts := moved.counts address
  have turns := moved.turns address
  by_cases used : address < bus.objects.length
  · rw [moved.limits address used] at limited ⊢
    have before := within address limited
    rcases added_cases wellFormed call address with
      none | ⟨one, event, addresses, rfl, chosen, member, _⟩
    · omega
    · have room := orderly addresses chosen address member limited
      omega
  · have fresh : bus.eventCount address = 0 := by
      simp [eventCount, List.getElem?_eq_none (Nat.le_of_not_lt used)]
    have idle : bus.pending address = 0 := by
      by_contra waits
      exact used (wellFormed.waiting address waits)
    rcases added_cases wellFormed call address with none | ⟨_, _, _, _, _, _, live⟩
    · omega
    · exact absurd (wellFormed.allocated address live) used

def callbacks (bus : EventBus Data) (calls : List (BusCall Data)) (address : Nat) : Nat :=
  machine.hits (fun _ reply => reply.callsBack address) bus calls

private theorem eventCount_after (wellFormed : bus.WellFormed)
    (calls : List (BusCall Data)) (address : Nat) :
    (machine.after bus calls).eventCount address =
      bus.eventCount address + bus.callbacks calls address := by
  induction calls generalizing bus with
  | nil => rfl
  | cons call rest ih =>
    have first := (moves_step wellFormed call).counts address
    have later := ih (wellFormed_step wellFormed call)
    rw [callbacks, Machine.hits_cons, Machine.after_cons]
    rw [callbacks] at later
    omega

private theorem wellFormed_after (wellFormed : bus.WellFormed)
    (calls : List (BusCall Data)) : (machine.after bus calls).WellFormed :=
  Machine.invariant_after WellFormed (fun _ call current _ => wellFormed_step current call)
    wellFormed (machine.along_of_forall (fun _ _ => trivial) bus calls)

/-- No subscription has more callbacks in the run than its limit. -/
def RespectsLimits (calls : List (BusCall Data)) : Prop :=
  ∀ address, 0 < (machine.after create calls).limit address →
    (create.callbacks calls address : Int) ≤ (machine.after create calls).limit address

/-- No callback of a subscription comes after an unsubscribe call for it that
returned `True`. -/
def RespectsCancels (calls : List (BusCall Data)) : Prop :=
  (machine.replies create calls).Pairwise fun earlier later =>
    ∀ address, earlier.2.cancels address = true → later.2.callsBack address = false

variable {calls : List (BusCall Data)}

private theorem respectsLimits_of_orderly
    (orderly : machine.Along Orderly create calls) : RespectsLimits calls := by
  have start : (create : EventBus Data).Within := fun address limited => absurd limited (by
    simp [limit, create])
  have kept := Machine.invariant_after (fun bus : EventBus Data => bus.WellFormed ∧ bus.Within)
    (fun bus call invariant allowed =>
      ⟨wellFormed_step invariant.1 call, within_step invariant.1 invariant.2 allowed⟩)
    ⟨wellFormed_create, start⟩ orderly
  intro address limited
  have bounded := kept.2 address limited
  have counted := eventCount_after wellFormed_create calls address
  have none : (create : EventBus Data).eventCount address = 0 := rfl
  omega

/-! ### Cancelled subscriptions -/

/-- A subscription that is neither live nor waits for a turn. -/
structure Silent (bus : EventBus Data) (address : Nat) : Prop where
  used : address < bus.objects.length
  dead : address ∉ bus.subscriptions.values
  idle : bus.pending address = 0

private theorem silent_step (wellFormed : bus.WellFormed)
    (silent : bus.Silent address) (call : BusCall Data) :
    (machine.step bus call).1.callsBack address = false ∧
      (machine.step bus call).2.Silent address := by
  have moved := moves_step wellFormed call
  have turns := moved.turns address
  have idle := silent.idle
  have none : bus.added call address = 0 := by
    rcases added_cases wellFormed call address with none | ⟨_, _, _, _, _, _, live⟩
    · exact none
    · exact absurd live silent.dead
  constructor
  · cases called : (machine.step bus call).1.callsBack address with
    | false => rfl
    | true =>
      rw [called] at turns
      simp only [if_true] at turns
      omega
  · refine ⟨Nat.lt_of_lt_of_le silent.used moved.grows, fun live => ?_, by omega⟩
    obtain ⟨subId, found⟩ := (Dict.mem_values_iff _ _).mp live
    rcases subscriptions_step found with before | ⟨same, _⟩
    · exact silent.dead ((Dict.mem_values_iff _ _).mpr ⟨subId, before⟩)
    · exact absurd silent.used (by omega)

private theorem callsBack_of_silent (wellFormed : bus.WellFormed)
    (silent : bus.Silent address) (calls : List (BusCall Data)) :
    ∀ reply ∈ machine.replies bus calls, reply.2.callsBack address = false := by
  induction calls generalizing bus with
  | nil => exact fun reply member => absurd member List.not_mem_nil
  | cons call rest ih =>
    obtain ⟨quiet, next⟩ := silent_step wellFormed silent call
    rw [Machine.replies, List.forall_mem_cons]
    exact ⟨quiet, ih (wellFormed_step wellFormed call) next⟩

private theorem advance_cancels (bus : EventBus Data) (address : Nat) :
    bus.advance.1.cancels address = false := by
  rcases bus.advance_cases with ⟨_, step⟩ | ⟨_, _, _, _, step⟩ | ⟨_, _, _, _, _, _, step⟩
  all_goals
    rw [step]
    rfl

private theorem cancels_cases (cancels : (machine.step bus call).1.cancels address = true) :
    ∃ subId, call = .unsubscribe subId ∧ bus.subscriptions.get? subId = some address := by
  cases call with
  | publish event =>
    change (bus.publish event).1.cancels address = true at cancels
    unfold publish at cancels
    split at cancels
    · cases cancels
    · rw [advance_cancels] at cancels
      cases cancels
  | subscribe uuid channel filterFn maxEvents =>
    change (bus.subscribe uuid channel filterFn maxEvents).1.cancels address = true at cancels
    unfold subscribe at cancels
    split at cancels
    · cases cancels
    · cases cancels
  | unsubscribe subId =>
    change (bus.unsubscribe subId).1.cancels address = true at cancels
    unfold unsubscribe at cancels
    split at cancels
    · cases cancels
    next other found => exact ⟨subId, rfl, (of_decide_eq_true cancels) ▸ found⟩
  | returns =>
    change bus.callbackReturns.1.cancels address = true at cancels
    unfold callbackReturns at cancels
    split at cancels
    · cases cancels
    · rw [advance_cancels] at cancels
      cases cancels
  | raises =>
    change bus.advance.1.cancels address = true at cancels
    rw [advance_cancels] at cancels
    cases cancels
  | aborts => cases cancels

private theorem silent_of_cancels (wellFormed : bus.WellFormed) (orderly : bus.Orderly call)
    (cancels : (machine.step bus call).1.cancels address = true) :
    (machine.step bus call).2.Silent address := by
  obtain ⟨subId, rfl, found⟩ := cancels_cases cancels
  have idle := orderly address found
  have live : address ∈ bus.subscriptions.values := (Dict.mem_values_iff _ _).mpr ⟨subId, found⟩
  have step : (machine.step bus (.unsubscribe subId)).2 =
      { bus with subscriptions := bus.subscriptions.erase subId } := by
    show (bus.unsubscribe subId).2 = _
    simp only [unsubscribe, found]
  rw [step]
  refine ⟨wellFormed.allocated address live, fun remains => ?_, idle⟩
  obtain ⟨other, kept⟩ := (Dict.mem_values_iff _ _).mp remains
  rw [Dict.get?_erase] at kept
  split_ifs at kept with different
  exact different ((Dict.values_nodup_iff _).mp wellFormed.distinct subId other address found kept)

private theorem pairwise_of_orderly (wellFormed : bus.WellFormed)
    (orderly : machine.Along Orderly bus calls) :
    (machine.replies bus calls).Pairwise fun earlier later =>
      ∀ address, earlier.2.cancels address = true → later.2.callsBack address = false := by
  induction calls generalizing bus with
  | nil => exact List.Pairwise.nil
  | cons call rest ih =>
    have next := wellFormed_step wellFormed call
    rw [Machine.replies, List.pairwise_cons]
    refine ⟨fun later member address cancels => ?_, ih next orderly.2⟩
    exact callsBack_of_silent next (silent_of_cancels wellFormed orderly.1 cancels) rest
      later member

/-! ### Runs that finish -/

/-- Turns and returns that the open frames still have to make. -/
def remaining (bus : EventBus Data) : Nat :=
  (bus.frames.map fun frame => frame.waiting.length + 1).sum

private theorem returns_step (wellFormed : bus.WellFormed) (busy : bus.frames ≠ []) :
    (machine.step bus .returns).2.remaining + 1 = bus.remaining ∧
      ∀ address, (machine.step bus .returns).2.eventCount address +
          (machine.step bus .returns).2.pending address =
        bus.eventCount address + bus.pending address := by
  cases frames : bus.frames with
  | nil => exact absurd frames busy
  | cons frame outer =>
    have step : (machine.step bus .returns).2 = (bus.notified frame outer).advance.2 :=
      congrArg Prod.snd (callbackReturns_of_frames frames)
    have same := pending_notified frames
    rw [step]
    constructor
    · rw [remaining, remaining, frames]
      rcases (bus.notified frame outer).advance_cases with
        ⟨none, _⟩ | ⟨_, _, split, empty, moved⟩ | ⟨_, _, _, _, split, turns, moved⟩
      · cases none
      · cases split
        rw [moved]
        simp only [List.map_cons, List.sum_cons]
        change frame.waiting = [] at empty
        rw [empty, List.length_nil]
        omega
      · cases split
        rw [moved]
        simp only [List.map_cons, List.sum_cons]
        change frame.waiting = _ :: _ at turns
        rw [turns, List.length_cons]
        omega
    · intro address
      have turn := advance_turn (same ▸ wellFormed.waiting) address
      rw [turn.1, Nat.add_assoc, Nat.add_comm (ite _ _ _), turn.2.1, same]
      rfl

private theorem eventCount_finish (wellFormed : bus.WellFormed) (address : Nat) :
    (machine.after bus (List.replicate bus.remaining .returns)).eventCount address =
      bus.eventCount address + bus.pending address := by
  generalize size : bus.remaining = turns
  induction turns generalizing bus with
  | zero =>
    cases frames : bus.frames with
    | nil => simp [pending, frames]
    | cons frame outer =>
      rw [remaining, frames, List.map_cons, List.sum_cons] at size
      omega
  | succ turns ih =>
    have busy : bus.frames ≠ [] := by
      intro none
      rw [remaining, none] at size
      cases size
    obtain ⟨shorter, kept⟩ := returns_step wellFormed busy
    rw [List.replicate_succ, Machine.after_cons,
      ih (wellFormed_step wellFormed .returns) (by omega), kept]

private theorem orderly_returns (bus : EventBus Data) (turns : Nat) :
    machine.Along Orderly bus (List.replicate turns .returns) := by
  induction turns generalizing bus with
  | zero => trivial
  | succ turns ih => exact ⟨trivial, ih _⟩

/-- The limits hold in a run, wherever it stops and the open callbacks return. -/
def Delivers (calls : List (BusCall Data)) : Prop :=
  ∀ before rest turns, calls = before ++ rest →
    RespectsLimits (before ++ List.replicate turns .returns) ∧
      RespectsCancels (before ++ List.replicate turns .returns)

private theorem limit_after (wellFormed : bus.WellFormed)
    (calls : List (BusCall Data)) (used : address < bus.objects.length) :
    (machine.after bus calls).limit address = bus.limit address := by
  induction calls generalizing bus with
  | nil => rfl
  | cons call rest ih =>
    have moved := moves_step wellFormed call
    rw [Machine.after_cons, ih (wellFormed_step wellFormed call)
      (Nat.lt_of_lt_of_le used moved.grows), moved.limits address used]

private theorem publish_load (wellFormed : bus.WellFormed)
    (chosen : bus.matching event = .ok addresses)
    (address : Nat) :
    (bus.publish event).2.eventCount address + (bus.publish event).2.pending address =
      bus.eventCount address + bus.pending address + addresses.count address := by
  have step : bus.publish event = (bus.opened event addresses).advance := by
    simp only [publish, chosen, opened]
  obtain ⟨counts, turns, _⟩ := advance_turn (waiting_opened wellFormed chosen) address
  rw [pending_opened] at turns
  have same : (bus.opened event addresses).eventCount address = bus.eventCount address := rfl
  rw [step]
  omega

private theorem callbacks_finish (before : List (BusCall Data)) (call : BusCall Data)
    (address : Nat) :
    create.callbacks (before ++ [call] ++ List.replicate
        (machine.step (machine.after create before) call).2.remaining .returns) address =
      (machine.step (machine.after create before) call).2.eventCount address +
        (machine.step (machine.after create before) call).2.pending address := by
  have start : (create : EventBus Data).WellFormed := wellFormed_create
  have next := wellFormed_step (wellFormed_after start before) call
  have finish := eventCount_finish next address
  have counted := eventCount_after start
    (before ++ [call] ++ List.replicate
      (machine.step (machine.after create before) call).2.remaining .returns) address
  rw [Machine.after_append, Machine.after_append] at counted
  change _ = 0 + _ at counted
  rw [Nat.zero_add] at counted
  exact counted.symm.trans finish

private theorem room_of_limits {before : List (BusCall Data)}
    (limits : RespectsLimits (before ++ [.publish event] ++ List.replicate
      (machine.step (machine.after create before) (.publish event)).2.remaining .returns)) :
    (machine.after create before).Orderly (.publish event) := by
  intro addresses chosen address member limited
  have wellFormed := wellFormed_after wellFormed_create before
  have live := (matching_sublist chosen).subset member
  have used := wellFormed.allocated address live
  have load := publish_load wellFormed chosen address
  have turn := List.count_pos_iff.mpr member
  have finished := callbacks_finish before (.publish event) address
  have same : (machine.after create (before ++ [.publish event] ++ List.replicate
      (machine.step (machine.after create before) (.publish event)).2.remaining
        .returns)).limit address = (machine.after create before).limit address := by
    rw [List.append_assoc, Machine.after_append]
    exact limit_after wellFormed _ used
  have bounded := limits address (same ▸ limited)
  rw [same, finished] at bounded
  change ((((machine.after create before).publish event).2.eventCount address +
    ((machine.after create before).publish event).2.pending address : Nat) : Int) ≤ _ at bounded
  omega

private theorem idle_of_cancels {before : List (BusCall Data)} {subId : String}
    (cancels : RespectsCancels (before ++ [.unsubscribe subId] ++ List.replicate
      (machine.step (machine.after create before) (.unsubscribe subId)).2.remaining .returns)) :
    (machine.after create before).Orderly (.unsubscribe subId) := by
  intro address found
  have wellFormed := wellFormed_after wellFormed_create before
  have step : (machine.step (machine.after create before) (.unsubscribe subId)) =
      (.unsubscribed (some address), { machine.after create before with
        subscriptions := (machine.after create before).subscriptions.erase subId }) := by
    show (machine.after create before).unsubscribe subId = _
    simp only [unsubscribe, found]
  have next := wellFormed_step wellFormed (.unsubscribe subId)
  have finish := eventCount_finish next address
  have counted := eventCount_after next (List.replicate
    (machine.step (machine.after create before) (.unsubscribe subId)).2.remaining .returns)
    address
  have silent : callbacks (machine.step (machine.after create before) (.unsubscribe subId)).2
      (List.replicate (machine.step (machine.after create before)
        (.unsubscribe subId)).2.remaining .returns) address = 0 := by
    rw [RespectsCancels, List.append_assoc, Machine.replies_append, List.pairwise_append] at cancels
    have later := (List.pairwise_cons.mp cancels.2.1).1
    apply List.countP_eq_zero.mpr
    intro reply member
    have quiet := later reply member address (by rw [step]; exact decide_eq_true rfl)
    simp [quiet]
  have same : (machine.step (machine.after create before) (.unsubscribe subId)).2.pending
      address = (machine.after create before).pending address := by
    rw [step]
    rfl
  omega

private theorem orderly_of_delivers (delivers : Delivers calls) :
    machine.Along Orderly create calls := by
  rw [Machine.along_iff_each]
  rintro before call rest rfl
  have split : before ++ call :: rest = before ++ [call] ++ rest := by simp
  obtain ⟨limits, cancels⟩ := delivers (before ++ [call]) rest
    (machine.step (machine.after create before) call).2.remaining split
  cases call with
  | publish event => exact room_of_limits limits
  | unsubscribe subId => exact idle_of_cancels cancels
  | subscribe uuid channel filterFn maxEvents => trivial
  | returns => trivial
  | raises => trivial
  | aborts => trivial

/-- The limits hold exactly in the runs whose publish calls leave room for the
turns that wait, and whose unsubscribe calls find none that waits. -/
theorem delivers_iff_orderly (calls : List (BusCall Data)) :
    Delivers calls ↔ machine.Along Orderly create calls := by
  refine ⟨orderly_of_delivers, fun orderly before rest turns split => ?_⟩
  rw [split, Machine.along_append] at orderly
  have finished : machine.Along Orderly create (before ++ List.replicate turns .returns) :=
    (machine.along_append _ _ _ _).mpr ⟨orderly.1, orderly_returns _ turns⟩
  exact ⟨respectsLimits_of_orderly finished, pairwise_of_orderly wellFormed_create finished⟩

/-- `first` hears the event again while `second`, limited to one event, waits. -/
def nestedPublish : List (BusCall Unit) :=
  [.subscribe "first" "task:*" none (-1), .subscribe "second" "task:*" none 1,
    .publish ⟨"task:complete", ()⟩, .publish ⟨"task:complete", ()⟩, .returns, .returns, .returns]

/-- `first` unsubscribes `second`, which waits for its turn. -/
def lateUnsubscribe : List (BusCall Unit) :=
  [.subscribe "first" "task:*" none (-1), .subscribe "second" "task:*" none (-1),
    .publish ⟨"task:complete", ()⟩, .unsubscribe "sub_second", .returns]

/-- A nested publish reaches a limited handler twice, a cancelled one is still called. -/
theorem reentrancy_breaks_limits :
    (¬ ∀ calls : List (BusCall Unit), RespectsLimits calls) ∧
      ¬ ∀ calls : List (BusCall Unit), RespectsCancels calls := by
  constructor
  · intro respects
    exact absurd (respects nestedPublish 1 (by decide)) (by decide)
  · intro respects
    have apart := List.pairwise_iff_getElem.mp (respects lateUnsubscribe) 3 4 (by decide)
      (by decide) (by decide) 1 rfl
    cases apart

end Swarmind.Orchestrator.EventBus
