import Mathlib.Algebra.GroupWithZero.Nat
import Mathlib.Data.List.Sort
import Swarmind.Library.Dict
import Swarmind.Library.Python
import Swarmind.Library.Runs

/-!
Owns the event bus: subscriptions, and publishing with callbacks that may use
the bus themselves. A publish call chooses its subscriptions before it runs the
first callback; the ones whose turn is still to come wait in its frame. The lock
is re-entrant, so the open frames form one stack.

Does not own: the channel and agent indexes and the history, which only queries
read.
-/

namespace Swarmind.Orchestrator

open Swarmind.Library

/-- An event; `data` is all that a filter sees besides the channel. -/
structure Event (Data : Type) where
  channel : String
  data : Data

structure Subscription (Data : Type) where
  subId : String
  channel : String
  filterFn : Option (Event Data → Except PyException Bool)
  maxEvents : Int
  eventCount : Nat

/-- A publish call that is running its callbacks. -/
structure PublishFrame (Data : Type) where
  event : Event Data
  waiting : List Nat
  notified : Nat

/-- `_subscriptions` holds objects; an object is its place in `objects`. The
innermost frame is the first one. -/
structure EventBus (Data : Type) where
  subscriptions : Dict String Nat
  objects : List (Subscription Data)
  frames : List (PublishFrame Data)

/-- What the running code does next: a call on the bus, or the end of the
callback that runs. `uuid` is the text behind `sub_`. -/
inductive BusCall (Data : Type) where
  | publish (event : Event Data)
  | subscribe (uuid channel : String) (filterFn : Option (Event Data → Except PyException Bool))
      (maxEvents : Int)
  | unsubscribe (subId : String)
  | returns
  | raises
  | aborts

/-- What a step comes to; a cancelled subscription is named by its object. -/
inductive BusReply (Data : Type) where
  | invokes (address : Nat) (event : Event Data)
  | published (notified : Nat)
  | subscribed (subId : String)
  | unsubscribed (cancelled : Option Nat)
  | raised (exception : PyException)
  | nothing

namespace BusReply

variable {Data : Type}

/-- The step runs the callback of a subscription. -/
def callsBack (address : Nat) : BusReply Data → Bool
  | .invokes other _ => decide (other = address)
  | _ => false

/-- The step is an unsubscribe call for a subscription that returns `True`. -/
def cancels (address : Nat) : BusReply Data → Bool
  | .unsubscribed (some other) => decide (other = address)
  | _ => false

end BusReply

namespace EventBus

variable {Data : Type}

def create : EventBus Data := ⟨Dict.empty, [], []⟩

def matchChannel (pattern channel : String) : Bool :=
  if pattern = "*" then true
  else if pattern.toList.getLast? = some '*' then
    pattern.toList.dropLast.isPrefixOf channel.toList
  else decide (pattern = channel)

def emptyChannel : PyException :=
  .valueError "[EventBus] channel no puede estar vacio. WHERE: subscribe."

def subscribe (bus : EventBus Data) (uuid channel : String)
    (filterFn : Option (Event Data → Except PyException Bool)) (maxEvents : Int) :
    BusReply Data × EventBus Data :=
  if channel = "" then (.raised emptyChannel, bus)
  else
    let subId := "sub_" ++ uuid
    (.subscribed subId, { bus with
      subscriptions := bus.subscriptions.set subId bus.objects.length
      objects := bus.objects ++ [⟨subId, channel, filterFn, maxEvents, 0⟩] })

def unsubscribe (bus : EventBus Data) (subId : String) : BusReply Data × EventBus Data :=
  match bus.subscriptions.get? subId with
  | none => (.unsubscribed none, bus)
  | some address =>
    (.unsubscribed (some address), { bus with subscriptions := bus.subscriptions.erase subId })

/-- `not sub.filter_fn or sub.filter_fn(event)`. -/
def Subscription.passes (sub : Subscription Data) (event : Event Data) : Except PyException Bool :=
  match sub.filterFn with
  | none => .ok true
  | some filterFn => filterFn event

def Subscription.exhausted (sub : Subscription Data) : Prop :=
  0 < sub.maxEvents ∧ sub.maxEvents ≤ sub.eventCount

instance (sub : Subscription Data) : Decidable (Subscription.exhausted sub) :=
  inferInstanceAs (Decidable (0 < sub.maxEvents ∧ sub.maxEvents ≤ sub.eventCount))

def matchingSubs (objects : List (Subscription Data)) (event : Event Data) :
    List (String × Nat) → Except PyException (List Nat)
  | [] => .ok []
  | (_, address) :: rest =>
    match objects[address]? with
    | none => matchingSubs objects event rest
    | some sub =>
      if matchChannel sub.channel event.channel then
        match Subscription.passes sub event with
        | .error exception => .error exception
        | .ok false => matchingSubs objects event rest
        | .ok true =>
          if Subscription.exhausted sub then matchingSubs objects event rest
          else (matchingSubs objects event rest).map (address :: ·)
      else matchingSubs objects event rest

/-- The subscriptions that a publish call of this event chooses. -/
def matching (bus : EventBus Data) (event : Event Data) : Except PyException (List Nat) :=
  matchingSubs bus.objects event bus.subscriptions.entries

/-- The next turn of the innermost frame: the next callback, or the return. -/
def advance (bus : EventBus Data) : BusReply Data × EventBus Data :=
  match bus.frames with
  | [] => (.nothing, bus)
  | frame :: outer =>
    match frame.waiting with
    | [] => (.published frame.notified, { bus with frames := outer })
    | address :: rest =>
      (.invokes address frame.event, { bus with
        objects := bus.objects.modify address fun sub =>
          { sub with eventCount := sub.eventCount + 1 }
        frames := { frame with waiting := rest } :: outer })

def publish (bus : EventBus Data) (event : Event Data) : BusReply Data × EventBus Data :=
  match bus.matching event with
  | .error exception => (.raised exception, bus)
  | .ok addresses => advance { bus with frames := ⟨event, addresses, 0⟩ :: bus.frames }

def callbackReturns (bus : EventBus Data) : BusReply Data × EventBus Data :=
  match bus.frames with
  | [] => (.nothing, bus)
  | frame :: outer =>
    advance { bus with frames := { frame with notified := frame.notified + 1 } :: outer }

/-- The callback that runs raises what `publish` does not catch. -/
def callbackAborts (bus : EventBus Data) : BusReply Data × EventBus Data :=
  (.nothing, { bus with frames := bus.frames.tail })

def machine : Machine (EventBus Data) (BusCall Data) (BusReply Data) where
  step bus call :=
    match call with
    | .publish event => bus.publish event
    | .subscribe uuid channel filterFn maxEvents => bus.subscribe uuid channel filterFn maxEvents
    | .unsubscribe subId => bus.unsubscribe subId
    | .returns => bus.callbackReturns
    | .raises => bus.advance
    | .aborts => bus.callbackAborts

/-! ### Counters -/

/-- Callbacks that a subscription has had. -/
def eventCount (bus : EventBus Data) (address : Nat) : Nat :=
  (bus.objects[address]?).elim 0 Subscription.eventCount

/-- Turns of a subscription that wait in the open frames. -/
def pending (bus : EventBus Data) (address : Nat) : Nat :=
  (bus.frames.map fun frame => frame.waiting.count address).sum

def limit (bus : EventBus Data) (address : Nat) : Int :=
  (bus.objects[address]?).elim 0 Subscription.maxEvents

/-! ### Matching -/

private theorem matchingSubs_sublist (objects : List (Subscription Data)) (event : Event Data)
    (entries : List (String × Nat)) {addresses : List Nat}
    (chosen : matchingSubs objects event entries = .ok addresses) :
    addresses.Sublist (entries.map Prod.snd) := by
  induction entries generalizing addresses with
  | nil =>
    cases chosen
    exact List.Sublist.slnil
  | cons entry rest ih =>
    obtain ⟨subId, address⟩ := entry
    have skipped (later : matchingSubs objects event rest = .ok addresses) :
        addresses.Sublist (((subId, address) :: rest).map Prod.snd) :=
      (ih later).cons address
    rw [matchingSubs] at chosen
    split at chosen
    · exact skipped chosen
    · split at chosen
      · split at chosen
        · cases chosen
        · exact skipped chosen
        · split at chosen
          · exact skipped chosen
          · cases later : matchingSubs objects event rest with
            | error exception =>
              rw [later] at chosen
              cases chosen
            | ok others =>
              rw [later] at chosen
              cases chosen
              exact (ih later).cons_cons address
      · exact skipped chosen

/-- The handlers are called in the order of the subscriptions. -/
theorem matching_sublist {bus : EventBus Data} {event : Event Data} {addresses : List Nat}
    (chosen : bus.matching event = .ok addresses) : addresses.Sublist bus.subscriptions.values :=
  matchingSubs_sublist bus.objects event bus.subscriptions.entries chosen

end EventBus

end Swarmind.Orchestrator
