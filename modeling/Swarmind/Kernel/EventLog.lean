import Swarmind.Library.Json
import Swarmind.Library.Python

/-!
Owns the messages of the kernel, the append-only event log and the bounded
mailbox. A log never holds more entries than its capacity and a mailbox never
more items than its own; both bounds are fields, so no operation can leave
them.
-/

namespace Swarmind.Kernel

open Swarmind.Library

/-- Immutable kernel message. Its kind is never blank. -/
structure MessageEnvelope where
  seq : Nat
  kind : String
  payload : Dict String PyValue
  traceId : String
  source : String
  named : isBlank kind = false

/-- `MessageEnvelope(...)` with `payload=dict(payload or \x7b\x7d)`. -/
def MessageEnvelope.build (seq : Nat) (kind : String) (payload : Option (Dict String PyValue))
    (traceId source : String) : Except PyException MessageEnvelope :=
  if named : isBlank kind = false then
    .ok ⟨seq, kind, payload.getD Dict.empty, traceId, source, named⟩
  else .error (.valueError "MessageEnvelope: kind vacio o no-str")

/-! ### Event log -/

/-- What a full log does with one more entry. -/
inductive Overflow where
  | raise
  | dropOldest
deriving DecidableEq, Repr

structure EventLog where
  maxEntries : Nat
  overflow : Overflow
  entries : List MessageEnvelope
  nextSeq : Nat
  positive : 0 < maxEntries
  bounded : entries.length ≤ maxEntries

namespace EventLog

def create (maxEntries : Nat) (overflow : Overflow) : Except PyException EventLog :=
  if positive : 0 < maxEntries then .ok ⟨maxEntries, overflow, [], 1, positive, Nat.zero_le _⟩
  else .error (.valueError "EventLog: max_entries debe ser > 0")

variable (log : EventLog)

/-- One more entry fits without dropping another. -/
def HasRoom : Prop := log.entries.length < log.maxEntries

instance : Decidable log.HasRoom := inferInstanceAs (Decidable (_ < _))

/-- The log without its oldest entry. -/
def popLeft : EventLog where
  maxEntries := log.maxEntries
  overflow := log.overflow
  entries := log.entries.tail
  nextSeq := log.nextSeq
  positive := log.positive
  bounded := by
    have bounded := log.bounded
    rw [List.length_tail]
    omega

private theorem popLeft_hasRoom : log.popLeft.HasRoom := by
  have bounded := log.bounded
  have positive := log.positive
  show log.entries.tail.length < log.maxEntries
  rw [List.length_tail]
  omega

/-- `_reserve_slot`: a log with room for one more entry, or the error of a full
log that does not drop. -/
def reserveSlot : Except PyException { reserved : EventLog // reserved.HasRoom } :=
  if room : log.HasRoom then .ok ⟨log, room⟩
  else
    match log.overflow with
    | .raise => .error ⟨"EventLogFullError", "EventLog | WHAT=log_lleno | " ++
        s!"WHY=capacidad_excedida | WHERE=append | max={log.maxEntries}"⟩
    | .dropOldest => .ok ⟨log.popLeft, log.popLeft_hasRoom⟩

/-- Push a built envelope; `seq` is the explicit sequence, if one was given. -/
def push (room : log.HasRoom) (envelope : MessageEnvelope) (seq : Option Nat) : EventLog where
  maxEntries := log.maxEntries
  overflow := log.overflow
  entries := log.entries ++ [envelope]
  nextSeq := if seq.all fun given => log.nextSeq ≤ given then envelope.seq + 1 else log.nextSeq
  positive := log.positive
  bounded := by
    rw [List.length_append, List.length_singleton]
    exact room

def append (kind : String) (payload : Option (Dict String PyValue)) (traceId source : String)
    (seq : Option Nat) : Except PyException MessageEnvelope × EventLog :=
  match log.reserveSlot with
  | .error raised => (.error raised, log)
  | .ok ⟨reserved, room⟩ =>
    match MessageEnvelope.build (seq.getD reserved.nextSeq) kind payload traceId source with
    | .error raised => (.error raised, reserved)
    | .ok envelope => (.ok envelope, reserved.push room envelope seq)

/-! ### What an append does -/

/-- The entries that an append keeps. -/
def kept : List MessageEnvelope := if log.HasRoom then log.entries else log.entries.tail

/-- `after` is `before` with one more entry, numbered by the log itself. -/
structure Appends (before after : EventLog) (envelope : MessageEnvelope) : Prop where
  entries : after.entries = before.kept ++ [envelope]
  seq : envelope.seq = before.nextSeq
  next : after.nextSeq = before.nextSeq + 1
  capacity : after.maxEntries = before.maxEntries
  overflow : after.overflow = before.overflow

/-- Nothing is dropped from a log with room. -/
theorem kept_of_hasRoom {log : EventLog} (room : log.HasRoom) : log.kept = log.entries :=
  if_pos room

/-- A full log that raises is left alone; every other log gets its next entry. -/
theorem append_cases {kind : String} (named : isBlank kind = false)
    (payload : Option (Dict String PyValue)) (traceId source : String) {seq : Option Nat}
    (own : seq = none ∨ seq = some log.nextSeq) :
    (¬ log.HasRoom ∧ log.overflow = .raise ∧
        ∃ raised, log.append kind payload traceId source seq = (.error raised, log)) ∨
      ((log.HasRoom ∨ log.overflow = .dropOldest) ∧
        ∃ envelope after, log.append kind payload traceId source seq = (.ok envelope, after) ∧
          envelope.kind = kind ∧ log.Appends after envelope) := by
  have pushed : ∀ (reserved : EventLog) (room : reserved.HasRoom),
      reserved.nextSeq = log.nextSeq → reserved.maxEntries = log.maxEntries →
      reserved.overflow = log.overflow → reserved.entries = log.kept →
      log.reserveSlot = .ok ⟨reserved, room⟩ →
      ∃ envelope after, log.append kind payload traceId source seq = (.ok envelope, after) ∧
        envelope.kind = kind ∧ log.Appends after envelope := by
    intro reserved room sameNext sameMax sameOverflow entries slot
    have numbered : seq.getD reserved.nextSeq = log.nextSeq := by
      rcases own with rfl | rfl
      · exact sameNext
      · rfl
    have advances : (seq.all fun given => reserved.nextSeq ≤ given) = true := by
      rcases own with rfl | rfl
      · rfl
      · simp [sameNext]
    simp only [append, slot, MessageEnvelope.build, dif_pos named]
    refine ⟨_, _, rfl, rfl, ?_⟩
    constructor
    · exact congrArg (· ++ [_]) entries
    · exact numbered
    · show (if (seq.all fun given => reserved.nextSeq ≤ given) then
        seq.getD reserved.nextSeq + 1 else reserved.nextSeq) = log.nextSeq + 1
      rw [if_pos advances, numbered]
    · exact sameMax
    · exact sameOverflow
  by_cases room : log.HasRoom
  · right
    have slot : log.reserveSlot = .ok ⟨log, room⟩ := by
      unfold reserveSlot
      rw [dif_pos room]
    exact ⟨Or.inl room, pushed log room rfl rfl rfl (kept_of_hasRoom room).symm slot⟩
  · cases policy : log.overflow with
    | raise =>
      left
      refine ⟨room, rfl, ?_⟩
      simp only [append, reserveSlot, dif_neg room, policy]
      exact ⟨_, rfl⟩
    | dropOldest =>
      right
      have slot : log.reserveSlot = .ok ⟨log.popLeft, log.popLeft_hasRoom⟩ := by
        unfold reserveSlot
        rw [dif_neg room, policy]
      exact ⟨Or.inr rfl, pushed log.popLeft log.popLeft_hasRoom rfl rfl rfl
        (if_neg room).symm slot⟩

end EventLog

/-! ### Mailbox -/

structure BoundedMailbox where
  capacity : Nat
  items : List MessageEnvelope
  rejected : Nat
  positive : 0 < capacity
  bounded : items.length ≤ capacity

namespace BoundedMailbox

/-- `BoundedMailbox(capacity)`. -/
def create (capacity : Nat) : Except PyException BoundedMailbox :=
  if positive : 0 < capacity then .ok ⟨capacity, [], 0, positive, Nat.zero_le _⟩
  else .error (.valueError s!"BoundedMailbox: capacity debe ser > 0, no {capacity}")

variable (mailbox : BoundedMailbox)

/-- One more message fits. -/
def HasRoom : Prop := mailbox.items.length < mailbox.capacity

instance : Decidable mailbox.HasRoom := inferInstanceAs (Decidable (_ < _))

/-- `put`. A rejected message only moves the counter of rejections. -/
def put (envelope : MessageEnvelope) : Except PyException Unit × BoundedMailbox :=
  if room : mailbox.HasRoom then
    (.ok (), { mailbox with
      items := mailbox.items ++ [envelope]
      bounded := by
        rw [List.length_append, List.length_singleton]
        exact room })
  else
    (.error ⟨"MailboxFullError", "BoundedMailbox | WHAT=cola_llena | " ++
        s!"WHY=backpressure | WHERE=put | capacity={mailbox.capacity}"⟩,
      { mailbox with rejected := mailbox.rejected + 1 })

def get : Option MessageEnvelope × BoundedMailbox :=
  (mailbox.items.head?, { mailbox with
    items := mailbox.items.tail
    bounded := by
      have bounded := mailbox.bounded
      rw [List.length_tail]
      omega })

end BoundedMailbox

end Swarmind.Kernel
