import Swarmind.Kernel.EventLog

/-!
Owns the kernel loop: submit, the two halves of a dispatch, and step and run
for handlers that answer without calling the loop again. A handler is a value
of `H`; only `dispatch`, `step` and `run` call it.

A submit reports which envelope it put into the mailbox next to what the source
returns.
-/

namespace Swarmind.Kernel

open Swarmind.Library

structure KernelStats where
  dispatched : Nat
  errors : Nat
  unregistered : Nat
  byKind : Dict String Nat

structure KernelLoop (H : Type) where
  mailbox : BoundedMailbox
  log : EventLog
  failFast : Bool
  handlers : Dict String H
  stats : KernelStats

/-- What a submit returns or raises, the loop after it, and the envelope that
reached the mailbox. -/
structure Submission (H : Type) where
  result : Except PyException MessageEnvelope
  loop : KernelLoop H
  enqueued : Option MessageEnvelope

namespace KernelLoop

variable {H : Type}

/-- `KernelLoop(mailbox, event_log, fail_fast)`. -/
def create (mailbox : BoundedMailbox) (log : EventLog) (failFast : Bool) : KernelLoop H :=
  ⟨mailbox, log, failFast, Dict.empty, ⟨0, 0, 0, Dict.empty⟩⟩

/-- A loop without handlers over an empty log of `maxEntries` events. -/
def fresh (maxEntries : Nat) (positive : 0 < maxEntries) (overflow : Overflow) : KernelLoop H :=
  create ⟨8, [], 0, by decide, by decide⟩
    ⟨maxEntries, overflow, [], 1, positive, Nat.zero_le _⟩ false

variable (loop : KernelLoop H)

def register (kind : String) (handler : H) : Except PyException Unit × KernelLoop H :=
  if isBlank kind then (.error (.valueError "KernelLoop.register: kind vacio"), loop)
  else (.ok (), { loop with handlers := loop.handlers.set kind handler })

def buildEnvelope (kind : String) (payload : Option (Dict String PyValue))
    (traceId source : String) : Except PyException MessageEnvelope :=
  MessageEnvelope.build loop.log.nextSeq kind payload traceId source

/-- `submit`: the mailbox takes the envelope before the log does. -/
def submit (kind : String) (payload : Option (Dict String PyValue)) (traceId source : String) :
    Submission H :=
  match loop.buildEnvelope kind payload traceId source with
  | .error raised => ⟨.error raised, loop, none⟩
  | .ok envelope =>
    match loop.mailbox.put envelope with
    | (.error raised, mailbox) => ⟨.error raised, { loop with mailbox := mailbox }, none⟩
    | (.ok (), mailbox) =>
      match loop.log.append kind (some envelope.payload) traceId source (some envelope.seq) with
      | (.error raised, log) =>
        ⟨.error raised, { loop with mailbox := mailbox, log := log }, some envelope⟩
      | (.ok _, log) =>
        ⟨.ok envelope, { loop with mailbox := mailbox, log := log }, some envelope⟩

/-! ### Dispatch -/

/-- First half of `_dispatch`: count the envelope and look its handler up. -/
def beginDispatch (envelope : MessageEnvelope) : Option H × KernelLoop H :=
  let count := (loop.stats.byKind.get? envelope.kind).getD 0 + 1
  (loop.handlers.get? envelope.kind,
    { loop with stats :=
        { loop.stats with
          dispatched := loop.stats.dispatched + 1
          byKind := loop.stats.byKind.set envelope.kind count } })

/-- Count a failed dispatch, log it under a kernel kind, and raise `exc` when
the loop fails fast. The log itself may raise first. -/
def logFailure (counted : KernelStats) (kind : String) (payload : List (String × PyValue))
    (envelope : MessageEnvelope) (exc : PyException) : Except PyException Unit × KernelLoop H :=
  match loop.log.append kind (some (Dict.ofList payload)) envelope.traceId "kernel" none with
  | (.error raised, log) => (.error raised, { loop with stats := counted, log := log })
  | (.ok _, log) =>
    (if loop.failFast then .error exc else .ok (), { loop with stats := counted, log := log })

def onUnregistered (envelope : MessageEnvelope) : Except PyException Unit × KernelLoop H :=
  loop.logFailure { loop.stats with unregistered := loop.stats.unregistered + 1 }
    "kernel.unregistered" [("kind", .str envelope.kind), ("seq", .int envelope.seq)] envelope
    ⟨"UnregisteredKindError",
      "KernelLoop | WHAT=kind_sin_handler | WHY=no_registrado | " ++
      s!"WHERE=_dispatch | kind={pyRepr envelope.kind} | seq={envelope.seq}"⟩

def onHandlerError (envelope : MessageEnvelope) (exc : PyException) :
    Except PyException Unit × KernelLoop H :=
  loop.logFailure { loop.stats with errors := loop.stats.errors + 1 } "kernel.error"
    [("kind", .str envelope.kind), ("seq", .int envelope.seq),
      ("error", .str s!"{exc.typeName}: {exc.message}")] envelope exc

/-- `mailbox.get()` on the mailbox of the loop. -/
def take : Option MessageEnvelope × KernelLoop H :=
  let taken := loop.mailbox.get
  (taken.1, { loop with mailbox := taken.2 })

end KernelLoop

/-! ### What a step of the loop does -/

/-- A dispatch leaves mailbox, handlers and policy alone. -/
structure SameQueue {H : Type} (before after : KernelLoop H) : Prop where
  mailbox : after.mailbox = before.mailbox
  handlers : after.handlers = before.handlers
  failFast : after.failFast = before.failFast

theorem SameQueue.trans {H : Type} {first second third : KernelLoop H}
    (before : SameQueue second third) (after : SameQueue first second) : SameQueue first third where
  mailbox := before.mailbox.trans after.mailbox
  handlers := before.handlers.trans after.handlers
  failFast := before.failFast.trans after.failFast

/-- A failed dispatch: either the log is full and raises, or it takes one more
entry and the loop raises exactly when it fails fast. -/
structure LogsFailure {H : Type} (before after : KernelLoop H)
    (result : Except PyException Unit) : Prop where
  same : SameQueue before after
  outcome : (¬ before.log.HasRoom ∧ before.log.overflow = .raise ∧ Raises result ∧
      after.log = before.log) ∨
    ((before.log.HasRoom ∨ before.log.overflow = .dropOldest) ∧
      (∃ entry, before.log.Appends after.log entry) ∧
      (before.failFast = false → result = .ok ()))

namespace KernelLoop

variable {H : Type} (loop : KernelLoop H)

private theorem logFailure_logs (counted : KernelStats) {kind : String}
    (named : isBlank kind = false) (payload : List (String × PyValue))
    (envelope : MessageEnvelope) (exc : PyException) :
    LogsFailure loop (loop.logFailure counted kind payload envelope exc).2
      (loop.logFailure counted kind payload envelope exc).1 := by
  unfold logFailure
  rcases loop.log.append_cases named (some (Dict.ofList payload)) envelope.traceId "kernel"
      (Or.inl rfl) with
    ⟨full, policy, raised, appended⟩ | ⟨space, entry, log, appended, _, appends⟩
  · rw [appended]
    exact ⟨⟨rfl, rfl, rfl⟩, Or.inl ⟨full, policy, ⟨raised, rfl⟩, rfl⟩⟩
  · rw [appended]
    refine ⟨⟨rfl, rfl, rfl⟩, Or.inr ⟨space, ⟨entry, appends⟩, fun slow => ?_⟩⟩
    simp only [slow, Bool.false_eq_true, if_false]

/-- A missing handler is recorded, or the log has no room for it. -/
theorem onUnregistered_logs (envelope : MessageEnvelope) :
    LogsFailure loop (loop.onUnregistered envelope).2 (loop.onUnregistered envelope).1 :=
  loop.logFailure_logs _ (by decide) _ _ _

/-- A failure is recorded, or the log has no room for it. -/
theorem onHandlerError_logs (envelope : MessageEnvelope) (exc : PyException) :
    LogsFailure loop (loop.onHandlerError envelope exc).2 (loop.onHandlerError envelope exc).1 :=
  loop.logFailure_logs _ (by decide) _ _ _

/-- A refused submit changes no queue; an accepted one adds one envelope. -/
theorem submit_cases (kind : String) (payload : Option (Dict String PyValue))
    (traceId source : String) :
    ((isBlank kind = true ∨ ¬ loop.mailbox.HasRoom) ∧
        ∃ raised after, loop.submit kind payload traceId source = ⟨.error raised, after, none⟩ ∧
          after.log = loop.log ∧ after.mailbox.items = loop.mailbox.items) ∨
      (isBlank kind = false ∧ loop.mailbox.HasRoom ∧
        ∃ envelope result after,
          loop.submit kind payload traceId source = ⟨result, after, some envelope⟩ ∧
          envelope.seq = loop.log.nextSeq ∧ envelope.kind = kind ∧
          after.mailbox.items = loop.mailbox.items ++ [envelope] ∧
          ((¬ loop.log.HasRoom ∧ loop.log.overflow = .raise ∧ Raises result ∧
              after.log = loop.log) ∨
            ((loop.log.HasRoom ∨ loop.log.overflow = .dropOldest) ∧ result = .ok envelope ∧
              ∃ entry, entry.kind = kind ∧ loop.log.Appends after.log entry))) := by
  by_cases named : isBlank kind = false
  · by_cases room : loop.mailbox.HasRoom
    · right
      refine ⟨named, room, ?_⟩
      have built : loop.buildEnvelope kind payload traceId source =
          .ok ⟨loop.log.nextSeq, kind, payload.getD Dict.empty, traceId, source, named⟩ :=
        dif_pos named
      rcases loop.log.append_cases named (some (payload.getD Dict.empty)) traceId source
          (Or.inr rfl) with
        ⟨full, policy, raised, appended⟩ | ⟨space, entry, log, appended, sameKind, appends⟩
      · simp only [submit, built, BoundedMailbox.put, dif_pos room, appended]
        exact ⟨_, _, _, rfl, rfl, rfl, rfl, Or.inl ⟨full, policy, ⟨raised, rfl⟩, rfl⟩⟩
      · simp only [submit, built, BoundedMailbox.put, dif_pos room, appended]
        exact ⟨_, _, _, rfl, rfl, rfl, rfl, Or.inr ⟨space, rfl, entry, sameKind, appends⟩⟩
    · left
      have built : loop.buildEnvelope kind payload traceId source =
          .ok ⟨loop.log.nextSeq, kind, payload.getD Dict.empty, traceId, source, named⟩ :=
        dif_pos named
      simp only [submit, built, BoundedMailbox.put, dif_neg room]
      exact ⟨Or.inr room, _, _, rfl, rfl, rfl⟩
  · left
    have unbuilt : loop.buildEnvelope kind payload traceId source =
        .error (.valueError "MessageEnvelope: kind vacio o no-str") := dif_neg named
    simp only [submit, unbuilt]
    exact ⟨Or.inl (by simpa using named), _, _, rfl, rfl, rfl⟩

end KernelLoop

/-! ### Handlers that answer at once -/

/-- A handler that returns a value or raises an `Exception`. -/
abbrev Handler := MessageEnvelope → Except PyException PyValue

/-- What a run returns or raises, and the loop after it. -/
structure Pass where
  result : Except PyException Nat
  loop : KernelLoop Handler

namespace KernelLoop

variable (loop : KernelLoop Handler)

def dispatch (envelope : MessageEnvelope) : Except PyException Unit × KernelLoop Handler :=
  match loop.beginDispatch envelope with
  | (none, begun) => begun.onUnregistered envelope
  | (some handler, begun) =>
    match handler envelope with
    | .ok _ => (.ok (), begun)
    | .error exc => begun.onHandlerError envelope exc

/-- A dispatch leaves the queue as it is. -/
theorem dispatch_same (envelope : MessageEnvelope) : SameQueue loop (loop.dispatch envelope).2 := by
  cases registered : loop.handlers.get? envelope.kind with
  | none =>
    simp only [dispatch, beginDispatch, registered]
    exact (onUnregistered_logs _ envelope).same.trans ⟨rfl, rfl, rfl⟩
  | some handler =>
    cases answer : handler envelope with
    | ok value =>
      simp only [dispatch, beginDispatch, registered, answer]
      exact ⟨rfl, rfl, rfl⟩
    | error exc =>
      simp only [dispatch, beginDispatch, registered, answer]
      exact (onHandlerError_logs _ envelope exc).same.trans ⟨rfl, rfl, rfl⟩

def step : Except PyException (Option MessageEnvelope) × KernelLoop Handler :=
  match loop.take with
  | (none, taken) => (.ok none, taken)
  | (some envelope, taken) =>
    match taken.dispatch envelope with
    | (.error raised, after) => (.error raised, after)
    | (.ok (), after) => (.ok (some envelope), after)

def runLoop (maxMessages : Option Int) : Nat → Nat → KernelLoop Handler → Pass
  | 0, processed, loop => ⟨.ok processed, loop⟩
  | turns + 1, processed, loop =>
    if maxMessages.all fun bound => (processed : Int) < bound then
      match loop.take with
      | (none, taken) => ⟨.ok processed, taken⟩
      | (some envelope, taken) =>
        match taken.dispatch envelope with
        | (.error raised, after) => ⟨.error raised, after⟩
        | (.ok (), after) => runLoop maxMessages turns (processed + 1) after
    else ⟨.ok processed, loop⟩

section Turns

variable {maxMessages : Option Int} {turns processed : Nat} {loop after : KernelLoop Handler}
  {envelope : MessageEnvelope} {raised : PyException}
  (bound : (maxMessages.all fun limit => (processed : Int) < limit) = true)

include bound

theorem runLoop_empty (oldest : loop.mailbox.items.head? = none) :
    runLoop maxMessages (turns + 1) processed loop = ⟨.ok processed, loop.take.2⟩ := by
  rw [runLoop, if_pos bound, show loop.take = (none, loop.take.2) from Prod.ext oldest rfl]

theorem runLoop_ok (oldest : loop.mailbox.items.head? = some envelope)
    (returns : loop.take.2.dispatch envelope = (.ok (), after)) :
    runLoop maxMessages (turns + 1) processed loop =
      runLoop maxMessages turns (processed + 1) after := by
  rw [runLoop, if_pos bound, show loop.take = (some envelope, loop.take.2) from
    Prod.ext oldest rfl]
  simp only [returns]

theorem runLoop_error (oldest : loop.mailbox.items.head? = some envelope)
    (raises : loop.take.2.dispatch envelope = (.error raised, after)) :
    runLoop maxMessages (turns + 1) processed loop = ⟨.error raised, after⟩ := by
  rw [runLoop, if_pos bound, show loop.take = (some envelope, loop.take.2) from
    Prod.ext oldest rfl]
  simp only [raises]

end Turns

/-- `run(max_messages)`. A handler that answers at once cannot extend the
mailbox, so one turn for each message and one to find it empty are enough. -/
def run (maxMessages : Option Int) : Pass :=
  runLoop maxMessages (loop.mailbox.items.length + 1) 0 loop

end KernelLoop

end Swarmind.Kernel
