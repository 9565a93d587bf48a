import Swarmind.Kernel.Agreement

/-!
Owns the isolation of failures in a loop that does not fail fast. A failed
dispatch costs one entry of the event log, and a full log that raises turns
that entry into an exception of `run`. Whatever the handlers call, a run is
isolated exactly while the log takes the entry of each dispatch of a `run` that fails.
-/

namespace Swarmind.Kernel

open Swarmind.Library

/-- The log takes one more entry, if need be for its oldest one. -/
def EventLog.Takes (log : EventLog) : Prop := log.HasRoom ∨ log.overflow = .dropOldest

private theorem LogsFailure.returns_iff {H : Type} {before after : KernelLoop H}
    {result : Except PyException Unit} (logs : LogsFailure before after result)
    (slow : before.failFast = false) : result = .ok () ↔ before.log.Takes := by
  rcases logs.outcome with ⟨full, policy, ⟨raised, raises⟩, _⟩ | ⟨space, _, returns⟩
  · refine iff_of_false (fun returned => ?_) (fun takes => ?_)
    · rw [raises] at returned
      cases returned
    · rcases takes with room | drops
      · exact full room
      · rw [policy] at drops
        cases drops
  · exact iff_of_true (returns slow) space

private theorem KernelLoop.submit_failFast {H : Type} (loop : KernelLoop H) (kind : String)
    (payload : Option (Dict String PyValue)) (traceId source : String) :
    (loop.submit kind payload traceId source).loop.failFast = loop.failFast := by
  unfold KernelLoop.submit
  split
  · rfl
  · split
    · rfl
    · split <;> rfl

private theorem KernelLoop.register_same {H : Type} (loop : KernelLoop H) (kind : String)
    (handler : H) :
    (loop.register kind handler).2.failFast = loop.failFast ∧
      (loop.register kind handler).2.mailbox = loop.mailbox := by
  unfold KernelLoop.register
  split_ifs <;> exact ⟨rfl, rfl⟩

def Frame.IsRun : Frame → Prop
  | .step _ => False
  | .run _ _ _ => True

namespace KernelState

variable {H : Type}

/-- The message that an action takes out of the mailbox and dispatches. -/
def dispatches (state : KernelState H) (action : Action H) : List MessageEnvelope :=
  match state.work action with
  | .take _ _ _ => state.loop.mailbox.items.head?.toList
  | _ => []

/-- The messages that are dispatched along a run, in order. -/
def dispatched : KernelState H → List (Action H) → List MessageEnvelope
  | _, [] => []
  | state, action :: rest => state.dispatches action ++ dispatched (state.step action).2 rest

/-- A `run` without a limit returns. -/
def RunReturns (state : KernelState H) (action : Action H) : Prop :=
  ∃ processed rest, state.frames = .run none processed none :: rest ∧
    (state.step action).1 = .ran (.ok processed)

/-- The action lets no `run` raise, unless a handler ends by what the loop does not catch. -/
def Quiet (state : KernelState H) (action : Action H) : Prop :=
  (∀ exc, action ≠ .handler (.interrupted exc)) →
    ∀ raised, (state.step action).1 ≠ .ran (.error raised)

/-- No `run` raises over a kind without a handler or over a handler that raises. When a `run`
without a limit returns, the messages that were queued at any moment before have been dispatched
since, each once and in order, and behind them those that were accepted since. -/
structure Isolated (start : KernelState H) (actions : List (Action H)) : Prop where
  quiet : ∀ before action rest, actions = before ++ action :: rest →
    ((machine H).after start before).Quiet action
  drained : ∀ before during action rest, actions = before ++ (during ++ action :: rest) →
    ((machine H).after start (before ++ during)).RunReturns action →
    ∃ since, ((machine H).after start (before ++ (during ++ [action]))).accepted =
        ((machine H).after start before).accepted ++ since ∧
      dispatched ((machine H).after start before) (during ++ [action]) =
        ((machine H).after start before).loop.mailbox.items ++ since

/-- A dispatch of a `run` fails: the kind of its message has no handler, or the handler raises. -/
def Fails (state : KernelState H) (action : Action H) : Prop :=
  match state.work action with
  | .take frame _ _ => ∃ envelope, state.loop.mailbox.items.head? = some envelope ∧
      state.loop.handlers.get? envelope.kind = none ∧ (frame envelope).IsRun
  | .complete frame _ _ (.raised _) => frame.IsRun
  | _ => False

/-- The log takes the entry of a dispatch of a `run` that fails. -/
def Records (state : KernelState H) (action : Action H) : Prop :=
  state.Fails action → state.loop.log.Takes

/-! ### One step -/

private theorem settle_quiet_iff (accepted : List MessageEnvelope) (frame : Frame)
    (rest : List Frame)
    (outcome : Except PyException Unit × KernelLoop H) :
    (∀ raised, (settle accepted frame rest outcome).1 ≠ .ran (.error raised)) ↔
      (frame.IsRun → outcome.1 = .ok ()) := by
  obtain ⟨result, loop⟩ := outcome
  cases frame with
  | step envelope => exact iff_of_true (fun _ => nofun) nofun
  | run maxMessages processed handling =>
    cases result with
    | ok done => exact iff_of_true (fun _ => nofun) fun _ => rfl
    | error raised => exact iff_of_false (fun quiet => quiet raised rfl) fun returns =>
        nomatch returns trivial

/-- What a step does to the queue, and when it is quiet. -/
structure Moves (state : KernelState H) (action : Action H) : Prop where
  failFast : (state.step action).2.loop.failFast = state.loop.failFast
  queue : ∃ since, (state.step action).2.accepted = state.accepted ++ since ∧
    state.loop.mailbox.items ++ since =
      state.dispatches action ++ (state.step action).2.loop.mailbox.items
  quiet : state.loop.failFast = false → (state.Quiet action ↔ state.Records action)

variable {action : Action H}

private theorem submit_moves {state : KernelState H} {kind : String}
    {payload : Option (Dict String PyValue)} {traceId source : String}
    (found : state.work action = .submit kind payload traceId source) : Moves state action := by
  have shape : state.step action =
      (.submitted (state.loop.submit kind payload traceId source).result,
        ⟨(state.loop.submit kind payload traceId source).loop, state.frames,
          state.accepted ++ (state.loop.submit kind payload traceId source).enqueued.toList⟩) := by
    rw [step, found]
    rfl
  refine ⟨?_, ?_, fun _ => iff_of_true (fun _ _ => ?_) ?_⟩
  · rw [shape]
    exact state.loop.submit_failFast kind payload traceId source
  · rw [dispatches, found, shape]
    rcases state.loop.submit_cases kind payload traceId source with
      ⟨_, raised, after, submitted, _, items⟩ |
        ⟨_, _, envelope, result, after, submitted, _, _, items, _⟩
    · rw [submitted]
      exact ⟨[], rfl, (List.append_nil _).trans items.symm⟩
    · rw [submitted]
      exact ⟨[envelope], rfl, items.symm⟩
  · rw [shape]
    intro same
    cases same
  · rw [Records, Fails, found]
    exact False.elim

private theorem queue_of_oldest {state : KernelState H} {frame : MessageEnvelope → Frame}
    {rest : List Frame} {empty : Answer} {envelope : MessageEnvelope}
    (found : state.work action = .take frame rest empty)
    (oldest : state.loop.mailbox.items.head? = some envelope) :
    state.loop.mailbox.items ++ [] =
      state.dispatches action ++ state.loop.mailbox.items.tail := by
  rw [dispatches, found, List.append_nil]
  show _ = state.loop.mailbox.items.head?.toList ++ _
  rw [oldest]
  exact (List.cons_head?_tail (Option.mem_def.mpr oldest)).symm

private theorem unregistered_moves {state : KernelState H} {frame : MessageEnvelope → Frame}
    {rest : List Frame} {empty : Answer} {envelope : MessageEnvelope}
    (found : state.work action = .take frame rest empty)
    (oldest : state.loop.mailbox.items.head? = some envelope)
    (missing : state.loop.handlers.get? envelope.kind = none) : Moves state action := by
  have sound := work_sound state action
  rw [found] at sound
  have shape : state.step action = state.perform (.take frame rest empty) := by
    rw [step, found]
  rw [perform_take_unregistered oldest missing] at shape
  have logs := KernelLoop.onUnregistered_logs
    (state.loop.take.2.beginDispatch envelope).2 envelope
  obtain ⟨loop, accepted, _⟩ := settle_spec state.accepted (frame envelope) rest
    ((state.loop.take.2.beginDispatch envelope).2.onUnregistered envelope)
  rw [← shape] at loop accepted
  refine ⟨?_, ⟨[], ?_, ?_⟩, fun slow => ?_⟩
  · rw [loop]
    exact logs.same.failFast
  · rw [accepted, List.append_nil]
  · rw [loop, logs.same.mailbox]
    exact queue_of_oldest found oldest
  · have returns := logs.returns_iff slow
    have fails : state.Fails action ↔ (frame envelope).IsRun := by
      rw [Fails, found]
      constructor
      · rintro ⟨other, head, _, isRun⟩
        rw [oldest, Option.some.injEq] at head
        rwa [head]
      · exact fun isRun => ⟨envelope, oldest, missing, isRun⟩
    have settled := settle_quiet_iff state.accepted (frame envelope) rest
      ((state.loop.take.2.beginDispatch envelope).2.onUnregistered envelope)
    rw [← shape, returns] at settled
    rw [Records, fails]
    exact ⟨fun quiet => settled.mp (quiet fun _ => sound.2.2.2 _),
      fun records _ => settled.mpr records⟩

private theorem take_moves {state : KernelState H} {frame : MessageEnvelope → Frame}
    {rest : List Frame} {empty : Answer} (found : state.work action = .take frame rest empty) :
    Moves state action := by
  have shape : state.step action = state.perform (.take frame rest empty) := by
    rw [step, found]
  cases oldest : state.loop.mailbox.items.head? with
  | none =>
    have sound := work_sound state action
    have none : state.loop.mailbox.items = [] := List.head?_eq_none_iff.mp oldest
    rw [found] at sound
    rw [perform_take_empty oldest] at shape
    refine ⟨by rw [shape]; rfl, ⟨[], ?_, ?_⟩, fun _ => iff_of_true (fun _ => ?_) ?_⟩
    · rw [shape, List.append_nil]
    · rw [dispatches, found, shape]
      show _ = state.loop.mailbox.items.head?.toList ++ state.loop.mailbox.items.tail
      rw [none]
      rfl
    · rw [shape]
      exact sound.2.2.1.not_raised
    · rw [Records, Fails, found]
      rintro ⟨envelope, head, _⟩
      rw [oldest] at head
      cases head
  | some envelope =>
    cases registered : state.loop.handlers.get? envelope.kind with
    | none => exact unregistered_moves found oldest registered
    | some handler =>
      have queue := queue_of_oldest found oldest
      rw [perform_take_registered oldest registered] at shape
      refine ⟨by rw [shape]; rfl, ⟨[], ?_, ?_⟩, fun _ => iff_of_true (fun _ _ => ?_) ?_⟩
      · rw [shape, List.append_nil]
      · rw [shape]
        exact queue
      · rw [shape]
        intro same
        cases same
      · rw [Records, Fails, found]
        rintro ⟨other, head, missing, _⟩
        rw [oldest, Option.some.injEq] at head
        rw [← head, registered] at missing
        cases missing

private theorem complete_moves {state : KernelState H} {frame : Frame} {rest : List Frame}
    {envelope : MessageEnvelope} {ended : HandlerEnd}
    (found : state.work action = .complete frame rest envelope ended) : Moves state action := by
  have sound := work_sound state action
  rw [found] at sound
  obtain ⟨_, _, same⟩ := sound
  have settled : ∀ outcome, state.step action = settle state.accepted frame rest outcome →
      SameQueue state.loop outcome.2 →
      (state.loop.failFast = false → (state.Quiet action ↔ state.Records action)) →
      Moves state action := by
    intro outcome shape kept quiet
    obtain ⟨loop, accepted, _⟩ := settle_spec state.accepted frame rest outcome
    rw [← shape] at loop accepted
    refine ⟨by rw [loop, kept.failFast], ⟨[], by rw [accepted, List.append_nil], ?_⟩, quiet⟩
    rw [dispatches, found, loop, kept.mailbox, List.append_nil]
    rfl
  cases ended with
  | returned =>
    have shape : state.step action = settle state.accepted frame rest (.ok (), state.loop) := by
      rw [step, found]
      rfl
    refine settled _ shape ⟨rfl, rfl, rfl⟩ fun _ => iff_of_true (fun _ => ?_) ?_
    · rw [shape]
      exact (settle_quiet_iff _ _ _ _).mpr fun _ => rfl
    · rw [Records, Fails, found]
      exact False.elim
  | interrupted exc =>
    have shape : state.step action = settle state.accepted frame rest (.error exc, state.loop) := by
      rw [step, found]
      rfl
    refine settled _ shape ⟨rfl, rfl, rfl⟩ fun _ => iff_of_true (fun caught => ?_) ?_
    · exact absurd same (caught exc)
    · rw [Records, Fails, found]
      exact False.elim
  | raised exc =>
    have logs := state.loop.onHandlerError_logs envelope exc
    have shape : state.step action =
        settle state.accepted frame rest (state.loop.onHandlerError envelope exc) := by
      rw [step, found]
      rfl
    refine settled _ shape logs.same fun slow => ?_
    have quiet := settle_quiet_iff state.accepted frame rest
      (state.loop.onHandlerError envelope exc)
    rw [← shape, logs.returns_iff slow] at quiet
    have caught : ∀ other, action ≠ .handler (.interrupted other) := by
      rintro other rfl
      cases same
    rw [Records, Fails, found]
    exact ⟨fun holds => quiet.mp (holds caught), fun records _ => quiet.mpr records⟩

private theorem step_moves (state : KernelState H) (action : Action H) : Moves state action := by
  cases found : state.work action with
  | submit kind payload traceId source => exact submit_moves found
  | take frame rest empty => exact take_moves found
  | complete frame rest envelope ended => exact complete_moves found
  | register kind handler =>
    obtain ⟨failFast, mailbox⟩ := state.loop.register_same kind handler
    have shape : state.step action = (.registered (state.loop.register kind handler).1,
        { state with loop := (state.loop.register kind handler).2 }) := by
      rw [step, found]
      rfl
    refine ⟨by rw [shape]; exact failFast, ⟨[], ?_, ?_⟩, fun _ => iff_of_true (fun _ _ => ?_) ?_⟩
    · rw [shape, List.append_nil]
    · rw [dispatches, found, shape]
      show _ = [] ++ (state.loop.register kind handler).2.mailbox.items
      rw [mailbox, List.append_nil, List.nil_append]
    · rw [shape]
      intro same
      cases same
    · rw [Records, Fails, found]
      exact False.elim
  | frames answer frames =>
    have sound := work_sound state action
    rw [found] at sound
    have shape : state.step action = (answer, { state with frames := frames }) := by
      rw [step, found]
      rfl
    refine ⟨by rw [shape], ⟨[], ?_, ?_⟩, fun _ => iff_of_true (fun _ => ?_) ?_⟩
    · rw [shape, List.append_nil]
    · rw [dispatches, found, shape, List.append_nil]
      rfl
    · rw [shape]
      exact sound.2.not_raised
    · rw [Records, Fails, found]
      exact False.elim

/-- A `run` without a limit returns over an empty mailbox. -/
theorem items_of_runReturns {state : KernelState H} (returns : state.RunReturns action) :
    (state.step action).2.loop.mailbox.items = [] := by
  obtain ⟨processed, rest, frames, answer⟩ := returns
  cases action with
  | turn =>
    have takes := work_turn frames
    rw [Option.all_none, if_pos rfl] at takes
    rw [step, takes] at answer ⊢
    cases oldest : state.loop.mailbox.items.head? with
    | none =>
      rw [perform_take_empty oldest]
      show state.loop.mailbox.items.tail = []
      rw [List.head?_eq_none_iff.mp oldest, List.tail_nil]
    | some envelope =>
      cases registered : state.loop.handlers.get? envelope.kind with
      | some handler =>
        rw [perform_take_registered oldest registered] at answer
        cases answer
      | none =>
        rw [perform_take_unregistered oldest registered] at answer
        unfold settle at answer
        split at answer
        · cases answer
        · cases answer
        · cases answer
  | _ =>
    simp only [step, work, frames] at answer
    cases answer

/-! ### Runs -/

private theorem failFast_after (state : KernelState H) (actions : List (Action H)) :
    ((machine H).after state actions).loop.failFast = state.loop.failFast := by
  induction actions generalizing state with
  | nil => rfl
  | cons action rest ih => exact (ih _).trans (state.step_moves action).failFast

/-- What was queued or has been accepted is dispatched or queued, in one order. -/
theorem queue_after (state : KernelState H) (actions : List (Action H)) :
    ∃ since, ((machine H).after state actions).accepted = state.accepted ++ since ∧
      state.loop.mailbox.items ++ since =
        dispatched state actions ++ ((machine H).after state actions).loop.mailbox.items := by
  induction actions generalizing state with
  | nil => exact ⟨[], (List.append_nil _).symm, List.append_nil _⟩
  | cons action rest ih =>
    obtain ⟨first, accepted, queue⟩ := (state.step_moves action).queue
    obtain ⟨later, acceptedLater, queueLater⟩ := ih (state.step action).2
    refine ⟨first ++ later, ?_, ?_⟩
    · rw [← List.append_assoc, ← accepted]
      exact acceptedLater
    · rw [← List.append_assoc, queue, List.append_assoc, queueLater, dispatched,
        List.append_assoc]
      rfl

/-- In a loop that does not fail fast the failures of a run are isolated exactly when the log
takes the entry of each failed dispatch of a `run`. -/
theorem isolated_iff_records {start : KernelState H} (slow : start.loop.failFast = false)
    (actions : List (Action H)) :
    Isolated start actions ↔ (machine H).Along Records start actions := by
  have exact_step : ∀ before action, ((machine H).after start before).Quiet action ↔
      ((machine H).after start before).Records action := fun before action =>
    (((machine H).after start before).step_moves action).quiet
      ((start.failFast_after before).trans slow)
  rw [Machine.along_iff_each]
  constructor
  · exact fun isolated before action rest split =>
      (exact_step before action).mp (isolated.quiet before action rest split)
  · intro records
    refine ⟨fun before action rest split =>
      (exact_step before action).mpr (records before action rest split), ?_⟩
    rintro before during action rest rfl returns
    obtain ⟨since, accepted, queue⟩ :=
      ((machine H).after start before).queue_after (during ++ [action])
    rw [← Machine.after_append] at accepted queue
    refine ⟨since, accepted, ?_⟩
    have reached : ((machine H).after start (before ++ (during ++ [action]))).loop.mailbox.items =
        [] := by
      rw [← List.append_assoc, Machine.after_append]
      exact items_of_runReturns returns
    rw [queue, reached, List.append_nil]

/-- The handler submits a message of a kind without a handler, and the log holds all entries. -/
theorem threeEntries_isolated :
    Isolated (fresh 3 (by decide) .raise)
      [.submit "task" none "" "", .register "task" (), .run none, .turn, .submit "more" none "" "",
        .handler .returned, .turn, .turn] :=
  (isolated_iff_records rfl _).mpr
    ⟨False.elim, False.elim, False.elim, fun _ => .inl (by decide), False.elim, False.elim,
      fun _ => .inl (by decide), (by rintro ⟨_, head, _⟩; cases head), trivial⟩

/-- The submit filled the log; the unregistered message makes `run` raise. -/
theorem oneEntry_not_isolated :
    ¬ Isolated (fresh 1 (by decide) .raise) [.submit "task" none "" "", .run none, .turn] ∧
      (((machine Unit).after (fresh 1 (by decide) .raise)
          [.submit "task" none "" "", .run none]).step .turn).1 =
        .ran (.error ⟨"EventLogFullError",
          "EventLog | WHAT=log_lleno | WHY=capacidad_excedida | WHERE=append | max=1"⟩) := by
  have raises : (((machine Unit).after (fresh 1 (by decide) .raise)
      [.submit "task" none "" "", .run none]).step .turn).1 = .ran (.error ⟨"EventLogFullError",
        "EventLog | WHAT=log_lleno | WHY=capacidad_excedida | WHERE=append | max=1"⟩) := by rfl
  refine ⟨fun isolated => ?_, raises⟩
  exact isolated.quiet [.submit "task" none "" "", .run none] .turn [] rfl
    (fun _ same => by cases same) _ raises

end KernelState

end Swarmind.Kernel
