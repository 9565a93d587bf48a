import Swarmind.Library.Runs
import Swarmind.Kernel.Loop

/-!
Owns the agreement of mailbox and event log under arbitrary handlers. A
handler may call the loop again, so a call is not one step: `step` and `run`
leave a frame on the stack while a handler is running, and what the handler
does next is the next action.

The mailbox takes an envelope before the log does, and the log has its own
capacity. The two agree in every reachable state exactly when the log has room
at each append that an accepted message depends on.
-/

namespace Swarmind.Kernel

open Swarmind.Library

/-- A `step` or a `run` in progress. A run without an envelope is about to
take its next message. -/
inductive Frame where
  | step (handling : MessageEnvelope)
  | run (maxMessages : Option Int) (processed : Nat) (handling : Option MessageEnvelope)

def Frame.handling : Frame → Option MessageEnvelope
  | .step handling => some handling
  | .run _ _ handling => handling

/-- How a handler ends; only an `Exception` is caught by the loop. -/
inductive HandlerEnd where
  | returned
  | raised (exc : PyException)
  | interrupted (exc : PyException)

/-- The loop, its calls in progress, and every envelope put into the mailbox so
far, oldest first. -/
structure KernelState (H : Type) where
  loop : KernelLoop H
  frames : List Frame
  accepted : List MessageEnvelope

namespace KernelState

variable {H : Type}

inductive Action (H : Type) where
  | register (kind : String) (handler : H)
  | submit (kind : String) (payload : Option (Dict String PyValue)) (traceId source : String)
  | step
  | run (maxMessages : Option Int)
  | turn
  | handler (ended : HandlerEnd)

inductive Answer where
  | registered (result : Except PyException Unit)
  | submitted (result : Except PyException MessageEnvelope)
  | stepped (result : Except PyException (Option MessageEnvelope))
  | ran (result : Except PyException Nat)
  | running
  | ignored

/-- The part of the loop that an action drives. `take` dispatches the oldest
message under a frame; `complete` ends a handler. -/
inductive Work (H : Type) where
  | frames (answer : Answer) (frames : List Frame)
  | register (kind : String) (handler : H)
  | submit (kind : String) (payload : Option (Dict String PyValue)) (traceId source : String)
  | take (frame : MessageEnvelope → Frame) (rest : List Frame) (empty : Answer)
  | complete (frame : Frame) (rest : List Frame) (envelope : MessageEnvelope)
      (ended : HandlerEnd)

/-- While a run is about to take its next message only its turn is possible;
otherwise the caller or the running handler may make any call. -/
def work (state : KernelState H) (action : Action H) : Work H :=
  match state.frames, action with
  | .run maxMessages processed none :: rest, .turn =>
    if maxMessages.all fun bound => (processed : Int) < bound then
      .take (fun envelope => .run maxMessages processed (some envelope)) rest
        (.ran (.ok processed))
    else .frames (.ran (.ok processed)) rest
  | .run maxMessages processed none :: rest, _ =>
    .frames .ignored (.run maxMessages processed none :: rest)
  | frames, .turn => .frames .ignored frames
  | _, .register kind handler => .register kind handler
  | _, .submit kind payload traceId source => .submit kind payload traceId source
  | frames, .step => .take .step frames (.stepped (.ok none))
  | frames, .run maxMessages => .frames .running (.run maxMessages 0 none :: frames)
  | [], .handler _ => .frames .ignored []
  | .step envelope :: rest, .handler ended => .complete (.step envelope) rest envelope ended
  | .run maxMessages processed (some envelope) :: rest, .handler ended =>
    .complete (.run maxMessages processed (some envelope)) rest envelope ended

/-- End a dispatch: a step returns or raises, a run goes on or raises. -/
def settle (accepted : List MessageEnvelope) (frame : Frame) (rest : List Frame)
    (outcome : Except PyException Unit × KernelLoop H) : Answer × KernelState H :=
  match frame, outcome.1 with
  | .step envelope, result =>
    (.stepped (result.map fun _ => some envelope), ⟨outcome.2, rest, accepted⟩)
  | .run maxMessages processed _, .ok () =>
    (.running, ⟨outcome.2, .run maxMessages (processed + 1) none :: rest, accepted⟩)
  | .run _ _ _, .error raised => (.ran (.error raised), ⟨outcome.2, rest, accepted⟩)

def perform (state : KernelState H) : Work H → Answer × KernelState H
  | .frames answer frames => (answer, { state with frames := frames })
  | .register kind handler =>
    let outcome := state.loop.register kind handler
    (.registered outcome.1, { state with loop := outcome.2 })
  | .submit kind payload traceId source =>
    let submission := state.loop.submit kind payload traceId source
    (.submitted submission.result,
      ⟨submission.loop, state.frames, state.accepted ++ submission.enqueued.toList⟩)
  | .take frame rest empty =>
    match state.loop.take with
    | (none, taken) => (empty, ⟨taken, rest, state.accepted⟩)
    | (some envelope, taken) =>
      match taken.beginDispatch envelope with
      | (none, begun) =>
        settle state.accepted (frame envelope) rest (begun.onUnregistered envelope)
      | (some _, begun) => (.running, ⟨begun, frame envelope :: rest, state.accepted⟩)
  | .complete frame rest envelope ended =>
    match ended with
    | .returned => settle state.accepted frame rest (.ok (), state.loop)
    | .raised exc =>
      settle state.accepted frame rest (state.loop.onHandlerError envelope exc)
    | .interrupted exc => settle state.accepted frame rest (.error exc, state.loop)

def step (state : KernelState H) (action : Action H) : Answer × KernelState H :=
  state.perform (state.work action)

def machine (H : Type) : Machine (KernelState H) (Action H) Answer := ⟨step⟩

/-- No call yet: an empty mailbox and an empty log. -/
structure Fresh (state : KernelState H) : Prop where
  items : state.loop.mailbox.items = []
  entries : state.loop.log.entries = []
  frames : state.frames = []
  accepted : state.accepted = []

/-- Envelopes that are queued or whose handler is running. -/
def live (state : KernelState H) : List MessageEnvelope :=
  state.loop.mailbox.items ++ state.frames.filterMap Frame.handling

/-- The log entries of an envelope's own kind that carry its sequence. -/
def ownEntries (log : EventLog) (envelope : MessageEnvelope) : Nat :=
  log.entries.countP fun entry => entry.seq = envelope.seq && entry.kind = envelope.kind

/-- Every envelope ever put into the mailbox is logged once, and sequences
increase in the order of submission. -/
structure Agrees (state : KernelState H) : Prop where
  logged : ∀ envelope ∈ state.accepted, ownEntries state.loop.log envelope = 1
  increasing : state.accepted.Pairwise fun earlier later => earlier.seq < later.seq

/-- A step that is no raising submit, or that leaves queue and log alone. -/
def CleanFailure (state : KernelState H) (action : Action H) : Prop :=
  ∀ raised, (state.step action).1 = .submitted (.error raised) →
    (state.step action).2.loop.mailbox.items = state.loop.mailbox.items ∧
      (state.step action).2.loop.log = state.loop.log

/-- Mailbox and log agree in every state of the run, and no submit of the run
raises after it has changed either. -/
structure Agreement (start : KernelState H) (actions : List (Action H)) : Prop where
  agrees : ∀ before rest, actions = before ++ rest → ((machine H).after start before).Agrees
  failures : ∀ before action rest, actions = before ++ action :: rest →
    ((machine H).after start before).CleanFailure action

/-- The log has room for a message that the mailbox accepts, and a log that
drops has room for every entry of the kernel. -/
def Room (state : KernelState H) (action : Action H) : Prop :=
  match state.work action with
  | .submit kind _ _ _ =>
    isBlank kind = false → state.loop.mailbox.HasRoom → state.loop.log.HasRoom
  | .take _ _ _ =>
    ∀ envelope, state.loop.mailbox.items.head? = some envelope →
      state.loop.handlers.get? envelope.kind = none →
      state.loop.log.overflow = .dropOldest → state.loop.log.HasRoom
  | .complete _ _ _ (.raised _) =>
    state.loop.log.overflow = .dropOldest → state.loop.log.HasRoom
  | _ => True

/-! ### What one step does -/

section Take

variable {state : KernelState H} {frame : MessageEnvelope → Frame} {rest : List Frame}
  {empty : Answer} {envelope : MessageEnvelope}

theorem perform_take_empty (oldest : state.loop.mailbox.items.head? = none) :
    state.perform (.take frame rest empty) =
      (empty, ⟨state.loop.take.2, rest, state.accepted⟩) := by
  have taken : state.loop.take = (none, state.loop.take.2) := Prod.ext oldest rfl
  unfold perform
  rw [taken]

theorem perform_take_unregistered (oldest : state.loop.mailbox.items.head? = some envelope)
    (missing : state.loop.handlers.get? envelope.kind = none) :
    state.perform (.take frame rest empty) = settle state.accepted (frame envelope) rest
      ((state.loop.take.2.beginDispatch envelope).2.onUnregistered envelope) := by
  have taken : state.loop.take = (some envelope, state.loop.take.2) := Prod.ext oldest rfl
  have begun : state.loop.take.2.beginDispatch envelope =
      (none, (state.loop.take.2.beginDispatch envelope).2) := Prod.ext missing rfl
  unfold perform
  rw [taken]
  simp only
  rw [begun]

theorem perform_take_registered {handler : H}
    (oldest : state.loop.mailbox.items.head? = some envelope)
    (registered : state.loop.handlers.get? envelope.kind = some handler) :
    state.perform (.take frame rest empty) = (.running,
      ⟨(state.loop.take.2.beginDispatch envelope).2, frame envelope :: rest, state.accepted⟩) := by
  have taken : state.loop.take = (some envelope, state.loop.take.2) := Prod.ext oldest rfl
  have begun : state.loop.take.2.beginDispatch envelope =
      (some handler, (state.loop.take.2.beginDispatch envelope).2) := Prod.ext registered rfl
  unfold perform
  rw [taken]
  simp only
  rw [begun]

end Take

/-- The answer is neither of a submit nor of a `run` that raises. -/
def Answer.Calm : Answer → Prop
  | .submitted _ => False
  | .ran (.error _) => False
  | _ => True

private theorem Answer.Calm.not_submitted {answer : Answer} (calm : answer.Calm)
    (result : Except PyException MessageEnvelope) : answer ≠ .submitted result := by
  rintro rfl
  exact calm

theorem Answer.Calm.not_raised {answer : Answer} (calm : answer.Calm) (raised : PyException) :
    answer ≠ .ran (.error raised) := by
  rintro rfl
  exact calm

/-- What the work of an action keeps of the frames, and how it answers on its own. -/
def Sound (state : KernelState H) (action : Action H) : Work H → Prop
  | .frames answer frames =>
    frames.filterMap Frame.handling = state.frames.filterMap Frame.handling ∧ answer.Calm
  | .take frame rest empty =>
    (∀ envelope, (frame envelope).handling = some envelope) ∧
      rest.filterMap Frame.handling = state.frames.filterMap Frame.handling ∧ empty.Calm ∧
      ∀ ended, action ≠ .handler ended
  | .complete frame rest envelope ended =>
    frame.handling = some envelope ∧ state.frames = frame :: rest ∧ action = .handler ended
  | .register _ _ => True
  | .submit _ _ _ _ => True

/-- No work but an end touches the envelopes in hand, and an end only the last of them. -/
theorem work_sound (state : KernelState H) (action : Action H) :
    Sound state action (state.work action) := by
  unfold work
  split
  · rename_i frames
    split_ifs
    · exact ⟨fun _ => rfl, by rw [frames]; rfl, trivial, nofun⟩
    · exact ⟨by rw [frames]; rfl, trivial⟩
  · rename_i frames _
    exact ⟨by rw [frames], trivial⟩
  · exact ⟨rfl, trivial⟩
  · trivial
  · trivial
  · exact ⟨fun _ => rfl, rfl, trivial, nofun⟩
  · exact ⟨rfl, trivial⟩
  · rename_i frames
    exact ⟨by rw [frames], trivial⟩
  · rename_i frames
    exact ⟨rfl, frames, rfl⟩
  · rename_i frames
    exact ⟨rfl, frames, rfl⟩

/-- Returning to the frames below moves no envelope. -/
theorem settle_spec (accepted : List MessageEnvelope) (frame : Frame)
    (rest : List Frame) (outcome : Except PyException Unit × KernelLoop H) :
    (settle accepted frame rest outcome).2.loop = outcome.2 ∧
      (settle accepted frame rest outcome).2.accepted = accepted ∧
      (settle accepted frame rest outcome).2.frames.filterMap Frame.handling =
        rest.filterMap Frame.handling ∧
      ∀ result, (settle accepted frame rest outcome).1 ≠ .submitted result := by
  unfold settle
  split
  · exact ⟨rfl, rfl, rfl, by simp⟩
  · exact ⟨rfl, rfl, rfl, by simp⟩
  · exact ⟨rfl, rfl, rfl, by simp⟩

/-- Everything a step can do to queue and log. -/
inductive Effect (state : KernelState H) (action : Action H) : Prop where
  /-- The log stays, and no submit raises over a changed queue. -/
  | quiet (room : state.Room action) (log : (state.step action).2.loop.log = state.loop.log)
      (accepted : (state.step action).2.accepted = state.accepted)
      (live : (state.step action).2.live ⊆ state.live) (clean : state.CleanFailure action)
  /-- A failed dispatch is logged. -/
  | failure (entry : MessageEnvelope)
      (appends : state.loop.log.Appends (state.step action).2.loop.log entry)
      (room : state.Room action ↔ state.loop.log.HasRoom)
      (policy : state.loop.log.HasRoom ∨ state.loop.log.overflow = .dropOldest)
      (accepted : (state.step action).2.accepted = state.accepted)
      (busy : state.live ≠ []) (live : (state.step action).2.live ⊆ state.live)
      (clean : state.CleanFailure action)
  /-- A message is queued and logged. -/
  | enqueue (envelope entry : MessageEnvelope)
      (appends : state.loop.log.Appends (state.step action).2.loop.log entry)
      (room : state.Room action ↔ state.loop.log.HasRoom)
      (policy : state.loop.log.HasRoom ∨ state.loop.log.overflow = .dropOldest)
      (seq : envelope.seq = state.loop.log.nextSeq) (kind : entry.kind = envelope.kind)
      (accepted : (state.step action).2.accepted = state.accepted ++ [envelope])
      (live : (state.step action).2.live ⊆ state.live ++ [envelope])
      (clean : state.CleanFailure action)
  /-- A message is queued, and the full log raises. -/
  | slip (room : ¬ state.Room action) (unclean : ¬ state.CleanFailure action)

variable {action : Action H}

private theorem cleanFailure_of_silent {state : KernelState H}
    (silent : ∀ result, (state.step action).1 ≠ .submitted result) : state.CleanFailure action :=
  fun _ raises => absurd raises (silent _)

private theorem logged_effect {state : KernelState H} {begun : KernelLoop H} {frame : Frame}
    {rest : List Frame} {outcome : Except PyException Unit × KernelLoop H}
    (shape : state.step action = settle state.accepted frame rest outcome)
    (logs : LogsFailure begun outcome.2 outcome.1) (log : begun.log = state.loop.log)
    (queue : begun.mailbox.items ⊆ state.live) (frames : rest.filterMap Frame.handling ⊆ state.live)
    (busy : state.live ≠ [])
    (room : state.Room action ↔
      (state.loop.log.overflow = .dropOldest → state.loop.log.HasRoom)) : Effect state action := by
  obtain ⟨loop, accepted, handling, silent⟩ :=
    settle_spec state.accepted frame rest outcome
  rw [← shape] at loop accepted handling silent
  have live : (state.step action).2.live ⊆ state.live := by
    unfold KernelState.live at queue frames ⊢
    rw [loop, handling, logs.same.mailbox]
    exact List.append_subset.mpr ⟨queue, frames⟩
  have clean := cleanFailure_of_silent silent
  have outcomes := logs.outcome
  rw [log, ← loop] at outcomes
  rcases outcomes with ⟨_, policy, _, unchanged⟩ | ⟨policy, ⟨entry, appends⟩, _⟩
  · refine .quiet (room.mpr fun drops => ?_) unchanged accepted live clean
    rw [policy] at drops
    cases drops
  · refine .failure entry appends ?_ policy accepted busy live clean
    rw [room]
    exact ⟨fun needed => policy.elim id needed, fun space _ => space⟩

private theorem submit_effect {state : KernelState H} {kind : String}
    {payload : Option (Dict String PyValue)} {traceId source : String}
    (found : state.work action = .submit kind payload traceId source) : Effect state action := by
  have room : state.Room action ↔ (isBlank kind = false → state.loop.mailbox.HasRoom →
      state.loop.log.HasRoom) := by
    unfold Room
    rw [found]
  have shape : state.step action =
      (.submitted (state.loop.submit kind payload traceId source).result,
        ⟨(state.loop.submit kind payload traceId source).loop, state.frames,
          state.accepted ++ (state.loop.submit kind payload traceId source).enqueued.toList⟩) := by
    rw [step, found]
    rfl
  rcases state.loop.submit_cases kind payload traceId source with
    ⟨rejected, raised, after, submitted, log, items⟩ |
      ⟨named, space, envelope, result, after, submitted, seq, sameKind, items, outcome⟩
  · rw [submitted] at shape
    refine .quiet (room.mpr fun named queue => ?_) ?_ ?_ ?_ ?_
    · rcases rejected with blank | full
      · rw [named] at blank
        cases blank
      · exact absurd queue full
    · rw [shape]
      exact log
    · rw [shape]
      exact List.append_nil _
    · rw [shape, live, live, items]
      exact List.Subset.refl _
    · intro _ _
      rw [shape]
      exact ⟨items, log⟩
  · rw [submitted] at shape
    have needed : state.Room action ↔ state.loop.log.HasRoom := by
      rw [room]
      exact ⟨fun holds => holds named space, fun holds _ _ => holds⟩
    rcases outcome with
      ⟨full, _, ⟨raised, raises⟩, _⟩ | ⟨policy, returns, entry, entryKind, appends⟩
    · refine .slip (fun holds => full (needed.mp holds)) fun clean => ?_
      have kept := (clean raised (by rw [shape, raises])).1
      rw [shape] at kept
      have lengths := congrArg List.length (items.symm.trans kept)
      rw [List.length_append, List.length_singleton] at lengths
      omega
    · refine .enqueue envelope entry ?_ needed policy seq (entryKind.trans sameKind.symm) ?_ ?_ ?_
      · rw [shape]
        exact appends
      · rw [shape]
        rfl
      · rw [shape, live, live, items]
        intro member among
        simp only [List.mem_append, List.mem_singleton] at among ⊢
        tauto
      · intro raised raises
        rw [shape, returns] at raises
        cases raises

private theorem frames_effect {state : KernelState H} {answer : Answer} {frames : List Frame}
    (found : state.work action = .frames answer frames) : Effect state action := by
  have sound := work_sound state action
  rw [found] at sound
  have shape : state.step action = (answer, { state with frames := frames }) := by
    rw [step, found]
    rfl
  refine .quiet ?_ ?_ ?_ ?_ (cleanFailure_of_silent ?_)
  · rw [Room, found]
    trivial
  · rw [shape]
  · rw [shape]
  · rw [shape, live, live, sound.1]
    exact List.Subset.refl _
  · rw [shape]
    exact sound.2.not_submitted

private theorem register_effect {state : KernelState H} {kind : String}
    {handler : H} (found : state.work action = .register kind handler) : Effect state action := by
  have shape : state.step action = (.registered (state.loop.register kind handler).1,
      { state with loop := (state.loop.register kind handler).2 }) := by
    rw [step, found]
    rfl
  have same : (state.loop.register kind handler).2.log = state.loop.log ∧
      (state.loop.register kind handler).2.mailbox = state.loop.mailbox := by
    unfold KernelLoop.register
    split_ifs
    · exact ⟨rfl, rfl⟩
    · exact ⟨rfl, rfl⟩
  refine .quiet ?_ ?_ ?_ ?_ (cleanFailure_of_silent ?_)
  · rw [Room, found]
    trivial
  · rw [shape]
    exact same.1
  · rw [shape]
  · rw [shape, live, live, same.2]
    exact List.Subset.refl _
  · rw [shape]
    nofun

private theorem take_effect {state : KernelState H}
    {frame : MessageEnvelope → Frame} {rest : List Frame} {empty : Answer}
    (found : state.work action = .take frame rest empty) : Effect state action := by
  have sound := work_sound state action
  rw [found] at sound
  obtain ⟨handles, frames, calm, _⟩ := sound
  have keptFrames : rest.filterMap Frame.handling ⊆ state.live := by
    rw [frames, live]
    exact List.subset_append_right _ _
  have keptItems : state.loop.mailbox.items.tail ⊆ state.live :=
    fun _ member => List.mem_append_left _ (List.mem_of_mem_tail member)
  cases oldest : state.loop.mailbox.items.head? with
  | none =>
    have shape : state.step action = (empty, ⟨state.loop.take.2, rest, state.accepted⟩) := by
      rw [step, found, perform_take_empty oldest]
    refine .quiet ?_ ?_ ?_ ?_ (cleanFailure_of_silent ?_)
    · rw [Room, found]
      intro envelope head
      rw [oldest] at head
      cases head
    · rw [shape]
      rfl
    · rw [shape]
    · rw [shape]
      exact List.append_subset.mpr ⟨keptItems, keptFrames⟩
    · rw [shape]
      exact calm.not_submitted
  | some envelope =>
    have among : envelope ∈ state.live :=
      List.mem_append_left _ (List.mem_of_mem_head? oldest)
    cases registered : state.loop.handlers.get? envelope.kind with
    | none =>
      have shape : state.step action = settle state.accepted (frame envelope) rest
          ((state.loop.take.2.beginDispatch envelope).2.onUnregistered envelope) := by
        rw [step, found, perform_take_unregistered oldest registered]
      refine logged_effect shape (KernelLoop.onUnregistered_logs _ envelope) rfl keptItems
        keptFrames (List.ne_nil_of_mem among) ?_
      rw [Room, found]
      constructor
      · intro holds
        exact holds envelope oldest registered
      · intro holds _ _ _
        exact holds
    | some handler =>
      have shape : state.step action = (.running,
          ⟨(state.loop.take.2.beginDispatch envelope).2, frame envelope :: rest,
            state.accepted⟩) := by
        rw [step, found, perform_take_registered oldest registered]
      refine .quiet ?_ ?_ ?_ ?_ (cleanFailure_of_silent ?_)
      · rw [Room, found]
        intro other head missing
        rw [oldest, Option.some.injEq] at head
        rw [← head, registered] at missing
        cases missing
      · rw [shape]
        rfl
      · rw [shape]
      · rw [shape]
        refine List.append_subset.mpr ⟨keptItems, ?_⟩
        rw [List.filterMap_cons_some (handles envelope)]
        exact List.cons_subset.mpr ⟨among, keptFrames⟩
      · rw [shape]
        nofun

variable {envelope : MessageEnvelope}

private theorem complete_effect {state : KernelState H} {frame : Frame}
    {rest : List Frame} {ended : HandlerEnd}
    (found : state.work action = .complete frame rest envelope ended) : Effect state action := by
  have sound := work_sound state action
  rw [found] at sound
  obtain ⟨handles, frames, _⟩ := sound
  have handling : state.frames.filterMap Frame.handling =
      envelope :: rest.filterMap Frame.handling := by
    rw [frames, List.filterMap_cons_some handles]
  have keptFrames : rest.filterMap Frame.handling ⊆ state.live := by
    rw [live, handling]
    exact fun _ member => List.mem_append_right _ (List.mem_cons_of_mem _ member)
  have keptItems : state.loop.mailbox.items ⊆ state.live := List.subset_append_left _ _
  have among : envelope ∈ state.live := by
    rw [live, handling]
    exact List.mem_append_right _ (List.mem_cons_self)
  have unlogged : ∀ result,
      state.step action = settle state.accepted frame rest (result, state.loop) →
      state.Room action → Effect state action := by
    intro result shape room
    obtain ⟨loop, accepted, after, silent⟩ :=
      settle_spec state.accepted frame rest (result, state.loop)
    rw [← shape] at loop accepted after silent
    refine .quiet room (congrArg KernelLoop.log loop) accepted ?_
      (cleanFailure_of_silent silent)
    show (state.step action).2.loop.mailbox.items ++
      (state.step action).2.frames.filterMap Frame.handling ⊆ state.live
    rw [loop, after]
    exact List.append_subset.mpr ⟨keptItems, keptFrames⟩
  cases ended with
  | returned =>
    refine unlogged (.ok ()) ?_ ?_
    · rw [step, found]
      rfl
    · rw [Room, found]
      trivial
  | interrupted exc =>
    refine unlogged (.error exc) ?_ ?_
    · rw [step, found]
      rfl
    · rw [Room, found]
      trivial
  | raised exc =>
    have shape : state.step action =
        settle state.accepted frame rest (state.loop.onHandlerError envelope exc) := by
      rw [step, found]
      rfl
    refine logged_effect shape (state.loop.onHandlerError_logs envelope exc) rfl keptItems
      keptFrames (List.ne_nil_of_mem among) ?_
    rw [Room, found]

private theorem step_effect (state : KernelState H) (action : Action H) : Effect state action := by
  cases found : state.work action with
  | frames answer frames => exact frames_effect found
  | register kind handler => exact register_effect found
  | submit kind payload traceId source => exact submit_effect found
  | take frame rest empty => exact take_effect found
  | complete frame rest envelope ended => exact complete_effect found

/-! ### The invariant -/

/-- Log entries are numbered upwards, every accepted envelope has an entry, and
the oldest entry belongs to an accepted envelope. -/
structure Logged (state : KernelState H) : Prop where
  ordered : state.loop.log.entries.Pairwise fun earlier later => earlier.seq < later.seq
  below : ∀ entry ∈ state.loop.log.entries, entry.seq < state.loop.log.nextSeq
  owned : ∀ envelope ∈ state.accepted, ∃ entry ∈ state.loop.log.entries,
    entry.seq = envelope.seq ∧ entry.kind = envelope.kind
  increasing : state.accepted.Pairwise fun earlier later => earlier.seq < later.seq
  oldest : ∀ head ∈ state.loop.log.entries.head?, ∃ envelope ∈ state.accepted,
    envelope.seq = head.seq
  live : state.live ⊆ state.accepted

private theorem logged_of_fresh {state : KernelState H} (fresh : state.Fresh) : state.Logged where
  ordered := by
    rw [fresh.entries]
    exact List.Pairwise.nil
  below := by
    rw [fresh.entries]
    simp
  owned := by
    rw [fresh.accepted]
    simp
  increasing := by
    rw [fresh.accepted]
    exact List.Pairwise.nil
  oldest := by
    rw [fresh.entries]
    simp
  live := by
    rw [live, fresh.items, fresh.frames]
    exact List.nil_subset _

private theorem ownEntries_eq_one {entries : List MessageEnvelope}
    (ordered : entries.Pairwise fun earlier later => earlier.seq < later.seq)
    {envelope entry : MessageEnvelope} (member : entry ∈ entries)
    (seq : entry.seq = envelope.seq) (kind : entry.kind = envelope.kind) :
    entries.countP (fun other => other.seq = envelope.seq && other.kind = envelope.kind) = 1 := by
  induction entries with
  | nil => cases member
  | cons head rest ih =>
    obtain ⟨above, orderedRest⟩ := List.pairwise_cons.mp ordered
    rw [List.countP_cons]
    rcases List.mem_cons.mp member with rfl | later
    · have none : rest.countP (fun other =>
          other.seq = envelope.seq && other.kind = envelope.kind) = 0 := by
        apply List.countP_eq_zero.mpr
        intro other among matched
        have greater := above other among
        simp only [Bool.and_eq_true, decide_eq_true_eq] at matched
        omega
      rw [none, seq, kind]
      simp
    · have greater := above entry later
      have different : head.seq ≠ envelope.seq := by omega
      rw [ih orderedRest later]
      simp [different]

private theorem Logged.agrees {state : KernelState H} (logged : state.Logged) : state.Agrees where
  logged := by
    intro envelope member
    obtain ⟨entry, among, seq, kind⟩ := logged.owned envelope member
    exact ownEntries_eq_one logged.ordered among seq kind
  increasing := logged.increasing

private theorem Logged.appended {state : KernelState H} (logged : state.Logged)
    {after : EventLog} {entry : MessageEnvelope} (appends : state.loop.log.Appends after entry)
    (room : state.loop.log.HasRoom) :
    after.entries = state.loop.log.entries ++ [entry] ∧
      (after.entries.Pairwise fun earlier later => earlier.seq < later.seq) ∧
      ∀ other ∈ after.entries, other.seq < after.nextSeq := by
  have entries : after.entries = state.loop.log.entries ++ [entry] := by
    rw [appends.entries, EventLog.kept_of_hasRoom room]
  have newest := appends.seq
  refine ⟨entries, ?_, ?_⟩
  · rw [entries, List.pairwise_append]
    refine ⟨logged.ordered, List.pairwise_singleton _ _, ?_⟩
    intro earlier member later last
    rw [List.mem_singleton.mp last, newest]
    exact logged.below earlier member
  · intro other member
    rw [appends.next]
    rw [entries, List.mem_append, List.mem_singleton] at member
    rcases member with old | rfl
    · have bound := logged.below other old
      omega
    · omega

private theorem logged_step {state : KernelState H} (logged : state.Logged)
    (room : state.Room action) : (state.step action).2.Logged := by
  cases state.step_effect action with
  | quiet _ log accepted live _ =>
    constructor
    · rw [log]
      exact logged.ordered
    · rw [log]
      exact logged.below
    · rw [log, accepted]
      exact logged.owned
    · rw [accepted]
      exact logged.increasing
    · rw [log, accepted]
      exact logged.oldest
    · rw [accepted]
      exact List.Subset.trans live logged.live
  | failure entry appends needed policy accepted busy live _ =>
    obtain ⟨entries, ordered, below⟩ := logged.appended appends (needed.mp room)
    refine ⟨ordered, below, ?_, accepted ▸ logged.increasing, ?_,
      accepted ▸ List.Subset.trans live logged.live⟩
    · rw [accepted, entries]
      intro envelope member
      obtain ⟨own, among, matched⟩ := logged.owned envelope member
      exact ⟨own, List.mem_append_left _ among, matched⟩
    · -- some envelope is being dispatched, so the log already has an entry
      obtain ⟨envelope, handled⟩ := List.exists_mem_of_ne_nil _ busy
      obtain ⟨own, among, _⟩ := logged.owned envelope (logged.live handled)
      rw [accepted, entries, List.head?_append_of_ne_nil _ (List.ne_nil_of_mem among)]
      exact logged.oldest
  | enqueue envelope entry appends needed policy seq kind accepted live _ =>
    obtain ⟨entries, ordered, below⟩ := logged.appended appends (needed.mp room)
    have same : entry.seq = envelope.seq := appends.seq.trans seq.symm
    refine ⟨ordered, below, ?_, ?_, ?_, ?_⟩
    · rw [accepted, entries]
      intro other member
      rcases List.mem_append.mp member with old | new
      · obtain ⟨own, among, matched⟩ := logged.owned other old
        exact ⟨own, List.mem_append_left _ among, matched⟩
      · rw [List.mem_singleton.mp new]
        exact ⟨entry, by simp, same, kind⟩
    · rw [accepted, List.pairwise_append]
      refine ⟨logged.increasing, List.pairwise_singleton _ _, ?_⟩
      intro earlier member later last
      obtain ⟨own, among, ownSeq, _⟩ := logged.owned earlier member
      have bound := logged.below own among
      rw [List.mem_singleton.mp last]
      omega
    · rw [accepted, entries]
      cases old : state.loop.log.entries with
      | nil =>
        intro head first
        cases first
        exact ⟨envelope, by simp, same.symm⟩
      | cons head rest =>
        intro first found
        cases found
        obtain ⟨owner, member, ownerSeq⟩ := logged.oldest head (by rw [old]; rfl)
        exact ⟨owner, List.mem_append_left _ member, ownerSeq⟩
    · rw [accepted]
      intro other member
      rcases List.mem_append.mp (live member) with old | new
      · exact List.mem_append_left _ (logged.live old)
      · exact List.mem_append_right _ new
  | slip refused _ => exact absurd room refused

private theorem Logged.not_agrees {state after : KernelState H} (logged : state.Logged)
    {entry : MessageEnvelope} (appends : state.loop.log.Appends after.loop.log entry)
    (full : ¬ state.loop.log.HasRoom) (accepted : state.accepted ⊆ after.accepted) :
    ¬ after.Agrees := by
  intro agrees
  have positive := state.loop.log.positive
  have newest := appends.seq
  have entries : after.loop.log.entries = state.loop.log.entries.tail ++ [entry] := by
    rw [appends.entries, EventLog.kept, if_neg full]
  cases old : state.loop.log.entries with
  | nil =>
    unfold EventLog.HasRoom at full
    rw [old, List.length_nil] at full
    omega
  | cons head rest =>
    obtain ⟨owner, member, ownerSeq⟩ := logged.oldest head (by rw [old]; rfl)
    have ordered := logged.ordered
    have below := logged.below head (by rw [old]; exact List.mem_cons_self)
    rw [old] at ordered
    have above := (List.pairwise_cons.mp ordered).1
    have lost : ownEntries after.loop.log owner = 0 := by
      apply List.countP_eq_zero.mpr
      intro other among matched
      rw [entries, old, List.tail_cons, List.mem_append, List.mem_singleton] at among
      simp only [Bool.and_eq_true, decide_eq_true_eq] at matched
      rcases among with later | rfl
      · have greater := above other later
        omega
      · omega
    have once := agrees.logged owner (accepted member)
    omega

private theorem room_of_agreement {state : KernelState H} (logged : state.Logged)
    (agrees : (state.step action).2.Agrees) (clean : state.CleanFailure action) :
    state.Room action := by
  cases state.step_effect action with
  | quiet room _ _ _ _ => exact room
  | failure entry appends needed policy accepted _ _ _ =>
    by_contra refused
    refine logged.not_agrees appends (fun room => refused (needed.mpr room)) ?_ agrees
    rw [accepted]
    exact List.Subset.refl _
  | enqueue envelope entry appends needed policy _ _ accepted _ _ =>
    by_contra refused
    refine logged.not_agrees appends (fun room => refused (needed.mpr room)) ?_ agrees
    rw [accepted]
    exact List.subset_append_left _ _
  | slip _ unclean => exact absurd clean unclean

private theorem clean_of_room {state : KernelState H} (room : state.Room action) :
    state.CleanFailure action := by
  cases state.step_effect action with
  | quiet _ _ _ _ clean => exact clean
  | failure _ _ _ _ _ _ _ clean => exact clean
  | enqueue _ _ _ _ _ _ _ _ _ clean => exact clean
  | slip refused _ => exact absurd room refused

/-! ### Handlers that answer at once -/

/-- A turn takes the oldest message while the limit allows it. -/
theorem work_turn {state : KernelState H} {maxMessages : Option Int} {processed : Nat}
    {rest : List Frame} (frames : state.frames = .run maxMessages processed none :: rest) :
    state.work .turn =
      if maxMessages.all fun limit => (processed : Int) < limit then
        .take (fun envelope => .run maxMessages processed (some envelope)) rest
          (.ran (.ok processed))
      else .frames (.ran (.ok processed)) rest := by
  simp only [work, frames]

private theorem work_handler {state : KernelState H} {frame : Frame} {rest : List Frame}
    (frames : state.frames = frame :: rest) (handles : frame.handling = some envelope)
    (ended : HandlerEnd) : state.work (.handler ended) = .complete frame rest envelope ended := by
  cases frame with
  | step handling =>
    cases handles
    simp only [work, frames]
  | run maxMessages processed handling =>
    cases handles
    simp only [work, frames]

/-- How a handler ends that answers at once. -/
def endOf : Except PyException PyValue → HandlerEnd
  | .ok _ => .returned
  | .error exc => .raised exc

/-- The action is a turn of a run, or ends the handler in progress with what it answers. -/
def Straight (state : KernelState Handler) : Action Handler → Prop
  | .turn => True
  | .handler ended => ∃ envelope handler, state.frames.head?.bind Frame.handling = some envelope ∧
      state.loop.handlers.get? envelope.kind = some handler ∧ ended = endOf (handler envelope)
  | _ => False

private theorem take_dispatch (state : KernelState Handler) {frame : MessageEnvelope → Frame}
    {rest : List Frame} {empty : Answer} (takes : state.work .turn = .take frame rest empty)
    (handles : (frame envelope).handling = some envelope)
    (oldest : state.loop.mailbox.items.head? = some envelope) :
    ∃ actions last, (machine Handler).Along Straight state (actions ++ [last]) ∧
      ((machine Handler).after state actions).step last =
        settle state.accepted (frame envelope) rest (state.loop.take.2.dispatch envelope) := by
  have first : state.step .turn = state.perform (.take frame rest empty) := by
    rw [← takes]
    rfl
  cases registered : state.loop.handlers.get? envelope.kind with
  | none =>
    have missing : state.loop.take.2.handlers.get? envelope.kind = none := registered
    refine ⟨[], .turn, ⟨trivial, trivial⟩, ?_⟩
    rw [Machine.after_nil, first, perform_take_unregistered oldest registered]
    simp only [KernelLoop.dispatch, KernelLoop.beginDispatch, missing]
  | some handler =>
    have found : state.loop.take.2.handlers.get? envelope.kind = some handler := registered
    -- the handler runs under the frame of its dispatch until it ends
    have running : (state.step .turn).2 = ⟨(state.loop.take.2.beginDispatch envelope).2,
        frame envelope :: rest, state.accepted⟩ := by
      rw [first, perform_take_registered oldest registered]
    have straight : Straight (state.step .turn).2 (.handler (endOf (handler envelope))) := by
      rw [running]
      exact ⟨envelope, handler, handles, registered, rfl⟩
    refine ⟨[.turn], .handler (endOf (handler envelope)), ⟨trivial, straight, trivial⟩, ?_⟩
    change (state.step .turn).2.step _ = _
    rw [running, step, work_handler rfl handles]
    cases answer : handler envelope with
    | ok value =>
      simp only [KernelLoop.dispatch, KernelLoop.beginDispatch, found, answer, perform,
        endOf]
    | error exc =>
      simp only [KernelLoop.dispatch, KernelLoop.beginDispatch, found, answer, perform,
        endOf]

section Turns

variable {loop : KernelLoop Handler} {maxMessages : Option Int} {processed : Nat}
  (rest : List Frame) (accepted : List MessageEnvelope)

private theorem turn_stopped
    (bound : (maxMessages.all fun limit => (processed : Int) < limit) = false) :
    step ⟨loop, .run maxMessages processed none :: rest, accepted⟩ .turn =
      (.ran (.ok processed), ⟨loop, rest, accepted⟩) := by
  rw [step, work_turn rfl, bound]
  rfl

private theorem turn_empty (bound : (maxMessages.all fun limit => (processed : Int) < limit) = true)
    (oldest : loop.mailbox.items.head? = none) :
    step ⟨loop, .run maxMessages processed none :: rest, accepted⟩ .turn =
      (.ran (.ok processed), ⟨loop.take.2, rest, accepted⟩) := by
  rw [step, work_turn rfl, if_pos bound, perform_take_empty oldest]

private theorem turn_dispatch {envelope : MessageEnvelope}
    (bound : (maxMessages.all fun limit => (processed : Int) < limit) = true)
    (oldest : loop.mailbox.items.head? = some envelope) :
    ∃ actions last, (machine Handler).Along Straight
        ⟨loop, .run maxMessages processed none :: rest, accepted⟩ (actions ++ [last]) ∧
      ((machine Handler).after ⟨loop, .run maxMessages processed none :: rest, accepted⟩
          actions).step last =
        settle accepted (.run maxMessages processed (some envelope)) rest
          (loop.take.2.dispatch envelope) := by
  have takes : work ⟨loop, .run maxMessages processed none :: rest, accepted⟩ .turn =
      .take (fun envelope => .run maxMessages processed (some envelope)) rest
        (.ran (.ok processed)) := by
    rw [work_turn rfl, if_pos bound]
  exact take_dispatch _ takes rfl oldest

end Turns

private theorem runLoop_simulated (maxMessages : Option Int) (turns processed : Nat)
    (loop : KernelLoop Handler) (rest : List Frame) (accepted : List MessageEnvelope)
    (enough : loop.mailbox.items.length < turns) :
    ∃ actions last, (machine Handler).Along Straight
        ⟨loop, .run maxMessages processed none :: rest, accepted⟩ (actions ++ [last]) ∧
      ((machine Handler).after ⟨loop, .run maxMessages processed none :: rest, accepted⟩
          actions).step last =
        (.ran (KernelLoop.runLoop maxMessages turns processed loop).result,
          ⟨(KernelLoop.runLoop maxMessages turns processed loop).loop, rest, accepted⟩) := by
  induction turns generalizing processed loop with
  | zero => omega
  | succ turns ih =>
    cases bound : maxMessages.all fun limit => (processed : Int) < limit with
    | false =>
      refine ⟨[], .turn, ⟨trivial, trivial⟩, ?_⟩
      rw [KernelLoop.runLoop, bound]
      exact turn_stopped rest accepted bound
    | true =>
      cases oldest : loop.mailbox.items.head? with
      | none =>
        refine ⟨[], .turn, ⟨trivial, trivial⟩, ?_⟩
        rw [KernelLoop.runLoop_empty bound oldest]
        exact turn_empty rest accepted bound oldest
      | some envelope =>
        obtain ⟨actions, last, straight, dispatched⟩ := turn_dispatch rest accepted bound oldest
        have shorter : (loop.take.2.dispatch envelope).2.mailbox.items.length < turns := by
          rw [(loop.take.2.dispatch_same envelope).mailbox]
          show loop.mailbox.items.tail.length < turns
          have positive := List.length_pos_of_mem (List.mem_of_mem_head? oldest)
          rw [List.length_tail]
          omega
        cases returned : (loop.take.2.dispatch envelope).1 with
        | error raised =>
          have outcome : loop.take.2.dispatch envelope =
              (.error raised, (loop.take.2.dispatch envelope).2) := Prod.ext returned rfl
          refine ⟨actions, last, straight, ?_⟩
          rw [dispatched, KernelLoop.runLoop_error bound oldest outcome, outcome]
          rfl
        | ok done =>
          have outcome : loop.take.2.dispatch envelope =
              (.ok (), (loop.take.2.dispatch envelope).2) := Prod.ext returned rfl
          obtain ⟨later, final, straightLater, finished⟩ := ih (processed + 1) _ shorter
          have reached : (machine Handler).after
              ⟨loop, .run maxMessages processed none :: rest, accepted⟩ (actions ++ [last]) =
                ⟨(loop.take.2.dispatch envelope).2,
                  .run maxMessages (processed + 1) none :: rest, accepted⟩ := by
            rw [Machine.after_append, Machine.after_cons, Machine.after_nil]
            exact (congrArg Prod.snd dispatched).trans (by rw [outcome]; rfl)
          refine ⟨actions ++ [last] ++ later, final, ?_, ?_⟩
          · rw [List.append_assoc, Machine.along_append, reached]
            exact ⟨straight, straightLater⟩
          · rw [Machine.after_append, reached, KernelLoop.runLoop_ok bound oldest outcome]
            exact finished

/-- Where the handlers answer at once, the machine goes on from a call of `run` by turns and the
ends of handlers alone, and its last action answers and leaves what the plain loop does. -/
theorem run_simulated (loop : KernelLoop Handler) (maxMessages : Option Int)
    (accepted : List MessageEnvelope) :
    ∃ actions last, (machine Handler).Along Straight
        (step ⟨loop, [], accepted⟩ (.run maxMessages)).2 (actions ++ [last]) ∧
      ((machine Handler).after ⟨loop, [], accepted⟩ (.run maxMessages :: actions)).step last =
        (.ran (loop.run maxMessages).result, ⟨(loop.run maxMessages).loop, [], accepted⟩) :=
  runLoop_simulated maxMessages _ 0 loop [] accepted (Nat.lt_succ_self _)

/-! ### Runs -/

private theorem along_room_of_agreement {state : KernelState H} {actions : List (Action H)}
    (logged : state.Logged) (agreement : Agreement state actions) :
    (machine H).Along Room state actions := by
  induction actions generalizing state with
  | nil => trivial
  | cons action rest ih =>
    have agrees : (state.step action).2.Agrees := agreement.agrees [action] rest rfl
    have clean : state.CleanFailure action := agreement.failures [] action rest rfl
    have room := room_of_agreement logged agrees clean
    refine ⟨room, ih (logged_step logged room) ?_⟩
    constructor
    · intro before later split
      exact agreement.agrees (action :: before) later (by rw [split, List.cons_append])
    · intro before other later split
      exact agreement.failures (action :: before) other later (by rw [split, List.cons_append])

/-- From a fresh loop, mailbox and log agree along a run exactly when the log
has room at every step of it. -/
theorem agreement_iff_room {start : KernelState H} (fresh : start.Fresh)
    (actions : List (Action H)) :
    Agreement start actions ↔ (machine H).Along Room start actions := by
  constructor
  · exact fun agreement => along_room_of_agreement (logged_of_fresh fresh) agreement
  · intro along
    have holds : ∀ before rest, actions = before ++ rest →
        ((machine H).after start before).Logged := by
      rintro before rest rfl
      exact Machine.invariant_after Logged
        (fun state action logged room => logged_step logged room) (logged_of_fresh fresh)
        (((machine H).along_append Room start before rest).mp along).1
    constructor
    · exact fun before rest split => (holds before rest split).agrees
    · intro before action rest split
      exact clean_of_room
        (((machine H).along_iff_each Room start actions).mp along before action rest split)

/-- A fresh loop with no handler in progress. -/
def fresh (maxEntries : Nat) (positive : 0 < maxEntries) (overflow : Overflow) : KernelState Unit :=
  ⟨KernelLoop.fresh maxEntries positive overflow, [], []⟩

/-- Two submitted tasks, one without a handler, in a log of three entries. -/
theorem threeEntries_agreement :
    Agreement (fresh 3 (by decide) .raise)
      [.submit "task" none "" "", .step, .register "task" (), .submit "task" none "" ""] :=
  (agreement_iff_room ⟨rfl, rfl, rfl, rfl⟩ _).mpr
    ⟨fun _ _ => by decide, fun _ _ _ drops => (by cases drops), trivial, fun _ _ => by decide,
      trivial⟩

/-- The second submit raises, but its message stays queued without an entry
and with the number of the next one. -/
theorem oneEntry_not_agreement :
    ¬ Agreement (fresh 1 (by decide) .raise)
        [.submit "task" none "" "", .submit "task" none "" "", .submit "task" none "" ""] ∧
      ((machine Unit).after (fresh 1 (by decide) .raise)
        [.submit "task" none "" "", .submit "task" none "" "",
          .submit "task" none "" ""]).loop.mailbox.items.map MessageEnvelope.seq = [1, 2, 2] ∧
      ((machine Unit).after (fresh 1 (by decide) .raise)
        [.submit "task" none "" "", .submit "task" none "" "",
          .submit "task" none "" ""]).loop.log.entries.map MessageEnvelope.seq = [1] := by
  refine ⟨fun agreement => ?_, by rfl, by rfl⟩
  have increasing := (agreement.agrees _ [] (List.append_nil _).symm).increasing
  have numbers : ((machine Unit).after (fresh 1 (by decide) .raise)
      [.submit "task" none "" "", .submit "task" none "" "",
        .submit "task" none "" ""]).accepted.map MessageEnvelope.seq = [1, 2, 2] := by rfl
  have strict := List.pairwise_map.mpr increasing
  rw [numbers] at strict
  revert strict
  decide

end KernelState

end Swarmind.Kernel
