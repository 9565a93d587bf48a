import Swarmind.Library.Dict
import Swarmind.Library.Python
import Swarmind.Library.Runs

/-!
Owns the guard that runs an effect once for each key. A call looks the key up before its effect
and stores the output after it, and nothing marks the key in between: what a call finds is
right as long as no other call of the key is under way.
-/

namespace Swarmind.Orchestrator.Idempotency

open Swarmind.Library

variable {Digest Output : Type} [DecidableEq Digest]

structure IdempotencyGuard (Digest Output : Type) where
  cache : Dict String (Digest × Output)
  replays : Nat

structure GuardedResult (Output : Type) where
  output : Output
  replayed : Bool

def emptyKey : PyException :=
  .valueError ("WHAT: idempotency_key vacia. WHY: sin key no hay deduplicacion de efectos " ++
    "(retry = doble efecto). WHERE: IdempotencyGuard.run")

def keyPayloadMismatch (idempotencyKey : String) : PyException :=
  ⟨"KeyPayloadMismatch", s!"WHAT: idempotency_key '{idempotencyKey}' reusada con payload " ++
    "distinto. WHY: el guard no puede saber si el efecto previo aplica; reusar la key con otro " ++
    "payload es un bug (retry ambiguo). WHERE: IdempotencyGuard.run"⟩

/-- An idempotency key and a payload. -/
structure Call where
  key : String
  payload : String
deriving DecidableEq

/-- What a call of `run` comes to before `execute_fn`: `none` calls it. -/
def consult (payloadHash : String → Digest) (guard : IdempotencyGuard Digest Output)
    (call : Call) : Except PyException (Option (GuardedResult Output)) :=
  if isBlank call.key then .error emptyKey
  else match guard.cache.get? call.key with
    | some (cachedHash, output) =>
      if cachedHash ≠ payloadHash call.payload then .error (keyPayloadMismatch call.key)
      else .ok (some ⟨output, true⟩)
    | none => .ok none

/-- The guard, the calls whose `execute_fn` is running, and what became of all calls: those that
called their `execute_fn`, those in which it returned, and the results. -/
structure State (Digest Output : Type) where
  guard : IdempotencyGuard Digest Output
  running : List Call
  started : List Call
  executed : List (Call × Output)
  returned : List (Call × GuardedResult Output)

/-- A call reaches its `execute_fn` or ends before it; a running `execute_fn` returns or raises.
Calls overlap and nest as they will. -/
inductive Action (Output : Type) where
  | run (call : Call)
  | finish (call : Call) (outcome : Except PyException Output)

variable (payloadHash : String → Digest)

def step (state : State Digest Output) : Action Output → State Digest Output
  | .run call =>
    match consult payloadHash state.guard call with
    | .error _ => state
    | .ok (some result) =>
      { state with
        guard.replays := state.guard.replays + 1
        returned := state.returned ++ [(call, result)] }
    | .ok none =>
      { state with
        running := state.running ++ [call]
        started := state.started ++ [call] }
  | .finish call outcome =>
    if call ∈ state.running then
      match outcome with
      | .error _ => { state with running := state.running.erase call }
      | .ok output =>
        { state with
          guard.cache := state.guard.cache.set call.key (payloadHash call.payload, output)
          running := state.running.erase call
          executed := state.executed ++ [(call, output)]
          returned := state.returned ++ [(call, ⟨output, false⟩)] }
    else state

def machine : Machine (State Digest Output) (Action Output) Unit where
  step state action := ((), step payloadHash state action)

def initial : State Digest Output := ⟨⟨.empty, 0⟩, [], [], [], []⟩

/-- Each key has at most one execution that returned, whose output every call of the key gives;
the calls that were executed have the payload of the first one. -/
structure AtMostOnce (state : State Digest Output) : Prop where
  once : (state.executed.map fun execution => execution.1.key).Nodup
  output : ∀ result ∈ state.returned, ∃ execution ∈ state.executed,
    execution.1.key = result.1.key ∧ execution.2 = result.2.output
  payload : state.started.Pairwise fun first later => first.key = later.key →
    first.payload = later.payload
  replays : state.guard.replays = state.returned.countP fun result => result.2.replayed

/-- A call that finds nothing under its key comes when no other call of the key is running, and
brings the payload that was tried before. -/
def Alone (state : State Digest Output) : Action Output → Prop
  | .run call => state.guard.cache.get? call.key = none →
    call.key ∉ state.running.map Call.key ∧
      ∀ earlier ∈ state.started, earlier.key = call.key → earlier.payload = call.payload
  | .finish _ _ => True

/-- The cache holds what was executed, and each running call is the only one of its key. -/
structure Reserved (state : State Digest Output) : Prop where
  atMostOnce : AtMostOnce state
  cached : ∀ key hash output, state.guard.cache.get? key = some (hash, output) →
    ∃ execution ∈ state.executed, execution.1.key = key ∧ execution.2 = output
  known : ∀ execution ∈ state.executed, execution.1.key ∈ state.guard.cache.keys
  alone : (state.running.map Call.key).Nodup
  uncached : ∀ call ∈ state.running, call.key ∉ state.guard.cache.keys

omit [DecidableEq Digest] in
private theorem reserved_initial : Reserved (initial : State Digest Output) where
  atMostOnce := ⟨List.nodup_nil, nofun, .nil, rfl⟩
  cached := nofun
  known := nofun
  alone := List.nodup_nil
  uncached := nofun

section Steps

variable {payloadHash} {state : State Digest Output}

private theorem consult_eq_ok {call : Call} {found : Option (GuardedResult Output)}
    (outcome : consult payloadHash state.guard call = .ok found) :
    match found with
    | some result => result.replayed = true ∧
        state.guard.cache.get? call.key = some (payloadHash call.payload, result.output)
    | none => state.guard.cache.get? call.key = none := by
  unfold consult at outcome
  split at outcome
  · cases outcome
  · split at outcome
    · next cached =>
      split at outcome
      · cases outcome
      · next same =>
        cases outcome
        exact ⟨rfl, by rw [cached, not_not.mp same]⟩
    · next absent =>
      cases outcome
      exact absent

private theorem Reserved.run (reserved : Reserved state) (call : Call)
    (single : Alone state (.run call : Action Output)) :
    Reserved (step payloadHash state (.run call)) := by
  cases outcome : consult payloadHash state.guard call with
  | error raised =>
    simp only [step, outcome]
    exact reserved
  | ok found =>
    have known := consult_eq_ok outcome
    cases found with
    | some result =>
      obtain ⟨replayed, cached⟩ := known
      simp only [step, outcome]
      refine { reserved with atMostOnce := { reserved.atMostOnce with output := ?_, replays := ?_ } }
      · intro other among
        rcases List.mem_append.mp among with before | last
        · exact reserved.atMostOnce.output other before
        · rw [List.mem_singleton.mp last]
          exact reserved.cached _ _ _ cached
      · simp [reserved.atMostOnce.replays, replayed]
    | none =>
      obtain ⟨separate, tried⟩ := single known
      simp only [step, outcome]
      refine { reserved with
        atMostOnce := { reserved.atMostOnce with payload := ?_ }, alone := ?_, uncached := ?_ }
      · refine List.pairwise_append.mpr
          ⟨reserved.atMostOnce.payload, List.pairwise_singleton _ _, ?_⟩
        intro earlier before last among
        rw [List.mem_singleton.mp among]
        exact tried earlier before
      · rw [List.map_append]
        refine List.nodup_append.mpr ⟨reserved.alone, List.nodup_singleton _, ?_⟩
        intro key before last among
        rw [List.mem_singleton.mp among]
        exact ne_of_mem_of_not_mem before separate
      · intro other among
        rcases List.mem_append.mp among with before | last
        · exact reserved.uncached other before
        · rw [List.mem_singleton.mp last, Dict.mem_keys_iff, known]
          exact nofun

private theorem Reserved.finish (reserved : Reserved state) (call : Call)
    (outcome : Except PyException Output) :
    Reserved (step payloadHash state (.finish call outcome)) := by
  by_cases waits : call ∈ state.running
  · have kept : ∀ other ∈ state.running.erase call, other ∈ state.running :=
      fun _ => List.mem_of_mem_erase
    have alone : ((state.running.erase call).map Call.key).Nodup :=
      reserved.alone.sublist ((List.erase_sublist).map Call.key)
    cases outcome with
    | error raised =>
      simp only [step, if_pos waits]
      exact { reserved with
        atMostOnce := { reserved.atMostOnce with }
        alone := alone
        uncached := fun other among => reserved.uncached other (kept other among) }
    | ok output =>
      simp only [step, if_pos waits]
      have absent := reserved.uncached call waits
      have unexecuted : call.key ∉ state.executed.map fun execution => execution.1.key := by
        intro among
        obtain ⟨execution, member, same⟩ := List.mem_map.mp among
        exact absent (same ▸ reserved.known execution member)
      constructor
      · constructor
        · rw [List.map_append]
          refine List.nodup_append.mpr ⟨reserved.atMostOnce.once, List.nodup_singleton _, ?_⟩
          intro key before last among
          rw [List.mem_singleton.mp among]
          exact ne_of_mem_of_not_mem before unexecuted
        · intro result among
          rcases List.mem_append.mp among with before | last
          · obtain ⟨execution, member, same⟩ := reserved.atMostOnce.output result before
            exact ⟨execution, List.mem_append_left _ member, same⟩
          · rw [List.mem_singleton.mp last]
            exact ⟨(call, output), by simp, rfl, rfl⟩
        · exact reserved.atMostOnce.payload
        · show state.guard.replays = _
          rw [reserved.atMostOnce.replays, List.countP_append]
          rfl
      · intro key hash stored found
        rw [Dict.get?_set] at found
        split at found
        · next same =>
          cases found
          exact ⟨(call, output), by simp, same, rfl⟩
        · obtain ⟨execution, member, same⟩ := reserved.cached key hash stored found
          exact ⟨execution, List.mem_append_left _ member, same⟩
      · intro execution among
        rw [Dict.mem_keys_set]
        rcases List.mem_append.mp among with before | last
        · exact .inr (reserved.known execution before)
        · rw [List.mem_singleton.mp last]
          exact .inl rfl
      · exact alone
      · intro other among
        have different : other.key ≠ call.key := by
          intro same
          have twice := (List.perm_cons_erase waits).map Call.key
          have distinct := twice.nodup_iff.mp reserved.alone
          rw [List.map_cons, List.nodup_cons] at distinct
          exact distinct.1 (same ▸ List.mem_map_of_mem among)
        rw [Dict.mem_keys_set]
        rintro (same | before)
        · exact different same
        · exact reserved.uncached other (kept other among) before
  · simp only [step, if_neg waits]
    exact reserved

/-! ### Overlapping calls -/

variable (payloadHash) in
/-- The record is right however calls overlap: what is cached or returned for a key is the output of
an execution of it with that payload, and each execution that returned is one result. -/
structure Recorded (state : State Digest Output) : Prop where
  cached : ∀ key hash output, state.guard.cache.get? key = some (hash, output) →
    ∃ execution ∈ state.executed, execution.1.key = key ∧
      payloadHash execution.1.payload = hash ∧ execution.2 = output
  output : ∀ result ∈ state.returned, ∃ execution ∈ state.executed,
    execution.1.key = result.1.key ∧
      payloadHash execution.1.payload = payloadHash result.1.payload ∧
      execution.2 = result.2.output
  once : (state.returned.filter fun result => !result.2.replayed).map
    (fun result => (result.1, result.2.output)) = state.executed
  replays : state.guard.replays = state.returned.countP fun result => result.2.replayed

private theorem Recorded.step (recorded : Recorded payloadHash state) (action : Action Output) :
    Recorded payloadHash (step payloadHash state action) := by
  cases action with
  | run call =>
    cases outcome : consult payloadHash state.guard call with
    | error raised =>
      simp only [Idempotency.step, outcome]
      exact recorded
    | ok found =>
      cases found with
      | none =>
        simp only [Idempotency.step, outcome]
        exact { recorded with }
      | some result =>
        obtain ⟨replayed, cached⟩ := consult_eq_ok outcome
        simp only [Idempotency.step, outcome]
        refine { recorded with output := ?_, once := ?_, replays := ?_ }
        · intro other among
          rcases List.mem_append.mp among with before | last
          · exact recorded.output other before
          · rw [List.mem_singleton.mp last]
            exact recorded.cached _ _ _ cached
        · simp [recorded.once, replayed]
        · simp [recorded.replays, replayed]
  | finish call outcome =>
    by_cases waits : call ∈ state.running
    · cases outcome with
      | error raised =>
        simp only [Idempotency.step, if_pos waits]
        exact { recorded with }
      | ok output =>
        simp only [Idempotency.step, if_pos waits]
        refine ⟨?_, ?_, ?_, ?_⟩
        · intro key hash stored found
          rw [Dict.get?_set] at found
          split at found
          · next same =>
            cases found
            exact ⟨(call, output), by simp, same, rfl, rfl⟩
          · obtain ⟨execution, member, same⟩ := recorded.cached key hash stored found
            exact ⟨execution, List.mem_append_left _ member, same⟩
        · intro result among
          rcases List.mem_append.mp among with before | last
          · obtain ⟨execution, member, same⟩ := recorded.output result before
            exact ⟨execution, List.mem_append_left _ member, same⟩
          · rw [List.mem_singleton.mp last]
            exact ⟨(call, output), by simp, rfl, rfl, rfl⟩
        · simp [recorded.once]
        · simp [recorded.replays]
    · simp only [Idempotency.step, if_neg waits]
      exact recorded

variable (payloadHash) in
/-- In every run, what is cached or returned for a key is the output of an execution of it. -/
theorem recorded_after (actions : List (Action Output)) :
    Recorded payloadHash ((machine payloadHash).after initial actions) :=
  Machine.invariant_after (Recorded payloadHash) (fun _ action recorded _ => recorded.step action)
    ⟨nofun, nofun, rfl, rfl⟩ ((machine payloadHash).along_of_forall (fun _ _ => trivial) _ _)

end Steps

/-- No effect is run twice in a run of the guard whose calls each come alone. -/
theorem atMostOnce_after (actions : List (Action Output))
    (along : (machine payloadHash).Along Alone initial actions) :
    AtMostOnce ((machine payloadHash).after initial actions) := by
  have preserved (state : State Digest Output) (action : Action Output) :
      Reserved state → Alone state action → Reserved ((machine payloadHash).step state action).2 := by
    intro reserved single
    cases action with
    | run call => exact reserved.run call single
    | finish call outcome => exact reserved.finish call outcome
  exact (Machine.invariant_after Reserved preserved reserved_initial along).atMostOnce

/-- A retry after a failure and after a success, and a call with another payload. -/
theorem atMostOnce_after_retries :
    AtMostOnce ((machine id).after (initial : State String Nat)
      [.run ⟨"txn-1", "pay"⟩, .finish ⟨"txn-1", "pay"⟩ (.error (.runtimeError "")),
        .run ⟨"txn-1", "pay"⟩, .run ⟨"txn-2", "pay"⟩, .finish ⟨"txn-1", "pay"⟩ (.ok 1),
        .run ⟨"txn-1", "pay"⟩, .run ⟨"txn-1", "send"⟩]) := by
  refine atMostOnce_after id _ ?_
  simp only [Machine.Along, Alone]
  decide +kernel

/-- Two calls of one key overlap. -/
theorem not_atMostOnce_overlapping :
    ¬ ∀ (payloadHash : String → String) (actions : List (Action Nat)),
      AtMostOnce ((machine payloadHash).after initial actions) := by
  intro always
  have once := (always id [.run ⟨"txn-1", "pay"⟩, .run ⟨"txn-1", "pay"⟩,
    .finish ⟨"txn-1", "pay"⟩ (.ok 1), .finish ⟨"txn-1", "pay"⟩ (.ok 2)]).once
  exact absurd once (by decide +kernel)

end Swarmind.Orchestrator.Idempotency
