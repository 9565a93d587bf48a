import Swarmind.Orchestrator.AgentBus.Messaging
import Mathlib.Data.List.Range

/-!
Owns the sandbox loop: cycles of a test run, its notification and the circuit breaker. The
breaker is checked twice for a failing cycle, in `execute_cycle` with the default limit and in
`run_autonomous` with its own, and only the first check escalates.

`runs` gives the outcome of each test run and `keeps` says whether the cognition store keeps
the lesson of an iteration.
-/

namespace Swarmind.Orchestrator.SandboxLoop

open Swarmind.Library Swarmind.Orchestrator.AgentBus

def defaultChannel : String := "#swe-sandbox"

def defaultMaxIterations : Nat := 5

/-- The time is what `:.2f` writes. -/
structure SandboxResult where
  success : Bool
  output : String
  error : String
  executionTime : String
deriving DecidableEq

inductive TestRun where
  | returned (result : SandboxResult)
  | raised (message : String)

def TestRun.result : TestRun → SandboxResult
  | .returned result => result
  | .raised message => {
      success := false
      output := ""
      error := s!"Error en el sandbox executor: {message}"
      executionTime := "0.00" }

structure Lesson where
  title : String
  content : String
  domain : String
  tags : List String
  taskId : String
  iterations : Nat
  maxIterations : Nat
deriving DecidableEq

/-- The bus, the lessons, and the number of test runs so far. -/
structure World where
  bus : State
  lessons : List Lesson
  tests : Nat
deriving DecidableEq

def clip (size : Nat) (text : String) : String := String.ofList (text.toList.take size)

/-! ### Notifications -/

def qualityGatePost (channel taskDescription : String) (taskId : Option String) (code : String)
    (result : SandboxResult) : Post where
  channel := channel
  fromAgent := "@sandbox"
  toAgent := "@quality-gate"
  message := s!"✅ Tests SUPERADOS para: {taskDescription}\n\n" ++
    s!"```\n{clip 1500 result.output}\n```\n\n" ++
    s!"Tiempo de ejecucion: {result.executionTime}s\n" ++
    "Se requiere revision final de @quality-gate."
  messageType := "response"
  taskId := taskId
  attachments := if code = "" then none else some [code]

def softwareEngineerPost (channel taskDescription : String) (taskId : Option String)
    (code : String) (iteration : Nat) (result : SandboxResult) : Post where
  channel := channel
  fromAgent := "@sandbox"
  toAgent := "@software-engineer"
  message := s!"❌ Tests FALLIDOS (intento {iteration}) para: {taskDescription}\n\n" ++
    s!"```\n{clip 1500 result.error}\n```\n\n" ++
    s!"Tiempo de ejecucion: {result.executionTime}s\n" ++
    "@software-engineer debe corregir el codigo."
  messageType := "error"
  taskId := taskId
  iteration := iteration
  attachments := if code = "" then none else some [code]

def escalationPost (taskId taskDescription : String) (iteration : Nat)
    (lastError channel : String) : Post where
  channel := channel
  fromAgent := "@sandbox"
  toAgent := "@human"
  message := s!"ðŸš¨ CIRCUIT BREAKER DISPARADO para tarea: {taskId}\n\n" ++
    s!"Descripcion: {taskDescription}\n" ++ s!"Intentos fallidos: {iteration}\n" ++
    s!"Ultimo error: {clip 500 lastError}\n\n" ++ "Se requiere intervencion humana urgente."
  messageType := "escalation"
  taskId := some taskId
  iteration := iteration

def escalationLesson (taskId taskDescription : String) (iteration : Nat)
    (lastError : String) : Lesson where
  title := s!"Circuit Breaker - Task {taskId}"
  content := s!"El circuit breaker se disparo para la tarea {taskId} " ++
    s!"tras {iteration} intentos fallidos.\n\n" ++ s!"Descripcion: {taskDescription}\n" ++
    s!"Ultimo error: {clip 500 lastError}\n\n" ++ "Se requiere intervencion humana."
  domain := "harness.sandbox"
  tags := ["circuit-breaker", "escalation", taskId]
  taskId := taskId
  iterations := iteration
  maxIterations := defaultMaxIterations

def emptyCodePost (taskId channel : String) : Post where
  channel := channel
  fromAgent := "@sandbox"
  toAgent := "@software-engineer"
  message := s!"[SandboxLoop] Tarea {taskId} iniciada sin codigo.\n" ++
    "Esperando que @software-engineer genere el codigo para testear."
  messageType := "notification"
  taskId := some taskId

/-! ### The loop -/

section Loop

variable (stamps : Nat → Stamp) (searchesText : Bool)

def World.post (world : World) (post : Post) : Except PyException World := do
  let (_, bus) ← postMessage stamps searchesText world.bus post
  return { world with bus := bus }

def handleEscalation (world : World) (taskId taskDescription : String) (iteration : Nat)
    (lastError channel : String) (kept : Bool) : Except PyException World := do
  let world ← world.post stamps searchesText
    (escalationPost taskId taskDescription iteration lastError channel)
  let lesson := escalationLesson taskId taskDescription iteration lastError
  return { world with lessons := if kept then world.lessons ++ [lesson] else world.lessons }

def executeCycle (world : World) (taskDescription code : String) (taskId : Option String)
    (channel : String) (run : TestRun) (kept : Bool) :
    Except PyException ((Bool × SandboxResult) × World) := do
  let result := run.result
  let world := { world with tests := world.tests + 1 }
  if result.success then
    let world ← world.post stamps searchesText
      (qualityGatePost channel taskDescription taskId code result)
    return ((true, result), world)
  else
    let named := taskId.filter (· ≠ "")
    let iteration := match named with
      | some task => countIterations world.bus task + 1
      | none => 1
    let world ← world.post stamps searchesText
      (softwareEngineerPost channel taskDescription taskId code iteration result)
    match named with
    | some task =>
      if checkCircuitBreaker world.bus task defaultMaxIterations then
        let world ← handleEscalation stamps searchesText world task taskDescription iteration
          result.error channel kept
        return ((false, result), world)
      else return ((false, result), world)
    | none => return ((false, result), world)

variable (taskId code : String) (maxIterations : Nat) (channel : String)
variable (runs : Nat → TestRun) (keeps : Nat → Bool)

/-- The cycles that remain from an iteration on, and what stands behind the last one. -/
def cycles : Nat → Nat → Option SandboxResult → World →
    Except PyException ((Bool × Option SandboxResult) × World)
  | 0, _, last, world => do
    let world ← handleEscalation stamps searchesText world taskId s!"Task {taskId}"
      maxIterations ((last.map SandboxResult.error).getD "Desconocido") channel
      (keeps (maxIterations + 1))
    return ((false, last), world)
  | remaining + 1, iteration, _, world => do
    let ((success, result), world) ← executeCycle stamps searchesText world
      s!"Task {taskId} (iter {iteration})" code (some taskId) channel (runs iteration)
      (keeps iteration)
    if success then return ((true, some result), world)
    else if checkCircuitBreaker world.bus taskId maxIterations then
      return ((false, some result), world)
    else cycles remaining (iteration + 1) (some result) world

def runAutonomous (world : World) : Except PyException ((Bool × Option SandboxResult) × World) :=
  if code = "" then do
    let world ← world.post stamps searchesText (emptyCodePost taskId channel)
    return ((false, none), world)
  else
    cycles stamps searchesText taskId code maxIterations channel runs keeps maxIterations 1 none
      world

end Loop

/-! ### Escalations -/

def isEscalation (row : Message) : Bool := row.messageType = "escalation"

/-- The escalation messages posted between two states of a run. -/
def escalationsBetween (before after : World) : Nat :=
  (after.bus.rows.drop before.bus.rows.length).countP isEscalation

def lessonsBetween (before after : World) : Nat := (after.lessons.drop before.lessons.length).length

/-- A cycle passes before the failing ones have brought the errors to the limit. -/
structure PassesAt (maxIterations errors : Nat) (runs : Nat → TestRun) (cycle : Nat) : Prop where
  within : 1 ≤ cycle ∧ cycle ≤ maxIterations
  passes : (runs cycle).result.success = true
  fails : ∀ earlier, 1 ≤ earlier → earlier < cycle →
    (runs earlier).result.success = false ∧ errors + earlier < maxIterations

/-- The run ends as it should: without an escalation where a cycle passes in time, and with
exactly one escalation and one lesson where it gives up. -/
structure EscalatesOnce (maxIterations errors : Nat) (runs : Nat → TestRun) (passed : Bool)
    (before after : World) : Prop where
  cycles : after.tests ≤ before.tests + maxIterations
  inTime : (∃ cycle, PassesAt maxIterations errors runs cycle) →
    passed = true ∧ escalationsBetween before after = 0
  gaveUp : (¬ ∃ cycle, PassesAt maxIterations errors runs cycle) →
    passed = false ∧ escalationsBetween before after = 1 ∧ lessonsBetween before after = 1

/-- The cycle whose failure brings the errors to the limit. -/
def givesUpAt (maxIterations errors : Nat) : Nat := max 1 (maxIterations - errors)

/-- The limit of `execute_cycle` escalates where the limit of the loop gives up. -/
structure LimitsAgree (taskId : String) (maxIterations errors : Nat) (runs : Nat → TestRun)
    (keeps : Nat → Bool) : Prop where
  inTime : ∀ cycle, PassesAt maxIterations errors runs cycle →
    taskId = "" ∨ cycle = 1 ∨ errors + cycle ≤ defaultMaxIterations
  gaveUp : (¬ ∃ cycle, PassesAt maxIterations errors runs cycle) →
    taskId ≠ "" ∧ (maxIterations = defaultMaxIterations ∨
      defaultMaxIterations ≤ errors + 1 ∧ maxIterations ≤ errors + 1) ∧
    keeps (givesUpAt maxIterations errors) = true

/-! ### Posting -/

section Posting

variable {stamps : Nat → Stamp} {searchesText : Bool}

def World.posted (stamps : Nat → Stamp) (searchesText : Bool) (world : World) (post : Post) :
    World :=
  { world with bus := {
      rows := world.bus.rows ++ [post.payload (stamps world.bus.rows.length)]
      summaries :=
        if searchesText then world.bus.summaries ++ [post.summary] else world.bus.summaries } }

private theorem World.post_eq {post : Post} (valid : post.Valid) (world : World) :
    world.post stamps searchesText post = .ok (world.posted stamps searchesText post) := by
  rw [World.post, postMessage_eq valid]
  rfl

private theorem sandboxPost_valid (agent messageType : String) {post : Post}
    (channel : post.channel = defaultChannel) (fromAgent : post.fromAgent = "@sandbox")
    (toAgent : post.toAgent = agent) (named : agent ≠ "")
    (ofType : post.messageType = messageType) (isType : messageType ∈ validMessageTypes)
    (iteration : 0 ≤ post.iteration) (message : isBlank post.message = false) : post.Valid := by
  refine Post.valid_of ?_ ?_ ?_ message ?_ iteration
  · rw [channel]
    decide
  · rw [fromAgent]
    decide
  · rw [toAgent]
    exact named
  · rw [ofType]
    exact isType

private theorem qualityGatePost_valid (taskDescription : String) (taskId : Option String)
    (code : String)
    (result : SandboxResult) :
    (qualityGatePost defaultChannel taskDescription taskId code result).Valid := by
  refine sandboxPost_valid "@quality-gate" "response" rfl rfl rfl (by decide) rfl (by decide)
    (Int.le_refl 0) ?_
  exact isBlank_append (isBlank_append (isBlank_append (isBlank_append (isBlank_append
    (by decide) _) _) _) _) _

private theorem softwareEngineerPost_valid (taskDescription : String) (taskId : Option String)
    (code : String) (iteration : Nat) (result : SandboxResult) :
    (softwareEngineerPost defaultChannel taskDescription taskId code iteration result).Valid := by
  refine sandboxPost_valid "@software-engineer" "error" rfl rfl rfl (by decide) rfl
    (by decide) (Int.natCast_nonneg iteration) ?_
  exact isBlank_append (isBlank_append (isBlank_append (isBlank_append (isBlank_append
    (isBlank_append (isBlank_append (by decide) _) _) _) _) _) _) _

private theorem escalationPost_valid (taskId taskDescription : String) (iteration : Nat)
    (lastError : String) :
    (escalationPost taskId taskDescription iteration lastError defaultChannel).Valid := by
  refine sandboxPost_valid "@human" "escalation" rfl rfl rfl (by decide) rfl
    (by decide) (Int.natCast_nonneg iteration) ?_
  exact isBlank_append (isBlank_append (isBlank_append (isBlank_append (isBlank_append
    (isBlank_append (by decide) _) _) _) _) _) _

end Posting

/-! ### Cycles -/

section Cycles

variable {stamps : Nat → Stamp} {searchesText : Bool} {taskId : String}

/-- A failing cycle with that many errors escalates. -/
def escalatesAt (taskId : String) (errors : Nat) : Bool :=
  taskId ≠ "" ∧ defaultMaxIterations ≤ errors

/-- What the failing cycles `failed` of a run with `errors` earlier errors add. -/
structure Adds (taskId : String) (errors : Nat) (keeps : Nat → Bool) (before after : World)
    (failed : List Nat) : Prop where
  rows : ∃ added, after.bus.rows = before.bus.rows ++ added ∧
    added.countP (Message.IsErrorOf taskId) = failed.length ∧
    added.countP isEscalation = failed.countP fun cycle => escalatesAt taskId (errors + cycle)
  lessons : ∃ added, after.lessons = before.lessons ++ added ∧
    added.length =
      failed.countP fun cycle => escalatesAt taskId (errors + cycle) && keeps cycle

variable {errors : Nat} {keeps : Nat → Bool} {first second third : World}

private theorem Adds.trans {failed later : List Nat}
    (one : Adds taskId errors keeps first second failed)
    (two : Adds taskId errors keeps second third later) :
    Adds taskId errors keeps first third (failed ++ later) := by
  obtain ⟨⟨rows, isRows, rowErrors, rowEscalations⟩, lessons, isLessons, lessonCount⟩ := one
  obtain ⟨⟨more, isMore, moreErrors, moreEscalations⟩, further, isFurther, furtherCount⟩ := two
  refine ⟨⟨rows ++ more, ?_, ?_, ?_⟩, lessons ++ further, ?_, ?_⟩
  · rw [isMore, isRows, List.append_assoc]
  · rw [List.countP_append, rowErrors, moreErrors, List.length_append]
  · rw [List.countP_append, rowEscalations, moreEscalations, List.countP_append]
  · rw [isFurther, isLessons, List.append_assoc]
  · rw [List.length_append, lessonCount, furtherCount, List.countP_append]

private theorem Adds.countIterations_eq {failed : List Nat}
    (adds : Adds taskId errors keeps first second failed) :
    countIterations second.bus taskId = countIterations first.bus taskId + failed.length := by
  obtain ⟨⟨rows, isRows, rowErrors, _⟩, _⟩ := adds
  rw [countIterations, countIterations, isRows, List.countP_append, rowErrors]

private theorem executeCycle_pass (stamps : Nat → Stamp) (searchesText : Bool) (errors : Nat)
    (keeps : Nat → Bool) (world : World) (taskDescription code taskId : String) {run : TestRun}
    (passes : run.result.success = true) (kept : Bool) :
    ∃ after, executeCycle stamps searchesText world taskDescription code (some taskId)
        defaultChannel run kept = .ok ((true, run.result), after) ∧
      after.tests = world.tests + 1 ∧ Adds taskId errors keeps world after [] := by
  simp only [executeCycle, passes, if_true,
    World.post_eq (qualityGatePost_valid taskDescription (some taskId) code run.result)]
  refine ⟨_, rfl, rfl, ⟨_, rfl, ?_, ?_⟩, ⟨[], (List.append_nil _).symm, rfl⟩⟩
  · simp [Message.IsErrorOf, Post.payload, qualityGatePost]
  · simp [isEscalation, Post.payload, qualityGatePost]

section Kinds

variable (stamp : Stamp) (taskDescription code lastError : String) (iteration : Nat)
  (result : SandboxResult)

@[simp] theorem isErrorOf_softwareEngineerPost :
    Message.IsErrorOf taskId ((softwareEngineerPost defaultChannel taskDescription (some taskId)
      code iteration result).payload stamp) = true := by
  simp [Message.IsErrorOf, Post.payload, softwareEngineerPost]

@[simp] theorem isEscalation_softwareEngineerPost :
    isEscalation ((softwareEngineerPost defaultChannel taskDescription (some taskId)
      code iteration result).payload stamp) = false := rfl

@[simp] theorem isErrorOf_escalationPost :
    Message.IsErrorOf taskId ((escalationPost taskId taskDescription iteration lastError
      defaultChannel).payload stamp) = false := by
  simp [Message.IsErrorOf, Post.payload, escalationPost]

@[simp] theorem isEscalation_escalationPost :
    isEscalation ((escalationPost taskId taskDescription iteration lastError
      defaultChannel).payload stamp) = true := rfl

end Kinds

private theorem handleEscalation_eq (world : World) (taskDescription : String) (iteration : Nat)
    (lastError : String) (kept : Bool) :
    handleEscalation stamps searchesText world taskId taskDescription iteration lastError
      defaultChannel kept = .ok { world.posted stamps searchesText
        (escalationPost taskId taskDescription iteration lastError defaultChannel) with
        lessons :=
          if kept then
            world.lessons ++ [escalationLesson taskId taskDescription iteration lastError]
          else world.lessons } := by
  rw [handleEscalation, World.post_eq (escalationPost_valid ..)]
  rfl

private theorem executeCycle_fail (stamps : Nat → Stamp) (searchesText : Bool) (keeps : Nat → Bool)
    (world : World) (taskDescription code : String) {cycle : Nat}
    (before : countIterations world.bus taskId + 1 = errors + cycle) {run : TestRun}
    (fails : run.result.success = false) :
    ∃ after, executeCycle stamps searchesText world taskDescription code (some taskId)
        defaultChannel run (keeps cycle) = .ok ((false, run.result), after) ∧
      after.tests = world.tests + 1 ∧ Adds taskId errors keeps world after [cycle] := by
  by_cases named : taskId = ""
  · have anonymous : (some taskId).filter (· ≠ "") = none := by simp [named]
    have quiet : escalatesAt taskId (errors + cycle) = false := by simp [escalatesAt, named]
    simp only [executeCycle, fails, Bool.false_eq_true, if_false, anonymous]
    rw [World.post_eq (softwareEngineerPost_valid ..)]
    exact ⟨_, rfl, rfl, ⟨_, rfl, by simp, by simp [quiet]⟩,
      ⟨[], (List.append_nil _).symm, by simp [quiet]⟩⟩
  · have isNamed : (some taskId).filter (· ≠ "") = some taskId := by simp [named]
    simp only [executeCycle, fails, Bool.false_eq_true, if_false, isNamed]
    rw [World.post_eq (softwareEngineerPost_valid ..)]
    simp only [bind, Except.bind, pure, Except.pure, handleEscalation_eq]
    have counted (start : World) (same : start.bus = world.bus) :
        countIterations (start.posted stamps searchesText (softwareEngineerPost defaultChannel
          taskDescription (some taskId) code (countIterations world.bus taskId + 1)
          run.result)).bus taskId = errors + cycle := by
      rw [World.posted, countIterations, same, List.countP_append, ← before, countIterations]
      simp
    rw [checkCircuitBreaker, counted { world with tests := world.tests + 1 } rfl]
    by_cases reached : defaultMaxIterations ≤ errors + cycle
    · have escalates : escalatesAt taskId (errors + cycle) = true := by
        simp [escalatesAt, named, reached]
      rw [decide_eq_true reached, if_pos rfl]
      refine ⟨_, rfl, rfl, ⟨_, List.append_assoc .., by simp, by simp [escalates]⟩, ?_⟩
      cases kept : keeps cycle with
      | true => exact ⟨_, rfl, by simp [escalates, kept]⟩
      | false => exact ⟨[], (List.append_nil _).symm, by simp [kept]⟩
    · have quiet : escalatesAt taskId (errors + cycle) = false := by
        simp [escalatesAt, reached]
      rw [decide_eq_false reached, if_neg Bool.false_ne_true]
      exact ⟨_, rfl, rfl, ⟨_, rfl, by simp, by simp [quiet]⟩,
        ⟨[], (List.append_nil _).symm, by simp [quiet]⟩⟩

variable {code : String} {maxIterations : Nat} {runs : Nat → TestRun}

/-- How the loop ends from an iteration on: with a cycle that passes, or with the first one
whose failure brings the errors to the limit. -/
structure EndsAt (taskId : String) (errors maxIterations : Nat) (runs : Nat → TestRun)
    (keeps : Nat → Bool) (iteration final : Nat) (passed : Bool) (world after : World) : Prop where
  later : iteration ≤ final
  tests : after.tests + iteration = world.tests + final + 1
  before : ∀ cycle, iteration ≤ cycle → cycle < final →
    (runs cycle).result.success = false ∧ errors + cycle < maxIterations
  outcome : (runs final).result.success = passed
  limit : passed = false → maxIterations ≤ errors + final
  adds : Adds taskId errors keeps world after
    (List.range' iteration (final - iteration) ++ if passed then [] else [final])

private theorem EndsAt.cons {iteration final : Nat} {passed : Bool}
    (fails : (runs iteration).result.success = false) (below : errors + iteration < maxIterations)
    (tests : second.tests = first.tests + 1)
    (adds : Adds taskId errors keeps first second [iteration])
    (ends : EndsAt taskId errors maxIterations runs keeps (iteration + 1) final passed second
      third) :
    EndsAt taskId errors maxIterations runs keeps iteration final passed first third := by
  obtain ⟨later, testsLater, before, outcome, limit, addsLater⟩ := ends
  refine ⟨by omega, by omega, ?_, outcome, limit, ?_⟩
  · intro cycle isLater isBefore
    rcases Nat.eq_or_lt_of_le isLater with rfl | isAfter
    · exact ⟨fails, below⟩
    · exact before cycle isAfter isBefore
  · have split : List.range' iteration (final - iteration) =
        [iteration] ++ List.range' (iteration + 1) (final - (iteration + 1)) := by
      have size : final - iteration = final - (iteration + 1) + 1 := by omega
      rw [size, List.range'_succ, List.singleton_append]
    rw [split, List.append_assoc]
    exact adds.trans addsLater

private theorem cycles_endsAt (stamps : Nat → Stamp) (searchesText : Bool) (taskId code : String)
    (runs : Nat → TestRun) (keeps : Nat → Bool) (remaining iteration : Nat)
    (last : Option SandboxResult) (world : World)
    (counted : countIterations world.bus taskId + 1 = errors + iteration)
    (enough : maxIterations < errors + iteration + remaining) (goes : 0 < remaining) :
    ∃ final passed result after, final < iteration + remaining ∧
      cycles stamps searchesText taskId code maxIterations defaultChannel runs keeps remaining
        iteration last world = .ok ((passed, result), after) ∧
      EndsAt taskId errors maxIterations runs keeps iteration final passed world after := by
  induction remaining generalizing iteration last world with
  | zero => exact absurd goes (Nat.lt_irrefl 0)
  | succ remaining ih =>
    cases outcome : (runs iteration).result.success with
    | true =>
      obtain ⟨after, executed, tests, adds⟩ := executeCycle_pass stamps searchesText errors
        keeps world s!"Task {taskId} (iter {iteration})" code taskId outcome (keeps iteration)
      refine ⟨iteration, true, some (runs iteration).result, after, by omega, ?_,
        le_refl _, by omega, ?_, outcome, fun failed => (by cases failed), ?_⟩
      · rw [cycles, executed]
        rfl
      · intro cycle isLater isBefore
        omega
      · rw [Nat.sub_self]
        exact adds
    | false =>
      obtain ⟨after, executed, tests, adds⟩ := executeCycle_fail stamps searchesText keeps
        world s!"Task {taskId} (iter {iteration})" code counted outcome
      have errorsAfter : countIterations after.bus taskId = errors + iteration := by
        rw [adds.countIterations_eq, ← counted]
        rfl
      rw [cycles, executed]
      simp only [bind, Except.bind, Bool.false_eq_true, if_false, checkCircuitBreaker,
        errorsAfter]
      by_cases reached : maxIterations ≤ errors + iteration
      · refine ⟨iteration, false, some (runs iteration).result, after, by omega, ?_,
          le_refl _, by omega, ?_, outcome, fun _ => reached, ?_⟩
        · rw [decide_eq_true reached, if_pos rfl]
          rfl
        · intro cycle isLater isBefore
          omega
        · rw [Nat.sub_self]
          exact adds
      · rw [decide_eq_false reached, if_neg Bool.false_ne_true]
        obtain ⟨final, passed, result, last, within, ended, ends⟩ :=
          ih (iteration + 1) _ after (by omega) (by omega) (by omega)
        exact ⟨final, passed, result, last, by omega, ended,
          ends.cons outcome (by omega) tests adds⟩

private theorem Adds.escalations_eq {failed : List Nat}
    (adds : Adds taskId errors keeps first second failed) :
    escalationsBetween first second =
      failed.countP fun cycle => escalatesAt taskId (errors + cycle) := by
  obtain ⟨⟨rows, isRows, _, rowEscalations⟩, _⟩ := adds
  rw [escalationsBetween, isRows, List.drop_left, rowEscalations]

private theorem Adds.lessons_eq {failed : List Nat}
    (adds : Adds taskId errors keeps first second failed) :
    lessonsBetween first second =
      failed.countP fun cycle => escalatesAt taskId (errors + cycle) && keeps cycle := by
  obtain ⟨_, added, isAdded, count⟩ := adds
  rw [lessonsBetween, isAdded, List.drop_left, count]

private theorem countP_escalatesAt_eq_zero_iff (taskId : String) (errors size : Nat) :
    (List.range' 1 size).countP (fun cycle => escalatesAt taskId (errors + cycle)) = 0 ↔
      taskId = "" ∨ size = 0 ∨ errors + size < defaultMaxIterations := by
  simp only [List.countP_eq_zero, List.mem_range'_1, escalatesAt, decide_eq_true_eq, not_and,
    not_le]
  constructor
  · intro quiet
    by_cases named : taskId = ""
    · exact .inl named
    · rcases Nat.eq_zero_or_pos size with none | some
      · exact .inr (.inl none)
      · exact .inr (.inr (quiet size (by omega) named))
  · rintro (unnamed | none | below) cycle within named
    · exact absurd unnamed named
    · omega
    · omega

private theorem countP_escalatesAt_eq_one_iff (taskId : String) (errors : Nat) (keeps : Nat → Bool)
    {final : Nat} (positive : 1 ≤ final) :
    ((List.range' 1 (final - 1) ++ [final]).countP
          (fun cycle => escalatesAt taskId (errors + cycle)) = 1 ∧
        (List.range' 1 (final - 1) ++ [final]).countP
          (fun cycle => escalatesAt taskId (errors + cycle) && keeps cycle) = 1) ↔
      taskId ≠ "" ∧ defaultMaxIterations ≤ errors + final ∧
        (final = 1 ∨ errors + final ≤ defaultMaxIterations) ∧ keeps final = true := by
  have earlier := countP_escalatesAt_eq_zero_iff taskId errors (final - 1)
  have fewer : (List.range' 1 (final - 1)).countP
      (fun cycle => escalatesAt taskId (errors + cycle) && keeps cycle) ≤
        (List.range' 1 (final - 1)).countP fun cycle => escalatesAt taskId (errors + cycle) :=
    List.countP_mono_left fun cycle _ both => (Bool.and_eq_true_iff.mp both).1
  rw [List.countP_append, List.countP_append, List.countP_singleton, List.countP_singleton]
  by_cases escalates : taskId ≠ "" ∧ defaultMaxIterations ≤ errors + final
  · have last : escalatesAt taskId (errors + final) = true := by
      simpa [escalatesAt] using escalates
    rw [last, Bool.true_and, if_pos rfl]
    cases kept : keeps final with
    | false =>
      simp only [Bool.false_eq_true, if_false, and_false, iff_false]
      omega
    | true =>
      simp only [if_true, and_true]
      constructor
      · rintro ⟨one, _⟩
        have none := earlier.mp (by omega)
        refine ⟨escalates.1, escalates.2, ?_⟩
        rcases none with unnamed | first | below
        · exact absurd unnamed escalates.1
        · omega
        · omega
      · rintro ⟨_, _, alone⟩
        have none := earlier.mpr (by omega)
        omega
  · have last : escalatesAt taskId (errors + final) = false := by
      simpa [escalatesAt] using escalates
    have none := earlier.mpr (by
      by_cases named : taskId = ""
      · exact .inl named
      · have below := not_and.mp escalates named
        omega)
    rw [last, Bool.false_and, if_neg Bool.false_ne_true, none]
    constructor
    · rintro ⟨one, _⟩
      omega
    · rintro ⟨named, reached, _⟩
      exact absurd ⟨named, reached⟩ escalates

private theorem EndsAt.eq_of_passesAt {final cycle : Nat} {passed : Bool}
    (ends : EndsAt taskId errors maxIterations runs keeps 1 final passed first second)
    (passes : PassesAt maxIterations errors runs cycle) : cycle = final := by
  rcases Nat.lt_trichotomy cycle final with earlier | same | after
  · have fails := (ends.before cycle passes.within.1 earlier).1
    rw [passes.passes] at fails
    cases fails
  · exact same
  · obtain ⟨fails, below⟩ := passes.fails final ends.later after
    cases passed with
    | true =>
      rw [ends.outcome] at fails
      cases fails
    | false =>
      have reached := ends.limit rfl
      omega

private theorem EndsAt.escalatesOnce_iff_of_passed {final : Nat}
    (ends : EndsAt taskId errors maxIterations runs keeps 1 final true first second)
    (within : final ≤ maxIterations) :
    EscalatesOnce maxIterations errors runs true first second ↔
      LimitsAgree taskId maxIterations errors runs keeps := by
  have inTime : PassesAt maxIterations errors runs final :=
    ⟨⟨ends.later, within⟩, ends.outcome, ends.before⟩
  have escalated := ends.adds.escalations_eq
  rw [if_pos rfl, List.append_nil] at escalated
  have quiet := countP_escalatesAt_eq_zero_iff taskId errors (final - 1)
  have first : final - 1 = 0 ↔ final = 1 := by
    have positive := ends.later
    omega
  have below : errors + (final - 1) < defaultMaxIterations ↔
      errors + final ≤ defaultMaxIterations := by
    have positive := ends.later
    omega
  rw [← escalated, first, below] at quiet
  constructor
  · rintro ⟨_, passing, _⟩
    refine ⟨fun cycle passes => ?_, fun none => absurd ⟨final, inTime⟩ none⟩
    rw [ends.eq_of_passesAt passes]
    exact quiet.mp (passing ⟨final, inTime⟩).2
  · rintro ⟨agree, _⟩
    have tests := ends.tests
    exact ⟨by omega, fun _ => ⟨rfl, quiet.mpr (agree final inTime)⟩,
      fun none => absurd ⟨final, inTime⟩ none⟩

private theorem EndsAt.escalatesOnce_iff_of_failed {final : Nat}
    (ends : EndsAt taskId errors maxIterations runs keeps 1 final false first second)
    (within : final ≤ maxIterations) :
    EscalatesOnce maxIterations errors runs false first second ↔
      LimitsAgree taskId maxIterations errors runs keeps := by
  have reached := ends.limit rfl
  have positive := ends.later
  have never : ¬ ∃ cycle, PassesAt maxIterations errors runs cycle := by
    rintro ⟨cycle, passes⟩
    have outcome := ends.outcome
    rw [← ends.eq_of_passesAt passes, passes.passes] at outcome
    cases outcome
  have only : final = 1 ∨ errors + (final - 1) < maxIterations := by
    rcases Nat.eq_or_lt_of_le positive with same | more
    · exact .inl same.symm
    · exact .inr (ends.before (final - 1) (by omega) (by omega)).2
  have isFinal : givesUpAt maxIterations errors = final := by
    rw [givesUpAt]
    omega
  have escalated := ends.adds.escalations_eq
  have recorded := ends.adds.lessons_eq
  rw [if_neg Bool.false_ne_true] at escalated recorded
  have once := countP_escalatesAt_eq_one_iff taskId errors keeps positive
  rw [← escalated, ← recorded] at once
  constructor
  · rintro ⟨_, _, gaveUp⟩
    refine ⟨fun cycle passes => absurd ⟨cycle, passes⟩ never, fun _ => ?_⟩
    obtain ⟨named, atLeast, alone, kept⟩ := once.mp (gaveUp never).2
    exact ⟨named, by omega, isFinal ▸ kept⟩
  · rintro ⟨_, agree⟩
    obtain ⟨named, limits, kept⟩ := agree never
    rw [isFinal] at kept
    have tests := ends.tests
    exact ⟨by omega, fun some => absurd some never,
      fun _ => ⟨rfl, once.mpr ⟨named, by omega, by omega, kept⟩⟩⟩

end Cycles

/-- A run of the loop ends, and escalates as it should exactly where the two limits agree. -/
theorem runAutonomous_iff (stamps : Nat → Stamp) (searchesText : Bool) (world : World)
    (taskId code : String) (maxIterations : Nat) (runs : Nat → TestRun) (keeps : Nat → Bool)
    (given : code ≠ "") (positive : 1 ≤ maxIterations) :
    ∃ passed result after,
      runAutonomous stamps searchesText taskId code maxIterations defaultChannel runs keeps
        world = .ok ((passed, result), after) ∧
      (EscalatesOnce maxIterations (countIterations world.bus taskId) runs passed world after ↔
        LimitsAgree taskId maxIterations (countIterations world.bus taskId) runs keeps) := by
  obtain ⟨final, passed, result, after, within, ended, ends⟩ :=
    cycles_endsAt stamps searchesText taskId code runs keeps maxIterations 1 none world rfl
      (by omega : maxIterations < countIterations world.bus taskId + 1 + maxIterations) positive
  refine ⟨passed, result, after, ?_, ?_⟩
  · rw [runAutonomous, if_neg given]
    exact ended
  · cases passed with
    | true => exact ends.escalatesOnce_iff_of_passed (by omega)
    | false => exact ends.escalatesOnce_iff_of_failed (by omega)

def sampleStamps (count : Nat) : Stamp where
  id := s!"message-{count}"
  threadId := s!"thread-{count}"
  createdAt := "2026-01-01T00:00:00+00:00"

def sampleWorld : World := { bus := .empty, lessons := [], tests := 0 }

def sampleFailure : TestRun :=
  .returned { success := false, output := "", error := "AssertionError", executionTime := "0.10" }

/-- Three cycles that fail alike, with the default channel. -/
theorem runAutonomous_iff_sample :
    ∃ passed result after,
      runAutonomous sampleStamps true "abc123" "def test_foo(): assert 1 == 2" 3 defaultChannel
        (fun _ => sampleFailure) (fun _ => true) sampleWorld = .ok ((passed, result), after) ∧
      (EscalatesOnce 3 0 (fun _ => sampleFailure) passed sampleWorld after ↔
        LimitsAgree "abc123" 3 0 (fun _ => sampleFailure) fun _ => true) :=
  runAutonomous_iff sampleStamps true sampleWorld "abc123" "def test_foo(): assert 1 == 2" 3
    (fun _ => sampleFailure) (fun _ => true) (by decide) (by decide)

/-- A run of three failing cycles gives up and escalates nothing. -/
theorem not_escalatesOnce_sample :
    ∃ result after,
      runAutonomous sampleStamps true "abc123" "def test_foo(): assert 1 == 2" 3 defaultChannel
        (fun _ => sampleFailure) (fun _ => true) sampleWorld = .ok ((false, result), after) ∧
      ¬ EscalatesOnce 3 0 (fun _ => sampleFailure) false sampleWorld after := by
  have counted : countIterations sampleWorld.bus "abc123" + 1 = 0 + 1 := rfl
  obtain ⟨final, passed, result, after, within, ended, ends⟩ :=
    cycles_endsAt sampleStamps true "abc123" "def test_foo(): assert 1 == 2"
      (fun _ => sampleFailure) (fun _ => true) 3 1 none sampleWorld counted
      (by decide : 3 < 0 + 1 + 3) (by decide)
  have failed : passed = false := ends.outcome.symm
  subst failed
  have last : final = 3 := by
    have reached := ends.limit rfl
    omega
  have quiet := ends.adds.escalations_eq
  rw [last] at quiet
  refine ⟨result, after, ?_, ?_⟩
  · rw [runAutonomous, if_neg (by decide)]
    exact ended
  · rintro ⟨_, _, gaveUp⟩
    have never : ¬ ∃ cycle, PassesAt 3 0 (fun _ => sampleFailure) cycle := by
      rintro ⟨cycle, passes⟩
      cases passes.passes
    rw [quiet] at gaveUp
    exact absurd (gaveUp never).2.1 (by decide)

end Swarmind.Orchestrator.SandboxLoop
