import Swarmind.ReverseEngineering.EvidenceLedger

/-!
Owns the memory of an investigation: its operations, its dictionary and `state.json`. The
file is the document it holds. The fields that the reader takes over unchecked hold any
value; the Markdown files are written after `state.json` and never read.
-/

namespace Swarmind.ReverseEngineering

open Swarmind.Library

/-! ### State -/

inductive StepStatus where
  | todo
  | doing
  | done
  | blocked
deriving DecidableEq, Repr

def StepStatus.enum : StrEnum StepStatus where
  className := "StepStatus"
  members := [.todo, .doing, .done, .blocked]
  value
    | .todo => "todo"
    | .doing => "doing"
    | .done => "done"
    | .blocked => "blocked"

inductive HypothesisStatus where
  | testing
  | supported
  | refuted
  | abandoned
deriving DecidableEq, Repr

def HypothesisStatus.enum : StrEnum HypothesisStatus where
  className := "HypothesisStatus"
  members := [.testing, .supported, .refuted, .abandoned]
  value
    | .testing => "testing"
    | .supported => "supported"
    | .refuted => "refuted"
    | .abandoned => "abandoned"

inductive UnknownStatus where
  | isOpen
  | investigating
  | resolved
  | abandoned
deriving DecidableEq, Repr

def UnknownStatus.enum : StrEnum UnknownStatus where
  className := "UnknownStatus"
  members := [.isOpen, .investigating, .resolved, .abandoned]
  value
    | .isOpen => "open"
    | .investigating => "investigating"
    | .resolved => "resolved"
    | .abandoned => "abandoned"

inductive Severity where
  | high
  | medium
  | low
deriving DecidableEq, Repr

def Severity.enum : StrEnum Severity where
  className := "Severity"
  members := [.high, .medium, .low]
  value
    | .high => "high"
    | .medium => "medium"
    | .low => "low"

structure Brief where
  question : String
  purpose : PyValue := .none
  targets : List String := []
  constraints : List String := []
  doneWhen : PyValue := .none

structure PlanStep where
  title : String
  status : StepStatus := .todo
  why : PyValue := .none

structure Hypothesis where
  id : String
  claim : String
  status : HypothesisStatus := .testing
  prediction : PyValue := .none
  supporting : List String := []
  contradicting : List String := []
  notes : List String := []

structure Finding where
  id : String
  statement : String
  evidenceIds : List String
  confidence : String := "observed"

structure Unknown where
  id : String
  question : String
  domain : String
  severity : Severity := .medium
  status : UnknownStatus := .isOpen
  probes : List String := []
  evidenceFor : List String := []
  evidenceAgainst : List String := []
  resolution : PyValue := .none

structure Investigation where
  revision : Int := 0
  updated : PyValue := .none
  brief : Option Brief := none
  plan : List PlanStep := []
  hypotheses : List Hypothesis := []
  findings : List Finding := []
  unknowns : List Unknown := []
  handoff : PyValue := .none

/-! ### Operations -/

def investigationError (message : String) : PyException := ⟨"InvestigationError", message⟩

def staleRevision (revision expected : Int) : PyException :=
  ⟨"StaleRevision", s!"WHAT: la investigación está en revisión {revision}, no {expected} " ++
    "WHY: otra actualización ocurrió entre lectura y escritura " ++
    "WHERE: Investigation.check_revision (relee y reintenta)"⟩

def unknownEvidence (missing : List String) : PyException :=
  ⟨"UnknownEvidence", s!"WHAT: evidencia desconocida {(PyValue.list (missing.map .str)).repr} " ++
    "WHY: solo se citan ids devueltos por una observación WHERE: investigation._check_ids"⟩

def checkIds (ledger : EvidenceLedger) (ids : List String) : Except PyException Unit :=
  let missing := ids.filter fun id => (ledger.get? id).isNone
  if missing = [] then .ok () else .error (unknownEvidence missing)

/-- The sixteen digits of an id, from the canonical text of its seed. -/
def shortId (hash : String → String) (kind : String) (seed : List (String × PyValue)) :
    Except PyException String :=
  (canonicalJson (.record seed)).map fun text =>
    kind ++ String.ofList ((hash text).toList.take 16)

def Unknown.new (hash : String → String) (question domain : String)
    (severity : Severity := .medium) : Except PyException Unknown := do
  let id ← shortId hash "unk_" [("question", .str question), ("domain", .str domain)]
  return { id := id, question := question, domain := domain, severity := severity }

namespace Investigation

variable (hash : String → String)

def checkRevision (investigation : Investigation) : Option Int → Except PyException Unit
  | none => .ok ()
  | some expected =>
    if expected ≠ investigation.revision then
      .error (staleRevision investigation.revision expected)
    else .ok ()

def setBrief (investigation : Investigation) (brief : Brief) (basedOnRevision : Option Int) :
    Except PyException Investigation := do
  investigation.checkRevision basedOnRevision
  if isBlank brief.question then
    .error (investigationError "WHAT: brief sin pregunta WHY: sin pregunta no hay investigación")
  else return { investigation with brief := some brief }

def setPlan (investigation : Investigation) (steps : List PlanStep)
    (basedOnRevision : Option Int) : Except PyException Investigation := do
  investigation.checkRevision basedOnRevision
  return { investigation with plan := steps }

def hypothesisId (claim : String) : Except PyException String :=
  shortId hash "hyp_" [("claim", .str claim)]

def addHypothesis (investigation : Investigation) (claim : String) (ledger : EvidenceLedger)
    (prediction : PyValue) (supporting contradicting : List String)
    (basedOnRevision : Option Int) : Except PyException (String × Investigation) := do
  investigation.checkRevision basedOnRevision
  checkIds ledger (supporting ++ contradicting)
  let id ← hypothesisId hash claim
  let hypothesis : Hypothesis := {
    id := id
    claim := claim
    prediction := prediction
    supporting := supporting
    contradicting := contradicting }
  return (id, { investigation with hypotheses := investigation.hypotheses ++ [hypothesis] })

/-- The loops over items: the first one that `found` selects is changed. -/
def updateFirst {α : Type} (found : α → Bool) (change : α → α) : List α → Option (List α)
  | [] => none
  | item :: rest =>
    if found item then some (change item :: rest)
    else (updateFirst found change rest).map fun later => item :: later

def updateHypothesis (investigation : Investigation) (id : String) (status : HypothesisStatus)
    (basedOnRevision : Option Int) (notes : List String) :
    Except PyException Investigation := do
  investigation.checkRevision basedOnRevision
  match updateFirst (fun hypothesis : Hypothesis => hypothesis.id = id)
      (fun hypothesis => { hypothesis with status := status, notes := hypothesis.notes ++ notes })
      investigation.hypotheses with
  | some hypotheses => return { investigation with hypotheses := hypotheses }
  | none => .error (investigationError s!"WHAT: hipótesis {pyRepr id} inexistente")

def addFinding (investigation : Investigation) (statement : String) (evidenceIds : List String)
    (ledger : EvidenceLedger) (confidence : String) (basedOnRevision : Option Int) :
    Except PyException (String × Investigation) := do
  investigation.checkRevision basedOnRevision
  if isBlank statement ∨ evidenceIds = [] then
    .error (investigationError ("WHAT: hallazgo sin statement o sin evidencia " ++
      "WHY: un hallazgo sin prueba no es un hallazgo"))
  else do
    checkIds ledger evidenceIds
    let id ← shortId hash "fnd_" [("statement", .str statement)]
    let finding : Finding := {
      id := id
      statement := statement
      evidenceIds := evidenceIds
      confidence := confidence }
    return (id, { investigation with findings := investigation.findings ++ [finding] })

def addUnknown (investigation : Investigation) (unknown : Unknown)
    (basedOnRevision : Option Int) : Except PyException (String × Investigation) := do
  investigation.checkRevision basedOnRevision
  return (unknown.id, { investigation with unknowns := investigation.unknowns ++ [unknown] })

def resolveUnknown (investigation : Investigation) (id resolution : String)
    (evidenceFor : List String) (ledger : EvidenceLedger) (basedOnRevision : Option Int) :
    Except PyException Investigation := do
  investigation.checkRevision basedOnRevision
  if isBlank resolution ∨ evidenceFor = [] then
    .error (investigationError ("WHAT: unknown resuelto sin resolución o sin evidencia " ++
      "WHY: la ausencia de evidencia no es prueba"))
  else do
    checkIds ledger evidenceFor
    match updateFirst (fun unknown : Unknown => unknown.id = id)
        (fun unknown => { unknown with
          status := .resolved, resolution := .str resolution, evidenceFor := evidenceFor })
        investigation.unknowns with
    | some unknowns => return { investigation with unknowns := unknowns }
    | none => .error (investigationError s!"WHAT: unknown {pyRepr id} inexistente")

def setHandoff (investigation : Investigation) (note : String) (basedOnRevision : Option Int) :
    Except PyException Investigation := do
  investigation.checkRevision basedOnRevision
  return { investigation with handoff := .str note }

end Investigation

/-- A call of an operation, but for the ledger and the revision it is based on. -/
inductive Operation where
  | setBrief (brief : Brief)
  | setPlan (steps : List PlanStep)
  | addHypothesis (claim : String) (prediction : PyValue) (supporting contradicting : List String)
  | updateHypothesis (id : String) (status : HypothesisStatus) (notes : List String)
  | addFinding (statement : String) (evidenceIds : List String) (confidence : String)
  | addUnknown (unknown : Unknown)
  | resolveUnknown (id resolution : String) (evidenceFor : List String)
  | setHandoff (note : String)

/-- What an operation returns and leaves behind. -/
def Operation.apply (hash : String → String) (ledger : EvidenceLedger)
    (investigation : Investigation) (basedOnRevision : Option Int) :
    Operation → Except PyException (Option String × Investigation)
  | .setBrief brief =>
    (investigation.setBrief brief basedOnRevision).map fun next => (none, next)
  | .setPlan steps => (investigation.setPlan steps basedOnRevision).map fun next => (none, next)
  | .addHypothesis claim prediction supporting contradicting =>
    (investigation.addHypothesis hash claim ledger prediction supporting contradicting
      basedOnRevision).map fun added => (some added.1, added.2)
  | .updateHypothesis id status notes =>
    (investigation.updateHypothesis id status basedOnRevision notes).map fun next => (none, next)
  | .addFinding statement evidenceIds confidence =>
    (investigation.addFinding hash statement evidenceIds ledger confidence
      basedOnRevision).map fun added => (some added.1, added.2)
  | .addUnknown unknown =>
    (investigation.addUnknown unknown basedOnRevision).map fun added => (some added.1, added.2)
  | .resolveUnknown id resolution evidenceFor =>
    (investigation.resolveUnknown id resolution evidenceFor ledger basedOnRevision).map
      fun next => (none, next)
  | .setHandoff note =>
    (investigation.setHandoff note basedOnRevision).map fun next => (none, next)

/-! ### Writing -/

def textList (texts : List String) : PyValue := .list (texts.map .str)

def briefDict (brief : Brief) : List (String × PyValue) :=
  [("question", .str brief.question), ("purpose", brief.purpose),
    ("targets", textList brief.targets), ("constraints", textList brief.constraints),
    ("done_when", brief.doneWhen)]

def planDict (step : PlanStep) : List (String × PyValue) :=
  [("title", .str step.title), ("status", .str (StepStatus.enum.value step.status)),
    ("why", step.why)]

def hypothesisDict (item : Hypothesis) : List (String × PyValue) :=
  [("id", .str item.id), ("claim", .str item.claim),
    ("status", .str (HypothesisStatus.enum.value item.status)), ("prediction", item.prediction),
    ("supporting", textList item.supporting), ("contradicting", textList item.contradicting),
    ("notes", textList item.notes)]

def findingDict (item : Finding) : List (String × PyValue) :=
  [("id", .str item.id), ("statement", .str item.statement),
    ("evidence_ids", textList item.evidenceIds), ("confidence", .str item.confidence)]

def unknownDict (item : Unknown) : List (String × PyValue) :=
  [("id", .str item.id), ("question", .str item.question), ("domain", .str item.domain),
    ("severity", .str (Severity.enum.value item.severity)),
    ("status", .str (UnknownStatus.enum.value item.status)), ("probes", textList item.probes),
    ("evidence_for", textList item.evidenceFor),
    ("evidence_against", textList item.evidenceAgainst), ("resolution", item.resolution)]

def Investigation.toDict (investigation : Investigation) : List (String × PyValue) :=
  [("revision", .int investigation.revision),
    ("updated", investigation.updated),
    ("brief", match investigation.brief with
      | none => .none
      | some brief => .record (briefDict brief)),
    ("plan", .list (investigation.plan.map fun step => .record (planDict step))),
    ("hypotheses",
      .list (investigation.hypotheses.map fun item => .record (hypothesisDict item))),
    ("findings", .list (investigation.findings.map fun item => .record (findingDict item))),
    ("unknowns", .list (investigation.unknowns.map fun item => .record (unknownDict item))),
    ("handoff", investigation.handoff)]

/-! ### Reading -/

/-- `[str(item) for item in data.get(name, [])]`. -/
def getTexts (data : PyValue) (name : String) : Except PyException (List String) := do
  let items ← data.get name (.list [])
  readTexts items

def getItems {α : Type} (read : PyValue → Except PyException α) (data : PyValue) (name : String) :
    Except PyException (List α) := do
  let items ← data.get name (.list [])
  readItems read items

/-- `Class(data.get(name, default))`. -/
def getEnum {α : Type} (enum : StrEnum α) (data : PyValue) (name default : String) :
    Except PyException α := do
  let value ← data.get name (.str default)
  enum.ofValue value

def briefFrom (data : PyValue) : Except PyException Brief := do
  let question ← data.item "question"
  let purpose ← data.get "purpose" .none
  let targets ← getTexts data "targets"
  let constraints ← getTexts data "constraints"
  let doneWhen ← data.get "done_when" .none
  return {
    question := question.text
    purpose := purpose
    targets := targets
    constraints := constraints
    doneWhen := doneWhen }

def planFrom (data : PyValue) : Except PyException PlanStep := do
  let title ← data.item "title"
  let status ← getEnum StepStatus.enum data "status" "todo"
  let why ← data.get "why" .none
  return { title := title.text, status := status, why := why }

def hypothesisFrom (data : PyValue) : Except PyException Hypothesis := do
  let id ← data.item "id"
  let claim ← data.item "claim"
  let status ← getEnum HypothesisStatus.enum data "status" "testing"
  let prediction ← data.get "prediction" .none
  let supporting ← getTexts data "supporting"
  let contradicting ← getTexts data "contradicting"
  let notes ← getTexts data "notes"
  return {
    id := id.text
    claim := claim.text
    status := status
    prediction := prediction
    supporting := supporting
    contradicting := contradicting
    notes := notes }

def findingFrom (data : PyValue) : Except PyException Finding := do
  let id ← data.item "id"
  let statement ← data.item "statement"
  let evidenceIds ← getTexts data "evidence_ids"
  let confidence ← data.get "confidence" (.str "observed")
  return {
    id := id.text
    statement := statement.text
    evidenceIds := evidenceIds
    confidence := confidence.text }

def unknownFrom (data : PyValue) : Except PyException Unknown := do
  let id ← data.item "id"
  let question ← data.item "question"
  let domain ← data.item "domain"
  let severity ← getEnum Severity.enum data "severity" "medium"
  let status ← getEnum UnknownStatus.enum data "status" "open"
  let probes ← getTexts data "probes"
  let evidenceFor ← getTexts data "evidence_for"
  let evidenceAgainst ← getTexts data "evidence_against"
  let resolution ← data.get "resolution" .none
  return {
    id := id.text
    question := question.text
    domain := domain.text
    severity := severity
    status := status
    probes := probes
    evidenceFor := evidenceFor
    evidenceAgainst := evidenceAgainst
    resolution := resolution }

def optionalBriefFrom : PyValue → Except PyException (Option Brief)
  | .none => .ok none
  | data => (briefFrom data).map some

def Investigation.fromDict (data : PyValue) : Except PyException Investigation := do
  let briefData ← data.get "brief" .none
  let revision ← data.get "revision" (.int 0)
  let revision ← revision.toInt
  let updated ← data.get "updated" .none
  let brief ← optionalBriefFrom briefData
  let plan ← getItems planFrom data "plan"
  let hypotheses ← getItems hypothesisFrom data "hypotheses"
  let findings ← getItems findingFrom data "findings"
  let unknowns ← getItems unknownFrom data "unknowns"
  let handoff ← data.get "handoff" .none
  return {
    revision := revision
    updated := updated
    brief := brief
    plan := plan
    hypotheses := hypotheses
    findings := findings
    unknowns := unknowns
    handoff := handoff }

/-! ### `state.json` -/

namespace Investigation

/-- What the file system raises in `save`: for the directory, before `state.json` is
replaced, or for a Markdown file after it. -/
inductive Fault where
  | directory (raised : PyException)
  | state (raised : PyException)
  | markdown (raised : PyException)

/-- The document of `state.json`; `none` is the `TypeError` of `json.dumps`. -/
def document (investigation : Investigation) : Option Json :=
  (PyValue.record investigation.toDict).dumps.map (Json.sortBy EvidenceLedger.codePoints)

/-- `save` at the time `now` over a file: what it raises, the investigation and the file. -/
def save (investigation : Investigation) (now : String) (file : Option Json) :
    Option Fault → Except PyException Unit × Investigation × Option Json
  | some (.directory raised) => (.error raised, investigation, file)
  | fault =>
    let next := { investigation with
      revision := investigation.revision + 1, updated := .str now }
    match next.document, fault with
    | none, _ => (.error .notSerializable, next, file)
    | some _, some (.state raised) => (.error raised, next, file)
    | some json, some (.markdown raised) => (.error raised, next, some json)
    | some json, _ => (.ok (), next, some json)

def load : Option Json → Except PyException Investigation
  | none => .ok {}
  | some json => fromDict json.loads

end Investigation

/-! ### Reading back -/

section Members

variable {members : List (String × PyValue)} {data : PyValue}

private theorem getTexts_same (same : (PyValue.record members).Same data) (name : String)
    {texts : List String} (has : Dict.find name members = some (textList texts)) :
    getTexts data name = .ok texts := by
  obtain ⟨items, got, itemsSame⟩ := same.get name (textList texts) (.list .nil) (by rw [has]; rfl)
  rw [getTexts, got]
  exact readTexts_same itemsSame

private theorem getItems_same {α : Type} {write : α → PyValue}
    {read : PyValue → Except PyException α}
    {related : α → α → Prop}
    (each : ∀ item data, (write item).Same data → ∃ back, read data = .ok back ∧ related item back)
    (same : (PyValue.record members).Same data) (name : String) {items : List α}
    (has : Dict.find name members = some (.list (items.map write))) :
    ∃ backs, getItems read data name = .ok backs ∧ List.Forall₂ related items backs := by
  obtain ⟨others, got, itemsSame⟩ :=
    same.get name (.list (items.map write)) (.list .nil) (by rw [has]; rfl)
  obtain ⟨backs, went, areRelated⟩ := readItems_same each itemsSame
  exact ⟨backs, by rw [getItems, got]; exact went, areRelated⟩

private theorem getEnum_same {α : Type} {enum : StrEnum α} (lawful : enum.Lawful)
    (same : (PyValue.record members).Same data) (name default : String) (member : α)
    (has : Dict.find name members = some (.str (enum.value member))) :
    getEnum enum data name default = .ok member := by
  obtain ⟨value, got, valueSame⟩ :=
    same.get name (.str (enum.value member)) (.str default) (by rw [has]; rfl)
  rw [valueSame.eq_str] at got
  rw [getEnum, got]
  exact lawful.ofValue_value member

end Members

private theorem StepStatus.lawful : StepStatus.enum.Lawful where
  all := fun member => by cases member <;> decide
  distinct := by decide

private theorem HypothesisStatus.lawful : HypothesisStatus.enum.Lawful where
  all := fun member => by cases member <;> decide
  distinct := by decide

private theorem UnknownStatus.lawful : UnknownStatus.enum.Lawful where
  all := fun member => by cases member <;> decide
  distinct := by decide

private theorem Severity.lawful : Severity.enum.Lawful where
  all := fun member => by cases member <;> decide
  distinct := by decide

/-- Items that differ in the order of keys of their unchecked fields only. -/
def Brief.Same (brief back : Brief) : Prop :=
  back = { brief with purpose := back.purpose, doneWhen := back.doneWhen } ∧
    brief.purpose.Same back.purpose ∧ brief.doneWhen.Same back.doneWhen

def PlanStep.Same (step back : PlanStep) : Prop :=
  back = { step with why := back.why } ∧ step.why.Same back.why

def Hypothesis.Same (item back : Hypothesis) : Prop :=
  back = { item with prediction := back.prediction } ∧ item.prediction.Same back.prediction

def Unknown.Same (item back : Unknown) : Prop :=
  back = { item with resolution := back.resolution } ∧ item.resolution.Same back.resolution

structure Investigation.Same (investigation back : Investigation) : Prop where
  revision : back.revision = investigation.revision
  updated : investigation.updated.Same back.updated
  brief : Option.Rel Brief.Same investigation.brief back.brief
  plan : List.Forall₂ PlanStep.Same investigation.plan back.plan
  hypotheses : List.Forall₂ Hypothesis.Same investigation.hypotheses back.hypotheses
  findings : back.findings = investigation.findings
  unknowns : List.Forall₂ Unknown.Same investigation.unknowns back.unknowns
  handoff : investigation.handoff.Same back.handoff

private theorem briefFrom_same (brief : Brief) {data : PyValue}
    (same : (PyValue.record (briefDict brief)).Same data) :
    ∃ back, briefFrom data = .ok back ∧ brief.Same back := by
  obtain ⟨question, questionRead, questionSame⟩ := same.item "question" (.str brief.question) rfl
  obtain ⟨purpose, purposeRead, purposeSame⟩ := same.get "purpose" brief.purpose .none rfl
  obtain ⟨doneWhen, doneRead, doneSame⟩ := same.get "done_when" brief.doneWhen .none rfl
  have targets := getTexts_same same "targets" rfl
  have constraints := getTexts_same same "constraints" rfl
  rw [questionSame.eq_str] at questionRead
  refine ⟨{ brief with purpose := purpose, doneWhen := doneWhen }, ?_, rfl, purposeSame, doneSame⟩
  rw [briefFrom, questionRead, purposeRead, targets, constraints, doneRead]
  rfl

private theorem planFrom_same (step : PlanStep) (data : PyValue)
    (same : (PyValue.record (planDict step)).Same data) :
    ∃ back, planFrom data = .ok back ∧ step.Same back := by
  obtain ⟨title, titleRead, titleSame⟩ := same.item "title" (.str step.title) rfl
  obtain ⟨why, whyRead, whySame⟩ := same.get "why" step.why .none rfl
  have status := getEnum_same StepStatus.lawful same "status"
    "todo" step.status rfl
  rw [titleSame.eq_str] at titleRead
  refine ⟨{ step with why := why }, ?_, rfl, whySame⟩
  rw [planFrom, titleRead, status, whyRead]
  rfl

private theorem hypothesisFrom_same (item : Hypothesis) (data : PyValue)
    (same : (PyValue.record (hypothesisDict item)).Same data) :
    ∃ back, hypothesisFrom data = .ok back ∧ item.Same back := by
  obtain ⟨id, idRead, idSame⟩ := same.item "id" (.str item.id) rfl
  obtain ⟨claim, claimRead, claimSame⟩ := same.item "claim" (.str item.claim) rfl
  obtain ⟨prediction, predictionRead, predictionSame⟩ :=
    same.get "prediction" item.prediction .none rfl
  have status := getEnum_same HypothesisStatus.lawful same
    "status" "testing" item.status rfl
  have supporting := getTexts_same same "supporting" rfl
  have contradicting := getTexts_same same "contradicting" rfl
  have notes := getTexts_same same "notes" rfl
  rw [idSame.eq_str] at idRead
  rw [claimSame.eq_str] at claimRead
  refine ⟨{ item with prediction := prediction }, ?_, rfl, predictionSame⟩
  rw [hypothesisFrom, idRead, claimRead, status, predictionRead, supporting, contradicting, notes]
  rfl

private theorem findingFrom_same (item : Finding) (data : PyValue)
    (same : (PyValue.record (findingDict item)).Same data) :
    ∃ back, findingFrom data = .ok back ∧ item = back := by
  obtain ⟨id, idRead, idSame⟩ := same.item "id" (.str item.id) rfl
  obtain ⟨statement, statementRead, statementSame⟩ :=
    same.item "statement" (.str item.statement) rfl
  obtain ⟨confidence, confidenceRead, confidenceSame⟩ :=
    same.get "confidence" (.str item.confidence) (.str "observed") rfl
  have evidenceIds := getTexts_same same "evidence_ids" rfl
  rw [idSame.eq_str] at idRead
  rw [statementSame.eq_str] at statementRead
  rw [confidenceSame.eq_str] at confidenceRead
  refine ⟨item, ?_, rfl⟩
  rw [findingFrom, idRead, statementRead, evidenceIds, confidenceRead]
  rfl

private theorem unknownFrom_same (item : Unknown) (data : PyValue)
    (same : (PyValue.record (unknownDict item)).Same data) :
    ∃ back, unknownFrom data = .ok back ∧ item.Same back := by
  obtain ⟨id, idRead, idSame⟩ := same.item "id" (.str item.id) rfl
  obtain ⟨question, questionRead, questionSame⟩ := same.item "question" (.str item.question) rfl
  obtain ⟨domain, domainRead, domainSame⟩ := same.item "domain" (.str item.domain) rfl
  obtain ⟨resolution, resolutionRead, resolutionSame⟩ :=
    same.get "resolution" item.resolution .none rfl
  have severity := getEnum_same Severity.lawful same "severity"
    "medium" item.severity rfl
  have status := getEnum_same UnknownStatus.lawful same
    "status" "open" item.status rfl
  have probes := getTexts_same same "probes" rfl
  have evidenceFor := getTexts_same same "evidence_for" rfl
  have evidenceAgainst := getTexts_same same "evidence_against" rfl
  rw [idSame.eq_str] at idRead
  rw [questionSame.eq_str] at questionRead
  rw [domainSame.eq_str] at domainRead
  refine ⟨{ item with resolution := resolution }, ?_, rfl, resolutionSame⟩
  rw [unknownFrom, idRead, questionRead, domainRead, severity, status, probes, evidenceFor,
    evidenceAgainst, resolutionRead]
  rfl

private theorem optionalBriefFrom_same (brief : Option Brief) {data : PyValue}
    (same : (match brief with
      | none => PyValue.none
      | some brief => .record (briefDict brief)).Same data) :
    ∃ back, optionalBriefFrom data = .ok back ∧ Option.Rel Brief.Same brief back := by
  cases brief with
  | none => exact ⟨none, by rw [same.eq_none]; rfl, .none⟩
  | some brief =>
    obtain ⟨back, read, isBack⟩ := briefFrom_same brief same
    obtain ⟨others, rfl, _⟩ := same.find
    exact ⟨some back, by rw [optionalBriefFrom, read]; rfl; exact PyValue.noConfusion,
      .some isBack⟩

namespace Investigation

private theorem fromDict_same {investigation : Investigation} {data : PyValue}
    (same : (PyValue.record investigation.toDict).Same data) :
    ∃ back, fromDict data = .ok back ∧ investigation.Same back := by
  obtain ⟨briefData, briefRead, briefSame⟩ := same.get "brief" _ .none rfl
  obtain ⟨revision, revisionRead, revisionSame⟩ :=
    same.get "revision" (.int investigation.revision) (.int 0) rfl
  obtain ⟨updated, updatedRead, updatedSame⟩ := same.get "updated" investigation.updated .none rfl
  obtain ⟨handoff, handoffRead, handoffSame⟩ := same.get "handoff" investigation.handoff .none rfl
  obtain ⟨brief, briefBack, briefRelated⟩ := optionalBriefFrom_same investigation.brief briefSame
  obtain ⟨plan, planBack, planRelated⟩ := getItems_same planFrom_same same "plan" rfl
  obtain ⟨hypotheses, hypothesesBack, hypothesesRelated⟩ :=
    getItems_same hypothesisFrom_same same "hypotheses" rfl
  obtain ⟨findings, findingsBack, findingsRelated⟩ :=
    getItems_same findingFrom_same same "findings" rfl
  obtain ⟨unknowns, unknownsBack, unknownsRelated⟩ :=
    getItems_same unknownFrom_same same "unknowns" rfl
  rw [revisionSame.eq_int] at revisionRead
  rw [List.forall₂_eq_eq_eq] at findingsRelated
  refine ⟨{
    revision := investigation.revision
    updated := updated
    brief := brief
    plan := plan
    hypotheses := hypotheses
    findings := findings
    unknowns := unknowns
    handoff := handoff }, ?_, {
    revision := rfl
    updated := updatedSame
    brief := briefRelated
    plan := planRelated
    hypotheses := hypothesesRelated
    findings := findingsRelated.symm
    unknowns := unknownsRelated
    handoff := handoffSame }⟩
  rw [fromDict, briefRead, revisionRead, updatedRead, handoffRead]
  simp only [bind, Except.bind, PyValue.toInt, briefBack, planBack, hypothesesBack, findingsBack,
    unknownsBack, pure, Except.pure]

end Investigation

/-! ### Declared types -/

/-- A value of the declared type `str | None`. -/
def OptionalText (value : PyValue) : Prop := value = .none ∨ ∃ text, value = .str text

private theorem OptionalText.isJson {value : PyValue} (optionalText : OptionalText value) :
    value.IsJson := by
  obtain rfl | ⟨text, rfl⟩ := optionalText
  · exact .none
  · exact .str text

private theorem OptionalText.eq_of_same {value back : PyValue} (optionalText : OptionalText value)
    (same : value.Same back) : back = value := by
  obtain rfl | ⟨text, rfl⟩ := optionalText
  · exact same.eq_none
  · exact same.eq_str

def Brief.Declared (brief : Brief) : Prop :=
  OptionalText brief.purpose ∧ OptionalText brief.doneWhen

def PlanStep.Declared (step : PlanStep) : Prop := OptionalText step.why

def Hypothesis.Declared (item : Hypothesis) : Prop := OptionalText item.prediction

def Unknown.Declared (item : Unknown) : Prop := OptionalText item.resolution

/-- The unchecked fields have their declared types. -/
structure Investigation.Declared (investigation : Investigation) : Prop where
  updated : OptionalText investigation.updated
  brief : ∀ brief, investigation.brief = some brief → brief.Declared
  plan : ∀ step ∈ investigation.plan, step.Declared
  hypotheses : ∀ item ∈ investigation.hypotheses, item.Declared
  unknowns : ∀ item ∈ investigation.unknowns, item.Declared
  handoff : OptionalText investigation.handoff

private theorem eq_of_forall₂ {α : Type} {related : α → α → Prop} {items backs : List α}
    (same : List.Forall₂ related items backs) {good : α → Prop} (each : ∀ item ∈ items, good item)
    (equal : ∀ item back, good item → related item back → back = item) : backs = items := by
  induction same with
  | nil => rfl
  | cons head _ ih =>
    rw [List.forall_mem_cons] at each
    rw [equal _ _ each.1 head, ih each.2]

private theorem brief_eq_of_rel {brief back : Option Brief}
    (declared : ∀ held, brief = some held → held.Declared)
    (related : Option.Rel Brief.Same brief back) : back = brief := by
  cases related with
  | none => rfl
  | some held =>
    obtain ⟨purpose, doneWhen⟩ := declared _ rfl
    rw [held.1, purpose.eq_of_same held.2.1, doneWhen.eq_of_same held.2.2]

namespace Investigation

private theorem eq_of_same {investigation back : Investigation} (declared : investigation.Declared)
    (same : investigation.Same back) : back = investigation := by
  have updated := declared.updated.eq_of_same same.updated
  have handoff := declared.handoff.eq_of_same same.handoff
  have plan := eq_of_forall₂ same.plan declared.plan fun step other good related => by
    rw [related.1, good.eq_of_same related.2]
  have hypotheses := eq_of_forall₂ same.hypotheses declared.hypotheses
    fun item other good related => by rw [related.1, good.eq_of_same related.2]
  have unknowns := eq_of_forall₂ same.unknowns declared.unknowns
    fun item other good related => by rw [related.1, good.eq_of_same related.2]
  have brief : back.brief = investigation.brief :=
    brief_eq_of_rel declared.brief same.brief
  cases investigation
  cases back
  cases same.revision
  cases same.findings
  cases updated
  cases handoff
  cases plan
  cases hypotheses
  cases unknowns
  cases brief
  rfl

end Investigation

private theorem isJson_records {α : Type} (write : α → List (String × PyValue)) {items : List α}
    (each : ∀ item ∈ items, (PyValue.record (write item)).IsJson) :
    (PyValue.list (items.map fun item => .record (write item))).IsJson :=
  .list (List.forall_mem_map.mpr each)

private theorem isJson_textList (texts : List String) : (textList texts).IsJson := .texts texts

private theorem isJson_briefDict {brief : Brief} (declared : brief.Declared) :
    (PyValue.record (briefDict brief)).IsJson := by
  refine .record (by simp [briefDict]) ?_
  simp only [briefDict, List.forall_mem_cons]
  exact ⟨.str _, declared.1.isJson, isJson_textList _, isJson_textList _, declared.2.isJson,
    fun _ among => absurd among List.not_mem_nil⟩

private theorem isJson_planDict {step : PlanStep} (declared : step.Declared) :
    (PyValue.record (planDict step)).IsJson := by
  refine .record (by simp [planDict]) ?_
  simp only [planDict, List.forall_mem_cons]
  exact ⟨.str _, .str _, OptionalText.isJson declared,
    fun _ among => absurd among List.not_mem_nil⟩

private theorem isJson_hypothesisDict {item : Hypothesis} (declared : item.Declared) :
    (PyValue.record (hypothesisDict item)).IsJson := by
  refine .record (by simp [hypothesisDict]) ?_
  simp only [hypothesisDict, List.forall_mem_cons]
  exact ⟨.str _, .str _, .str _, OptionalText.isJson declared, isJson_textList _,
    isJson_textList _, isJson_textList _, fun _ among => absurd among List.not_mem_nil⟩

private theorem isJson_findingDict (item : Finding) :
    (PyValue.record (findingDict item)).IsJson := by
  refine .record (by simp [findingDict]) ?_
  simp only [findingDict, List.forall_mem_cons]
  exact ⟨.str _, .str _, isJson_textList _, .str _, fun _ among => absurd among List.not_mem_nil⟩

private theorem isJson_unknownDict {item : Unknown} (declared : item.Declared) :
    (PyValue.record (unknownDict item)).IsJson := by
  refine .record (by simp [unknownDict]) ?_
  simp only [unknownDict, List.forall_mem_cons]
  exact ⟨.str _, .str _, .str _, .str _, .str _, isJson_textList _, isJson_textList _,
    isJson_textList _, OptionalText.isJson declared,
    fun _ among => absurd among List.not_mem_nil⟩

namespace Investigation

private theorem isJson_toDict {investigation : Investigation} (declared : investigation.Declared) :
    (PyValue.record investigation.toDict).IsJson := by
  refine .record (by simp [toDict]) ?_
  simp only [toDict, List.forall_mem_cons]
  refine ⟨.int _, declared.updated.isJson, ?_,
    isJson_records planDict fun step among => isJson_planDict (declared.plan step among),
    isJson_records hypothesisDict fun item among =>
      isJson_hypothesisDict (declared.hypotheses item among),
    isJson_records findingDict fun item _ => isJson_findingDict item,
    isJson_records unknownDict fun item among =>
      isJson_unknownDict (declared.unknowns item among),
    declared.handoff.isJson, fun _ among => absurd among List.not_mem_nil⟩
  cases here : investigation.brief with
  | none => exact .none
  | some brief => exact isJson_briefDict (declared.brief brief here)

private theorem exists_document {investigation : Investigation}
    (declared : investigation.Declared) :
    ∃ json, investigation.document = some json ∧ load (some json) = .ok investigation := by
  obtain ⟨json, standard, value⟩ := isJson_toDict declared
  have sorted := Json.standard_sortBy EvidenceLedger.codePoints standard
  have same : (PyValue.record investigation.toDict).Same
      (json.sortBy EvidenceLedger.codePoints).value := by
    rw [← value]
    exact Json.same_of_sortBy_eq EvidenceLedger.codePoints standard.distinct sorted.distinct
      (Json.sortBy_sortBy _ _ EvidenceLedger.codePoints_injective standard.distinct).symm
  obtain ⟨back, read, isBack⟩ := fromDict_same same
  refine ⟨json.sortBy EvidenceLedger.codePoints, ?_, ?_⟩
  · rw [document, ← value, Json.dumps_value]
    rfl
  · rw [load, Json.loads_eq_value sorted.distinct, read, eq_of_same declared isBack]

end Investigation

/-! ### What an operation does -/

private theorem checkIds_ok_iff {ledger : EvidenceLedger} {ids : List String} :
    checkIds ledger ids = .ok () ↔ ∀ id ∈ ids, id ∈ ledger.keys := by
  have found (id : String) : id ∈ ledger.keys ↔ ¬(ledger.get? id).isNone = true := by
    rw [Dict.mem_keys_iff, ← Option.isSome_iff_exists, Option.isNone_iff_eq_none,
      ← Option.ne_none_iff_isSome]
  rw [checkIds]
  simp only [found]
  split_ifs with nothing
  · exact ⟨fun _ => List.filter_eq_nil_iff.mp nothing, fun _ => rfl⟩
  · constructor
    · intro returned
      cases returned
    · exact fun each => absurd (List.filter_eq_nil_iff.mpr each) nothing

namespace Investigation

variable {hash : String → String} {investigation : Investigation} {basedOnRevision : Option Int}

private theorem updateFirst_some {α : Type} {found : α → Bool} {change : α → α}
    {items later : List α}
    (updated : updateFirst found change items = some later) :
    ∃ before item after, items = before ++ item :: after ∧ found item = true ∧
      later = before ++ change item :: after := by
  induction items generalizing later with
  | nil => cases updated
  | cons item rest ih =>
    rw [updateFirst] at updated
    split_ifs at updated with here
    · exact ⟨[], item, rest, rfl, here, (Option.some.inj updated).symm⟩
    · obtain ⟨others, went, rfl⟩ := Option.map_eq_some_iff.mp updated
      obtain ⟨before, found, after, rfl, isFound, rfl⟩ := ih went
      exact ⟨item :: before, found, after, rfl, isFound, rfl⟩

variable {next : Investigation}

/-- `set_brief` writes the brief alone. -/
theorem setBrief_ok {brief : Brief}
    (set : investigation.setBrief brief basedOnRevision = .ok next) :
    next = { investigation with brief := some brief } := by
  obtain ⟨_, _, set⟩ := ok_of_bind set
  split_ifs at set
  exact (Except.ok.inj set).symm

/-- `set_plan` writes the plan alone. -/
theorem setPlan_ok {steps : List PlanStep}
    (set : investigation.setPlan steps basedOnRevision = .ok next) :
    next = { investigation with plan := steps } := by
  obtain ⟨_, _, set⟩ := ok_of_bind set
  exact (Except.ok.inj set).symm

/-- `set_handoff` writes the note alone. -/
theorem setHandoff_ok {note : String}
    (set : investigation.setHandoff note basedOnRevision = .ok next) :
    next = { investigation with handoff := .str note } := by
  obtain ⟨_, _, set⟩ := ok_of_bind set
  exact (Except.ok.inj set).symm

variable {ledger : EvidenceLedger}

/-- A new hypothesis cites evidence of the ledger. -/
theorem addHypothesis_ok {claim id : String} {prediction : PyValue}
    {supporting contradicting : List String}
    (added : investigation.addHypothesis hash claim ledger prediction supporting contradicting
      basedOnRevision = .ok (id, next)) :
    investigation.checkRevision basedOnRevision = .ok () ∧
      checkIds ledger (supporting ++ contradicting) = .ok () ∧
      hypothesisId hash claim = .ok id ∧
      ∃ hypothesis : Hypothesis, hypothesis.id = id ∧ hypothesis.prediction = prediction ∧
        next = { investigation with hypotheses := investigation.hypotheses ++ [hypothesis] } := by
  obtain ⟨_, current, added⟩ := ok_of_bind added
  obtain ⟨_, known, added⟩ := ok_of_bind added
  obtain ⟨_, computed, added⟩ := ok_of_bind added
  cases added
  exact ⟨current, known, computed, _, rfl, rfl, rfl⟩

/-- An update changes the status and the notes of one hypothesis. -/
theorem updateHypothesis_ok {id : String} {status : HypothesisStatus} {notes : List String}
    (updated : investigation.updateHypothesis id status basedOnRevision notes = .ok next) :
    ∃ before hypothesis after, investigation.hypotheses = before ++ hypothesis :: after ∧
      hypothesis.id = id ∧ next = { investigation with
        hypotheses := before ++
          { hypothesis with status := status, notes := hypothesis.notes ++ notes } :: after } := by
  obtain ⟨_, _, updated⟩ := ok_of_bind updated
  split at updated
  · rename_i hypotheses changed
    cases updated
    obtain ⟨before, hypothesis, after, split, found, rfl⟩ := updateFirst_some changed
    exact ⟨before, hypothesis, after, split, of_decide_eq_true found, rfl⟩
  · cases updated

/-- A new finding cites evidence of the ledger. -/
theorem addFinding_ok {statement id confidence : String} {evidenceIds : List String}
    (added : investigation.addFinding hash statement evidenceIds ledger confidence
      basedOnRevision = .ok (id, next)) :
    evidenceIds ≠ [] ∧ (∀ cited ∈ evidenceIds, cited ∈ ledger.keys) ∧
      ∃ finding : Finding, finding.evidenceIds = evidenceIds ∧
        next = { investigation with findings := investigation.findings ++ [finding] } := by
  obtain ⟨_, _, added⟩ := ok_of_bind added
  split_ifs at added with refused
  rw [not_or] at refused
  obtain ⟨_, known, added⟩ := ok_of_bind added
  obtain ⟨_, _, added⟩ := ok_of_bind added
  cases added
  exact ⟨refused.2, checkIds_ok_iff.mp known, _, rfl, rfl⟩

/-- An unknown is added as it is given. -/
theorem addUnknown_ok {unknown : Unknown} {id : String}
    (added : investigation.addUnknown unknown basedOnRevision = .ok (id, next)) :
    investigation.checkRevision basedOnRevision = .ok () ∧
      next = { investigation with unknowns := investigation.unknowns ++ [unknown] } := by
  obtain ⟨_, current, added⟩ := ok_of_bind added
  cases added
  exact ⟨current, rfl⟩

/-- A resolution cites evidence of the ledger. -/
theorem resolveUnknown_ok {id resolution : String} {evidenceFor : List String}
    (resolved : investigation.resolveUnknown id resolution evidenceFor ledger basedOnRevision =
      .ok next) :
    isBlank resolution = false ∧ evidenceFor ≠ [] ∧ (∀ cited ∈ evidenceFor, cited ∈ ledger.keys) ∧
      ∃ before unknown after, investigation.unknowns = before ++ unknown :: after ∧
        unknown.id = id ∧ next = { investigation with
          unknowns := before ++ { unknown with
            status := .resolved, resolution := .str resolution,
            evidenceFor := evidenceFor } :: after } := by
  obtain ⟨_, _, resolved⟩ := ok_of_bind resolved
  split_ifs at resolved with refused
  rw [not_or, Bool.not_eq_true] at refused
  obtain ⟨_, known, resolved⟩ := ok_of_bind resolved
  split at resolved
  · rename_i unknowns changed
    cases resolved
    obtain ⟨before, unknown, after, split, found, rfl⟩ := updateFirst_some changed
    exact ⟨refused.1, refused.2, checkIds_ok_iff.mp known, before, unknown, after, split,
      of_decide_eq_true found, rfl⟩
  · cases resolved

end Investigation

/-- The arguments have their declared types. -/
def Operation.Declared : Operation → Prop
  | .setBrief brief => brief.Declared
  | .setPlan steps => ∀ step ∈ steps, step.Declared
  | .addHypothesis _ prediction _ _ => OptionalText prediction
  | .addUnknown unknown => unknown.Declared
  | _ => True

/-- Operations with arguments of the declared types leave fields of the declared types. -/
theorem Operation.apply_declared {hash : String → String} {ledger : EvidenceLedger}
    {investigation next : Investigation} {basedOnRevision : Option Int} {operation : Operation}
    {id : Option String} (declared : investigation.Declared) (typed : operation.Declared)
    (applied : operation.apply hash ledger investigation basedOnRevision = .ok (id, next)) :
    next.Declared := by
  cases operation with
  | setBrief brief =>
    obtain ⟨_, set, isNext⟩ := ok_of_map applied
    cases isNext
    rw [Investigation.setBrief_ok set]
    exact { declared with brief := fun held same => Option.some.inj same ▸ typed }
  | setPlan steps =>
    obtain ⟨_, set, isNext⟩ := ok_of_map applied
    cases isNext
    rw [Investigation.setPlan_ok set]
    exact { declared with plan := typed }
  | addHypothesis claim prediction supporting contradicting =>
    obtain ⟨_, added, isNext⟩ := ok_of_map applied
    cases isNext
    obtain ⟨_, _, _, hypothesis, _, isPrediction, isAdded⟩ :=
      Investigation.addHypothesis_ok added
    have hypothesisDeclared : hypothesis.Declared := by
      rw [Hypothesis.Declared, isPrediction]
      exact typed
    have each := List.forall_mem_append.mpr
      ⟨declared.hypotheses, List.forall_mem_singleton.mpr hypothesisDeclared⟩
    rw [isAdded]
    exact { declared with hypotheses := each }
  | updateHypothesis id status notes =>
    obtain ⟨_, updated, isNext⟩ := ok_of_map applied
    cases isNext
    obtain ⟨before, hypothesis, after, split, _, isUpdated⟩ :=
      Investigation.updateHypothesis_ok updated
    have each := declared.hypotheses
    rw [split, List.forall_mem_append, List.forall_mem_cons] at each
    have changed := List.forall_mem_append.mpr
      ⟨each.1, List.forall_mem_cons.mpr ⟨show Hypothesis.Declared
        { hypothesis with status := status, notes := hypothesis.notes ++ notes } from each.2.1,
        each.2.2⟩⟩
    rw [isUpdated]
    exact { declared with hypotheses := changed }
  | addFinding statement evidenceIds confidence =>
    obtain ⟨_, added, isNext⟩ := ok_of_map applied
    cases isNext
    obtain ⟨_, _, finding, _, isAdded⟩ := Investigation.addFinding_ok added
    rw [isAdded]
    exact { declared with }
  | addUnknown unknown =>
    obtain ⟨_, added, isNext⟩ := ok_of_map applied
    cases isNext
    obtain ⟨_, isAdded⟩ := Investigation.addUnknown_ok added
    have each := List.forall_mem_append.mpr
      ⟨declared.unknowns, List.forall_mem_singleton.mpr typed⟩
    rw [isAdded]
    exact { declared with unknowns := each }
  | resolveUnknown id resolution evidenceFor =>
    obtain ⟨_, resolved, isNext⟩ := ok_of_map applied
    cases isNext
    obtain ⟨_, _, _, before, unknown, after, split, _, isResolved⟩ :=
      Investigation.resolveUnknown_ok resolved
    have each := declared.unknowns
    rw [split, List.forall_mem_append, List.forall_mem_cons] at each
    have settled : Unknown.Declared { unknown with
        status := .resolved, resolution := .str resolution, evidenceFor := evidenceFor } :=
      .inr ⟨resolution, rfl⟩
    have changed := List.forall_mem_append.mpr
      ⟨each.1, List.forall_mem_cons.mpr ⟨settled, each.2.2⟩⟩
    rw [isResolved]
    exact { declared with unknowns := changed }
  | setHandoff note =>
    obtain ⟨_, set, isNext⟩ := ok_of_map applied
    cases isNext
    rw [Investigation.setHandoff_ok set]
    exact { declared with handoff := .inr ⟨note, rfl⟩ }

/-! ### Saves -/

namespace Investigation

/-- The investigation that `save` leaves behind once the revision is counted. -/
def counted (investigation : Investigation) (now : String) : Investigation :=
  { investigation with revision := investigation.revision + 1, updated := .str now }

theorem counted_declared {investigation : Investigation} (declared : investigation.Declared)
    (now : String) : (investigation.counted now).Declared :=
  { declared with updated := .inr ⟨now, rfl⟩ }

/-- A save writes the investigation with its next revision. -/
theorem save_eq {investigation : Investigation} (declared : investigation.Declared) (now : String)
    (file : Option Json) (fault : Option Fault) :
    ∃ json, load (some json) = .ok (investigation.counted now) ∧
      investigation.save now file fault =
        match fault with
        | none => (.ok (), investigation.counted now, some json)
        | some (.directory raised) => (.error raised, investigation, file)
        | some (.state raised) => (.error raised, investigation.counted now, file)
        | some (.markdown raised) => (.error raised, investigation.counted now, some json) := by
  obtain ⟨json, written, loaded⟩ := exists_document (counted_declared declared now)
  have document : document { investigation with
      revision := investigation.revision + 1, updated := .str now } = some json := written
  refine ⟨json, loaded, ?_⟩
  rcases fault with _ | ⟨raised⟩ | ⟨raised⟩ | ⟨raised⟩
  · simp only [save, document]
    rfl
  · rfl
  · simp only [save, document]
    rfl
  · simp only [save, document]
    rfl

theorem empty_declared : ({} : Investigation).Declared where
  updated := .inl rfl
  brief := fun _ found => by cases found
  plan := fun _ among => absurd among List.not_mem_nil
  hypotheses := fun _ among => absurd among List.not_mem_nil
  unknowns := fun _ among => absurd among List.not_mem_nil
  handoff := .inl rfl

end Investigation

end Swarmind.ReverseEngineering
