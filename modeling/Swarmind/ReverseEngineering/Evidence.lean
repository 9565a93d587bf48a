import Swarmind.Library.PyAccess
import Swarmind.ReverseEngineering.Canonical

/-!
Owns evidence records: the dictionary they are written as and read from, and the id that
is the digest of their content. `hash` is `sha256_hex` on the UTF-8 bytes of a text. The
fields that the reader takes over unchecked hold any value.

A record read back from its dictionary is the record with its empty optional fields
absent, which has the same content and so the same id.
-/

namespace Swarmind.ReverseEngineering

open Swarmind.Library

/-! ### Records -/

inductive Confidence where
  | observed
  | derived
  | inferred
deriving DecidableEq, Repr

def Confidence.enum : StrEnum Confidence where
  className := "Confidence"
  members := [.observed, .derived, .inferred]
  value
    | .observed => "observed"
    | .derived => "derived"
    | .inferred => "inferred"

inductive Authority where
  | originalFiles
  | ourRun
  | earlierRecord
  | outsideService
  | reasoning
deriving DecidableEq, Repr

def Authority.enum : StrEnum Authority where
  className := "Authority"
  members := [.originalFiles, .ourRun, .earlierRecord, .outsideService, .reasoning]
  value
    | .originalFiles => "original-files"
    | .ourRun => "our-run"
    | .earlierRecord => "earlier-record"
    | .outsideService => "outside-service"
    | .reasoning => "reasoning"

inductive CoverageStatus where
  | complete
  | partially
  | unknown
deriving DecidableEq, Repr

def CoverageStatus.enum : StrEnum CoverageStatus where
  className := "CoverageStatus"
  members := [.complete, .partially, .unknown]
  value
    | .complete => "complete"
    | .partially => "partial"
    | .unknown => "unknown"

structure Limitation where
  code : String
  message : String

structure Coverage where
  status : CoverageStatus := .unknown
  examined : PyValue := .none
  total : PyValue := .none
  nextOffset : PyValue := .none

structure Location where
  kind : String
  value : String
  label : PyValue := .none

structure Subject where
  kind : String
  sha256 : PyValue := .none
  name : PyValue := .none

structure Environment where
  cleanRoom : Bool
  engine : String
  host : String
  engineVersion : PyValue := .none
  languageId : PyValue := .none

structure Evidence where
  subject : Subject
  operation : String
  environment : Environment
  params : PyValue := .none
  result : PyValue := .none
  summary : String := ""
  confidence : Confidence := .observed
  authority : Authority := .originalFiles
  limitations : List Limitation := []
  coverage : Coverage := {}
  locations : List Location := []
  links : List String := []
  carriesTargetContent : Bool := false
  id : String := ""

/-! ### Writing -/

/-- A member that is there or not. -/
def optional (name : String) (value : Option PyValue) : List (String × PyValue) :=
  (value.map fun value => (name, value)).toList

/-- The value if it is true. -/
def nonEmpty (value : PyValue) : Option PyValue := if value.isTruthy then some value else none

/-- The value if it is not `None`. -/
def given : PyValue → Option PyValue
  | .none => none
  | value => some value

def subjectDict (subject : Subject) : List (String × PyValue) :=
  ("kind", .str subject.kind) ::
    (optional "sha256" (nonEmpty subject.sha256) ++ optional "name" (nonEmpty subject.name))

def environmentDict (environment : Environment) : List (String × PyValue) :=
  ("clean_room", .bool environment.cleanRoom) :: ("engine", .str environment.engine) ::
    ("host", .str environment.host) ::
      (optional "engine_version" (nonEmpty environment.engineVersion) ++
        optional "language_id" (nonEmpty environment.languageId))

def coverageDict (coverage : Coverage) : List (String × PyValue) :=
  ("status", .str (CoverageStatus.enum.value coverage.status)) ::
    (optional "examined" (given coverage.examined) ++
      (optional "total" (given coverage.total) ++ optional "next_offset" (given coverage.nextOffset)))

def locationDict (location : Location) : List (String × PyValue) :=
  ("kind", .str location.kind) :: ("value", .str location.value) ::
    optional "label" (nonEmpty location.label)

def limitationDict (limitation : Limitation) : List (String × PyValue) :=
  [("code", .str limitation.code), ("message", .str limitation.message)]

namespace Evidence

def toDict (evidence : Evidence) : List (String × PyValue) :=
  [("subject", .record (subjectDict evidence.subject)),
    ("operation", .str evidence.operation),
    ("params", evidence.params),
    ("result", evidence.result),
    ("summary", .str evidence.summary),
    ("confidence", .str (Confidence.enum.value evidence.confidence)),
    ("authority", .str (Authority.enum.value evidence.authority)),
    ("environment", .record (environmentDict evidence.environment)),
    ("limitations", .list (evidence.limitations.map fun item => .record (limitationDict item))),
    ("coverage", .record (coverageDict evidence.coverage)),
    ("locations", .list (evidence.locations.map fun item => .record (locationDict item))),
    ("links", .list (evidence.links.map .str))] ++
  ((if evidence.carriesTargetContent then [("carries_target_content", .bool true)] else []) ++
    (if evidence.id = "" then [] else [("id", .str evidence.id)]))

/-- `data.pop(name, None)`. -/
def pop (name : String) (members : List (String × PyValue)) : List (String × PyValue) :=
  members.filter fun member => member.1 ≠ name

def payload (evidence : Evidence) : PyValue :=
  let members := pop "carries_target_content" (pop "summary" (pop "id" evidence.toDict))
  .record (members.map fun member =>
    if member.1 = "subject" then ("subject", .record (pop "name" (subjectDict evidence.subject)))
    else member)

def computeId (hash : String → String) (evidence : Evidence) : Except PyException String :=
  (canonicalJson evidence.payload).map fun text => "ev_" ++ hash text

def verify (hash : String → String) (evidence : Evidence) : Except PyException Bool :=
  if evidence.id = "" then .ok false
  else (evidence.computeId hash).map fun id => decide (id = evidence.id)

def sealed (hash : String → String) (evidence : Evidence) : Except PyException Evidence :=
  (evidence.computeId hash).map fun id => { evidence with id := id }

end Evidence

/-! ### Reading -/

def subjectFrom (data : PyValue) : Except PyException Subject := do
  let kind ← data.item "kind"
  let sha256 ← data.get "sha256" .none
  let name ← data.get "name" .none
  return { kind := kind.text, sha256 := sha256, name := name }

def environmentFrom (data : PyValue) : Except PyException Environment := do
  let cleanRoom ← data.item "clean_room"
  let engine ← data.item "engine"
  let host ← data.item "host"
  let engineVersion ← data.get "engine_version" .none
  let languageId ← data.get "language_id" .none
  return {
    cleanRoom := cleanRoom.isTruthy
    engine := engine.text
    host := host.text
    engineVersion := engineVersion
    languageId := languageId }

def coverageFrom (data : PyValue) : Except PyException Coverage := do
  let status ← data.get "status" (.str "unknown")
  let status ← CoverageStatus.enum.ofValue status
  let examined ← data.get "examined" .none
  let total ← data.get "total" .none
  let nextOffset ← data.get "next_offset" .none
  return { status := status, examined := examined, total := total, nextOffset := nextOffset }

def limitationFrom (item : PyValue) : Except PyException Limitation := do
  let code ← item.item "code"
  let message ← item.item "message"
  return { code := code.text, message := message.text }

def locationFrom (item : PyValue) : Except PyException Location := do
  let kind ← item.item "kind"
  let value ← item.item "value"
  let label ← item.get "label" .none
  return { kind := kind.text, value := value.text, label := label }

def Evidence.fromDict (data : PyValue) : Except PyException Evidence := do
  let id ← data.get "id" (.str "")
  let subject ← data.item "subject"
  let subject ← subjectFrom subject
  let operation ← data.item "operation"
  let params ← data.get "params" .none
  let result ← data.get "result" .none
  let summary ← data.get "summary" (.str "")
  let confidence ← data.get "confidence" (.str "observed")
  let confidence ← Confidence.enum.ofValue confidence
  let authority ← data.get "authority" (.str "original-files")
  let authority ← Authority.enum.ofValue authority
  let environment ← data.item "environment"
  let environment ← environmentFrom environment
  let limitations ← data.get "limitations" (.list [])
  let limitations ← readItems limitationFrom limitations
  let coverage ← data.get "coverage" (.dict [])
  let coverage ← coverageFrom coverage
  let locations ← data.get "locations" (.list [])
  let locations ← readItems locationFrom locations
  let links ← data.get "links" (.list [])
  let links ← readTexts links
  let carriesTargetContent ← data.get "carries_target_content" .none
  return {
    id := id.text
    subject := subject
    operation := operation.text
    params := params
    result := result
    summary := summary.text
    confidence := confidence
    authority := authority
    environment := environment
    limitations := limitations
    coverage := coverage
    locations := locations
    links := links
    carriesTargetContent := carriesTargetContent.isTruthy }

/-! ### Content -/

/-- An optional field, absent where it is empty. -/
def present (value : PyValue) : PyValue := (nonEmpty value).getD .none

theorem getD_given (value : PyValue) : (given value).getD .none = value := by
  cases value <;> rfl

theorem find_optional (name other : String) (value : Option PyValue)
    (rest : List (String × PyValue)) :
    Dict.find name (optional other value ++ rest) =
      (if name = other then value else none).or (Dict.find name rest) := by
  cases value with
  | none => simp [optional]
  | some value =>
    by_cases same : name = other
    · simp [optional, Dict.find, same]
    · simp [optional, Dict.find, same, Ne.symm same]

theorem find_last_optional (name other : String) (value : Option PyValue) :
    Dict.find name (optional other value) = if name = other then value else none := by
  have whole := find_optional name other value []
  rw [List.append_nil] at whole
  rw [whole, Dict.find, Option.or_none]

namespace Evidence

theorem payload_eq (evidence : Evidence) : evidence.payload = .record
    [("subject", .record (("kind", .str evidence.subject.kind) ::
        optional "sha256" (nonEmpty evidence.subject.sha256))),
      ("operation", .str evidence.operation),
      ("params", evidence.params),
      ("result", evidence.result),
      ("confidence", .str (Confidence.enum.value evidence.confidence)),
      ("authority", .str (Authority.enum.value evidence.authority)),
      ("environment", .record (environmentDict evidence.environment)),
      ("limitations", .list (evidence.limitations.map fun item => .record (limitationDict item))),
      ("coverage", .record (coverageDict evidence.coverage)),
      ("locations", .list (evidence.locations.map fun item => .record (locationDict item))),
      ("links", .list (evidence.links.map .str))] := by
  have subject : pop "name" (subjectDict evidence.subject) =
      ("kind", .str evidence.subject.kind) ::
        optional "sha256" (nonEmpty evidence.subject.sha256) := by
    unfold pop subjectDict optional
    cases nonEmpty evidence.subject.sha256 <;> cases nonEmpty evidence.subject.name <;> simp
  have rest : ∀ flag : Bool, ∀ id : String,
      pop "carries_target_content" (pop "summary" (pop "id"
        ((if flag then [("carries_target_content", PyValue.bool true)] else []) ++
          (if id = "" then [] else [("id", PyValue.str id)])))) = [] := by
    intro flag id
    unfold pop
    split_ifs <;> simp
  rw [payload, subject, toDict]
  simp only [pop, List.filter_append] at rest ⊢
  rw [rest]
  simp

end Evidence

/-! ### JSON records -/

private theorem nonEmpty_isJson {value held : PyValue} (isJson : value.IsJson)
    (found : nonEmpty value = some held) : held.IsJson := by
  unfold nonEmpty at found
  split_ifs at found
  exact Option.some.inj found ▸ isJson

private theorem given_isJson {value held : PyValue} (isJson : value.IsJson)
    (found : given value = some held) : held.IsJson := by
  cases value with
  | none => cases found
  | _ => exact Option.some.inj found ▸ isJson

private theorem optional_isJson {name : String} {value : Option PyValue}
    (each : ∀ held, value = some held → held.IsJson) :
    ∀ member ∈ optional name value, member.2.IsJson := by
  cases value with
  | none => exact fun _ among => absurd among List.not_mem_nil
  | some held => exact List.forall_mem_singleton.mpr (each held rfl)

structure Evidence.JsonValued (evidence : Evidence) : Prop where
  params : evidence.params.IsJson
  result : evidence.result.IsJson
  sha256 : evidence.subject.sha256.IsJson
  name : evidence.subject.name.IsJson
  engineVersion : evidence.environment.engineVersion.IsJson
  languageId : evidence.environment.languageId.IsJson
  examined : evidence.coverage.examined.IsJson
  total : evidence.coverage.total.IsJson
  nextOffset : evidence.coverage.nextOffset.IsJson
  labels : ∀ location ∈ evidence.locations, location.label.IsJson

private theorem names_optional (name : String) (value : Option PyValue) :
    ((optional name value).map Prod.fst).Sublist [name] := by
  cases value with
  | none => exact List.nil_sublist _
  | some _ => exact List.Sublist.refl _

section IsJson

variable {evidence : Evidence}

private theorem isJson_of_sublist {members : List (String × PyValue)} {names : List String}
    (among : (members.map Prod.fst).Sublist names) (distinct : names.Nodup)
    (each : ∀ member ∈ members, member.2.IsJson) : (PyValue.record members).IsJson :=
  .record (among.nodup distinct) each

section

variable (jsonValued : evidence.JsonValued)
include jsonValued

private theorem isJson_subjectDict :
    (PyValue.record (subjectDict evidence.subject)).IsJson := by
  have names :
      ((subjectDict evidence.subject).map Prod.fst).Sublist ["kind", "sha256", "name"] := by
    rw [subjectDict, List.map_cons, List.map_append]
    exact ((names_optional _ _).append (names_optional _ _)).cons_cons _
  refine isJson_of_sublist names (by decide) ?_
  rw [subjectDict, List.forall_mem_cons, List.forall_mem_append]
  refine ⟨.str _, ?_, ?_⟩
  · exact optional_isJson fun _ => nonEmpty_isJson jsonValued.sha256
  · exact optional_isJson fun _ => nonEmpty_isJson jsonValued.name

private theorem isJson_contentSubject :
    (PyValue.record (("kind", .str evidence.subject.kind) ::
      optional "sha256" (nonEmpty evidence.subject.sha256))).IsJson := by
  have names : ((("kind", .str evidence.subject.kind) ::
      optional "sha256" (nonEmpty evidence.subject.sha256)).map Prod.fst).Sublist ["kind", "sha256"] :=
    (names_optional _ _).cons_cons _
  refine isJson_of_sublist names (by decide) ?_
  rw [List.forall_mem_cons]
  refine ⟨.str _, ?_⟩
  exact optional_isJson fun _ => nonEmpty_isJson jsonValued.sha256

private theorem isJson_environmentDict :
    (PyValue.record (environmentDict evidence.environment)).IsJson := by
  have names : ((environmentDict evidence.environment).map Prod.fst).Sublist
      ["clean_room", "engine", "host", "engine_version", "language_id"] := by
    rw [environmentDict, List.map_cons, List.map_cons, List.map_cons, List.map_append]
    exact ((((names_optional _ _).append (names_optional _ _)).cons_cons _).cons_cons
      _).cons_cons _
  refine isJson_of_sublist names (by decide) ?_
  simp only [environmentDict, List.forall_mem_cons, List.forall_mem_append]
  refine ⟨.bool _, .str _, .str _, ?_, ?_⟩
  · exact optional_isJson fun _ => nonEmpty_isJson jsonValued.engineVersion
  · exact optional_isJson fun _ => nonEmpty_isJson jsonValued.languageId

private theorem isJson_coverageDict :
    (PyValue.record (coverageDict evidence.coverage)).IsJson := by
  have names : ((coverageDict evidence.coverage).map Prod.fst).Sublist
      ["status", "examined", "total", "next_offset"] := by
    rw [coverageDict, List.map_cons, List.map_append, List.map_append]
    exact ((names_optional _ _).append
      ((names_optional _ _).append (names_optional _ _))).cons_cons _
  refine isJson_of_sublist names (by decide) ?_
  simp only [coverageDict, List.forall_mem_cons, List.forall_mem_append]
  refine ⟨.str _, ?_, ?_, ?_⟩
  · exact optional_isJson fun _ => given_isJson jsonValued.examined
  · exact optional_isJson fun _ => given_isJson jsonValued.total
  · exact optional_isJson fun _ => given_isJson jsonValued.nextOffset

private theorem isJson_locations :
    (PyValue.list (evidence.locations.map fun item => .record (locationDict item))).IsJson := by
  refine .list ?_
  rw [List.forall_mem_map]
  intro location held
  have names : ((locationDict location).map Prod.fst).Sublist ["kind", "value", "label"] := by
    rw [locationDict, List.map_cons, List.map_cons]
    exact ((names_optional _ _).cons_cons _).cons_cons _
  refine isJson_of_sublist names (by decide) ?_
  simp only [locationDict, List.forall_mem_cons]
  refine ⟨.str _, .str _, ?_⟩
  exact optional_isJson fun _ => nonEmpty_isJson (jsonValued.labels location held)

end

private theorem isJson_limitations (limitations : List Limitation) :
    (PyValue.list (limitations.map fun item => .record (limitationDict item))).IsJson := by
  refine .list ?_
  rw [List.forall_mem_map]
  intro limitation _
  refine .record (by simp [limitationDict]) ?_
  simp only [limitationDict, List.forall_mem_cons]
  exact ⟨.str _, .str _, fun _ among => absurd among List.not_mem_nil⟩

namespace Evidence

/-- The names that `to_dict` may write. -/
def names : List String :=
  ["subject", "operation", "params", "result", "summary", "confidence", "authority",
    "environment", "limitations", "coverage", "locations", "links", "carries_target_content", "id"]

theorem isJson_toDict (jsonValued : evidence.JsonValued) :
    (PyValue.record evidence.toDict).IsJson := by
  have ending : (((if evidence.carriesTargetContent then
      [("carries_target_content", PyValue.bool true)] else []) ++
        (if evidence.id = "" then [] else [("id", PyValue.str evidence.id)])).map
          Prod.fst).Sublist ["carries_target_content", "id"] := by
    split_ifs <;> simp
  have among : (evidence.toDict.map Prod.fst).Sublist names := by
    rw [toDict, List.map_append]
    exact ending.append_left _
  refine isJson_of_sublist among (by decide) ?_
  simp only [toDict, List.forall_mem_append, List.forall_mem_cons]
  refine ⟨⟨isJson_subjectDict jsonValued, .str _, jsonValued.params, jsonValued.result, .str _,
    .str _, .str _, isJson_environmentDict jsonValued, isJson_limitations _,
    isJson_coverageDict jsonValued, isJson_locations jsonValued, PyValue.IsJson.texts _,
    fun _ held => absurd held List.not_mem_nil⟩, ?_, ?_⟩
  · split_ifs
    · exact List.forall_mem_singleton.mpr (.bool true)
    · exact fun _ held => absurd held List.not_mem_nil
  · split_ifs
    · exact fun _ held => absurd held List.not_mem_nil
    · exact List.forall_mem_singleton.mpr (.str _)

/-- The payload of evidence is JSON. -/
theorem isJson_payload (jsonValued : evidence.JsonValued) : evidence.payload.IsJson := by
  rw [payload_eq]
  refine .record (by simp) ?_
  simp only [List.forall_mem_cons]
  exact ⟨isJson_contentSubject jsonValued, .str _, jsonValued.params, jsonValued.result, .str _,
    .str _, isJson_environmentDict jsonValued, isJson_limitations _,
    isJson_coverageDict jsonValued, isJson_locations jsonValued, PyValue.IsJson.texts _,
    fun _ held => absurd held List.not_mem_nil⟩

end Evidence

end IsJson

/-! ### Reading back -/

/-- The comparison of records: fields of any value up to the order of keys. -/
structure Evidence.Same (left right : Evidence) : Prop where
  id : left.id = right.id
  kind : left.subject.kind = right.subject.kind
  sha256 : left.subject.sha256.Same right.subject.sha256
  name : left.subject.name.Same right.subject.name
  operation : left.operation = right.operation
  params : left.params.Same right.params
  result : left.result.Same right.result
  summary : left.summary = right.summary
  confidence : left.confidence = right.confidence
  authority : left.authority = right.authority
  cleanRoom : left.environment.cleanRoom = right.environment.cleanRoom
  engine : left.environment.engine = right.environment.engine
  host : left.environment.host = right.environment.host
  engineVersion : left.environment.engineVersion.Same right.environment.engineVersion
  languageId : left.environment.languageId.Same right.environment.languageId
  limitations : left.limitations = right.limitations
  status : left.coverage.status = right.coverage.status
  examined : left.coverage.examined.Same right.coverage.examined
  total : left.coverage.total.Same right.coverage.total
  nextOffset : left.coverage.nextOffset.Same right.coverage.nextOffset
  locations : List.Forall₂ (fun one other => one.kind = other.kind ∧ one.value = other.value ∧
    one.label.Same other.label) left.locations right.locations
  links : left.links = right.links
  carriesTargetContent : left.carriesTargetContent = right.carriesTargetContent

/-- The record with its empty optional fields absent. -/
def Evidence.normal (evidence : Evidence) : Evidence :=
  { evidence with
    subject := { evidence.subject with
      sha256 := present evidence.subject.sha256
      name := present evidence.subject.name }
    environment := { evidence.environment with
      engineVersion := present evidence.environment.engineVersion
      languageId := present evidence.environment.languageId }
    locations := evidence.locations.map fun item => { item with label := present item.label } }

private theorem subjectFrom_same {subject : Subject} {data : PyValue}
    (same : (PyValue.record (subjectDict subject)).Same data) :
    ∃ sha256 name, subjectFrom data = .ok { kind := subject.kind, sha256 := sha256, name := name } ∧
      (present subject.sha256).Same sha256 ∧ (present subject.name).Same name := by
  obtain ⟨kind, kindRead, kindSame⟩ := same.item "kind"
    (.str subject.kind) rfl
  obtain ⟨sha256, shaRead, shaSame⟩ := same.get "sha256" (present subject.sha256)
    .none (by
      simp [subjectDict, Dict.find, find_optional, find_last_optional, present])
  obtain ⟨name, nameRead, nameSame⟩ := same.get "name" (present subject.name)
    .none (by
      simp [subjectDict, Dict.find, find_optional, find_last_optional, present])
  refine ⟨sha256, name, ?_, shaSame, nameSame⟩
  rw [kindSame.eq_str] at kindRead
  rw [subjectFrom, kindRead, shaRead, nameRead]
  rfl

private theorem environmentFrom_same {environment : Environment} {data : PyValue}
    (same : (PyValue.record (environmentDict environment)).Same data) :
    ∃ engineVersion languageId, environmentFrom data = .ok { environment with
        engineVersion := engineVersion, languageId := languageId } ∧
      (present environment.engineVersion).Same engineVersion ∧
        (present environment.languageId).Same languageId := by
  obtain ⟨cleanRoom, cleanRoomRead, cleanRoomSame⟩ := same.item "clean_room"
    (.bool environment.cleanRoom) rfl
  obtain ⟨engine, engineRead, engineSame⟩ := same.item "engine"
    (.str environment.engine) rfl
  obtain ⟨host, hostRead, hostSame⟩ := same.item "host"
    (.str environment.host) rfl
  obtain ⟨engineVersion, versionRead, versionSame⟩ := same.get "engine_version"
    (present environment.engineVersion) .none (by
      simp [environmentDict, Dict.find, find_optional, find_last_optional, present])
  obtain ⟨languageId, languageRead, languageSame⟩ := same.get "language_id"
    (present environment.languageId) .none (by
      simp [environmentDict, Dict.find, find_optional, find_last_optional, present])
  refine ⟨engineVersion, languageId, ?_, versionSame, languageSame⟩
  rw [cleanRoomSame.eq_bool] at cleanRoomRead
  rw [engineSame.eq_str] at engineRead
  rw [hostSame.eq_str] at hostRead
  rw [environmentFrom, cleanRoomRead, engineRead, hostRead, versionRead, languageRead]
  cases environment with
  | mk cleanRoom engine host _ _ => cases cleanRoom <;> rfl

theorem Confidence.lawful : Confidence.enum.Lawful where
  all := fun member => by cases member <;> decide
  distinct := by decide

theorem Authority.lawful : Authority.enum.Lawful where
  all := fun member => by cases member <;> decide
  distinct := by decide

theorem CoverageStatus.lawful : CoverageStatus.enum.Lawful where
  all := fun member => by cases member <;> decide
  distinct := by decide

private theorem coverageFrom_same {coverage : Coverage} {data : PyValue}
    (same : (PyValue.record (coverageDict coverage)).Same data) :
    ∃ examined total nextOffset, coverageFrom data = .ok
        { status := coverage.status, examined := examined, total := total,
          nextOffset := nextOffset } ∧
      coverage.examined.Same examined ∧ coverage.total.Same total ∧
        coverage.nextOffset.Same nextOffset := by
  obtain ⟨status, statusRead, statusSame⟩ := same.get "status"
    (.str (CoverageStatus.enum.value coverage.status)) (.str "unknown") rfl
  obtain ⟨examined, examinedRead, examinedSame⟩ := same.get "examined" coverage.examined .none (by
    simp [coverageDict, Dict.find, find_optional, find_last_optional, getD_given])
  obtain ⟨total, totalRead, totalSame⟩ := same.get "total" coverage.total .none (by
    simp [coverageDict, Dict.find, find_optional, find_last_optional, getD_given])
  obtain ⟨nextOffset, offsetRead, offsetSame⟩ := same.get "next_offset" coverage.nextOffset .none
    (by simp [coverageDict, Dict.find, find_optional, find_last_optional, getD_given])
  refine ⟨examined, total, nextOffset, ?_, examinedSame, totalSame, offsetSame⟩
  rw [statusSame.eq_str] at statusRead
  simp only [coverageFrom, statusRead, examinedRead, totalRead, offsetRead, bind, Except.bind,
    CoverageStatus.lawful.ofValue_value, pure, Except.pure]

private theorem limitationFrom_same (limitation : Limitation) {item : PyValue}
    (same : (PyValue.record (limitationDict limitation)).Same item) :
    ∃ read, limitationFrom item = .ok read ∧ limitation = read := by
  obtain ⟨code, codeRead, codeSame⟩ := same.item "code" (.str limitation.code) rfl
  obtain ⟨message, messageRead, messageSame⟩ := same.item "message" (.str limitation.message) rfl
  rw [codeSame.eq_str] at codeRead
  rw [messageSame.eq_str] at messageRead
  exact ⟨limitation, by rw [limitationFrom, codeRead, messageRead]; rfl, rfl⟩

private theorem locationFrom_same (location : Location) {item : PyValue}
    (same : (PyValue.record (locationDict location)).Same item) :
    ∃ read, locationFrom item = .ok read ∧ location.kind = read.kind ∧
      location.value = read.value ∧ (present location.label).Same read.label := by
  obtain ⟨kind, kindRead, kindSame⟩ := same.item "kind" (.str location.kind) rfl
  obtain ⟨value, valueRead, valueSame⟩ := same.item "value" (.str location.value) rfl
  obtain ⟨label, labelRead, labelSame⟩ := same.get "label" (present location.label) .none (by
    simp [locationDict, Dict.find, find_last_optional, present])
  rw [kindSame.eq_str] at kindRead
  rw [valueSame.eq_str] at valueRead
  exact ⟨{ kind := location.kind, value := location.value, label := label },
    by rw [locationFrom, kindRead, valueRead, labelRead]; rfl, rfl, rfl, labelSame⟩

section ToDict

variable (evidence : Evidence)

private theorem find_id_toDict : (Dict.find "id" evidence.toDict).getD
    (.str "") = .str evidence.id := by
  by_cases unsealed : evidence.id = ""
  · cases flag : evidence.carriesTargetContent <;>
      simp [Evidence.toDict, Dict.find, flag, unsealed]
  · cases flag : evidence.carriesTargetContent <;>
      simp [Evidence.toDict, Dict.find, flag, unsealed]

private theorem find_carriesTargetContent_toDict :
    (Dict.find "carries_target_content" evidence.toDict).getD .none =
      if evidence.carriesTargetContent then .bool true else .none := by
  by_cases unsealed : evidence.id = ""
  · cases flag : evidence.carriesTargetContent <;>
      simp [Evidence.toDict, Dict.find, flag, unsealed]
  · cases flag : evidence.carriesTargetContent <;>
      simp [Evidence.toDict, Dict.find, flag, unsealed]

end ToDict

/-- A record is read back from its dictionary with its empty optional fields absent. -/
theorem Evidence.fromDict_same {evidence : Evidence} {data : PyValue}
    (same : (PyValue.record evidence.toDict).Same data) :
    ∃ back, Evidence.fromDict data = .ok back ∧ evidence.normal.Same back := by
  obtain ⟨id, idRead, idSame⟩ := same.get "id" (.str evidence.id) (.str "")
    (find_id_toDict evidence)
  obtain ⟨subjectData, subjectRead, subjectSame⟩ := same.item "subject" _ rfl
  obtain ⟨sha256, name, subjectBack, shaSame, nameSame⟩ := subjectFrom_same subjectSame
  obtain ⟨operation, operationRead, operationSame⟩ := same.item "operation" _ rfl
  obtain ⟨params, paramsRead, paramsSame⟩ := same.get "params" evidence.params .none rfl
  obtain ⟨result, resultRead, resultSame⟩ := same.get "result" evidence.result .none rfl
  obtain ⟨summary, summaryRead, summarySame⟩ :=
    same.get "summary" (.str evidence.summary) (.str "") rfl
  obtain ⟨confidence, confidenceRead, confidenceSame⟩ := same.get "confidence"
    (.str (Confidence.enum.value evidence.confidence)) (.str "observed") rfl
  obtain ⟨authority, authorityRead, authoritySame⟩ := same.get "authority"
    (.str (Authority.enum.value evidence.authority)) (.str "original-files") rfl
  obtain ⟨environmentData, environmentRead, environmentSame⟩ := same.item "environment" _ rfl
  obtain ⟨engineVersion, languageId, environmentBack, versionSame, languageSame⟩ :=
    environmentFrom_same environmentSame
  obtain ⟨limitationData, limitationRead, limitationSame⟩ := same.get "limitations"
    (.list (evidence.limitations.map fun item => .record (limitationDict item))) (.list .nil) rfl
  obtain ⟨limitations, limitationsBack, limitationsSame⟩ :=
    readItems_same (fun limitation _ => limitationFrom_same limitation) limitationSame
  obtain ⟨coverageData, coverageRead, coverageSame⟩ := same.get "coverage"
    (.record (coverageDict evidence.coverage))
    (show (PyValue.dict []).Same (.dict []) from .dict fun _ => .none) rfl
  obtain ⟨examined, total, nextOffset, coverageBack, examinedSame, totalSame, offsetSame⟩ :=
    coverageFrom_same coverageSame
  obtain ⟨locationData, locationRead, locationSame⟩ := same.get "locations"
    (.list (evidence.locations.map fun item => .record (locationDict item))) (.list .nil) rfl
  obtain ⟨locations, locationsBack, locationsSame⟩ :=
    readItems_same (fun location _ => locationFrom_same location) locationSame
  obtain ⟨linkData, linkRead, linkSame⟩ := same.get "links"
    (.list (evidence.links.map .str)) (.list .nil) rfl
  have linksBack := readTexts_same linkSame
  obtain ⟨carries, carriesRead, carriesSame⟩ := same.get "carries_target_content"
    (if evidence.carriesTargetContent then .bool true else .none) .none
    (find_carriesTargetContent_toDict evidence)
  have carriesTruth : carries.isTruthy = evidence.carriesTargetContent := by
    rw [← carriesSame.isTruthy_eq]
    cases evidence.carriesTargetContent <;> rfl
  rw [idSame.eq_str] at idRead
  rw [operationSame.eq_str] at operationRead
  rw [summarySame.eq_str] at summaryRead
  rw [confidenceSame.eq_str] at confidenceRead
  rw [authoritySame.eq_str] at authorityRead
  refine ⟨{
    subject := { kind := evidence.subject.kind, sha256 := sha256, name := name }
    operation := evidence.operation
    environment := { evidence.environment with
      engineVersion := engineVersion, languageId := languageId }
    params := params
    result := result
    summary := evidence.summary
    confidence := evidence.confidence
    authority := evidence.authority
    limitations := limitations
    coverage := {
      status := evidence.coverage.status, examined := examined, total := total,
      nextOffset := nextOffset }
    locations := locations
    links := evidence.links
    carriesTargetContent := carries.isTruthy
    id := evidence.id }, ?_, ?_⟩
  · simp only [Evidence.fromDict, idRead, subjectRead, subjectBack, operationRead, paramsRead,
      resultRead, summaryRead, confidenceRead, Confidence.lawful.ofValue_value, authorityRead,
      Authority.lawful.ofValue_value, environmentRead, environmentBack, limitationRead, limitationsBack,
      coverageRead, coverageBack, locationRead, locationsBack, linkRead, linksBack, carriesRead,
      bind, Except.bind, pure, Except.pure]
    rfl
  · rw [List.forall₂_eq_eq_eq] at limitationsSame
    exact {
      id := rfl
      kind := rfl
      sha256 := shaSame
      name := nameSame
      operation := rfl
      params := paramsSame
      result := resultSame
      summary := rfl
      confidence := rfl
      authority := rfl
      cleanRoom := rfl
      engine := rfl
      host := rfl
      engineVersion := versionSame
      languageId := languageSame
      limitations := limitationsSame
      status := rfl
      examined := examinedSame
      total := totalSame
      nextOffset := offsetSame
      locations := List.forall₂_map_left_iff.mpr locationsSame
      links := rfl
      carriesTargetContent := carriesTruth.symm }

section ReadJson

variable {data : PyValue}

private theorem subjectFrom_isJson (isJson : data.IsJson) {subject : Subject}
    (read : subjectFrom data = .ok subject) : subject.sha256.IsJson ∧ subject.name.IsJson := by
  obtain ⟨kind, _, read⟩ := ok_of_bind read
  obtain ⟨sha256, shaRead, read⟩ := ok_of_bind read
  obtain ⟨name, nameRead, read⟩ := ok_of_bind read
  cases read
  exact ⟨isJson.get .none shaRead, isJson.get .none nameRead⟩

private theorem environmentFrom_isJson (isJson : data.IsJson) {environment : Environment}
    (read : environmentFrom data = .ok environment) :
    environment.engineVersion.IsJson ∧ environment.languageId.IsJson := by
  obtain ⟨cleanRoom, _, read⟩ := ok_of_bind read
  obtain ⟨engine, _, read⟩ := ok_of_bind read
  obtain ⟨host, _, read⟩ := ok_of_bind read
  obtain ⟨engineVersion, versionRead, read⟩ := ok_of_bind read
  obtain ⟨languageId, languageRead, read⟩ := ok_of_bind read
  cases read
  exact ⟨isJson.get .none versionRead, isJson.get .none languageRead⟩

private theorem coverageFrom_isJson (isJson : data.IsJson) {coverage : Coverage}
    (read : coverageFrom data = .ok coverage) :
    coverage.examined.IsJson ∧ coverage.total.IsJson ∧ coverage.nextOffset.IsJson := by
  obtain ⟨statusData, _, read⟩ := ok_of_bind read
  obtain ⟨status, _, read⟩ := ok_of_bind read
  obtain ⟨examined, examinedRead, read⟩ := ok_of_bind read
  obtain ⟨total, totalRead, read⟩ := ok_of_bind read
  obtain ⟨nextOffset, offsetRead, read⟩ := ok_of_bind read
  cases read
  exact ⟨isJson.get .none examinedRead, isJson.get .none totalRead, isJson.get .none offsetRead⟩

private theorem locationFrom_isJson (isJson : data.IsJson) {location : Location}
    (read : locationFrom data = .ok location) : location.label.IsJson := by
  obtain ⟨kind, _, read⟩ := ok_of_bind read
  obtain ⟨value, _, read⟩ := ok_of_bind read
  obtain ⟨label, labelRead, read⟩ := ok_of_bind read
  cases read
  exact isJson.get .none labelRead

end ReadJson

/-- The fields of a record that is read from a JSON value are JSON values. -/
theorem Evidence.jsonValued_of_fromDict {data : PyValue} (isJson : data.IsJson)
    {evidence : Evidence} (read : Evidence.fromDict data = .ok evidence) : evidence.JsonValued := by
  obtain ⟨id, _, read⟩ := ok_of_bind read
  obtain ⟨subjectData, subjectRead, read⟩ := ok_of_bind read
  obtain ⟨subject, subjectBack, read⟩ := ok_of_bind read
  obtain ⟨operation, _, read⟩ := ok_of_bind read
  obtain ⟨params, paramsRead, read⟩ := ok_of_bind read
  obtain ⟨result, resultRead, read⟩ := ok_of_bind read
  obtain ⟨summary, _, read⟩ := ok_of_bind read
  obtain ⟨confidenceData, _, read⟩ := ok_of_bind read
  obtain ⟨confidence, _, read⟩ := ok_of_bind read
  obtain ⟨authorityData, _, read⟩ := ok_of_bind read
  obtain ⟨authority, _, read⟩ := ok_of_bind read
  obtain ⟨environmentData, environmentRead, read⟩ := ok_of_bind read
  obtain ⟨environment, environmentBack, read⟩ := ok_of_bind read
  obtain ⟨limitationData, _, read⟩ := ok_of_bind read
  obtain ⟨limitations, _, read⟩ := ok_of_bind read
  obtain ⟨coverageData, coverageRead, read⟩ := ok_of_bind read
  obtain ⟨coverage, coverageBack, read⟩ := ok_of_bind read
  obtain ⟨locationData, locationRead, read⟩ := ok_of_bind read
  obtain ⟨locations, locationsBack, read⟩ := ok_of_bind read
  obtain ⟨linkData, _, read⟩ := ok_of_bind read
  obtain ⟨links, _, read⟩ := ok_of_bind read
  obtain ⟨carries, _, read⟩ := ok_of_bind read
  cases read
  have subjectJson := isJson.item subjectRead
  have environmentJson := isJson.item environmentRead
  have coverageJson := isJson.get ⟨.object [], ⟨List.nodup_nil, trivial⟩, rfl⟩ coverageRead
  have locationJson := isJson.get (.list fun _ among => absurd among List.not_mem_nil) locationRead
  obtain ⟨sha256, name⟩ := subjectFrom_isJson subjectJson subjectBack
  obtain ⟨engineVersion, languageId⟩ := environmentFrom_isJson environmentJson environmentBack
  obtain ⟨examined, total, nextOffset⟩ := coverageFrom_isJson coverageJson coverageBack
  exact {
    params := isJson.get .none paramsRead
    result := isJson.get .none resultRead
    sha256 := sha256
    name := name
    engineVersion := engineVersion
    languageId := languageId
    examined := examined
    total := total
    nextOffset := nextOffset
    labels := readItems_isJson (fun _ _ itemJson => locationFrom_isJson itemJson) locationJson
      locationsBack }

/-! ### The same content -/

private theorem nonEmpty_same {value other : PyValue} (same : (present value).Same other) :
    Option.Rel PyValue.Same (nonEmpty value) (nonEmpty other) := by
  unfold present at same
  cases truthy : value.isTruthy with
  | false =>
    have absent : nonEmpty value = none := by rw [nonEmpty, truthy]; rfl
    rw [absent] at same ⊢
    rw [same.eq_none]
    exact .none
  | true =>
    have here : nonEmpty value = some value := by rw [nonEmpty, truthy]; rfl
    rw [here] at same ⊢
    have otherHere : nonEmpty other = some other := by
      rw [nonEmpty, ← same.isTruthy_eq, Option.getD_some, truthy]
      rfl
    rw [otherHere]
    exact .some same

private theorem given_same {value other : PyValue} (same : value.Same other) :
    Option.Rel PyValue.Same (given value) (given other) := by
  cases same with
  | none => exact .none
  | bool value => exact .some (.bool value)
  | int value => exact .some (.int value)
  | float digits => exact .some (.float digits)
  | str text => exact .some (.str text)
  | list each => exact .some (.list each)
  | dict each => exact .some (.dict each)

def SameMember (member other : String × PyValue) : Prop :=
  member.1 = other.1 ∧ member.2.Same other.2

private theorem optional_same (name : String) {value other : Option PyValue}
    (same : Option.Rel PyValue.Same value other) :
    List.Forall₂ SameMember (optional name value) (optional name other) := by
  cases same with
  | none => exact .nil
  | some held => exact .cons ⟨rfl, held⟩ .nil

private theorem Evidence.payload_same {left right : Evidence} (same : left.normal.Same right) :
    left.payload.Same right.payload := by
  have subject : (PyValue.record (("kind", .str left.subject.kind) ::
      optional "sha256" (nonEmpty left.subject.sha256))).Same
      (.record (("kind", .str right.subject.kind) ::
        optional "sha256" (nonEmpty right.subject.sha256))) :=
    .record (.cons ⟨rfl, same.kind ▸ .str _⟩ (optional_same _ (nonEmpty_same same.sha256)))
  have environment : (PyValue.record (environmentDict left.environment)).Same
      (.record (environmentDict right.environment)) :=
    .record (.cons ⟨rfl, same.cleanRoom ▸ .bool _⟩ (.cons ⟨rfl, same.engine ▸ .str _⟩
      (.cons ⟨rfl, same.host ▸ .str _⟩
        (List.rel_append (optional_same _ (nonEmpty_same same.engineVersion))
          (optional_same _ (nonEmpty_same same.languageId))))))
  have coverage : (PyValue.record (coverageDict left.coverage)).Same
      (.record (coverageDict right.coverage)) :=
    .record (.cons ⟨rfl, same.status ▸ .str _⟩
      (List.rel_append (optional_same _ (given_same same.examined))
        (List.rel_append (optional_same _ (given_same same.total))
          (optional_same _ (given_same same.nextOffset)))))
  have locations : (PyValue.list (left.locations.map fun item => .record (locationDict item))).Same
      (.list (right.locations.map fun item => .record (locationDict item))) := by
    refine .list ?_
    rw [List.forall₂_map_left_iff, List.forall₂_map_right_iff]
    refine (List.forall₂_map_left_iff.mp same.locations).imp ?_
    rintro one other ⟨kind, value, label⟩
    exact .record (.cons ⟨rfl, kind ▸ .str _⟩ (.cons ⟨rfl, value ▸ .str _⟩
      (optional_same _ (nonEmpty_same label))))
  rw [payload_eq, payload_eq]
  refine .record (.cons ⟨rfl, subject⟩ (.cons ⟨rfl, same.operation ▸ .str _⟩
    (.cons ⟨rfl, same.params⟩ (.cons ⟨rfl, same.result⟩
      (.cons ⟨rfl, same.confidence ▸ .str _⟩ (.cons ⟨rfl, same.authority ▸ .str _⟩
        (.cons ⟨rfl, environment⟩ (.cons ⟨rfl, ?_⟩ (.cons ⟨rfl, coverage⟩
          (.cons ⟨rfl, locations⟩ (.cons ⟨rfl, ?_⟩ .nil)))))))))))
  · rw [← same.limitations]
    exact PyValue.Same.refl (isJson_limitations _)
  · rw [← same.links]
    exact PyValue.Same.texts _

/-! ### Ids -/

namespace Evidence

variable (hash : String → String)

/-- Evidence of JSON values has an id. -/
theorem computeId_ok {evidence : Evidence} (jsonValued : evidence.JsonValued) :
    ∃ id, evidence.computeId hash = .ok id ∧ id ≠ "" := by
  obtain ⟨text, written⟩ := canonicalJson_ok (isJson_payload jsonValued)
  refine ⟨"ev_" ++ hash text, by rw [computeId, written]; rfl, ?_⟩
  intro blank
  have characters := congrArg String.toList blank
  rw [String.toList_append] at characters
  cases characters

private theorem computeId_same {left right : Evidence} (leftJson : left.JsonValued)
    (rightJson : right.JsonValued) (same : left.normal.Same right) :
    left.computeId hash = right.computeId hash := by
  rw [computeId, computeId, canonicalJson_congr (isJson_payload leftJson) (isJson_payload rightJson)
    (payload_same same)]

/-- Evidence is verified when its id is the one that it computes. -/
theorem verify_iff {evidence : Evidence} : evidence.verify hash = .ok true ↔
    evidence.id ≠ "" ∧ evidence.computeId hash = .ok evidence.id := by
  rw [verify]
  split_ifs with unsealed
  · simp [unsealed]
  · cases computed : evidence.computeId hash with
    | error raised => simp [Except.map, unsealed]
    | ok id => simp [Except.map, unsealed]

/-- Evidence of the same content stays verified. -/
theorem verify_same {left right : Evidence} (leftJson : left.JsonValued)
    (rightJson : right.JsonValued) (same : left.normal.Same right)
    (verified : left.verify hash = .ok true) : right.verify hash = .ok true := by
  obtain ⟨isSealed, computed⟩ := (verify_iff hash).mp verified
  have sameId : left.id = right.id := same.id
  rw [verify_iff, ← sameId, ← computeId_same hash leftJson rightJson same]
  exact ⟨isSealed, computed⟩

end Evidence

end Swarmind.ReverseEngineering
