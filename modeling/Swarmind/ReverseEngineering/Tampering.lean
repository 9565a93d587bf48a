import Swarmind.ReverseEngineering.EvidenceLedger

/-!
Owns what the id of an evidence record tells about its content. With an injective digest
two records of one id have the same content, where what is nested deeper than `MAX_DEPTH`
counts as `null`; an edited record neither verifies nor gets through `load`.
-/

namespace Swarmind.ReverseEngineering

open Swarmind.Library

/-! ### Contents -/

/-- Values at a depth of the payload that differ in the order of keys and in what is nested
too deep only. -/
def Alike (depth : Nat) (left right : PyValue) : Prop :=
  (left.cut (maxDepth + 1 - depth)).Same (right.cut (maxDepth + 1 - depth))

/-- Records with the same fields but for `id`, `summary`, `carries_target_content` and
`subject.name`. An empty optional text is an absent one. -/
structure SameContent (alike : Nat → PyValue → PyValue → Prop) (left right : Evidence) : Prop where
  kind : left.subject.kind = right.subject.kind
  sha256 : alike 2 (present left.subject.sha256) (present right.subject.sha256)
  operation : left.operation = right.operation
  params : alike 1 left.params right.params
  result : alike 1 left.result right.result
  confidence : left.confidence = right.confidence
  authority : left.authority = right.authority
  cleanRoom : left.environment.cleanRoom = right.environment.cleanRoom
  engine : left.environment.engine = right.environment.engine
  host : left.environment.host = right.environment.host
  engineVersion : alike 2 (present left.environment.engineVersion)
    (present right.environment.engineVersion)
  languageId : alike 2 (present left.environment.languageId) (present right.environment.languageId)
  limitations : left.limitations = right.limitations
  status : left.coverage.status = right.coverage.status
  examined : alike 2 left.coverage.examined right.coverage.examined
  total : alike 2 left.coverage.total right.coverage.total
  nextOffset : alike 2 left.coverage.nextOffset right.coverage.nextOffset
  locations : List.Forall₂ (fun one other => one.kind = other.kind ∧ one.value = other.value ∧
    alike 3 (present one.label) (present other.label)) left.locations right.locations
  links : left.links = right.links

/-! ### Members of cut records -/

private theorem cut_record (levels : Nat) (members : List (String × PyValue)) :
    (PyValue.record members).cut (levels + 1) =
      .record (members.map fun member => (member.1, member.2.cut levels)) := by
  rw [PyValue.record, PyValue.cut, PyValue.record, List.map_map, List.map_map]
  rfl

section Cut

variable {levels : Nat} {members others : List (String × PyValue)}

section

variable (same : ((PyValue.record members).cut (levels + 1)).Same
  ((PyValue.record others).cut (levels + 1)))
include same

private theorem related_of_cut_same (name : String) :
    Option.Rel (fun one other => (one.cut levels).Same (other.cut levels))
      (Dict.find name members) (Dict.find name others) := by
  rw [cut_record, cut_record] at same
  obtain ⟨entries, sameEntries, each⟩ := same.find
  have related := each name
  rw [PyValue.record, PyValue.dict.injEq] at sameEntries
  rw [← sameEntries, PyValue.find_record, Dict.find_map, Dict.find_map] at related
  cases left : Dict.find name members with
  | none =>
    cases right : Dict.find name others with
    | none => exact .none
    | some other =>
      rw [left, right] at related
      cases related
  | some one =>
    cases right : Dict.find name others with
    | none =>
      rw [left, right] at related
      cases related
    | some other =>
      rw [left, right] at related
      cases related with
      | some held => exact .some held

private theorem member_of_cut_same (name : String) {one other : PyValue}
    (found : Dict.find name members = some one) (foundOther : Dict.find name others = some other) :
    (one.cut levels).Same (other.cut levels) := by
  have related := related_of_cut_same same name
  rw [found, foundOther] at related
  cases related with
  | some held => exact held

end

private theorem text_of_cut_same {one other : String}
    (same : ((PyValue.str one).cut (levels + 1)).Same ((PyValue.str other).cut (levels + 1))) :
    one = other := by
  have texts : (PyValue.str one).Same (.str other) := same
  cases texts
  rfl

private theorem texts_of_cut_same {one other : List String}
    (same : ((PyValue.list (one.map .str)).cut (levels + 2)).Same
      ((PyValue.list (other.map .str)).cut (levels + 2))) : one = other := by
  have plain (texts : List String) : (PyValue.list (texts.map .str)).cut (levels + 2) =
      .list (texts.map .str) := by
    rw [PyValue.cut, List.map_map]
    rfl
  rw [plain, plain] at same
  have lists := same.eq_texts
  rw [PyValue.list.injEq] at lists
  have injective : Function.Injective PyValue.str := fun _ _ => PyValue.str.inj
  exact (injective.list_map lists).symm

private theorem optional_of_cut_same (same : ((PyValue.record members).cut (levels + 1)).Same
      ((PyValue.record others).cut (levels + 1))) (name : String) {one other : Option PyValue}
    (found : Dict.find name members = one) (foundOther : Dict.find name others = other) :
    ((one.getD .none).cut levels).Same ((other.getD .none).cut levels) := by
  have related := related_of_cut_same same name
  rw [found, foundOther] at related
  cases related with
  | some held => exact held
  | none => cases levels <;> exact .none

private theorem items_of_cut_same {α : Type} {write : α → List (String × PyValue)}
    {items backs : List α}
    (same : ((PyValue.list (items.map fun item => .record (write item))).cut (levels + 1)).Same
      ((PyValue.list (backs.map fun item => .record (write item))).cut (levels + 1))) :
    List.Forall₂ (fun item back => ((PyValue.record (write item)).cut levels).Same
      ((PyValue.record (write back)).cut levels)) items backs := by
  rw [PyValue.cut, PyValue.cut, List.map_map, List.map_map] at same
  cases same with
  | list each => rwa [List.forall₂_map_left_iff, List.forall₂_map_right_iff] at each

end Cut

/-! ### Contents of one payload -/

section Payload

variable {levels : Nat} {left right : Evidence}

private theorem subject_of_cut_same {one other : Subject}
    (same : ((PyValue.record (("kind", .str one.kind) ::
        optional "sha256" (nonEmpty one.sha256))).cut (levels + 2)).Same
      ((PyValue.record (("kind", .str other.kind) ::
        optional "sha256" (nonEmpty other.sha256))).cut (levels + 2))) :
    one.kind = other.kind ∧
      ((present one.sha256).cut (levels + 1)).Same ((present other.sha256).cut (levels + 1)) := by
  refine ⟨text_of_cut_same (member_of_cut_same same "kind" rfl rfl), ?_⟩
  refine optional_of_cut_same same "sha256" ?_ ?_ <;> simp [Dict.find, find_last_optional]

private theorem environment_of_cut_same {one other : Environment}
    (same : ((PyValue.record (environmentDict one)).cut (levels + 2)).Same
      ((PyValue.record (environmentDict other)).cut (levels + 2))) :
    one.cleanRoom = other.cleanRoom ∧ one.engine = other.engine ∧ one.host = other.host ∧
      ((present one.engineVersion).cut (levels + 1)).Same
        ((present other.engineVersion).cut (levels + 1)) ∧
      ((present one.languageId).cut (levels + 1)).Same
        ((present other.languageId).cut (levels + 1)) := by
  have flags : (PyValue.bool one.cleanRoom).Same (.bool other.cleanRoom) :=
    member_of_cut_same same "clean_room" rfl rfl
  refine ⟨?_, text_of_cut_same (member_of_cut_same same "engine" rfl rfl),
    text_of_cut_same (member_of_cut_same same "host" rfl rfl), ?_, ?_⟩
  · exact (PyValue.bool.inj flags.eq_bool).symm
  · refine optional_of_cut_same same "engine_version" ?_ ?_ <;>
      simp [environmentDict, Dict.find, find_optional, find_last_optional]
  · refine optional_of_cut_same same "language_id" ?_ ?_ <;>
      simp [environmentDict, Dict.find, find_optional, find_last_optional]

private theorem coverage_of_cut_same {one other : Coverage}
    (same : ((PyValue.record (coverageDict one)).cut (levels + 2)).Same
      ((PyValue.record (coverageDict other)).cut (levels + 2))) :
    one.status = other.status ∧
      (one.examined.cut (levels + 1)).Same (other.examined.cut (levels + 1)) ∧
      (one.total.cut (levels + 1)).Same (other.total.cut (levels + 1)) ∧
      (one.nextOffset.cut (levels + 1)).Same (other.nextOffset.cut (levels + 1)) := by
  have texts := text_of_cut_same (member_of_cut_same same "status" rfl rfl)
  rw [← getD_given one.examined, ← getD_given one.total, ← getD_given one.nextOffset,
    ← getD_given other.examined, ← getD_given other.total, ← getD_given other.nextOffset]
  refine ⟨CoverageStatus.lawful.injective texts, ?_, ?_, ?_⟩
  · refine optional_of_cut_same same "examined" ?_ ?_ <;>
      simp [coverageDict, Dict.find, find_optional, find_last_optional]
  · refine optional_of_cut_same same "total" ?_ ?_ <;>
      simp [coverageDict, Dict.find, find_optional, find_last_optional]
  · refine optional_of_cut_same same "next_offset" ?_ ?_ <;>
      simp [coverageDict, Dict.find, find_optional, find_last_optional]

private theorem limitations_of_cut_same {one other : List Limitation}
    (same : ((PyValue.list (one.map fun item => .record (limitationDict item))).cut
        (levels + 3)).Same
      ((PyValue.list (other.map fun item => .record (limitationDict item))).cut (levels + 3))) :
    one = other := by
  rw [← List.forall₂_eq_eq_eq]
  refine (items_of_cut_same same).imp fun limitation back held => ?_
  have code := text_of_cut_same (member_of_cut_same held "code" rfl rfl)
  have message := text_of_cut_same (member_of_cut_same held "message" rfl rfl)
  cases limitation
  cases back
  cases code
  cases message
  rfl

private theorem locations_of_cut_same {one other : List Location}
    (same : ((PyValue.list (one.map fun item => .record (locationDict item))).cut
        (levels + 3)).Same
      ((PyValue.list (other.map fun item => .record (locationDict item))).cut (levels + 3))) :
    List.Forall₂ (fun location back => location.kind = back.kind ∧ location.value = back.value ∧
      ((present location.label).cut (levels + 1)).Same ((present back.label).cut (levels + 1)))
      one other := by
  refine (items_of_cut_same same).imp fun location back held => ?_
  refine ⟨text_of_cut_same (member_of_cut_same held "kind" rfl rfl),
    text_of_cut_same (member_of_cut_same held "value" rfl rfl), ?_⟩
  refine optional_of_cut_same held "label" ?_ ?_ <;>
    simp [locationDict, Dict.find, find_last_optional]

private theorem sameContent_of_cut_same
    (same : (left.payload.cut (levels + 4)).Same (right.payload.cut (levels + 4))) :
    SameContent (fun depth one other =>
      (one.cut (levels + 4 - depth)).Same (other.cut (levels + 4 - depth))) left right := by
  rw [Evidence.payload_eq, Evidence.payload_eq] at same
  obtain ⟨kind, sha256⟩ := subject_of_cut_same (member_of_cut_same same "subject" rfl rfl)
  obtain ⟨cleanRoom, engine, host, engineVersion, languageId⟩ :=
    environment_of_cut_same (member_of_cut_same same "environment" rfl rfl)
  obtain ⟨status, examined, total, nextOffset⟩ :=
    coverage_of_cut_same (member_of_cut_same same "coverage" rfl rfl)
  have confidence := text_of_cut_same (member_of_cut_same same "confidence" rfl rfl)
  have authority := text_of_cut_same (member_of_cut_same same "authority" rfl rfl)
  exact {
    kind := kind
    sha256 := sha256
    operation := text_of_cut_same (member_of_cut_same same "operation" rfl rfl)
    params := member_of_cut_same same "params" rfl rfl
    result := member_of_cut_same same "result" rfl rfl
    confidence := Confidence.lawful.injective confidence
    authority := Authority.lawful.injective authority
    cleanRoom := cleanRoom
    engine := engine
    host := host
    engineVersion := engineVersion
    languageId := languageId
    limitations := limitations_of_cut_same (member_of_cut_same same "limitations" rfl rfl)
    status := status
    examined := examined
    total := total
    nextOffset := nextOffset
    locations := locations_of_cut_same (member_of_cut_same same "locations" rfl rfl)
    links := texts_of_cut_same (member_of_cut_same same "links" rfl rfl) }

end Payload

/-! ### Tamper evidence -/

section Tampering

variable (hash : String → String)

private theorem sameContent_of_computeId_eq (injective : Function.Injective hash)
    {left right : Evidence}
    (leftJson : left.JsonValued) (rightJson : right.JsonValued)
    (same : left.computeId hash = right.computeId hash) : SameContent Alike left right := by
  obtain ⟨one, leftText⟩ := canonicalJson_ok (Evidence.isJson_payload leftJson)
  obtain ⟨other, rightText⟩ := canonicalJson_ok (Evidence.isJson_payload rightJson)
  rw [Evidence.computeId, Evidence.computeId, leftText, rightText, Except.map, Except.map,
    Except.ok.injEq] at same
  have characters := congrArg String.toList same
  rw [String.toList_append, String.toList_append, List.append_cancel_left_eq] at characters
  have texts : one = other := injective (String.toList_inj.mp characters)
  exact sameContent_of_cut_same (same_of_canonicalJson_eq (Evidence.isJson_payload leftJson)
    (Evidence.isJson_payload rightJson) (by rw [leftText, rightText, texts]))

private theorem verify_edited (injective : Function.Injective hash) {stored edited : Evidence}
    (storedJson : stored.JsonValued) (editedJson : edited.JsonValued)
    (verified : stored.verify hash = .ok true) (sameId : edited.id = stored.id)
    (changed : ¬SameContent Alike stored edited) : edited.verify hash = .ok false := by
  obtain ⟨isSealed, computed⟩ := (Evidence.verify_iff hash).mp verified
  obtain ⟨id, editedComputed, _⟩ := Evidence.computeId_ok hash editedJson
  have different : id ≠ edited.id := by
    intro same
    refine changed (sameContent_of_computeId_eq hash injective storedJson editedJson ?_)
    rw [computed, editedComputed, same, sameId]
  rw [Evidence.verify, if_neg (sameId ▸ isSealed), editedComputed, Except.map,
    decide_eq_false different]

private theorem raises_load {path : String} {text line : List Char} {json : Json}
    {record : Evidence}
    (among : line ∈ splitLines text) (notBlank : line.all isSpace = false)
    (decoded : Json.decode line = some json) (read : Evidence.fromDict json.loads = .ok record)
    (refused : record.verify hash = .ok false) :
    Raises (EvidenceLedger.load hash path (some text)) := by
  cases loaded : EvidenceLedger.load hash path (some text) with
  | error raised => exact ⟨raised, rfl⟩
  | ok ledger =>
    obtain ⟨other, position, before, after, isOther, ingested⟩ :=
      (EvidenceLedger.reader hash path).ingested_of_readLines loaded line among notBlank
    rw [decoded, Option.some.injEq] at isOther
    subst isOther
    rw [EvidenceLedger.reader] at ingested
    dsimp only at ingested
    rw [read, Except.bind, refused] at ingested
    cases ingested

/-- One id, one content, and no edit of the content that verifies or loads. -/
theorem tamper_evident (injective : Function.Injective hash) :
    (∀ left right : PyValue, left.IsJson → right.IsJson →
      canonicalJson left = canonicalJson right → Alike 0 left right) ∧
    (∀ left right : Evidence, left.JsonValued → right.JsonValued →
      left.computeId hash = right.computeId hash → SameContent Alike left right) ∧
    ∀ stored edited : Evidence, stored.JsonValued → edited.JsonValued →
      stored.verify hash = .ok true → edited.id = stored.id → ¬SameContent Alike stored edited →
        edited.verify hash = .ok false ∧
        ∀ path text line json, line ∈ splitLines text → line.all isSpace = false →
          Json.decode line = some json → Evidence.fromDict json.loads = .ok edited →
            Raises (EvidenceLedger.load hash path (some text)) := by
  refine ⟨fun left right => same_of_canonicalJson_eq,
    fun left right => sameContent_of_computeId_eq hash injective, ?_⟩
  intro stored edited storedJson editedJson verified sameId changed
  have refused := verify_edited hash injective storedJson editedJson verified sameId changed
  refine ⟨refused, fun path text line json among notBlank decoded read => ?_⟩
  exact raises_load hash among notBlank decoded read refused

end Tampering

/-- The canonical text of an observation and its SHA-256. -/
def scanText : String :=
  "\x7b\"authority\":\"original-files\",\"confidence\":\"observed\",\"coverage\":" ++
    "\x7b\"status\":\"unknown\"\x7d,\"environment\":\x7b\"clean_room\":true,\"engine\":" ++
    "\"static\",\"host\":\"local\"\x7d,\"limitations\":[],\"links\":[],\"locations\":[]," ++
    "\"operation\":\"scan\",\"params\":null,\"result\":null,\"subject\":\x7b\"kind\":\"file\"" ++
    "\x7d\x7d"

def scanDigest : String := "cbad4368ad41f862163edb83dfb8545552d19216f25a37bfa35b337b5cf95a7e"

private theorem canonicalJson_scan (id : String) :
    canonicalJson (EvidenceLedger.observation "scan" id).payload = .ok scanText := by
  have payload : (EvidenceLedger.observation "scan" id).payload =
      (EvidenceLedger.observation "scan").payload := by
    rw [Evidence.payload_eq, Evidence.payload_eq]
    rfl
  have text : (canonicalJson (EvidenceLedger.observation "scan").payload).toOption =
      some scanText := by
    decide +kernel
  rw [payload]
  cases written : canonicalJson (EvidenceLedger.observation "scan").payload with
  | error raised =>
    rw [written] at text
    cases text
  | ok other =>
    rw [written] at text
    exact congrArg Except.ok (Option.some.inj text)

private theorem verify_scan : (EvidenceLedger.observation "scan" ("ev_" ++ scanDigest)).verify
    (digestAt scanText scanDigest) = .ok true := by
  refine (Evidence.verify_iff _).mpr ⟨by decide +kernel, ?_⟩
  rw [Evidence.computeId, canonicalJson_scan, Except.map, digestAt, if_pos rfl]
  rfl

/-- The edit of an operation is found out. -/
theorem verify_scan_edited :
    (EvidenceLedger.observation "hash" ("ev_" ++ scanDigest)).verify
      (digestAt scanText scanDigest) = .ok false :=
  ((tamper_evident (digestAt scanText scanDigest)
    fun _ _ => digestAt_injective (by decide +kernel)).2.2
      (EvidenceLedger.observation "scan" ("ev_" ++ scanDigest)) _
      (EvidenceLedger.observation_jsonValued "scan" _)
      (EvidenceLedger.observation_jsonValued "hash" _)
      verify_scan rfl (fun same => absurd same.operation (by decide +kernel))).1

/-! ### What is nested too deep -/

/-- A value inside `count` lists. -/
def nested : Nat → PyValue → PyValue
  | 0, value => value
  | count + 1, value => .list [nested count value]

private theorem nested_cut (count : Nat) (value : PyValue) :
    (nested count value).cut count = nested count .none := by
  induction count with
  | zero => rfl
  | succ count ih =>
    rw [nested, PyValue.cut, List.map_cons, ih]
    rfl

private theorem nested_isJson {value : PyValue} (isJson : value.IsJson) (count : Nat) :
    (nested count value).IsJson := by
  induction count with
  | zero => exact isJson
  | succ count ih => exact .list (List.forall_mem_singleton.mpr ih)

private theorem same_of_nested_same {value other : PyValue} {count : Nat}
    (same : (nested count value).Same (nested count other)) : value.Same other := by
  induction count with
  | zero => exact same
  | succ count ih =>
    cases same with
    | list each =>
      cases each with
      | cons head _ => exact ih head

private theorem isJson_cut {value : PyValue} (isJson : value.IsJson) (levels : Nat) :
    (value.cut levels).IsJson := by
  obtain ⟨json, standard, rfl⟩ := isJson
  exact ⟨json.cut levels, Json.standard_cut levels standard, Json.value_cut levels json⟩

/-- An observation whose parameter is nested too deep. -/
def buried (value : Int) : Evidence :=
  { EvidenceLedger.observation "scan" with params := nested maxDepth (.int value) }

private theorem buried_jsonValued (value : Int) : (buried value).JsonValued :=
  { EvidenceLedger.observation_jsonValued "scan" "" with
    params := nested_isJson (.int value) maxDepth }

/-- Parameters that differ below `MAX_DEPTH` alone have one id. -/
theorem not_sameContent_buried : ¬∃ hash, ∀ left right : Evidence, left.JsonValued →
    right.JsonValued → left.computeId hash = right.computeId hash →
      SameContent (fun _ => PyValue.Same) left right := by
  rintro ⟨hash, tells⟩
  have payload (value : Int) : (buried value).payload.cut (maxDepth + 1) =
      (buried 0).payload.cut (maxDepth + 1) := by
    have params : (buried value).params.cut maxDepth = (buried 0).params.cut maxDepth := by
      rw [buried, buried, nested_cut, nested_cut]
    rw [Evidence.payload_eq, Evidence.payload_eq, cut_record, cut_record]
    simp only [List.map_cons, params]
    rfl
  have cutJson := isJson_cut (Evidence.isJson_payload (buried_jsonValued 0)) (maxDepth + 1)
  have sameId : (buried 1).computeId hash = (buried 2).computeId hash := by
    rw [Evidence.computeId, Evidence.computeId, canonicalJson_eq_of_cut
      (Evidence.isJson_payload (buried_jsonValued 1)) (Evidence.isJson_payload (buried_jsonValued 2))
      (by rw [payload 1, payload 2]; exact .refl cutJson)]
  have told := tells (buried 1) (buried 2) (buried_jsonValued 1) (buried_jsonValued 2) sameId
  cases same_of_nested_same told.params

end Swarmind.ReverseEngineering
