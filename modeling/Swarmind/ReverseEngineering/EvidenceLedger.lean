import Swarmind.Library.Runs
import Swarmind.ReverseEngineering.Evidence

/-!
Owns the evidence ledger, its journal and its runs of `add` and `extend`. The writer frames
one document a line with the characters of its texts as they are, and the reader cuts at
every character that `str.splitlines` takes for a line break.
-/

namespace Swarmind.ReverseEngineering

open Swarmind.Library

abbrev EvidenceLedger : Type := Dict String Evidence

namespace EvidenceLedger

variable (hash : String → String)

/-! ### Adding -/

def tampered (evidence : Evidence) : PyException :=
  ⟨"EvidenceTampered", s!"WHAT: id {pyRepr evidence.id} no coincide con el contenido " ++
    "WHY: evidencia manipulada o serializada de forma distinta " ++
    s!"WHERE: EvidenceLedger.add({pyRepr evidence.operation})"⟩

/-- `evidence` as `add` keeps it: sealed where it has no id, verified where it has one. -/
def accept (evidence : Evidence) : Except PyException Evidence :=
  if evidence.id = "" then evidence.sealed hash
  else
    (evidence.verify hash).bind fun verified =>
      if verified then .ok evidence else .error (tampered evidence)

def add (ledger : EvidenceLedger) (evidence : Evidence) :
    Except PyException (String × EvidenceLedger) :=
  (accept hash evidence).map fun admitted =>
    (admitted.id,
      if ledger.contains admitted.id then ledger else ledger.set admitted.id admitted)

/-- `extend`: the records before one that raises stay. -/
def extend (ledger : EvidenceLedger) : List Evidence → Except PyException Unit × EvidenceLedger
  | [] => (.ok (), ledger)
  | record :: rest =>
    match add hash ledger record with
    | .ok (_, next) => extend next rest
    | .error raised => (.error raised, ledger)

inductive Call where
  | add (evidence : Evidence)
  | extend (records : List Evidence)

def Call.records : Call → List Evidence
  | .add evidence => [evidence]
  | .extend records => records

def step (ledger : EvidenceLedger) : Call → Except PyException Unit × EvidenceLedger
  | .add evidence =>
    match add hash ledger evidence with
    | .ok (_, next) => (.ok (), next)
    | .error raised => (.error raised, ledger)
  | .extend records => extend hash ledger records

def machine : Machine EvidenceLedger Call (Except PyException Unit) where
  step := step hash

/-! ### Saving and loading -/

/-- The order of `sort_keys` on texts. -/
def codePoints (text : String) : List Nat := text.toList.map Char.toNat

/-- The document of a record; `none` is the `TypeError` of `json.dumps`. -/
def document (record : Evidence) : Option Json :=
  (PyValue.record record.toDict).dumps.map (Json.sortBy codePoints)

def toJsonl (ledger : EvidenceLedger) : Option (List Char) :=
  (ledger.values.mapM document).map fun documents =>
    ['\n'].intercalate (documents.map Json.encode) ++ if ledger.values = [] then [] else ['\n']

def tamperedLine (path : String) (number : Nat) (record : Evidence) : PyException :=
  ⟨"EvidenceTampered", s!"WHAT: evidencia manipulada en {path} línea {number} " ++
    s!"WHY: id {pyRepr record.id} != sha256 del contenido " ++ "WHERE: EvidenceLedger.load"⟩

/-- The reader of `load`. The text of a `JSONDecodeError` is left out. -/
def reader (path : String) : JournalReader EvidenceLedger where
  corrupt _ := ⟨"JSONDecodeError", ""⟩
  ingest number ledger value :=
    (Evidence.fromDict value).bind fun record =>
      (record.verify hash).bind fun verified =>
        if verified then (add hash ledger record).map Prod.snd
        else .error (tamperedLine path number record)

/-- `load` of the text under `path`, or of none. -/
def load (path : String) : Option (List Char) → Except PyException EvidenceLedger
  | none => .ok Dict.empty
  | some text => (reader hash path).load Dict.empty text

/-! ### Ledgers that runs reach -/

/-- Every record is filed under the id of its content. -/
def Sealed (ledger : EvidenceLedger) : Prop :=
  ∀ id record, ledger.get? id = some record →
    record.id = id ∧ record.verify hash = .ok true ∧ record.JsonValued

private theorem Sealed.empty : Sealed hash Dict.empty := fun _ _ found => by cases found

private theorem accept_ok {evidence admitted : Evidence} (jsonValued : evidence.JsonValued)
    (went : accept hash evidence = .ok admitted) :
    admitted.verify hash = .ok true ∧ admitted.JsonValued := by
  unfold accept at went
  split_ifs at went with unsealed
  · obtain ⟨id, computed, nonempty⟩ := Evidence.computeId_ok hash jsonValued
    rw [Evidence.sealed, computed] at went
    cases went
    have sealedJson : ({ evidence with id := id } : Evidence).JsonValued :=
      { jsonValued with }
    refine ⟨(Evidence.verify_iff hash).mpr ⟨nonempty, ?_⟩, sealedJson⟩
    rw [Evidence.computeId, Evidence.payload_eq]
    rw [Evidence.computeId, Evidence.payload_eq] at computed
    exact computed
  · obtain ⟨verified, isVerified, went⟩ := ok_of_bind went
    cases verified with
    | true =>
      cases went
      exact ⟨isVerified, jsonValued⟩
    | false => cases went

private theorem add_ok {ledger next : EvidenceLedger} (isSealed : Sealed hash ledger)
    {evidence : Evidence} (jsonValued : evidence.JsonValued) {id : String}
    (added : add hash ledger evidence = .ok (id, next)) : Sealed hash next := by
  obtain ⟨admitted, went, same⟩ := ok_of_map added
  obtain ⟨verified, admittedJson⟩ := accept_ok hash jsonValued went
  cases same
  split_ifs
  · exact isSealed
  · rintro other record found
    rw [Dict.get?_set] at found
    split_ifs at found with here
    · obtain rfl := Option.some.inj found
      exact ⟨here, verified, admittedJson⟩
    · exact isSealed other record found

variable {ledger : EvidenceLedger} {records : List Evidence}

private theorem extend_sealed
    (isSealed : Sealed hash ledger) (each : ∀ record ∈ records, record.JsonValued) :
    Sealed hash (extend hash ledger records).2 := by
  induction records generalizing ledger with
  | nil => exact isSealed
  | cons record rest ih =>
    rw [List.forall_mem_cons] at each
    rw [extend]
    cases added : add hash ledger record with
    | error raised => exact isSealed
    | ok pair =>
      obtain ⟨id, next⟩ := pair
      exact ih (add_ok hash isSealed each.1 added) each.2

private theorem step_sealed (call : Call) (isSealed : Sealed hash ledger)
    (each : ∀ record ∈ call.records, record.JsonValued) :
    Sealed hash (step hash ledger call).2 := by
  cases call with
  | add evidence =>
    rw [Call.records, List.forall_mem_singleton] at each
    rw [step]
    cases added : add hash ledger evidence with
    | error raised => exact isSealed
    | ok pair =>
      obtain ⟨id, next⟩ := pair
      exact add_ok hash isSealed each added
  | extend records => exact extend_sealed hash isSealed each

private theorem after_sealed {calls : List Call}
    (each : ∀ call ∈ calls, ∀ record ∈ call.records, record.JsonValued) :
    Sealed hash ((machine hash).after Dict.empty calls) :=
  Machine.invariant_after (Sealed hash)
    (fun _ call isSealed records => step_sealed hash call isSealed records) (Sealed.empty hash)
    ((machine hash).along_of_mem each Dict.empty)

/-! ### Documents of records -/

theorem codePoints_injective : Function.Injective codePoints := by
  intro left right same
  have injective : Function.Injective Char.toNat := fun one other codes =>
    Char.ext (UInt32.toNat_inj.mp codes)
  exact String.toList_inj.mp (injective.list_map same)

/-- A document of a record, in the sorted form it is written in. -/
structure Documents (record : Evidence) (json : Json) : Prop where
  written : document record = some json
  standard : json.Standard
  isRecord : json.IsRecord
  same : (PyValue.record record.toDict).Same json.value

private theorem exists_documents {record : Evidence} (jsonValued : record.JsonValued) :
    ∃ json, Documents record json := by
  obtain ⟨json, standard, value⟩ := record.isJson_toDict jsonValued
  have sorted := Json.standard_sortBy codePoints standard
  refine ⟨json.sortBy codePoints, ?_, sorted, ⟨sorted.textual, ?_⟩, ?_⟩
  · rw [document, ← value, Json.dumps_value]
    rfl
  · cases json with
    | object members => exact ⟨_, by rw [Json.sortBy]⟩
    | null | bool _ | int _ | float _ | str _ | array _ => cases value
  · rw [← value]
    exact Json.same_of_sortBy_eq codePoints standard.distinct sorted.distinct
      (Json.sortBy_sortBy codePoints codePoints codePoints_injective standard.distinct).symm

private theorem exists_mapM (each : ∀ record ∈ records, record.JsonValued) :
    ∃ documents, List.Forall₂ Documents records documents ∧
      records.mapM document = some documents := by
  induction records with
  | nil => exact ⟨[], .nil, rfl⟩
  | cons record rest ih =>
    rw [List.forall_mem_cons] at each
    obtain ⟨json, here⟩ := exists_documents each.1
    obtain ⟨documents, later, mapped⟩ := ih each.2
    refine ⟨json :: documents, .cons here later, ?_⟩
    rw [List.mapM_cons, here.written, mapped]
    rfl

private theorem lines_eq_intercalate (documents : List Json) :
    (['
'].intercalate (documents.map Json.encode) ++ if documents = [] then [] else ['
']) =
      Json.lines documents := by
  induction documents with
  | nil => rfl
  | cons document rest ih =>
    cases rest with
    | nil => simp [Json.lines]
    | cons other later =>
      rw [Json.lines, List.flatMap_cons, ← Json.lines, ← ih]
      simp

private theorem exists_toJsonl (each : ∀ record ∈ ledger.values, record.JsonValued) :
    ∃ documents, List.Forall₂ Documents ledger.values documents ∧
      toJsonl ledger = some (Json.lines documents) := by
  obtain ⟨documents, pairs, mapped⟩ := exists_mapM each
  have empty : (ledger.values = []) = (documents = []) := by
    rw [← List.length_eq_zero_iff, pairs.length_eq, List.length_eq_zero_iff]
  refine ⟨documents, pairs, ?_⟩
  rw [toJsonl, mapped, Option.map_some, ← lines_eq_intercalate]
  simp only [empty]

/-! ### Reading the journal back -/

section Loading

variable (path : String) {record : Evidence}

private theorem ingest_document {json : Json} (written : Documents record json)
    (jsonValued : record.JsonValued) (verified : record.verify hash = .ok true)
    {ledger : EvidenceLedger} (fresh : record.id ∉ ledger.keys) (number : Nat) :
    ∃ back, (reader hash path).ingest number ledger json.loads = .ok (ledger.set record.id back) ∧
      record.normal.Same back ∧ back.verify hash = .ok true := by
  obtain ⟨back, read, same⟩ := Evidence.fromDict_same written.same
  have backJson := Evidence.jsonValued_of_fromDict ⟨json, written.standard, rfl⟩ read
  have backVerified := Evidence.verify_same hash jsonValued backJson same verified
  obtain ⟨isSealed, _⟩ := (Evidence.verify_iff hash).mp backVerified
  have sameId : record.id = back.id := same.id
  have added : add hash ledger back = .ok (back.id, ledger.set back.id back) := by
    have absent : ¬ledger.contains back.id = true := by
      rw [Dict.contains_iff, ← sameId]
      exact fresh
    rw [add, accept, if_neg isSealed, backVerified, Except.bind, if_pos rfl, Except.map,
      if_neg absent]
  refine ⟨back, ?_, same, backVerified⟩
  rw [reader, Json.loads_eq_value written.standard.distinct]
  dsimp only
  rw [read, Except.bind, backVerified, Except.bind, if_pos rfl, added, sameId]
  rfl

private theorem ingestAll_documents {records : List Evidence} {documents : List Json}
    (pairs : List.Forall₂ Documents records documents)
    (each : ∀ record ∈ records, record.JsonValued ∧ record.verify hash = .ok true)
    {ledger : EvidenceLedger} (distinct : (ledger.keys ++ records.map Evidence.id).Nodup)
    (number : Nat) :
    ∃ loaded, (reader hash path).ingestAll number documents ledger = .ok loaded ∧
      loaded.keys = ledger.keys ++ records.map Evidence.id ∧
      (∀ id ∈ ledger.keys, loaded.get? id = ledger.get? id) ∧
      ∀ record ∈ records, ∃ back, loaded.get? record.id = some back ∧ record.normal.Same back ∧
        back.verify hash = .ok true := by
  induction pairs generalizing ledger number with
  | nil =>
    refine ⟨ledger, rfl, by simp, fun _ _ => rfl, fun _ among => absurd among List.not_mem_nil⟩
  | @cons record json records documents here _ ih =>
    rw [List.forall_mem_cons] at each
    rw [List.map_cons] at distinct
    have fresh : record.id ∉ ledger.keys := by
      rw [List.nodup_append] at distinct
      exact fun held => distinct.2.2 _ held _ List.mem_cons_self rfl
    obtain ⟨back, ingested, same, verified⟩ :=
      ingest_document hash path here each.1.1 each.1.2 fresh number
    have keys : (ledger.set record.id back).keys = ledger.keys ++ [record.id] := by
      rw [Dict.keys_set, if_neg fresh]
    have nextDistinct :
        ((ledger.set record.id back).keys ++ records.map Evidence.id).Nodup := by
      rw [keys, List.append_assoc]
      exact distinct
    obtain ⟨loaded, went, loadedKeys, kept, found⟩ :=
      ih each.2 nextDistinct (number + 1)
    refine ⟨loaded, ?_, ?_, ?_, ?_⟩
    · rw [JournalReader.ingestAll, ingested]
      exact went
    · rw [loadedKeys, keys, List.map_cons, List.append_assoc, List.singleton_append]
    · intro id held
      have different : record.id ≠ id := fun same => fresh (same ▸ held)
      rw [kept id (by rw [keys]; exact List.mem_append_left _ held),
        Dict.get?_set_of_ne ledger back different]
    · rw [List.forall_mem_cons]
      refine ⟨⟨back, ?_, same, verified⟩, found⟩
      rw [kept record.id (by rw [keys]; exact List.mem_append_right _ List.mem_cons_self),
        Dict.get?_set, if_pos rfl]

end Loading

/-! ### Round trips -/

/-- An optional field that is absent or not empty. -/
def Kept (value : PyValue) : Prop := value = .none ∨ value.isTruthy = true

/-- What a record needs to come back equal. -/
structure Portable (record : Evidence) : Prop where
  oneLine : ∀ json, document record = some json → json.OneLine
  sha256 : Kept record.subject.sha256
  name : Kept record.subject.name
  engineVersion : Kept record.environment.engineVersion
  languageId : Kept record.environment.languageId
  labels : ∀ location ∈ record.locations, Kept location.label

/-- The ledger that is loaded from what has been saved has the same ids in the same order,
and under each id an equal record that verifies. -/
def RoundTrip (path : String) (ledger : EvidenceLedger) : Prop :=
  ∃ text loaded, toJsonl ledger = some text ∧ load hash path (some text) = .ok loaded ∧
    loaded.keys = ledger.keys ∧
    ∀ id record, ledger.get? id = some record →
      ∃ back, loaded.get? id = some back ∧ record.Same back ∧ back.verify hash = .ok true

private theorem present_eq {value : PyValue} (kept : Kept value) : present value = value := by
  rcases kept with rfl | truthy
  · rfl
  · rw [present, nonEmpty, if_pos truthy, Option.getD_some]

private theorem kept_of_same {value back : PyValue} (same : value.Same back)
    (presentSame : (present value).Same back) : Kept value := by
  cases truthy : value.isTruthy with
  | true => exact .inr truthy
  | false =>
    have absent : present value = .none := by rw [present, nonEmpty, truthy]; rfl
    rw [absent] at presentSame
    rw [presentSame.eq_none] at same
    cases same
    exact .inl rfl

private theorem kept_labels {locations backs : List Location}
    (same : List.Forall₂ (fun one other => one.kind = other.kind ∧ one.value = other.value ∧
      one.label.Same other.label) locations backs)
    (presentSame : List.Forall₂ (fun one other : Location => one.kind = other.kind ∧
      one.value = other.value ∧ (present one.label).Same other.label) locations backs) :
    ∀ location ∈ locations, Kept location.label := by
  induction same with
  | nil => exact fun _ among => absurd among List.not_mem_nil
  | cons head _ ih =>
    cases presentSame with
    | cons presentHead later =>
      exact List.forall_mem_cons.mpr
        ⟨kept_of_same head.2.2 presentHead.2.2, ih later⟩

private theorem normal_eq {record : Evidence} (portable : Portable record) :
    record.normal = record := by
  have labels : (record.locations.map fun item => { item with label := present item.label }) =
      record.locations := by
    conv_rhs => rw [← List.map_id record.locations]
    refine List.map_congr_left fun location among => ?_
    rw [present_eq (portable.labels location among)]
    rfl
  rw [Evidence.normal, present_eq portable.sha256, present_eq portable.name,
    present_eq portable.engineVersion, present_eq portable.languageId, labels]

private theorem portable_of_same {record back : Evidence} (same : record.Same back)
    (normalSame : record.normal.Same back)
    (oneLine : ∀ json, document record = some json → json.OneLine) : Portable record where
  oneLine := oneLine
  sha256 := kept_of_same same.sha256 normalSame.sha256
  name := kept_of_same same.name normalSame.name
  engineVersion := kept_of_same same.engineVersion normalSame.engineVersion
  languageId := kept_of_same same.languageId normalSame.languageId
  labels := kept_labels same.locations (List.forall₂_map_left_iff.mp normalSame.locations)

private theorem forall_documents_iff {documents : List Json}
    (pairs : List.Forall₂ Documents records documents) (good : Json → Prop) :
    (∀ json ∈ documents, good json) ↔
      ∀ record ∈ records, ∀ json, document record = some json → good json := by
  induction pairs with
  | nil => exact ⟨fun _ _ among => absurd among List.not_mem_nil, fun _ _ among =>
    absurd among List.not_mem_nil⟩
  | cons here _ ih =>
    rw [List.forall_mem_cons, List.forall_mem_cons, ih, here.written]
    simp

private theorem ids_eq_keys (isSealed : Sealed hash ledger) :
    ledger.values.map Evidence.id = ledger.keys := by
  rw [Dict.values, Dict.keys, List.map_map]
  refine List.map_congr_left fun entry held => ?_
  exact (isSealed entry.1 entry.2 ((Dict.get?_eq_some_iff ledger _ _).mpr held)).1

private theorem roundTrip_iff (path : String) (isSealed : Sealed hash ledger) :
    RoundTrip hash path ledger ↔ ∀ record ∈ ledger.values, Portable record := by
  have each : ∀ record ∈ ledger.values, ledger.get? record.id = some record ∧
      record.JsonValued ∧ record.verify hash = .ok true := by
    intro record held
    obtain ⟨id, found⟩ := (Dict.mem_values_iff ledger record).mp held
    obtain ⟨rfl, verified, jsonValued⟩ := isSealed id record found
    exact ⟨found, jsonValued, verified⟩
  obtain ⟨documents, pairs, written⟩ := exists_toJsonl fun record held => (each record held).2.1
  have oneLine := forall_documents_iff pairs Json.OneLine
  have isRecord : ∀ json ∈ documents, json.IsRecord := by
    rw [forall_documents_iff pairs]
    intro record held json isDocument
    obtain ⟨other, documentOf⟩ := exists_documents (each record held).2.1
    rw [documentOf.written, Option.some.injEq] at isDocument
    exact isDocument ▸ documentOf.isRecord
  have ids := ids_eq_keys hash isSealed
  have distinct : ((Dict.empty : EvidenceLedger).keys ++ ledger.values.map Evidence.id).Nodup := by
    rw [ids]
    exact ledger.keys_nodup
  obtain ⟨loaded, ingested, keys, _, found⟩ := ingestAll_documents hash path pairs
    (fun record held => (each record held).2) distinct 1
  have loads (result : EvidenceLedger) : load hash path (some (Json.lines documents)) =
      .ok result ↔ (∀ json ∈ documents, json.OneLine) ∧ loaded = result := by
    rw [load, (reader hash path).load_lines_ok_iff isRecord, ingested, Except.ok.injEq]
  constructor
  · rintro ⟨text, result, isText, went, _, backs⟩ record held
    rw [written, Option.some.injEq] at isText
    subst isText
    obtain ⟨lines, rfl⟩ := (loads result).mp went
    obtain ⟨back, isBack, same, _⟩ := backs record.id record (each record held).1
    obtain ⟨other, isOther, normalSame, _⟩ := found record held
    rw [isBack, Option.some.injEq] at isOther
    subst isOther
    exact portable_of_same same normalSame (oneLine.mp lines record held)
  · intro portable
    refine ⟨_, loaded, written, (loads loaded).mpr ⟨?_, rfl⟩, ?_, ?_⟩
    · exact oneLine.mpr fun record held => (portable record held).oneLine
    · rw [keys, ids]
      rfl
    · intro id record isRecord
      have held := (Dict.mem_values_iff ledger record).mpr ⟨id, isRecord⟩
      obtain ⟨back, isBack, same, verified⟩ := found record held
      obtain ⟨rfl, _, _⟩ := isSealed id record isRecord
      rw [normal_eq (portable record held)] at same
      exact ⟨back, isBack, same, verified⟩

/-- A ledger comes back exactly when each of its records has its document on one line and
no optional field that is there and empty. -/
theorem roundTrip_after_iff (path : String) (calls : List Call)
    (each : ∀ call ∈ calls, ∀ record ∈ call.records, record.JsonValued) :
    RoundTrip hash path ((machine hash).after Dict.empty calls) ↔
      ∀ record ∈ ((machine hash).after Dict.empty calls).values, Portable record :=
  roundTrip_iff hash path (after_sealed hash each)

def observation (operation : String) (id : String := "") : Evidence where
  subject := { kind := "file" }
  operation := operation
  environment := { cleanRoom := true, engine := "static", host := "local" }
  id := id

theorem observation_jsonValued (operation id : String) :
    (observation operation id).JsonValued where
  params := .none
  result := .none
  sha256 := .none
  name := .none
  engineVersion := .none
  languageId := .none
  examined := .none
  total := .none
  nextOffset := .none
  labels := fun _ among => absurd among List.not_mem_nil

/-- Two records of plain text are read back from the file. -/
theorem roundTrip_after_iff_observation :
    RoundTrip id "ledger.jsonl"
        ((machine id).after Dict.empty [.add (observation "scan"), .extend [observation "hash"]]) ↔
      ∀ record ∈ ((machine id).after Dict.empty
        [.add (observation "scan"), .extend [observation "hash"]]).values, Portable record :=
  roundTrip_after_iff id "ledger.jsonl" [.add (observation "scan"), .extend [observation "hash"]]
    (by
      simp only [List.forall_mem_cons, Call.records]
      exact ⟨⟨observation_jsonValued "scan" "", fun _ among => absurd among List.not_mem_nil⟩,
        ⟨observation_jsonValued "hash" "", fun _ among => absurd among List.not_mem_nil⟩,
        fun _ among => absurd among List.not_mem_nil⟩)

private theorem operation_mem_texts {record : Evidence} {json : Json}
    (written : Documents record json) :
    record.operation ∈ json.texts := by
  obtain ⟨value, got, same⟩ := written.same.item "operation" (.str record.operation) rfl
  rw [same.eq_str] at got
  obtain ⟨_, members, rfl⟩ := written.isRecord
  rw [Json.value, PyValue.item, Json.find_memberValues] at got
  cases held : Dict.find "operation" members with
  | none =>
    rw [held] at got
    cases got
  | some member =>
    rw [held, Option.map_some, Except.ok.injEq] at got
    have among := (Dict.find_eq_some_iff written.standard.1 _ _).mp held
    cases member with
    | str text =>
      cases got
      rw [Json.texts, Json.mem_memberTexts]
      exact ⟨_, among, .inr (by simp [Json.texts])⟩
    | null | bool _ | int _ | float _ | array _ | object _ => cases got

/-- An operation with a line separator, which is written as it is and ends the line that is
read. -/
def separated : String := "scan\u2028hash"

/-- U+2028 inside a record splits its line. -/
theorem not_roundTrip_separated : ¬∃ hash path,
    RoundTrip hash path ((machine hash).after Dict.empty [.add (observation separated)]) := by
  rintro ⟨hash, path, roundTrip⟩
  obtain ⟨id, computed, _⟩ :=
    Evidence.computeId_ok hash (observation_jsonValued separated "")
  have added : add hash Dict.empty (observation separated) =
      .ok (id, Dict.empty.set id (observation separated id)) := by
    have unsealed : (observation separated).id = "" := rfl
    have isSealed : (observation separated).sealed hash = .ok (observation separated id) := by
      rw [Evidence.sealed, computed]
      rfl
    rw [add, accept, if_pos unsealed, isSealed]
    rfl
  have ledger : (machine hash).after Dict.empty [.add (observation separated)] =
      Dict.empty.set id (observation separated id) := by
    rw [Machine.after_cons, machine]
    dsimp only [step]
    rw [added]
    rfl
  have isSealed := add_ok hash (Sealed.empty hash) (observation_jsonValued separated "") added
  rw [ledger, roundTrip_iff hash path isSealed] at roundTrip
  have held : observation separated id ∈
      (Dict.empty.set id (observation separated id)).values :=
    (Dict.mem_values_iff _ _).mpr ⟨id, by rw [Dict.get?_set, if_pos rfl]⟩
  obtain ⟨json, written⟩ := exists_documents (observation_jsonValued separated id)
  have oneLine := (roundTrip _ held).oneLine json written.written
  have among : '\u2028' ∈ separated.toList := by decide +kernel
  have loose := oneLine separated (operation_mem_texts written) '\u2028' among
  exact absurd loose (by decide)

end EvidenceLedger

end Swarmind.ReverseEngineering
