import Swarmind.Orchestrator.FederatedMemory.Effects

/-!
Owns `sync` over files that may hold anything. The loop catches `JSONDecodeError`
and `KeyError`, and decoding raises the first one only: a file that parses and
then fails (`AttributeError`, `TypeError`, `ValueError`) takes the whole sync
with it, before the store is saved.

How a dictionary files an id and how two versions compare belongs to the language
and is an argument.
-/

namespace Swarmind.Orchestrator.FederatedMemory

open Swarmind.Library

/-- Hashing and `>=` on the values of a document; `none` is their `TypeError`. -/
structure Operators (κ : Type) where
  hash : PyValue → Option κ
  atLeast : PyValue → PyValue → Option Bool

/-- The local store and the counter of the loop. -/
structure Merging (κ : Type) where
  store : Dict κ LooseRecord
  imported : Nat

inductive OwnFile where
  | untouched
  | broken
  | written (json : Json)

structure SyncOutcome (κ : Type) where
  result : Except PyException Nat
  store : Dict κ LooseRecord
  file : OwnFile

def unhashable (value : PyValue) : PyException :=
  .typeError s!"unhashable type: '{pyTypeName value}'"

def incomparable (left right : PyValue) : PyException :=
  .typeError (s!"'>=' not supported between instances of '{pyTypeName left}' and " ++
    s!"'{pyTypeName right}'")

/-- `except (json.JSONDecodeError, KeyError)`. -/
def caught (raised : PyException) : Bool :=
  raised.typeName = "JSONDecodeError" || raised.typeName = "KeyError"

section Loop

variable {κ : Type} [DecidableEq κ] (operators : Operators κ) (now : String)

/-- The body of the inner loop once the record has been built. -/
def mergeLoose (merging : Merging κ) (record : LooseRecord) : Except PyException (Merging κ) :=
  match operators.hash record.id with
  | none => .error (unhashable record.id)
  | some key =>
    match merging.store.get? key with
    | none => .ok ⟨merging.store.set key record, merging.imported + 1⟩
    | some existing =>
      match operators.atLeast existing.version record.version with
      | none => .error (incomparable existing.version record.version)
      | some true => .ok merging
      | some false => .ok ⟨merging.store.set key record, merging.imported + 1⟩

/-- The inner loop, with the exception that ends it. -/
def mergeDicts (merging : Merging κ) : List PyValue → Merging κ × Option PyException
  | [] => (merging, none)
  | dict :: rest =>
    match (fromDict now dict).bind (mergeLoose operators merging) with
    | .error raised => (merging, some raised)
    | .ok next => mergeDicts next rest

/-- The body of `try`. -/
def mergeText (merging : Merging κ) (text : FileText) : Merging κ × Option PyException :=
  match recordDicts text with
  | .error raised => (merging, some raised)
  | .ok dicts => mergeDicts operators now merging dicts

/-- The outer loop over the files of the peers. -/
def mergeTexts (merging : Merging κ) : List FileText → Merging κ × Option PyException
  | [] => (merging, none)
  | text :: rest =>
    match mergeText operators now merging text with
    | (next, none) => mergeTexts next rest
    | (next, some raised) =>
      if caught raised then mergeTexts next rest else (next, some raised)

/-- `_save_local`, and `list_projects` for the log where something was imported. -/
def finishSync (project : String) (merging : Merging κ) : SyncOutcome κ :=
  match (projectData project now merging.store.values).dumps with
  | none => ⟨.error .notSerializable, merging.store, .broken⟩
  | some json =>
    match merging.store.values.find? fun record =>
        (operators.hash record.sourceProject).isNone with
    | none => ⟨.ok merging.imported, merging.store, .written json⟩
    | some record =>
      ⟨if 0 < merging.imported then .error (unhashable record.sourceProject)
        else .ok merging.imported, merging.store, .written json⟩

/-- `sync` over the parsed files of the peers, in the order of `glob`. -/
def syncTexts (project : String) (store : Dict κ LooseRecord) (peers : List FileText) :
    SyncOutcome κ :=
  match mergeTexts operators now ⟨store, 0⟩ peers with
  | (merging, none) => finishSync operators now project merging
  | (merging, some raised) => ⟨.error raised, merging.store, .untouched⟩

end Loop

/-! ### Well-formed files -/

/-- The records of a file, where `json.load` and every `from_dict` accept. -/
def decoded (now : String) (text : FileText) : Except PyException (List LooseRecord) :=
  (recordDicts text).bind fun dicts => dicts.mapM (fromDict now)

/-- Neither `json.load` nor `from_dict` rejects anything in the file. -/
def wellFormed (now : String) (text : FileText) : Bool := (decoded now text).toOption.isSome

/-- The records of the well-formed files, in order. -/
def accepted (now : String) (peers : List FileText) : List LooseRecord :=
  peers.flatMap fun text => (decoded now text).toOption.getD []

/-- `json.load` raises an exception that `sync` catches. -/
def Undecodable (text : FileText) : Prop := ∃ raised, text = .error raised ∧ caught raised = true

section Property

variable {κ : Type} [DecidableEq κ] (operators : Operators κ) (now project : String)
variable (store : Dict κ LooseRecord) (peers : List FileText)

/-- `sync` returns, imports what it would import without the malformed files, and
saves the store. -/
structure IsolatesBadPeers : Prop where
  returns : ∃ imported, (syncTexts operators now project store peers).result = .ok imported
  same : syncTexts operators now project store peers =
    syncTexts operators now project store (peers.filter (wellFormed now))
  saves : ∃ json, (syncTexts operators now project store peers).file = .written json

/-- The accepted records one after the other. -/
def absorb (merging : Merging κ) (records : List LooseRecord) : Except PyException (Merging κ) :=
  records.foldlM (mergeLoose operators) merging

/-- Every malformed file fails in `json.load`, with an exception that is caught;
the accepted records can be merged, and what they leave can be written and logged. -/
structure FailsInDecoder : Prop where
  undecodable : ∀ text ∈ peers, wellFormed now text = false → Undecodable text
  mergeable : ∃ merging, absorb operators ⟨store, 0⟩ (accepted now peers) = .ok merging ∧
    (projectData project now merging.store.values).dumps.isSome ∧
    (0 < merging.imported →
      ∀ record ∈ merging.store.values, (operators.hash record.sourceProject).isSome)

end Property

/-! ### What is caught -/

/-- Whatever the computation raises ends the sync. -/
def Uncaught {α : Type} (outcome : Except PyException α) : Prop :=
  ∀ raised, outcome = .error raised → caught raised = false

namespace Uncaught

variable {α β : Type}

private theorem ok (value : α) : Uncaught (.ok value) := fun _ same => by cases same

private theorem error {raised : PyException} (escapes : caught raised = false) :
    Uncaught (.error raised : Except PyException α) := by
  intro other same
  cases same
  exact escapes

private theorem bind {outcome : Except PyException α} {next : α → Except PyException β}
    (first : Uncaught outcome) (second : ∀ value, Uncaught (next value)) :
    Uncaught (outcome.bind next) := by
  cases outcome with
  | error raised => exact error (first raised rfl)
  | ok value => exact second value

end Uncaught

private theorem recordsOf_uncaught (value : PyValue) : Uncaught (recordsOf value) := by
  cases value <;> first | exact Uncaught.ok _ | exact Uncaught.error rfl

private theorem iterated_uncaught (value : PyValue) : Uncaught (iterated value) := by
  cases value <;> first | exact Uncaught.ok _ | exact Uncaught.error rfl

private theorem construct_uncaught (now : String) (type : TypeField)
    (items : List (PyKey × PyValue)) :
    Uncaught (construct now type items) := by
  unfold construct
  split
  · unfold unexpectedArgument
    split <;> exact Uncaught.error rfl
  · split
    · exact Uncaught.ok _
    · exact Uncaught.error rfl

private theorem typeField_uncaught (value : Option PyValue) : Uncaught (typeField value) := by
  unfold typeField
  split
  · unfold KnowledgeType.ofValue
    split
    · exact Uncaught.ok _
    · exact Uncaught.error rfl
  · exact Uncaught.ok _
  · exact Uncaught.ok _

private theorem fromDict_uncaught (now : String) (value : PyValue) : Uncaught
    (fromDict now value) := by
  cases value with
  | dict items => exact (typeField_uncaught _).bind fun type => construct_uncaught now type items
  | none => exact Uncaught.error rfl
  | bool value => exact Uncaught.error rfl
  | int value => exact Uncaught.error rfl
  | float digits => exact Uncaught.error rfl
  | str text => exact Uncaught.error rfl
  | list items => exact Uncaught.error rfl
  | tuple items => exact Uncaught.error rfl
  | object typeName => exact Uncaught.error rfl

private theorem eq_error_of_recordDicts {text : FileText} {raised : PyException}
    (fails : recordDicts text = .error raised) (isCaught : caught raised = true) :
    text = .error raised := by
  cases text with
  | error other =>
    cases fails
    rfl
  | ok json =>
    have escapes := (recordsOf_uncaught json.loads).bind iterated_uncaught raised fails
    exact absurd (escapes.symm.trans isCaught) (by decide)

section Loops

variable {κ : Type} [DecidableEq κ] {operators : Operators κ} {now : String}

private theorem mergeLoose_uncaught (merging : Merging κ) (record : LooseRecord) :
    Uncaught (mergeLoose operators merging record) := by
  unfold mergeLoose
  split
  · exact Uncaught.error rfl
  · split
    · exact Uncaught.ok _
    · split
      · exact Uncaught.error rfl
      · exact Uncaught.ok _
      · exact Uncaught.ok _

/-! ### The loops -/

private theorem absorb_cons (merging : Merging κ) (record : LooseRecord) (rest : List LooseRecord) :
    absorb operators merging (record :: rest) =
      (mergeLoose operators merging record).bind fun next => absorb operators next rest :=
  List.foldlM_cons ..

private theorem absorb_append (merging : Merging κ) (first second : List LooseRecord) :
    absorb operators merging (first ++ second) =
      (absorb operators merging first).bind fun next => absorb operators next second :=
  List.foldlM_append ..

private theorem mapM_cons_eq (dict : PyValue) (rest : List PyValue) :
    (dict :: rest).mapM (fromDict now) =
      (fromDict now dict).bind fun record =>
        (rest.mapM (fromDict now)).bind fun records => .ok (record :: records) :=
  List.mapM_cons ..

variable (merging next : Merging κ)

private theorem mergeDicts_ok_iff (dicts : List PyValue) :
    mergeDicts operators now merging dicts = (next, none) ↔
      ∃ records, dicts.mapM (fromDict now) = .ok records ∧
        absorb operators merging records = .ok next := by
  induction dicts generalizing merging with
  | nil =>
    constructor
    · intro ends
      exact ⟨[], rfl, congrArg Except.ok (Prod.mk.inj ends).1⟩
    · rintro ⟨records, built, absorbed⟩
      cases built
      cases absorbed
      rfl
  | cons dict rest ih =>
    rw [mergeDicts, mapM_cons_eq]
    cases fromDict now dict with
    | error raised => simp [Except.bind]
    | ok record =>
      cases merged : mergeLoose operators merging record with
      | error raised =>
        cases rest.mapM (fromDict now) <;> simp [Except.bind, merged, absorb_cons]
      | ok between =>
        have step := ih between
        cases built : rest.mapM (fromDict now) <;> rw [built] at step <;>
          simp [Except.bind, merged, absorb_cons] at step ⊢ <;> exact step

private theorem mergeDicts_uncaught (dicts : List PyValue)
    (raised : PyException) (ends : mergeDicts operators now merging dicts = (next, some raised)) :
    caught raised = false := by
  induction dicts generalizing merging with
  | nil => cases ends
  | cons dict rest ih =>
    rw [mergeDicts] at ends
    have escapes : Uncaught ((fromDict now dict).bind (mergeLoose operators merging)) :=
      (fromDict_uncaught now dict).bind (mergeLoose_uncaught merging)
    cases merged : (fromDict now dict).bind (mergeLoose operators merging) with
    | error other =>
      rw [merged] at ends
      cases ends
      exact escapes raised merged
    | ok between =>
      rw [merged] at ends
      exact ih between ends

private theorem mergeText_ok_iff (text : FileText) :
    mergeText operators now merging text = (next, none) ↔
      ∃ records, decoded now text = .ok records ∧
        absorb operators merging records = .ok next := by
  unfold mergeText decoded
  cases found : recordDicts text with
  | error raised => simp [Except.bind]
  | ok dicts => exact mergeDicts_ok_iff merging next dicts

private theorem mergeText_caught {merging next : Merging κ} {text : FileText} {raised : PyException}
    (ends : mergeText operators now merging text = (next, some raised))
    (isCaught : caught raised = true) : text = .error raised ∧ next = merging := by
  unfold mergeText at ends
  cases found : recordDicts text with
  | error other =>
    rw [found] at ends
    cases ends
    exact ⟨eq_error_of_recordDicts found isCaught, rfl⟩
  | ok dicts =>
    rw [found] at ends
    have escapes := mergeDicts_uncaught _ _ _ _ ends
    exact absurd (escapes.symm.trans isCaught) (by decide)

end Loops

/-! ### The sync -/

section Sync

variable {κ : Type} [DecidableEq κ] {operators : Operators κ} {now : String}

private theorem wellFormed_of_decoded {text : FileText} {records : List LooseRecord}
    (reads : decoded now text = .ok records) : wellFormed now text = true := by
  rw [wellFormed, reads]
  rfl

private theorem not_wellFormed_of_decoded {text : FileText} {raised : PyException}
    (rejects : decoded now text = .error raised) : wellFormed now text = false := by
  rw [wellFormed, rejects]
  rfl

private theorem accepted_cons (text : FileText) (rest : List FileText) :
    accepted now (text :: rest) =
      (decoded now text).toOption.getD [] ++ accepted now rest := List.flatMap_cons ..

private theorem not_merged_of_uncaught {merging between : Merging κ} {text : FileText}
    {raised : PyException} (ends : mergeText operators now merging text = (between, some raised))
    (escapes : ¬ caught raised = true) {records : List LooseRecord} {next : Merging κ}
    (decoder : wellFormed now text = false → Undecodable text) :
    absorb operators merging ((decoded now text).toOption.getD [] ++ records) ≠ .ok next := by
  intro absorbed
  cases reads : decoded now text with
  | error other =>
    obtain ⟨first, rfl, firstCaught⟩ := decoder (not_wellFormed_of_decoded reads)
    cases ends
    exact escapes firstCaught
  | ok own =>
    rw [reads, Except.toOption, Option.getD_some, absorb_append] at absorbed
    cases merged : absorb operators merging own with
    | error other =>
      rw [merged] at absorbed
      cases absorbed
    | ok after =>
      have passes := (mergeText_ok_iff merging after text).mpr ⟨own, reads, merged⟩
      rw [ends] at passes
      cases passes

/-- The outer loop passes all files exactly when the malformed ones do not decode
and the records of the others merge. -/
theorem mergeTexts_ok_iff (merging next : Merging κ) (peers : List FileText) :
    mergeTexts operators now merging peers = (next, none) ↔
      (∀ text ∈ peers, wellFormed now text = false → Undecodable text) ∧
        absorb operators merging (accepted now peers) = .ok next := by
  induction peers generalizing merging with
  | nil =>
    constructor
    · intro ends
      exact ⟨fun _ member => (List.not_mem_nil member).elim,
        congrArg Except.ok (Prod.mk.inj ends).1⟩
    · rintro ⟨_, absorbed⟩
      cases absorbed
      rfl
  | cons text rest ih =>
    rw [mergeTexts, accepted_cons, List.forall_mem_cons]
    cases ends : mergeText operators now merging text with
    | mk between raised =>
      cases raised with
      | none =>
        obtain ⟨records, reads, absorbed⟩ := (mergeText_ok_iff _ _ _).mp ends
        have fine := wellFormed_of_decoded reads
        simp only [ih, reads, Except.toOption, Option.getD_some,
          absorb_append, absorbed, Except.bind, fine, Bool.true_eq_false, false_implies,
          true_and]
      | some exc =>
        by_cases isCaught : caught exc = true
        · obtain ⟨rfl, rfl⟩ := mergeText_caught ends isCaught
          have rejects : decoded now (.error exc) = .error exc := rfl
          have decoder : Undecodable (.error exc) := ⟨exc, rfl, isCaught⟩
          simp only [isCaught, if_true, ih, rejects, Except.toOption,
            Option.getD_none, List.nil_append, decoder, implies_true, true_and]
        · simp only [isCaught, Bool.false_eq_true, if_false]
          refine iff_of_false (fun both => by cases both) ?_
          rintro ⟨⟨decoder, _⟩, absorbed⟩
          exact not_merged_of_uncaught ends isCaught decoder absorbed

private theorem accepted_filter (peers : List FileText) :
    accepted now (peers.filter (wellFormed now)) = accepted now peers := by
  induction peers with
  | nil => rfl
  | cons text rest ih =>
    rw [List.filter_cons, accepted_cons]
    split_ifs with fine
    · rw [accepted_cons, ih]
    · rw [ih]
      cases reads : decoded now text with
      | error raised => rfl
      | ok records => exact absurd (wellFormed_of_decoded reads) fine

variable {project : String}

omit [DecidableEq κ] in
private theorem finishSync_returns_iff (merging : Merging κ) :
    (∃ imported, (finishSync operators now project merging).result = .ok imported) ↔
      (projectData project now merging.store.values).dumps.isSome ∧
        (0 < merging.imported →
          ∀ record ∈ merging.store.values, (operators.hash record.sourceProject).isSome) := by
  unfold finishSync
  cases written : (projectData project now merging.store.values).dumps with
  | none => simp
  | some json =>
    cases found : merging.store.values.find? fun record =>
        (operators.hash record.sourceProject).isNone with
    | none =>
      have sources := List.find?_eq_none.mp found
      simp only [Option.isSome_some, true_and]
      refine iff_of_true ⟨_, rfl⟩ fun _ record member => ?_
      exact Option.isSome_iff_ne_none.mpr (by simpa using sources record member)
    | some record =>
      have member := List.mem_of_find?_eq_some found
      have missing := List.find?_some found
      simp only [Option.isSome_some, true_and]
      split_ifs with positive
      · refine iff_of_false (fun ⟨_, same⟩ => by cases same) fun sources => ?_
        have present := sources positive record member
        rw [Option.isNone_iff_eq_none] at missing
        rw [missing] at present
        cases present
      · exact iff_of_true ⟨_, rfl⟩ fun imported => absurd imported positive

omit [DecidableEq κ] in
private theorem finishSync_written {merging : Merging κ}
    (writable : (projectData project now merging.store.values).dumps.isSome) :
    ∃ json, (finishSync operators now project merging).file = .written json := by
  obtain ⟨json, written⟩ := Option.isSome_iff_exists.mp writable
  cases found : merging.store.values.find? fun record =>
      (operators.hash record.sourceProject).isNone with
  | none => exact ⟨json, by simp only [finishSync, written, found]⟩
  | some record => exact ⟨json, by simp only [finishSync, written, found]⟩

/-- A sync isolates bad peers exactly when each of them fails in the decoder, with
`JSONDecodeError`, and the records of the others can be merged and written. -/
theorem isolatesBadPeers_iff (operators : Operators κ) (now project : String)
    (store : Dict κ LooseRecord) (peers : List FileText) :
    IsolatesBadPeers operators now project store peers ↔
      FailsInDecoder operators now project store peers := by
  have passed : ∀ {texts merging}, mergeTexts operators now ⟨store, 0⟩ texts = (merging, none) →
      syncTexts operators now project store texts = finishSync operators now project merging := by
    intro texts merging ends
    rw [syncTexts, ends]
  constructor
  · rintro ⟨⟨imported, returns⟩, _, _⟩
    cases ends : mergeTexts operators now ⟨store, 0⟩ peers with
    | mk merging raised =>
      cases raised with
      | some exc =>
        rw [syncTexts, ends] at returns
        cases returns
      | none =>
        obtain ⟨undecodable, absorbed⟩ := (mergeTexts_ok_iff _ _ _).mp ends
        rw [passed ends] at returns
        exact ⟨undecodable, merging, absorbed, (finishSync_returns_iff merging).mp ⟨_, returns⟩⟩
  · rintro ⟨undecodable, merging, absorbed, writable, sources⟩
    have ends := (mergeTexts_ok_iff _ _ _).mpr ⟨undecodable, absorbed⟩
    have absent : mergeTexts operators now ⟨store, 0⟩ (peers.filter (wellFormed now)) =
        (merging, none) := by
      refine (mergeTexts_ok_iff _ _ _).mpr ⟨fun text member malformed => ?_, ?_⟩
      · exact absurd (malformed.symm.trans (List.mem_filter.mp member).2) (by decide)
      · rw [accepted_filter, absorbed]
    refine ⟨?_, ?_, ?_⟩
    · rw [passed ends]
      exact (finishSync_returns_iff merging).mpr ⟨writable, sources⟩
    · rw [passed ends, passed absent]
    · rw [passed ends]
      exact finishSync_written writable

end Sync

/-! ### Texts and integers -/

/-- Hashing and comparison on what `store_knowledge` writes: ids are texts, and
versions integers. -/
def textOperators : Operators String where
  hash
    | .str text => some text
    | _ => none
  atLeast
    | .int left, .int right => some (decide (right ≤ left))
    | _, _ => none

def unknownTypeFile : FileText :=
  .ok (.object [("records", .array [.object [("id", .str "note:beta:k"), ("type", .str "note"),
    ("source_project", .str "beta"), ("source_agent", .str "system"), ("key", .str "k"),
    ("value", .int 1)]])])

/-- One file of an unknown type ends the sync with its exception. -/
theorem unknown_type_ends_sync :
    ¬ IsolatesBadPeers textOperators "2026-01-01T00:00:00+00:00" "alpha" Dict.empty
      [unknownTypeFile] := by
  intro isolates
  obtain ⟨imported, returns⟩ := isolates.returns
  cases returns

/-! ### Files that stores have written -/

section Written

variable {C : Type} (iso : Int → String) (digits : C → String)

/-- A record with its fields as `to_dict` writes them: instants as texts, and the
confidence by its digits. -/
def KnowledgeRecord.loose (record : KnowledgeRecord C) : LooseRecord where
  id := .str record.id
  type := .known record.type
  sourceProject := .str record.sourceProject
  sourceAgent := .str record.sourceAgent
  key := .str record.key
  value := record.value
  tags := .list (record.tags.map .str)
  version := .int record.version
  createdAt := .str (iso record.createdAt)
  updatedAt := .str (iso record.updatedAt)
  ttlSeconds := .int record.ttlSeconds
  confidence := .float (digits record.confidence)

/-- What `json.load` makes of a project file. -/
def documentOf (project now : String) : ProjectFile C → FileText
  | some records =>
    .ok (((projectData project now
      (records.map (KnowledgeRecord.loose iso digits))).dumps).getD .null)
  | none => .error ⟨"JSONDecodeError", "Expecting value"⟩

/-- The local store and the counter, as the loop over texts has them. -/
def looseMerging (merged : LocalStore C × Nat) : Merging String :=
  ⟨merged.1.records.mapValues (KnowledgeRecord.loose iso digits), merged.2⟩

variable {iso digits}

private theorem native_toDict {record : KnowledgeRecord C} (native : record.reread = some record) :
    (record.loose iso digits).toDict.Native := by
  have value : record.value.Native :=
    PyValue.native_iff_stored.mpr ((KnowledgeRecord.reread_eq_some_iff record record).mp native).1
  have tags : (PyValue.list (record.tags.map .str)).Native := by
    apply PyValue.Native.list
    intro item member
    obtain ⟨tag, _, rfl⟩ := List.mem_map.mp member
    exact PyValue.Native.str tag
  apply PyValue.Native.record
  · exact of_decide_eq_true rfl
  · simp only [LooseRecord.fields, KnowledgeRecord.loose, TypeField.value, List.forall_mem_cons]
    exact ⟨.str _, .str _, .str _, .str _, .str _, value, tags, .int _, .str _, .str _, .int _,
      .float _, fun _ member => (List.not_mem_nil member).elim⟩

private theorem recordDicts_documentOf (project now : String) {records : List (KnowledgeRecord C)}
    (native : ∀ record ∈ records, record.reread = some record) :
    recordDicts (documentOf iso digits project now (some records)) =
      .ok (records.map fun record => (record.loose iso digits).toDict) := by
  have data : (projectData project now
      (records.map (KnowledgeRecord.loose iso digits))).Native := by
    apply PyValue.Native.record
    · exact of_decide_eq_true rfl
    · simp only [List.forall_mem_cons]
      refine ⟨.str _, .str _, .int _, ?_, fun _ member => (List.not_mem_nil member).elim⟩
      apply PyValue.Native.list
      intro item member
      obtain ⟨record, inside, rfl⟩ := List.mem_map.mp member
      obtain ⟨original, among, rfl⟩ := List.mem_map.mp inside
      exact native_toDict (native original among)
  obtain ⟨json, written, back⟩ := data
  rw [documentOf, written, Option.getD_some]
  change (recordsOf json.loads).bind iterated = _
  rw [back]
  change Except.ok ((records.map _).map _) = _
  rw [List.map_map]
  rfl

private theorem decoded_documentOf (project now : String) {records : List (KnowledgeRecord C)}
    (native : ∀ record ∈ records, record.reread = some record) :
    decoded now (documentOf iso digits project now (some records)) =
      .ok (records.map (KnowledgeRecord.loose iso digits)) := by
  rw [decoded, recordDicts_documentOf project now native]
  change (records.map fun record => (record.loose iso digits).toDict).mapM (fromDict now) = _
  clear native
  induction records with
  | nil => rfl
  | cons record rest ih =>
    have decodes : (record.loose iso digits).type.Decoded := trivial
    rw [List.map_cons, mapM_cons_eq, fromDict_toDict now decodes, ih]
    rfl

private theorem mapValues_set {κ ν μ : Type} [DecidableEq κ] (f : ν → μ) (dict : Dict κ ν) (key : κ)
    (value : ν) : (dict.set key value).mapValues f = (dict.mapValues f).set key (f value) := by
  apply Dict.ext_get?
  · simp only [Dict.keys_mapValues, Dict.keys_set]
  · intro other
    simp only [Dict.get?_mapValues, Dict.get?_set]
    split_ifs <;> rfl

private theorem mergeLoose_looseMerging (merged : LocalStore C × Nat) (record : KnowledgeRecord C) :
    mergeLoose textOperators (looseMerging iso digits merged) (record.loose iso digits) =
      .ok (looseMerging iso digits (LocalStore.mergeRecord merged record)) := by
  have hashed : textOperators.hash (record.loose iso digits).id = some record.id := rfl
  have get : (looseMerging iso digits merged).store.get? record.id =
      (merged.1.get? record.id).map (KnowledgeRecord.loose iso digits) :=
    Dict.get?_mapValues _ _ _
  have put : looseMerging iso digits (merged.1.put record, merged.2 + 1) =
      ⟨(looseMerging iso digits merged).store.set record.id (record.loose iso digits),
        (looseMerging iso digits merged).imported + 1⟩ :=
    congrArg (Merging.mk · _) (mapValues_set _ _ _ _)
  cases found : merged.1.get? record.id with
  | none =>
    rw [LocalStore.mergeRecord, if_pos (LocalStore.imports_of_none found), put]
    simp only [mergeLoose, hashed, get, found, Option.map_none]
  | some existing =>
    have compared : textOperators.atLeast (existing.loose iso digits).version
        (record.loose iso digits).version =
          some (decide ((record.version : Int) ≤ existing.version)) := rfl
    simp only [mergeLoose, hashed, get, found, Option.map_some, compared]
    by_cases newer : existing.version < record.version
    · have imports := (LocalStore.imports_iff_newer found).mpr newer
      have later : decide ((record.version : Int) ≤ existing.version) = false := by
        simpa using newer
      rw [LocalStore.mergeRecord, if_pos imports, put, later]
    · have refuses : ¬ merged.1.imports record = true :=
        fun imports => newer ((LocalStore.imports_iff_newer found).mp imports)
      have older : decide ((record.version : Int) ≤ existing.version) = true := by
        simpa using newer
      rw [LocalStore.mergeRecord, if_neg refuses, older]

private theorem absorb_looseMerging (merged : LocalStore C × Nat)
    (records : List (KnowledgeRecord C)) :
    absorb textOperators (looseMerging iso digits merged)
        (records.map (KnowledgeRecord.loose iso digits)) =
      .ok (looseMerging iso digits (records.foldl LocalStore.mergeRecord merged)) := by
  induction records generalizing merged with
  | nil => rfl
  | cons record rest ih =>
    rw [List.map_cons, absorb_cons, mergeLoose_looseMerging, List.foldl_cons]
    exact ih (LocalStore.mergeRecord merged record)

private theorem accepted_documents (now : String) (dir : Directory C) (names : List String)
    (native : ∀ name ∈ names, ∀ record ∈ readFile dir name, record.reread = some record) :
    accepted now (names.map fun name =>
        documentOf iso digits name now ((dir.get? name).getD none)) =
      (names.flatMap (readFile dir)).map (KnowledgeRecord.loose iso digits) := by
  induction names with
  | nil => rfl
  | cons name rest ih =>
    rw [List.forall_mem_cons] at native
    rw [List.map_cons, accepted_cons, ih native.2, List.flatMap_cons,
      List.map_append]
    congr 1
    have readable := native.1
    unfold readFile at readable ⊢
    cases file : (dir.get? name).getD none with
    | none => rfl
    | some records =>
      rw [file, Option.getD_some] at readable
      rw [decoded_documentOf name now readable]
      rfl

private theorem undecodable_documents (now : String) (dir : Directory C) (names : List String)
    (native : ∀ name ∈ names, ∀ record ∈ readFile dir name, record.reread = some record) :
    ∀ text ∈ names.map fun name =>
        documentOf iso digits name now ((dir.get? name).getD none),
      wellFormed now text = false → Undecodable text := by
  intro text member malformed
  obtain ⟨name, among, rfl⟩ := List.mem_map.mp member
  have readable := native name among
  unfold readFile at readable
  cases file : (dir.get? name).getD none with
  | none => exact ⟨_, rfl, rfl⟩
  | some records =>
    rw [file] at malformed
    rw [file, Option.getD_some] at readable
    have fine : wellFormed now (documentOf iso digits name now (some records)) = true :=
      wellFormed_of_decoded (decoded_documentOf name now readable)
    exact absurd (fine.symm.trans malformed) (by decide)

private theorem foldl_mergeFile (dir : Directory C) (names : List String)
    (merged : LocalStore C × Nat) :
    names.foldl (mergeFile dir) merged =
      (names.flatMap (readFile dir)).foldl LocalStore.mergeRecord merged := by
  rw [List.foldl_flatMap]
  rfl

private theorem mergeTexts_documents (now : String) (dir : Directory C) (names : List String)
    (merged : LocalStore C × Nat)
    (native : ∀ name ∈ names, ∀ record ∈ readFile dir name, record.reread = some record) :
    mergeTexts textOperators now (looseMerging iso digits merged)
        (names.map fun name => documentOf iso digits name now ((dir.get? name).getD none)) =
      (looseMerging iso digits (names.foldl (mergeFile dir) merged), none) := by
  refine (mergeTexts_ok_iff _ _ _).mpr ⟨undecodable_documents now dir names native, ?_⟩
  rw [accepted_documents now dir names native, absorb_looseMerging, foldl_mergeFile]

/-- A sync over the parsed files is the sync over their records. -/
theorem syncTexts_documents (now project : String) (store : LocalStore C) (dir : Directory C)
    (order : List String)
    (native : ∀ name, ∀ record ∈ readFile dir name, record.reread = some record) :
    (syncTexts textOperators now project
        (store.records.mapValues (KnowledgeRecord.loose iso digits))
        (((globbed dir order).filter fun name => name ≠ projectFile project).map fun name =>
          documentOf iso digits name now ((dir.get? name).getD none))).store =
      (sync project store dir order).store.records.mapValues
        (KnowledgeRecord.loose iso digits) := by
  let names := (globbed dir order).filter fun name => name ≠ projectFile project
  have merged : mergeTexts textOperators now
      ⟨store.records.mapValues (KnowledgeRecord.loose iso digits), 0⟩
      (names.map fun name => documentOf iso digits name now ((dir.get? name).getD none)) =
        (looseMerging iso digits (names.foldl (mergeFile dir) (store, 0)), none) :=
    mergeTexts_documents now dir names (store, 0) fun name _ => native name
  rw [syncTexts, merged]
  unfold finishSync
  dsimp only
  split
  · rfl
  · split <;> rfl

def onePeer : Directory String := Dict.empty.set "knowledge_beta.json" (some
  [⟨"pattern:beta:retry", .pattern, "beta", "agent", "retry", .int 3, [], 1, 0, 0, 0, "0.5"⟩])

/-- One peer with one record. -/
theorem syncTexts_documents_onePeer :
    (syncTexts textOperators "" "alpha" Dict.empty
        [documentOf (fun _ => "") id "knowledge_beta.json" ""
          ((onePeer.get? "knowledge_beta.json").getD none)]).store =
      (sync "alpha" ⟨Dict.empty, nofun⟩ onePeer []).store.records.mapValues
        (KnowledgeRecord.loose (fun _ => "") id) :=
  @syncTexts_documents String (fun _ => "") id "" "alpha" ⟨Dict.empty, nofun⟩ onePeer [] (by
    intro name record among
    by_cases same : "knowledge_beta.json" = name
    · subst same
      obtain rfl := List.mem_singleton.mp among
      rfl
    · rw [onePeer, readFile_set_of_ne _ _ same] at among
      cases among)

end Written

end Swarmind.Orchestrator.FederatedMemory
