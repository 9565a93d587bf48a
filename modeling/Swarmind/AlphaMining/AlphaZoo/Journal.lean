import Swarmind.AlphaMining.AlphaZoo.Zoo

/-!
Owns what the journal determines. Loading a journal of records on one line each
ingests them in order; a record that is not on one line is cut off and stops the
load. So memory and journal stay together exactly while every record that is
appended reads back as itself, is written on one line and reaches the file.
-/

namespace Swarmind.AlphaMining.AlphaZoo

open Swarmind.Library Swarmind.AlphaMining.FactorDsl

variable {ν : Type} (floats : Floats ν)

/-! ### Loading written documents -/

def IsRecord (document : Json) : Prop :=
  document.Textual ∧ ∃ members, document = .object members

def ingestAll : List Json → Contents ν → Except PyException (Contents ν)
  | [], contents => .ok contents
  | document :: rest, contents =>
    (ingest floats contents document.loads).bind (ingestAll rest)

def reader (path : String) : JournalReader (Contents ν) where
  corrupt := corruptLine path
  ingest := fun _ => ingest floats

private theorem loadLines_eq (path : String) (number : Nat) (lines : List (List Char))
    (contents : Contents ν) :
    loadLines floats path number lines contents =
      (reader floats path).readLines number lines contents := by
  induction lines generalizing number contents with
  | nil => rfl
  | cons line rest ih =>
    rw [loadLines, JournalReader.readLines, ih]
    cases Json.decode line with
    | none => rfl
    | some json =>
      have next : loadLines floats path (number + 1) rest =
          (reader floats path).readLines (number + 1) rest :=
        funext (ih (number + 1))
      dsimp only
      rw [next]
      rfl

private theorem load_eq (path : String) (text : List Char) :
    load floats path text = ((reader floats path).load .empty text).map Contents.index := by
  rw [load, loadLines_eq, JournalReader.load]

private theorem ingestAll_eq (path : String) (number : Nat) (documents : List Json)
    (contents : Contents ν) :
    ingestAll floats documents contents =
      (reader floats path).ingestAll number documents contents := by
  induction documents generalizing number contents with
  | nil => rfl
  | cons document rest ih =>
    have next : ingestAll floats rest = (reader floats path).ingestAll (number + 1) rest :=
      funext (ih (number + 1))
    rw [ingestAll, JournalReader.ingestAll, next]
    rfl

theorem ingestAll_append (first second : List Json) (contents : Contents ν) :
    ingestAll floats (first ++ second) contents =
      (ingestAll floats first contents).bind (ingestAll floats second) := by
  have later : ingestAll floats second =
      (reader floats "").ingestAll (0 + first.length) second :=
    funext (ingestAll_eq floats "" _ second)
  rw [ingestAll_eq floats "" 0, ingestAll_eq floats "" 0, later, JournalReader.ingestAll_append]

/-- A journal of records on one line each is ingested record by record. -/
theorem load_lines (path : String) {documents : List Json}
    (each : ∀ document ∈ documents, IsRecord document)
    (oneLine : ∀ document ∈ documents, document.OneLine) :
    load floats path (Json.lines documents) =
      (ingestAll floats documents .empty).map Contents.index := by
  rw [load_eq, JournalReader.load_lines _ each oneLine, ingestAll_eq floats path 1]

theorem oneLine_of_load {path : String} {documents : List Json} {memory : Memory ν}
    (each : ∀ document ∈ documents, IsRecord document)
    (loaded : load floats path (Json.lines documents) = .ok memory) :
    ∀ document ∈ documents, document.OneLine := by
  rw [load_eq] at loaded
  obtain ⟨contents, read, _⟩ := ok_of_map loaded
  exact (reader floats path).oneLine_of_load each read

/-! ### The documents of the records -/

/-- The factor record with this tree. -/
def factorDocument (entry : ZooEntry ν) (tree : Json) : Json :=
  .object
    [("kind", .str "factor"), ("formula", .str entry.formula), ("tree", tree),
      ("family", .str entry.family.value), ("score", .float (floats.repr entry.score)),
      ("rank_ic", .float (floats.repr entry.rankIc)), ("round_index", .int entry.roundIndex)]

def failureDocument (formula mode : String) : Json :=
  .object [("kind", .str "failure"), ("mode", .str mode), ("formula", .str formula)]

theorem factorRecord_dumps (entry : ZooEntry ν) :
    (factorRecord floats entry).dumps =
      (PyValue.dict entry.tree).dumps.map (factorDocument floats entry) := by
  simp only [factorRecord, PyValue.record, List.map_cons, List.map_nil, PyValue.dumps,
    PyValue.dumpsMembers, PyKey.memberName]
  cases PyValue.dumpsMembers entry.tree <;> rfl

private theorem isRecord_factorDocument (entry : ZooEntry ν) {tree : Json}
    (textual : tree.Textual) :
    IsRecord (factorDocument floats entry tree) := by
  refine ⟨?_, _, rfl⟩
  have score := floats.isFloatText_repr entry.score
  have rankIc := floats.isFloatText_repr entry.rankIc
  simp [factorDocument, Json.Textual, Json.MembersTextual, textual, score, rankIc]

theorem isRecord_failureDocument (formula mode : String) :
    IsRecord (failureDocument formula mode) :=
  ⟨by simp [failureDocument, Json.Textual, Json.MembersTextual], _, rfl⟩

variable {document : Json}

theorem exists_loads_of_dumps {items : List (PyKey × PyValue)}
    (written : (PyValue.dict items).dumps = some document) :
    ∃ backs, document.loads = .dict backs := by
  obtain ⟨members, _, rfl⟩ := Option.map_eq_some_iff.mp written
  exact ⟨_, rfl⟩

/-- A stored factor is read back with the tree that its JSON text gives. -/
theorem ingest_factorDocument (contents : Contents ν) (entry : ZooEntry ν) {tree : Json}
    {backs : List (PyKey × PyValue)} (reads : tree.loads = .dict backs) :
    ingest floats contents (factorDocument floats entry tree).loads =
      .ok (contents.insert { entry with tree := backs }) := by
  have loaded : (factorDocument floats entry tree).loads =
      .dict [(.str "kind", .str "factor"), (.str "formula", .str entry.formula),
        (.str "tree", tree.loads), (.str "family", .str entry.family.value),
        (.str "score", .float (floats.repr entry.score)),
        (.str "rank_ic", .float (floats.repr entry.rankIc)),
        (.str "round_index", .int entry.roundIndex)] := rfl
  simp [loaded, ingest, readEntry, getItem, member, Dict.find, Except.bind, Except.map, toItems,
    reads, FactorFamily.ofValue_value, floats.ofValue_repr, PyValue.toInt, PyValue.text]

theorem ingest_failureDocument (contents : Contents ν) (formula mode : String) :
    ingest floats contents (failureDocument formula mode).loads =
      .ok (contents.countFailure mode) := by
  have loaded : (failureDocument formula mode).loads =
      .dict [(.str "kind", .str "failure"), (.str "mode", .str mode),
        (.str "formula", .str formula)] := rfl
  simp [loaded, ingest, getItem, member, Dict.find, Except.map, PyValue.text]

/-! ### Memory and journal along a run -/

def Written (zoo : Zoo ν) : Prop :=
  ∃ documents, zoo.journal = Json.lines documents ∧ ∀ document ∈ documents, IsRecord document

def Restorable (path : String) (zoo : Zoo ν) : Prop :=
  load floats path zoo.journal = .ok zoo.memory

/-- The floats of a tree carry texts that are read as floats, as those of Python
values do. -/
def Call.Typed : Call ν → Prop
  | .add entry _ _ =>
    ∀ document, (PyValue.dict entry.tree).dumps = some document → document.Textual
  | _ => True

/-- The append reaches the file, with the record on one line. -/
def Recorded (disk : Option PyException) (record : PyValue) : Prop :=
  disk = none ∧ ∃ document, record.dumps = some document ∧ document.OneLine

/-- What a call needs for the journal to keep up with the memory. A factor that
is not let in needs nothing. -/
def Durable (zoo : Zoo ν) : Call ν → Prop
  | .add entry minOriginality disk =>
    admits zoo.memory entry minOriginality = .ok true →
      Recorded disk (factorRecord floats entry) ∧ (PyValue.dict entry.tree).Native
  | .recordFailure formula mode disk => Recorded disk (failureRecord formula mode)
  | .reload => True

private theorem append_error_iff (disk : Option PyException) (journal : List Char)
    (record : PyValue) :
    (∃ exc, append disk journal record = .error exc) ↔ ¬(disk = none ∧ record.dumps.isSome) := by
  cases disk with
  | some raised => simp [append]
  | none => cases written : record.dumps <;> simp [append, written]

/-- An append that went through wrote the text of its record. -/
theorem append_ok {disk : Option PyException} {journal written : List Char} {record : PyValue}
    (appended : append disk journal record = .ok written) :
    disk = none ∧ ∃ document, record.dumps = some document := by
  cases disk with
  | some raised => cases appended
  | none =>
    cases dumped : record.dumps with
    | none => simp [append, dumped] at appended
    | some document => exact ⟨rfl, document, rfl⟩

variable {zoo : Zoo ν} {memory : Memory ν} {record : PyValue}

theorem commit_of_dumps (written : record.dumps = some document) :
    commit zoo memory record none =
      (.done true, { memory, journal := zoo.journal ++ Json.lines [document] }) := by
  rw [commit, append]
  simp only [written]

/-- The memory holds the entry although its line was not written. -/
theorem commit_of_error {disk : Option PyException} {exc : PyException}
    (raised : append disk zoo.journal record = .error exc) :
    commit zoo memory record disk = (.appendRaised exc, { zoo with memory }) := by
  rw [commit, raised]

private theorem Memory.insert_ne (memory : Memory ν) (entry : ZooEntry ν) :
    memory.insert entry ≠ memory := by
  intro same
  have lengths := congrArg (fun memory : Memory ν => memory.entries.length) same
  simp [Memory.insert, Contents.insert] at lengths

private theorem Memory.countFailure_ne (memory : Memory ν) (mode : String) :
    memory.countFailure mode ≠ memory := by
  intro same
  have counts := congrArg (fun memory : Memory ν => memory.failures.get? mode) same
  simp only [Memory.countFailure, Contents.countFailure, Dict.get?_set_self] at counts
  cases found : memory.failures.get? mode <;> simp [found] at counts

private theorem index_insert {contents : Contents ν} (entry : ZooEntry ν)
    (same : contents.index = memory) : (contents.insert entry).index = memory.insert entry := by
  subst same
  have formulas : ((contents.entries ++ [entry]).map ZooEntry.formula).toFinset =
      Insert.insert entry.formula (contents.entries.map ZooEntry.formula).toFinset := by
    ext formula
    simp
  rw [Contents.index, Memory.insert, Contents.insert, formulas]
  rfl

private theorem index_injective {first second : Contents ν} (same : first.index = second.index) :
    first = second := by
  simp only [Contents.index, Memory.mk.injEq] at same
  exact same.1

private theorem index_countFailure {contents : Contents ν} (mode : String)
    (same : contents.index = memory) :
    (contents.countFailure mode).index = memory.countFailure mode := by
  subst same
  rfl

variable {path : String}

private theorem restorable_iff_load :
    Restorable floats path zoo ↔
      ∃ contents, (reader floats path).load .empty zoo.journal = .ok contents ∧
        contents.index = zoo.memory := by
  rw [Restorable, load_eq]
  constructor
  · exact ok_of_map
  · rintro ⟨contents, read, indexed⟩
    rw [read, ← indexed]
    rfl

private theorem restorable_append_iff (written : Written zoo)
    (restorable : Restorable floats path zoo)
    (isRecord : IsRecord document) {next : Contents ν → Contents ν}
    (ingests : ∀ contents, ingest floats contents document.loads = .ok (next contents)) :
    Restorable floats path { memory, journal := zoo.journal ++ Json.lines [document] } ↔
      document.OneLine ∧
        ∀ contents : Contents ν, contents.index = zoo.memory → (next contents).index = memory := by
  obtain ⟨documents, text, each⟩ := written
  obtain ⟨contents, loaded, indexed⟩ := (restorable_iff_load floats).mp restorable
  rw [text] at loaded
  have appended := (reader floats path).load_append_ok_iff each isRecord loaded
  have ingested : (reader floats path).ingest (1 + documents.length) contents document.loads =
      .ok (next contents) := ingests contents
  rw [restorable_iff_load, text]
  constructor
  · rintro ⟨result, read, restored⟩
    obtain ⟨oneLine, isResult⟩ := (appended result).mp read
    obtain rfl := Except.ok.inj (ingested.symm.trans isResult)
    refine ⟨oneLine, fun other sameIndex => ?_⟩
    obtain rfl : other = contents := index_injective (sameIndex.trans indexed.symm)
    exact restored
  · rintro ⟨oneLine, same⟩
    exact ⟨next contents, (appended _).mpr ⟨oneLine, ingested⟩, same contents indexed⟩

/-! ### One call -/

private theorem Written.append (written : Written zoo) (isRecord : IsRecord document)
    (memory : Memory ν) :
    Written { memory, journal := zoo.journal ++ Json.lines [document] } := by
  obtain ⟨documents, text, each⟩ := written
  refine ⟨documents ++ [document], by rw [Json.lines_append, text], fun other among => ?_⟩
  rcases List.mem_append.mp among with earlier | here
  · exact each other earlier
  · rw [List.mem_singleton.mp here]
    exact isRecord

private theorem Written.commit (written : Written zoo)
    (isRecord : ∀ document, record.dumps = some document → IsRecord document) (memory : Memory ν)
    (disk : Option PyException) : Written (commit zoo memory record disk).2 := by
  cases outcome : AlphaZoo.append disk zoo.journal record with
  | error exc =>
    rw [commit_of_error outcome]
    exact written
  | ok journal =>
    obtain ⟨rfl, document, dumped⟩ := append_ok outcome
    rw [commit_of_dumps dumped]
    exact written.append (isRecord document dumped) memory

theorem isRecord_of_typed {entry : ZooEntry ν} {minOriginality : ℚ} {disk : Option PyException}
    (typed : (Call.add entry minOriginality disk).Typed)
    (dumped : (factorRecord floats entry).dumps = some document) : IsRecord document := by
  rw [factorRecord_dumps] at dumped
  obtain ⟨tree, writtenTree, rfl⟩ := Option.map_eq_some_iff.mp dumped
  exact isRecord_factorDocument floats entry (typed tree writtenTree)

private theorem Written.step (written : Written zoo) {call : Call ν}
    (typed : call.Typed) : Written (step floats path zoo call).2 := by
  cases call with
  | add entry minOriginality disk =>
    simp only [AlphaZoo.step, add]
    split
    · exact written
    · exact written
    · exact written.commit (fun _ => isRecord_of_typed floats typed) _ disk
  | recordFailure formula mode disk =>
    refine written.commit (fun document dumped => ?_) _ disk
    obtain rfl := Option.some.inj dumped
    exact isRecord_failureDocument formula mode
  | reload =>
    simp only [AlphaZoo.step]
    split <;> exact written

private theorem restorable_commit_iff (written : Written zoo)
    (restorable : Restorable floats path zoo)
    (changed : memory ≠ zoo.memory) (disk : Option PyException)
    (isRecord : ∀ document, record.dumps = some document → IsRecord document) (good : Prop)
    (ingests : ∀ document, record.dumps = some document → ∃ next : Contents ν → Contents ν,
      (∀ contents, ingest floats contents document.loads = .ok (next contents)) ∧
        ((∀ contents : Contents ν, contents.index = zoo.memory →
          (next contents).index = memory) ↔ good)) :
    Restorable floats path (commit zoo memory record disk).2 ↔ Recorded disk record ∧ good := by
  cases outcome : AlphaZoo.append disk zoo.journal record with
  | error exc =>
    rw [commit_of_error outcome]
    have stopped := (append_error_iff disk zoo.journal record).mp ⟨exc, outcome⟩
    constructor
    · intro restored
      have same : zoo.memory = memory := Except.ok.inj (restorable.symm.trans restored)
      exact absurd same.symm changed
    · rintro ⟨⟨works, document, dumped, _⟩, _⟩
      exact absurd ⟨works, by rw [dumped]; rfl⟩ stopped
  | ok journal =>
    obtain ⟨rfl, document, dumped⟩ := append_ok outcome
    obtain ⟨next, ingested, same⟩ := ingests document dumped
    rw [commit_of_dumps dumped,
      restorable_append_iff floats written restorable (isRecord document dumped) ingested, same,
      Recorded]
    simp [dumped]

private theorem insert_eq_iff_native (contents : Contents ν) (entry : ZooEntry ν)
    {tree : Json} (written : (PyValue.dict entry.tree).dumps = some tree)
    {backs : List (PyKey × PyValue)} (reads : tree.loads = .dict backs) :
    contents.insert { entry with tree := backs } = contents.insert entry ↔
      (PyValue.dict entry.tree).Native := by
  have native : (PyValue.dict entry.tree).Native ↔ backs = entry.tree := by
    rw [PyValue.native_iff_stored, PyValue.stored, written, Option.map_some, reads]
    simp
  rw [native]
  constructor
  · intro same
    have entries := congrArg Contents.entries same
    simp only [Contents.insert, List.append_cancel_left_eq, List.cons.injEq, and_true] at entries
    exact congrArg ZooEntry.tree entries
  · rintro rfl
    rfl

private theorem restorable_step_iff (written : Written zoo)
    (restorable : Restorable floats path zoo) {call : Call ν} (typed : call.Typed) :
    Restorable floats path (step floats path zoo call).2 ↔ Durable floats zoo call := by
  obtain ⟨contents, indexed⟩ : ∃ contents : Contents ν, contents.index = zoo.memory := by
    obtain ⟨contents, _, indexed⟩ := ok_of_map restorable
    exact ⟨contents, indexed⟩
  cases call with
  | add entry minOriginality disk =>
    simp only [AlphaZoo.step, add, Durable]
    split
    · rename_i exc refused
      exact iff_of_true restorable fun admitted => by rw [refused] at admitted; cases admitted
    · rename_i refused
      exact iff_of_true restorable fun admitted => by rw [refused] at admitted; cases admitted
    · rename_i admitted
      have committed := restorable_commit_iff floats written restorable
        (zoo.memory.insert_ne entry) disk (fun _ => isRecord_of_typed floats typed)
        (PyValue.dict entry.tree).Native
      rw [committed]
      · simp [admitted]
      · intro document dumped
        rw [factorRecord_dumps] at dumped
        obtain ⟨tree, writtenTree, rfl⟩ := Option.map_eq_some_iff.mp dumped
        obtain ⟨backs, reads⟩ := exists_loads_of_dumps writtenTree
        refine ⟨_, fun contents => ingest_factorDocument floats contents entry reads, ?_⟩
        constructor
        · intro same
          apply (insert_eq_iff_native contents entry writtenTree reads).mp
          exact index_injective ((same contents indexed).trans (index_insert entry indexed).symm)
        · intro native other sameIndex
          rw [(insert_eq_iff_native other entry writtenTree reads).mpr native]
          exact index_insert entry sameIndex
  | recordFailure formula mode disk =>
    have isRecord (document : Json)
        (dumped : (failureRecord formula mode).dumps = some document) : IsRecord document := by
      obtain rfl := Option.some.inj dumped
      exact isRecord_failureDocument formula mode
    have committed := restorable_commit_iff floats written restorable
      (zoo.memory.countFailure_ne mode) disk isRecord True
    simp only [AlphaZoo.step, recordFailure, Durable]
    rw [committed, and_true]
    intro document dumped
    obtain rfl := Option.some.inj dumped
    exact ⟨_, fun contents => ingest_failureDocument floats contents formula mode,
      iff_true_intro fun other sameIndex => index_countFailure mode sameIndex⟩
  | reload =>
    have reloaded : load floats path zoo.journal = .ok zoo.memory := restorable
    simp only [AlphaZoo.step, Durable, reloaded]
    exact iff_true_intro restorable

private theorem restorable_fresh (path : String) : Restorable floats path .fresh := by
  rw [Restorable, load]
  simp [Zoo.fresh, splitLines, splitLinesFrom, loadLines, Except.map, Contents.index,
    Contents.empty, Memory.empty]

private theorem written_fresh : Written (Zoo.fresh : Zoo ν) := ⟨[], rfl, by simp⟩

private theorem not_appendRaised_of_durable {call : Call ν} (durable : Durable floats zoo call)
    (exc : PyException) : (step floats path zoo call).1 ≠ .appendRaised exc := by
  have recorded {memory : Memory ν} {record : PyValue} {disk : Option PyException}
      (recorded : Recorded disk record) : (commit zoo memory record disk).1 ≠ .appendRaised exc := by
    obtain ⟨rfl, document, dumped, _⟩ := recorded
    rw [commit_of_dumps dumped]
    simp
  cases call with
  | add entry minOriginality disk =>
    simp only [AlphaZoo.step, add]
    split
    · simp
    · simp
    · rename_i admitted
      exact recorded (durable admitted).1
  | recordFailure formula mode disk => exact recorded durable
  | reload =>
    simp only [AlphaZoo.step]
    split <;> simp

/-! ### The journal determines the zoo -/

/-- After every call the journal loads as the zoo in memory, and an append that
raises leaves the zoo as it was, exactly when along the run every record that is
appended reaches the file, on one line, with a tree that reads back as itself. -/
theorem restorable_along_iff (path : String) (calls : List (Call ν))
    (typed : ∀ call ∈ calls, call.Typed) :
    ((∀ before rest, calls = before ++ rest →
        Restorable floats path ((machine floats path).after .fresh before)) ∧
      ∀ before call rest exc, calls = before ++ call :: rest →
        (step floats path ((machine floats path).after .fresh before) call).1 =
            .appendRaised exc →
          (step floats path ((machine floats path).after .fresh before) call).2.memory =
            ((machine floats path).after .fresh before).memory) ↔
      (machine floats path).Along (Durable floats) .fresh calls := by
  have permitted := (machine floats path).along_of_mem typed .fresh
  have always : (∀ before rest, calls = before ++ rest →
      Restorable floats path ((machine floats path).after .fresh before)) ↔
        (machine floats path).Along (Durable floats) .fresh calls :=
    (machine floats path).always_iff_along
      (fun zoo call (written : Written zoo) typed => written.step floats typed)
      (fun zoo call written typed restorable =>
        restorable_step_iff floats written restorable typed)
      written_fresh (restorable_fresh floats path) permitted
  rw [← always]
  refine ⟨And.left, fun restorable => ⟨restorable, ?_⟩⟩
  intro before call rest exc split raised
  have along := always.mp restorable
  have durable := ((machine floats path).along_iff_each _ _ _).mp along before call rest split
  exact absurd raised (not_appendRaised_of_durable floats durable exc)

/-! ### Floats as their texts -/

def textFloats : Floats { digits : String // Json.isFloatText digits = true } where
  repr := Subtype.val
  ofValue
    | .float digits =>
      if known : Json.isFloatText digits = true then .ok ⟨digits, known⟩
      else .error (.valueError s!"could not convert string to float: {pyRepr digits}")
    | value =>
      .error (.typeError ("float() argument must be a string or a real number, not " ++
        s!"'{value.typeName}'"))
  isFloatText_repr := Subtype.property
  ofValue_repr := fun number => dif_pos number.property

def sampleEntry (expr : Expr) (tree : List (PyKey × PyValue)) :
    ZooEntry { digits : String // Json.isFloatText digits = true } :=
  { formula := toFormula expr, tree, family := classifyFamily expr
    score := ⟨"0.75", by decide +kernel⟩, rankIc := ⟨"-0.05", by decide +kernel⟩
    roundIndex := 1 }

/-- `close` enters the zoo, and `rank(close)` fails a gate. -/
def sampleCalls : List (Call { digits : String // Json.isFloatText digits = true }) :=
  [.add (sampleEntry (.leaf .close) [(.str "field", .str "close")]) defaultMinOriginality none,
    .recordFailure "rank(close)" "fsa" none]

private theorem typed_sampleCalls : ∀ call ∈ sampleCalls, call.Typed := by
  intro call among
  simp only [sampleCalls, List.mem_cons, List.not_mem_nil, or_false] at among
  rcases among with rfl | rfl
  · intro document written
    obtain rfl := Option.some.inj written
    exact ⟨trivial, trivial⟩
  · trivial

/-- The zoo of the sample can be rebuilt from its journal. -/
theorem restorable_along_sampleCalls :
    ((∀ before rest, sampleCalls = before ++ rest →
        Restorable textFloats "zoo.jsonl"
          ((machine textFloats "zoo.jsonl").after .fresh before)) ∧
      ∀ before call rest exc, sampleCalls = before ++ call :: rest →
        (step textFloats "zoo.jsonl"
            ((machine textFloats "zoo.jsonl").after .fresh before) call).1 = .appendRaised exc →
          (step textFloats "zoo.jsonl"
              ((machine textFloats "zoo.jsonl").after .fresh before) call).2.memory =
            ((machine textFloats "zoo.jsonl").after .fresh before).memory) ↔
      (machine textFloats "zoo.jsonl").Along (Durable textFloats) .fresh sampleCalls :=
  restorable_along_iff textFloats "zoo.jsonl" sampleCalls typed_sampleCalls

/-- A failure mode with a line separator in it. -/
def separatorCall : Call { digits : String // Json.isFloatText digits = true } :=
  .recordFailure "rank(close)" "a\u2028b" none

/-- The journal of a failure mode with a line separator does not load. -/
theorem not_restorable :
    ¬∀ calls : List (Call { digits : String // Json.isFloatText digits = true }),
      (∀ call ∈ calls, call.Typed) → ∀ before rest, calls = before ++ rest →
        Restorable textFloats "zoo.jsonl"
          ((machine textFloats "zoo.jsonl").after .fresh before) := by
  intro restorable
  have typed : ∀ call ∈ [separatorCall], call.Typed := by simp [separatorCall, Call.Typed]
  have restored := restorable [separatorCall] typed [separatorCall] [] rfl
  have durable := (restorable_step_iff textFloats written_fresh
    (restorable_fresh textFloats "zoo.jsonl") (typed separatorCall (by simp))).mp restored
  obtain ⟨_, document, dumped, oneLine⟩ := durable
  obtain rfl := Option.some.inj dumped
  have loose := oneLine "a\u2028b" (by decide) (Char.ofNat 0x2028) (by decide)
  cases loose

end Swarmind.AlphaMining.AlphaZoo
