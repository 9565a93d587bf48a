import Swarmind.Library.JsonLines
import Swarmind.Library.Runs

/-!
Owns the ledger of solved problems and its journal, and the runs of any number of
ledgers on one journal. A mark keeps the first evidence in memory while the loader keeps
the last one of the journal; memory changes before the append.
-/

namespace Swarmind.ComplexProblems.ProgressLedger

open Swarmind.Library

abbrev Solved : Type := Dict String String

/-! ### Marks -/

def emptyProblemId : PyException :=
  .valueError ("WHAT: problem_id vacio. WHY: el ID es la clave del ledger. " ++
    "WHERE: ProgressLedger.mark_solved.")

def emptyEvidence : PyException :=
  .valueError ("WHAT: evidencia vacia. WHY: cada resolucion debe ser " ++
    "auditable. WHERE: ProgressLedger.mark_solved.")

def record (problemId evidence : String) : Json :=
  .object [("evidence", .str evidence), ("problem_id", .str problemId)]

/-- The append of a record. `disk` is what the file system raises; nothing of the line has
reached the file then. -/
def append (disk : Option PyException) (journal : List Char) (document : Json) :
    Except PyException (List Char) :=
  match disk with
  | some raised => .error raised
  | none => .ok (journal ++ Json.lines [document])

/-- How a call ended. An append may raise after the memory has changed. -/
inductive Ending where
  | opened
  | marked (first : Bool)
  | raised (exc : PyException)
  | appendRaised (exc : PyException)
  | absent
deriving DecidableEq

def markSolved (solved : Solved) (journal : List Char) (problemId evidence : String)
    (disk : Option PyException) : Ending × Solved × List Char :=
  if problemId = "" then (.raised emptyProblemId, solved, journal)
  else if evidence = "" then (.raised emptyEvidence, solved, journal)
  else if solved.contains problemId then (.marked false, solved, journal)
  else
    match append disk journal (record problemId evidence) with
    | .ok journal => (.marked true, solved.set problemId evidence, journal)
    | .error exc => (.appendRaised exc, solved.set problemId evidence, journal)

/-! ### Loading -/

/-- A line that is no document; the text of the reader's own error is left out. -/
def corruptLine (number : Nat) : PyException :=
  .valueError (s!"WHAT: linea {number} del progress journal corrupta. WHY: el ledger es " ++
    "monotono y auditable. WHERE: ProgressLedger.")

def invalidForm (number : Nat) : PyException :=
  .valueError (s!"WHAT: linea {number} del progress journal con forma " ++
    "invalida (se exige problem_id/evidence strings no vacios). " ++
    "WHY: el ledger es auditable. WHERE: ProgressLedger.")

/-- `_parse_line` behind `json.loads`. -/
def parseRecord (number : Nat) : PyValue → Except PyException (String × String)
  | .dict items =>
    match Dict.find (.str "problem_id") items, Dict.find (.str "evidence") items with
    | some (.str problemId), some (.str evidence) =>
      if problemId = "" ∨ evidence = "" then .error (invalidForm number)
      else .ok (problemId, evidence)
    | _, _ => .error (invalidForm number)
  | _ => .error (invalidForm number)

def reader : JournalReader Solved where
  corrupt := corruptLine
  ingest number solved value :=
    (parseRecord number value).map fun parsed => solved.set parsed.1 parsed.2

/-- `_load` of a journal with this text; a missing file is an empty text. -/
def load (journal : List Char) : Except PyException Solved := reader.load Dict.empty journal

/-! ### Ledgers on one journal -/

structure World where
  ledgers : List Solved
  journal : List Char

def World.fresh : World := { ledgers := [], journal := [] }

inductive Call where
  | opens
  | markSolved (ledger : Nat) (problemId evidence : String) (disk : Option PyException)

def step (world : World) : Call → Ending × World
  | .opens =>
    match load world.journal with
    | .ok solved => (.opened, { world with ledgers := world.ledgers ++ [solved] })
    | .error exc => (.raised exc, world)
  | .markSolved ledger problemId evidence disk =>
    match world.ledgers[ledger]? with
    | none => (.absent, world)
    | some solved =>
      let marked := markSolved solved world.journal problemId evidence disk
      (marked.1, { ledgers := world.ledgers.set ledger marked.2.1, journal := marked.2.2 })

def machine : Machine World Call Ending where
  step := step

/-! ### What a ledger opened afterwards finds -/

def firstEvidence (history : List (Call × Ending)) (problemId : String) : Option String :=
  history.findSome? fun reply =>
    match reply with
    | (.markSolved _ marked evidence _, .marked true) =>
      if marked = problemId then some evidence else none
    | _ => none

def Marked (history : List (Call × Ending)) (problemId : String) : Prop :=
  ∃ ledger evidence disk first,
    (Call.markSolved ledger problemId evidence disk, Ending.marked first) ∈ history

/-- The journal loads, with the marked problems and the first evidence of each. -/
def Faithful (world : World) (history : List (Call × Ending)) : Prop :=
  ∃ solved, load world.journal = .ok solved ∧
    ∀ problemId, solved.get? problemId = firstEvidence history problemId ∧
      (solved.get? problemId ≠ none ↔ Marked history problemId)

/-- A mark whose append raises leaves its problem unsolved, and is accepted when it is made
again. -/
def Retriable (world : World) : Call → Prop
  | .opens => True
  | .markSolved ledger problemId evidence disk =>
    let marked := step world (.markSolved ledger problemId evidence disk)
    ∀ exc, marked.1 = .appendRaised exc →
      (∀ solved, marked.2.ledgers[ledger]? = some solved → solved.get? problemId = none) ∧
        (step marked.2 (.markSolved ledger problemId evidence none)).1 = .marked true

/-- No line ends inside the text. -/
def Unbroken (text : String) : Prop :=
  ∀ character ∈ text.toList, isLooseBreak character = false

/-- What a mark needs that gets to the append. -/
def Durable (world : World) : Call → Prop
  | .opens => True
  | .markSolved ledger problemId evidence disk =>
    ∀ solved, world.ledgers[ledger]? = some solved →
      problemId ≠ "" → evidence ≠ "" → solved.contains problemId = false →
        disk = none ∧ Unbroken problemId ∧ Unbroken evidence ∧
          ∀ recorded earlier, load world.journal = .ok recorded →
            recorded.get? problemId = some earlier → earlier = evidence

/-! ### One record more -/

private theorem isRecord_record (problemId evidence : String) :
    (record problemId evidence).IsRecord :=
  ⟨by simp [record, Json.Textual, Json.MembersTextual], _, rfl⟩

private theorem oneLine_record_iff (problemId evidence : String) :
    (record problemId evidence).OneLine ↔ Unbroken problemId ∧ Unbroken evidence := by
  have plain : Unbroken "evidence" ∧ Unbroken "problem_id" := by
    constructor <;> exact List.forall_iff_forall_mem.mp (by decide +kernel)
  have texts : (record problemId evidence).texts =
      ["evidence", evidence, "problem_id", problemId] := rfl
  simp only [Json.OneLine, texts, List.forall_mem_cons]
  constructor
  · rintro ⟨_, ofEvidence, _, ofProblem, _⟩
    exact ⟨ofProblem, ofEvidence⟩
  · rintro ⟨ofProblem, ofEvidence⟩
    exact ⟨plain.1, ofEvidence, plain.2, ofProblem, fun _ among => absurd among List.not_mem_nil⟩

variable {problemId evidence : String}

private theorem parseRecord_record (problemGiven : problemId ≠ "")
    (evidenceGiven : evidence ≠ "") (number : Nat) :
    parseRecord number (record problemId evidence).loads = .ok (problemId, evidence) := by
  have loaded : (record problemId evidence).loads =
      .dict [(.str "evidence", .str evidence), (.str "problem_id", .str problemId)] := rfl
  simp [loaded, parseRecord, Dict.find, problemGiven, evidenceGiven]

/-- The journal consists of records. -/
def Written (journal : List Char) : Prop :=
  ∃ documents, journal = Json.lines documents ∧ ∀ document ∈ documents, document.IsRecord

private theorem Written.append {journal : List Char} (written : Written journal) {document : Json}
    (isRecord : document.IsRecord) : Written (journal ++ Json.lines [document]) := by
  obtain ⟨documents, rfl, each⟩ := written
  exact ⟨documents ++ [document], (Json.lines_append _ _).symm,
    List.forall_mem_append.mpr ⟨each, List.forall_mem_singleton.mpr isRecord⟩⟩

private theorem load_append_iff {journal : List Char} (written : Written journal)
    {recorded : Solved}
    (loaded : load journal = .ok recorded)
    (problemGiven : problemId ≠ "") (evidenceGiven : evidence ≠ "") (result : Solved) :
    load (journal ++ Json.lines [record problemId evidence]) = .ok result ↔
      (Unbroken problemId ∧ Unbroken evidence) ∧ recorded.set problemId evidence = result := by
  obtain ⟨documents, rfl, each⟩ := written
  rw [load, reader.load_append_ok_iff each (isRecord_record problemId evidence) loaded,
    oneLine_record_iff]
  refine and_congr_right fun _ => ?_
  rw [reader]
  dsimp only
  rw [parseRecord_record problemGiven evidenceGiven, Except.map, Except.ok.injEq]

/-! ### One call -/

/-- A mark that gets to the append. -/
structure Fresh (world : World) (ledger : Nat) (problemId evidence : String) (solved : Solved) :
    Prop where
  found : world.ledgers[ledger]? = some solved
  problemGiven : problemId ≠ ""
  evidenceGiven : evidence ≠ ""
  unsolved : solved.contains problemId = false

private theorem step_markSolved_cases (world : World) (ledger : Nat) (problemId evidence : String)
    (disk : Option PyException) :
    (∃ ending, (∀ first, ending ≠ .marked first) ∧ (∀ exc, ending ≠ .appendRaised exc) ∧
        (∀ solved, ¬Fresh world ledger problemId evidence solved) ∧
        step world (.markSolved ledger problemId evidence disk) = (ending, world)) ∨
      (∃ solved, world.ledgers[ledger]? = some solved ∧ solved.contains problemId = true ∧
        step world (.markSolved ledger problemId evidence disk) = (.marked false, world)) ∨
      ∃ solved, Fresh world ledger problemId evidence solved ∧
        step world (.markSolved ledger problemId evidence disk) =
          match disk with
          | none =>
            (.marked true,
              { ledgers := world.ledgers.set ledger (solved.set problemId evidence)
                journal := world.journal ++ Json.lines [record problemId evidence] })
          | some exc =>
            (.appendRaised exc,
              { world with
                ledgers := world.ledgers.set ledger (solved.set problemId evidence) }) := by
  cases found : world.ledgers[ledger]? with
  | none =>
    exact .inl ⟨.absent, by simp, by simp, fun solved fresh => by simp [fresh.found] at found,
      by simp [step, found]⟩
  | some solved =>
    have still : world.ledgers.set ledger solved = world.ledgers := by
      obtain ⟨inside, rfl⟩ := List.getElem?_eq_some_iff.mp found
      exact List.set_getElem_self inside
    by_cases problemGiven : problemId = ""
    · exact .inl ⟨.raised emptyProblemId, by simp, by simp,
        fun _ fresh => fresh.problemGiven problemGiven,
        by simp [step, found, markSolved, problemGiven, still]⟩
    by_cases evidenceGiven : evidence = ""
    · exact .inl ⟨.raised emptyEvidence, by simp, by simp,
        fun _ fresh => fresh.evidenceGiven evidenceGiven,
        by simp [step, found, markSolved, problemGiven, evidenceGiven, still]⟩
    by_cases held : solved.contains problemId = true
    · exact .inr (.inl ⟨solved, rfl, held,
        by simp [step, found, markSolved, problemGiven, evidenceGiven, held, still]⟩)
    · refine .inr (.inr ⟨solved, ⟨found, problemGiven, evidenceGiven, by simpa using held⟩, ?_⟩)
      cases disk <;> simp [step, found, markSolved, problemGiven, evidenceGiven, held, append]

/-- What holds between the ledgers and the journal. -/
structure Consistent (world : World) : Prop where
  written : Written world.journal
  recorded : ∃ recorded, load world.journal = .ok recorded ∧
    ∀ solved ∈ world.ledgers, ∀ problemId, solved.get? problemId ≠ none →
      recorded.get? problemId ≠ none

private theorem consistent_fresh : Consistent .fresh where
  written := ⟨[], rfl, fun _ among => absurd among List.not_mem_nil⟩
  recorded := ⟨Dict.empty, rfl, fun _ among => absurd among List.not_mem_nil⟩

variable {world : World} {ledger : Nat}

private theorem durable_iff_of_fresh
    {solved : Solved} (fresh : Fresh world ledger problemId evidence solved)
    (disk : Option PyException) {recorded : Solved} (loaded : load world.journal = .ok recorded) :
    Durable world (.markSolved ledger problemId evidence disk) ↔
      disk = none ∧ Unbroken problemId ∧ Unbroken evidence ∧
        ∀ earlier, recorded.get? problemId = some earlier → earlier = evidence := by
  constructor
  · intro durable
    obtain ⟨reached, ofProblem, ofEvidence, same⟩ :=
      durable solved fresh.found fresh.problemGiven fresh.evidenceGiven fresh.unsolved
    exact ⟨reached, ofProblem, ofEvidence, fun earlier => same recorded earlier loaded⟩
  · rintro ⟨reached, ofProblem, ofEvidence, same⟩ other _ _ _ _
    refine ⟨reached, ofProblem, ofEvidence, fun read earlier again => ?_⟩
    rw [loaded, Except.ok.injEq] at again
    subst again
    exact same earlier

private theorem Consistent.step (consistent : Consistent world) {call : Call}
    (durable : Durable world call) : Consistent (step world call).2 := by
  obtain ⟨recorded, loaded, within⟩ := consistent.recorded
  cases call with
  | opens =>
    rw [ProgressLedger.step, loaded]
    exact ⟨consistent.written, recorded, loaded, List.forall_mem_append.mpr
      ⟨within, List.forall_mem_singleton.mpr fun _ held => held⟩⟩
  | markSolved ledger problemId evidence disk =>
    rcases step_markSolved_cases world ledger problemId evidence disk with
      ⟨_, _, _, _, outcome⟩ | ⟨_, _, _, outcome⟩ | ⟨solved, fresh, outcome⟩
    · rw [outcome]
      exact consistent
    · rw [outcome]
      exact consistent
    · obtain ⟨rfl, ofProblem, ofEvidence, _⟩ :=
        (durable_iff_of_fresh fresh disk loaded).mp durable
      rw [outcome]
      refine ⟨consistent.written.append (isRecord_record problemId evidence),
        recorded.set problemId evidence,
        (load_append_iff consistent.written loaded fresh.problemGiven fresh.evidenceGiven _).mpr
          ⟨⟨ofProblem, ofEvidence⟩, rfl⟩, fun other among problem held => ?_⟩
      rw [Dict.get?_set]
      split_ifs with same
      · exact Option.some_ne_none _
      rcases List.mem_or_eq_of_mem_set among with earlier | rfl
      · exact within other earlier problem held
      · rw [Dict.get?_set, if_neg same] at held
        exact within solved (List.mem_of_getElem? fresh.found) problem held

private theorem firstEvidence_append (history : List (Call × Ending)) (reply : Call × Ending)
    (problemId : String) :
    firstEvidence (history ++ [reply]) problemId =
      (firstEvidence history problemId).or (firstEvidence [reply] problemId) :=
  List.findSome?_append

private theorem marked_append_iff (history : List (Call × Ending)) (reply : Call × Ending)
    (problemId : String) :
    Marked (history ++ [reply]) problemId ↔
      Marked history problemId ∨ Marked [reply] problemId := by
  simp only [Marked, List.mem_append]
  constructor
  · rintro ⟨ledger, evidence, disk, first, earlier | last⟩
    · exact .inl ⟨ledger, evidence, disk, first, earlier⟩
    · exact .inr ⟨ledger, evidence, disk, first, last⟩
  · rintro (⟨ledger, evidence, disk, first, earlier⟩ | ⟨ledger, evidence, disk, first, last⟩)
    · exact ⟨ledger, evidence, disk, first, .inl earlier⟩
    · exact ⟨ledger, evidence, disk, first, .inr last⟩

variable {history : List (Call × Ending)}

private theorem Faithful.silent {world next : World} (faithful : Faithful world history)
    (same : next.journal = world.journal) {reply : Call × Ending}
    (silent : ∀ first, reply.2 ≠ .marked first) : Faithful next (history ++ [reply]) := by
  obtain ⟨solved, loaded, each⟩ := faithful
  refine ⟨solved, by rw [same, loaded], fun problemId => ?_⟩
  have unmarked : ¬Marked [reply] problemId := by
    rintro ⟨ledger, evidence, disk, first, among⟩
    exact silent first (by rw [← List.mem_singleton.mp among])
  have nothing : firstEvidence [reply] problemId = none := by
    refine List.findSome?_eq_none_iff.mpr fun other among => ?_
    obtain rfl := List.mem_singleton.mp among
    split
    · exact absurd rfl (silent true)
    · rfl
  rw [firstEvidence_append, nothing, Option.or_none, marked_append_iff, or_iff_left unmarked]
  exact each problemId

private theorem firstEvidence_marked (ledger : Nat) (problemId evidence other : String)
    (disk : Option PyException) :
    firstEvidence [(.markSolved ledger problemId evidence disk, .marked true)] other =
      if problemId = other then some evidence else none := by
  rw [firstEvidence, List.findSome?_cons, List.findSome?_nil]
  by_cases same : problemId = other
  · simp [same]
  · simp [same]

private theorem marked_singleton_iff (ledger : Nat) (problemId evidence other : String)
    (disk : Option PyException) (first : Bool) :
    Marked [(.markSolved ledger problemId evidence disk, .marked first)] other ↔
      problemId = other := by
  constructor
  · rintro ⟨_, _, _, _, among⟩
    rw [List.mem_singleton, Prod.mk.injEq, Call.markSolved.injEq] at among
    exact among.1.2.1.symm
  · rintro rfl
    exact ⟨ledger, evidence, disk, first, List.mem_singleton_self _⟩

variable {disk : Option PyException}

private theorem Faithful.known (faithful : Faithful world history)
    (known : ∀ recorded, load world.journal = .ok recorded → recorded.get? problemId ≠ none) :
    Faithful world
      (history ++ [(.markSolved ledger problemId evidence disk, .marked false)]) := by
  obtain ⟨recorded, loaded, each⟩ := faithful
  refine ⟨recorded, loaded, fun other => ?_⟩
  have nothing : firstEvidence [(.markSolved ledger problemId evidence disk, .marked false)] other =
      none := rfl
  rw [firstEvidence_append, nothing, Option.or_none, marked_append_iff, marked_singleton_iff,
    ← (each other).2]
  refine ⟨(each other).1, fun held => .inl held, ?_⟩
  rintro (held | rfl)
  · exact held
  · exact known recorded loaded

private theorem faithful_append_iff {world next : World}
    (written : Written world.journal) (faithful : Faithful world history) {recorded : Solved}
    (loaded : load world.journal = .ok recorded) (problemGiven : problemId ≠ "")
    (evidenceGiven : evidence ≠ "")
    (appended : next.journal = world.journal ++ Json.lines [record problemId evidence]) :
    Faithful next
        (history ++ [(.markSolved ledger problemId evidence disk, .marked true)]) ↔
      Unbroken problemId ∧ Unbroken evidence ∧
        ∀ earlier, recorded.get? problemId = some earlier → earlier = evidence := by
  obtain ⟨solved, again, each⟩ := faithful
  rw [loaded, Except.ok.injEq] at again
  subst again
  simp only [Faithful, appended, load_append_iff written loaded problemGiven evidenceGiven,
    firstEvidence_append, firstEvidence_marked, marked_append_iff, marked_singleton_iff]
  constructor
  · rintro ⟨_, ⟨⟨ofProblem, ofEvidence⟩, rfl⟩, all⟩
    refine ⟨ofProblem, ofEvidence, fun earlier held => ?_⟩
    have first := (all problemId).1
    rw [Dict.get?_set_self, ← (each problemId).1, held, Option.some_or] at first
    exact (Option.some.inj first).symm
  · rintro ⟨ofProblem, ofEvidence, same⟩
    refine ⟨_, ⟨⟨ofProblem, ofEvidence⟩, rfl⟩, fun other => ?_⟩
    rw [← (each other).1, ← (each other).2, Dict.get?_set]
    by_cases here : problemId = other
    · subst here
      rw [if_pos rfl, if_pos rfl]
      refine ⟨?_, fun _ => .inr rfl, fun _ => Option.some_ne_none _⟩
      cases held : recorded.get? problemId with
      | none => rfl
      | some earlier => rw [Option.some_or, same earlier held]
    · rw [if_neg here, if_neg here, Option.or_none, or_iff_left here]
      exact ⟨rfl, Iff.rfl⟩

private theorem retriable_of_ending
    (silent : ∀ exc, (step world (.markSolved ledger problemId evidence disk)).1 ≠
      .appendRaised exc) :
    Retriable world (.markSolved ledger problemId evidence disk) :=
  fun exc raised => absurd raised (silent exc)

private theorem faithful_step_iff (consistent : Consistent world)
    (faithful : Faithful world history)
    (call : Call) :
    Faithful (step world call).2 (history ++ [(call, (step world call).1)]) ∧
        Retriable world call ↔
      Durable world call := by
  obtain ⟨recorded, loaded, within⟩ := consistent.recorded
  cases call with
  | opens =>
    rw [step, loaded]
    exact iff_of_true ⟨faithful.silent rfl (by simp), trivial⟩ trivial
  | markSolved ledger problemId evidence disk =>
    rcases step_markSolved_cases world ledger problemId evidence disk with
      ⟨ending, unmarked, quiet, stale, outcome⟩ | ⟨solved, found, held, outcome⟩ |
        ⟨solved, fresh, outcome⟩
    · refine iff_of_true ⟨?_, retriable_of_ending (by rw [outcome]; exact quiet)⟩ ?_
      · rw [outcome]
        exact faithful.silent rfl unmarked
      · intro solved found problemGiven evidenceGiven unsolved
        exact absurd ⟨found, problemGiven, evidenceGiven, unsolved⟩ (stale solved)
    · refine iff_of_true ⟨?_, retriable_of_ending (by rw [outcome]; simp)⟩ ?_
      · rw [outcome]
        refine faithful.known fun again reload => ?_
        rw [loaded, Except.ok.injEq] at reload
        subst reload
        exact within solved (List.mem_of_getElem? found) problemId
          (Option.isSome_iff_ne_none.mp held)
      · intro other foundOther _ _ unsolved
        rw [found, Option.some.injEq] at foundOther
        rw [← foundOther, held] at unsolved
        exact Bool.noConfusion unsolved
    · rw [durable_iff_of_fresh fresh disk loaded]
      cases disk with
      | none =>
        have retriable : Retriable world (.markSolved ledger problemId evidence none) :=
          retriable_of_ending (by rw [outcome]; simp)
        rw [outcome, and_iff_left retriable, and_iff_right rfl]
        exact faithful_append_iff consistent.written faithful loaded fresh.problemGiven
          fresh.evidenceGiven rfl
      | some exc =>
        refine iff_of_false (fun both => ?_) (fun durable => by cases durable.1)
        obtain ⟨unsolved, _⟩ := both.2 exc (by rw [outcome])
        have inside : ledger < world.ledgers.length :=
          (List.getElem?_eq_some_iff.mp fresh.found).1
        have remembered := unsolved (solved.set problemId evidence)
          (by rw [outcome]; exact List.getElem?_set_self inside)
        rw [Dict.get?_set_self] at remembered
        exact Option.some_ne_none _ remembered

/-! ### Every history -/

/-- Solved problems stay solved with their first evidence, and a mark whose append raises can
be made again, exactly when every mark that gets to the append reaches the file, holds no
line end and finds no other evidence of its problem in the journal. -/
theorem faithful_along_iff (calls : List Call) :
    ((∀ before rest, calls = before ++ rest →
        Faithful (machine.after .fresh before) (machine.replies .fresh before)) ∧
      ∀ before call rest, calls = before ++ call :: rest →
        Retriable (machine.after .fresh before) call) ↔
      machine.Along Durable .fresh calls := by
  have start : Faithful .fresh [] :=
    ⟨Dict.empty, rfl, fun problemId => ⟨rfl, fun held => absurd rfl held,
      fun ⟨_, _, _, _, among⟩ => absurd among List.not_mem_nil⟩⟩
  exact machine.history_iff_along
    (fun world _ (consistent : Consistent world) durable => consistent.step durable)
    (fun world history call consistent (faithful : Faithful world history) =>
      faithful_step_iff consistent faithful call)
    consistent_fresh start

/-- A mark of a problem with evidence, whose append succeeds. -/
def Call.Proper : Call → Prop
  | .opens => True
  | .markSolved _ problemId evidence disk => problemId ≠ "" ∧ evidence ≠ "" ∧ disk = none

def rivalCalls : List Call :=
  [.opens, .opens, .markSolved 0 "erdos-1" "proof by induction" none,
    .markSolved 1 "erdos-1" "proof by cases" none]

/-- The evidence of the later mark prevails in the journal. -/
theorem not_faithful_rivalCalls :
    ¬∀ calls : List Call, (∀ call ∈ calls, call.Proper) → ∀ before rest, calls = before ++ rest →
      Faithful (machine.after .fresh before) (machine.replies .fresh before) := by
  intro faithful
  have proper : ∀ call ∈ rivalCalls, call.Proper := by simp [rivalCalls, Call.Proper]
  obtain ⟨solved, loaded, each⟩ := faithful rivalCalls proper rivalCalls [] rfl
  have last : (load (machine.after .fresh rivalCalls).journal).toOption.bind
      (fun recorded => recorded.get? "erdos-1") = some "proof by cases" := by decide +kernel
  have first : firstEvidence (machine.replies .fresh rivalCalls) "erdos-1" =
      some "proof by induction" := by decide +kernel
  rw [loaded] at last
  have held := (each "erdos-1").1
  rw [first] at held
  exact absurd (held.symm.trans last) (by decide)

end Swarmind.ComplexProblems.ProgressLedger
