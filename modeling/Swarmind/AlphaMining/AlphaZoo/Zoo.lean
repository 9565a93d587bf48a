import Swarmind.AlphaMining.FactorDsl.Serialisation
import Swarmind.AlphaMining.FactorDsl.Motifs
import Swarmind.Library.JsonLines
import Swarmind.Library.Runs

/-!
Owns the alpha zoo: its entries, the failure counts and the formula index in
memory, and the journal of one JSON record a line. `add` and `recordFailure`
change the memory and then append; `load` reads a journal line by line. What
the file system does to an append is part of the call.
-/

namespace Swarmind.AlphaMining.AlphaZoo

open Swarmind.Library Swarmind.AlphaMining.FactorDsl

def defaultMinOriginality : ℚ := 4 / 5

inductive FactorFamily where
  | trend
  | meanReversion
  | volatility
  | range
  | liquidityVolume
  | priceVolume
  | other
deriving DecidableEq, Repr

namespace FactorFamily

def value : FactorFamily → String
  | .trend => "trend"
  | .meanReversion => "mean_reversion"
  | .volatility => "volatility"
  | .range => "range"
  | .liquidityVolume => "liquidity_volume"
  | .priceVolume => "price_volume"
  | .other => "other"

def ofValue (value : PyValue) : Except PyException FactorFamily :=
  let known := [trend, meanReversion, volatility, range, liquidityVolume, priceVolume, other]
  let found := match value with
    | .str text => known.find? (·.value = text)
    | _ => none
  match found with
  | some family => .ok family
  | none => .error (.valueError s!"{value.repr} is not a valid FactorFamily")

theorem ofValue_value (family : FactorFamily) : ofValue (.str family.value) = .ok family := by
  cases family <;> rfl

end FactorFamily

/-- What the code relies on of Python floats: `json` can write their `repr`, and
`float(..)` gives back the float. -/
structure Floats (ν : Type) where
  repr : ν → String
  ofValue : PyValue → Except PyException ν
  isFloatText_repr : ∀ number, Json.isFloatText (repr number) = true
  ofValue_repr : ∀ number, ofValue (.float (repr number)) = .ok number

/-- A validated factor. -/
structure ZooEntry (ν : Type) where
  formula : String
  tree : List (PyKey × PyValue)
  family : FactorFamily
  score : ν
  rankIc : ν
  roundIndex : Int

mutual

def collectOps : Expr → List Operator
  | ⟨op, _, _, children⟩ => op.toList ++ collectAllOps children

def collectAllOps : List Expr → List Operator
  | [] => []
  | child :: rest => collectOps child ++ collectAllOps rest

end

mutual

def collectFields : Expr → List Field
  | ⟨_, field, _, children⟩ => field.toList ++ collectAllFields children

def collectAllFields : List Expr → List Field
  | [] => []
  | child :: rest => collectFields child ++ collectAllFields rest

end

def classifyFamily (expr : Expr) : FactorFamily :=
  let ops := collectOps expr
  let fields := collectFields expr
  if ops.contains .tsStd || ops.contains .zscore then .volatility
  else if ops.contains .tsMax && ops.contains .tsMin then .range
  else if fields.contains .volume && (ops.contains .div || ops.contains .scale) then
    .liquidityVolume
  else if ops.contains .tsCorr then .priceVolume
  else if ops.contains .delta then .trend
  else if ops.contains .rank then .meanReversion
  else .other

/-- What the journal records: the entries and the failure counts. -/
structure Contents (ν : Type) where
  entries : List (ZooEntry ν)
  failures : Dict String Nat

structure Memory (ν : Type) extends Contents ν where
  formulas : Finset String

def Contents.empty {ν : Type} : Contents ν := { entries := [], failures := Dict.empty }

def Memory.empty {ν : Type} : Memory ν := { Contents.empty with formulas := ∅ }

/-- The zoo and the text of its journal; a missing file is an empty text. -/
structure Zoo (ν : Type) where
  memory : Memory ν
  journal : List Char

def Zoo.fresh {ν : Type} : Zoo ν := { memory := .empty, journal := [] }

variable {ν : Type} (floats : Floats ν)

/-! ### Records -/

def factorRecord (entry : ZooEntry ν) : PyValue :=
  .record
    [("kind", .str "factor"), ("formula", .str entry.formula), ("tree", .dict entry.tree),
      ("family", .str entry.family.value), ("score", .float (floats.repr entry.score)),
      ("rank_ic", .float (floats.repr entry.rankIc)), ("round_index", .int entry.roundIndex)]

def failureRecord (formula mode : String) : PyValue :=
  .record [("kind", .str "failure"), ("mode", .str mode), ("formula", .str formula)]

/-- `_append`: the journal with one line more. `disk` is what the file system
raises; nothing of the line has reached the file then. -/
def append (disk : Option PyException) (journal : List Char) (record : PyValue) :
    Except PyException (List Char) :=
  match disk with
  | some raised => .error raised
  | none =>
    match record.dumps with
    | some json => .ok (journal ++ Json.lines [json])
    | none => .error .notSerializable

/-! ### Mutations -/

/-- The loop of `is_similar` over the existing entries. -/
def similarAmong (expr : Expr) (minOriginality : ℚ) :
    List (ZooEntry ν) → Except PyException Bool
  | [] => .ok false
  | existing :: rest =>
    (parseExpr (.dict existing.tree)).bind fun other =>
      if minOriginality ≤ subtreeSimilarity expr other then .ok true
      else similarAmong expr minOriginality rest

def isSimilar (memory : Memory ν) (expr : Expr) (minOriginality : ℚ) : Except PyException Bool :=
  if toFormula expr ∈ memory.formulas then .ok true
  else similarAmong expr minOriginality memory.entries

/-- Whether `add` lets the entry in. -/
def admits (memory : Memory ν) (entry : ZooEntry ν) (minOriginality : ℚ) :
    Except PyException Bool :=
  (parseExpr (.dict entry.tree)).bind fun candidate =>
    (isSimilar memory candidate minOriginality).map not

def Contents.insert (contents : Contents ν) (entry : ZooEntry ν) : Contents ν :=
  { contents with entries := contents.entries ++ [entry] }

def Contents.countFailure (contents : Contents ν) (mode : String) : Contents ν :=
  { contents with
    failures := contents.failures.set mode ((contents.failures.get? mode).getD 0 + 1) }

def Memory.insert (memory : Memory ν) (entry : ZooEntry ν) : Memory ν :=
  { memory.toContents.insert entry with
    formulas := Insert.insert entry.formula memory.formulas }

def Memory.countFailure (memory : Memory ν) (mode : String) : Memory ν :=
  { memory.toContents.countFailure mode with formulas := memory.formulas }

/-- How a mutation ended. An append may raise after the memory has changed. -/
inductive Ending where
  | done (result : Bool)
  | raised (exc : PyException)
  | appendRaised (exc : PyException)
deriving DecidableEq

/-- The end of a mutation: `_append` with the memory already changed. -/
def commit (zoo : Zoo ν) (memory : Memory ν) (record : PyValue) (disk : Option PyException) :
    Ending × Zoo ν :=
  match append disk zoo.journal record with
  | .ok journal => (.done true, { memory, journal })
  | .error exc => (.appendRaised exc, { zoo with memory })

def add (zoo : Zoo ν) (entry : ZooEntry ν) (minOriginality : ℚ) (disk : Option PyException) :
    Ending × Zoo ν :=
  match admits zoo.memory entry minOriginality with
  | .error exc => (.raised exc, zoo)
  | .ok false => (.done false, zoo)
  | .ok true => commit zoo (zoo.memory.insert entry) (factorRecord floats entry) disk

def recordFailure (zoo : Zoo ν) (formula mode : String) (disk : Option PyException) :
    Ending × Zoo ν :=
  commit zoo (zoo.memory.countFailure mode) (failureRecord formula mode) disk

/-! ### Loading -/

def keyError (name : String) : PyException := ⟨"KeyError", pyRepr name⟩

/-- `record[name]`. -/
def getItem (items : List (PyKey × PyValue)) (name : String) : Except PyException PyValue :=
  match FactorDsl.member items name with
  | some value => .ok value
  | none => .error (keyError name)

/-- `dict(value)`. No journal of the zoo holds anything but a dictionary there. -/
def toItems : PyValue → Except PyException (List (PyKey × PyValue))
  | .dict items => .ok items
  | value => .error (.typeError s!"'{value.typeName}' object is not iterable")

def readEntry (items : List (PyKey × PyValue)) : Except PyException (ZooEntry ν) :=
  (getItem items "formula").bind fun formula =>
    ((getItem items "tree").bind toItems).bind fun tree =>
      ((getItem items "family").bind FactorFamily.ofValue).bind fun family =>
        ((getItem items "score").bind floats.ofValue).bind fun score =>
          ((getItem items "rank_ic").bind floats.ofValue).bind fun rankIc =>
            ((getItem items "round_index").bind PyValue.toInt).map fun roundIndex =>
              { formula := formula.text, tree, family, score, rankIc, roundIndex }

def ingest (contents : Contents ν) : PyValue → Except PyException (Contents ν)
  | .dict items =>
    match FactorDsl.member items "kind" with
    | some (.str "failure") =>
      (getItem items "mode").map fun mode => contents.countFailure mode.text
    | _ => (readEntry floats items).map contents.insert
  | value =>
    .error ⟨"AttributeError", s!"'{value.typeName}' object has no attribute 'get'"⟩

/-- A line that is no document; the text of the reader's own error is left out. -/
def corruptLine (path : String) (number : Nat) : PyException :=
  .valueError (s!"WHAT: linea {number} del zoo journal corrupta. WHY: el zoo es estado " ++
    s!"durable de la mineria; no se salta estado invalido. WHERE: {path}.")

def loadLines (path : String) :
    Nat → List (List Char) → Contents ν → Except PyException (Contents ν)
  | _, [], contents => .ok contents
  | number, line :: rest, contents =>
    if line.all isSpace then loadLines path (number + 1) rest contents
    else
      match Json.decode line with
      | none => .error (corruptLine path number)
      | some json => (ingest floats contents json.loads).bind (loadLines path (number + 1) rest)

/-- `self._formulas = {entry.formula for entry in self._entries}`. -/
def Contents.index (contents : Contents ν) : Memory ν :=
  { contents with formulas := (contents.entries.map ZooEntry.formula).toFinset }

def load (path : String) (text : List Char) : Except PyException (Memory ν) :=
  (loadLines floats path 1 (splitLines text) .empty).map Contents.index

/-! ### Runs -/

inductive Call (ν : Type) where
  | add (entry : ZooEntry ν) (minOriginality : ℚ) (disk : Option PyException)
  | recordFailure (formula mode : String) (disk : Option PyException)
  | reload

/-- A call; a reload that raises leaves the instance there is. -/
def step (path : String) (zoo : Zoo ν) : Call ν → Ending × Zoo ν
  | .add entry minOriginality disk => add floats zoo entry minOriginality disk
  | .recordFailure formula mode disk => recordFailure zoo formula mode disk
  | .reload =>
    match load floats path zoo.journal with
    | .ok memory => (.done true, { zoo with memory })
    | .error exc => (.raised exc, zoo)

def machine (path : String) : Machine (Zoo ν) (Call ν) Ending where
  step := step floats path

end Swarmind.AlphaMining.AlphaZoo
