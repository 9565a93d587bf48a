import Swarmind.Library.Python

/-!
Owns the factor language of the alpha mining package: fields, operators with
their arity and window, expression trees, the node count and `validate_expr`.
`Expr` holds whatever the dataclass can hold; a tree is `Valid` when
`validate_expr` accepts it, and `Clean` when no operator node carries a field.
-/

namespace Swarmind.AlphaMining.FactorDsl

open Swarmind.Library

/-- Nodes that a tree may have by default. -/
def maxNodes : Int := 32

def minWindow : Int := 2

def maxWindow : Int := 250

/-- `MIN_WINDOW <= window <= MAX_WINDOW`. -/
def InRange (window : Int) : Prop := minWindow ≤ window ∧ window ≤ maxWindow

instance (window : Int) : Decidable (InRange window) := by
  unfold InRange
  infer_instance

private theorem not_inRange_zero : ¬InRange 0 := by decide

theorem inRange_minWindow : InRange minWindow := by decide

theorem InRange.nonneg {window : Int} (range : InRange window) : 0 ≤ window := by
  have least : minWindow ≤ window := range.1
  rw [minWindow] at least
  omega

/-- Columns of the panel. -/
inductive Field where
  | open
  | high
  | low
  | close
  | volume
  | returns
deriving DecidableEq, Repr

def Field.value : Field → String
  | .open => "open"
  | .high => "high"
  | .low => "low"
  | .close => "close"
  | .volume => "volume"
  | .returns => "returns"

/-- The closed registry of operators. -/
inductive Operator where
  | rank
  | tsRank
  | tsMean
  | tsStd
  | tsMax
  | tsMin
  | delta
  | zscore
  | scale
  | sign
  | abs
  | log
  | add
  | sub
  | mul
  | div
  | tsCorr
deriving DecidableEq, Repr

namespace Operator

def value : Operator → String
  | .rank => "rank"
  | .tsRank => "ts_rank"
  | .tsMean => "ts_mean"
  | .tsStd => "ts_std"
  | .tsMax => "ts_max"
  | .tsMin => "ts_min"
  | .delta => "delta"
  | .zscore => "zscore"
  | .scale => "scale"
  | .sign => "sign"
  | .abs => "abs"
  | .log => "log"
  | .add => "add"
  | .sub => "sub"
  | .mul => "mul"
  | .div => "div"
  | .tsCorr => "ts_corr"

def arity : Operator → Nat
  | .add | .sub | .mul | .div | .tsCorr => 2
  | _ => 1

def windowed : Operator → Bool
  | .tsRank | .tsMean | .tsStd | .tsMax | .tsMin | .delta | .zscore | .tsCorr => true
  | _ => false

end Operator

/-- A node of a tree, with any combination of its attributes. -/
structure Expr where
  op : Option Operator
  field : Option Field
  window : Option Int
  children : List Expr
deriving Repr

namespace Expr

/-- Induction on a node, with the property of each of its children. -/
theorem inductionOn {motive : Expr → Prop}
    (node : ∀ op field window children,
      (∀ child ∈ children, motive child) → motive ⟨op, field, window, children⟩) :
    ∀ expr, motive expr :=
  @Expr.rec motive (fun children => ∀ child ∈ children, motive child)
    (fun op field window children each => node op field window children each)
    (fun child member => by cases member)
    (fun head rest ofHead ofRest child member => by
      rcases List.mem_cons.mp member with rfl | later
      · exact ofHead
      · exact ofRest child later)

def leaf (field : Field) : Expr :=
  { op := none, field := some field, window := none, children := [] }

end Expr

mutual

/-- Number of nodes. -/
def complexity : Expr → Nat
  | ⟨_, _, _, children⟩ => 1 + totalComplexity children

def totalComplexity : List Expr → Nat
  | [] => 0
  | child :: rest => complexity child + totalComplexity rest

end

def windowText : Option Int → String
  | none => "None"
  | some window => toString window

def invalidLeaf : PyException :=
  .valueError ("WHAT: hoja invalida (se exige field sin hijos ni ventana). " ++
    "WHY: el AST debe ser una hoja limpia. WHERE: validate_expr.")

def wrongArity (op : Operator) (found : Nat) : PyException :=
  .valueError (s!"WHAT: operador '{op.value}' con {found} hijos, se esperan {op.arity}. " ++
    "WHY: aritad del registro DSL. WHERE: validate_expr.")

def windowOutOfRange (op : Operator) (window : Option Int) : PyException :=
  .valueError (s!"WHAT: ventana {windowText window} fuera de [{minWindow}, {maxWindow}] " ++
    s!"para '{op.value}'. WHY: rolling invalido. WHERE: validate_expr.")

def unexpectedWindow (op : Operator) : PyException :=
  .valueError (s!"WHAT: '{op.value}' no admite ventana. WHY: es elemento a elemento. " ++
    "WHERE: validate_expr.")

def tooManyNodes (nodes : Nat) (limit : Int) : PyException :=
  .valueError (s!"WHAT: AST con {nodes} nodos > maximo {limit}. " ++
    "WHY: complexity control (anti-overfitting). WHERE: validate_expr.")

mutual

def validateExpr (limit : Option Int) : Expr → Except PyException Unit
  | ⟨none, field, window, children⟩ =>
    if field.isNone || !children.isEmpty || window.isSome then .error invalidLeaf else .ok ()
  | ⟨some op, field, window, children⟩ =>
    if children.length ≠ op.arity then .error (wrongArity op children.length)
    else if op.windowed ∧ ¬InRange (window.getD 0) then
      .error (windowOutOfRange op window)
    else if op.windowed = false ∧ window.isSome then .error (unexpectedWindow op)
    else
      (validateAll limit children).bind fun _ =>
        match limit with
        | some most =>
          let nodes := complexity ⟨some op, field, window, children⟩
          if most < nodes then .error (tooManyNodes nodes most) else .ok ()
        | none => .ok ()

def validateAll (limit : Option Int) : List Expr → Except PyException Unit
  | [] => .ok ()
  | child :: rest => (validateExpr limit child).bind fun _ => validateAll limit rest

end

namespace Expr

def apply (op : Operator) (children : List Expr) (window : Option Int) : Except PyException Expr :=
  let expr : Expr := { op := some op, field := none, window, children }
  (validateExpr none expr).map fun _ => expr

/-- `validate_expr` accepts the tree. -/
def Valid (expr : Expr) : Prop := validateExpr none expr = .ok ()

mutual

/-- No operator node carries a field. -/
def Clean : Expr → Prop
  | ⟨op, field, _, children⟩ => (op.isSome → field = none) ∧ AllClean children

def AllClean : List Expr → Prop
  | [] => True
  | child :: rest => child.Clean ∧ AllClean rest

end

private theorem allClean_iff (children : List Expr) :
    AllClean children ↔ ∀ child ∈ children, child.Clean := by
  induction children with
  | nil => simp [AllClean]
  | cons child rest ih => simp [AllClean, ih]

theorem clean_iff (expr : Expr) :
    expr.Clean ↔ (expr.op.isSome → expr.field = none) ∧ ∀ child ∈ expr.children, child.Clean := by
  obtain ⟨op, field, window, children⟩ := expr
  rw [Clean, allClean_iff]

/-! ### What `validate_expr` accepts -/

private theorem validateAll_ok_iff (children : List Expr) :
    validateAll none children = .ok () ↔ ∀ child ∈ children, child.Valid := by
  induction children with
  | nil => simp [validateAll]
  | cons child rest ih =>
    rw [validateAll, List.forall_mem_cons, Valid, ← ih]
    cases validateExpr none child with
    | error raised => simp [Except.bind]
    | ok done => simp [Except.bind]

theorem valid_leaf_iff (field : Option Field) (window : Option Int) (children : List Expr) :
    Valid ⟨none, field, window, children⟩ ↔
      field.isSome ∧ window = none ∧ children = [] := by
  cases field <;> cases window <;> cases children <;> simp [Valid, validateExpr]

def Suits (op : Operator) : Option Int → Prop
  | none => op.windowed = false
  | some window => op.windowed = true ∧ InRange window

theorem valid_node_iff (op : Operator) (field : Option Field) (window : Option Int)
    (children : List Expr) :
    Valid ⟨some op, field, window, children⟩ ↔
      children.length = op.arity ∧ Suits op window ∧ ∀ child ∈ children, child.Valid := by
  rw [← validateAll_ok_iff, Valid, validateExpr]
  by_cases sameArity : children.length = op.arity
  · cases window with
    | none =>
      cases isWindowed : op.windowed <;> cases checked : validateAll none children <;>
        simp [sameArity, Suits, isWindowed, not_inRange_zero, Except.bind]
    | some window =>
      by_cases range : InRange window <;>
        cases isWindowed : op.windowed <;> cases checked : validateAll none children <;>
        simp [sameArity, Suits, isWindowed, range, Except.bind]
  · simp [sameArity]

theorem Valid.child {expr child : Expr} (valid : expr.Valid) (member : child ∈ expr.children) :
    child.Valid := by
  obtain ⟨op, field, window, children⟩ := expr
  cases op with
  | none =>
    obtain ⟨_, _, rfl⟩ := (valid_leaf_iff field window children).mp valid
    cases member
  | some op => exact ((valid_node_iff op field window children).mp valid).2.2 child member

theorem valid_leaf (field : Field) : (leaf field).Valid :=
  (valid_leaf_iff _ _ _).mpr ⟨rfl, rfl, rfl⟩

theorem clean_leaf (field : Field) : (leaf field).Clean :=
  (clean_iff _).mpr ⟨by simp [leaf], by simp [leaf]⟩

/-- `apply` builds the node that it is told to, when that is well formed. -/
theorem apply_ok_iff (op : Operator) (children : List Expr) (window : Option Int) (expr : Expr) :
    apply op children window = .ok expr ↔
      expr = ⟨some op, none, window, children⟩ ∧ expr.Valid := by
  rw [apply]
  cases checked : validateExpr none ⟨some op, none, window, children⟩ with
  | error raised =>
    simp only [Except.map, reduceCtorEq, false_iff, not_and]
    rintro rfl valid
    rw [Valid, checked] at valid
    cases valid
  | ok done =>
    simp only [Except.map, Except.ok.injEq]
    constructor
    · rintro rfl
      exact ⟨rfl, checked⟩
    · rintro ⟨rfl, _⟩
      rfl

theorem clean_of_apply {op : Operator} {children : List Expr} {window : Option Int} {expr : Expr}
    (applied : apply op children window = .ok expr) (each : ∀ child ∈ children, child.Clean) :
    expr.Clean := by
  obtain ⟨rfl, _⟩ := (apply_ok_iff op children window expr).mp applied
  exact (clean_iff _).mpr ⟨fun _ => rfl, each⟩

end Expr

end Swarmind.AlphaMining.FactorDsl
