import Swarmind.AlphaMining.FactorDsl.Syntax
import Swarmind.Library.PrefixCode
import Mathlib.Data.Char

/-!
Owns the two texts of a tree, `to_formula` and `abstract_gene`, and what each of
them determines. Both are written terms: the heads are the field names and the
operator names with their parenthesis, the tails the window and the closing
parenthesis. `shape` is the tree as such a term; it forgets exactly the fields
that operator nodes carry.
-/

namespace Swarmind.AlphaMining.FactorDsl

open Swarmind.Library

/-- `", ".join(..)` followed by the window, in parentheses after the name. -/
def callText (op : Operator) (arguments : List String) (window : Option String) : String :=
  let inner := ", ".intercalate arguments
  let inner := match window with
    | some window => inner ++ ", " ++ window
    | none => inner
  op.value ++ "(" ++ inner ++ ")"

/-- `expr.field.value` of a leaf. Without a field it raises `AttributeError`,
which no accepted leaf does; the text is then empty. -/
def leafText (field : Option Field) : String :=
  match field with
  | some field => field.value
  | none => ""

mutual

def toFormula : Expr → String
  | ⟨none, field, _, _⟩ => leafText field
  | ⟨some op, _, window, children⟩ => callText op (formulas children) (window.map toString)

def formulas : List Expr → List String
  | [] => []
  | child :: rest => toFormula child :: formulas rest

end

mutual

def abstractGene : Expr → String
  | ⟨none, field, _, _⟩ => leafText field
  | ⟨some op, _, _, children⟩ =>
    callText op (genes children) (if op.windowed then some "t" else none)

def genes : List Expr → List String
  | [] => []
  | child :: rest => abstractGene child :: genes rest

end

namespace Expr

mutual

/-- The tree without the fields of its operator nodes. -/
def strip : Expr → Expr
  | ⟨none, field, window, children⟩ => ⟨none, field, window, stripAll children⟩
  | ⟨some op, _, window, children⟩ => ⟨some op, none, window, stripAll children⟩

def stripAll : List Expr → List Expr
  | [] => []
  | child :: rest => child.strip :: stripAll rest

end

mutual

/-- The tree with every window set to the smallest one. -/
def eraseWindows : Expr → Expr
  | ⟨op, field, window, children⟩ =>
    ⟨op, field, window.map fun _ => minWindow, eraseAllWindows children⟩

def eraseAllWindows : List Expr → List Expr
  | [] => []
  | child :: rest => child.eraseWindows :: eraseAllWindows rest

end

theorem stripAll_eq_map (children : List Expr) : stripAll children = children.map strip := by
  induction children with
  | nil => rfl
  | cons child rest ih => rw [stripAll, ih, List.map_cons]

theorem eraseAllWindows_eq_map (children : List Expr) :
    eraseAllWindows children = children.map eraseWindows := by
  induction children with
  | nil => rfl
  | cons child rest ih =>
    rw [eraseAllWindows, ih, List.map_cons]

/-- Only a field on an operator node is lost. -/
theorem strip_eq_self_iff (expr : Expr) : expr.strip = expr ↔ expr.Clean := by
  induction expr using inductionOn with
  | node op field window children ih =>
    have each : children.map strip = children ↔ ∀ child ∈ children, child.Clean := by
      rw [← forall₂_congr ih]
      simpa using List.map_inj_left (f := strip) (g := id) (l := children)
    rw [clean_iff, ← each]
    cases op with
    | none => simp [strip, stripAll_eq_map]
    | some op => simp [strip, stripAll_eq_map, eq_comm (a := none)]

end Expr

/-! ### Trees as terms -/

/-- What the head of a written tree shows. -/
inductive Symbol where
  | field (field : Field)
  | op (op : Operator)
deriving DecidableEq

namespace Symbol

def head : Symbol → List Char
  | .field name => name.value.toList
  | .op name => name.value.toList ++ ['(']

def arity : Symbol → Nat
  | .field _ => 0
  | .op name => name.arity

def all : List Symbol :=
  [.open, .high, .low, .close, .volume, .returns].map .field ++
    [.rank, .tsRank, .tsMean, .tsStd, .tsMax, .tsMin, .delta, .zscore, .scale, .sign, .abs, .log,
      .add, .sub, .mul, .div, .tsCorr].map .op

private theorem mem_all (symbol : Symbol) : symbol ∈ all := by
  cases symbol with
  | field name => cases name <;> decide
  | op name => cases name <;> decide

private theorem prefixCode_head : PrefixCode head := by
  have apart : ∀ left ∈ all, ∀ right ∈ all, head left <+: head right → left = right := by
    decide +kernel
  exact PrefixCode.of_prefix fun left right =>
    apart left (mem_all left) right (mem_all right)

end Symbol

namespace Expr

mutual

/-- The tree as a term. A leaf without a field has no term of its own. -/
def shape : Expr → Term Symbol (Option Int)
  | ⟨none, field, window, children⟩ =>
    .node (.field (field.getD .open)) window (shapes children)
  | ⟨some op, _, window, children⟩ => .node (.op op) window (shapes children)

def shapes : List Expr → List (Term Symbol (Option Int))
  | [] => []
  | child :: rest => child.shape :: shapes rest

end

private theorem shapes_eq_map (children : List Expr) : shapes children = children.map shape := by
  induction children with
  | nil => rfl
  | cons child rest ih => rw [shapes, ih, List.map_cons]

mutual

/-- The clean tree that a term shows. -/
def ofShape : Term Symbol (Option Int) → Expr
  | .node (.field field) window children => ⟨none, some field, window, ofShapes children⟩
  | .node (.op op) window children => ⟨some op, none, window, ofShapes children⟩

def ofShapes : List (Term Symbol (Option Int)) → List Expr
  | [] => []
  | child :: rest => ofShape child :: ofShapes rest

end

private theorem ofShapes_shapes {children : List Expr}
    (each : ∀ child ∈ children, ofShape child.shape = child.strip) :
    ofShapes (shapes children) = stripAll children := by
  induction children with
  | nil => rfl
  | cons child rest ih =>
    rw [shapes, ofShapes, stripAll, each child (by simp),
      ih fun other member => each other (by simp [member])]

private theorem ofShape_shape {expr : Expr} (valid : expr.Valid) :
    ofShape expr.shape = expr.strip := by
  induction expr using inductionOn with
  | node op field window children ih =>
    have below := ofShapes_shapes fun child member =>
      ih child member (valid.child member)
    cases op with
    | none =>
      obtain ⟨named, _, _⟩ := (valid_leaf_iff field window children).mp valid
      obtain ⟨name, rfl⟩ := Option.isSome_iff_exists.mp named
      rw [shape, ofShape, strip, below, Option.getD_some]
    | some op => rw [shape, ofShape, strip, below]

theorem Valid.eraseWindows {expr : Expr} (valid : expr.Valid) : expr.eraseWindows.Valid := by
  induction expr using inductionOn with
  | node op field window children ih =>
    rw [Expr.eraseWindows, eraseAllWindows_eq_map]
    cases op with
    | none =>
      obtain ⟨named, rfl, rfl⟩ := (valid_leaf_iff field window children).mp valid
      exact (valid_leaf_iff _ _ _).mpr ⟨named, rfl, rfl⟩
    | some op =>
      obtain ⟨sameArity, suits, each⟩ := (valid_node_iff op field window children).mp valid
      apply (valid_node_iff _ _ _ _).mpr
      refine ⟨by rw [List.length_map, sameArity], ?_, ?_⟩
      · cases window with
        | none => exact suits
        | some window => exact ⟨suits.1, inRange_minWindow⟩
      · intro child member
        obtain ⟨original, among, rfl⟩ := List.mem_map.mp member
        exact ih original among (each original among)

end Expr

/-! ### The two texts as written terms -/

private theorem toList_callText (op : Operator) (arguments : List String) (window : Option String) :
    (callText op arguments window).toList =
      (Symbol.op op).head ++ (", ".toList.intercalate (arguments.map String.toList) ++
        match window with
        | some window => ", ".toList ++ (window.toList ++ [')'])
        | none => [')']) := by
  cases window <;> simp [callText, Symbol.head, String.toList_intercalate]

private theorem toList_toString_window {window : Int} (nonneg : 0 ≤ window) :
    (toString window).toList = Nat.toDigits 10 window.toNat := by
  obtain ⟨natural, rfl⟩ := Int.eq_ofNat_of_zero_le nonneg
  exact Nat.toList_repr

private theorem close_not_mem_toDigits (natural : Nat) : ')' ∉ Nat.toDigits 10 natural := by
  intro member
  have digit := Nat.isDigit_of_mem_toDigits (by decide) (by decide) member
  simp at digit

private theorem toDigits_injective {left right : Nat}
    (same : Nat.toDigits 10 left = Nat.toDigits 10 right) : left = right := by
  have values := congrArg (fun digits => Nat.ofDigitChars 10 digits 0) same
  simpa [Nat.ofDigitChars_ten_toDigits] using values

def formulaTail : Symbol → Option Int → List Char
  | .field _, _ => []
  | .op _, none => [')']
  | .op _, some window => ", ".toList ++ ((toString window).toList ++ [')'])

/-- The window that an accepted node carries. -/
def formulaAdmits : Symbol → Option Int → Prop
  | .field _, window => window = none
  | .op op, window => Expr.Suits op window

private theorem formulaTail_cancel (symbol : Symbol) (left right : Option Int) (s t : List Char)
    (leftAdmitted : formulaAdmits symbol left) (rightAdmitted : formulaAdmits symbol right)
    (same : formulaTail symbol left ++ s = formulaTail symbol right ++ t) : left = right := by
  cases symbol with
  | field name => exact leftAdmitted.trans rightAdmitted.symm
  | op op =>
    cases left with
    | none =>
      cases right with
      | none => rfl
      | some right => exact absurd (leftAdmitted.symm.trans rightAdmitted.1) (by decide)
    | some left =>
      cases right with
      | none => exact absurd (rightAdmitted.symm.trans leftAdmitted.1) (by decide)
      | some right =>
        have leftNonneg := leftAdmitted.2.nonneg
        have rightNonneg := rightAdmitted.2.nonneg
        simp only [formulaTail, List.append_assoc, toList_toString_window leftNonneg,
          toList_toString_window rightNonneg] at same
        have digits := (stopped_cancel (close_not_mem_toDigits _)
          (close_not_mem_toDigits _) (List.append_cancel_left same)).1
        have sameNat := toDigits_injective digits
        congr 1
        omega

/-- How `to_formula` writes a tree. -/
def formulaLayout : Layout Symbol (Option Int) Char where
  head := Symbol.head
  arity := Symbol.arity
  separator := ", ".toList
  tail := formulaTail
  admits := formulaAdmits
  heads := Symbol.prefixCode_head
  tails := formulaTail_cancel

def geneTail : Symbol → List Char
  | .field _ => []
  | .op op => if op.windowed then ", ".toList ++ ("t".toList ++ [')']) else [')']

/-- The window of a tree whose windows are fixed. -/
def geneAdmits : Symbol → Option Int → Prop
  | .field _, window => window = none
  | .op op, window => window = if op.windowed then some minWindow else none

/-- How `abstract_gene` writes a tree. -/
def geneLayout : Layout Symbol (Option Int) Char where
  head := Symbol.head
  arity := Symbol.arity
  separator := ", ".toList
  tail := fun symbol _ => geneTail symbol
  admits := geneAdmits
  heads := Symbol.prefixCode_head
  tails := by
    intro symbol left right s t leftAdmitted rightAdmitted _
    cases symbol with
    | field name => exact leftAdmitted.trans rightAdmitted.symm
    | op op => exact leftAdmitted.trans rightAdmitted.symm

namespace Expr

private theorem formulas_eq_map (children : List Expr) :
    formulas children = children.map toFormula := by
  induction children with
  | nil => rfl
  | cons child rest ih => rw [formulas, ih, List.map_cons]

private theorem genes_eq_map (children : List Expr) :
    genes children = children.map abstractGene := by
  induction children with
  | nil => rfl
  | cons child rest ih => rw [genes, ih, List.map_cons]

private theorem renderAll_eq_map (layout : Layout Symbol (Option Int) Char)
    (terms : List (Term Symbol (Option Int))) :
    Term.renderAll layout terms = terms.map (Term.render layout) := by
  induction terms with
  | nil => rfl
  | cons term rest ih =>
    rw [Term.renderAll, ih, List.map_cons]

private theorem allWellFormed_iff (layout : Layout Symbol (Option Int) Char)
    (terms : List (Term Symbol (Option Int))) :
    Term.AllWellFormed layout terms ↔ ∀ term ∈ terms, term.WellFormed layout := by
  induction terms with
  | nil => simp [Term.AllWellFormed]
  | cons term rest ih => simp [Term.AllWellFormed, ih]

variable {expr : Expr}

private theorem wellFormed_shape {layout : Layout Symbol (Option Int) Char}
    (accepted : Expr → Prop) (arity : layout.arity = Symbol.arity)
    (child : ∀ expr, accepted expr → ∀ child ∈ expr.children, accepted child)
    (leaf : ∀ field window children, accepted ⟨none, field, window, children⟩ →
      children = [] ∧ layout.admits (.field (field.getD .open)) window)
    (node : ∀ op field window children, accepted ⟨some op, field, window, children⟩ →
      children.length = op.arity ∧ layout.admits (.op op) window) (fits : accepted expr) :
      expr.shape.WellFormed layout := by
  induction expr using inductionOn with
  | node op field window children ih =>
    have below : Term.AllWellFormed layout (shapes children) := by
      rw [allWellFormed_iff, shapes_eq_map]
      intro term member
      obtain ⟨original, among, rfl⟩ := List.mem_map.mp member
      exact ih original among (child _ fits original among)
    cases op with
    | none =>
      obtain ⟨rfl, admitted⟩ := leaf field window children fits
      rw [shape, Term.WellFormed, arity]
      exact ⟨rfl, admitted, below⟩
    | some op =>
      obtain ⟨sameArity, admitted⟩ := node op field window children fits
      rw [shape, Term.WellFormed, arity, shapes_eq_map, List.length_map, ← shapes_eq_map]
      exact ⟨sameArity, admitted, below⟩

private theorem Valid.wellFormed_shape (valid : expr.Valid) :
    expr.shape.WellFormed formulaLayout := by
  refine Expr.wellFormed_shape Valid rfl (fun _ valid _ => valid.child) ?_ ?_ valid
  · intro field window children valid
    obtain ⟨_, unwindowed, childless⟩ := (valid_leaf_iff field window children).mp valid
    exact ⟨childless, unwindowed⟩
  · intro op field window children valid
    obtain ⟨sameArity, suits, _⟩ := (valid_node_iff op field window children).mp valid
    exact ⟨sameArity, suits⟩

private theorem eraseWindows_idem (expr : Expr) :
    expr.eraseWindows.eraseWindows = expr.eraseWindows := by
  induction expr using inductionOn with
  | node op field window children ih =>
    simp only [eraseWindows, eraseAllWindows_eq_map, List.map_map, Option.map_map, mk.injEq,
      true_and]
    exact ⟨rfl, List.map_congr_left ih⟩

private theorem Valid.wellFormed_eraseWindows (valid : expr.Valid) :
    expr.eraseWindows.shape.WellFormed geneLayout := by
  refine Expr.wellFormed_shape (fun expr => expr.Valid ∧ expr.eraseWindows = expr)
    rfl ?_ ?_ ?_ ⟨valid.eraseWindows, eraseWindows_idem expr⟩
  · rintro expr ⟨valid, fixed⟩ child member
    obtain ⟨op, field, window, children⟩ := expr
    simp only [Expr.eraseWindows, eraseAllWindows_eq_map, mk.injEq, true_and] at fixed
    exact ⟨valid.child member, by
      simpa using List.map_inj_left.mp (fixed.2.trans (List.map_id _).symm) child member⟩
  · rintro field window children ⟨valid, _⟩
    obtain ⟨_, unwindowed, childless⟩ := (valid_leaf_iff field window children).mp valid
    exact ⟨childless, unwindowed⟩
  · rintro op field window children ⟨valid, fixed⟩
    obtain ⟨sameArity, suits, _⟩ := (valid_node_iff op field window children).mp valid
    simp only [Expr.eraseWindows, mk.injEq, true_and] at fixed
    refine ⟨sameArity, ?_⟩
    cases window with
    | none => exact (if_neg (by rw [suits]; decide)).symm
    | some window => exact fixed.1.symm.trans (if_pos suits.1).symm

private theorem toList_toFormula (valid : expr.Valid) :
    (toFormula expr).toList = expr.shape.render formulaLayout := by
  induction expr using inductionOn with
  | node op field window children ih =>
    have below : (formulas children).map String.toList =
        Term.renderAll formulaLayout (shapes children) := by
      rw [formulas_eq_map, renderAll_eq_map, shapes_eq_map, List.map_map, List.map_map]
      exact List.map_congr_left fun child member =>
        ih child member (valid.child member)
    cases op with
    | none =>
      obtain ⟨named, rfl, rfl⟩ := (valid_leaf_iff field window children).mp valid
      obtain ⟨name, rfl⟩ := Option.isSome_iff_exists.mp named
      simp [toFormula, leafText, shape, shapes, Term.render, Term.renderAll, formulaLayout,
        Symbol.head, formulaTail]
    | some op =>
      rw [toFormula, toList_callText, below, shape, Term.render]
      cases window <;> rfl

private theorem toList_abstractGene (valid : expr.Valid) :
    (abstractGene expr).toList = expr.eraseWindows.shape.render geneLayout := by
  induction expr using inductionOn with
  | node op field window children ih =>
    have below : (genes children).map String.toList =
        Term.renderAll geneLayout (shapes (eraseAllWindows children)) := by
      rw [genes_eq_map, renderAll_eq_map, shapes_eq_map, eraseAllWindows_eq_map, List.map_map,
        List.map_map, List.map_map]
      exact List.map_congr_left fun child member =>
        ih child member (valid.child member)
    cases op with
    | none =>
      obtain ⟨named, rfl, rfl⟩ := (valid_leaf_iff field window children).mp valid
      obtain ⟨name, rfl⟩ := Option.isSome_iff_exists.mp named
      simp [abstractGene, leafText, eraseWindows, eraseAllWindows, shape, shapes, Term.render,
        Term.renderAll, geneLayout, Symbol.head, geneTail]
    | some op =>
      rw [abstractGene, toList_callText, below, eraseWindows, shape, Term.render]
      cases windowed : op.windowed <;> simp [geneLayout, geneTail, windowed]

/-! ### What the texts determine -/

private theorem toFormula_strip (expr : Expr) : toFormula expr.strip = toFormula expr := by
  induction expr using inductionOn with
  | node op field window children ih =>
    have below : formulas (stripAll children) = formulas children := by
      rw [formulas_eq_map, formulas_eq_map, stripAll_eq_map, List.map_map]
      exact List.map_congr_left ih
    cases op with
    | none => rw [strip, toFormula, toFormula]
    | some op => rw [strip, toFormula, toFormula, below]

/-- The gene does not show the field of an operator node. -/
theorem abstractGene_strip (expr : Expr) : abstractGene expr.strip = abstractGene expr := by
  induction expr using inductionOn with
  | node op field window children ih =>
    have below : genes (stripAll children) = genes children := by
      rw [genes_eq_map, genes_eq_map, stripAll_eq_map, List.map_map]
      exact List.map_congr_left ih
    cases op with
    | none => rw [strip, abstractGene, abstractGene]
    | some op => rw [strip, abstractGene, abstractGene, below]

theorem abstractGene_eraseWindows (expr : Expr) :
    abstractGene expr.eraseWindows = abstractGene expr := by
  induction expr using inductionOn with
  | node op field window children ih =>
    have below : genes (eraseAllWindows children) = genes children := by
      rw [genes_eq_map, genes_eq_map, eraseAllWindows_eq_map, List.map_map]
      exact List.map_congr_left ih
    cases op with
    | none => rw [eraseWindows, abstractGene, abstractGene]
    | some op => rw [eraseWindows, abstractGene, abstractGene, below]

/-- The formula of an accepted tree determines it up to stray fields. -/
theorem toFormula_eq_iff {left right : Expr} (leftValid : left.Valid) (rightValid : right.Valid) :
    toFormula left = toFormula right ↔ left.strip = right.strip := by
  constructor
  · intro same
    have written : left.shape.render formulaLayout = right.shape.render formulaLayout := by
      rw [← toList_toFormula leftValid, ← toList_toFormula rightValid, same]
    have sameShape := Term.render_injective formulaLayout leftValid.wellFormed_shape
      rightValid.wellFormed_shape written
    rw [← ofShape_shape leftValid, ← ofShape_shape rightValid, sameShape]
  · intro same
    rw [← toFormula_strip left, same, toFormula_strip]

/-- The gene of an accepted tree determines it up to windows and stray fields. -/
theorem abstractGene_eq_iff {left right : Expr} (leftValid : left.Valid)
    (rightValid : right.Valid) :
    abstractGene left = abstractGene right ↔
      left.eraseWindows.strip = right.eraseWindows.strip := by
  constructor
  · intro same
    have written : left.eraseWindows.shape.render geneLayout =
        right.eraseWindows.shape.render geneLayout := by
      rw [← toList_abstractGene leftValid, ← toList_abstractGene rightValid, same]
    have sameShape := Term.render_injective geneLayout leftValid.wellFormed_eraseWindows
      rightValid.wellFormed_eraseWindows written
    rw [← ofShape_shape leftValid.eraseWindows, ← ofShape_shape rightValid.eraseWindows,
      sameShape]
  · intro same
    rw [← abstractGene_eraseWindows left, ← abstractGene_strip, same, abstractGene_strip,
      abstractGene_eraseWindows]

end Expr

end Swarmind.AlphaMining.FactorDsl
