import Swarmind.AlphaMining.FactorDsl.Formula
import Swarmind.Library.PyText

/-!
Owns `to_dict` and `parse_expr`. Reading back the dictionary of an accepted tree
gives the tree without the fields of its operator nodes, so that the texts and
the dictionary are faithful exactly on clean trees.
-/

namespace Swarmind.AlphaMining.FactorDsl

open Swarmind.Library

mutual

def toDict : Expr → PyValue
  | ⟨none, field, _, _⟩ => .record [("field", .str (leafText field))]
  | ⟨some op, _, window, children⟩ =>
    .record ([("op", .str op.value), ("children", .list (toDicts children))] ++
      match window with
      | some window => [("window", .int window)]
      | none => [])

def toDicts : List Expr → List PyValue
  | [] => []
  | child :: rest => toDict child :: toDicts rest

end

def Field.ofValue (text : String) : Except PyException Field :=
  match [Field.open, .high, .low, .close, .volume, .returns].find? (·.value = text) with
  | some field => .ok field
  | none => .error (.valueError s!"{pyRepr text} is not a valid Field")

def Operator.ofValue (text : String) : Except PyException Operator :=
  match [Operator.rank, .tsRank, .tsMean, .tsStd, .tsMax, .tsMin, .delta, .zscore, .scale, .sign,
      .abs, .log, .add, .sub, .mul, .div, .tsCorr].find? (·.value = text) with
  | some op => .ok op
  | none => .error (.valueError s!"{pyRepr text} is not a valid Operator")

theorem Field.ofValue_value (field : Field) : Field.ofValue field.value = .ok field := by
  cases field <;> rfl

theorem Operator.ofValue_value (op : Operator) : Operator.ofValue op.value = .ok op := by
  cases op <;> rfl

def notAMapping (data : PyValue) : PyException :=
  .valueError (s!"WHAT: AST recibido como {data.typeName}, se esperaba un mapping. " ++
    "WHY: el generador JSON debe producir objetos. WHERE: parse_expr.")

def unknownField (field : PyValue) (exc : PyException) : PyException :=
  .valueError (s!"WHAT: campo desconocido '{field.text}'. WHY: registro cerrado de Fields. " ++
    s!"WHERE: parse_expr ({exc.message}).")

def unknownOperator (op : PyValue) (exc : PyException) : PyException :=
  .valueError (s!"WHAT: operador desconocido '{op.text}'. WHY: registro cerrado de Operator. " ++
    s!"WHERE: parse_expr ({exc.message}).")

def childrenNotAList : PyException :=
  .valueError ("WHAT: 'children' no es una lista. WHY: aridad del registro DSL. " ++
    "WHERE: parse_expr.")

/-- `data.get(name)`. -/
def member (items : List (PyKey × PyValue)) (name : String) : Option PyValue :=
  Dict.find (.str name) items

def parseField (field : PyValue) : Except PyException Expr :=
  match Field.ofValue field.text with
  | .ok known => .ok (.leaf known)
  | .error exc => .error (unknownField field exc)

/-- `Operator(str(data.get("op", "")))`. -/
def parseOperator (op : Option PyValue) : Except PyException Operator :=
  match Operator.ofValue ((op.getD (.str "")).text) with
  | .ok known => .ok known
  | .error exc => .error (unknownOperator (op.getD .none) exc)

def parseWindow : Option PyValue → Except PyException (Option Int)
  | none | some .none => .ok none
  | some window => window.toInt.map some

mutual

def parseExpr : PyValue → Except PyException Expr
  | .dict items =>
    match member items "field" with
    | some field => parseField field
    | none =>
      (parseOperator (member items "op")).bind fun op =>
        (parseChildren items).bind fun children =>
          (parseWindow (member items "window")).bind fun window =>
            Expr.apply op children window
  | data => .error (notAMapping data)

/-- The parsed items of `data.get("children", [])`, found along the members. -/
def parseChildren : List (PyKey × PyValue) → Except PyException (List Expr)
  | [] => .ok []
  | (key, value) :: rest =>
    if key = .str "children" then
      match value with
      | .list children => parseAll children
      | .tuple children => parseAll children
      | _ => .error childrenNotAList
    else parseChildren rest

def parseAll : List PyValue → Except PyException (List Expr)
  | [] => .ok []
  | child :: rest =>
    (parseExpr child).bind fun head => (parseAll rest).map fun later => head :: later

end

/-! ### The children of a dictionary -/

def listItems : PyValue → Option (List PyValue)
  | .list items => some items
  | .tuple items => some items
  | _ => none

/-- The items of `data.get("children", [])`. -/
def childItems (items : List (PyKey × PyValue)) : Option (List PyValue) :=
  listItems ((member items "children").getD (.list []))

theorem childItems_cons (key : PyKey) (value : PyValue) (rest : List (PyKey × PyValue)) :
    childItems ((key, value) :: rest) =
      if key = .str "children" then listItems value else childItems rest := by
  rw [childItems, childItems, member, member, Dict.find]
  split <;> rfl

theorem parseChildren_eq (items : List (PyKey × PyValue)) :
    parseChildren items =
      match childItems items with
      | some children => parseAll children
      | none => .error childrenNotAList := by
  induction items with
  | nil => rfl
  | cons item rest ih =>
    obtain ⟨key, value⟩ := item
    rw [childItems_cons]
    by_cases found : key = .str "children"
    · rw [if_pos found]
      cases value <;> simp [parseChildren, listItems, found]
    · rw [if_neg found, ← ih]
      cases value <;> simp [parseChildren, found]

private theorem sizeOf_of_listItems {value : PyValue} {items : List PyValue}
    (listed : listItems value = some items) {child : PyValue} (among : child ∈ items) :
    sizeOf child < sizeOf value := by
  have below := List.sizeOf_lt_of_mem among
  cases value <;> simp only [listItems, reduceCtorEq, Option.some.injEq] at listed
  · rw [listed, PyValue.list.sizeOf_spec]
    omega
  · rw [listed, PyValue.tuple.sizeOf_spec]
    omega

private theorem sizeOf_of_childItems {items : List (PyKey × PyValue)} {children : List PyValue}
    (listed : childItems items = some children) {child : PyValue} (among : child ∈ children) :
    sizeOf child < sizeOf (PyValue.dict items) := by
  rw [PyValue.dict.sizeOf_spec]
  induction items with
  | nil =>
    obtain rfl := Option.some.inj listed
    cases among
  | cons item rest ih =>
    obtain ⟨key, value⟩ := item
    rw [childItems_cons] at listed
    rw [List.cons.sizeOf_spec, Prod.mk.sizeOf_spec]
    split at listed
    · have below := sizeOf_of_listItems listed among
      omega
    · have below := ih listed
      omega

theorem data_induction {motive : PyValue → Prop}
    (dict : ∀ items, (∀ children, childItems items = some children →
      ∀ child ∈ children, motive child) → motive (.dict items))
    (other : ∀ data, (∀ items, data ≠ .dict items) → motive data) : ∀ data, motive data := by
  intro data
  induction size : sizeOf data using Nat.strongRecOn generalizing data with
  | ind size ih =>
    subst size
    by_cases isDict : ∃ items, data = .dict items
    · obtain ⟨items, rfl⟩ := isDict
      exact dict items fun children listed child among =>
        ih _ (sizeOf_of_childItems listed among) child rfl
    · exact other data fun items same => isDict ⟨items, same⟩

theorem parseExpr_dict (items : List (PyKey × PyValue)) :
    parseExpr (.dict items) =
      match member items "field" with
      | some field => parseField field
      | none =>
        (parseOperator (member items "op")).bind fun op =>
          (parseChildren items).bind fun children =>
            (parseWindow (member items "window")).bind fun window =>
              Expr.apply op children window := by
  rw [parseExpr]

theorem parseExpr_other {data : PyValue} (other : ∀ items, data ≠ .dict items) :
    parseExpr data = .error (notAMapping data) := by
  cases data with
  | dict items => exact absurd rfl (other items)
  | none | bool _ | int _ | float _ | str _ | list _ | tuple _ | object _ => rw [parseExpr]; simp

/-! ### The dictionary of an accepted tree -/

private theorem parseField_value (field : Field) : parseField (.str field.value) = .ok
    (.leaf field) := by
  rw [parseField, PyValue.text, Field.ofValue_value]

private theorem parseOperator_value (op : Operator) : parseOperator
    (some (.str op.value)) = .ok op := by
  rw [parseOperator, Option.getD_some, PyValue.text, Operator.ofValue_value]

namespace Expr

private theorem parseAll_toDicts {children : List Expr}
    (each : ∀ child ∈ children, parseExpr (toDict child) = .ok child.strip) :
    parseAll (toDicts children) = .ok (stripAll children) := by
  induction children with
  | nil => rfl
  | cons child rest ih =>
    rw [toDicts, parseAll, each child (by simp),
      ih fun other among => each other (by simp [among])]
    rfl

theorem Valid.strip {expr : Expr} (valid : expr.Valid) : expr.strip.Valid := by
  induction expr using inductionOn with
  | node op field window children ih =>
    have each : ∀ child ∈ stripAll children, child.Valid := by
      rw [stripAll_eq_map]
      intro child among
      obtain ⟨original, member, rfl⟩ := List.mem_map.mp among
      exact ih original member (valid.child member)
    cases op with
    | none =>
      obtain ⟨named, unwindowed, rfl⟩ := (valid_leaf_iff field window children).mp valid
      exact (valid_leaf_iff _ _ _).mpr ⟨named, unwindowed, rfl⟩
    | some op =>
      obtain ⟨sameArity, suits, _⟩ := (valid_node_iff op field window children).mp valid
      refine (valid_node_iff _ _ _ _).mpr ⟨?_, suits, each⟩
      rw [stripAll_eq_map, List.length_map, sameArity]

/-- Reading back an accepted tree loses its stray fields and nothing else. -/
theorem parseExpr_toDict {expr : Expr} (valid : expr.Valid) :
    parseExpr (toDict expr) = .ok expr.strip := by
  induction expr using inductionOn with
  | node op field window children ih =>
    cases op with
    | none =>
      obtain ⟨named, rfl, rfl⟩ := (valid_leaf_iff field window children).mp valid
      obtain ⟨name, rfl⟩ := Option.isSome_iff_exists.mp named
      exact parseField_value name
    | some op =>
      have below := parseAll_toDicts fun child among =>
        ih child among (valid.child among)
      have applied : apply op (stripAll children) window =
          .ok ⟨some op, none, window, stripAll children⟩ :=
        (apply_ok_iff _ _ _ _).mpr ⟨rfl, valid.strip⟩
      cases window with
      | none =>
        simp only [toDict, PyValue.record, List.append_nil, List.map_cons, List.map_nil,
          parseExpr, parseChildren, member, Dict.find, PyKey.str.injEq, String.reduceEq,
          if_true, if_false, parseOperator_value, below, parseWindow, Except.bind, applied,
          strip]
      | some window =>
        simp only [toDict, PyValue.record, List.cons_append, List.nil_append, List.map_cons,
          List.map_nil, parseExpr, parseChildren, member, Dict.find, PyKey.str.injEq,
          String.reduceEq, if_true, if_false, parseOperator_value, below, parseWindow,
          PyValue.toInt, Except.map, Except.bind, applied, strip]

private theorem parseExpr_toDict_eq_iff {expr : Expr} (valid : expr.Valid) :
    parseExpr (toDict expr) = .ok expr ↔ expr.Clean := by
  rw [parseExpr_toDict valid, Except.ok.injEq, strip_eq_self_iff]

/-! ### Faithful pairs -/

/-- The texts and dictionaries of two trees tell them apart as they should. -/
structure Faithful (left right : Expr) : Prop where
  leftRead : parseExpr (toDict left) = .ok left
  rightRead : parseExpr (toDict right) = .ok right
  formula : toFormula left = toFormula right → left = right
  gene : abstractGene left = abstractGene right ↔ left.eraseWindows = right.eraseWindows

private theorem Clean.eraseWindows {expr : Expr} (clean : expr.Clean) :
    expr.eraseWindows.Clean := by
  induction expr using inductionOn with
  | node op field window children ih =>
    obtain ⟨fieldless, each⟩ := (clean_iff _).mp clean
    refine (clean_iff _).mpr ⟨fieldless, ?_⟩
    rw [Expr.eraseWindows, eraseAllWindows_eq_map]
    intro child among
    obtain ⟨original, member, rfl⟩ := List.mem_map.mp among
    exact ih original member (each original member)

/-- Accepted trees are faithful exactly when no operator node carries a field. -/
theorem faithful_iff_clean {left right : Expr} (leftValid : left.Valid)
    (rightValid : right.Valid) : Faithful left right ↔ left.Clean ∧ right.Clean := by
  constructor
  · intro faithful
    exact ⟨(parseExpr_toDict_eq_iff leftValid).mp faithful.leftRead,
      (parseExpr_toDict_eq_iff rightValid).mp faithful.rightRead⟩
  · rintro ⟨leftClean, rightClean⟩
    refine
      { leftRead := (parseExpr_toDict_eq_iff leftValid).mpr leftClean
        rightRead := (parseExpr_toDict_eq_iff rightValid).mpr rightClean
        formula := ?_
        gene := ?_ }
    · intro same
      have stripped := (toFormula_eq_iff leftValid rightValid).mp same
      rwa [(strip_eq_self_iff left).mpr leftClean, (strip_eq_self_iff right).mpr rightClean]
        at stripped
    · rw [abstractGene_eq_iff leftValid rightValid,
        (strip_eq_self_iff _).mpr leftClean.eraseWindows,
        (strip_eq_self_iff _).mpr rightClean.eraseWindows]

def rankClose : Expr :=
  { op := some .rank, field := none, window := none, children := [leaf .close] }

def meanOfRank : Expr :=
  { op := some .tsMean, field := none, window := some 20, children := [rankClose] }

/-- `rank(close)` and a moving average of it are a faithful pair. -/
theorem faithful_rankClose_meanOfRank : Faithful rankClose meanOfRank :=
  have rankValid : rankClose.Valid := rfl
  have meanValid : meanOfRank.Valid := rfl
  (faithful_iff_clean rankValid meanValid).mpr
    ⟨(strip_eq_self_iff rankClose).mp rfl, (strip_eq_self_iff meanOfRank).mp rfl⟩

/-- `rank(close)` whose operator node carries a field. -/
def rankWithField : Expr :=
  { op := some .rank, field := some .close, window := none, children := [leaf .close] }

/-- An accepted tree that its dictionary does not give back. -/
theorem not_faithful_of_valid :
    ¬∀ left right : Expr, left.Valid → right.Valid → Faithful left right := by
  intro faithful
  have valid : rankWithField.Valid := rfl
  have clean := (parseExpr_toDict_eq_iff valid).mp (faithful _ _ valid valid).leftRead
  exact absurd ((clean_iff rankWithField).mp clean).1 (by decide)

end Expr

end Swarmind.AlphaMining.FactorDsl
