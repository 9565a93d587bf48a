import Swarmind.AlphaMining.FactorDsl.Serialisation

/-!
Owns what `parse_expr` makes of arbitrary data. `Accepted` says which data denote
a tree, and `BadWindowReached` which data make `int(window)` raise something
other than `ValueError`: the callers catch nothing else. A window counts only
where the parser gets to it, behind a known operator and accepted children.
-/

namespace Swarmind.AlphaMining.FactorDsl

open Swarmind.Library

def valueErrors : List String :=
  ["ValueError", "JSONDecodeError", "UnicodeError", "UnicodeDecodeError", "UnicodeEncodeError",
    "UnicodeTranslateError"]

def isValueError (raised : PyException) : Bool := valueErrors.contains raised.typeName

def NamesField (field : PyValue) : Prop := ∃ known : Field, field.text = known.value

def NamesOperator (op : Option PyValue) (known : Operator) : Prop :=
  (op.getD (.str "")).text = known.value

/-- Number of items of `children`. -/
def childCount (items : List (PyKey × PyValue)) : Nat := ((childItems items).getD []).length

mutual

/-- The data denote a tree. -/
def Accepted : PyValue → Prop
  | .dict items =>
    match member items "field" with
    | some field => NamesField field
    | none =>
      ChildrenAccepted items ∧
        ∃ op window, NamesOperator (member items "op") op ∧ childCount items = op.arity ∧
          parseWindow (member items "window") = .ok window ∧ Expr.Suits op window
  | _ => False

/-- `children` is missing, or a list of data that denote trees. -/
def ChildrenAccepted : List (PyKey × PyValue) → Prop
  | [] => True
  | (key, value) :: rest =>
    if key = .str "children" then
      match value with
      | .list children => AllAccepted children
      | .tuple children => AllAccepted children
      | _ => False
    else ChildrenAccepted rest

def AllAccepted : List PyValue → Prop
  | [] => True
  | child :: rest => Accepted child ∧ AllAccepted rest

end

/-- A window that is a container, an infinity or no number at all. -/
def BadWindow : Option PyValue → Prop
  | some (.list _) | some (.tuple _) | some (.dict _) | some (.object _) => True
  | some (.float digits) => digits = "inf" ∨ digits = "-inf"
  | _ => False

mutual

/-- The parser gets to a bad window before anything else stops it. -/
def BadWindowReached : PyValue → Prop
  | .dict items =>
    member items "field" = none ∧ (∃ op, NamesOperator (member items "op") op) ∧
      (BadWindowBelow items ∨
        (ChildrenAccepted items ∧ BadWindow (member items "window")))
  | _ => False

def BadWindowBelow : List (PyKey × PyValue) → Prop
  | [] => False
  | (key, value) :: rest =>
    if key = .str "children" then
      match value with
      | .list children => BadWindowAmong children
      | .tuple children => BadWindowAmong children
      | _ => False
    else BadWindowBelow rest

def BadWindowAmong : List PyValue → Prop
  | [] => False
  | child :: rest => BadWindowReached child ∨ (Accepted child ∧ BadWindowAmong rest)

end

private theorem childrenAccepted_iff (items : List (PyKey × PyValue)) :
    ChildrenAccepted items ↔
      ∃ children, childItems items = some children ∧ AllAccepted children := by
  induction items with
  | nil => simp [ChildrenAccepted, childItems, member, Dict.find, listItems, AllAccepted]
  | cons item rest ih =>
    obtain ⟨key, value⟩ := item
    rw [childItems_cons]
    by_cases found : key = .str "children"
    · rw [if_pos found]
      cases value <;> simp [ChildrenAccepted, listItems, found]
    · rw [if_neg found, ← ih]
      cases value <;> simp [ChildrenAccepted, found]

private theorem badWindowBelow_iff (items : List (PyKey × PyValue)) :
    BadWindowBelow items ↔
      ∃ children, childItems items = some children ∧ BadWindowAmong children := by
  induction items with
  | nil => simp [BadWindowBelow, childItems, member, Dict.find, listItems, BadWindowAmong]
  | cons item rest ih =>
    obtain ⟨key, value⟩ := item
    rw [childItems_cons]
    by_cases found : key = .str "children"
    · rw [if_pos found]
      cases value <;> simp [BadWindowBelow, listItems, found]
    · rw [if_neg found, ← ih]
      cases value <;> simp [BadWindowBelow, found]

/-! ### Single members -/

/-- What an outcome is: a value, a `ValueError` or another exception. -/
structure Classified {α : Type} (outcome : Except PyException α) (good bad : Prop) : Prop where
  returns : (∃ value, outcome = .ok value) ↔ good
  escapes : (∃ raised, outcome = .error raised ∧ ¬isValueError raised) ↔ bad

variable {good bad : Prop}

private theorem Classified.ok {α : Type} {value : α} (isGood : good) (notBad : ¬bad) :
    Classified (Except.ok value) good bad where
  returns := iff_of_true ⟨value, rfl⟩ isGood
  escapes := iff_of_false (by rintro ⟨raised, same, _⟩; cases same) notBad

private theorem Classified.valueError {α : Type} (message : String) (notGood : ¬good)
    (notBad : ¬bad) :
    Classified (Except.error (.valueError message) : Except PyException α) good bad where
  returns := iff_of_false (by rintro ⟨value, same⟩; cases same) notGood
  escapes := iff_of_false (by rintro ⟨raised, same, other⟩; cases same; exact other rfl) notBad

private theorem Classified.other {α : Type} {raised : PyException}
    (other : ¬isValueError raised) (notGood : ¬good) (isBad : bad) :
    Classified (Except.error raised : Except PyException α) good bad where
  returns := iff_of_false (by rintro ⟨value, same⟩; cases same) notGood
  escapes := iff_of_true ⟨raised, rfl, other⟩ isBad

private theorem Classified.bind {α β : Type} {first : Except PyException α}
    {next : α → Except PyException β} {good bad nextGood nextBad : Prop}
    (one : Classified first good bad)
    (two : ∀ value, first = .ok value → Classified (next value) nextGood nextBad) :
    Classified (first.bind next) (good ∧ nextGood) (bad ∨ (good ∧ nextBad)) := by
  cases outcome : first with
  | ok value =>
    obtain ⟨returns, escapes⟩ := two value outcome
    have isGood : good := one.returns.mp ⟨value, outcome⟩
    have notBad : ¬bad := fun isBad => by
      obtain ⟨raised, same, _⟩ := one.escapes.mpr isBad
      cases outcome.symm.trans same
    exact ⟨by simpa [Except.bind, isGood] using returns,
      by simpa [Except.bind, isGood, notBad] using escapes⟩
  | error raised =>
    have notGood : ¬good := fun isGood => by
      obtain ⟨value, same⟩ := one.returns.mpr isGood
      cases outcome.symm.trans same
    have escapes := one.escapes
    rw [outcome] at escapes
    exact ⟨by simp [Except.bind, notGood], by simpa [Except.bind, notGood] using escapes⟩

private theorem Classified.congr {α : Type} {outcome : Except PyException α}
    {good bad good' bad' : Prop}
    (classified : Classified outcome good bad) (sameGood : good ↔ good') (sameBad : bad ↔ bad') :
    Classified outcome good' bad' :=
  ⟨classified.returns.trans sameGood, classified.escapes.trans sameBad⟩

private theorem Field.ofValue_ok {text : String} {field : Field}
    (known : Field.ofValue text = .ok field) :
    text = field.value := by
  rw [Field.ofValue] at known
  split at known
  · rename_i found lookup
    obtain rfl := Except.ok.inj known
    exact (by simpa using List.find?_some lookup : found.value = text).symm
  · cases known

private theorem Operator.ofValue_ok {text : String} {op : Operator}
    (known : Operator.ofValue text = .ok op) : text = op.value := by
  rw [Operator.ofValue] at known
  split at known
  · rename_i found lookup
    obtain rfl := Except.ok.inj known
    exact (by simpa using List.find?_some lookup : found.value = text).symm
  · cases known

/-- A value that names no field is a `ValueError`, whatever it is. -/
theorem parseField_classified (field : PyValue) :
    Classified (parseField field) (NamesField field) False := by
  rw [parseField]
  cases outcome : Field.ofValue field.text with
  | ok known => exact .ok ⟨known, Field.ofValue_ok outcome⟩ not_false
  | error raised =>
    refine .valueError _ ?_ not_false
    rintro ⟨known, same⟩
    rw [same, Field.ofValue_value] at outcome
    cases outcome

theorem parseOperator_eq_ok_iff (op : Option PyValue) (known : Operator) :
    parseOperator op = .ok known ↔ NamesOperator op known := by
  rw [parseOperator, NamesOperator]
  constructor
  · intro parsed
    cases outcome : Operator.ofValue (op.getD (.str "")).text with
    | ok found =>
      rw [outcome] at parsed
      obtain rfl := Except.ok.inj parsed
      exact Operator.ofValue_ok outcome
    | error raised =>
      rw [outcome] at parsed
      cases parsed
  · intro same
    rw [same, Operator.ofValue_value]

private theorem parseOperator_classified (op : Option PyValue) :
    Classified (parseOperator op) (∃ known, NamesOperator op known) False := by
  cases outcome : parseOperator op with
  | ok known => exact .ok ⟨known, (parseOperator_eq_ok_iff op known).mp outcome⟩ not_false
  | error raised =>
    have unknown : ¬∃ known, NamesOperator op known := by
      rintro ⟨known, names⟩
      rw [(parseOperator_eq_ok_iff op known).mpr names] at outcome
      cases outcome
    rw [parseOperator] at outcome
    split at outcome
    · cases outcome
    · cases outcome
      exact .valueError _ unknown not_false

private theorem intOfText_classified (text : String) :
    Classified (intOfText text) (∃ value, intOfText text = .ok value) False := by
  cases outcome : intOfText text with
  | ok value => exact .ok ⟨value, rfl⟩ not_false
  | error raised =>
    have notGood : ¬∃ value, (Except.error raised : Except PyException Int) = .ok value := by
      rintro ⟨value, same⟩
      cases same
    rw [intOfText] at outcome
    split at outcome
    · cases outcome
      exact .valueError _ notGood not_false
    · split at outcome
      · cases outcome
        exact .valueError _ notGood not_false
      · cases outcome

private theorem typeError_escapes (message : String) : ¬isValueError (.typeError message) := by
  have unlisted : isValueError (.typeError message) = false := rfl
  rw [unlisted]
  decide

private theorem overflowError_escapes (message : String) : ¬isValueError
    (.overflowError message) := by
  have unlisted : isValueError (.overflowError message) = false := rfl
  rw [unlisted]
  decide

private theorem toInt_classified (value : PyValue) (present : value ≠ .none) :
    Classified value.toInt (∃ number, value.toInt = .ok number) (BadWindow (some value)) := by
  have notOk (raised : PyException) :
      ¬∃ number, (Except.error raised : Except PyException Int) = .ok number := by
    rintro ⟨number, same⟩
    cases same
  cases value with
  | none => exact absurd rfl present
  | bool flag => exact .ok ⟨_, rfl⟩ not_false
  | int number => exact .ok ⟨_, rfl⟩ not_false
  | float digits =>
    simp only [PyValue.toInt, BadWindow]
    by_cases isNan : digits = "nan"
    · rw [if_pos isNan]
      exact .valueError _ (notOk _) (by rw [isNan]; decide)
    · rw [if_neg isNan]
      by_cases infinite : digits = "inf" ∨ digits = "-inf"
      · rw [if_pos infinite]
        exact .other (overflowError_escapes _) (notOk _) infinite
      · rw [if_neg infinite]
        exact .ok ⟨_, rfl⟩ infinite
  | str text => exact intOfText_classified text
  | list items => exact .other (typeError_escapes _) (notOk _) trivial
  | tuple items => exact .other (typeError_escapes _) (notOk _) trivial
  | dict items => exact .other (typeError_escapes _) (notOk _) trivial
  | object typeName => exact .other (typeError_escapes _) (notOk _) trivial

private theorem Classified.map {α β : Type} {outcome : Except PyException α}
    (classified : Classified outcome good bad) (f : α → β) :
    Classified (outcome.map f) good bad := by
  obtain ⟨returns, escapes⟩ := classified
  cases outcome with
  | ok value => exact ⟨by simpa [Except.map] using returns, by simpa [Except.map] using escapes⟩
  | error raised =>
    exact ⟨by simpa [Except.map] using returns, by simpa [Except.map] using escapes⟩

private theorem parseWindow_classified (window : Option PyValue) :
    Classified (parseWindow window) (∃ parsed, parseWindow window = .ok parsed)
      (BadWindow window) := by
  have readInt (value : PyValue) (present : value ≠ .none)
      (reads : parseWindow (some value) = value.toInt.map some) :
      Classified (parseWindow (some value)) (∃ parsed, parseWindow (some value) = .ok parsed)
        (BadWindow (some value)) := by
    rw [reads]
    refine ((toInt_classified value present).map some).congr ?_ Iff.rfl
    cases value.toInt <;> simp [Except.map]
  cases window with
  | none => exact .ok ⟨_, rfl⟩ not_false
  | some value =>
    cases value with
    | none => exact .ok ⟨_, rfl⟩ not_false
    | bool _ | int _ | float _ | str _ | list _ | tuple _ | dict _ | object _ =>
      exact readInt _ (by simp) rfl

private theorem validateExpr_valueError {expr : Expr} {raised : PyException}
    (rejected : validateExpr none expr = .error raised) : isValueError raised := by
  induction expr using Expr.inductionOn generalizing raised with
  | node op field window children ih =>
    cases op with
    | none =>
      rw [validateExpr] at rejected
      split at rejected
      · cases rejected
        rfl
      · cases rejected
    | some op =>
      have below : ∀ {raised : PyException},
          validateAll none children = .error raised → isValueError raised := by
        clear rejected
        intro raised rejected
        induction children with
        | nil => cases rejected
        | cons child rest restHypothesis =>
          rw [validateAll] at rejected
          cases outcome : validateExpr none child with
          | ok done =>
            rw [outcome] at rejected
            exact restHypothesis
              (fun other member => ih other (by simp [member])) rejected
          | error first =>
            rw [outcome] at rejected
            obtain rfl := Except.error.inj rejected
            exact ih child (by simp) outcome
      rw [validateExpr] at rejected
      split at rejected
      · cases rejected
        rfl
      · split at rejected
        · cases rejected
          rfl
        · split at rejected
          · cases rejected
            rfl
          · cases outcome : validateAll none children with
            | ok done =>
              rw [outcome] at rejected
              cases rejected
            | error first =>
              rw [outcome] at rejected
              obtain rfl := Except.error.inj rejected
              exact below outcome

private theorem apply_classified (op : Operator) {children : List Expr} (window : Option Int)
    (valid : ∀ child ∈ children, child.Valid) :
    Classified (Expr.apply op children window)
      (children.length = op.arity ∧ Expr.Suits op window) False := by
  have fits : Expr.Valid ⟨some op, none, window, children⟩ ↔
      children.length = op.arity ∧ Expr.Suits op window := by
    rw [Expr.valid_node_iff]
    exact ⟨fun ⟨sameArity, suits, _⟩ => ⟨sameArity, suits⟩,
      fun ⟨sameArity, suits⟩ => ⟨sameArity, suits, valid⟩⟩
  rw [← fits, Expr.apply]
  cases outcome : validateExpr none ⟨some op, none, window, children⟩ with
  | ok done => exact .ok outcome not_false
  | error raised =>
    constructor
    · simp [Except.map, Expr.Valid, outcome]
    · simpa [Except.map] using validateExpr_valueError outcome

/-! ### Whatever is returned has been validated -/

private theorem valid_of_parseAll {items : List PyValue} {children : List Expr}
    (parsed : parseAll items = .ok children)
    (each : ∀ item ∈ items, ∀ expr, parseExpr item = .ok expr → expr.Valid ∧ expr.Clean) :
    children.length = items.length ∧ ∀ child ∈ children, child.Valid ∧ child.Clean := by
  induction items generalizing children with
  | nil =>
    obtain rfl := Except.ok.inj parsed
    simp
  | cons item rest ih =>
    rw [parseAll] at parsed
    obtain ⟨head, parsedHead, parsed⟩ := ok_of_bind parsed
    obtain ⟨later, parsedLater, rfl⟩ := ok_of_map parsed
    obtain ⟨sameLength, eachLater⟩ := ih parsedLater
      fun other member => each other (by simp [member])
    refine ⟨by rw [List.length_cons, List.length_cons, sameLength], ?_⟩
    intro child among
    rcases List.mem_cons.mp among with rfl | among
    · exact each item (by simp) child parsedHead
    · exact eachLater child among

/-- What is parsed is well formed and has no field on an operator node. -/
theorem valid_of_parseExpr (data : PyValue) :
    ∀ expr, parseExpr data = .ok expr → expr.Valid ∧ expr.Clean := by
  induction data using data_induction with
  | other data isOther =>
    intro expr parsed
    rw [parseExpr_other isOther] at parsed
    cases parsed
  | dict items ih =>
    intro expr parsed
    rw [parseExpr_dict] at parsed
    split at parsed
    · rename_i field _
      rw [parseField] at parsed
      split at parsed
      · obtain rfl := Except.ok.inj parsed
        exact ⟨Expr.valid_leaf _, Expr.clean_leaf _⟩
      · cases parsed
    · obtain ⟨op, _, parsed⟩ := ok_of_bind parsed
      obtain ⟨children, parsedChildren, parsed⟩ := ok_of_bind parsed
      obtain ⟨window, _, applied⟩ := ok_of_bind parsed
      rw [parseChildren_eq] at parsedChildren
      split at parsedChildren
      · rename_i data listed
        have each := (valid_of_parseAll parsedChildren (ih data listed)).2
        exact ⟨((Expr.apply_ok_iff op children window expr).mp applied).2,
          Expr.clean_of_apply applied fun child among => (each child among).2⟩
      · cases parsedChildren

/-! ### The whole parser -/

private theorem parseAll_classified {items : List PyValue}
    (each : ∀ item ∈ items,
      Classified (parseExpr item) (Accepted item) (BadWindowReached item)) :
    Classified (parseAll items) (AllAccepted items) (BadWindowAmong items) := by
  induction items with
  | nil => exact .ok trivial not_false
  | cons item rest ih =>
    have later := ih fun other member => each other (by simp [member])
    exact (each item (by simp)).bind fun head _ => later.map _

private theorem parseChildren_classified {items : List (PyKey × PyValue)}
    (each : ∀ children, childItems items = some children → ∀ child ∈ children,
      Classified (parseExpr child) (Accepted child) (BadWindowReached child)) :
    Classified (parseChildren items) (ChildrenAccepted items) (BadWindowBelow items) := by
  rw [parseChildren_eq, childrenAccepted_iff, badWindowBelow_iff]
  cases listed : childItems items with
  | none => exact .valueError _ (by simp) (by simp)
  | some children =>
    exact (parseAll_classified (each children listed)).congr (by simp) (by simp)

private theorem namesOperator_unique {op : Option PyValue} {known other : Operator}
    (names : NamesOperator op known) (namesOther : NamesOperator op other) : other = known := by
  have same : Operator.ofValue known.value = Operator.ofValue other.value := by
    rw [← names, ← namesOther]
  rw [Operator.ofValue_value, Operator.ofValue_value] at same
  exact (Except.ok.inj same).symm

private theorem parseNode_classified (op : Operator) (window : Option PyValue)
    {items : List (PyKey × PyValue)}
    (valid : ∀ children, childItems items = some children → ∀ child ∈ children,
      ∀ expr, parseExpr child = .ok expr → expr.Valid ∧ expr.Clean)
    (children : Classified (parseChildren items) (ChildrenAccepted items)
      (BadWindowBelow items)) :
    Classified
      ((parseChildren items).bind fun children =>
        (parseWindow window).bind fun window => Expr.apply op children window)
      (ChildrenAccepted items ∧
        ∃ parsed, childCount items = op.arity ∧ parseWindow window = .ok parsed ∧
          Expr.Suits op parsed)
      (BadWindowBelow items ∨ (ChildrenAccepted items ∧ BadWindow window)) := by
  refine children.bind fun trees parsedTrees => ?_
  have known : trees.length = childCount items ∧ ∀ tree ∈ trees, tree.Valid ∧ tree.Clean := by
    rw [parseChildren_eq] at parsedTrees
    rw [childCount]
    split at parsedTrees
    · rename_i data listed
      rw [listed]
      exact valid_of_parseAll parsedTrees (valid data listed)
    · cases parsedTrees
  have applied : ∀ parsed, parseWindow window = .ok parsed →
      Classified (Expr.apply op trees parsed)
        (∃ parsed, childCount items = op.arity ∧ parseWindow window = .ok parsed ∧
          Expr.Suits op parsed) False := by
    intro parsed parsedWindow
    exact (apply_classified op parsed fun tree among => (known.2 tree among).1).congr
      (by simp [known.1, parsedWindow]) Iff.rfl
  refine ((parseWindow_classified window).bind applied).congr (and_iff_right_of_imp ?_) (by simp)
  rintro ⟨parsed, _, same, _⟩
  exact ⟨parsed, same⟩

/-- The parser returns on accepted data, lets another exception through where it
gets to a bad window, and raises `ValueError` on all other data. -/
theorem parseExpr_classified (data : PyValue) :
    Classified (parseExpr data) (Accepted data) (BadWindowReached data) := by
  induction data using data_induction with
  | other data isOther =>
    rw [parseExpr_other isOther]
    cases data with
    | dict items => exact absurd rfl (isOther items)
    | none | bool _ | int _ | float _ | str _ | list _ | tuple _ | object _ =>
      exact .valueError _ (by simp [Accepted]) (by simp [BadWindowReached])
  | dict items ih =>
    rw [parseExpr_dict, Accepted, BadWindowReached]
    cases found : member items "field" with
    | some field => exact (parseField_classified field).congr Iff.rfl (by simp)
    | none =>
      have children := parseChildren_classified ih
      cases outcome : parseOperator (member items "op") with
      | error raised =>
        have unknown := parseOperator_classified (member items "op")
        rw [outcome] at unknown
        have nameless : ¬∃ op, NamesOperator (member items "op") op := fun named => by
          obtain ⟨value, same⟩ := unknown.returns.mpr named
          cases same
        have isValue : isValueError raised := by
          by_contra other
          exact unknown.escapes.mp ⟨raised, rfl, other⟩
        refine ⟨iff_of_false (by rintro ⟨value, same⟩; cases same) ?_,
          iff_of_false ?_ fun ⟨_, named, _⟩ => nameless named⟩
        · rintro ⟨_, op, window, names, _⟩
          exact nameless ⟨op, names⟩
        · rintro ⟨other, same, escapes⟩
          obtain rfl := Except.error.inj same
          exact escapes isValue
      | ok op =>
        have names := (parseOperator_eq_ok_iff _ _).mp outcome
        refine (parseNode_classified op (member items "window")
          (fun _ _ child _ => valid_of_parseExpr child)
          children).congr ?_ ?_
        · refine and_congr_right fun _ => ⟨?_, ?_⟩
          · rintro ⟨window, fits⟩
            exact ⟨op, window, names, fits⟩
          · rintro ⟨other, window, namesOther, fits⟩
            obtain rfl := namesOperator_unique names namesOther
            exact ⟨window, fits⟩
        · exact ⟨fun bad => ⟨rfl, ⟨op, names⟩, bad⟩, fun ⟨_, _, bad⟩ => bad⟩

/-- The parser returns a validated tree or raises `ValueError`. -/
def Contained (data : PyValue) : Prop :=
  (∃ expr, parseExpr data = .ok expr ∧ expr.Valid) ∨
    ∃ raised, parseExpr data = .error raised ∧ isValueError raised

private theorem contained_iff_not_escapes (data : PyValue) :
    Contained data ↔ ¬∃ raised, parseExpr data = .error raised ∧ ¬isValueError raised := by
  rw [Contained]
  cases outcome : parseExpr data with
  | ok expr => simp [(valid_of_parseExpr data expr outcome).1]
  | error raised => simp

/-- Of what `json.loads` can return, exactly the data whose reached windows are
numbers, texts or missing keep the parser within its contract. -/
theorem contained_iff (json : Json) : Contained json.loads ↔ ¬BadWindowReached json.loads := by
  rw [contained_iff_not_escapes, (parseExpr_classified json.loads).escapes]

/-- `ts_mean(close, [20])`. -/
def listWindow : Json :=
  .object [("op", .str "ts_mean"), ("window", .array [.int 20]),
    ("children", .array [.object [("field", .str "close")]])]

private theorem badWindowReached_listWindow : BadWindowReached listWindow.loads := by
  have loaded : listWindow.loads =
      .dict [(.str "op", .str "ts_mean"), (.str "window", .list [.int 20]),
        (.str "children", .list [.dict [(.str "field", .str "close")]])] := rfl
  have leafAccepted : Accepted (.dict [(.str "field", .str "close")]) := ⟨.close, rfl⟩
  rw [loaded]
  exact ⟨rfl, ⟨.tsMean, rfl⟩, .inr ⟨⟨leafAccepted, trivial⟩, trivial⟩⟩

/-- A list as window raises `TypeError`. -/
theorem not_contained : ¬∀ json : Json, Contained json.loads := by
  intro contained
  exact (contained_iff_not_escapes listWindow.loads).mp (contained listWindow)
    ((parseExpr_classified listWindow.loads).escapes.mpr badWindowReached_listWindow)

end Swarmind.AlphaMining.FactorDsl
