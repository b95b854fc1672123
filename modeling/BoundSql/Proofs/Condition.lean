import BoundSql.Expr.Compile

/-!
# Conditions and what they say

The conditions of SQL as syntax (`Condition`), how they are written (`Condition.tokens`) and the
truth value they have in a row, in the three-valued logic of SQL (`Condition.eval`); and, apart
from any SQL, what an expression means as a condition on a row (`Node.meaning?`).  How values are
compared and what matches a pattern is left open (`Interpretation`).
-/

namespace BoundSql

/-! ### Truth values -/

/-- The truth values of SQL. -/
inductive Truth where
  | holds
  | unknown
  | fails
  deriving DecidableEq, Repr

namespace Truth

def ofBool (b : Bool) : Truth := if b then holds else fails

def not : Truth → Truth
  | holds => fails
  | unknown => unknown
  | fails => holds

def and : Truth → Truth → Truth
  | fails, _ => fails
  | _, fails => fails
  | holds, holds => holds
  | _, _ => unknown

def or : Truth → Truth → Truth
  | holds, _ => holds
  | _, holds => holds
  | fails, fails => fails
  | _, _ => unknown

/-- The disjunction of truth values; of none it fails. -/
def any : List Truth → Truth
  | [] => fails
  | t :: ts => t.or (any ts)

def negatedIf (negated : Bool) (t : Truth) : Truth := if negated then t.not else t

@[simp] theorem not_not (t : Truth) : t.not.not = t := by cases t <;> rfl

@[simp] theorem not_ofBool (b : Bool) : (ofBool b).not = ofBool (!b) := by cases b <;> rfl

@[simp] theorem negatedIf_false (t : Truth) : t.negatedIf false = t := rfl

@[simp] theorem negatedIf_true (t : Truth) : t.negatedIf true = t.not := rfl

@[simp] theorem map_negatedIf_false (t : Option Truth) : t.map (negatedIf false) = t := by
  cases t <;> rfl

/-- A negation that is cancelled or not. -/
theorem map_negatedIf_not (negated : Bool) (t : Option Truth) :
    (t.map not).map (negatedIf negated) = t.map (negatedIf (!negated)) := by
  cases t with
  | none => rfl
  | some t => cases negated <;> simp

/-- A disjunction holds where one of its parts does, and fails where all of them do. -/
theorem any_eq (ts : List Truth) :
    any ts =
      if holds ∈ ts then holds else if unknown ∈ ts then unknown else fails := by
  induction ts with
  | nil => rfl
  | cons t ts ih =>
    rw [any, ih]
    cases t with
    | holds => simp [or]
    | unknown =>
      by_cases hh : holds ∈ ts
      · simp [or, hh]
      · by_cases hu : unknown ∈ ts <;> simp [or, hh, hu]
    | fails =>
      by_cases hh : holds ∈ ts
      · simp [or, hh]
      · by_cases hu : unknown ∈ ts <;> simp [or, hh, hu]

end Truth

/-! ### Conditions -/

/-- The operators that compare two values. -/
abbrev Comparator := { op : BinaryOp // op.isComparison = true }

/-- What the comparisons of values and the matching of patterns say. -/
structure Interpretation where
  compare : Comparator → Value → Value → Truth
  like : Value → Value → Truth

/-- A condition of SQL.  Columns are given by their text, values by the names of their markers. -/
inductive Condition where
  | both (p q : Condition)
  | either (p q : Condition)
  | negation (p : Condition)
  | compare (column : String) (op : Comparator) (marker : String)
  | isNull (negated : Bool) (column : String)
  | like (negated : Bool) (column marker : String)
  | among (negated : Bool) (column first : String) (rest : List String)
  | fact (b : Bool)

namespace Condition

/-- The text and the markers that a condition is written with. -/
def pieces : Condition → List Token
  | both p q => .text "(" :: p.pieces ++ .text " AND " :: q.pieces ++ [.text ")"]
  | either p q => .text "(" :: p.pieces ++ .text " OR " :: q.pieces ++ [.text ")"]
  | negation p => .text "NOT (" :: p.pieces ++ [.text ")"]
  | compare column op marker => [.text (column ++ " " ++ op.val.sql ++ " "), .param marker]
  | isNull false column => [.text (column ++ " IS NULL")]
  | isNull true column => [.text (column ++ " IS NOT NULL")]
  | like negated column marker =>
    [.text (column ++ if negated then " NOT LIKE " else " LIKE "), .param marker]
  | among negated column first rest =>
    .text (column ++ if negated then " NOT IN " else " IN ") :: .text "(" :: .param first ::
      rest.flatMap (fun marker => [.text ",", .param marker]) ++ [.text ")"]
  | fact true => [.text "1=1"]
  | fact false => [.text "1=0"]

/-- A condition as a part of a statement. -/
def tokens (p : Condition) : List Token := Token.compact p.pieces

/-- Whether a value is among others: it is where one of them equals it, and it is not where all of
them differ. -/
def isAmong (I : Interpretation) (v : Value) (ws : List Value) : Truth :=
  let answers := ws.map (I.compare ⟨.eq, rfl⟩ v)
  if .holds ∈ answers then .holds else if .unknown ∈ answers then .unknown else .fails

/-- Being among values is the disjunction of being equal to them. -/
theorem isAmong_eq_any (I : Interpretation) (v : Value) (ws : List Value) :
    isAmong I v ws = .any (ws.map (I.compare ⟨.eq, rfl⟩ v)) :=
  (Truth.any_eq _).symm

/-- The truth value of a condition in a row, where markers stand for values. -/
def eval (I : Interpretation) (row value : String → Value) : Condition → Truth
  | both p q => (p.eval I row value).and (q.eval I row value)
  | either p q => (p.eval I row value).or (q.eval I row value)
  | negation p => (p.eval I row value).not
  | compare column op marker => I.compare op (row column) (value marker)
  | isNull negated column => (Truth.ofBool (row column).isNull).negatedIf negated
  | like negated column marker => (I.like (row column) (value marker)).negatedIf negated
  | among negated column first rest =>
    (isAmong I (row column) ((first :: rest).map value)).negatedIf negated
  | fact b => .ofBool b

end Condition

/-! ### Meaning of expressions -/

namespace Node

variable (I : Interpretation) (d : Dialect) (row : ColumnRef × Option String → Value)

/-- What a comparison of a column with a value means; equal to NULL is being NULL. -/
def comparisonMeaning? (op : Comparator) (lhs rhs : Node) : Option Truth :=
  match lhs.column?, rhs.evaluate with
  | some c, .ok v =>
    if v.isNull then
      match op.val with
      | .eq => some (.ofBool (row c).isNull)
      | .ne => some (.ofBool !(row c).isNull)
      | _ => none
    else some (I.compare op (row c) v)
  | _, _ => none

/-- What a call means: a column matches the pattern of a text, or equals one of the items of a
list. -/
def callMeaning? (method : Method) (receiver arg : Node) : Option Truth :=
  match receiver.column?, arg.evaluate with
  | some c, .ok (.scalar (.varchar s)) => some (I.like (row c) (d.pattern method s).value)
  | some _, _ => none
  | none, _ =>
    match method, arg.column?, receiver.evaluate with
    | .contains, some c, .ok (.list items _) =>
      some (.any (items.map (I.compare ⟨.eq, rfl⟩ (row c))))
    | _, _, _ => none

/-- What an expression means as a condition on a row, if it means one. -/
def meaning? : Node → Option Truth
  | binary .and lhs rhs =>
    match lhs.meaning?, rhs.meaning? with
    | some l, some r => some (l.and r)
    | _, _ => none
  | binary .or lhs rhs =>
    match lhs.meaning?, rhs.meaning? with
    | some l, some r => some (l.or r)
    | _, _ => none
  | binary op lhs rhs =>
    if h : op.isComparison = true then comparisonMeaning? I row ⟨op, h⟩ lhs rhs else none
  | call method receiver [arg] => callMeaning? I d row method receiver arg
  | convert n => n.meaning?
  | unary .not n => n.meaning?.map Truth.not
  | _ => none

end Node

end BoundSql
