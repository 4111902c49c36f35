import TypedSql.Value.Basic

/-! Conditions on rows: groups of comparisons, joined inside a group by the connective of each
comparison and between groups by one connective of the whole. -/
namespace TypedSql

inductive Connective where
  | and
  | or
  deriving DecidableEq, Repr

def Connective.separator : Connective → String
  | .and => " AND "
  | .or => " OR "

inductive Operator where
  | equals
  | notEqualTo
  | like
  | notLike
  | greaterThan
  | greaterOrEquals
  | lessThan
  | lessOrEquals
  | isIn
  | notIn
  | between
  | notBetween
  deriving DecidableEq, Repr

namespace Operator

def name : Operator → String
  | .equals => "Equals"
  | .notEqualTo => "NotEqualTo"
  | .like => "Like"
  | .notLike => "NotLike"
  | .greaterThan => "GreaterThan"
  | .greaterOrEquals => "GreaterOrEquals"
  | .lessThan => "LessThan"
  | .lessOrEquals => "LessOrEquals"
  | .isIn => "In"
  | .notIn => "NotIn"
  | .between => "Between"
  | .notBetween => "NotBetween"

def all : List Operator :=
  [.equals, .notEqualTo, .like, .notLike, .greaterThan, .greaterOrEquals, .lessThan, .lessOrEquals,
    .isIn, .notIn, .between, .notBetween]

def ofName? (name : String) : Option Operator := all.find? (·.name == name)

/-- The operators that are written with a leading `NOT`. -/
def isNegated : Operator → Bool
  | .notLike | .notIn | .notBetween => true
  | _ => false

def symbol : Operator → String
  | .equals => " = "
  | .notEqualTo => " <> "
  | .like | .notLike => " LIKE "
  | .greaterThan => " > "
  | .greaterOrEquals => " >= "
  | .lessThan => " < "
  | .lessOrEquals => " <= "
  | .isIn | .notIn => " IN "
  | .between | .notBetween => " BETWEEN "

end Operator

/-- The right side of a comparison. -/
inductive Operand where
  | null
  | scalar (v : Value)
  | pair (lower upper : Value)
  | sequence (vs : List Value)
  | raw (sql : String)
  deriving DecidableEq, Repr

namespace Operand

/-- No value: the null operand, and a scalar that is null. -/
def isNull : Operand → Bool
  | .null => true
  | .scalar v => v.isNull
  | _ => false

def isRaw : Operand → Bool
  | .raw _ => true
  | .scalar v => v.isRaw
  | _ => false

/-- The two bounds of a range: a pair, or a sequence of two. -/
def bounds? : Operand → Option (Value × Value)
  | .pair lower upper => some (lower, upper)
  | .sequence [lower, upper] => some (lower, upper)
  | _ => none

def describe : Operand → String
  | .null => "null"
  | .scalar v => "scalar " ++ v.kind
  | .pair _ _ => "pair"
  | .sequence vs => "sequence of " ++ toString vs.length
  | .raw _ => "raw literal"

end Operand

/-- A test on one field. Its connective joins it to the comparison before it and has no meaning for
the first one of a group. -/
structure Comparison where
  field : String
  operator : Operator
  operand : Operand
  connective : Connective
  deriving DecidableEq, Repr

namespace Comparison

def new (field : String) (operator : Operator) (operand : Operand) : Comparison :=
  ⟨field, operator, operand, .and⟩

def scalar (field : String) (operator : Operator) (v : Value) : Comparison :=
  new field operator (.scalar v)

def isNull (field : String) : Comparison := new field .equals .null

def isNotNull (field : String) : Comparison := new field .notEqualTo .null

def isIn (field : String) (vs : List Value) : Comparison := new field .isIn (.sequence vs)

def notIn (field : String) (vs : List Value) : Comparison := new field .notIn (.sequence vs)

/-- Membership in a list that is written already, such as `1,2,3`. -/
def inList (field : String) (list : String) : Comparison := new field .isIn (.scalar (.text list))

def between (field : String) (lower upper : Value) : Comparison :=
  new field .between (.pair lower upper)

def notBetween (field : String) (lower upper : Value) : Comparison :=
  new field .notBetween (.pair lower upper)

def withConnective (c : Comparison) (connective : Connective) : Comparison :=
  { c with connective }

end Comparison

/-- Comparisons in a row, at least one. -/
structure Group where
  first : Comparison
  rest : List Comparison
  deriving DecidableEq, Repr

namespace Group

def new (first : Comparison) : Group := ⟨first, []⟩

def push (g : Group) (c : Comparison) : Group := { g with rest := g.rest ++ [c] }

def and (g : Group) (c : Comparison) : Group := g.push (c.withConnective .and)

def or (g : Group) (c : Comparison) : Group := g.push (c.withConnective .or)

def comparisons (g : Group) : List Comparison := g.first :: g.rest

end Group

structure Condition where
  groups : List Group
  connective : Connective
  deriving DecidableEq, Repr

namespace Condition

def empty : Condition := ⟨[], .and⟩

def isEmpty (p : Condition) : Bool := p.groups.isEmpty

def push (p : Condition) (g : Group) : Condition := { p with groups := p.groups ++ [g] }

def comparisons (p : Condition) : List Comparison := p.groups.flatMap Group.comparisons

end Condition

end TypedSql
