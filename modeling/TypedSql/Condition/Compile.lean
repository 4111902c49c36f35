import TypedSql.Value.Literal
import TypedSql.Parameter
import TypedSql.Condition.Basic

/-! Conditions as SQL text. With a collection of parameters at hand the values of comparisons and
ranges are bound, and their placeholders stand in the text; without one they are written as
literals. Raw values and the lists of memberships are written in both cases. A comparison whose
operand does not fit its operator stops the compilation, and what was bound before it stays
bound. -/
namespace TypedSql

/-- A comparison whose operand does not fit its operator. -/
structure MalformedComparison where
  field : String
  operator : Operator
  found : String
  deriving DecidableEq, Repr

def MalformedComparison.message (e : MalformedComparison) : String :=
  "malformed value for `" ++ e.field ++ "` " ++ e.operator.name ++ ": found " ++ e.found

/-- Writing SQL with or without a collection of parameters, which outlives a failure. -/
abbrev Compile (σ : Type) := ExceptT MalformedComparison (StateM (Option σ))

/-- The text that stands for a value: itself if it is raw, the placeholder it is bound to if there
is a collection, and its literal otherwise. -/
def Value.emit {σ : Type} [Sink σ] (v : Value) : Compile σ String :=
  match v with
  | .raw sql => pure sql
  | v => do
    match ← getThe (Option σ) with
    | none => pure v.literal
    | some s =>
      let (p, s) := Sink.bind s v
      set (some s)
      pure p.text

/-- The members of a membership test. A single text is a list that is written already. -/
def Operand.memberList : Operand → String
  | .null => ""
  | .scalar (.text list) => list
  | .scalar v => v.literal
  | .pair a b => a.literal ++ "," ++ b.literal
  | .sequence vs => String.intercalate "," (vs.map Value.literal)
  | .raw sql => sql

namespace Comparison

def malformed (c : Comparison) : MalformedComparison := ⟨c.field, c.operator, c.operand.describe⟩

/-- The field behind the negation of its operator. -/
def subject (c : Comparison) : String := (if c.operator.isNegated then "NOT " else "") ++ c.field

/-- The test that a comparison with no value amounts to. Only equality and its opposite have
one. -/
def nullTest (c : Comparison) : String :=
  match c.operator with
  | .equals => c.field ++ " IS NULL"
  | .notEqualTo => "NOT " ++ c.field ++ " IS NULL"
  | _ => ""

variable {σ : Type} [Sink σ]

def compileRange (c : Comparison) : Compile σ String :=
  match c.operand.bounds? with
  | some (lower, upper) => do
    let low ← lower.emit
    let high ← upper.emit
    pure (c.subject ++ " BETWEEN " ++ low ++ " AND " ++ high)
  | none => throw c.malformed

def compileBinary (c : Comparison) : Compile σ String :=
  match c.operand with
  | .scalar v => do
    let right ← v.emit
    pure (c.subject ++ c.operator.symbol ++ right)
  | .raw sql => pure (c.subject ++ c.operator.symbol ++ sql)
  | _ => throw c.malformed

def compile (c : Comparison) : Compile σ String :=
  if c.operand.isNull then pure c.nullTest
  else
    match c.operator with
    | .between | .notBetween => c.compileRange
    | .isIn | .notIn => pure (c.subject ++ " IN (" ++ c.operand.memberList ++ ")")
    | _ => c.compileBinary

def compileRest : List Comparison → Compile σ String
  | [] => pure ""
  | c :: rest => do
    let text ← c.compile
    let tail ← compileRest rest
    pure (c.connective.separator ++ text ++ tail)

end Comparison

/-- A group has parentheses when it holds more than one comparison. -/
def Group.compile {σ : Type} [Sink σ] (g : Group) : Compile σ String := do
  let text ← g.first.compile
  let tail ← Comparison.compileRest g.rest
  pure (if g.rest.isEmpty then text else "(" ++ text ++ tail ++ ")")

namespace Condition

variable {σ : Type} [Sink σ]

def compileRest (connective : Connective) : List Group → Compile σ String
  | [] => pure ""
  | g :: rest => do
    let text ← g.compile
    let tail ← compileRest connective rest
    pure (connective.separator ++ text ++ tail)

def compileGroups (connective : Connective) : List Group → Compile σ String
  | [] => pure ""
  | g :: rest => do
    let text ← g.compile
    let tail ← compileRest connective rest
    pure (text ++ tail)

def compile (p : Condition) : Compile σ String := compileGroups p.connective p.groups

/-- The condition behind its keyword, or nothing for a condition without text. -/
def whereClause (p : Condition) : Compile σ String := do
  let text ← p.compile
  pure (if text = "" then "" else "WHERE " ++ text)

def toSql (p : Condition) : Except MalformedComparison String :=
  ((p.compile : Compile Bindings String).run none).1

end Condition

end TypedSql
