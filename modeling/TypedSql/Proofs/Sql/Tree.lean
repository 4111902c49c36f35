import TypedSql.Proofs.Sql.Token

/-! The structure of SQL conditions. `OR` joins weakest, then come `AND` and `NOT`, and the tests
on single values bind strongest; parentheses are kept in the tree. A reader takes what it
understands from the front of the tokens and leaves the rest. -/
namespace TypedSql.Sql

inductive Constant where
  | null
  | number (n : Numeral)
  | text (s : String)
  | blob (bytes : List UInt8)
  deriving DecidableEq, Repr

inductive Term where
  | column (name : String)
  | constant (c : Constant)
  deriving DecidableEq, Repr

inductive Predicate where
  | isNull
  | relation (r : Relation)
  | like
  | isIn
  | between
  deriving DecidableEq, Repr

structure Test where
  subject : Term
  predicate : Predicate
  operands : List Term
  deriving DecidableEq, Repr

/-- A condition. The members of `all` and of `any` are joined by `AND` and by `OR`. -/
inductive Tree where
  | test (t : Test)
  | not (t : Tree)
  | all (ts : List Tree)
  | any (ts : List Tree)
  | group (t : Tree)
  deriving Repr

namespace Tree

/-- Conditions joined by `AND`; a single one stands for itself. -/
def ofAll : List Tree → Tree
  | [t] => t
  | ts => .all ts

/-- Conditions joined by `OR`; a single one stands for itself. -/
def ofAny : List Tree → Tree
  | [t] => t
  | ts => .any ts

/-- Runs of conditions that are joined by `AND`, with `OR` between the runs. -/
def ofRuns {α : Type} (tree : α → Tree) (runs : List (List α)) : Tree :=
  .ofAny (runs.map fun run => .ofAll (run.map tree))

end Tree

abbrev Reader (α : Type) := List Token → Option (α × List Token)

def Token.term? : Token → Option Term
  | .name s => some (.column s)
  | .keyword .null => some (.constant .null)
  | .number n => some (.constant (.number n))
  | .text s => some (.constant (.text s))
  | .blob bytes => some (.constant (.blob bytes))
  | _ => none

def term? : Reader Term
  | [] => none
  | t :: rest => t.term?.map (·, rest)

/-- The members of a list behind the first one, and the closing parenthesis. -/
def moreMembers? : Reader (List Term)
  | .closing :: rest => some ([], rest)
  | .comma :: t :: rest => do
    let member ← t.term?
    let (more, tail) ← moreMembers? rest
    some (member :: more, tail)
  | _ => none

/-- A list of members, which may be empty, and the closing parenthesis. -/
def members? : Reader (List Term)
  | .closing :: rest => some ([], rest)
  | ts => do
    let (member, rest) ← term? ts
    let (more, tail) ← moreMembers? rest
    some (member :: more, tail)

def predicate? : Reader (Predicate × List Term)
  | .keyword .is :: .keyword .null :: rest => some ((.isNull, []), rest)
  | .relation r :: ts => do
    let (right, rest) ← term? ts
    some ((.relation r, [right]), rest)
  | .keyword .like :: ts => do
    let (pattern, rest) ← term? ts
    some ((.like, [pattern]), rest)
  | .keyword .isIn :: .opening :: ts => do
    let (members, rest) ← members? ts
    some ((.isIn, members), rest)
  | .keyword .between :: ts => do
    let (lower, rest) ← term? ts
    match rest with
    | .keyword .and :: ts => do
      let (upper, rest) ← term? ts
      some ((.between, [lower, upper]), rest)
    | _ => none
  | _ => none

def test? : Reader Test := fun ts => do
  let (subject, rest) ← term? ts
  let ((predicate, operands), rest) ← predicate? rest
  some (⟨subject, predicate, operands⟩, rest)

/-- At most `count` items with a separator between each two. -/
def chain? (item : Reader Tree) (separator : Token) : Nat → Reader (List Tree)
  | 0, _ => none
  | count + 1, ts => do
    let (first, rest) ← item ts
    match rest with
    | [] => some ([first], [])
    | t :: tail =>
      if t = separator then
        let (more, rest) ← chain? item separator count tail
        some (first :: more, rest)
      else some ([first], rest)

/-- A test, or a condition between parentheses. -/
def primary? (condition : Reader Tree) : Reader Tree
  | .opening :: ts => do
    let (inner, rest) ← condition ts
    match rest with
    | .closing :: rest => some (.group inner, rest)
    | _ => none
  | ts => (test? ts).map fun (t, rest) => (.test t, rest)

def negation? (condition : Reader Tree) : Reader Tree
  | .keyword .not :: ts => (negation? condition ts).map fun (t, rest) => (.not t, rest)
  | ts => primary? condition ts

def conjunction? (condition : Reader Tree) : Reader Tree := fun ts =>
  (chain? (negation? condition) (.keyword .and) (ts.length + 1) ts).map fun (trees, rest) =>
    (.ofAll trees, rest)

def disjunction? (condition : Reader Tree) : Reader Tree := fun ts =>
  (chain? (conjunction? condition) (.keyword .or) (ts.length + 1) ts).map fun (trees, rest) =>
    (.ofAny trees, rest)

/-- A condition with parentheses nested at most to the given depth. -/
def condition? : Nat → Reader Tree
  | 0 => disjunction? fun _ => none
  | depth + 1 => disjunction? (condition? depth)

/-- The condition that a whole text is. Every parenthesis is a token, so the number of tokens is
depth enough. -/
def parse? (text : String) : Option Tree := do
  let ts ← tokens? text.toList
  match condition? ts.length ts with
  | some (tree, []) => some tree
  | _ => none

end TypedSql.Sql
