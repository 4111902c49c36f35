import TypedSql.Proofs.Sql.Tree
import TypedSql.Proofs.Text.Pieces

/-! Writing terms and tests as tokens, and what the readers make of them: each takes the tokens of
its own from the front, whatever allowed tokens follow. A chain is read back into its members when
no member can swallow the separator. -/
namespace TypedSql.Sql

/-- From the front of any tokens that may follow, the reader takes these and returns the value. -/
def Takes {α : Type} (reader : Reader α) (follows : List Token → Prop) (ts : List Token) (a : α) :
    Prop :=
  ∀ rest, follows rest → reader (ts ++ rest) = some (a, rest)

def Whatever (_ : List Token) : Prop := True

def Constant.token : Constant → Token
  | .null => .keyword .null
  | .number n => .number n
  | .text s => .text s
  | .blob bytes => .blob bytes

def Term.token : Term → Token
  | .column name => .name name
  | .constant c => c.token

/-- Members of a list, with commas between them. -/
def listed (ts : List Term) : List Token := [Token.comma].intercalate (ts.map fun t => [t.token])

def Predicate.tokens (operands : List Term) : Predicate → List Token
  | .isNull => [.keyword .is, .keyword .null]
  | .relation r => .relation r :: operands.map Term.token
  | .like => .keyword .like :: operands.map Term.token
  | .isIn => .keyword .isIn :: .opening :: (listed operands ++ [.closing])
  | .between =>
    .keyword .between :: [Token.keyword .and].intercalate (operands.map fun t => [t.token])

/-- The number of operands is one that the predicate can have. -/
def Predicate.Fits (operands : List Term) : Predicate → Prop
  | .isNull => operands.length = 0
  | .relation _ | .like => operands.length = 1
  | .isIn => True
  | .between => operands.length = 2

def Test.tokens (t : Test) : List Token := t.subject.token :: t.predicate.tokens t.operands

/-- Runs of conditions, with `AND` inside and `OR` between them. -/
def joinRuns {α : Type} (tokens : α → List Token) (runs : List (List α)) : List Token :=
  [Token.keyword .or].intercalate
    (runs.map fun run => [Token.keyword .and].intercalate (run.map tokens))

section Runs

variable {α : Type} (tokens : α → List Token) (a b : α) (run : List α) (runs : List (List α))

theorem joinRuns_and : joinRuns tokens ((a :: b :: run) :: runs) =
    tokens a ++ .keyword .and :: joinRuns tokens ((b :: run) :: runs) := by
  simp only [joinRuns, List.map_cons, Text.intercalate_cons, List.flatMap_cons, List.append_assoc,
    List.nil_append, List.cons_append]

theorem joinRuns_or : joinRuns tokens ([a] :: run :: runs) =
    tokens a ++ .keyword .or :: joinRuns tokens (run :: runs) := by
  simp only [joinRuns, List.map_cons, List.map_nil, List.intercalate_singleton,
    List.intercalate_cons_cons, List.append_assoc, List.singleton_append]

end Runs

@[simp] theorem term?_token (t : Term) : t.token.term? = some t := by
  rcases t with name | (_ | n | s | bytes) <;> rfl

/-- A term is no punctuation. -/
theorem token_ne (t : Term) : t.token ≠ .opening ∧ t.token ≠ .closing ∧
    t.token ≠ .keyword .not := by
  rcases t with name | (_ | n | s | bytes) <;> exact ⟨nofun, nofun, nofun⟩

theorem moreMembers?_eq (ts : List Term) (rest : List Token) :
    moreMembers? (ts.flatMap (fun t => [.comma, t.token]) ++ .closing :: rest) = some (ts, rest) := by
  induction ts with
  | nil => rfl
  | cons t ts ih => simp [moreMembers?, ih]

theorem listed_cons (t : Term) (ts : List Term) :
    listed (t :: ts) = t.token :: ts.flatMap fun t => [.comma, t.token] := by
  rw [listed, List.map_cons, Text.intercalate_cons, List.flatMap_map]
  rfl

theorem takes_members (ts : List Term) : Takes members? Whatever (listed ts ++ [.closing]) ts := by
  intro rest _
  cases ts with
  | nil => rfl
  | cons t ts =>
    rw [listed_cons, List.append_assoc, List.cons_append]
    unfold members?
    split
    case h_1 same => exact absurd (List.cons.inj same).1 (token_ne t).2.1
    case h_2 => simp [term?, moreMembers?_eq]

theorem takes_test (t : Test) (fits : t.predicate.Fits t.operands) :
    Takes test? Whatever t.tokens t := by
  intro rest _
  obtain ⟨subject, predicate, operands⟩ := t
  have asked : predicate? (predicate.tokens operands ++ rest) = some ((predicate, operands), rest) := by
    cases predicate with
    | isNull =>
      obtain rfl := List.length_eq_zero_iff.mp fits
      rfl
    | relation r =>
      obtain ⟨right, rfl⟩ := List.length_eq_one_iff.mp fits
      simp [Predicate.tokens, predicate?, term?]
    | like =>
      obtain ⟨pattern, rfl⟩ := List.length_eq_one_iff.mp fits
      simp [Predicate.tokens, predicate?, term?]
    | isIn =>
      have members := takes_members operands rest trivial
      simp only [Predicate.tokens, List.cons_append, predicate?, members]
      rfl
    | between =>
      match operands, fits with
      | [lower, upper], _ => simp [Predicate.tokens, predicate?, term?]
  simp [test?, Test.tokens, term?, asked]

section Chains

variable {α : Type} {tokens : α → List Token} {tree : α → Tree} {inner follows : List Token → Prop}
  {item condition : Reader Tree}

/-- A chain of items, none of which reads on over the separator. -/
theorem takes_chain {separator : Token} {as : List α} {count : Nat} (nonempty : as ≠ [])
    (le : as.length ≤ count) (takes : ∀ a ∈ as, Takes item inner (tokens a) (tree a))
    (separates : ∀ rest, inner (separator :: rest))
    (ends : ∀ rest, follows rest → inner rest ∧ rest.head? ≠ some separator) :
    Takes (chain? item separator count) follows ([separator].intercalate (as.map tokens))
      (as.map tree) := by
  intro rest after
  induction as generalizing count with
  | nil => exact absurd rfl nonempty
  | cons a as ih =>
    obtain _ | count := count
    · cases le
    · have first := takes a List.mem_cons_self
      cases as with
      | nil =>
        obtain ⟨inside, border⟩ := ends rest after
        cases rest with
        | nil =>
          have last := first [] inside
          rw [List.append_nil] at last
          simp [chain?, last]
        | cons t rest =>
          have other : t ≠ separator := fun same => border (congrArg some same)
          simp [chain?, first _ inside, other]
      | cons b as =>
        have more := ih (List.cons_ne_nil b as) (Nat.le_of_succ_le_succ le)
          fun c member => takes c (List.mem_cons_of_mem a member)
        simp only [List.map_cons, List.intercalate_cons_cons, List.append_assoc,
          List.singleton_append] at more ⊢
        simp [chain?, first _ (separates _), more]

/-- Nothing that goes on with a conjunction. -/
def EndsConjunction (rest : List Token) : Prop := rest.head? ≠ some (.keyword .and)

/-- Nothing that goes on with a conjunction or a disjunction. -/
def EndsCondition (rest : List Token) : Prop :=
  EndsConjunction rest ∧ rest.head? ≠ some (.keyword .or)

theorem takes_conjunction {as : List α} (nonempty : as ≠ [])
    (takes : ∀ a ∈ as, Takes (negation? condition) Whatever (tokens a) (tree a)) :
    Takes (conjunction? condition) EndsConjunction
      ([Token.keyword .and].intercalate (as.map tokens)) (.ofAll (as.map tree)) := by
  intro rest after
  have enough : as.length ≤
      ([Token.keyword .and].intercalate (as.map tokens) ++ rest).length + 1 := by
    have le := Text.length_le_length_intercalate (Token.keyword .and) (as.map tokens)
    rw [List.length_map] at le
    rw [List.length_append]
    omega
  have chain := takes_chain nonempty enough takes (fun _ => trivial)
    (fun rest after => ⟨trivial, after⟩) rest after
  rw [conjunction?, chain]
  rfl

/-- Runs of conditions that are joined by `AND` inside, and by `OR` with each other. -/
theorem takes_disjunction {runs : List (List α)} (nonempty : runs ≠ []) (filled : ∀ run ∈ runs, run ≠ [])
    (takes : ∀ run ∈ runs, ∀ a ∈ run, Takes (negation? condition) Whatever (tokens a) (tree a)) :
    Takes (disjunction? condition) EndsCondition (joinRuns tokens runs) (.ofRuns tree runs) := by
  intro rest after
  have enough : runs.length ≤ (joinRuns tokens runs ++ rest).length + 1 := by
    have le := Text.length_le_length_intercalate (Token.keyword .or)
      (runs.map fun run => [Token.keyword .and].intercalate (run.map tokens))
    rw [List.length_map] at le
    rw [joinRuns, List.length_append]
    omega
  have chain : chain? (conjunction? condition) (.keyword .or)
      ((joinRuns tokens runs ++ rest).length + 1) (joinRuns tokens runs ++ rest) =
        some (runs.map fun run => .ofAll (run.map tree), rest) :=
    takes_chain nonempty enough
      (fun run member => takes_conjunction (filled run member) (takes run member))
      (fun _ same => by cases same) (fun rest after => after) rest after
  rw [disjunction?, chain]
  rfl

theorem takes_group {ts : List Token} {t : Tree} (inside : Takes condition EndsCondition ts t) :
    Takes (negation? condition) Whatever (.opening :: (ts ++ [.closing])) (.group t) := by
  intro rest _
  have read := inside (.closing :: rest) ⟨nofun, nofun⟩
  simp [negation?, primary?, read]

/-- A test, negated or not. -/
theorem takes_negatable (negated : Bool) {t : Test} (fits : t.predicate.Fits t.operands) :
    Takes (negation? condition) Whatever ((if negated then [.keyword .not] else []) ++ t.tokens)
      (if negated then .not (.test t) else .test t) := by
  intro rest _
  have read := takes_test t fits rest trivial
  have plain : negation? condition (t.tokens ++ rest) = some (.test t, rest) := by
    obtain ⟨notOpening, -, notNegation⟩ := token_ne t.subject
    rw [Test.tokens, List.cons_append] at read ⊢
    unfold negation?
    split
    case h_1 same => exact absurd (List.cons.inj same).1 notNegation
    case h_2 =>
      unfold primary?
      split
      case h_1 same => exact absurd (List.cons.inj same).1 notOpening
      case h_2 => rw [read]; rfl
  cases negated with
  | false => exact plain
  | true => simp [negation?, plain]

end Chains

theorem parse?_eq {text : String} {ts : List Token} {tree : Tree} (nonempty : ts ≠ [])
    (lexed : tokens? text.toList = some ts)
    (takes : ∀ depth, Takes (condition? (depth + 1)) EndsCondition ts tree) :
    parse? text = some tree := by
  have read := takes (ts.length - 1) [] ⟨nofun, nofun⟩
  rw [List.append_nil, Nat.sub_add_cancel (List.length_pos_iff.mpr nonempty)] at read
  simp [parse?, lexed, read]

end TypedSql.Sql
