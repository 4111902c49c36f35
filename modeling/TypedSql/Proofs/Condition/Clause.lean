import TypedSql.Proofs.Condition.Shape
import TypedSql.Proofs.Sql.Marked
import TypedSql.Proofs.Sql.Truth

/-! Comparisons as the clauses that stand in a statement. Beside a collection and by itself, a
comparison is written as one test, negated or not, and nothing in its text reaches beyond it. Its
values are literals, names of numbers that are not finite, or places of parameters. -/
namespace TypedSql

open Sql Numeric

section Terms

/-- The text is one term: a constant, or a name, which may carry a mark. -/
def IsTermText (text : String) : Prop := ∃ t : Term, Spelt text.toList [t.token]

theorem isTermText_name {name : String} (plain : IsPlainWord name.toList) : IsTermText name :=
  ⟨.column name, .of_tokens? (lexes_field plain).tokens?_eq⟩

theorem isTermText_marked {c : Char} {word : List Char} (mark : c = '@' ∨ c = '-')
    (start : word.head?.any isWordStart = true) (inside : ∀ d ∈ word, isWordChar d = true) :
    IsTermText (String.ofList (c :: word)) := by
  cases word with
  | nil => cases start
  | cons d ds =>
    refine ⟨.column (String.ofList (c :: d :: ds)), ?_⟩
    rw [String.toList_ofList]
    exact .marked mark start inside

theorem isTermText_numbered (n : Nat) : IsTermText (Placeholder.numbered n).text := by
  have shape : (Placeholder.numbered n).text = String.ofList ('@' :: 'P' :: digits n) := by
    rw [← String.toList_inj]
    simp [Placeholder.text, Placeholder.numbered]
  rw [shape]
  refine isTermText_marked (Or.inl rfl) rfl (List.forall_mem_cons.mpr ⟨rfl, fun d member => ?_⟩)
  have digit : d.isDigit = true := isDigit_of_mem_digits member
  simp [isWordChar, Char.isAlphanum, digit]

/-- A number that is not finite is written as a name. -/
theorem isTermText_floatText {x : Double}
    (infinite : ¬x.magnitude < BinaryFormat.double.infinityCode) : IsTermText (floatText x) := by
  unfold floatText
  cases datum : x.datum with
  | nan => exact isTermText_name (by decide)
  | infinite negative =>
    cases negative with
    | false => exact isTermText_name (by decide)
    | true =>
      have signed : IsTermText (String.ofList ('-' :: "inf".toList)) :=
        isTermText_marked (Or.inr rfl) rfl (List.all_eq_true.mp rfl)
      exact signed
  | finite => exact absurd (Binary.finite_of_datum datum).2.2.1 infinite

theorem Value.isTermText_literal {v : Value} (written : v.isRaw = false) : IsTermText v.literal := by
  by_cases plain : v.IsPlain
  · exact ⟨.constant v.constant, .of_tokens? (lexes_literal plain).tokens?_eq⟩
  · cases v with
    | raw sql => cases written
    | real x => exact isTermText_floatText plain
    | _ => exact absurd trivial plain

/-- Terms behind a comma each. -/
theorem spelt_behindCommas {texts : List String} (terms : ∀ text ∈ texts, IsTermText text) :
    ∃ members : List Term,
      Spelt (texts.flatMap (",".toList ++ ·.toList)) (members.flatMap fun t => [.comma, t.token]) ∧
        Ends (texts.flatMap (",".toList ++ ·.toList)) := by
  induction texts with
  | nil => exact ⟨[], .nil, ends_nil⟩
  | cons text texts ih =>
    rw [List.forall_mem_cons] at terms
    obtain ⟨t, next⟩ := terms.1
    obtain ⟨members, others, border⟩ := ih terms.2
    exact ⟨t :: members, (next.append others border).comma, ends_cons (Or.inr (Or.inl rfl))⟩

/-- Terms with commas between them. -/
theorem spelt_intercalate {texts : List String} (terms : ∀ text ∈ texts, IsTermText text) :
    ∃ members, Spelt (String.intercalate "," texts).toList (listed members) := by
  rw [String.toList_intercalate]
  cases texts with
  | nil => exact ⟨[], .nil⟩
  | cons text texts =>
    rw [List.forall_mem_cons] at terms
    obtain ⟨t, first⟩ := terms.1
    obtain ⟨members, others, border⟩ := spelt_behindCommas terms.2
    refine ⟨t :: members, ?_⟩
    rw [listed_cons, List.map_cons, Text.intercalate_cons, List.flatMap_map]
    exact first.append others border

end Terms

/-- A test, negated or not. -/
structure Clause where
  negated : Bool
  test : Test

namespace Clause

variable {c : Clause}

def tokens (c : Clause) : List Token :=
  (if c.negated then [.keyword .not] else []) ++ c.test.tokens

def tree (c : Clause) : Tree := if c.negated then .not (.test c.test) else .test c.test

/-- The clause tests the field of the comparison, and asks about it what the operator does. -/
structure IsOf (clause : Clause) (c : Comparison) : Prop where
  negated : clause.negated = c.isNegated
  subject : clause.test.subject = .column c.field
  predicate : clause.test.predicate = c.test.predicate

/-- The text is complete and nothing else. -/
structure IsText (text : String) (c : Clause) : Prop where
  fits : c.test.predicate.Fits c.test.operands
  spelt : Spelt text.toList c.tokens

theorem isSingle_tree (c : Clause) : c.tree.IsSingle := by
  unfold tree
  split
  · exact (Tree.isSingle_test c.test).not
  · exact Tree.isSingle_test c.test

/-- A clause can have every truth, whether it is negated or not. -/
theorem bijective_truth (c : Clause) : Function.Bijective fun v => c.tree.truth [v] := by
  unfold tree
  split
  · have negation : Function.Involutive fun v => (Tree.not (.test c.test)).truth [v] := Truth.not_not
    exact negation.bijective
  · exact Function.bijective_id

theorem tests_tree (c : Clause) : c.tree.tests = [c.test] := by
  unfold tree
  split
  · rfl
  · rfl

theorem tokens_ne_nil (c : Clause) : c.tokens ≠ [] := by
  simp [tokens, Test.tokens]

theorem takes_tokens (fits : c.test.predicate.Fits c.test.operands) (condition : Reader Tree) :
    Takes (negation? condition) Whatever c.tokens c.tree :=
  takes_negatable c.negated fits

theorem IsText.parseMarked?_eq {text : String} (h : c.IsText text) :
    parseMarked? text = some c.tree :=
  Sql.parseMarked?_eq c.tokens_ne_nil h.spelt fun depth => takes_tokens h.fits (condition? depth)

end Clause

namespace Comparison

/-- A comparison whose text is complete: nothing in it is raw, a list that is written already has
terms and commas only, and there is a value unless the operator has a test for none. -/
structure IsReadable (c : Comparison) : Prop where
  field : IsPlainWord c.field.toList
  values : ∀ v ∈ c.operand.values, v.isRaw = false
  list : c.operator = .isIn ∨ c.operator = .notIn → ∀ list, c.operand = .scalar (.text list) →
    ∃ members, markedTokens? list.toList = some (listed members)
  present : c.isVacuous = false

section Pieces

variable {c : Comparison}

theorem spelt_subject (plain : IsPlainWord c.field.toList) :
    Spelt c.subject.toList
      ((if c.operator.isNegated then [.keyword .not] else []) ++ [.name c.field]) :=
  .of_tokens? (lexes_subject plain).tokens?_eq

/-- The symbol of an operator is one word between blanks. -/
theorem exists_symbol {o : Operator}
    (binary : o.predicate = .like ∨ ∃ r, o.predicate = .relation r) :
    ∃ word, o.symbol.toList = ' ' :: (word ++ [' ']) ∧ Spelt word [symbolToken o.predicate] := by
  rcases binary with like | ⟨r, relation⟩
  · refine ⟨Keyword.like.word.toList, ?_, like ▸ .keyword .like⟩
    cases o <;> cases like <;> rfl
  · refine ⟨r.sign.toList, ?_, relation ▸ .relation r⟩
    cases o <;> cases relation <;> rfl

theorem spelt_memberList (readable : c.IsReadable) (null : c.operand.isNull = false)
    (member : c.operator = .isIn ∨ c.operator = .notIn) :
    ∃ members, Spelt c.operand.memberList.toList (listed members) := by
  have values := readable.values
  have list := readable.list member
  have literals : ∀ vs : List Value, (∀ v ∈ vs, v.isRaw = false) →
      ∃ members, Spelt (String.intercalate "," (vs.map Value.literal)).toList (listed members) := by
    intro vs written
    refine spelt_intercalate fun text among => ?_
    obtain ⟨v, inside, rfl⟩ := List.mem_map.mp among
    exact Value.isTermText_literal (written v inside)
  unfold Operand.memberList
  cases operand : c.operand with
  | null => simp [operand, Operand.isNull] at null
  | raw sql => cases values (.raw sql) (by simp [operand, Operand.values])
  | pair lower upper =>
    have both := literals [lower, upper] (by simpa [operand, Operand.values] using values)
    simpa [String.intercalate_cons_cons] using both
  | sequence vs => exact literals vs (by simpa [operand, Operand.values] using values)
  | scalar v =>
    have alone := literals [v] (by simpa [operand, Operand.values] using values)
    cases v with
    | text s => exact list s operand
    | _ => simpa [String.intercalate_singleton] using alone

end Pieces

section Compiling

open Compile

variable {c : Comparison} {σ : Type} [Sink σ]

/-- The text is a test, negated or not, and the one that the comparison stands for. -/
def IsClauseText (c : Comparison) (text : String) : Prop :=
  ∃ clause : Clause, clause.IsOf c ∧ clause.IsText text

/-- A clause of a comparison that has a value. -/
theorem isOf_of_present (present : c.operand.isNull = false) {p : Predicate}
    (predicate : p = c.operator.predicate) (members : List Term) :
    Clause.IsOf ⟨c.operator.isNegated, ⟨.column c.field, p, members⟩⟩ c where
  negated := by simp [isNegated, present]
  subject := rfl
  predicate := by simp [test, present, predicate]

theorem emit_yields_term {v : Value} (written : v.isRaw = false) :
    Yields (v.emit : Compile σ String) IsTermText := by
  intro s text same
  rw [Fills.emit v s] at same
  cases v with
  | raw sql => cases written
  | _ =>
    simp only [Value.draft, Draft.fill, Template.fill, String.empty_append,
      String.append_empty] at same
    obtain rfl := Except.ok.inj same
    cases s with
    | none => exact Value.isTermText_literal written
    | some s => exact isTermText_numbered (Sink.count s)

theorem isClauseText_nullTest (readable : c.IsReadable) (null : c.operand.isNull = true) :
    c.IsClauseText c.nullTest := by
  have equality : c.operator = .equals ∨ c.operator = .notEqualTo := by
    have present := readable.present
    rw [isVacuous, null] at present
    cases operator : c.operator <;> simp_all
  have same : Clause.IsOf ⟨c.operator == .notEqualTo, ⟨.column c.field, .isNull, []⟩⟩ c :=
    ⟨by simp [isNegated, null], rfl, by simp [test, null]⟩
  exact ⟨_, same, rfl, .of_tokens? (lexes_nullTest readable.field equality).tokens?_eq⟩

theorem compileBinary_yields_clause (readable : c.IsReadable) (null : c.operand.isNull = false)
    (binary : c.operator.predicate = .like ∨ ∃ r, c.operator.predicate = .relation r) :
    Yields (c.compileBinary : Compile σ String) c.IsClauseText := by
  have values := readable.values
  unfold compileBinary
  cases operand : c.operand with
  | null | pair | sequence => exact .throw _
  | raw sql => cases values (.raw sql) (by simp [operand, Operand.values])
  | scalar v =>
    refine (emit_yields_term (values v (by simp [operand, Operand.values]))).bind ?_
    rintro right ⟨t, term⟩
    obtain ⟨word, shape, symbol⟩ := exists_symbol binary
    refine .pure ⟨_, isOf_of_present null rfl [t], ?_, ?_⟩
    · rcases binary with same | ⟨r, same⟩ <;> rw [same] <;> rfl
    · have all := (spelt_subject readable.field).spaced (symbol.spaced term)
      simpa [Clause.tokens, Test.tokens, Term.token, tokens_binary binary, shape] using all

theorem compileRange_yields_clause (readable : c.IsReadable) (null : c.operand.isNull = false)
    (range : c.operator.predicate = .between) :
    Yields (c.compileRange : Compile σ String) c.IsClauseText := by
  have values := readable.values
  unfold compileRange
  cases bounds : c.operand.bounds? with
  | none => exact .throw _
  | some ends =>
    rw [Operand.values_of_bounds? bounds, List.forall_mem_cons,
      List.forall_mem_singleton] at values
    refine (emit_yields_term values.1).bind ?_
    rintro low ⟨lower, first⟩
    refine (emit_yields_term values.2).bind ?_
    rintro high ⟨upper, last⟩
    refine .pure ⟨_, isOf_of_present null range.symm [lower, upper], rfl, ?_⟩
    have both := first.spaced ((Spelt.keyword .and).spaced last)
    have all := (spelt_subject readable.field).spaced ((Spelt.keyword .between).spaced both)
    simpa [Clause.tokens, Test.tokens, Term.token, Predicate.tokens, Keyword.word] using all

theorem isClauseText_members (readable : c.IsReadable) (null : c.operand.isNull = false)
    (member : c.operator = .isIn ∨ c.operator = .notIn) :
    c.IsClauseText (c.subject ++ " IN (" ++ c.operand.memberList ++ ")") := by
  obtain ⟨members, list⟩ := spelt_memberList readable null member
  have predicate : .isIn = c.operator.predicate := by
    rcases member with same | same <;> rw [same] <;> rfl
  refine ⟨_, isOf_of_present null predicate members, trivial, ?_⟩
  have closed := (list.append .closing (ends_cons (Or.inr (Or.inr rfl)))).opening
  have all := (spelt_subject readable.field).spaced ((Spelt.keyword .isIn).spaced closed)
  simpa [Clause.tokens, Test.tokens, Term.token, Predicate.tokens, Keyword.word] using all

theorem compile_yields_clause (readable : c.IsReadable) :
    Yields (c.compile : Compile σ String) c.IsClauseText := by
  unfold compile
  by_cases null : c.operand.isNull = true
  · rw [if_pos null]
    exact .pure (isClauseText_nullTest readable null)
  · rw [if_neg null]
    rw [Bool.not_eq_true] at null
    cases operator : c.operator with
    | between | notBetween =>
      exact compileRange_yields_clause readable null (by rw [operator]; rfl)
    | isIn => exact .pure (isClauseText_members readable null (Or.inl operator))
    | notIn => exact .pure (isClauseText_members readable null (Or.inr operator))
    | like | notLike =>
      exact compileBinary_yields_clause readable null (Or.inl (by rw [operator]; rfl))
    | _ => exact compileBinary_yields_clause readable null (Or.inr ⟨_, by rw [operator]; rfl⟩)

/-- Each comparison is written as a clause of its own, and as the one it stands for. -/
theorem mapM_compile_yields {cs : List Comparison} (readable : ∀ c ∈ cs, c.IsReadable) :
    Yields (cs.mapM compile : Compile σ (List String)) fun texts =>
      ∃ clauses, List.Forall₂ Clause.IsOf clauses cs ∧
        List.Forall₂ Clause.IsText texts clauses := by
  induction cs with
  | nil => exact .pure ⟨[], .nil, .nil⟩
  | cons c cs ih =>
    rw [List.forall_mem_cons] at readable
    rw [List.mapM_cons]
    refine (compile_yields_clause readable.1).bind ?_
    rintro text ⟨clause, same, first⟩
    refine (ih readable.2).bind ?_
    rintro texts ⟨clauses, each, others⟩
    exact .pure ⟨clause :: clauses, .cons same each, .cons first others⟩

end Compiling

end Comparison

end TypedSql
