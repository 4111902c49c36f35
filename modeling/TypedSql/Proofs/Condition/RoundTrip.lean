import TypedSql.Proofs.Condition.Tree
import TypedSql.Proofs.Condition.Writing
import TypedSql.Proofs.Value.Denotation

/-! The text of a condition is read back as the condition. Its draft is followed once more: each
piece is read as its own tokens whatever comes next, so the tokens of the whole are those of the
parts, and the tokens have the structure of the condition. -/
namespace TypedSql

open Sql

section Spelling

variable {follows before : List Char → Prop} {d e : Draft} {ts us : List Token}

/-- A draft without fault whose text is read as these tokens. -/
def Draft.Spells (follows : List Char → Prop) (d : Draft) (ts : List Token) : Prop :=
  d.fault = none → Lexes follows d.template.inline.toList ts

namespace Draft

theorem inline_append_of_fault (h : d.fault = none) :
    (d ++ e).template.inline = d.template.inline ++ e.template.inline := by
  rw [append_of_fault_eq_none e h, Template.inline_append]

namespace Spells

theorem text {fragment : String} (h : Lexes follows fragment.toList ts) :
    Spells follows (.text fragment) ts :=
  fun _ => h

/-- A plain value stands as its literal. -/
theorem value {v : Value} (plain : v.IsPlain) : Spells Ends v.draft [v.constant.token] := by
  intro _
  cases v with
  | raw sql => cases plain
  | _ =>
    simpa [Value.draft, Template.inline] using lexes_literal plain

theorem append (first : Spells before d ts) (last : Spells follows e us)
    (joins : e.fault = none → ∀ rest, follows rest → before (e.template.inline.toList ++ rest)) :
    Spells follows (d ++ e) (ts ++ us) := by
  intro sound
  obtain ⟨sound, sound'⟩ := fault_append_eq_none sound
  rw [inline_append_of_fault sound, String.toList_append]
  exact (first sound).append (last sound') (joins sound')

theorem andThen (first : Spells Anything d ts) (last : Spells follows e us) :
    Spells follows (d ++ e) (ts ++ us) :=
  first.append last fun _ _ _ => trivial

end Spells

end Draft

end Spelling

theorem lexes_field {name : String} (plain : IsPlainWord name.toList) :
    Lexes Ends name.toList [.name name] := by
  cases shape : name.toList with
  | nil =>
    rw [shape] at plain
    cases plain
  | cons c cs =>
    rw [shape] at plain
    obtain ⟨start, inside, free⟩ := plain
    have read := (Token.written_word start inside).lexes
    rw [Token.ofWord, free] at read
    simpa only [← shape, String.ofList_toList] using read

namespace Comparison

variable {c : Comparison}

def tokens (c : Comparison) : List Token :=
  (if c.isNegated then [.keyword .not] else []) ++ c.test.tokens

theorem lexes_subject (plain : IsPlainWord c.field.toList) :
    Lexes Ends c.subject.toList
      ((if c.operator.isNegated then [.keyword .not] else []) ++ [.name c.field]) := by
  unfold subject
  rw [String.toList_append]
  split
  · exact ((Lexes.keyword .not).beforeBlank).andThen (lexes_field plain)
  · exact lexes_field plain

theorem lexes_nullTest (plain : IsPlainWord c.field.toList)
    (equality : c.operator = .equals ∨ c.operator = .notEqualTo) :
    Lexes Ends c.nullTest.toList
      ((if c.operator == .notEqualTo then [.keyword .not] else []) ++
        [.name c.field, .keyword .is, .keyword .null]) := by
  have question : Lexes Ends (c.field ++ " IS NULL").toList
      [.name c.field, .keyword .is, .keyword .null] := by
    rw [String.toList_append]
    exact (lexes_field plain).border
      ((Lexes.keyword .is).border (Lexes.keyword .null).blank (ends_cons (Or.inl rfl))).blank
      (ends_cons (Or.inl rfl))
  unfold nullTest
  rcases equality with operator | operator <;> simp only [operator]
  · exact question
  · rw [String.append_assoc, String.toList_append]
    exact ((Lexes.keyword .not).beforeBlank).andThen question

def symbolToken (p : Predicate) : Token :=
  match p with
  | .relation r => .relation r
  | _ => .keyword .like

theorem lexes_symbol {o : Operator}
    (binary : o.predicate = .like ∨ ∃ r, o.predicate = .relation r) :
    Lexes Anything o.symbol.toList [symbolToken o.predicate] := by
  cases o
  case equals => exact (Lexes.relation .equal).blank
  case notEqualTo => exact (Lexes.relation .unequal).blank
  case greaterThan => exact (Lexes.relation .greater).blank
  case greaterOrEquals => exact (Lexes.relation .greaterOrEqual).blank
  case lessThan => exact (Lexes.relation .less).blank
  case lessOrEquals => exact (Lexes.relation .lessOrEqual).blank
  case like | notLike => exact (Lexes.keyword .like).beforeBlank.blank
  case isIn | notIn | between | notBetween =>
    rcases binary with same | ⟨r, same⟩ <;> cases same

theorem ends_symbol (o : Operator) (rest : List Char) : Ends (o.symbol.toList ++ rest) := by
  cases o <;> exact ends_cons (Or.inl rfl)

theorem tokens_binary {p : Predicate} (binary : p = .like ∨ ∃ r, p = .relation r) (t : Term) :
    p.tokens [t] = [symbolToken p, t.token] := by
  rcases binary with rfl | ⟨r, rfl⟩ <;> rfl

/-- With a value to compare with, a comparison is its field and what follows it. -/
theorem tokens_eq (present : c.operand.isNull = false) :
    c.tokens = (if c.operator.isNegated then [.keyword .not] else []) ++ [.name c.field] ++
      c.operator.predicate.tokens (c.operand.values.map (.constant ·.constant)) := by
  simp [tokens, isNegated, test, present, Test.tokens, Term.token]

theorem spells_draftBinary (plain : c.IsPlain) (present : c.operand.isNull = false)
    (binary : c.operator.predicate = .like ∨ ∃ r, c.operator.predicate = .relation r) :
    c.draftBinary.Spells Ends c.tokens := by
  have values := plain.values
  rw [tokens_eq present]
  unfold draftBinary
  cases operand : c.operand with
  | null => simp [operand, Operand.isNull] at present
  | pair | sequence => exact fun sound => by cases sound
  | raw sql => exact absurd (values (.raw sql) (by simp [operand, Operand.values])) id
  | scalar v =>
    have left : Lexes Anything (c.subject ++ c.operator.symbol).toList
        ((if c.operator.isNegated then [.keyword .not] else []) ++ [.name c.field] ++
          [symbolToken c.operator.predicate]) := by
      rw [String.toList_append]
      exact (lexes_subject plain.field).append (lexes_symbol binary) fun _ _ =>
        ends_symbol c.operator _
    have right := Draft.Spells.value (values v (by simp [operand, Operand.values]))
    have all := (Draft.Spells.text left).andThen right
    rw [Operand.values, List.map_singleton, tokens_binary binary]
    simpa only [List.append_assoc, List.singleton_append] using! all

theorem spells_draftRange (plain : c.IsPlain) (present : c.operand.isNull = false)
    (range : c.operator.predicate = .between) : c.draftRange.Spells Ends c.tokens := by
  have values := plain.values
  rw [tokens_eq present, range]
  unfold draftRange
  cases bounds : c.operand.bounds? with
  | none => exact fun sound => by cases sound
  | some pair =>
    obtain ⟨lower, upper⟩ := pair
    rw [Operand.values_of_bounds? bounds] at values ⊢
    have left : Lexes Anything (c.subject ++ " BETWEEN ").toList
        ((if c.operator.isNegated then [.keyword .not] else []) ++ [.name c.field] ++
          [.keyword .between]) := by
      rw [String.toList_append]
      exact (lexes_subject plain.field).append (Lexes.keyword .between).beforeBlank.blank
        fun _ _ => ends_cons (Or.inl rfl)
    have conjunction : Lexes Anything " AND ".toList [.keyword .and] :=
      (Lexes.keyword .and).beforeBlank.blank
    have low := Draft.Spells.value (values lower List.mem_cons_self)
    have high := Draft.Spells.value (values upper (List.mem_cons_of_mem _ List.mem_cons_self))
    have all := (((Draft.Spells.text left).andThen low).append (.text conjunction)
      fun _ _ _ => ends_cons (Or.inl rfl)).andThen high
    simpa only [List.append_assoc, List.singleton_append] using! all

/-- A list that is not written already is the literals of its members. -/
theorem memberList_eq (plain : c.IsPlain) (member : c.operator = .isIn ∨ c.operator = .notIn)
    (present : c.operand.isNull = false) :
    c.operand.memberList = String.intercalate "," (c.operand.values.map Value.literal) := by
  have list := plain.list member
  have values := plain.values
  unfold Operand.memberList
  cases operand : c.operand with
  | null => simp [operand, Operand.isNull] at present
  | pair lower upper => simp [Operand.values, String.intercalate_cons_cons]
  | sequence vs => rfl
  | raw sql => exact absurd (values (.raw sql) (by simp [operand, Operand.values])) id
  | scalar v =>
    cases v with
    | text s =>
      rw [operand] at list
      cases list
    | _ => simp [Operand.values, String.intercalate_singleton]

theorem lexes_members {vs : List Value} (plain : ∀ v ∈ vs, v.IsPlain) :
    Lexes Ends (String.intercalate "," (vs.map Value.literal)).toList
      (listed (vs.map (.constant ·.constant))) := by
  rw [String.toList_intercalate, List.map_map]
  cases vs with
  | nil => exact .nil
  | cons v vs =>
    rw [List.forall_mem_cons] at plain
    have more : Lexes Ends (vs.flatMap fun v => ',' :: v.literal.toList)
        (vs.flatMap fun v => [.comma, v.constant.token]) :=
      .flatMap (fun v member => Lexes.comma.andThen (lexes_literal (plain.2 v member)))
        fun _ _ => ends_cons (Or.inr (Or.inl rfl))
    have all := (lexes_literal plain.1).append more fun rest after => by
      cases vs with
      | nil => exact after
      | cons v vs => exact ends_cons (Or.inr (Or.inl rfl))
    rw [List.map_cons, List.map_cons, Text.intercalate_cons, listed_cons, List.flatMap_map,
      List.flatMap_map]
    exact all

theorem spells_draftMembers (plain : c.IsPlain) (present : c.operand.isNull = false)
    (member : c.operator = .isIn ∨ c.operator = .notIn) :
    Draft.Spells Ends (.text (c.subject ++ " IN (" ++ c.operand.memberList ++ ")")) c.tokens := by
  have predicate : c.operator.predicate = .isIn := by
    rcases member with operator | operator <;> rw [operator] <;> rfl
  rw [tokens_eq present, predicate, memberList_eq plain member present]
  refine .text ?_
  have opening : Lexes Anything " IN (".toList [.keyword .isIn, .opening] :=
    (Lexes.keyword .isIn).beforeBlank.blank.andThen .opening
  have all := (((lexes_subject plain.field).append opening fun _ _ => ends_cons (Or.inl rfl)).andThen
    (lexes_members plain.values)).append Lexes.closing fun _ _ => ends_cons (Or.inr (Or.inr rfl))
  simp only [String.toList_append]
  simpa only [List.append_assoc] using! all.mono fun _ _ => trivial

/-- The text of a comparison is read as its tokens. -/
theorem spells_draft (plain : c.IsPlain) : c.draft.Spells Ends c.tokens := by
  unfold draft
  by_cases null : c.operand.isNull = true
  · rw [if_pos null]
    have read := lexes_nullTest plain.field (plain.null null)
    refine .text ?_
    simpa [tokens, isNegated, test, null, Test.tokens, Term.token, Predicate.tokens] using! read
  · rw [if_neg null]
    rw [Bool.not_eq_true] at null
    cases operator : c.operator with
    | between | notBetween => exact spells_draftRange plain null (by rw [operator]; rfl)
    | isIn => exact spells_draftMembers plain null (Or.inl operator)
    | notIn => exact spells_draftMembers plain null (Or.inr operator)
    | like | notLike => exact spells_draftBinary plain null (Or.inl (by rw [operator]; rfl))
    | _ => exact spells_draftBinary plain null (Or.inr ⟨_, by rw [operator]; rfl⟩)

end Comparison

def Connective.keyword : Connective → Keyword
  | .and => .and
  | .or => .or

theorem lexes_separator (k : Connective) : Lexes Anything k.separator.toList [.keyword k.keyword] := by
  cases k
  · exact (Lexes.keyword .and).beforeBlank.blank
  · exact (Lexes.keyword .or).beforeBlank.blank

theorem ends_separator (k : Connective) (rest : List Char) : Ends (k.separator.toList ++ rest) := by
  cases k <;> exact ends_cons (Or.inl rfl)

section Chains

variable {α : Type} {as : List α} {connective : α → Connective} {draft : α → Draft}
  {tokens : α → List Token}

theorem Draft.ends_chain {parts : List (Connective × Draft)} (sound : (chain parts).fault = none) :
    Ends (chain parts).template.inline.toList := by
  cases parts with
  | nil => exact ends_nil
  | cons part rest =>
    obtain ⟨connective, d⟩ := part
    obtain ⟨sound, -⟩ := fault_append_eq_none sound
    rw [chain, inline_append_of_fault sound, inline_append_of_fault rfl, String.append_assoc,
      String.toList_append]
    exact ends_separator connective _

/-- Drafts behind their connectives are read one after the other. -/
theorem Draft.spells_chain (connective : α → Connective) (each : ∀ a ∈ as, (draft a).Spells Ends (tokens a)) :
    (chain (as.map fun a => (connective a, draft a))).Spells Ends
      (as.flatMap fun a => .keyword (connective a).keyword :: tokens a) := by
  induction as with
  | nil => exact .text .nil
  | cons a as ih =>
    rw [List.forall_mem_cons] at each
    have first := (Spells.text (lexes_separator (connective a))).andThen each.1
    exact first.append (ih each.2) fun sound _ after => (ends_chain sound).append after

theorem Draft.fault_of_chain
    (sound : (chain (as.map fun a => (connective a, draft a))).fault = none) :
    ∀ a ∈ as, (draft a).fault = none := by
  induction as with
  | nil => exact fun a member => absurd member List.not_mem_nil
  | cons a as ih =>
    obtain ⟨first, rest⟩ := fault_append_eq_none sound
    rw [List.forall_mem_cons]
    exact ⟨(fault_append_eq_none first).2, ih rest⟩

end Chains

namespace Comparison

def tokensRest (cs : List Comparison) : List Token :=
  cs.flatMap fun c => .keyword c.connective.keyword :: c.tokens

theorem runs_fst (first : Comparison) (rest : List Comparison) :
    ∃ more, (runs first rest).1 = first :: more := by
  cases rest with
  | nil => exact ⟨[], rfl⟩
  | cons c rest =>
    unfold runs
    cases c.connective
    · exact ⟨_, rfl⟩
    · exact ⟨_, rfl⟩

/-- Cutting comparisons at each `OR` and joining them again changes nothing. -/
theorem joinRuns_runs (first : Comparison) (rest : List Comparison) :
    joinRuns tokens ((runs first rest).1 :: (runs first rest).2) =
      first.tokens ++ tokensRest rest := by
  induction rest generalizing first with
  | nil => simp [runs, joinRuns, tokensRest]
  | cons c rest ih =>
    have tail := ih c
    obtain ⟨more, head⟩ := runs_fst c rest
    have step : tokensRest (c :: rest) =
        .keyword c.connective.keyword :: (c.tokens ++ tokensRest rest) := rfl
    cases connective : c.connective with
    | and =>
      rw [head] at tail
      simp only [runs, connective, head]
      rw [joinRuns_and, tail, step, connective, Connective.keyword]
    | or =>
      simp only [runs, connective]
      rw [joinRuns_or, tail, step, connective, Connective.keyword]

theorem runs_ne_nil (first : Comparison) (rest : List Comparison) :
    ∀ run ∈ (runs first rest).1 :: (runs first rest).2, run ≠ [] := by
  induction rest generalizing first with
  | nil => simp [runs]
  | cons c rest ih =>
    have tail := ih c
    rw [List.forall_mem_cons] at tail
    unfold runs
    cases c.connective with
    | and => simpa using tail.2
    | or => simpa using tail

theorem mem_runs (first : Comparison) (rest : List Comparison) :
    ∀ run ∈ (runs first rest).1 :: (runs first rest).2, ∀ c ∈ run, c ∈ first :: rest := by
  induction rest generalizing first with
  | nil => simp [runs]
  | cons d rest ih =>
    have tail := ih d
    rw [List.forall_mem_cons] at tail
    unfold runs
    cases d.connective with
    | and =>
      simp only [List.forall_mem_cons]
      exact ⟨⟨List.mem_cons_self, fun c member => List.mem_cons_of_mem _ (tail.1 c member)⟩,
        fun run among c member => List.mem_cons_of_mem _ (tail.2 run among c member)⟩
    | or =>
      simp only [List.forall_mem_cons]
      exact ⟨⟨List.mem_cons_self, fun c member => absurd member List.not_mem_nil⟩,
        fun c member => List.mem_cons_of_mem _ (tail.1 c member),
        fun run among c member => List.mem_cons_of_mem _ (tail.2 run among c member)⟩

end Comparison

namespace Comparison

/-- A comparison that can be written has as many operands as its test needs. -/
theorem fits_test {c : Comparison} (plain : c.IsPlain) (sound : c.draft.fault = none) :
    c.test.predicate.Fits c.test.operands := by
  have values := plain.values
  unfold test
  by_cases null : c.operand.isNull = true
  · rw [if_pos null]
    exact rfl
  · rw [if_neg null]
    rw [draft, if_neg null] at sound
    cases operator : c.operator with
    | isIn | notIn => trivial
    | between | notBetween =>
      simp only [operator, draftRange] at sound
      cases bounds : c.operand.bounds? with
      | none => simp [bounds, Draft.stop] at sound
      | some pair =>
        rw [Operand.values_of_bounds? bounds]
        exact rfl
    | _ =>
      simp only [operator, draftBinary] at sound
      cases operand : c.operand with
      | null => simp [operand, Operand.isNull] at null
      | pair | sequence => simp [operand, Draft.stop] at sound
      | raw sql => exact absurd (values (.raw sql) (by simp [operand, Operand.values])) id
      | scalar v => exact rfl

theorem takes_tokens {c : Comparison} (plain : c.IsPlain) (sound : c.draft.fault = none)
    (condition : Reader Tree) : Takes (negation? condition) Whatever c.tokens c.tree :=
  takes_negatable c.isNegated (fits_test plain sound)

end Comparison

namespace Group

variable {g : Group}

def tokens (g : Group) : List Token :=
  if g.rest.isEmpty then g.first.tokens
  else .opening :: (joinRuns Comparison.tokens g.runs ++ [.closing])

theorem spells_draft (plain : ∀ c ∈ g.comparisons, c.IsPlain) : g.draft.Spells Ends g.tokens := by
  rw [comparisons, List.forall_mem_cons] at plain
  have first := Comparison.spells_draft plain.1
  unfold draft tokens
  split
  case isTrue => exact first
  case isFalse =>
    have opening : Lexes Anything "(".toList [.opening] := .opening
    have closing : Lexes Ends ")".toList [.closing] := Lexes.closing.mono fun _ _ => trivial
    have rest := Draft.spells_chain Comparison.connective fun c member =>
      Comparison.spells_draft (plain.2 c member)
    have all := ((Draft.Spells.text opening).andThen first).append rest fun sound _ after =>
      (Draft.ends_chain sound).append after
    have closed := all.append (.text closing)
      fun _ _ _ => ends_cons (Or.inr (Or.inr rfl))
    have joined := Comparison.joinRuns_runs g.first g.rest
    simp only [runs, joined]
    simpa only [List.append_assoc, List.singleton_append] using! closed

theorem tokens_ne_nil (g : Group) : g.tokens ≠ [] := by
  unfold tokens
  split
  · simp [Comparison.tokens, Test.tokens]
  · exact List.cons_ne_nil _ _

theorem fault_of_draft (sound : g.draft.fault = none) : ∀ c ∈ g.comparisons, c.draft.fault = none := by
  rw [comparisons, List.forall_mem_cons]
  unfold draft at sound
  split at sound
  case isTrue single =>
    rw [List.isEmpty_iff.mp single]
    exact ⟨sound, fun c member => absurd member List.not_mem_nil⟩
  case isFalse =>
    obtain ⟨sound, -⟩ := Draft.fault_append_eq_none sound
    obtain ⟨first, rest⟩ := Draft.fault_append_eq_none sound
    exact ⟨(Draft.fault_append_eq_none first).2, Draft.fault_of_chain rest⟩

theorem takes_tokens (plain : ∀ c ∈ g.comparisons, c.IsPlain) (sound : g.draft.fault = none)
    (depth : Nat) : Takes (negation? (condition? depth)) Whatever g.tokens g.tree := by
  have each : ∀ c ∈ g.comparisons, ∀ condition,
      Takes (negation? condition) Whatever c.tokens c.tree := fun c member =>
    Comparison.takes_tokens (plain c member) (fault_of_draft sound c member)
  unfold tokens tree
  split
  case isTrue => exact each g.first List.mem_cons_self _
  case isFalse =>
    refine takes_group ?_
    cases depth <;>
      exact takes_disjunction (List.cons_ne_nil _ _) (Comparison.runs_ne_nil g.first g.rest)
        fun run member c among => each c (Comparison.mem_runs g.first g.rest run member c among) _

end Group

namespace Condition

variable {p : Condition}

/-- The groups that are joined by `AND`, with `OR` between them. -/
def runs (p : Condition) : List (List Group) :=
  match p.connective with
  | .and => [p.groups]
  | .or => p.groups.map ([·])

theorem ofRuns_runs (p : Condition) : Tree.ofRuns Group.tree p.runs = p.tree := by
  unfold runs tree
  cases p.connective with
  | and => rfl
  | or => simp [Tree.ofRuns, Tree.ofAll, List.map_map, Function.comp_def]

theorem runs_ne_nil (nonempty : p.groups ≠ []) : p.runs ≠ [] := by
  unfold runs
  cases p.connective with
  | and => exact List.cons_ne_nil _ _
  | or => simpa using nonempty

theorem mem_runs_ne_nil (nonempty : p.groups ≠ []) : ∀ run ∈ p.runs, run ≠ [] := by
  unfold runs
  cases p.connective with
  | and => simpa using nonempty
  | or => simp

theorem mem_runs {run : List Group} (member : run ∈ p.runs) {g : Group} (among : g ∈ run) :
    g ∈ p.groups := by
  unfold runs at member
  cases connective : p.connective with
  | and =>
    simp only [connective, List.mem_singleton] at member
    exact member ▸ among
  | or =>
    simp only [connective, List.mem_map] at member
    obtain ⟨h, inside, rfl⟩ := member
    exact List.mem_singleton.mp among ▸ inside

theorem joinRuns_runs (g : Group) (rest : List Group) (connective : Connective) :
    joinRuns Group.tokens (runs ⟨g :: rest, connective⟩) =
      g.tokens ++ rest.flatMap fun g => .keyword connective.keyword :: g.tokens := by
  cases connective with
  | and => simp [runs, joinRuns, Text.intercalate_cons, List.flatMap_map, Connective.keyword]
  | or =>
    simp [runs, joinRuns, Text.intercalate_cons, List.flatMap_map, Connective.keyword]

theorem toSql_eq_ok_iff {text : String} :
    p.toSql = .ok text ↔ p.draft.fault = none ∧ p.draft.template.inline = text := by
  rw [toSql_eq]
  cases p.draft.fault <;> simp

/-- The text of a condition has the structure of the condition. -/
theorem parse?_toSql {text : String} (plain : p.IsPlain) (written : p.toSql = .ok text) :
    parse? text = some p.tree := by
  obtain ⟨sound, rfl⟩ := toSql_eq_ok_iff.mp written
  obtain ⟨first, rest, groups⟩ := List.exists_cons_of_ne_nil plain.groups
  have each : ∀ g ∈ p.groups, ∀ c ∈ g.comparisons, c.IsPlain := fun g member c among =>
    plain.comparisons c (List.mem_flatMap.mpr ⟨g, member, among⟩)
  have drafts : p.draft = first.draft ++ draftRest p.connective rest := by
    rw [draft, groups]
  have faultless : ∀ g ∈ p.groups, g.draft.fault = none := by
    obtain ⟨sound, others⟩ := Draft.fault_append_eq_none (drafts ▸ sound)
    rw [groups, List.forall_mem_cons]
    exact ⟨sound, Draft.fault_of_chain others⟩
  have tokens : joinRuns Group.tokens p.runs =
      first.tokens ++ rest.flatMap fun g => .keyword p.connective.keyword :: g.tokens := by
    rw [← joinRuns_runs, ← groups]
  have spelt : p.draft.Spells Ends (joinRuns Group.tokens p.runs) := by
    rw [groups, List.forall_mem_cons] at each
    rw [drafts, tokens]
    have others := Draft.spells_chain (fun _ => p.connective) fun g member =>
      Group.spells_draft (each.2 g member)
    exact (Group.spells_draft each.1).append others fun sound _ after =>
      (Draft.ends_chain sound).append after
  refine parse?_eq ?_ (spelt sound).tokens?_eq fun depth => ?_
  · rw [tokens]
    exact List.append_ne_nil_of_left_ne_nil first.tokens_ne_nil _
  · rw [← ofRuns_runs]
    refine takes_disjunction (runs_ne_nil plain.groups) (mem_runs_ne_nil plain.groups) ?_
    exact fun run member g among =>
      Group.takes_tokens (each g (mem_runs member among)) (faultless g (mem_runs member among)) depth

/-- The text of a condition is read back as the condition: its groups in order under its
connective, the comparisons of each group in order under their own, and each comparison with its
field, its operator and constants that denote its values. -/
theorem toSql_reads_back {text : String} (plain : p.IsPlain) (written : p.toSql = .ok text) :
    parse? text = some p.tree ∧
      ∀ c ∈ p.comparisons, ∀ v ∈ c.operand.values, v.constant.Denotes v := by
  constructor
  · exact parse?_toSql plain written
  · intro c member v among
    apply Value.denotes_constant
    exact (plain.comparisons c member).values v among

end Condition

/-- A condition with a quote and an `OR` in a text, a range in a group, and two groups. -/
def Condition.shelf : Condition :=
  ⟨[⟨.new "title" .notLike (.scalar (.text "it's) OR (1=1 --")),
      [(Comparison.between "price" (.real ⟨0xBFE0000000000000, by decide⟩)
          (.integer ⟨2, by decide, by decide⟩)).withConnective .or,
        (Comparison.isIn "id" [.blob [0, 255], .null]).withConnective .and]⟩,
    .new (.isNotNull "gone")], .and⟩

theorem Condition.toSql_reads_back_shelf :
    ∃ text, shelf.IsPlain ∧ shelf.toSql = .ok text ∧
      text = "(NOT title LIKE 'it''s) OR (1=1 --' OR price BETWEEN -0.5 AND 2 " ++
        "AND id IN (X'00FF',NULL)) AND NOT gone IS NULL" ∧
      parse? text = some (.all
        [.group (.any
          [.not (.test ⟨.column "title", .like, [.constant (.text "it's) OR (1=1 --")]⟩),
            .all
              [.test ⟨.column "price", .between,
                [.constant (.number ⟨true, 5, 1⟩), .constant (.number ⟨false, 2, 0⟩)]⟩,
              .test ⟨.column "id", .isIn, [.constant (.blob [0, 255]), .constant .null]⟩]]),
        .not (.test ⟨.column "gone", .isNull, []⟩)]) := by
  have written : shelf.toSql =
      .ok ("(NOT title LIKE 'it''s) OR (1=1 --' OR price BETWEEN -0.5 AND 2 " ++
        "AND id IN (X'00FF',NULL)) AND NOT gone IS NULL") := by rfl
  have plain : shelf.IsPlain := by decide
  refine ⟨_, plain, written, rfl, ?_⟩
  rw [(toSql_reads_back plain written).1]
  rfl

end TypedSql
