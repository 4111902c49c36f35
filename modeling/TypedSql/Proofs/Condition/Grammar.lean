import TypedSql.Parameter
import TypedSql.Condition.Basic
import TypedSql.Proofs.Condition.Tree
import TypedSql.Proofs.Sql.Spacing

/-! The texts that are SQL conditions: comparisons, and comparisons in parentheses, with a connective
between each two and no other. Every such text is a solid one. -/
namespace TypedSql.Sql

open Text Numeric

/-- A placeholder, or the literal of a value that has one. -/
inductive IsTerm : String → Prop
  | placeholder (n : Nat) : IsTerm (Placeholder.numbered n).text
  | literal {v : Value} (plain : v.IsPlain) : IsTerm v.literal

/-- What stands between a field and the one term that it is compared with. -/
def signs : List String := [" = ", " <> ", " LIKE ", " > ", " >= ", " < ", " <= "]

/-- A field and all that it is tested for. -/
inductive IsTest : String → Prop
  | isNull {field : String} (plain : IsPlainWord field.toList) : IsTest (field ++ " IS NULL")
  | binary {field sign term : String} (plain : IsPlainWord field.toList) (compares : sign ∈ signs)
      (right : IsTerm term) : IsTest (field ++ sign ++ term)
  | range {field lower upper : String} (plain : IsPlainWord field.toList) (low : IsTerm lower)
      (high : IsTerm upper) : IsTest (field ++ " BETWEEN " ++ lower ++ " AND " ++ upper)
  | member {field : String} {vs : List Value} (plain : IsPlainWord field.toList)
      (members : ∀ v ∈ vs, v.IsPlain) :
      IsTest (field ++ " IN (" ++ String.intercalate "," (vs.map Value.literal) ++ ")")

/-- A complete comparison: a test, negated or not. -/
inductive IsComparison : String → Prop
  | test {text : String} (complete : IsTest text) : IsComparison text
  | not {text : String} (complete : IsTest text) : IsComparison ("NOT " ++ text)

/-- Items, at least one, with a connective between each two. -/
inductive IsChain (item : String → Prop) : String → Prop
  | single {text : String} (only : item text) : IsChain item text
  | link {text rest : String} (k : Connective) (first : item text) (others : IsChain item rest) :
      IsChain item (text ++ k.separator ++ rest)

/-- A comparison, or a chain of comparisons in parentheses. -/
inductive IsItem : String → Prop
  | comparison {text : String} (complete : IsComparison text) : IsItem text
  | group {text : String} (chain : IsChain IsComparison text) : IsItem ("(" ++ text ++ ")")

def IsCondition (text : String) : Prop := IsChain IsItem text

section Characters

/-- Characters of a kind that has no blank, no parenthesis and no quote. -/
theorem isWordy_of_all {kind : Char → Bool} (apart : [' ', '(', ')', '\x27'].all (!kind ·) = true)
    {c : Char} (inside : kind c = true) : isWordy c = true := by
  have other : ∀ d ∈ [' ', '(', ')', '\x27'], c ≠ d := by
    rintro d member rfl
    have outside := List.all_eq_true.mp apart c member
    rw [inside] at outside
    contradiction
  simp only [List.forall_mem_cons] at other
  simp [isWordy, other]

theorem isWordy_of_isDigit {c : Char} (digit : c.isDigit = true) : isWordy c = true :=
  isWordy_of_all rfl digit

theorem isWordy_of_isWordChar {c : Char} (inside : isWordChar c = true) : isWordy c = true :=
  isWordy_of_all rfl inside

theorem isWordChar_of_isWordStart {c : Char} (start : isWordStart c = true) :
    isWordChar c = true := by
  rw [isWordStart, Bool.or_eq_true] at start
  rw [isWordChar, Bool.or_eq_true, Char.isAlphanum, Bool.or_eq_true]
  exact start.imp_left Or.inl

end Characters

section Solidity

theorem solid_field {cs : List Char} (plain : IsPlainWord cs) : Solid cs := by
  cases cs with
  | nil => exact plain.elim
  | cons c cs =>
    obtain ⟨start, inside, -⟩ := plain
    apply Solid.word (List.cons_ne_nil c cs)
    rw [List.forall_mem_cons]
    constructor
    · exact isWordy_of_isWordChar (isWordChar_of_isWordStart start)
    · exact fun d member => isWordy_of_isWordChar (inside d member)

theorem solid_decimal (negative : Bool) {whole places : List Char} (nonempty : whole ≠ [])
    (digits : ∀ c ∈ whole, c.isDigit = true) (digits' : ∀ c ∈ places, c.isDigit = true) :
    Solid (decimalChars negative whole places) := by
  have sign : ∀ c ∈ (if negative then ['-'] else []), isWordy c = true := by
    cases negative with
    | true => exact List.forall_mem_singleton.mpr rfl
    | false => exact List.forall_mem_nil _
  have fraction : ∀ c ∈ (if places = [] then [] else '.' :: places), isWordy c = true := by
    split
    · exact List.forall_mem_nil _
    · exact List.forall_mem_cons.mpr ⟨rfl, fun c member => isWordy_of_isDigit (digits' c member)⟩
  apply Solid.word
  · simp [decimalChars, nonempty]
  · intro c member
    simp only [decimalChars, List.mem_append] at member
    rcases member with member | member | member
    · exact sign c member
    · exact isWordy_of_isDigit (digits c member)
    · exact fraction c member

theorem solid_constant {c : Constant} {cs : List Char} (written : c.WrittenAs cs) : Solid cs := by
  cases written with
  | null => exact Solid.word (List.cons_ne_nil _ _) (List.all_eq_true.mp rfl)
  | number negative nonempty digits digits' => exact solid_decimal negative nonempty digits digits'
  | text s => exact Solid.quote (List.forall_mem_nil _) (Spot.after_doubleQuotes s.toList)
  | blob inside =>
    have front : ∀ c ∈ ['X'], isWordy c = true := List.forall_mem_singleton.mpr rfl
    exact Solid.quote front (Spot.after_of_notMem inside)

theorem IsTerm.solid {text : String} (term : IsTerm text) : Solid text.toList := by
  cases term with
  | literal plain => exact solid_constant (written_literal plain)
  | placeholder n =>
    have shape : (Placeholder.numbered n).text.toList = '@' :: 'P' :: digits n := by
      simp [Placeholder.numbered, Placeholder.text]
    rw [shape]
    apply Solid.word (List.cons_ne_nil _ _)
    rw [List.forall_mem_cons, List.forall_mem_cons]
    exact ⟨rfl, rfl, fun c member => isWordy_of_isDigit (isDigit_of_mem_digits member)⟩

/-- Something stands before the comma or the parenthesis behind the literals of a list, or it is the
parenthesis that opens the list. -/
theorem after_members {vs : List Value} (plain : ∀ v ∈ vs, v.IsPlain) :
    ∃ s, Spot.opened.after (String.intercalate "," (vs.map Value.literal)).toList = some s ∧
      s.next ')' = some .solid := by
  rw [String.toList_intercalate, List.map_map]
  cases vs with
  | nil => exact ⟨.opened, rfl, rfl⟩
  | cons v vs =>
    have comma : Spot.solid.after ",".toList = some .solid := rfl
    have more : ∀ us : List Value, (∀ u ∈ us, u.IsPlain) →
        Spot.solid.after ((us.map (String.toList ∘ Value.literal)).flatMap (",".toList ++ ·)) =
          some .solid := by
      intro us plain
      induction us with
      | nil => rfl
      | cons u us ih =>
        rw [List.forall_mem_cons] at plain
        rw [List.map_cons, List.flatMap_cons, List.append_assoc,
          Spot.after_append_of_eq_some comma]
        exact ((IsTerm.literal plain.1).solid.append (ih plain.2)) .solid nofun
    rw [List.forall_mem_cons] at plain
    rw [List.map_cons, intercalate_cons]
    refine ⟨.solid, ?_, rfl⟩
    exact ((IsTerm.literal plain.1).solid.append (more vs plain.2)) .opened nofun

theorem IsTest.solid {text : String} (test : IsTest text) : Solid text.toList := by
  cases test with
  | isNull plain =>
    rw [String.toList_append]
    exact (solid_field plain).append rfl
  | binary plain compares right =>
    have sign : ∀ sign ∈ signs, Spot.solid.after sign.toList = some .gap := by decide
    rw [String.append_assoc, String.toList_append, String.toList_append]
    exact (solid_field plain).append (Solid.after_append (sign _ compares) nofun right.solid)
  | range plain low high =>
    have word : Spot.solid.after " BETWEEN ".toList = some .gap := rfl
    have conjunction : Spot.solid.after " AND ".toList = some .gap := rfl
    have both := low.solid.append (Solid.after_append conjunction nofun high.solid)
    simp only [String.toList_append, List.append_assoc]
    exact (solid_field plain).append (Solid.after_append word nofun both)
  | member plain members =>
    obtain ⟨s, inside, closes⟩ := after_members members
    have opening : Spot.solid.after " IN (".toList = some .opened := rfl
    simp only [String.toList_append, List.append_assoc]
    apply (solid_field plain).append
    rw [Spot.after_append_of_eq_some opening, Spot.after_append_of_eq_some inside]
    simpa [Spot.after] using closes

theorem IsComparison.solid {text : String} (complete : IsComparison text) : Solid text.toList := by
  cases complete with
  | test complete => exact complete.solid
  | not complete =>
    rw [String.toList_append]
    intro s outside
    have negation : s.after "NOT ".toList = some .gap := by
      cases s with
      | quoted => exact absurd rfl outside
      | gap | opened | solid => rfl
    exact Solid.after_append negation nofun complete.solid

theorem after_separator (k : Connective) : Spot.solid.after k.separator.toList = some .gap := by
  cases k <;> rfl

theorem after_opening {s : Spot} (outside : s ≠ .quoted) : s.after "(".toList = some .opened := by
  cases s with
  | quoted => exact absurd rfl outside
  | gap | opened | solid => rfl

theorem IsChain.solid {item : String → Prop} (items : ∀ text, item text → Solid text.toList)
    {text : String} (chain : IsChain item text) : Solid text.toList := by
  induction chain with
  | single only => exact items _ only
  | link k first _ ih =>
    rw [String.append_assoc, String.toList_append, String.toList_append]
    exact (items _ first).append (Solid.after_append (after_separator k) nofun ih)

theorem IsItem.solid {text : String} (item : IsItem text) : Solid text.toList := by
  cases item with
  | comparison complete => exact complete.solid
  | group chain =>
    have inside := chain.solid fun _ complete => complete.solid
    simp only [String.toList_append, List.append_assoc]
    intro s outside
    rw [Spot.after_append_of_eq_some (after_opening outside)]
    exact inside.append rfl .opened nofun

theorem IsCondition.solid {text : String} (condition : IsCondition text) : Solid text.toList :=
  IsChain.solid (fun _ item => item.solid) condition

end Solidity

end TypedSql.Sql
