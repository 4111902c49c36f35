import TypedSql.Proofs.Condition.Template

/-! Compiling a condition fills its draft in: from every collection, and from none, it returns the
text that the draft becomes there or the fault of the draft, and it leaves the values of the draft
bound, those before a fault as well. Nothing is asked of the collection. Where it counts what it
gets, the placeholders have consecutive numbers. -/
namespace TypedSql

section Outcomes

variable {σ : Type}

namespace Compile

theorem outcome_pure {α : Type} (a : α) (s : Option σ) :
    (pure a : Compile σ α).outcome s = (.ok a, s) := rfl

theorem outcome_bind {α β : Type} (m : Compile σ α) (k : α → Compile σ β) (s : Option σ) :
    (m >>= k).outcome s =
      match m.outcome s with
      | (.ok a, after) => (k a).outcome after
      | (.error e, after) => (.error e, after) := by
  change ExceptT.bindCont k (m.outcome s).1 (m.outcome s).2 = _
  rcases m.outcome s with ⟨_ | _, _⟩ <;> rfl

end Compile

end Outcomes

variable {σ : Type} [Sink σ]

theorem Template.fill_append (t u : Template) (s : Option σ) :
    (t ++ u).fill s = ((t.fill s).1 ++ (u.fill (t.fill s).2).1, (u.fill (t.fill s).2).2) := by
  induction t generalizing s with
  | last fragment => cases u <;> simp only [last_append, prepend, fill, String.append_assoc]
  | slot fragment v rest ih => simp only [slot_append, fill, ih, String.append_assoc]

/-- The compilation does what the draft says, wherever it starts. -/
def Compile.Fills (m : Compile σ String) (d : Draft) : Prop := ∀ s, m.outcome s = d.fill s

namespace Compile.Fills

theorem text (fragment : String) : Fills (pure fragment : Compile σ String) (.text fragment) :=
  fun _ => rfl

theorem stop (e : MalformedComparison) : Fills (throw e : Compile σ String) (.stop e) :=
  fun _ => rfl

theorem emit (v : Value) : Fills (v.emit : Compile σ String) v.draft := by
  intro s
  cases s <;> cases v <;>
    simp only [Value.draft, Draft.text, Draft.fill, Template.fill, Value.write,
      String.empty_append, String.append_empty] <;> rfl

/-- Drafts one behind the other are filled in by compilations one after the other. -/
theorem append {m k : Compile σ String} {d e : Draft} (first : Fills m d) (last : Fills k e) :
    Fills (do let a ← m; let b ← k; pure (a ++ b)) (d ++ e) := by
  intro s
  simp only [outcome_bind, outcome_pure, first s]
  cases fault : d.fault with
  | some f => simp only [Draft.append_of_fault_eq_some e fault, Draft.fill, fault]
  | none =>
    simp only [Draft.append_of_fault_eq_none e fault, Draft.fill, fault, last _,
      Template.fill_append]
    cases e.fault <;> rfl

/-- The next part of a condition behind its connective, and all that follows it. -/
theorem link (connective : Connective) {m k : Compile σ String} {d e : Draft} (next : Fills m d)
    (rest : Fills k e) :
    Fills (do let a ← m; let b ← k; pure (connective.separator ++ a ++ b))
      (.text connective.separator ++ d ++ e) := by
  have written := ((text (σ := σ) connective.separator).append next).append rest
  simpa only [pure_bind, bind_assoc] using written

end Compile.Fills

open Compile

namespace Comparison

theorem compileRange_fills (c : Comparison) :
    Fills (c.compileRange : Compile σ String) c.draftRange := by
  unfold compileRange draftRange
  cases c.operand.bounds? with
  | none => exact .stop _
  | some bounds =>
    obtain ⟨lower, upper⟩ := bounds
    have written := (((Fills.text (σ := σ) (c.subject ++ " BETWEEN ")).append (.emit lower)).append
      (.text " AND ")).append (.emit upper)
    simpa only [pure_bind, bind_assoc] using written

theorem compileBinary_fills (c : Comparison) :
    Fills (c.compileBinary : Compile σ String) c.draftBinary := by
  unfold compileBinary draftBinary
  cases c.operand with
  | scalar v =>
    have written := (Fills.text (σ := σ) (c.subject ++ c.operator.symbol)).append (.emit v)
    simpa only [pure_bind] using written
  | raw sql => exact .text _
  | null | pair | sequence => exact .stop _

theorem compile_fills (c : Comparison) : Fills (c.compile : Compile σ String) c.draft := by
  unfold compile draft
  by_cases null : c.operand.isNull = true
  · rw [if_pos null, if_pos null]
    exact .text _
  · rw [if_neg null, if_neg null]
    cases c.operator with
    | between | notBetween => exact c.compileRange_fills
    | isIn | notIn => exact .text _
    | _ => exact c.compileBinary_fills

theorem compileRest_fills (cs : List Comparison) :
    Fills (compileRest cs : Compile σ String) (draftRest cs) := by
  induction cs with
  | nil => exact .text ""
  | cons c rest ih => exact c.compile_fills.link c.connective ih

end Comparison

theorem Group.compile_fills (g : Group) : Fills (g.compile : Compile σ String) g.draft := by
  unfold compile draft
  by_cases single : g.rest.isEmpty = true
  · rw [if_pos single, List.isEmpty_iff.mp single]
    simpa only [Comparison.compileRest, pure_bind, List.isEmpty_nil, if_true, bind_pure] using
      g.first.compile_fills
  · have written := (((Fills.text (σ := σ) "(").append g.first.compile_fills).append
      (Comparison.compileRest_fills g.rest)).append (.text ")")
    simpa only [single, if_false, Bool.false_eq_true, pure_bind, bind_assoc] using written

namespace Condition

theorem compileRest_fills (connective : Connective) (gs : List Group) :
    Fills (compileRest connective gs : Compile σ String) (draftRest connective gs) := by
  induction gs with
  | nil => exact .text ""
  | cons g rest ih => exact g.compile_fills.link connective ih

/-- A whole condition fills its draft in. -/
theorem compile_fills (p : Condition) : Fills (p.compile : Compile σ String) p.draft := by
  unfold compile draft
  cases p.groups with
  | nil => exact .text ""
  | cons g rest => exact g.compile_fills.append (compileRest_fills p.connective rest)

end Condition

section Counting

variable [LawfulSink σ]

/-- A collection that counts what it gets numbers the places from its count on. -/
theorem Template.fill_eq (t : Template) (s : Option σ) : t.fill s = (t.render s, t.bindTo s) := by
  induction t generalizing s with
  | last fragment => cases s <;> rfl
  | slot fragment v rest ih =>
    simp only [fill, ih]
    cases s with
    | none => rfl
    | some s =>
      have counted : Sink.count (Sink.bind s v).2 = Sink.count s + 1 := LawfulSink.count_add _ _
      simp only [Value.write, render, bindTo, counted]
      rfl

theorem Draft.fill_eq_outcome (d : Draft) (s : Option σ) : d.fill s = d.outcome s := by
  rw [fill, outcome, Template.fill_eq]

/-- The compilation returns and leaves what the draft says, wherever it starts. -/
def Compile.Follows (m : Compile σ String) (d : Draft) : Prop := ∀ s, m.outcome s = d.outcome s

/-- A whole condition is written along its draft. -/
theorem Condition.compile_follows (p : Condition) : Follows (p.compile : Compile σ String) p.draft :=
  fun s => (p.compile_fills s).trans (p.draft.fill_eq_outcome s)

end Counting

/-- By itself a condition is the inline text of its draft. -/
theorem Condition.toSql_eq (p : Condition) :
    p.toSql =
      match p.draft.fault with
      | none => .ok p.draft.template.inline
      | some e => .error e :=
  congrArg Prod.fst (p.compile_follows (σ := Bindings) none)

end TypedSql
