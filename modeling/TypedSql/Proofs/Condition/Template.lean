import TypedSql.Condition.Compile

/-! What a compilation writes, without the collection it writes to. A template is text with places
for values; with literals in its places it is the text of a condition by itself, and with
placeholders the text beside a collection. The draft of a condition is the template of all that is
written up to the first malformed comparison. Compiling is filling in the draft, from every
collection and from none. -/
namespace TypedSql

/-- Fragments of text with a value between each two of them. -/
inductive Template where
  | last (fragment : String)
  | slot (fragment : String) (value : Value) (rest : Template)
  deriving DecidableEq, Repr

namespace Template

def values : Template → List Value
  | .last _ => []
  | .slot _ v rest => v :: rest.values

def inline : Template → String
  | .last fragment => fragment
  | .slot fragment v rest => fragment ++ v.literal ++ rest.inline

/-- The text with the placeholders of the given number and of those after it. -/
def bound (n : Nat) : Template → String
  | .last fragment => fragment
  | .slot fragment _ rest => fragment ++ (Placeholder.numbered n).text ++ rest.bound (n + 1)

def parameters (n : Nat) : Template → List Parameter
  | .last _ => []
  | .slot _ v rest => ⟨.numbered n, v⟩ :: rest.parameters (n + 1)

/-- The template with more text in front. -/
def prepend (text : String) : Template → Template
  | .last fragment => .last (text ++ fragment)
  | .slot fragment v rest => .slot (text ++ fragment) v rest

def append : Template → Template → Template
  | .last fragment, t => t.prepend fragment
  | .slot fragment v rest, t => .slot fragment v (rest.append t)

instance : Append Template := ⟨append⟩

theorem last_append (fragment : String) (t : Template) :
    .last fragment ++ t = t.prepend fragment := rfl

theorem slot_append (fragment : String) (v : Value) (rest t : Template) :
    .slot fragment v rest ++ t = .slot fragment v (rest ++ t) := rfl

@[simp] theorem values_append (t u : Template) : (t ++ u).values = t.values ++ u.values := by
  induction t with
  | last fragment => cases u <;> rfl
  | slot fragment v rest ih => rw [slot_append, values, ih]; rfl

@[simp] theorem inline_append (t u : Template) : (t ++ u).inline = t.inline ++ u.inline := by
  induction t with
  | last fragment => cases u <;> simp [last_append, prepend, inline, String.append_assoc]
  | slot fragment v rest ih => simp only [slot_append, inline, ih, String.append_assoc]

/-- The parameters are the values under consecutive generated names. -/
theorem parameters_eq_mapIdx (n : Nat) (t : Template) :
    t.parameters n = t.values.mapIdx fun i v => ⟨.numbered (n + i), v⟩ := by
  induction t generalizing n with
  | last fragment => rfl
  | slot fragment v rest ih =>
    simp only [parameters, values, ih, List.mapIdx_cons, Nat.add_zero, Nat.add_assoc, Nat.add_comm 1]

end Template

/-- A text that is being written: the template so far, and the comparison that stopped it. -/
structure Draft where
  template : Template
  fault : Option MalformedComparison
  deriving DecidableEq, Repr

namespace Draft

def text (fragment : String) : Draft := ⟨.last fragment, none⟩

def stop (e : MalformedComparison) : Draft := ⟨.last "", some e⟩

/-- One draft behind the other. After a fault nothing is written. -/
def append (d e : Draft) : Draft :=
  match d.fault with
  | none => ⟨d.template ++ e.template, e.fault⟩
  | some _ => d

instance : Append Draft := ⟨append⟩

theorem append_of_fault_eq_none {d : Draft} (e : Draft) (h : d.fault = none) :
    d ++ e = ⟨d.template ++ e.template, e.fault⟩ := by
  change append d e = _
  rw [append, h]

theorem append_of_fault_eq_some {d : Draft} (e : Draft) {fault : MalformedComparison}
    (h : d.fault = some fault) : d ++ e = d := by
  change append d e = _
  rw [append, h]

theorem fault_append (d e : Draft) : (d ++ e).fault = d.fault.or e.fault := by
  cases fault : d.fault with
  | none => rw [append_of_fault_eq_none e fault, Option.none_or]
  | some f => rw [append_of_fault_eq_some e fault, fault, Option.some_or]

theorem fault_append_eq_none {d e : Draft} (h : (d ++ e).fault = none) :
    d.fault = none ∧ e.fault = none := by
  rwa [fault_append, Option.or_eq_none_iff] at h

def chain : List (Connective × Draft) → Draft
  | [] => .text ""
  | (connective, d) :: rest => .text connective.separator ++ d ++ chain rest

end Draft

/-- A raw value is text; any other value leaves a place for itself. -/
def Value.draft (v : Value) : Draft :=
  match v with
  | .raw sql => .text sql
  | v => ⟨.slot "" v (.last ""), none⟩

namespace Comparison

/-- Equality, order and likeness: all operators but those of ranges and memberships. -/
def draftBinary (c : Comparison) : Draft :=
  match c.operand with
  | .scalar v => .text (c.subject ++ c.operator.symbol) ++ v.draft
  | .raw sql => .text (c.subject ++ c.operator.symbol ++ sql)
  | _ => .stop c.malformed

def draftRange (c : Comparison) : Draft :=
  match c.operand.bounds? with
  | some (lower, upper) =>
    .text (c.subject ++ " BETWEEN ") ++ lower.draft ++ .text " AND " ++ upper.draft
  | none => .stop c.malformed

def draft (c : Comparison) : Draft :=
  if c.operand.isNull then .text c.nullTest
  else
    match c.operator with
    | .between | .notBetween => c.draftRange
    | .isIn | .notIn => .text (c.subject ++ " IN (" ++ c.operand.memberList ++ ")")
    | _ => c.draftBinary

def draftRest (cs : List Comparison) : Draft := .chain (cs.map fun c => (c.connective, c.draft))

end Comparison

def Group.draft (g : Group) : Draft :=
  if g.rest.isEmpty then g.first.draft
  else .text "(" ++ g.first.draft ++ Comparison.draftRest g.rest ++ .text ")"

namespace Condition

def draftRest (connective : Connective) (gs : List Group) : Draft :=
  .chain (gs.map fun g => (connective, g.draft))

def draft (p : Condition) : Draft :=
  match p.groups with
  | [] => .text ""
  | g :: rest => g.draft ++ draftRest p.connective rest

end Condition

section Collections

variable {σ : Type} [Sink σ]

def Sink.addAll (s : σ) (ps : List Parameter) : σ := ps.foldl Sink.add s

/-- What a compilation returns and leaves when it starts from the given collection, or none. -/
def Compile.outcome {α : Type} (m : Compile σ α) (s : Option σ) :
    Except MalformedComparison α × Option σ := m.run s

def Template.render (t : Template) : Option σ → String
  | none => t.inline
  | some s => t.bound (Sink.count s)

def Template.bindTo (t : Template) : Option σ → Option σ
  | none => none
  | some s => some (Sink.addAll s (t.parameters (Sink.count s)))

/-- The text that stands in the place of a value, and the collection behind it. -/
def Value.write (v : Value) : Option σ → String × Option σ
  | none => (v.literal, none)
  | some s => ((Sink.next s).text, some (Sink.bind s v).2)

/-- Fills the places one after the other, however the collection counts. -/
def Template.fill : Template → Option σ → String × Option σ
  | .last fragment, s => (fragment, s)
  | .slot fragment v rest, s =>
    let (text, after) := v.write s
    let (tail, s) := rest.fill after
    (fragment ++ text ++ tail, s)

/-- What a compilation along the draft returns and leaves. -/
def Draft.fill (d : Draft) (s : Option σ) : Except MalformedComparison String × Option σ :=
  (match d.fault with
    | none => .ok (d.template.fill s).1
    | some e => .error e,
  (d.template.fill s).2)

/-- The same beside a collection that counts what it gets. -/
def Draft.outcome (d : Draft) (s : Option σ) : Except MalformedComparison String × Option σ :=
  (match d.fault with
    | none => .ok (d.template.render s)
    | some e => .error e,
  d.template.bindTo s)

end Collections

end TypedSql
