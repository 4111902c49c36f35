import TypedSql.Value.Basic

/-! Placeholders, the parameters behind them, and the collections that parameters are added to while
a statement is written. A collection names each bound value after the number of parameters it has,
so that several statements can share one. -/
namespace TypedSql

open Numeric

/-- How a placeholder is marked in SQL. -/
inductive Sigil where
  | colon
  | atSign
  | dollar
  | positional
  deriving DecidableEq, Repr

structure Placeholder where
  name : String
  sigil : Sigil
  deriving DecidableEq, Repr

namespace Placeholder

def positional : Placeholder := ⟨"", .positional⟩

def numbered (n : Nat) : Placeholder := ⟨"P" ++ String.ofList (digits n), .atSign⟩

def text (p : Placeholder) : String :=
  match p.sigil with
  | .colon => ":" ++ p.name
  | .atSign => "@" ++ p.name
  | .dollar => "$" ++ p.name
  | .positional => "?"

end Placeholder

/-- A value and the placeholder that it replaces. -/
structure Parameter where
  placeholder : Placeholder
  value : Value
  deriving DecidableEq, Repr

def Parameter.name (p : Parameter) : String := p.placeholder.text

/-- A collection that parameters are added to. It supplies their storage and nothing else: what is
added for a bound value is always the value as it is, behind the placeholder that the count names. A
collection could put a parameter together in a way of its own; here the default way is kept. -/
class Sink (σ : Type) where
  /-- How many parameters there are, for naming the next one. -/
  count : σ → Nat
  add : σ → Parameter → σ

/-- Adding a parameter adds one to the count. -/
class LawfulSink (σ : Type) [Sink σ] : Prop where
  count_add (s : σ) (p : Parameter) : Sink.count (Sink.add s p) = Sink.count s + 1

namespace Sink

variable {σ : Type} [Sink σ]

def next (s : σ) : Placeholder := .numbered (count s)

def bind (s : σ) (v : Value) : Placeholder × σ := (next s, add s ⟨next s, v⟩)

end Sink

/-- Parameters in the order in which they were added. -/
structure Bindings where
  parameters : List Parameter
  deriving DecidableEq, Repr

namespace Bindings

def empty : Bindings := ⟨[]⟩

def length (b : Bindings) : Nat := b.parameters.length

def add (b : Bindings) (p : Parameter) : Bindings := ⟨b.parameters ++ [p]⟩

def get? (b : Bindings) (name : String) : Option Value :=
  (b.parameters.find? (·.name == name)).map (·.value)

instance : Sink Bindings := ⟨length, add⟩

@[simp] theorem parameters_add (b : Bindings) (p : Parameter) :
    (b.add p).parameters = b.parameters ++ [p] := rfl

@[simp] theorem length_add (b : Bindings) (p : Parameter) : (b.add p).length = b.length + 1 := by
  simp [length, add]

instance : LawfulSink Bindings := ⟨length_add⟩

end Bindings

/-- Parameters of a statement whose numbering starts behind those of others. -/
structure OffsetBindings where
  start : Nat
  added : List Parameter
  deriving DecidableEq, Repr

namespace OffsetBindings

def add (b : OffsetBindings) (p : Parameter) : OffsetBindings := { b with added := b.added ++ [p] }

instance : Sink OffsetBindings := ⟨fun b => b.start + b.added.length, add⟩

instance : LawfulSink OffsetBindings :=
  ⟨fun b p => by simp [Sink.count, Sink.add, add, Nat.add_assoc]⟩

end OffsetBindings

end TypedSql
