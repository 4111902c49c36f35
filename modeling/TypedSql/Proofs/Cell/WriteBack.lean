import Mathlib.Logic.Relation
import TypedSql.Cell.ReadCategory
import TypedSql.Proofs.Cell.Storage

/-! Reading a cell by category, storing the value and reading it again. The first reading may turn a
text or a real into a number; from then on the value stays, however often it is stored. -/
namespace TypedSql

open Numeric

namespace Value

theorem Same.ofScalar {type : ScalarType} {x y : type.Carrier} (same : type.Same x y) :
    (Value.ofScalar type x).Same (Value.ofScalar type y) := by
  cases type with
  | single =>
    change (Value.real _).Same (Value.real _)
    rw [Binary.Same.convert_eq .double same]
    exact .refl _
  | double => exact same
  | decimal => exact same.1
  | bool | int | char | text | bytes | dateTime | uuid =>
    obtain rfl : x = y := same
    exact .refl _

end Value

namespace Category

variable {category : Category} {type : ScalarType}

theorem ne_dateTime_of_readType? (h : category.readType? = some type) : type ≠ .dateTime := by
  unfold readType? at h
  split at h <;> cases h <;> nofun

/-- No category is read as the widest unsigned numbers, which alone may have no cell. -/
theorem storable_of_readType? (h : category.readType? = some type) (x : type.Carrier) :
    type.Storable x := by
  unfold readType? at h
  split at h <;> cases h <;> trivial

end Category

namespace Cell

variable {category : Category} {c c' : Cell} {v : Value}

theorem read_of_ne_null (present : c ≠ .null) :
    read category c =
      match category.readType? with
      | some type => (readAs type c).map (Value.ofScalar type)
      | none => .ok (Value.ofCell c) := by
  cases c with
  | null => exact absurd rfl present
  | integer | real | text | blob => rfl

/-- What is read has a cell, from which it is read again. -/
theorem exists_stored_of_read (h : read category c = .ok v) :
    ∃ c', v.stored = .ok c' ∧ ∃ w, read category c' = .ok w ∧ v.Same w := by
  by_cases absent : c = .null
  · subst absent
    cases h
    exact ⟨.null, rfl, .null, rfl, .refl _⟩
  · rw [read_of_ne_null absent] at h
    cases typed : category.readType? with
    | none =>
      rw [typed] at h
      cases h
      refine ⟨c, Value.stored_ofCell c, Value.ofCell c, ?_, .refl _⟩
      rw [read_of_ne_null absent, typed]
    | some type =>
      rw [typed] at h
      dsimp only at h
      obtain ⟨x, rfl⟩ : ∃ x, Value.ofScalar type x = v := by
        cases outcome : readAs type c with
        | error fault =>
          rw [outcome] at h
          cases h
        | ok x =>
          rw [outcome] at h
          exact ⟨x, Except.ok.inj h⟩
      obtain ⟨c', held⟩ := exists_holds (Category.ne_dateTime_of_readType? typed)
        (Category.storable_of_readType? typed x)
      obtain ⟨y, again, same⟩ := held.read
      refine ⟨c', held.stored, Value.ofScalar type y, ?_, Value.Same.ofScalar same⟩
      rw [read_of_ne_null held.present, typed]
      dsimp only
      rw [again]
      rfl

/-- A cell is read by category, and the value is stored in place of it. -/
def WrittenBack (category : Category) (c c' : Cell) : Prop :=
  ∃ v, read category c = .ok v ∧ v.stored = .ok c'

theorem read_of_writtenBack (h : read category c = .ok v)
    (steps : Relation.ReflTransGen (WrittenBack category) c c') :
    ∃ w, read category c' = .ok w ∧ v.Same w := by
  induction steps with
  | refl => exact ⟨v, h, .refl v⟩
  | tail _ step ih =>
    obtain ⟨w, read, same⟩ := ih
    obtain ⟨w', read', stored⟩ := step
    obtain rfl : w = w' := Except.ok.inj (read.symm.trans read')
    obtain ⟨c'', stored', u, again, same'⟩ := exists_stored_of_read read
    obtain rfl := Except.ok.inj (stored.symm.trans stored')
    exact ⟨u, again, same.trans same'⟩

/-- What was read from a cell can be stored and read again, any number of times. It is always there
to be stored once more, and it is always the value that was read first. -/
theorem read_stable_of_writtenBack (category : Category) (c : Cell) (v : Value)
    (h : read category c = .ok v) :
    (∃ c', v.stored = .ok c' ∧ ∃ w, read category c' = .ok w ∧ v.Same w) ∧
      ∀ c', Relation.ReflTransGen (WrittenBack category) c c' →
        (∃ w, read category c' = .ok w ∧ v.Same w) ∧ ∃ c'', WrittenBack category c' c'' := by
  refine ⟨exists_stored_of_read h, ?_⟩
  intro c' steps
  obtain ⟨w, again, same⟩ := read_of_writtenBack h steps
  obtain ⟨c'', stored, -⟩ := exists_stored_of_read again
  exact ⟨⟨w, again, same⟩, c'', w, again, stored⟩

/-- A number with blanks around it and a mark between its digits is stored without these. -/
theorem read_stable_of_writtenBack_padded :
    let v := Value.decimal ⟨false, 1250, 2, by decide, by decide⟩
    read .decimal (.text " 1_2.50 ") = .ok v ∧
      v.stored = .ok (.text "12.50") ∧
      ∀ c', Relation.ReflTransGen (WrittenBack .decimal) (.text " 1_2.50 ") c' →
        ∃ w, read .decimal c' = .ok w ∧ v.Same w := by
  intro v
  have first : read .decimal (.text " 1_2.50 ") = .ok v := rfl
  obtain ⟨-, stable⟩ := read_stable_of_writtenBack .decimal (.text " 1_2.50 ") v first
  exact ⟨first, rfl, fun c' steps => (stable c' steps).1⟩

end Cell

end TypedSql
