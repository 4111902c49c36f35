import TypedSql.Proofs.Command.Engine
import TypedSql.Proofs.Condition.Modes
import TypedSql.Proofs.Condition.Stopping
import TypedSql.Proofs.Parameter.Names
import TypedSql.Proofs.Record

/-! Rows in and out of a table. Each row is inserted by a command of its own, which binds the values
in order and puts the placeholders that this returns in the places of the columns. The records of a
query are then the rows that could be stored, in order. -/
namespace TypedSql

open Numeric

section Binding

variable {σ : Type} [Sink σ]

/-- Binds values in order; the placeholders that this returns. -/
def Sink.bindRow (s : σ) : List Value → List Placeholder × σ
  | [] => ([], s)
  | v :: vs =>
    let (p, next) := bind s v
    let (ps, last) := bindRow next vs
    (p :: ps, last)

theorem Sink.bindRow_eq (s : σ) (vs : List Value) :
    bindRow s vs = ((named s vs).map (·.placeholder), addAll s (named s vs)) := by
  induction vs generalizing s with
  | nil => rfl
  | cons v vs ih =>
    simp only [bindRow, ih]
    rfl

theorem Sink.placeholders_named [LawfulSink σ] (s : σ) (vs : List Value) :
    (named s vs).map (·.placeholder) =
      (List.range' (count s) vs.length).map Placeholder.numbered := by
  induction vs generalizing s with
  | nil => rfl
  | cons v vs ih =>
    have counted : count (bind s v).2 = count s + 1 := LawfulSink.count_add s _
    rw [named, List.map_cons, ih, counted, List.length_cons, List.range'_succ, List.map_cons]
    rfl

theorem Sink.values_named (s : σ) (vs : List Value) : (named s vs).map (·.value) = vs := by
  induction vs generalizing s with
  | nil => rfl
  | cons v vs ih => rw [named, List.map_cons, ih]

end Binding

theorem Placeholder.isNamed_numbered (n : Nat) : (numbered n).IsNamed := by
  have chars : (numbered n).name.toList = 'P' :: digits n := by
    simp [numbered, String.toList_append]
  refine ⟨by simp [numbered], ?_, ?_⟩
  · intro empty
    rw [empty] at chars
    cases chars
  · rw [chars, List.forall_mem_cons]
    exact ⟨rfl, fun c member => by simp [Char.isAlphanum, isDigit_of_mem_digits member]⟩

namespace Value

/-- An unsigned number beyond the signed range. -/
def isTooLarge : Value → Bool
  | .unsigned n => decide (IntType.greatest .i64 < n.val)
  | _ => false

/-- The cell that a value has in a table. -/
def StoredAs (v : Value) (c : Cell) : Prop := ∃ given, v.stored = .ok given ∧ c = given.normalized

theorem stored_eq_error_iff {v : Value} {fault : RangeFault} :
    v.stored = .error fault ↔ v.isTooLarge = true ∧ fault = .tooLarge := by
  cases v with
  | unsigned n =>
    have nonneg : 0 ≤ n.val := n.least_le
    have low : ¬n.val < IntType.least .i64 :=
      Int.not_lt.mpr (Int.le_trans (IntType.least_nonpos .i64) nonneg)
    simp only [stored, isTooLarge, MachineInt.ofInt, dif_neg low, decide_eq_true_eq]
    by_cases high : IntType.greatest .i64 < n.val
    · simp [high, Except.map, eq_comm]
    · simp [high, Except.map]
  | _ => simp [stored, isTooLarge]

end Value

/-- The parameters of the command of a row. -/
def rowParameters (row : List Value) : List Parameter := Sink.named Bindings.empty row

section Parameters

variable (row : List Value)

theorem placeholders_rowParameters :
    (rowParameters row).map (·.placeholder) = (List.range row.length).map Placeholder.numbered := by
  rw [List.range_eq_range']
  exact Sink.placeholders_named Bindings.empty row

theorem names_rowParameters :
    ((rowParameters row).map Parameter.argument).map Prod.fst =
      ((rowParameters row).map (·.placeholder)).map Placeholder.text := by
  simp [Function.comp_def, Parameter.argument, Parameter.name]

theorem nodup_names_rowParameters :
    (((rowParameters row).map Parameter.argument).map Prod.fst).Nodup := by
  rw [names_rowParameters, placeholders_rowParameters, List.map_map]
  apply List.Nodup.map _ List.nodup_range
  intro m n same
  exact Placeholder.numbered_inj.mp (Placeholder.text_eq_numbered_iff.mp same)

theorem mapM_rowParameters :
    ((rowParameters row).map Parameter.argument).mapM Prod.snd = row.mapM Value.stored := by
  calc
    ((rowParameters row).map Parameter.argument).mapM Prod.snd
    _ = (rowParameters row).mapM fun p => p.value.stored := List.mapM_map
    _ = ((rowParameters row).map (·.value)).mapM Value.stored := by
      rw [List.mapM_map]
      rfl
    _ = row.mapM Value.stored := by rw [rowParameters, Sink.values_named]

theorem forall₂_rowParameters {cells : List Cell} (stored : row.mapM Value.stored = .ok cells) :
    List.Forall₂ (fun p c => (p.text, .ok c) ∈ (rowParameters row).map Parameter.argument)
      ((rowParameters row).map (·.placeholder)) cells := by
  rw [← mapM_rowParameters, mapM_eq_ok_iff, List.forall₂_map_left_iff, List.forall₂_iff_zip]
    at stored
  rw [List.forall₂_map_left_iff, List.forall₂_iff_zip]
  refine ⟨stored.1, fun {p c} place => ?_⟩
  rw [← stored.2 place]
  exact List.mem_map_of_mem (List.of_mem_zip place).1

theorem isNamed_rowParameters : ∀ p ∈ (rowParameters row).map (·.placeholder), p.IsNamed := by
  rw [placeholders_rowParameters]
  intro p member
  obtain ⟨n, -, rfl⟩ := List.mem_map.mp member
  exact Placeholder.isNamed_numbered n

theorem length_rowParameters : ((rowParameters row).map (·.placeholder)).length = row.length := by
  rw [placeholders_rowParameters, List.length_map, List.length_range]

theorem name_mem_rowParameters :
    ∀ a ∈ (rowParameters row).map Parameter.argument,
      a.1 ∈ ((rowParameters row).map (·.placeholder)).map Placeholder.text := by
  intro a member
  rw [← names_rowParameters]
  exact List.mem_map_of_mem member

end Parameters

namespace Table

variable {t : Table} {rows : List (List (String × Cell))} {records : List Record}
  {e : ConversionError}

theorem readRows_eq (t : Table) (rows : List (List (String × Cell))) :
    t.readRows rows = rows.mapM t.readRow := by
  induction rows with
  | nil => rfl
  | cons row rest ih => rw [readRows, ih, List.mapM_cons]

/-- The records are one for each row, and each is what the known cells of its row read as. -/
theorem readRows_eq_ok_iff :
    t.readRows rows = .ok records ↔
      List.Forall₂ (fun row r => List.Forall₂ KnownCell.ReadsAs (t.knownCells row) r.fields)
        rows records := by
  simp only [readRows_eq, mapM_eq_ok_iff, readRow_eq_ok_iff]

/-- The error is that of the first known cell that does not read, in the first row that has one. -/
theorem readRows_eq_error_iff :
    t.readRows rows = .error e ↔ KnownCell.FirstError (rows.flatMap t.knownCells) e := by
  have read : t.readRow = fun row => ((t.knownCells row).mapM KnownCell.read).map Record.mk := by
    funext row
    rw [readRow, readFields_eq]
  rw [← KnownCell.mapM_read_eq_error_iff, mapM_flatMap_eq_error_iff, readRows_eq, read,
    mapM_map_eq_error_iff]

end Table

namespace Command

variable {δ : Type} [TableEngine δ]

/-- A row through a command of its own. -/
def insertRow (db : δ) (row : List Value) : Except StatementError Nat × δ :=
  let (ps, b) := Sink.bindRow Bindings.empty row
  execute db (.insert (ps.map Placeholder.text)) b.parameters

/-- Rows one after the other, whatever becomes of those before. -/
def insertRows (db : δ) : List (List Value) → List (Except StatementError Nat) × δ
  | [] => ([], db)
  | row :: rest =>
    let (answer, next) := insertRow db row
    let (answers, last) := insertRows next rest
    (answer :: answers, last)

theorem insertRow_eq (db : δ) (row : List Value) :
    insertRow db row =
      Engine.execute db (.insert (((rowParameters row).map (·.placeholder)).map Placeholder.text))
        ((rowParameters row).map Parameter.argument) := by
  have held : (Sink.addAll Bindings.empty (rowParameters row)).parameters = rowParameters row :=
    Sink.contents_addAll Bindings.parameters_add _ _
  rw [insertRow, Sink.bindRow_eq]
  change Engine.execute db _ ((Sink.addAll Bindings.empty (rowParameters row)).parameters.map _) = _
  rw [held]
  rfl

variable (db : δ) {row : List Value}

/-- A row whose values have cells is stored behind the others. -/
theorem insertRow_stored {cells : List Cell} (width : row.length = (TableEngine.columns db).length)
    (stored : row.mapM Value.stored = .ok cells) :
    ∃ after, insertRow db row = (.ok 1, after) ∧
      TableEngine.columns after = TableEngine.columns db ∧
      TableEngine.rows after = TableEngine.rows db ++ [cells.map Cell.normalized] := by
  rw [insertRow_eq]
  exact TableEngine.execute_insert db (isNamed_rowParameters row)
    ((length_rowParameters row).trans width) (nodup_names_rowParameters row)
    (name_mem_rowParameters row) (forall₂_rowParameters row stored)

/-- A row with a value that has none is not stored, and what was stored stays. -/
theorem insertRow_fault {fault : RangeFault} (width : row.length = (TableEngine.columns db).length)
    (first : row.mapM Value.stored = .error fault) :
    ∃ same, insertRow db row = (.error (.unstorable fault), same) ∧
      TableEngine.columns same = TableEngine.columns db ∧
      TableEngine.rows same = TableEngine.rows db := by
  rw [insertRow_eq]
  rw [← mapM_rowParameters] at first
  exact TableEngine.execute_insert_fault db (isNamed_rowParameters row)
    ((length_rowParameters row).trans width) (name_mem_rowParameters row) first

/-- A row can be stored if no number in it is too large. -/
def isStorable (row : List Value) : Bool := row.all fun v => !v.isTooLarge

/-- The answer to the insertion of a row. -/
def insertAnswer (row : List Value) : Except StatementError Nat :=
  if isStorable row then .ok 1 else .error (.unstorable .tooLarge)

/-- The rows of cells for those of some rows that can be stored. -/
def StoredRows (values : List (List Value)) (cells : List (List Cell)) : Prop :=
  List.Forall₂ (List.Forall₂ Value.StoredAs) (values.filter isStorable) cells

theorem isStorable_of_ok {cells : List Cell} (stored : row.mapM Value.stored = .ok cells) :
    isStorable row = true := by
  rw [isStorable, List.all_eq_true]
  intro v member
  obtain ⟨c, given⟩ := exists_forall₂_iff.mp ⟨cells, mapM_eq_ok_iff.mp stored⟩ v member
  cases large : v.isTooLarge with
  | false => rfl
  | true => cases given.symm.trans (Value.stored_eq_error_iff.mpr ⟨large, rfl⟩)

theorem isStorable_of_error {fault : RangeFault} (first : row.mapM Value.stored = .error fault) :
    isStorable row = false ∧ fault = .tooLarge := by
  obtain ⟨before, v, after, rfl, -, failed⟩ := mapM_eq_error_iff.mp first
  obtain ⟨large, rfl⟩ := Value.stored_eq_error_iff.mp failed
  exact ⟨by simp [isStorable, large], rfl⟩

theorem exists_insertRow (width : row.length = (TableEngine.columns db).length) :
    ∃ after stored, insertRow db row = (insertAnswer row, after) ∧
      TableEngine.columns after = TableEngine.columns db ∧
      TableEngine.rows after = TableEngine.rows db ++ stored ∧ StoredRows [row] stored := by
  cases given : row.mapM Value.stored with
  | ok cells =>
    obtain ⟨after, inserted, columns, rows⟩ := insertRow_stored db width given
    have storable := isStorable_of_ok given
    refine ⟨after, [cells.map Cell.normalized], ?_, columns, rows, ?_⟩
    · rw [inserted, insertAnswer, if_pos storable]
    · rw [StoredRows, List.filter_cons_of_pos storable, List.filter_nil]
      apply List.Forall₂.cons _ .nil
      rw [List.forall₂_map_right_iff]
      exact (mapM_eq_ok_iff.mp given).imp fun v c stored => ⟨c, stored, rfl⟩
  | error fault =>
    obtain ⟨same, refused, columns, rows⟩ := insertRow_fault db width given
    obtain ⟨unstorable, rfl⟩ := isStorable_of_error given
    refine ⟨same, [], ?_, columns, by rw [rows, List.append_nil], ?_⟩
    · rw [refused, insertAnswer, if_neg (by simp [unstorable])]
    · rw [StoredRows, List.filter_cons_of_neg (by simp [unstorable])]
      exact .nil

theorem exists_insertRows {values : List (List Value)}
    (width : ∀ row ∈ values, row.length = (TableEngine.columns db).length) :
    ∃ after stored, insertRows db values = (values.map insertAnswer, after) ∧
      TableEngine.columns after = TableEngine.columns db ∧
      TableEngine.rows after = TableEngine.rows db ++ stored ∧ StoredRows values stored := by
  induction values generalizing db with
  | nil => exact ⟨db, [], rfl, rfl, (List.append_nil _).symm, .nil⟩
  | cons row rest ih =>
    obtain ⟨first, others⟩ := List.forall_mem_cons.mp width
    obtain ⟨next, head, inserted, columns, rows, storedHead⟩ := exists_insertRow db first
    rw [← columns] at others
    obtain ⟨after, tail, inserts, columns', rows', storedTail⟩ := ih next others
    refine ⟨after, head ++ tail, ?_, columns'.trans columns, ?_, ?_⟩
    · simp only [insertRows, inserted, inserts, List.map_cons]
    · rw [rows', rows, List.append_assoc]
    · rw [StoredRows, ← List.singleton_append, List.filter_append]
      exact List.rel_append storedHead storedTail

theorem query_selectAll (t : Table) :
    query db t .selectAll [] =
      (t.readRows ((TableEngine.rows db).map ((TableEngine.columns db).zip ·))).mapError
        .conversion := by
  rw [query, List.map_nil, TableEngine.query_selectAll]
  rfl

/-- The cells of rows that a table knows, under the names of the columns. -/
def knownIn (t : Table) (columns : List String) (cells : List Cell) : List KnownCell :=
  t.knownCells (columns.zip cells)

/-- Every row is stored that has no number too large for a cell, and the others are refused without
a trace. A query then has a record for each row, in order, of what its known cells read as; or it
has the error of the first known cell that does not read, and no records. -/
theorem query_insertRows (values : List (List Value))
    (width : ∀ row ∈ values, row.length = (TableEngine.columns db).length) :
    ∃ after stored, insertRows db values = (values.map insertAnswer, after) ∧
      StoredRows values stored ∧ TableEngine.rows after = TableEngine.rows db ++ stored ∧
      ∀ t : Table,
        (∀ records, query after t .selectAll [] = .ok records ↔
          List.Forall₂
            (fun cells r =>
              List.Forall₂ KnownCell.ReadsAs (knownIn t (TableEngine.columns db) cells) r.fields)
            (TableEngine.rows db ++ stored) records) ∧
        ∀ e, query after t .selectAll [] = .error e ↔
          ∃ cause, e = .conversion cause ∧
            KnownCell.FirstError
              ((TableEngine.rows db ++ stored).flatMap (knownIn t (TableEngine.columns db)))
              cause := by
  obtain ⟨after, stored, inserted, columns, rows, kept⟩ := exists_insertRows db width
  refine ⟨after, stored, inserted, kept, rows, fun t => ⟨fun records => ?_, fun e => ?_⟩⟩
  · rw [query_selectAll, mapError_eq_ok_iff, Table.readRows_eq_ok_iff, List.forall₂_map_left_iff,
      rows, columns]
    rfl
  · rw [query_selectAll, mapError_eq_error_iff]
    simp only [Table.readRows_eq_error_iff, List.flatMap_map, rows, columns]
    exact exists_congr fun cause => and_comm

/-- The first row has a number that is none, and the second one that is too large. -/
def mixedRows : List (List Value) :=
  [[.text " 7", .real ⟨BinaryFormat.double.infinityCode + 1, by decide⟩],
    [.bool true, .unsigned ⟨9223372036854775808, by decide, by decide⟩],
    [.bool true, .text "x"]]

def shorts : Table :=
  { Table.empty "t" with columns := [Column.plain "c0" ⟨.int .i16, false⟩] }

def doubles : Table :=
  { Table.empty "t" with columns := [Column.plain "c1" ⟨.double, true⟩] }

theorem query_insertRows_mixed :
    ∃ after : Database,
      insertRows ⟨2, []⟩ mixedRows = ([.ok 1, .error (.unstorable .tooLarge), .ok 1], after) ∧
      query after shorts .selectAll [] =
        .ok [⟨[("c0", .integer ⟨7, by decide, by decide⟩)]⟩,
          ⟨[("c0", .integer ⟨1, by decide, by decide⟩)]⟩] ∧
      query after doubles .selectAll [] =
        .error (.conversion (.inColumn "c1" (.floatText "x" "f64" .invalid))) := by
  have width : ∀ row ∈ mixedRows,
      row.length = (TableEngine.columns (⟨2, []⟩ : Database)).length := by decide
  obtain ⟨after, stored, inserted, -, rows, reads⟩ := query_insertRows (⟨2, []⟩ : Database) _ width
  have computed : insertRows (⟨2, []⟩ : Database) mixedRows =
      ([.ok 1, .error (.unstorable .tooLarge), .ok 1],
        ⟨2, [[.text " 7", .null], [.integer ⟨1, by decide, by decide⟩, .text "x"]]⟩) := by rfl
  obtain rfl := congrArg Prod.snd (inserted.symm.trans computed)
  obtain rfl : [[.text " 7", .null], [.integer ⟨1, by decide, by decide⟩, .text "x"]] = stored :=
    rows
  refine ⟨_, computed, ((reads shorts).1 _).mpr ?_, ((reads doubles).2 _).mpr ?_⟩
  · exact .cons (.cons ⟨rfl, by rfl⟩ .nil) (.cons (.cons ⟨rfl, by rfl⟩ .nil) .nil)
  · refine ⟨_, rfl, [⟨"c1", .double, .null⟩], ⟨"c1", .double, .text "x"⟩, [], _, by rfl, ?_,
      by rfl, rfl⟩
    exact List.forall_mem_singleton.mpr ⟨("c1", .null), rfl, by rfl⟩

end Command

end TypedSql
