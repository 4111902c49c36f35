import TypedSql.Table.Basic
import TypedSql.Proofs.Sql.Lexeme

/-! The structure of a statement that creates a table, read from its text: a line for each column and
each constraint, with commas between the lines, and in a column one clause after the other. What a
reader does not know it does not pass over, so a text with anything else in it is not read. -/
namespace TypedSql.Sql

open Text

/-- What is said about a column behind its type. -/
inductive ColumnClause where
  | primaryKey
  | autoincrement
  | unique
  | collate (name : String)
  | notNull
  | default (text : String) (quoted : Bool)
  deriving DecidableEq, Repr

inductive Line where
  | column (name type : String) (clauses : List ColumnClause)
  | primaryKey (names : List String)
  | unique (names : List String)
  | foreignKey (names : List String) (parent : String) (parentNames : List String)
      (onUpdate onDelete : Option ReferentialAction)
  deriving DecidableEq, Repr

structure TableText where
  /-- The words in front of the name. -/
  opening : List String
  name : String
  lines : List Line
  /-- The words behind the lines. -/
  options : List String
  deriving DecidableEq, Repr

abbrev LexemeReader (α : Type) := List Lexeme → Option (α × List Lexeme)

def name? : LexemeReader String
  | .name s :: rest => some (s, rest)
  | _ => none

section Lists

variable {α : Type}

/-- At most `count` elements with commas between them, and the closing parenthesis. -/
def elements? (element : LexemeReader α) : Nat → LexemeReader (List α)
  | 0, _ => none
  | count + 1, ls =>
    match element ls with
    | some (a, .comma :: rest) =>
      (elements? element count rest).map fun (more, tail) => (a :: more, tail)
    | some (a, .closing :: rest) => some ([a], rest)
    | _ => none

/-- Elements between parentheses, or none. -/
def list? (element : LexemeReader α) : LexemeReader (List α)
  | .opening :: .closing :: rest => some ([], rest)
  | .opening :: rest => elements? element rest.length rest
  | _ => none

end Lists

def columnClauses : List Lexeme → List ColumnClause × List Lexeme
  | .word "PRIMARY" :: .word "KEY" :: rest =>
    let (more, tail) := columnClauses rest
    (.primaryKey :: more, tail)
  | .word "AUTOINCREMENT" :: rest =>
    let (more, tail) := columnClauses rest
    (.autoincrement :: more, tail)
  | .word "UNIQUE" :: rest =>
    let (more, tail) := columnClauses rest
    (.unique :: more, tail)
  | .word "COLLATE" :: .word name :: rest =>
    let (more, tail) := columnClauses rest
    (.collate name :: more, tail)
  | .word "NOT" :: .word "NULL" :: rest =>
    let (more, tail) := columnClauses rest
    (.notNull :: more, tail)
  | .word "DEFAULT" :: .word text :: rest =>
    let (more, tail) := columnClauses rest
    (.default text false :: more, tail)
  | .word "DEFAULT" :: .number text :: rest =>
    let (more, tail) := columnClauses rest
    (.default text false :: more, tail)
  | .word "DEFAULT" :: .quoted text :: rest =>
    let (more, tail) := columnClauses rest
    (.default text true :: more, tail)
  | rest => ([], rest)

def reaction? : LexemeReader ReferentialAction
  | .word "NO" :: .word "ACTION" :: rest => some (.noAction, rest)
  | .word "RESTRICT" :: rest => some (.restrict, rest)
  | .word "CASCADE" :: rest => some (.cascade, rest)
  | .word "SET" :: .word "NULL" :: rest => some (.setNull, rest)
  | .word "SET" :: .word "DEFAULT" :: rest => some (.setDefault, rest)
  | _ => none

/-- The reaction to an event, if one is given next. -/
def onEvent? (event : String) : LexemeReader (Option ReferentialAction)
  | .word "ON" :: .word e :: rest =>
    if e = event then (reaction? rest).map fun (a, tail) => (some a, tail)
    else some (none, .word "ON" :: .word e :: rest)
  | rest => some (none, rest)

/-- A foreign key behind its first words. -/
def foreignKey? : LexemeReader Line := fun ls => do
  let (names, rest) ← list? name? ls
  match rest with
  | .word "REFERENCES" :: .name parent :: rest => do
    let (parentNames, rest) ← list? name? rest
    let (onUpdate, rest) ← onEvent? "UPDATE" rest
    let (onDelete, rest) ← onEvent? "DELETE" rest
    some (.foreignKey names parent parentNames onUpdate onDelete, rest)
  | _ => none

def line? : LexemeReader Line
  | .name name :: .word type :: rest =>
    let (said, tail) := columnClauses rest
    some (.column name type said, tail)
  | .word "PRIMARY" :: .word "KEY" :: rest =>
    (list? name? rest).map fun (names, tail) => (.primaryKey names, tail)
  | .word "UNIQUE" :: rest => (list? name? rest).map fun (names, tail) => (.unique names, tail)
  | .word "FOREIGN" :: .word "KEY" :: rest => foreignKey? rest
  | _ => none

/-- The words up to the next lexeme of another kind. -/
def words : List Lexeme → List String × List Lexeme
  | .word s :: rest =>
    let (more, tail) := words rest
    (s :: more, tail)
  | rest => ([], rest)

def openings : List (List String) :=
  [["CREATE", "TABLE"], ["CREATE", "TEMP", "TABLE"]].flatMap fun ws =>
    [ws, ws ++ ["IF", "NOT", "EXISTS"]]

def tableOptions : List (List String) :=
  [[], ["STRICT"], ["WITHOUT", "ROWID"], ["WITHOUT", "ROWID", "STRICT"]]

/-- The statement that a whole text is. -/
def createTable? (text : String) : Option TableText := do
  let ls ← lexemes? text.toList
  let (opening, ls) := words ls
  match ls with
  | .name name :: ls => do
    let (lines, ls) ← list? line? ls
    let (options, ls) := words ls
    if opening ∈ openings ∧ options ∈ tableOptions ∧ ls = [.semicolon] then
      some ⟨opening, name, lines, options⟩
    else none
  | _ => none

section Writing

def ColumnClause.lexemes : ColumnClause → List Lexeme
  | .primaryKey => [.word "PRIMARY", .word "KEY"]
  | .autoincrement => [.word "AUTOINCREMENT"]
  | .unique => [.word "UNIQUE"]
  | .collate name => [.word "COLLATE", .word name]
  | .notNull => [.word "NOT", .word "NULL"]
  | .default text quoted => [.word "DEFAULT", if quoted then .quoted text else .ofRun text]

/-- Pieces between parentheses, with commas between them. -/
def parenthesized (pieces : List (List Lexeme)) : List Lexeme :=
  .opening :: ([Lexeme.comma].intercalate pieces ++ [.closing])

def nameList (names : List String) : List Lexeme :=
  parenthesized (names.map fun name => [.name name])

def reactionWords : ReferentialAction → List String
  | .noAction => ["NO", "ACTION"]
  | .restrict => ["RESTRICT"]
  | .cascade => ["CASCADE"]
  | .setNull => ["SET", "NULL"]
  | .setDefault => ["SET", "DEFAULT"]

def reactionLexemes (event : String) (a : Option ReferentialAction) : List Lexeme :=
  a.elim [] fun a => ("ON" :: event :: reactionWords a).map .word

def Line.lexemes : Line → List Lexeme
  | .column name type clauses => .name name :: .word type :: clauses.flatMap ColumnClause.lexemes
  | .primaryKey names => .word "PRIMARY" :: .word "KEY" :: nameList names
  | .unique names => .word "UNIQUE" :: nameList names
  | .foreignKey names parent parentNames onUpdate onDelete =>
    .word "FOREIGN" :: .word "KEY" :: (nameList names ++ .word "REFERENCES" :: .name parent ::
      (nameList parentNames ++
        (reactionLexemes "UPDATE" onUpdate ++ reactionLexemes "DELETE" onDelete)))

def TableText.lexemes (s : TableText) : List Lexeme :=
  s.opening.map .word ++ .name s.name :: (parenthesized (s.lines.map Line.lexemes) ++
    (s.options.map .word ++ [.semicolon]))

end Writing

/-- Another line follows, or the parenthesis behind the last one. -/
def EndsLine (ls : List Lexeme) : Prop := ls.head? = some .comma ∨ ls.head? = some .closing

section Elements

variable {α β : Type} {element : LexemeReader α} {write : β → List Lexeme} {value : β → α}
  {bs : List β} {rest : List Lexeme}

theorem elements?_intercalate {count : Nat} (nonempty : bs ≠ []) (le : bs.length ≤ count)
    (takes : ∀ b ∈ bs, ∀ rest, EndsLine rest → element (write b ++ rest) = some (value b, rest)) :
    elements? element count ([Lexeme.comma].intercalate (bs.map write) ++ .closing :: rest) =
      some (bs.map value, rest) := by
  induction bs generalizing count with
  | nil => exact absurd rfl nonempty
  | cons b bs ih =>
    obtain _ | count := count
    · cases le
    · have first := takes b List.mem_cons_self
      cases bs with
      | nil => simp [elements?, first (.closing :: rest) (Or.inr rfl)]
      | cons c bs =>
        have more := ih (List.cons_ne_nil c bs) (Nat.le_of_succ_le_succ le)
          fun d member => takes d (List.mem_cons_of_mem b member)
        rw [List.map_cons] at more ⊢
        rw [List.map_cons, List.intercalate_cons_cons, List.append_assoc, List.append_assoc,
          List.singleton_append, elements?, first _ (Or.inl rfl)]
        simp only [more, Option.map_some, List.map_cons]

theorem list?_parenthesized
    (takes : ∀ b ∈ bs, ∀ rest, EndsLine rest → element (write b ++ rest) = some (value b, rest))
    (begins : ∀ b ∈ bs, ∃ l ls, write b = l :: ls ∧ l ≠ .closing) :
    list? element (parenthesized (bs.map write) ++ rest) = some (bs.map value, rest) := by
  cases bs with
  | nil => rfl
  | cons b bs =>
    obtain ⟨l, ls, begin, other⟩ := begins b List.mem_cons_self
    let body := [Lexeme.comma].intercalate ((b :: bs).map write) ++ .closing :: rest
    have le : (b :: bs).length ≤ body.length := by
      have long := length_le_length_intercalate Lexeme.comma ((b :: bs).map write)
      simp only [body, List.length_append, List.length_map, List.length_cons] at long ⊢
      omega
    have inner : elements? element body.length body = some ((b :: bs).map value, rest) :=
      elements?_intercalate (List.cons_ne_nil b bs) le takes
    rw [parenthesized, List.cons_append, List.append_assoc, List.singleton_append]
    obtain ⟨more, shape⟩ :
        ∃ more, [Lexeme.comma].intercalate ((b :: bs).map write) = l :: more := by
      rw [List.map_cons, intercalate_cons, begin]
      exact ⟨_, List.cons_append⟩
    simp only [body, shape, List.cons_append] at inner ⊢
    unfold list?
    split
    case h_1 same => exact absurd (List.cons.inj (List.cons.inj same).2).1 other
    case h_2 same =>
      obtain rfl := (List.cons.inj same).2
      exact inner
    case h_3 general => exact absurd rfl (general _)

theorem list?_nameList (names : List String) (rest : List Lexeme) :
    list? name? (nameList names ++ rest) = some (names, rest) := by
  have read : list? name? (nameList names ++ rest) = some (names.map id, rest) :=
    list?_parenthesized (fun _ _ _ _ => rfl) fun name _ => ⟨.name name, [], rfl, nofun⟩
  rwa [List.map_id] at read

end Elements

section Lines

variable {rest : List Lexeme}

theorem EndsLine.columnClauses_eq (ends : EndsLine rest) : columnClauses rest = ([], rest) := by
  obtain _ | ⟨l, rest⟩ := rest
  · rfl
  · rcases ends with same | same
    all_goals
      obtain rfl := Option.some.inj same
      rfl

theorem columnClauses_cons (c : ColumnClause) (rest : List Lexeme) :
    columnClauses (c.lexemes ++ rest) = (c :: (columnClauses rest).1, (columnClauses rest).2) := by
  cases c with
  | default text quoted =>
    cases quoted with
    | true => rfl
    | false =>
      cases named : text.toList.all isNameChar with
      | true => simp [ColumnClause.lexemes, Lexeme.ofRun, named, columnClauses]
      | false => simp [ColumnClause.lexemes, Lexeme.ofRun, named, columnClauses]
  | primaryKey | autoincrement | unique | collate | notNull => rfl

theorem columnClauses_flatMap (cs : List ColumnClause) (ends : EndsLine rest) :
    columnClauses (cs.flatMap ColumnClause.lexemes ++ rest) = (cs, rest) := by
  induction cs with
  | nil => exact ends.columnClauses_eq
  | cons c cs ih => rw [List.flatMap_cons, List.append_assoc, columnClauses_cons, ih]

theorem reaction?_words (a : ReferentialAction) (rest : List Lexeme) :
    reaction? ((reactionWords a).map .word ++ rest) = some (a, rest) := by
  cases a <;> rfl

theorem onEvent?_lexemes {event : String} (a : Option ReferentialAction)
    (other : ∀ tail, rest ≠ .word "ON" :: .word event :: tail) :
    onEvent? event (reactionLexemes event a ++ rest) = some (a, rest) := by
  cases a with
  | some a =>
    have read := reaction?_words a rest
    simp [reactionLexemes, onEvent?, read]
  | none =>
    rw [reactionLexemes, Option.elim_none, List.nil_append]
    unfold onEvent?
    split
    case h_1 e tail =>
      have apart : e ≠ event := by
        rintro rfl
        exact other tail rfl
      rw [if_neg apart]
    case h_2 => rfl

theorem EndsLine.ne_on (ends : EndsLine rest) (event : String) (tail : List Lexeme) :
    rest ≠ .word "ON" :: .word event :: tail := by
  rintro rfl
  rcases ends with same | same <;> cases same

theorem line?_lexemes (line : Line) (ends : EndsLine rest) :
    line? (line.lexemes ++ rest) = some (line, rest) := by
  cases line with
  | column name type said => simp [Line.lexemes, line?, columnClauses_flatMap said ends]
  | primaryKey names => simp [Line.lexemes, line?, list?_nameList]
  | unique names => simp [Line.lexemes, line?, list?_nameList]
  | foreignKey names parent parentNames onUpdate onDelete =>
    have deleted := onEvent?_lexemes onDelete (ends.ne_on "DELETE")
    have updated : onEvent? "UPDATE" (reactionLexemes "UPDATE" onUpdate ++
        (reactionLexemes "DELETE" onDelete ++ rest)) =
        some (onUpdate, reactionLexemes "DELETE" onDelete ++ rest) := by
      refine onEvent?_lexemes onUpdate fun tail same => ?_
      cases onDelete with
      | none => exact ends.ne_on "UPDATE" tail same
      | some a => simp [reactionLexemes] at same
    simp [Line.lexemes, line?, foreignKey?, list?_nameList, updated, deleted]

theorem words_append (ws : List String) (stop : ∀ s, rest.head? ≠ some (.word s)) :
    words (ws.map .word ++ rest) = (ws, rest) := by
  induction ws with
  | nil =>
    obtain _ | ⟨l, rest⟩ := rest
    · rfl
    · cases l with
      | word s => exact absurd rfl (stop s)
      | _ => rfl
  | cons w ws ih => simp [words, ih]

/-- A text that spells the lexemes of a statement is read as it. -/
theorem createTable?_eq {text : String} {s : TableText}
    (spells : lexemes? text.toList = some s.lexemes) (opening : s.opening ∈ openings) (options : s.options ∈ tableOptions) :
    createTable? text = some s := by
  let back := s.options.map Lexeme.word ++ [.semicolon]
  let body := parenthesized (s.lines.map Line.lexemes) ++ back
  have front : words s.lexemes = (s.opening, .name s.name :: body) := words_append s.opening nofun
  have inner : list? line? body = some (s.lines.map id, back) :=
    list?_parenthesized (fun line _ _ ends => line?_lexemes line ends) fun line _ => by
      cases line <;> exact ⟨_, _, rfl, nofun⟩
  have last : words back = (s.options, [.semicolon]) := words_append s.options nofun
  simp [createTable?, spells, front, inner, last, opening, options]

end Lines

end TypedSql.Sql
