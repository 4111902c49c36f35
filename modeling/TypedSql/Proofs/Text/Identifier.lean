import TypedSql.Text.Delimited
import TypedSql.Proofs.Text.Trim

/-! Delimited identifiers read back. A name comes to an identifier by its core, which is what is left
of it without the delimiters on its edges: one core has one identifier, and an identifier is its own.
Inside an identifier a closing delimiter has to be doubled, and it is not: so the core is read back
exactly when it holds none. -/
namespace TypedSql.Text.Delimiters

/-- Reads an identifier behind its opening delimiter, up to the first closing one that is not
doubled. A doubled one stands for one. -/
def inside? (closing : Char) : List Char → Option (List Char × List Char)
  | [] => none
  | [c] => if c = closing then some ([], []) else none
  | c :: e :: rest =>
    if c ≠ closing then (inside? closing (e :: rest)).map fun (name, tail) => (c :: name, tail)
    else if e = closing then (inside? closing rest).map fun (name, tail) => (closing :: name, tail)
    else some ([], e :: rest)

/-- Reads one identifier from the front of a text. -/
def scan? (d : Delimiters) : List Char → Option (List Char × List Char)
  | [] => none
  | c :: rest => if c = d.opening then inside? d.closing rest else none

section Reading

variable {closing : Char} {cs name tail : List Char}

theorem inside?_cons_of_ne {c : Char} (other : c ≠ closing) (cs : List Char) :
    inside? closing (c :: cs) = (inside? closing cs).map fun (name, tail) => (c :: name, tail) := by
  cases cs with
  | nil => simp [inside?, other]
  | cons e rest => rw [inside?, if_pos other]

/-- A name is read up to its end, unless one more closing delimiter follows. -/
theorem inside?_append (plain : closing ∉ name) (stop : tail.head? ≠ some closing) :
    inside? closing (name ++ closing :: tail) = some (name, tail) := by
  induction name with
  | nil =>
    cases tail with
    | nil => simp [inside?]
    | cons e tail =>
      have other : e ≠ closing := fun same => stop (congrArg some same)
      simp [inside?, other]
  | cons c name ih =>
    obtain ⟨other, rest⟩ := not_or.mp (List.mem_cons.not.mp plain)
    rw [List.cons_append, inside?_cons_of_ne (Ne.symm other), ih rest]
    rfl

/-- Each closing delimiter in a name that is read takes two characters, and one more ends it. -/
theorem length_of_inside? (read : inside? closing cs = some (name, tail)) :
    cs.length = name.length + name.count closing + 1 + tail.length := by
  fun_induction inside? closing cs generalizing name with
  | case1 => cases read
  | case2 =>
    cases read
    rfl
  | case3 => cases read
  | case4 c e rest other ih =>
    obtain ⟨⟨name, tail⟩, inner, eq⟩ := Option.map_eq_some_iff.mp read
    cases eq
    rw [List.length_cons, ih inner, List.length_cons, List.count_cons_of_ne other]
    omega
  | case5 c rest _ ih =>
    obtain ⟨⟨name, tail⟩, inner, eq⟩ := Option.map_eq_some_iff.mp read
    cases eq
    rw [List.length_cons, List.length_cons, ih inner, List.length_cons, List.count_cons_self]
    omega
  | case6 =>
    cases read
    simp only [List.length_cons, List.length_nil, List.count_nil]
    omega

/-- A name in front of its end is read as itself if and only if nothing in it has to be doubled. -/
theorem inside?_append_iff :
    inside? closing (name ++ [closing]) = some (name, []) ↔ closing ∉ name := by
  refine ⟨fun read => ?_, fun plain => inside?_append plain nofun⟩
  have length := length_of_inside? read
  rw [List.length_append, List.length_singleton, List.length_nil] at length
  exact List.count_eq_zero.mp (by omega)

end Reading

variable {d : Delimiters} {a b name : String}

theorem toList_delimit (d : Delimiters) (name : String) :
    (d.delimit name).toList = d.opening :: (d.bare name.toList ++ [d.closing]) :=
  String.toList_ofList

theorem delimit_eq_iff : d.delimit a = d.delimit b ↔ d.bare a.toList = d.bare b.toList := by
  rw [← String.toList_inj, toList_delimit, toList_delimit, List.cons_inj_right,
    List.append_cancel_right_eq]

/-- The fresh delimiters are on the edges. -/
theorem bare_delimit (d : Delimiters) (name : String) :
    d.bare (d.delimit name).toList = d.bare name.toList := by
  have opening : ∀ c ∈ [d.opening], d.isEdge c = true := by simp [isEdge]
  have closing : ∀ c ∈ [d.closing], d.isEdge c = true := by simp [isEdge]
  have outer : d.bare ([d.opening] ++ d.bare name.toList ++ [d.closing]) =
      d.bare (d.bare name.toList) := trimBoth_append opening closing
  rw [toList_delimit, ← List.cons_append, ← List.singleton_append, outer]
  exact trimBoth_trimBoth name.toList

theorem scan?_delimit_iff :
    d.scan? (d.delimit name).toList = some (d.bare name.toList, []) ↔
      d.closing ∉ d.bare name.toList := by
  rw [toList_delimit, scan?, if_pos rfl, inside?_append_iff]

/-- What delimiting does to a name, between any two delimiters. An identifier is its own, and two
names have one identifier if and only if they have one core. The whole identifier is read back as
the core of its name if and only if the core is free of the closing delimiter. -/
theorem delimit_reads_back (d : Delimiters) (a b : String) :
    d.delimit (d.delimit a) = d.delimit a ∧
      (d.delimit a = d.delimit b ↔
        ∃ core, TrimsTo d.isEdge a.toList core ∧ TrimsTo d.isEdge b.toList core) ∧
      ∃ core, TrimsTo d.isEdge a.toList core ∧
        (d.scan? (d.delimit a).toList = some (core, []) ↔ d.closing ∉ core) := by
  refine ⟨?_, ?_, d.bare a.toList, trimBoth_eq_iff.mp rfl, scan?_delimit_iff⟩
  · rw [delimit_eq_iff, bare_delimit]
  · simp only [delimit_eq_iff, ← trimBoth_eq_iff, bare]
    exact ⟨fun same => ⟨_, same, rfl⟩, fun ⟨_, first, second⟩ => first.trans second.symm⟩

/-- A doubled delimiter inside a name is read as one. -/
example : backtick.scan? (backtick.delimit "`a``b").toList = some (['a', '\x60', 'b'], []) := by
  decide

end TypedSql.Text.Delimiters
