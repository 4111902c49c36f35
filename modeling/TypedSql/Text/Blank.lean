/-! Cutting unwanted characters from the two ends of a text, and the characters of the Unicode
property `White_Space`, by which texts are trimmed. The zero width space and the byte order mark are
not in it. -/
namespace TypedSql.Text

/-- What is left of a text when both ends have lost every leading character in `p`. -/
def trimBoth (p : Char → Bool) (cs : List Char) : List Char :=
  ((cs.dropWhile p).reverse.dropWhile p).reverse

/-- A text that starts and ends outside `p` is its own middle. -/
theorem trimBoth_eq_self {p : Char → Bool} {cs : List Char}
    (first : cs.dropWhile p = cs) (last : cs.reverse.dropWhile p = cs.reverse) :
    trimBoth p cs = cs := by
  rw [trimBoth, first, last, List.reverse_reverse]

/-- Nothing is cut from a text without unwanted characters. -/
theorem trimBoth_of_forall {p : Char → Bool} {cs : List Char} (outside : ∀ c ∈ cs, p c = false) :
    trimBoth p cs = cs := by
  have kept : ∀ ds : List Char, (∀ c ∈ ds, p c = false) → ds.dropWhile p = ds := by
    intro ds outside
    cases ds with
    | nil => rfl
    | cons d ds => exact List.dropWhile_cons_of_neg (by simp [outside d List.mem_cons_self])
  apply trimBoth_eq_self
  · exact kept cs outside
  · exact kept cs.reverse fun c member => outside c (List.mem_reverse.mp member)

/-- Twenty-five code points have the property `White_Space`. -/
def isBlank (c : Char) : Bool :=
  let n := c.toNat
  (0x09 ≤ n && n ≤ 0x0D) || n == 0x20 || n == 0x85 || n == 0xA0 || n == 0x1680 ||
    (0x2000 ≤ n && n ≤ 0x200A) || n == 0x2028 || n == 0x2029 || n == 0x202F || n == 0x205F ||
    n == 0x3000

def trimBlanks (cs : List Char) : List Char := trimBoth isBlank cs

/-- A text of blanks alone, the empty text among them. -/
def isAllBlank (s : String) : Bool := s.toList.all isBlank

theorem isBlank_of_isDigit {c : Char} (h : c.isDigit = true) : isBlank c = false := by
  obtain ⟨low, high⟩ := Char.isDigit_iff_toNat.mp h
  have low : 48 ≤ c.toNat := low
  have high : c.toNat ≤ 57 := high
  simp only [isBlank, Bool.or_eq_false_iff, Bool.and_eq_false_iff, decide_eq_false_iff_not,
    beq_eq_false_iff_ne]
  omega

end TypedSql.Text
