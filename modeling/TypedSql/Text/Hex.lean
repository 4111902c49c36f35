/-! Bytes written as pairs of hexadecimal digits, the high half first. -/
namespace TypedSql.Text.Hex

/-- Which letters stand for the digits from ten to fifteen. -/
inductive LetterCase where
  | lower
  | upper
  deriving DecidableEq, Repr

def LetterCase.digit : LetterCase → Nat → Char
  | .lower, n => n.digitChar
  | .upper, n => n.digitChar.toUpper

/-- The value of a hexadecimal digit with letters of either case. -/
def value? (c : Char) : Option Nat :=
  let n := c.toNat
  if 48 ≤ n && n ≤ 57 then some (n - 48)
  else if 97 ≤ n && n ≤ 102 then some (n - 87)
  else if 65 ≤ n && n ≤ 70 then some (n - 55)
  else none

def ofByte (letters : LetterCase) (b : UInt8) : List Char :=
  [letters.digit (b.toNat / 16), letters.digit (b.toNat % 16)]

def ofBytes (letters : LetterCase) (bytes : List UInt8) : List Char :=
  bytes.flatMap (ofByte letters)

/-- Two digits make a byte; an odd number of digits makes none. -/
def toBytes? : List Char → Option (List UInt8)
  | [] => some []
  | [_] => none
  | high :: low :: rest => do
    let h ← value? high
    let l ← value? low
    let bytes ← toBytes? rest
    some (UInt8.ofNat (16 * h + l) :: bytes)

theorem value?_digit {letters : LetterCase} {n : Nat} (h : n < 16) :
    value? (letters.digit n) = some n := by
  cases letters <;>
    (rcases n with _ | _ | _ | _ | _ | _ | _ | _ | _ | _ | _ | _ | _ | _ | _ | _ | n <;>
      first | rfl | omega)

theorem toBytes?_ofBytes (letters : LetterCase) (bytes : List UInt8) :
    toBytes? (ofBytes letters bytes) = some bytes := by
  induction bytes with
  | nil => rfl
  | cons b rest ih =>
    have hb := b.toNat_lt
    have value : 16 * (b.toNat / 16) + b.toNat % 16 = b.toNat := by omega
    change toBytes? (letters.digit (b.toNat / 16) :: letters.digit (b.toNat % 16) ::
      ofBytes letters rest) = some (b :: rest)
    simp only [toBytes?, value?_digit (show b.toNat / 16 < 16 by omega),
      value?_digit (show b.toNat % 16 < 16 by omega), ih, Option.bind_eq_bind, Option.bind_some,
      value, UInt8.ofNat_toNat]

theorem length_ofBytes (letters : LetterCase) (bytes : List UInt8) :
    (ofBytes letters bytes).length = 2 * bytes.length := by
  induction bytes with
  | nil => rfl
  | cons b rest ih => simp only [ofBytes, List.flatMap_cons, ofByte, List.length_append] at *; simp [ih]; omega

theorem isSome_value?_of_mem_ofBytes {letters : LetterCase} {bytes : List UInt8} {c : Char}
    (h : c ∈ ofBytes letters bytes) : (value? c).isSome = true := by
  obtain ⟨b, -, member⟩ := List.mem_flatMap.mp h
  have bound := b.toNat_lt
  simp only [ofByte, List.mem_cons, List.not_mem_nil, or_false] at member
  rcases member with rfl | rfl
  · rw [value?_digit (by omega)]
    rfl
  · rw [value?_digit (by omega)]
    rfl

theorem isSome_value?_of_toBytes? {cs : List Char} {bytes : List UInt8}
    (h : toBytes? cs = some bytes) : ∀ c ∈ cs, (value? c).isSome = true := by
  fun_induction toBytes? cs generalizing bytes with
  | case1 => exact fun c member => absurd member List.not_mem_nil
  | case2 => cases h
  | case3 high low rest ih =>
    obtain ⟨first, isFirst, h⟩ := Option.bind_eq_some_iff.mp h
    obtain ⟨second, isSecond, h⟩ := Option.bind_eq_some_iff.mp h
    obtain ⟨others, isRest, -⟩ := Option.bind_eq_some_iff.mp h
    intro c member
    rcases List.mem_cons.mp member with rfl | member
    · exact Option.isSome_of_eq_some isFirst
    · rcases List.mem_cons.mp member with rfl | member
      · exact Option.isSome_of_eq_some isSecond
      · exact ih isRest c member

end TypedSql.Text.Hex
