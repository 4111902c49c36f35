import TypedSql.Cell.Basic
import TypedSql.Proofs.Text.Subpart

/-! Text cells that hold any bytes. The text that is made of them keeps every character that is
spelt next to the damage. -/
namespace TypedSql.Cell

open Text

variable {bytes : List UInt8} {cs : List Char}

/-- Both paths have one result: the lenient decoder changes nothing in data that are UTF-8. -/
theorem ofTextBytes_eq (bytes : List UInt8) :
    ofTextBytes bytes = .text (String.ofList (Utf8.decodeLenient bytes)) := by
  unfold ofTextBytes
  cases read : Utf8.decode bytes with
  | error fault => rfl
  | ok cs =>
    obtain rfl := Utf8.decode_eq_ok_iff.mp read
    rw [(Utf8.shownAs_encode cs).decodeLenient]

theorem ofTextBytes_eq_of_shownAs (shown : Utf8.ShownAs bytes cs) :
    ofTextBytes bytes = .text (String.ofList cs) := by
  rw [ofTextBytes_eq, shown.decodeLenient]

/-- Every byte string is read, as one text. It shows each character that is spelt, and U+FFFD once
for each maximal subpart of an ill-formed sequence. It is written back as the same bytes if and only
if they are UTF-8. A text that was encoded is read as itself, by either decoder, and it also comes
back in front of any bytes and behind them, while these are read as they are alone. -/
theorem ofTextBytes_keeps_text (bytes : List UInt8) :
    ∃ t : String, ofTextBytes bytes = .text t ∧
      (∀ cs, Utf8.ShownAs bytes cs ↔ cs = t.toList) ∧
      (Utf8.encode t.toList = bytes ↔ bytes.toByteArray.IsValidUTF8) ∧
      ∀ s : String,
        (Utf8.decode (Utf8.encode s.toList) = .ok s.toList ∧
          Utf8.decodeLenient (Utf8.encode s.toList) = s.toList ∧
          ofTextBytes (Utf8.encode s.toList) = .text s) ∧
        ofTextBytes (Utf8.encode s.toList ++ bytes) = .text (s ++ t) ∧
        ofTextBytes (bytes ++ Utf8.encode s.toList) = .text (t ++ s) := by
  have shown := Utf8.shownAs_decodeLenient bytes
  refine ⟨String.ofList (Utf8.decodeLenient bytes), ofTextBytes_eq bytes, ?_⟩
  rw [String.toList_ofList]
  refine ⟨fun cs => ?_, ?_, fun s => ⟨⟨?_, ?_, ?_⟩, ?_, ?_⟩⟩
  · rw [Utf8.shownAs_iff, eq_comm]
  · rw [Utf8.isValidUTF8_iff]
    constructor
    · exact fun same => ⟨_, same⟩
    · rintro ⟨cs, rfl⟩
      rw [(Utf8.shownAs_encode cs).decodeLenient]
  · exact Utf8.decode_eq_ok_iff.mpr rfl
  · exact (Utf8.shownAs_encode s.toList).decodeLenient
  · rw [ofTextBytes_eq_of_shownAs (Utf8.shownAs_encode s.toList), String.ofList_toList]
  · rw [ofTextBytes_eq_of_shownAs (shown.encode_append s.toList), String.ofList_append,
      String.ofList_toList]
  · rw [ofTextBytes_eq_of_shownAs (shown.append_encode s.toList), String.ofList_append,
      String.ofList_toList]

/-- A sequence that is cut short by a byte that begins none, between two letters. -/
example : ofTextBytes [0x61, 0xE2, 0x82, 0xFF, 0x62] = .text "a\uFFFD\uFFFDb" := by decide

end TypedSql.Cell
