import BuildOTron.Lib.JsonText

/-! What is printed is text, so a reader that asks for valid UTF-8 before it parses
finds it so. -/
namespace Json

/-- The bytes are those of some characters. -/
def IsText (bytes : List UInt8) : Prop :=
  ∃ chars : List Char, chars.flatMap String.utf8EncodeChar = bytes

theorem isText_nil : IsText [] := ⟨[], rfl⟩

theorem IsText.append (first : IsText a) (second : IsText b) : IsText (a ++ b) := by
  obtain ⟨chars, rfl⟩ := first
  obtain ⟨more, rfl⟩ := second
  exact ⟨chars ++ more, List.flatMap_append⟩

theorem isText_ascii : ∀ b : UInt8, b < 128 → IsText [b] := by
  refine byte_cases fun n => ?_
  intro ascii
  refine ⟨[Char.ofNat n], ?_⟩
  revert n
  decide +kernel

theorem IsText.cons {b : UInt8} (ascii : b < 128) (rest : IsText bytes) : IsText (b :: bytes) :=
  (isText_ascii b ascii).append rest

theorem isText_of_ascii {bytes : List UInt8} (ascii : ∀ b ∈ bytes, b < 128) : IsText bytes := by
  induction bytes with
  | nil => exact isText_nil
  | cons b bytes ih =>
    rw [List.forall_mem_cons] at ascii
    exact (ih ascii.2).cons ascii.1

theorem utf8_eq (text : String) : utf8 text = text.toList.flatMap String.utf8EncodeChar := by
  rw [utf8, String.toUTF8_eq_toByteArray, ← String.utf8Encode_toList, List.utf8Encode]
  exact List.toList_data_toByteArray

theorem isText_utf8 (text : String) : IsText (utf8 text) := ⟨text.toList, (utf8_eq text).symm⟩

theorem textOf_isSome (text : IsText bytes) : (textOf bytes).isSome := by
  obtain ⟨chars, rfl⟩ := text
  have same := utf8_eq (String.ofList chars)
  rw [String.toList_ofList] at same
  rw [← same, textOf_utf8]
  rfl

theorem escape_ascii : ∀ b : UInt8, b < 128 → ∀ e ∈ escape b, e < 128 := by
  refine byte_cases ?_
  decide +kernel

/-- Bytes of characters beyond ASCII are written as they are. -/
theorem escape_high : ∀ b : UInt8, 128 ≤ b → escape b = [b] := by
  refine byte_cases ?_
  decide +kernel

theorem high_byte {n : Nat} (high : 128 ≤ n) (byte : n < 256) : 128 ≤ UInt8.ofNat n := by
  rw [UInt8.le_iff_toNat_le, UInt8.toNat_ofNat', Nat.mod_eq_of_lt byte]
  exact high

/-- A character takes one byte below 128, or several from there on. -/
theorem utf8EncodeChar_bytes (c : Char) : (∃ b < 128, String.utf8EncodeChar c = [b]) ∨
    ∀ b ∈ String.utf8EncodeChar c, 128 ≤ b := by
  unfold String.utf8EncodeChar
  by_cases single : c.val.toNat ≤ 0x7f
  · refine .inl ⟨.ofNat c.val.toNat, ?_, if_pos single⟩
    rw [UInt8.lt_iff_toNat_lt, UInt8.toNat_ofNat', Nat.mod_eq_of_lt (by omega)]
    exact Nat.lt_succ_of_le single
  · right
    rw [if_neg single]
    split
    · simp only [List.forall_mem_cons, List.not_mem_nil, false_implies, implies_true, and_true]
      exact ⟨high_byte (by omega) (by omega), high_byte (by omega) (by omega)⟩
    split
    · simp only [List.forall_mem_cons, List.not_mem_nil, false_implies, implies_true, and_true]
      exact ⟨high_byte (by omega) (by omega), high_byte (by omega) (by omega),
        high_byte (by omega) (by omega)⟩
    · simp only [List.forall_mem_cons, List.not_mem_nil, false_implies, implies_true, and_true]
      exact ⟨high_byte (by omega) (by omega), high_byte (by omega) (by omega),
        high_byte (by omega) (by omega), high_byte (by omega) (by omega)⟩

theorem escape_char (c : Char) : IsText ((String.utf8EncodeChar c).flatMap escape) := by
  obtain ⟨b, ascii, single⟩ | high := utf8EncodeChar_bytes c
  · rw [single, List.flatMap_singleton]
    exact isText_of_ascii (escape_ascii b ascii)
  · refine ⟨[c], ?_⟩
    rw [List.flatMap_singleton, List.flatMap_congr fun b member => escape_high b (high b member)]
    exact (List.flatMap_singleton' _).symm

theorem isText_escapes (text : String) : IsText ((utf8 text).flatMap escape) := by
  rw [utf8_eq]
  induction text.toList with
  | nil => exact isText_nil
  | cons c chars ih =>
    rw [List.flatMap_cons, List.flatMap_append]
    exact (escape_char c).append ih

theorem isText_printString (text : String) : IsText (printString text) :=
  .cons (by decide) ((isText_escapes text).append (isText_ascii 34 (by decide)))

theorem isText_digit {d : Nat} (small : d < 10) : IsText [digitByte d] := by
  have all : ∀ d : Fin 10, digitByte d < 128 := by decide
  exact isText_ascii _ (all ⟨d, small⟩)

theorem isText_natText (n : Nat) : IsText (natText n) := by
  induction n using Nat.strongRecOn with
  | ind n ih =>
    rcases Nat.lt_or_ge n 10 with small | large
    · rw [natText_of_lt_ten small]
      exact isText_digit small
    · rw [natText_of_ten_le large]
      have shorter : n / 10 < n := Nat.div_lt_self (by omega) (by decide)
      exact (ih _ shorter).append (isText_digit (Nat.mod_lt n (by decide)))

theorem isText_intText (n : Int) : IsText (intText n) := by
  rw [intText]
  split
  · exact .cons (by decide) (isText_natText _)
  · exact isText_natText _

mutual

theorem isText_print : (value : Json) → IsText value.print
  | .null => isText_utf8 _
  | .bool true => isText_utf8 _
  | .bool false => isText_utf8 _
  | .int value => isText_intText value
  | .number text => isText_utf8 text
  | .str value => isText_printString value
  | .arr [] => .cons (by decide) (isText_ascii 93 (by decide))
  | .arr (item :: items) => .cons (by decide) ((isText_print item).append (isText_printItems items))
  | .obj [] => .cons (by decide) (isText_ascii 125 (by decide))
  | .obj ((key, value) :: fields) => .cons (by decide) ((isText_printString key).append
      (.cons (by decide) ((isText_print value).append (isText_printFields fields))))

theorem isText_printItems : (items : List Json) → IsText (printItems items)
  | [] => isText_ascii 93 (by decide)
  | item :: items => .cons (by decide) ((isText_print item).append (isText_printItems items))

theorem isText_printFields : (fields : List (String × Json)) → IsText (printFields fields)
  | [] => isText_ascii 125 (by decide)
  | (key, value) :: fields => .cons (by decide) ((isText_printString key).append
      (.cons (by decide) ((isText_print value).append (isText_printFields fields))))

end

theorem textOf_print (value : Json) : (textOf value.print).isSome := textOf_isSome (isText_print value)

end Json
