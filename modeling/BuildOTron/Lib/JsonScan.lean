import BuildOTron.Lib.Binary64
import BuildOTron.Lib.Json
import Mathlib.Algebra.Order.Ring.Int
import Mathlib.Data.Fintype.Basic
import Mathlib.Tactic.Common

/-! The strings and numbers of JSON, as they are written and as a machine scans them
byte by byte. -/
namespace Json

def utf8 (text : String) : List UInt8 := text.toUTF8.data.toList

def textOf (bytes : List UInt8) : Option String := String.fromUTF8? ⟨bytes.toArray⟩

theorem textOf_utf8 (text : String) : textOf (utf8 text) = some text := by
  have valid : text.toUTF8.IsValidUTF8 := text.isValidUTF8
  simp only [textOf, utf8, Array.toArray_toList]
  rw [String.fromUTF8?, dif_pos valid]
  rfl

/-- What is checked for every byte. -/
theorem byte_cases {p : UInt8 → Prop} (all : ∀ n : Fin 256, p (.ofNat n)) (b : UInt8) : p b := by
  have this := all ⟨b.toNat, b.toNat_lt⟩
  rwa [UInt8.ofNat_toNat] at this

/-! ### Strings -/

/-- The escapes of one letter, as letter and byte. -/
def shortEscapes : List (UInt8 × UInt8) :=
  [(34, 34), (92, 92), (98, 8), (102, 12), (110, 10), (114, 13), (116, 9)]

def hexDigit (b : UInt8) : Option Nat :=
  if 48 ≤ b ∧ b ≤ 57 then some (b.toNat - 48)
  else if 97 ≤ b ∧ b ≤ 102 then some (b.toNat - 87)
  else if 65 ≤ b ∧ b ≤ 70 then some (b.toNat - 55)
  else none

def hexByte (n : UInt8) : UInt8 := if n < 10 then 48 + n else 87 + n

/-- A byte of a string as it is written. -/
def escape (b : UInt8) : List UInt8 :=
  match shortEscapes.find? fun pair => pair.2 = b with
  | some (letter, _) => [92, letter]
  | none => if b < 32 then [92, 117, 48, 48, hexByte (b / 16), hexByte (b % 16)] else [b]

/-- Where a parser is inside a string. -/
inductive StringScan where
  | plain
  | escape
  /-- `left` digits are still to come; `high` is the first half of a surrogate pair -/
  | hex (high : Option Nat) (left code : Nat)
  | pair (high : Nat)
  | pairEscape (high : Nat)
  deriving DecidableEq, Repr

def encodeChar (code : Nat) : List UInt8 := String.utf8EncodeChar (Char.ofNat code)

def isHigh (code : Nat) : Bool := 0xD800 ≤ code && code < 0xDC00

def isLow (code : Nat) : Bool := 0xDC00 ≤ code && code < 0xE000

namespace StringScan

def unit (code : Nat) : Option Nat → Option (StringScan × List UInt8)
  | none =>
    if isHigh code then some (.pair code, [])
    else if isLow code then none
    else some (.plain, encodeChar code)
  | some high =>
    if isLow code then
      some (.plain, encodeChar (0x10000 + (high - 0xD800) * 0x400 + (code - 0xDC00)))
    else none

/-- One byte inside a string, and the bytes it adds; the closing quote is not one. -/
def step : StringScan → UInt8 → Option (StringScan × List UInt8)
  | .plain, b =>
    if b = 34 then none
    else if b = 92 then some (.escape, [])
    else if b < 32 then none
    else some (.plain, [b])
  | .escape, b =>
    if b = 117 then some (.hex none 4 0, [])
    else if b = 47 then some (.plain, [47])
    else (shortEscapes.lookup b).map fun c => (.plain, [c])
  | .hex high left code, b =>
    (hexDigit b).bind fun d =>
      if left ≤ 1 then unit (code * 16 + d) high else some (.hex high (left - 1) (code * 16 + d), [])
  | .pair high, b => if b = 92 then some (.pairEscape high, []) else none
  | .pairEscape high, b => if b = 117 then some (.hex (some high) 4 0, []) else none

def scan : StringScan → List UInt8 → Option (StringScan × List UInt8)
  | s, [] => some (s, [])
  | s, b :: bs => (s.step b).bind fun next =>
    (next.1.scan bs).map fun last => (last.1, next.2 ++ last.2)

theorem scan_append {s t : StringScan} {first rest : List UInt8} (scanned : s.scan first = some (t, out)) :
    s.scan (first ++ rest) = (t.scan rest).map fun last => (last.1, out ++ last.2) := by
  induction first generalizing s out with
  | nil =>
    cases scanned
    simp
  | cons b bs ih =>
    obtain ⟨next, stepped, later⟩ := Option.bind_eq_some_iff.mp scanned
    obtain ⟨last, others, same⟩ := Option.map_eq_some_iff.mp later
    cases same
    simp [scan, stepped, ih others, Function.comp_def]

theorem scan_escape (b : UInt8) : plain.scan (Json.escape b) = some (plain, [b]) := by
  apply byte_cases (p := fun b => plain.scan (Json.escape b) = some (plain, [b]))
  decide +kernel

theorem scan_escapes (bytes : List UInt8) :
    plain.scan (bytes.flatMap Json.escape) = some (plain, bytes) := by
  induction bytes with
  | nil => rfl
  | cons b bs ih =>
    rw [List.flatMap_cons, scan_append (scan_escape b), ih]
    rfl

end StringScan
/-! ### Numbers -/

def isDigit (b : UInt8) : Bool := 48 ≤ b && b ≤ 57

inductive NumberScan where
  | minus
  | zero
  | digits
  | point
  | fraction
  | exponent
  | exponentSign
  | exponentDigits
  deriving DecidableEq, Repr

namespace NumberScan

/-- The integer part, from its first digit on. -/
def integer (b : UInt8) : Option NumberScan :=
  if b = 48 then some .zero else if isDigit b then some .digits else none

def first (b : UInt8) : Option NumberScan := if b = 45 then some .minus else integer b

def digit (next : NumberScan) (b : UInt8) : Option NumberScan := if isDigit b then some next else none

/-- What may follow an integer part. -/
def suffix (b : UInt8) : Option NumberScan :=
  if b = 46 then some .point else if b = 69 ∨ b = 101 then some .exponent else none

def step : NumberScan → UInt8 → Option NumberScan
  | .minus, b => integer b
  | .zero, b => suffix b
  | .digits, b => if isDigit b then some .digits else suffix b
  | .point, b => digit .fraction b
  | .fraction, b =>
    if isDigit b then some .fraction else if b = 69 ∨ b = 101 then some .exponent else none
  | .exponent, b => if b = 43 ∨ b = 45 then some .exponentSign else digit .exponentDigits b
  | .exponentSign, b => digit .exponentDigits b
  | .exponentDigits, b => digit .exponentDigits b

def scan (s : NumberScan) (bytes : List UInt8) : Option NumberScan := bytes.foldlM step s

end NumberScan

def asChar (b : UInt8) : Char := Char.ofNat b.toNat

def natOf (text : List UInt8) : Nat := Nat.ofDigitChars 10 (text.map asChar) 0

def intOf : List UInt8 → Int
  | 45 :: text => -(natOf text : Int)
  | text => natOf text

/-- The integers that are kept as such; others become floating point numbers. -/
def InRange (n : Int) : Prop := -2 ^ 63 ≤ n ∧ n < 2 ^ 64

instance (n : Int) : Decidable (InRange n) := inferInstanceAs (Decidable (_ ∧ _))

/-- What 64 bits hold of a number's digits, and the places that it is moved by. -/
structure Decimal where
  significand : Nat
  exponent : Int
  deriving DecidableEq, Repr

namespace Decimal

/-- The digits that there is room for, and what is left of the text. -/
def digits (significand : Nat) : List UInt8 → Nat × List UInt8
  | [] => (significand, [])
  | b :: text =>
    let longer := significand * 10 + (b.toNat - 48)
    if isDigit b ∧ longer < 2 ^ 64 then digits longer text else (significand, b :: text)

/-- Before the point a digit that has no room is a place, and so are all after it. -/
def whole (text : List UInt8) : Decimal × List UInt8 :=
  let (significand, rest) := digits 0 text
  (⟨significand, (rest.takeWhile isDigit).length⟩, rest.dropWhile isDigit)

/-- Behind the point each digit takes a place away, up to the first that has no room. -/
def fraction (d : Decimal) : List UInt8 → Decimal × List UInt8
  | 46 :: text =>
    let (significand, rest) := digits d.significand text
    (⟨significand, d.exponent - (text.length - rest.length : Nat)⟩, rest.dropWhile isDigit)
  | text => (d, text)

def move (d : Decimal) : List UInt8 → Decimal
  | [] => d
  | _ :: 43 :: text => { d with exponent := d.exponent + natOf text }
  | _ :: text => { d with exponent := d.exponent + intOf text }

/-- The sign is left out. -/
def ofText (text : List UInt8) : Decimal :=
  let (d, rest) := whole (text.dropWhile (· = 45))
  let (d, rest) := d.fraction rest
  d.move rest

/-- The powers of ten are kept up to this one; to the other side the value goes to zero. -/
def maxPower : Int := 308

/-- The value of both roundings, that of the significand and that of the product. -/
def Finite (d : Decimal) : Prop :=
  d.significand = 0 ∨ d.exponent < 0 ∨
    d.exponent ≤ maxPower ∧
      ((Binary64.ofRat d.significand).mul (.ofRat (10 ^ d.exponent.toNat))).isFinite

instance (d : Decimal) : Decidable d.Finite := inferInstanceAs (Decidable (_ ∨ _ ∨ _ ∧ _))

end Decimal

/-- A number that is no integer, where a float can hold it. -/
def floatValue (text : List UInt8) : Option Json :=
  if (Decimal.ofText text).Finite then some (.number (String.ofList (text.map asChar))) else none

/-- The value of a number's text, once it is over. -/
def numberValue (scan : NumberScan) (text : List UInt8) : Option Json :=
  match scan with
  | .zero | .digits =>
    if text ≠ [45, 48] ∧ InRange (intOf text) then some (.int (intOf text)) else floatValue text
  | .fraction | .exponentDigits => floatValue text
  | _ => none

def natText (n : Nat) : List UInt8 := (Nat.toDigits 10 n).map fun c => UInt8.ofNat c.toNat

def intText (n : Int) : List UInt8 := if n < 0 then 45 :: natText n.natAbs else natText n.natAbs

theorem asChar_ofNat {c : Char} (digit : c.isDigit = true) : asChar (UInt8.ofNat c.toNat) = c := by
  have bounds : c.toNat < 256 := by
    simp only [Char.isDigit, Bool.and_eq_true, decide_eq_true_eq] at digit
    have upper : c.val.toNat ≤ 57 := UInt32.le_iff_toNat_le.mp digit.2
    have same : c.toNat = c.val.toNat := rfl
    omega
  rw [asChar, UInt8.toNat_ofNat', Nat.mod_eq_of_lt bounds, Char.ofNat_toNat]

theorem natOf_natText (n : Nat) : natOf (natText n) = n := by
  have chars : (natText n).map asChar = Nat.toDigits 10 n := by
    rw [natText, List.map_map]
    refine (List.map_congr_left ?_).trans (List.map_id _)
    intro c member
    exact asChar_ofNat (Nat.isDigit_of_mem_toDigits (by decide) (by decide) member)
  rw [natOf, chars, Nat.ofDigitChars_ten_toDigits]

/-- The byte of a digit. -/
def digitByte (d : Nat) : UInt8 := UInt8.ofNat (48 + d)

theorem digitByte_isDigit {d : Nat} (small : d < 10) : isDigit (digitByte d) = true := by
  have all : ∀ d : Fin 10, isDigit (digitByte d) = true := by decide
  exact all ⟨d, small⟩

theorem digitByte_ne_zero {d : Nat} (small : d < 10) (positive : 0 < d) : digitByte d ≠ 48 := by
  have all : ∀ d : Fin 10, 0 < d.val → digitByte d ≠ 48 := by decide
  exact all ⟨d, small⟩ positive

theorem natText_of_lt_ten {n : Nat} (small : n < 10) : natText n = [digitByte n] := by
  rw [natText, Nat.toDigits_of_lt_base small, List.map_singleton, digitByte,
    Nat.toNat_digitChar_of_lt_ten small]

/-- A large number's text is that of its tens and one digit more. -/
theorem natText_of_ten_le {n : Nat} (large : 10 ≤ n) :
    natText n = natText (n / 10) ++ [digitByte (n % 10)] := by
  have small : n % 10 < 10 := Nat.mod_lt n (by decide)
  rw [natText, Nat.toDigits_of_base_le (by decide) large, List.map_append, List.map_singleton,
    Nat.toNat_digitChar_of_lt_ten small]
  rfl

/-- No number but zero starts with the digit zero. -/
theorem scan_natText {n : Nat} (positive : 0 < n) :
    ∃ b rest, natText n = b :: rest ∧ isDigit b = true ∧ b ≠ 48 ∧
      NumberScan.scan .digits rest = some .digits := by
  induction n using Nat.strongRecOn with
  | ind n ih =>
    by_cases small : n < 10
    · exact ⟨digitByte n, [], natText_of_lt_ten small, digitByte_isDigit small,
        digitByte_ne_zero small positive, rfl⟩
    · obtain ⟨b, rest, text, digit, nonzero, scanned⟩ := ih (n / 10) (by omega) (by omega)
      refine ⟨b, rest ++ [digitByte (n % 10)], ?_, digit, nonzero, ?_⟩
      · rw [natText_of_ten_le (by omega), text, List.cons_append]
      · have last : isDigit (digitByte (n % 10)) = true := digitByte_isDigit (by omega)
        rw [NumberScan.scan] at scanned ⊢
        simp [List.foldlM_append, scanned, NumberScan.step, last]

/-- The text of a natural number scans as an integer part. -/
theorem scan_natural (n : Nat) : ∃ b rest first last, natText n = b :: rest ∧ b ≠ 45 ∧
    NumberScan.integer b = some first ∧ first.scan rest = some last ∧
      (last = .zero ∨ last = .digits) := by
  rcases Nat.eq_zero_or_pos n with rfl | positive
  · exact ⟨48, [], .zero, .zero, rfl, by decide, rfl, rfl, .inl rfl⟩
  · obtain ⟨b, rest, text, digit, nonzero, scanned⟩ := scan_natText positive
    refine ⟨b, rest, .digits, .digits, text, ?_, ?_, scanned, .inr rfl⟩
    · rintro rfl
      contradiction
    · rw [NumberScan.integer, if_neg nonzero, if_pos digit]

theorem scan_intText (n : Int) : ∃ b rest first last, intText n = b :: rest ∧
    NumberScan.first b = some first ∧ first.scan rest = some last ∧
      (last = .zero ∨ last = .digits) := by
  obtain ⟨b, rest, first, last, text, unsigned, starts, scanned, integer⟩ := scan_natural n.natAbs
  by_cases negative : n < 0
  · refine ⟨45, b :: rest, .minus, last, ?_, rfl, ?_, integer⟩
    · rw [intText, if_pos negative, text]
    · rw [NumberScan.scan] at scanned ⊢
      simp [NumberScan.step, starts, scanned]
  · refine ⟨b, rest, first, last, ?_, ?_, scanned, integer⟩
    · rw [intText, if_neg negative, text]
    · rw [NumberScan.first, if_neg unsigned, starts]

theorem intOf_intText (n : Int) : intOf (intText n) = n := by
  by_cases negative : n < 0
  · rw [intText, if_pos negative]
    show -(natOf (natText n.natAbs) : Int) = n
    rw [natOf_natText]
    omega
  · obtain ⟨b, rest, _, _, text, unsigned, _⟩ := scan_natural n.natAbs
    have whole : intOf (b :: rest) = natOf (b :: rest) := by
      unfold intOf
      split
      · rename_i same
        exact absurd (List.cons.inj same).1 unsigned
      · rfl
    rw [intText, if_neg negative, text, whole, ← text, natOf_natText]
    omega

theorem intText_ne_minus_zero (n : Int) : intText n ≠ [45, 48] := by
  intro same
  have zero : n = 0 := by
    rw [← intOf_intText n, same]
    decide
  subst zero
  revert same
  decide

theorem numberValue_intText {n : Int} (inRange : InRange n) {last : NumberScan}
    (integer : last = .zero ∨ last = .digits) : numberValue last (intText n) = some (.int n) := by
  rcases integer with rfl | rfl <;>
    simp [numberValue, intText_ne_minus_zero, intOf_intText, inRange]

end Json
