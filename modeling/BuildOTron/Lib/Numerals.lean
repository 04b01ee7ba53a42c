import BuildOTron.Lib.Binary64
import Mathlib.Tactic.Ring

/-! Numbers in text, as Rust's `u64` and `f64` read them. -/
namespace Numerals

def sign : List Char → Bool × List Char
  | '-' :: text => (true, text)
  | '+' :: text => (false, text)
  | text => (false, text)

def isNumeral (digits : List Char) : Bool := !digits.isEmpty && digits.all Char.isDigit

/-- An unsigned number may have a plus sign. -/
def parseU64 (text : List Char) : Option UInt64 :=
  let digits := match text with
    | '+' :: rest => rest
    | _ => text
  if isNumeral digits ∧ Nat.ofDigitChars 10 digits 0 < 2 ^ 64 then
    some (.ofNat (Nat.ofDigitChars 10 digits 0))
  else none

def exponent : List Char → Option ℤ
  | [] => some 0
  | c :: text =>
    let (negative, digits) := sign text
    if (c = 'e' ∨ c = 'E') ∧ isNumeral digits then
      let size : ℤ := Nat.ofDigitChars 10 digits 0
      some (if negative then -size else size)
    else none

/-- There is a digit on one side of the point at least. -/
def decimal (text : List Char) : Option ℚ :=
  let whole := text.takeWhile Char.isDigit
  let (fraction, rest) := match text.dropWhile Char.isDigit with
    | '.' :: behind => (behind.takeWhile Char.isDigit, behind.dropWhile Char.isDigit)
    | behind => ([], behind)
  if whole ++ fraction = [] then none
  else (exponent rest).map fun e : ℤ =>
    (Nat.ofDigitChars 10 (whole ++ fraction) 0 : ℚ) * 10 ^ (e - fraction.length)

def parseF64 (text : List Char) : Option Binary64 :=
  let (negative, body) := sign text
  let lower := body.map Char.toLower
  if lower = "nan".toList then some .nan
  else if lower = "inf".toList ∨ lower = "infinity".toList then some (.infinite negative)
  else (decimal body).map fun q => .ofRat (if negative then -q else q)

/-- A number of thousandths, with three decimals. -/
def printThousandths (n : Nat) : List Char :=
  Nat.toDigits 10 (n / 1000) ++
    ['.', Nat.digitChar (n / 100 % 10), Nat.digitChar (n / 10 % 10), Nat.digitChar (n % 10)]

/-! ### Reading back -/

theorem mem_printThousandths {c : Char} {n : Nat} (member : c ∈ printThousandths n) :
    c.isDigit = true ∨ c = '.' := by
  rw [printThousandths, List.mem_append] at member
  rcases member with whole | member
  · exact .inl (Nat.isDigit_of_mem_toDigits (by decide) (by decide) whole)
  · simp only [List.mem_cons, List.not_mem_nil, or_false] at member
    rcases member with rfl | rfl | rfl | rfl <;> simp [Nat.mod_lt]

theorem isNumeral_toDigits (n : Nat) : isNumeral (Nat.toDigits 10 n) = true := by
  rw [isNumeral, Bool.and_eq_true, Bool.not_eq_true', List.isEmpty_eq_false_iff, List.all_eq_true]
  exact ⟨Nat.toDigits_ne_nil, fun c => Nat.isDigit_of_mem_toDigits (by decide) (by decide)⟩

/-- Text that starts with a digit starts with no sign and is no word. -/
theorem toDigits_cons (n : Nat) : ∃ c rest, Nat.toDigits 10 n = c :: rest ∧ c.isDigit = true := by
  cases digits : Nat.toDigits 10 n with
  | nil => exact absurd digits Nat.toDigits_ne_nil
  | cons c rest =>
    refine ⟨c, rest, rfl, ?_⟩
    have member : c ∈ Nat.toDigits 10 n := by rw [digits]; exact List.mem_cons_self
    exact Nat.isDigit_of_mem_toDigits (by decide) (by decide) member

theorem sign_digit {c : Char} (digit : c.isDigit = true) (text : List Char) :
    sign (c :: text) = (false, c :: text) := by
  unfold sign
  split
  · rename_i same
    cases same
    contradiction
  · rename_i same
    cases same
    contradiction
  · rfl

theorem parseU64_toDigits {n : Nat} (small : n < 2 ^ 64) :
    parseU64 (Nat.toDigits 10 n) = some (.ofNat n) := by
  have plain : (match Nat.toDigits 10 n with
      | '+' :: rest => rest
      | _ => Nat.toDigits 10 n) = Nat.toDigits 10 n := by
    obtain ⟨c, rest, digits, digit⟩ := toDigits_cons n
    rw [digits]
    split
    · rename_i same
      cases same
      contradiction
    · rfl
  simp only [parseU64, plain, isNumeral_toDigits, Nat.ofDigitChars_ten_toDigits, true_and, small, if_true]

theorem thousandths_value (n : Nat) : Nat.ofDigitChars 10 (Nat.toDigits 10 (n / 1000) ++
    [Nat.digitChar (n / 100 % 10), Nat.digitChar (n / 10 % 10), Nat.digitChar (n % 10)]) 0 = n := by
  rw [Nat.ofDigitChars_append, Nat.ofDigitChars_ten_toDigits,
    Nat.ofDigitChars_cons_digitChar_of_lt_ten (by omega),
    Nat.ofDigitChars_cons_digitChar_of_lt_ten (by omega),
    Nat.ofDigitChars_cons_digitChar_of_lt_ten (by omega), Nat.ofDigitChars_nil]
  omega

theorem decimal_thousandths (n : Nat) : decimal (printThousandths n) = some ((n : ℚ) / 1000) := by
  have whole : ∀ c ∈ Nat.toDigits 10 (n / 1000), c.isDigit := fun c =>
    Nat.isDigit_of_mem_toDigits (by decide) (by decide)
  have digit : ∀ d : Nat, (Nat.digitChar (d % 10)).isDigit = true := fun d => by
    simp [Nat.mod_lt]
  have taken : (printThousandths n).takeWhile Char.isDigit = Nat.toDigits 10 (n / 1000) := by
    rw [printThousandths, List.takeWhile_append_of_pos whole]
    simp
  have left : (printThousandths n).dropWhile Char.isDigit =
      ['.', Nat.digitChar (n / 100 % 10), Nat.digitChar (n / 10 % 10), Nat.digitChar (n % 10)] := by
    rw [printThousandths, List.dropWhile_append_of_pos whole]
    simp
  have shift : (n : ℚ) * 10 ^ (0 - (3 : ℤ)) = n / 1000 := by
    norm_num [zpow_neg]
    ring
  simp only [decimal, taken, left, List.takeWhile_cons, List.dropWhile_cons, digit, if_true,
    List.takeWhile_nil, List.dropWhile_nil, thousandths_value, exponent]
  simpa using shift

theorem toLower_digit {c : Char} (digit : c.isDigit = true) : c.toLower = c := by
  simp only [Char.isDigit, Bool.and_eq_true, decide_eq_true_eq] at digit
  apply dif_neg
  rintro ⟨low, _⟩
  have letter : 65 ≤ c.val.toNat := UInt32.le_iff_toNat_le.mp low
  have nine : c.val.toNat ≤ 57 := UInt32.le_iff_toNat_le.mp digit.2
  omega

theorem parseF64_thousandths (n : Nat) :
    parseF64 (printThousandths n) = some (.ofRat ((n : ℚ) / 1000)) := by
  obtain ⟨c, rest, digits, digit⟩ := toDigits_cons (n / 1000)
  have starts : ∃ text, printThousandths n = c :: text := by
    rw [printThousandths, digits]
    exact ⟨_, rfl⟩
  obtain ⟨text, starts⟩ := starts
  have no_word : ∀ word : List Char, (word.head?.map Char.isDigit) = some false →
      (c :: text).map Char.toLower ≠ word := by
    rintro word letter rfl
    rw [List.map_cons, toLower_digit digit, List.head?_cons, Option.map_some, digit] at letter
    contradiction
  have whole := decimal_thousandths n
  rw [starts] at whole ⊢
  simp only [parseF64, sign_digit digit]
  rw [if_neg (no_word _ rfl), if_neg (not_or.mpr ⟨no_word _ rfl, no_word _ rfl⟩), whole]
  rfl

end Numerals
