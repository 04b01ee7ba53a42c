import Mathlib.Data.Rat.Defs
import Mathlib.Data.List.Basic

/-! Quantities as text: decimal numbers, each with the letter of its unit behind it. What
is printed is read back, digit by digit. -/

structure Amount (υ : Type) where
  whole : Nat
  /-- the decimal digits behind the point -/
  fraction : List Nat
  unit : υ
  deriving DecidableEq, Repr

namespace Amount
variable {υ : Type}

def fractionValue : List Nat → ℚ
  | [] => 0
  | d :: ds => (d + fractionValue ds) / 10

def value (a : Amount υ) : ℚ := a.whole + fractionValue a.fraction

/-- All of them together, each unit at its size. -/
def total (size : υ → Nat) : List (Amount υ) → ℚ
  | [] => 0
  | a :: rest => a.value * size a.unit + total size rest

/-- The number that is being read. -/
inductive Scan where
  | start
  | whole (digits : List Char)
  | fraction (whole digits : List Char)

namespace Scan

def digit : Scan → Char → Scan
  | start, c => whole [c]
  | whole digits, c => whole (digits ++ [c])
  | fraction before digits, c => fraction before (digits ++ [c])

def point : Scan → Option Scan
  | whole digits => some (fraction digits [])
  | start | fraction .. => none

/-- There are digits on both sides of a point. -/
def ends (unit : υ) : Scan → Option (Amount υ)
  | start | fraction _ [] => none
  | whole digits => some ⟨Nat.ofDigitChars 10 digits 0, [], unit⟩
  | fraction before digits =>
    some ⟨Nat.ofDigitChars 10 before 0, digits.map fun c => c.toNat - '0'.toNat, unit⟩

end Scan

def readFrom (unitOf : Char → Option υ) : Scan → List Char → Option (List (Amount υ))
  | .start, [] => some []
  | .whole _, [] | .fraction .., [] => none
  | scan, c :: text =>
    if c.isDigit then readFrom unitOf (scan.digit c) text
    else if c = '.' then scan.point.bind fun scan => readFrom unitOf scan text
    else do
      let unit ← unitOf c
      let amount ← scan.ends unit
      let rest ← readFrom unitOf .start text
      return amount :: rest

def read (unitOf : Char → Option υ) (text : List Char) : Option (List (Amount υ)) :=
  readFrom unitOf .start text

def printFraction : List Nat → List Char
  | [] => []
  | digits => '.' :: digits.map Nat.digitChar

def print (symbol : υ → Char) (a : Amount υ) : List Char :=
  Nat.toDigits 10 a.whole ++ printFraction a.fraction ++ [symbol a.unit]

/-- The letters of the units are told from one another, and from what stands in a number. -/
structure Symbols (unitOf : Char → Option υ) (symbol : υ → Char) : Prop where
  unit : ∀ u, unitOf (symbol u) = some u
  no_digit : ∀ u, (symbol u).isDigit = false
  no_point : ∀ u, symbol u ≠ '.'

section
variable {unitOf : Char → Option υ} {symbol : υ → Char}

theorem readFrom_digits (scan : Scan) (digits text : List Char) (plain : ∀ c ∈ digits, c.isDigit) :
    readFrom unitOf scan (digits ++ text) = readFrom unitOf (digits.foldl Scan.digit scan) text := by
  induction digits generalizing scan with
  | nil => rfl
  | cons c digits ih =>
    obtain ⟨first, rest⟩ := List.forall_mem_cons.mp plain
    rw [List.cons_append, readFrom, if_pos first, ih _ rest, List.foldl_cons]

/-- A digit goes behind those that were read, on either side of the point. -/
theorem digit_digits (scan : List Char → Scan) (grows : ∀ read c, (scan read).digit c = scan (read ++ [c]))
    (before digits : List Char) : digits.foldl Scan.digit (scan before) = scan (before ++ digits) := by
  induction digits generalizing before with
  | nil => rw [List.append_nil, List.foldl_nil]
  | cons c digits ih => rw [List.foldl_cons, grows, ih, List.append_assoc, List.singleton_append]

theorem readFrom_number (n : Nat) (text : List Char) :
    readFrom unitOf .start (Nat.toDigits 10 n ++ text) =
      readFrom unitOf (.whole (Nat.toDigits 10 n)) text := by
  have plain : ∀ c ∈ Nat.toDigits 10 n, c.isDigit := fun c =>
    Nat.isDigit_of_mem_toDigits (by decide) (by decide)
  rw [readFrom_digits .start _ text plain]
  cases digits : Nat.toDigits 10 n with
  | nil => exact absurd digits Nat.toDigits_ne_nil
  | cons c rest =>
    rw [List.foldl_cons, Scan.digit, digit_digits Scan.whole fun _ _ => rfl, List.singleton_append]

theorem readFrom_point (digits text : List Char) :
    readFrom unitOf (.whole digits) ('.' :: text) = readFrom unitOf (.fraction digits []) text := by
  rw [readFrom, if_neg (by decide), if_pos rfl]
  rfl

theorem readFrom_unit (symbols : Symbols unitOf symbol) {scan : Scan} {u : υ} {a : Amount υ}
    (ends : scan.ends u = some a) (text : List Char) :
    readFrom unitOf scan (symbol u :: text) = (read unitOf text).map (a :: ·) := by
  rw [readFrom, if_neg (by simp [symbols.no_digit]), if_neg (symbols.no_point u), symbols.unit, read]
  simp only [Option.bind_eq_bind, Option.bind_some, ends, Option.pure_def]
  cases readFrom unitOf .start text <;> rfl

theorem isDigit_of_lt_ten {digits : List Nat} (small : ∀ d ∈ digits, d < 10) :
    ∀ c ∈ digits.map Nat.digitChar, c.isDigit := by
  intro c member
  obtain ⟨d, listed, rfl⟩ := List.mem_map.mp member
  simpa using small d listed

theorem digit_values {digits : List Nat} (small : ∀ d ∈ digits, d < 10) :
    (digits.map Nat.digitChar).map (fun c => c.toNat - '0'.toNat) = digits := by
  rw [List.map_map]
  conv_rhs => rw [← List.map_id digits]
  exact List.map_congr_left fun d listed => Nat.toNat_digitChar_sub_48_of_lt_ten (small d listed)

/-- A printed amount in front of any text. -/
theorem read_print (symbols : Symbols unitOf symbol) (a : Amount υ) (small : ∀ d ∈ a.fraction, d < 10)
    (text : List Char) : read unitOf (a.print symbol ++ text) = (read unitOf text).map (a :: ·) := by
  obtain ⟨n, fraction, u⟩ := a
  have value : Nat.ofDigitChars 10 (Nat.toDigits 10 n) 0 = n := Nat.ofDigitChars_ten_toDigits
  cases fraction with
  | nil =>
    rw [read, print, printFraction, List.append_nil, List.append_assoc, readFrom_number]
    exact readFrom_unit symbols (by rw [Scan.ends, value]) text
  | cons d ds =>
    have back := digit_values small
    rw [read, print, List.append_assoc, List.append_assoc, readFrom_number]
    show readFrom unitOf _ ('.' :: ((d :: ds).map Nat.digitChar ++ (symbol u :: text))) = _
    rw [readFrom_point, readFrom_digits _ _ _ (isDigit_of_lt_ten small),
      digit_digits (Scan.fraction _) fun _ _ => rfl]
    refine readFrom_unit symbols ?_ text
    show some (Amount.mk _ (((d :: ds).map Nat.digitChar).map _) u) = _
    rw [back, value]

theorem read_printed (symbols : Symbols unitOf symbol) {amounts : List (Amount υ)}
    (small : ∀ a ∈ amounts, ∀ d ∈ a.fraction, d < 10) :
    read unitOf (amounts.flatMap (print symbol)) = some amounts := by
  induction amounts with
  | nil => rfl
  | cons a rest ih =>
    obtain ⟨first, others⟩ := List.forall_mem_cons.mp small
    rw [List.flatMap_cons, read_print symbols a first, ih others, Option.map_some]

/-- The last letter is that of a unit. -/
theorem printed_last {amounts : List (Amount υ)} (some_amount : amounts ≠ []) :
    ∃ u, (amounts.flatMap (print symbol)).getLast? = some (symbol u) := by
  obtain rfl | ⟨before, a, rfl⟩ := amounts.eq_nil_or_concat
  · exact absurd rfl some_amount
  · refine ⟨a.unit, ?_⟩
    rw [List.concat_eq_append, List.flatMap_append, List.flatMap_singleton, print, ← List.append_assoc,
      List.getLast?_concat]

end
end Amount
