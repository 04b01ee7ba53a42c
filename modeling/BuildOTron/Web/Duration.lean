import BuildOTron.Lib.Amounts
import BuildOTron.Web.Pages
import Mathlib.Tactic.NormNum
import Mathlib.Tactic.Ring

/-! Durations as `duration_as_human_string` writes them. What it writes is read back as
amounts of hours, minutes and seconds, and these are the duration but for what was rounded
away; the zeros that its documentation omits are written where they stand last. -/
namespace BuildOTron.Web

inductive TimeUnit where
  | hours
  | minutes
  | seconds
  deriving DecidableEq, Repr

namespace TimeUnit

def millis : TimeUnit → Nat
  | hours => 3600 * 1000
  | minutes => 60 * 1000
  | seconds => 1000

def symbol : TimeUnit → Char
  | hours => 'h'
  | minutes => 'm'
  | seconds => 's'

def ofSymbol : Char → Option TimeUnit
  | 'h' => some hours
  | 'm' => some minutes
  | 's' => some seconds
  | _ => none

def next : TimeUnit → Option TimeUnit
  | hours => some minutes
  | minutes => some seconds
  | seconds => none

theorem symbols : Amount.Symbols ofSymbol symbol where
  unit u := by cases u <;> rfl
  no_digit u := by cases u <;> rfl
  no_point u := by cases u <;> decide

end TimeUnit

/-- One unit, or a unit and the next smaller one. -/
def NamesAdjacent : List TimeUnit → Prop
  | [_] => True
  | [larger, smaller] => larger.next = some smaller
  | _ => False

/-- Down to whole minutes, to whole seconds, or not at all. -/
def roundedDuration (durationMs : Nat) : Nat :=
  if 3600 * 1000 ≤ durationMs then durationMs / 60000 * 60000
  else if 60 * 1000 ≤ durationMs then durationMs / 1000 * 1000
  else durationMs

structure ReadsBack (durationMs : Nat) (amounts : List (Amount TimeUnit)) : Prop where
  units : NamesAdjacent (amounts.map Amount.unit)
  total : Amount.total TimeUnit.millis amounts = roundedDuration durationMs

structure OmitsZeros (amounts : List (Amount TimeUnit)) : Prop where
  no_zero_unit : ∀ a ∈ amounts.tail, a.value ≠ 0
  no_trailing_zero : ∀ a ∈ amounts, a.fraction.getLast? ≠ some 0

/-- The text is one of amounts, and these are canonical. -/
def Canonical (durationMs : Nat) (text : String) : Prop :=
  ∃ amounts, Amount.read TimeUnit.ofSymbol text.toList = some amounts ∧
    ReadsBack durationMs amounts ∧ OmitsZeros amounts

def threeDigitAmount (n : Nat) : List Nat := if n = 0 then [] else [n / 100, n / 10 % 10, n % 10]

/-- What is written, before it is text. -/
def durationAmounts (durationMs : Nat) : List (Amount TimeUnit) :=
  let seconds := durationMs / 1000
  let minutes := seconds / 60
  let hours := minutes / 60
  if hours ≠ 0 then
    ⟨hours, [], .hours⟩ :: if minutes % 60 ≠ 0 then [⟨minutes % 60, [], .minutes⟩] else []
  else if minutes % 60 ≠ 0 then [⟨minutes % 60, [], .minutes⟩, ⟨seconds % 60, [], .seconds⟩]
  else [⟨seconds % 60, threeDigitAmount (durationMs % 1000), .seconds⟩]

theorem threeDigits_toList (small : n < 1000) :
    (threeDigits n).toList = [n / 100, n / 10 % 10, n % 10].map Nat.digitChar := by
  have two : ∀ m, 10 ≤ m → m < 100 → Nat.toDigits 10 m = [Nat.digitChar (m / 10), Nat.digitChar (m % 10)] := by
    intro m above below
    rw [Nat.toDigits_of_base_le (by decide) above, Nat.toDigits_of_lt_base (by omega)]
    rfl
  unfold threeDigits
  rw [String.toList_append, Nat.toString_eq_repr, Nat.toList_repr]
  by_cases one : n < 10
  · rw [if_pos one, Nat.toDigits_of_lt_base one, Nat.div_eq_of_lt (by omega), Nat.div_eq_of_lt one,
      Nat.mod_eq_of_lt one]
    rfl
  · rw [if_neg one]
    by_cases below : n < 100
    · rw [if_pos below, two n (by omega) below, Nat.div_eq_of_lt below, Nat.mod_eq_of_lt (by omega : n / 10 < 10)]
      rfl
    · rw [if_neg below, Nat.toDigits_of_base_le (by decide) (by omega), two (n / 10) (by omega) (by omega),
        Nat.div_div_eq_div_mul]
      rfl

theorem printFraction_threeDigits (small : n < 1000) :
    Amount.printFraction (threeDigitAmount n) = (if n ≠ 0 then "." ++ threeDigits n else "").toList := by
  by_cases zero : n = 0
  · rw [threeDigitAmount, if_pos zero, if_neg (not_not.mpr zero)]
    rfl
  · rw [threeDigitAmount, if_neg zero, if_pos zero, String.toList_append, threeDigits_toList small]
    rfl

theorem print_whole (n : Nat) (unit : TimeUnit) :
    Amount.print TimeUnit.symbol ⟨n, [], unit⟩ = (toString n ++ String.singleton unit.symbol).toList := by
  rw [String.toList_append, Nat.toString_eq_repr, Nat.toList_repr, String.toList_singleton,
    Amount.print, Amount.printFraction, List.append_nil]

theorem durationAsHumanString_toList (durationMs : Nat) : (durationAsHumanString durationMs).toList =
    (durationAmounts durationMs).flatMap (Amount.print TimeUnit.symbol) := by
  unfold durationAsHumanString durationAmounts
  simp only
  by_cases hours : durationMs / 1000 / 60 / 60 ≠ 0
  · rw [if_pos hours, if_pos hours, List.flatMap_cons, print_whole, String.toList_append]
    refine congrArg (_ ++ ·) ?_
    by_cases minutes : durationMs / 1000 / 60 % 60 ≠ 0
    · rw [if_pos minutes, if_pos minutes, List.flatMap_singleton, print_whole]
      rfl
    · rw [if_neg minutes, if_neg minutes]
      rfl
  · rw [if_neg hours, if_neg hours]
    by_cases minutes : durationMs / 1000 / 60 % 60 ≠ 0
    · rw [if_pos minutes, if_pos minutes, List.flatMap_cons, List.flatMap_singleton, print_whole,
        print_whole, ← String.toList_append, ← String.append_assoc]
      rfl
    · rw [if_neg minutes, if_neg minutes, List.flatMap_singleton, Amount.print,
        printFraction_threeDigits (Nat.mod_lt _ (by decide)), String.toList_append, String.toList_append,
        Nat.toString_eq_repr, Nat.toList_repr]
      rfl

theorem durationAmounts_cases (durationMs : Nat) :
    (3600 * 1000 ≤ durationMs ∧ durationAmounts durationMs =
      ⟨durationMs / 3600000, [], .hours⟩ ::
        if durationMs / 60000 % 60 ≠ 0 then [⟨durationMs / 60000 % 60, [], .minutes⟩] else []) ∨
    (60 * 1000 ≤ durationMs ∧ durationMs < 3600 * 1000 ∧ durationAmounts durationMs =
      [⟨durationMs / 60000, [], .minutes⟩, ⟨durationMs / 1000 % 60, [], .seconds⟩]) ∨
    (durationMs < 60 * 1000 ∧ durationAmounts durationMs =
      [⟨durationMs / 1000, threeDigitAmount (durationMs % 1000), .seconds⟩]) := by
  have minutes : durationMs / 1000 / 60 = durationMs / 60000 := Nat.div_div_eq_div_mul ..
  have hours : durationMs / 60000 / 60 = durationMs / 3600000 := Nat.div_div_eq_div_mul ..
  simp only [durationAmounts, minutes, hours]
  by_cases hour : durationMs / 3600000 ≠ 0
  · exact .inl ⟨by omega, if_pos hour⟩
  · refine .inr ?_
    rw [if_neg hour]
    by_cases minute : durationMs / 60000 % 60 ≠ 0
    · rw [if_pos minute, Nat.mod_eq_of_lt (by omega : durationMs / 60000 < 60)]
      exact .inl ⟨by omega, by omega, rfl⟩
    · rw [if_neg minute, Nat.mod_eq_of_lt (by omega : durationMs / 1000 < 60)]
      exact .inr ⟨by omega, rfl⟩

theorem threeDigitAmount_small (small : n < 1000) : ∀ d ∈ threeDigitAmount n, d < 10 := by
  unfold threeDigitAmount
  split
  · simp
  · simp only [List.forall_mem_cons]
    exact ⟨by omega, by omega, by omega, by simp⟩

theorem threeDigitAmount_value (n : Nat) : Amount.fractionValue (threeDigitAmount n) * 1000 = n := by
  unfold threeDigitAmount
  split
  · rename_i zero
    simp [Amount.fractionValue, zero]
  · have digits : n / 100 * 100 + n / 10 % 10 * 10 + n % 10 = n := by omega
    conv_rhs => rw [← digits]
    push_cast [Amount.fractionValue]
    ring

theorem read_duration (durationMs : Nat) :
    Amount.read TimeUnit.ofSymbol (durationAsHumanString durationMs).toList =
      some (durationAmounts durationMs) := by
  rw [durationAsHumanString_toList]
  refine Amount.read_printed TimeUnit.symbols ?_
  obtain ⟨_, same⟩ | ⟨_, _, same⟩ | ⟨_, same⟩ := durationAmounts_cases durationMs
  · rw [same]
    split <;> simp
  · simp [same]
  · simpa [same] using threeDigitAmount_small (Nat.mod_lt durationMs (by decide))

theorem durationAmounts_ne_nil (durationMs : Nat) : durationAmounts durationMs ≠ [] := by
  obtain ⟨_, same⟩ | ⟨_, _, same⟩ | ⟨_, same⟩ := durationAmounts_cases durationMs <;> rw [same] <;>
    exact List.cons_ne_nil _ _

/-- A text behind a duration is not part of it. -/
theorem duration_last (durationMs : Nat) :
    ∃ unit : TimeUnit, (durationAsHumanString durationMs).toList.getLast? = some unit.symbol := by
  rw [durationAsHumanString_toList]
  exact Amount.printed_last (durationAmounts_ne_nil durationMs)

@[simp] theorem value_whole (n : Nat) (unit : TimeUnit) : (⟨n, [], unit⟩ : Amount TimeUnit).value = n :=
  add_zero _

/-- Nothing but what is rounded away is lost. -/
theorem durationAmounts_readsBack (durationMs : Nat) : ReadsBack durationMs (durationAmounts durationMs) := by
  obtain ⟨long, same⟩ | ⟨long, short, same⟩ | ⟨short, same⟩ := durationAmounts_cases durationMs
  · have sum : durationMs / 3600000 * 3600000 + durationMs / 60000 % 60 * 60000 =
        durationMs / 60000 * 60000 := by omega
    rw [same]
    by_cases minutes : durationMs / 60000 % 60 ≠ 0
    · rw [if_pos minutes]
      refine ⟨rfl, ?_⟩
      rw [roundedDuration, if_pos long, ← sum]
      simp [Amount.total, TimeUnit.millis]
    · rw [if_neg minutes]
      refine ⟨trivial, ?_⟩
      rw [roundedDuration, if_pos long, ← sum, not_not.mp minutes]
      simp [Amount.total, TimeUnit.millis]
  · have sum : durationMs / 60000 * 60000 + durationMs / 1000 % 60 * 1000 =
        durationMs / 1000 * 1000 := by omega
    rw [same]
    refine ⟨rfl, ?_⟩
    rw [roundedDuration, if_neg (Nat.not_le.mpr short), if_pos long, ← sum]
    simp [Amount.total, TimeUnit.millis]
  · have value := threeDigitAmount_value (durationMs % 1000)
    have sum : durationMs / 1000 * 1000 + durationMs % 1000 = durationMs := Nat.div_add_mod' ..
    rw [same]
    refine ⟨trivial, ?_⟩
    rw [roundedDuration, if_neg (by omega), if_neg (Nat.not_le.mpr short)]
    conv_rhs => rw [← sum]
    simp [Amount.total, Amount.value, TimeUnit.millis, add_mul, value]

theorem minutes_omit_iff (minutes seconds : Nat) :
    OmitsZeros [⟨minutes, [], .minutes⟩, ⟨seconds, [], .seconds⟩] ↔ seconds ≠ 0 := by
  constructor
  · intro omits
    have second := omits.no_zero_unit ⟨seconds, [], .seconds⟩ (List.mem_singleton.mpr rfl)
    simpa using second
  · exact fun more => ⟨by simpa using more, by simp⟩

theorem fraction_omits_iff (seconds n : Nat) :
    OmitsZeros [⟨seconds, threeDigitAmount n, .seconds⟩] ↔ (n ≠ 0 → n % 10 ≠ 0) := by
  have last : (threeDigitAmount n).getLast? ≠ some 0 ↔ (n ≠ 0 → n % 10 ≠ 0) := by
    unfold threeDigitAmount
    split
    · rename_i zero
      simp [zero]
    · rename_i more
      simp [more]
  rw [← last]
  constructor
  · exact fun omits => omits.no_trailing_zero _ (List.mem_singleton.mpr rfl)
  · exact fun digits => ⟨by simp, by simpa using digits⟩

theorem durationAmounts_omits_iff (durationMs : Nat) : OmitsZeros (durationAmounts durationMs) ↔
    (60 * 1000 ≤ durationMs → durationMs < 3600 * 1000 → durationMs / 1000 % 60 ≠ 0) ∧
      (durationMs < 60 * 1000 → durationMs % 1000 ≠ 0 → durationMs % 10 ≠ 0) := by
  obtain ⟨long, same⟩ | ⟨long, short, same⟩ | ⟨short, same⟩ := durationAmounts_cases durationMs
  · have omits : OmitsZeros (durationAmounts durationMs) := by
      rw [same]
      split
      · exact ⟨by simpa using ‹durationMs / 60000 % 60 ≠ 0›, by simp⟩
      · exact ⟨by simp, by simp⟩
    exact iff_of_true omits ⟨fun _ _ => by omega, fun _ => by omega⟩
  · rw [same, minutes_omit_iff]
    exact ⟨fun seconds => ⟨fun _ _ => seconds, fun _ => by omega⟩, fun fits => fits.1 long short⟩
  · have digit : durationMs % 1000 % 10 = durationMs % 10 := Nat.mod_mod_of_dvd _ (by decide)
    rw [same, fraction_omits_iff, digit]
    exact ⟨fun digits => ⟨fun _ => by omega, fun _ => digits⟩, fun fits => fits.2 short⟩

/-- A zero is omitted behind hours only: behind minutes there are always seconds, and a
fraction always has three digits. -/
theorem duration_canonical_iff (durationMs : Nat) :
    Canonical durationMs (durationAsHumanString durationMs) ↔
      (60 * 1000 ≤ durationMs → durationMs < 3600 * 1000 → durationMs / 1000 % 60 ≠ 0) ∧
        (durationMs < 60 * 1000 → durationMs % 1000 ≠ 0 → durationMs % 10 ≠ 0) := by
  simp only [Canonical, read_duration, Option.some.injEq, exists_eq_left']
  rw [and_iff_right (durationAmounts_readsBack durationMs)]
  exact durationAmounts_omits_iff durationMs

example : durationAsHumanString 61000 = "1m1s" := by decide

example : durationAsHumanString 1030 = "1.030s" := by decide

/-- 60000ms -> 1m0s -/
theorem whole_minute_not_canonical :
    ¬ ∀ durationMs, Canonical durationMs (durationAsHumanString durationMs) := by
  intro claim
  obtain ⟨amounts, read, _, omits⟩ := claim 60000
  rw [read_duration] at read
  cases read
  exact omits.no_zero_unit ⟨0, [], .seconds⟩ (List.mem_singleton.mpr rfl) (value_whole 0 _)

end BuildOTron.Web
