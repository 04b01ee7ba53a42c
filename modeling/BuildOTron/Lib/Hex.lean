import Mathlib.Data.Nat.Notation

/-! Hexadecimal text, in either case of its letters. -/
namespace Hex

def digit (c : Char) : Option ℕ :=
  if '0' ≤ c ∧ c ≤ '9' then some (c.toNat - '0'.toNat)
  else if 'a' ≤ c ∧ c ≤ 'f' then some (c.toNat - 'a'.toNat + 10)
  else if 'A' ≤ c ∧ c ≤ 'F' then some (c.toNat - 'A'.toNat + 10)
  else none

/-- Nothing for an odd number of digits or another character. -/
def decode : List Char → Option (List UInt8)
  | [] => some []
  | [_] => none
  | high :: low :: text => do
    let high ← digit high
    let low ← digit low
    let bytes ← decode text
    return UInt8.ofNat (16 * high + low) :: bytes

inductive Encodes : List Char → List UInt8 → Prop where
  | nil : Encodes [] []
  | byte (first : digit high = some (b.toNat / 16)) (second : digit low = some (b.toNat % 16))
    (rest : Encodes text bytes) : Encodes (high :: low :: text) (b :: bytes)

theorem digit_lt (read : digit c = some d) : d < 16 := by
  unfold digit at read
  split at read
  · rename_i range
    have top : c.toNat ≤ '9'.toNat := range.2
    have nine : '9'.toNat = 57 := rfl
    have zero : '0'.toNat = 48 := rfl
    cases read
    omega
  split at read
  · rename_i range
    have top : c.toNat ≤ 'f'.toNat := range.2
    have letter : 'f'.toNat = 'a'.toNat + 5 := rfl
    cases read
    omega
  split at read
  · rename_i range
    have top : c.toNat ≤ 'F'.toNat := range.2
    have letter : 'F'.toNat = 'A'.toNat + 5 := rfl
    cases read
    omega
  · contradiction

theorem decode_iff {text : List Char} {bytes : List UInt8} :
    decode text = some bytes ↔ Encodes text bytes := by
  constructor
  · intro read
    fun_induction decode text generalizing bytes with
    | case1 =>
      cases read
      exact .nil
    | case2 => contradiction
    | case3 high low text ih =>
      simp only [Option.bind_eq_bind, Option.bind_eq_some_iff, Option.pure_def, Option.some.injEq] at read
      obtain ⟨a, first, b, second, rest, decoded, rfl⟩ := read
      have := digit_lt first
      have := digit_lt second
      have byte : (UInt8.ofNat (16 * a + b)).toNat = 16 * a + b := by
        rw [UInt8.toNat_ofNat']
        omega
      refine .byte ?_ ?_ (ih decoded)
      · rw [byte, first, Option.some.injEq]
        omega
      · rw [byte, second, Option.some.injEq]
        omega
  · intro encodes
    induction encodes with
    | nil => rfl
    | byte first second _ ih =>
      simp only [decode, first, second, ih, Option.bind_eq_bind, Option.bind_some, Option.pure_def,
        Nat.div_add_mod, UInt8.ofNat_toNat]

end Hex
