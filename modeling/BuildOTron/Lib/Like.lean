import Mathlib.Data.List.Basic

/-! SQL's LIKE without an escape character, as SQLite has it: `%` stands for any text, `_`
for any character, and a letter for itself in either case of ASCII. A text ends at its
first NUL. -/
namespace Like

/-- Case is folded within ASCII only. -/
def fold (c : Char) : Char := if c.isUpper then c.toLower else c

/-- A `%` before a pattern: some end of the text meets it. -/
def someEnd (meets : List Char → Bool) : List Char → Bool
  | [] => meets []
  | c :: text => meets (c :: text) || someEnd meets text

def like : List Char → List Char → Bool
  | [], text => text.isEmpty
  | '%' :: pattern, text => someEnd (like pattern) text
  | '_' :: pattern, text =>
    match text with
    | [] => false
    | _ :: text => like pattern text
  | p :: pattern, text =>
    match text with
    | [] => false
    | c :: text => fold p = fold c && like pattern text

def upToNul (text : String) : List Char := text.toList.takeWhile fun c => c ≠ Char.ofNat 0

/-- `text LIKE pattern`. -/
def sqlLike (pattern text : String) : Bool := like (upToNul pattern) (upToNul text)

/-- What a pattern means. -/
inductive Likes : List Char → List Char → Prop where
  | nil : Likes [] []
  | any (skipped : List Char) (rest : Likes pattern text) :
    Likes ('%' :: pattern) (skipped ++ text)
  | one (c : Char) (rest : Likes pattern text) : Likes ('_' :: pattern) (c :: text)
  | letter (plain : p ≠ '%' ∧ p ≠ '_') (same : fold p = fold c) (rest : Likes pattern text) :
    Likes (p :: pattern) (c :: text)

theorem someEnd_iff {meets : List Char → Bool} {text : List Char} :
    someEnd meets text = true ↔ ∃ skipped rest, text = skipped ++ rest ∧ meets rest = true := by
  induction text with
  | nil => simp [someEnd]
  | cons c text ih =>
    rw [someEnd, Bool.or_eq_true, ih]
    constructor
    · rintro (here | ⟨skipped, rest, rfl, later⟩)
      · exact ⟨[], c :: text, rfl, here⟩
      · exact ⟨c :: skipped, rest, rfl, later⟩
    · rintro ⟨skipped, rest, split, meets⟩
      cases skipped with
      | nil =>
        rw [List.nil_append] at split
        exact .inl (split ▸ meets)
      | cons d skipped =>
        rw [List.cons_append, List.cons.injEq] at split
        exact .inr ⟨skipped, rest, split.2, meets⟩

theorem like_letter {p : Char} (plain : p ≠ '%' ∧ p ≠ '_') (pattern : List Char) (c : Char)
    (text : List Char) :
    like (p :: pattern) (c :: text) = (decide (fold p = fold c) && like pattern text) := by
  rw [like.eq_def (p :: pattern)]
  simp [plain.1, plain.2]

theorem not_like_nil {p : Char} (plain : p ≠ '%') (pattern : List Char) :
    like (p :: pattern) [] = false := by
  by_cases one : p = '_'
  · rw [one]
    rfl
  · rw [like.eq_def]
    simp

theorem like_iff {pattern text : List Char} : like pattern text = true ↔ Likes pattern text := by
  constructor
  · intro meets
    induction pattern generalizing text with
    | nil =>
      cases List.isEmpty_iff.mp meets
      exact .nil
    | cons p pattern ih =>
      by_cases any : p = '%'
      · subst any
        obtain ⟨skipped, rest, rfl, later⟩ := someEnd_iff.mp meets
        exact .any skipped (ih later)
      · cases text with
        | nil => exact absurd meets (Bool.eq_false_iff.mp (not_like_nil any pattern))
        | cons c text =>
          by_cases one : p = '_'
          · subst one
            exact .one c (ih meets)
          · rw [like_letter ⟨any, one⟩, Bool.and_eq_true, decide_eq_true_eq] at meets
            exact .letter ⟨any, one⟩ meets.1 (ih meets.2)
  · intro means
    induction means with
    | nil => rfl
    | any skipped _ ih => exact someEnd_iff.mpr ⟨skipped, _, rfl, ih⟩
    | one c _ ih => exact ih
    | letter plain same _ ih =>
      rw [like_letter plain, ih, decide_eq_true same, Bool.true_and]

end Like
