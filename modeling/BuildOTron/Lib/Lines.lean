import Mathlib.Data.List.DropRight

/-! Text in sections of lines, each of them a label, a separator and what is said behind
it. A line that is printed is found again by what it starts with. -/
namespace Lines

/-- The characters of Unicode's White_Space. -/
def isSpace (c : Char) : Bool :=
  (9 ≤ c.toNat && c.toNat ≤ 13) || (0x2000 ≤ c.toNat && c.toNat ≤ 0x200a) ||
    [0x20, 0x85, 0xa0, 0x1680, 0x2028, 0x2029, 0x202f, 0x205f, 0x3000].contains c.toNat

def trim (text : List Char) : List Char := (text.dropWhile isSpace).rdropWhile isSpace

/-- Behind the last separator, all of it where there is none. -/
def lastPart (sep : Char) (text : List Char) : List Char :=
  (text.splitOn sep).getLast (List.splitOn_ne_nil sep text)

structure Entry where
  label : List Char
  said : List Char
  label_line : '\n' ∉ label
  said_line : '\n' ∉ said

def Entry.line (sep : Char) (entry : Entry) : List Char := entry.label ++ sep :: entry.said

def printEntries (sep : Char) (entries : List Entry) : List Char :=
  entries.flatMap fun entry => entry.line sep ++ ['\n']

/-- There is an empty line behind each section. -/
def print (sep : Char) (sections : List (List Entry)) : List Char :=
  sections.flatMap fun entries => printEntries sep entries ++ ['\n']

/-- A section in which the lines that start in one of these ways are among the known ones. -/
structure Section (sep : Char) (starts : List (List Char)) where
  known : List Entry
  others : List Entry
  unasked : ∀ entry ∈ others, ∀ start ∈ starts, start.isPrefixOf (entry.line sep) = false

def Section.entries {starts : List (List Char)} (s : Section sep starts) : List Entry := s.known ++ s.others

variable {sep : Char}

theorem Entry.line_whole (other : sep ≠ '\n') (entry : Entry) : '\n' ∉ entry.line sep := by
  rw [Entry.line, List.mem_append, List.mem_cons]
  rintro (inside | same | inside)
  · exact entry.label_line inside
  · exact other same.symm
  · exact entry.said_line inside

theorem splitOn_printEntries (other : sep ≠ '\n') (entries : List Entry) (rest : List Char) :
    (printEntries sep entries ++ rest).splitOn '\n' = entries.map (Entry.line sep) ++ rest.splitOn '\n' := by
  induction entries with
  | nil => rfl
  | cons entry entries ih =>
    have split : printEntries sep (entry :: entries) ++ rest =
        entry.line sep ++ '\n' :: (printEntries sep entries ++ rest) := by
      simp [printEntries]
    rw [split, List.splitOn_append_cons_self_of_not_mem (entry.line_whole other), ih]
    rfl

/-- The lines that start in some way, empty ones left out. -/
theorem filter_print (other : sep ≠ '\n') {start : List Char} (nonempty : start ≠ [])
    (sections : List (List Entry)) : ((print sep sections).splitOn '\n').filter start.isPrefixOf =
      (sections.flatten.map (Entry.line sep)).filter start.isPrefixOf := by
  have empty : start.isPrefixOf [] = false := by
    cases start with
    | nil => exact absurd rfl nonempty
    | cons c start => rfl
  induction sections with
  | nil => simp [print, empty]
  | cons entries sections ih =>
    have split : print sep (entries :: sections) =
        printEntries sep entries ++ '\n' :: print sep sections := by
      simp [print]
    have blank : ('\n' :: print sep sections).splitOn '\n' = [] :: (print sep sections).splitOn '\n' := by
      simp [List.splitOn_cons_eq_if_modifyHead]
    rw [split, splitOn_printEntries other, blank, List.filter_append, List.filter_cons, empty,
      if_neg (by simp), ih, List.flatten_cons, List.map_append, List.filter_append]

/-- Section by section, and only among the known lines. -/
theorem filter_sections (other : sep ≠ '\n') {starts : List (List Char)} {start : List Char}
    (listed : start ∈ starts) (nonempty : start ≠ []) (sections : List (Section sep starts)) :
    ((print sep (sections.map Section.entries)).splitOn '\n').filter start.isPrefixOf =
      sections.flatMap fun s => (s.known.map (Entry.line sep)).filter start.isPrefixOf := by
  rw [filter_print other nonempty]
  induction sections with
  | nil => rfl
  | cons s sections ih =>
    have none : (s.others.map (Entry.line sep)).filter start.isPrefixOf = [] := by
      rw [List.filter_eq_nil_iff, List.forall_mem_map]
      intro entry member
      rw [s.unasked entry member start listed]
      exact Bool.false_ne_true
    rw [List.map_cons, List.flatten_cons, List.map_append, List.filter_append, ih, Section.entries,
      List.map_append, List.filter_append, none, List.append_nil, List.flatMap_cons]

theorem lastPart_line (entry : Entry) : lastPart sep (entry.line sep) = lastPart sep entry.said := by
  have split : (entry.line sep).splitOn sep = entry.label.splitOn sep ++ entry.said.splitOn sep :=
    List.splitOn_append_cons_self _ _
  simp only [lastPart, split]
  exact List.getLast_append_of_ne_nil _ _

theorem trim_cons {c : Char} (space : isSpace c = true) (text : List Char) :
    trim (c :: text) = trim text := by
  rw [trim, List.dropWhile_cons_of_pos space, trim]

theorem trim_concat {c : Char} (space : isSpace c = true) (text : List Char) :
    trim (text ++ [c]) = trim text := by
  rw [trim, List.dropWhile_append]
  split
  · rename_i blank
    rw [List.dropWhile_cons_of_pos space, trim, List.isEmpty_iff.mp blank, List.dropWhile_nil]
  · rw [List.rdropWhile_concat_pos _ _ _ space, trim]

/-- A blank in front goes with the trimming, in whichever part it is. -/
theorem trim_lastPart_cons {c : Char} (space : isSpace c = true) (other : c ≠ sep) (text : List Char) :
    trim (lastPart sep (c :: text)) = trim (lastPart sep text) := by
  have split : (c :: text).splitOn sep = (text.splitOn sep).modifyHead (List.cons c) := by
    rw [List.splitOn_cons_eq_if_modifyHead, if_neg (by simpa using other)]
  have last : ∀ parts : List (List Char), ∀ nonempty : parts ≠ [],
      trim ((parts.modifyHead (List.cons c)).getLast (by simpa using nonempty)) =
        trim (parts.getLast nonempty) := by
    intro parts nonempty
    match parts with
    | [part] => exact trim_cons space part
    | part :: next :: rest => simp
  simp only [lastPart, split]
  exact last _ _

theorem trim_of_no_space {text : List Char} (none : ∀ c ∈ text, isSpace c = false) :
    trim text = text := by
  have front : text.dropWhile isSpace = text := by
    cases text with
    | nil => rfl
    | cons c text => exact List.dropWhile_cons_of_neg (by simp [none c])
  rw [trim, front, List.rdropWhile_eq_self_iff]
  intro nonempty
  simp [none _ (List.getLast_mem nonempty)]

theorem isSpace_digit {c : Char} (digit : c.isDigit = true) : isSpace c = false := by
  simp only [Char.isDigit, Bool.and_eq_true, decide_eq_true_eq] at digit
  have low : 48 ≤ c.toNat := UInt32.le_iff_toNat_le.mp digit.1
  have high : c.toNat ≤ 57 := UInt32.le_iff_toNat_le.mp digit.2
  simp [isSpace]
  omega

end Lines
