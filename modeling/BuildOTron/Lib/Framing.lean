import BuildOTron.Lib.Outcome

/-! Words on a byte stream that a transport hands over in chunks, where the receiver
takes each chunk for one word. The code is framed by its chunks when every word opens
with the same byte and is read neither cut short nor with another word behind it. -/

structure Framed {α β ε : Type} (encode : α → List β) (decode : List β → Outcome ε α) : Prop where
  whole : ∀ word, decode (encode word) = .ok word
  /-- a proper part of a word is not one -/
  cut : ∀ word first rest, encode word = first ++ rest → rest ≠ [] →
    ∀ value, decode first ≠ .ok value
  opening : ∃ byte, (∀ word, ∃ more, encode word = byte :: more) ∧
    ∀ word more value, decode (encode word ++ byte :: more) ≠ .ok value

namespace Framed
variable {α β ε : Type} {encode : α → List β} {decode : List β → Outcome ε α}

theorem receives_words (framed : Framed encode decode) (words : List α) :
    (words.map encode).mapM decode = .ok words := by
  induction words with
  | nil => rfl
  | cons word words ih => simp [framed.whole word, ih]

/-- A chunk that is read as the first word, at the head of the words' bytes, is that word. -/
theorem first_chunk (framed : Framed encode decode) {chunk rest : List β} {word : α} {words : List α}
    (bytes : chunk ++ rest = encode word ++ (words.map encode).flatten)
    (read : decode chunk = .ok value) : chunk = encode word := by
  rcases List.append_eq_append_iff.mp bytes with ⟨tail, same, _⟩ | ⟨tail, same, later⟩
  · by_cases empty : tail = []
    · rw [same, empty, List.append_nil]
    · exact absurd read (framed.cut word chunk tail same empty value)
  · cases tail with
    | nil => rw [same, List.append_nil]
    | cons b tail =>
      obtain ⟨byte, opens, trailing⟩ := framed.opening
      cases words with
      | nil => simp at later
      | cons next words =>
        obtain ⟨more, begins⟩ := opens next
        rw [List.map_cons, List.flatten_cons, begins, List.cons_append, List.cons_append] at later
        obtain ⟨rfl, _⟩ := List.cons.inj later
        rw [same] at read
        exact absurd read (trailing word tail value)

/-- However the words' bytes are cut, they are received exactly when each chunk is a word. -/
theorem received_iff (framed : Framed encode decode) (words : List α) (chunks : List (List β))
    (bytes : chunks.flatten = (words.map encode).flatten) :
    chunks.mapM decode = .ok words ↔ chunks = words.map encode := by
  constructor
  · intro received
    have each := Outcome.mapM_eq_ok.mp received
    clear received
    induction each with
    | nil => rfl
    | cons read others ih =>
      rw [List.map_cons, List.flatten_cons, List.flatten_cons] at bytes
      obtain rfl := framed.first_chunk bytes read
      rw [List.map_cons, ih (List.append_cancel_left bytes)]
  · rintro rfl
    exact framed.receives_words words

end Framed
