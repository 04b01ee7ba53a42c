import BuildOTron.Lib.JsonScan
import BuildOTron.Lib.Machine

/-! JSON as bytes. `print` is the compact form; `parse` runs a machine over the bytes
one at a time, so what it makes of a text cut in two is the two runs one after the
other. A parser's state is the arrays and objects that are still open and what it is
in the middle of. -/
namespace Json
open Transition

def printString (text : String) : List UInt8 := 34 :: ((utf8 text).flatMap escape ++ [34])

mutual

def print : Json → List UInt8
  | .null => utf8 "null"
  | .bool true => utf8 "true"
  | .bool false => utf8 "false"
  | .int value => intText value
  | .number text => utf8 text
  | .str value => printString value
  | .arr [] => [91, 93]
  | .arr (item :: items) => 91 :: (item.print ++ printItems items)
  | .obj [] => [123, 125]
  | .obj ((key, value) :: fields) =>
    123 :: (printString key ++ 58 :: (value.print ++ printFields fields))

/-- The items after one, and the bracket. -/
def printItems : List Json → List UInt8
  | [] => [93]
  | item :: items => 44 :: (item.print ++ printItems items)

def printFields : List (String × Json) → List UInt8
  | [] => [125]
  | (key, value) :: fields => 44 :: (printString key ++ 58 :: (value.print ++ printFields fields))

end

/-- An array or an object that is still open; the key is that of the value to come. -/
inductive Frame where
  | arr (items : List Json)
  | obj (fields : List (String × Json)) (key : String)

inductive Mode where
  | value
  | firstItem
  | firstKey
  | key
  | colon
  | literal (rest : List UInt8) (value : Json)
  | number (scan : NumberScan) (text : List UInt8)
  | string (isKey : Bool) (scan : StringScan) (bytes : List UInt8)
  | after (value : Json)

structure Parser where
  stack : List Frame
  mode : Mode

/-- How many arrays and objects may be inside one another. -/
def maxDepth : Nat := 127

def isSpace (b : UInt8) : Bool := b = 32 || b = 10 || b = 13 || b = 9

namespace Parser

def start : Parser := ⟨[], .value⟩

/-- One more array or object, unless too many are open. -/
def enter (stack : List Frame) (frame : Frame) (mode : Mode) : Option Parser :=
  if stack.length < maxDepth then some ⟨frame :: stack, mode⟩ else none

def beginValue (stack : List Frame) (b : UInt8) : Option Parser :=
  if b = 34 then some ⟨stack, .string false .plain []⟩
  else if b = 91 then enter stack (.arr []) .firstItem
  else if b = 123 then enter stack (.obj [] "") .firstKey
  else if b = 110 then some ⟨stack, .literal (utf8 "ull") .null⟩
  else if b = 116 then some ⟨stack, .literal (utf8 "rue") (.bool true)⟩
  else if b = 102 then some ⟨stack, .literal (utf8 "alse") (.bool false)⟩
  else (NumberScan.first b).map fun scan => ⟨stack, .number scan [b]⟩

/-- What may follow a value that is not followed by space. -/
def follow (value : Json) (b : UInt8) : List Frame → Option Parser
  | [] => none
  | .arr items :: stack =>
    if b = 44 then some ⟨.arr (items ++ [value]) :: stack, .value⟩
    else if b = 93 then some ⟨stack, .after (.arr (items ++ [value]))⟩
    else none
  | .obj fields key :: stack =>
    if b = 44 then some ⟨.obj (fields ++ [(key, value)]) "" :: stack, .key⟩
    else if b = 125 then some ⟨stack, .after (.obj (fields ++ [(key, value)]))⟩
    else none

def afterValue (stack : List Frame) (value : Json) (b : UInt8) : Option Parser :=
  if isSpace b then some ⟨stack, .after value⟩ else follow value b stack

/-- The end of an array or object with nothing in it. -/
def closeEmpty : List Frame → Option Parser
  | .arr items :: stack => some ⟨stack, .after (.arr items)⟩
  | .obj fields _ :: stack => some ⟨stack, .after (.obj fields)⟩
  | [] => none

def finishString (isKey : Bool) (text : String) : List Frame → Option Parser
  | .obj fields key :: stack =>
    if isKey then some ⟨.obj fields text :: stack, .colon⟩
    else some ⟨.obj fields key :: stack, .after (.str text)⟩
  | stack => if isKey then none else some ⟨stack, .after (.str text)⟩

def step (p : Parser) (b : UInt8) : Option Parser :=
  match p.mode with
  | .value => if isSpace b then some p else beginValue p.stack b
  | .firstItem =>
    if isSpace b then some p
    else if b = 93 then closeEmpty p.stack
    else beginValue p.stack b
  | .firstKey =>
    if isSpace b then some p
    else if b = 125 then closeEmpty p.stack
    else if b = 34 then some ⟨p.stack, .string true .plain []⟩
    else none
  | .key =>
    if isSpace b then some p
    else if b = 34 then some ⟨p.stack, .string true .plain []⟩
    else none
  | .colon => if isSpace b then some p else if b = 58 then some ⟨p.stack, .value⟩ else none
  | .literal [] _ => none
  | .literal (c :: rest) value =>
    if b = c then some ⟨p.stack, if rest = [] then .after value else .literal rest value⟩ else none
  | .number scan text =>
    match scan.step b with
    | some next => some ⟨p.stack, .number next (text ++ [b])⟩
    | none => (numberValue scan text).bind fun value => afterValue p.stack value b
  | .string isKey scan bytes =>
    match scan.step b with
    | some (next, out) => some ⟨p.stack, .string isKey next (bytes ++ out)⟩
    | none =>
      if scan = .plain ∧ b = 34 then (textOf bytes).bind fun text => finishString isKey text p.stack
      else none
  | .after value => afterValue p.stack value b

/-- The value of a text that ends here. -/
def finish : Parser → Option Json
  | ⟨[], .after value⟩ => some value
  | ⟨[], .number scan text⟩ => numberValue scan text
  | _ => none

end Parser

def parser : Machine Parser UInt8 := ⟨Parser.step⟩

def parse (bytes : List UInt8) : Option Json := (parser.run .start bytes).bind Parser.finish

example : parse (utf8 " \x7b\"a\": [1, -2.5e-3, \"\\u00e9\\n\"], \"b\":null\x7d") =
    some (.obj [("a", .arr [.int 1, .number "-2.5e-3", .str "é\n"]), ("b", .null)]) := rfl

/-! ### What is printed is parsed -/

mutual

/-- Every number in it is an integer that stays one. -/
def Plain : Json → Prop
  | .int value => InRange value
  | .number _ => False
  | .arr items => PlainItems items
  | .obj fields => PlainFields fields
  | .null | .bool _ | .str _ => True

def PlainItems : List Json → Prop
  | [] => True
  | item :: items => item.Plain ∧ PlainItems items

def PlainFields : List (String × Json) → Prop
  | [] => True
  | (_, value) :: fields => value.Plain ∧ PlainFields fields

end

mutual

/-- How many arrays and objects are inside one another. -/
def depth : Json → Nat
  | .arr items => depthItems items + 1
  | .obj fields => depthFields fields + 1
  | .null | .bool _ | .int _ | .number _ | .str _ => 0

def depthItems : List Json → Nat
  | [] => 0
  | item :: items => max item.depth (depthItems items)

def depthFields : List (String × Json) → Nat
  | [] => 0
  | (_, value) :: fields => max value.depth (depthFields fields)

end

theorem run_cons (p : Parser) (b : UInt8) (bytes : List UInt8) :
    parser.run p (b :: bytes) = (p.step b).bind fun next => parser.run next bytes := rfl

section
variable {stack : List Frame} {rest : List UInt8}

theorem run_scan {s t : StringScan} {bytes text out : List UInt8}
    (scanned : s.scan text = some (t, out)) :
    parser.run ⟨stack, .string isKey s bytes⟩ (text ++ rest) =
      parser.run ⟨stack, .string isKey t (bytes ++ out)⟩ rest := by
  induction text generalizing s bytes out with
  | nil =>
    cases scanned
    rw [List.append_nil, List.nil_append]
  | cons b text ih =>
    obtain ⟨⟨next, first⟩, stepped, later⟩ := Option.bind_eq_some_iff.mp scanned
    obtain ⟨⟨last, others⟩, scanned', same⟩ := Option.map_eq_some_iff.mp later
    cases same
    simp only [List.cons_append, run_cons, Parser.step, stepped, Option.bind_some, ih scanned',
      List.append_assoc]

theorem run_string (isKey : Bool) (text : String) :
    parser.run ⟨stack, .string isKey .plain []⟩ ((utf8 text).flatMap escape ++ 34 :: rest) =
      (Parser.finishString isKey text stack).bind fun next => parser.run next rest := by
  rw [run_scan (StringScan.scan_escapes (utf8 text)), List.nil_append, run_cons]
  have ends : StringScan.step .plain 34 = none := rfl
  simp only [Parser.step, ends, textOf_utf8, and_self, if_true, Option.bind_some]

theorem run_printString (text : String) :
    parser.run ⟨stack, .value⟩ (printString text ++ rest) =
      parser.run ⟨stack, .after (.str text)⟩ rest := by
  have opens : Parser.step ⟨stack, .value⟩ 34 = some ⟨stack, .string false .plain []⟩ := rfl
  have closes : Parser.finishString false text stack = some ⟨stack, .after (.str text)⟩ := by
    cases stack with
    | nil => rfl
    | cons frame stack => cases frame <;> rfl
  rw [printString, List.cons_append, List.append_assoc, List.singleton_append, run_cons, opens]
  exact (run_string false text).trans (by rw [closes]; rfl)

/-- A key and its colon, in a state that waits for one. -/
theorem run_printKey {p : Parser} (key : String) (fields : List (String × Json)) (old : String)
    (opens : p.step 34 = some ⟨.obj fields old :: stack, .string true .plain []⟩) :
    parser.run p (printString key ++ 58 :: rest) =
      parser.run ⟨.obj fields key :: stack, .value⟩ rest := by
  rw [printString, List.cons_append, List.append_assoc, List.singleton_append, run_cons, opens]
  exact run_string true key

theorem run_number {s t : NumberScan} {text bytes : List UInt8} (scanned : s.scan bytes = some t) :
    parser.run ⟨stack, .number s text⟩ (bytes ++ rest) =
      parser.run ⟨stack, .number t (text ++ bytes)⟩ rest := by
  induction bytes generalizing s text with
  | nil =>
    cases scanned
    rw [List.append_nil, List.nil_append]
  | cons b bytes ih =>
    rw [NumberScan.scan, List.foldlM_cons] at scanned
    obtain ⟨next, stepped, later⟩ := Option.bind_eq_some_iff.mp scanned
    simp only [List.cons_append, run_cons, Parser.step, stepped, Option.bind_some, ih later,
      List.append_assoc, List.nil_append]

/-- What follows a value inside an array or an object. -/
def Delimited (rest : List UInt8) : Prop :=
  ∃ b more, rest = b :: more ∧ (b = 44 ∨ b = 93 ∨ b = 125)

theorem delimiter_ends {b : UInt8} (delimiter : b = 44 ∨ b = 93 ∨ b = 125) {last : NumberScan}
    (integer : last = .zero ∨ last = .digits) : last.step b = none := by
  rcases delimiter with rfl | rfl | rfl <;> rcases integer with rfl | rfl <;> rfl

/-- The first byte of a number opens nothing else. -/
theorem number_opens (b : UInt8) : (NumberScan.first b).isSome = true →
    isSpace b = false ∧ b ≠ 34 ∧ b ≠ 91 ∧ b ≠ 93 ∧ b ≠ 123 ∧ b ≠ 110 ∧ b ≠ 116 ∧ b ≠ 102 := by
  apply byte_cases (p := fun b => (NumberScan.first b).isSome = true → isSpace b = false ∧
    b ≠ 34 ∧ b ≠ 91 ∧ b ≠ 93 ∧ b ≠ 123 ∧ b ≠ 110 ∧ b ≠ 116 ∧ b ≠ 102)
  decide +kernel

theorem step_number (starts : NumberScan.first b = some first) :
    Parser.step ⟨stack, .value⟩ b = some ⟨stack, .number first [b]⟩ := by
  obtain ⟨space, quote, bracket, _, brace, n, t, f⟩ := number_opens b (by rw [starts]; rfl)
  simp [Parser.step, Parser.beginValue, space, quote, bracket, brace, n, t, f, starts]

theorem run_intText {value : Int} (inRange : InRange value) (delimited : Delimited rest) :
    parser.run ⟨stack, .value⟩ (intText value ++ rest) =
      parser.run ⟨stack, .after (.int value)⟩ rest := by
  obtain ⟨b, bytes, first, last, text, starts, scanned, integer⟩ := scan_intText value
  obtain ⟨d, more, rfl, delimiter⟩ := delimited
  have opens : Parser.step ⟨stack, .value⟩ b = some ⟨stack, .number first [b]⟩ :=
    step_number starts
  have closes : Parser.step ⟨stack, .number last (intText value)⟩ d =
      Parser.step ⟨stack, .after (.int value)⟩ d := by
    simp only [Parser.step, delimiter_ends delimiter integer, numberValue_intText inRange integer,
      Option.bind_some]
  rw [text, List.cons_append, run_cons, opens]
  show parser.run _ _ = _
  rw [run_number scanned, List.singleton_append, ← text, run_cons, closes]
  rfl

/-- What is printed starts with a byte that opens a value. -/
theorem print_opens (value : Json) (plain : value.Plain) :
    ∃ b more, value.print = b :: more ∧ isSpace b = false ∧ b ≠ 93 := by
  cases value with
  | null => exact ⟨110, utf8 "ull", rfl, rfl, by decide⟩
  | bool value =>
    cases value with
    | true => exact ⟨116, utf8 "rue", rfl, rfl, by decide⟩
    | false => exact ⟨102, utf8 "alse", rfl, rfl, by decide⟩
  | int value =>
    obtain ⟨b, more, first, _, text, starts, _⟩ := scan_intText value
    obtain ⟨space, _, _, bracket, _⟩ := number_opens b (by rw [starts]; rfl)
    exact ⟨b, more, by rw [print, text], space, bracket⟩
  | number text => exact absurd plain (by simp [Plain])
  | str text => exact ⟨34, _, by rw [print, printString], rfl, by decide⟩
  | arr items =>
    cases items with
    | nil => exact ⟨91, [93], by rw [print], rfl, by decide⟩
    | cons item items => exact ⟨91, _, by rw [print], rfl, by decide⟩
  | obj fields =>
    cases fields with
    | nil => exact ⟨123, [125], by rw [print], rfl, by decide⟩
    | cons field fields => exact ⟨123, _, by rw [print], rfl, by decide⟩

theorem run_firstItem {value : Json} (plain : value.Plain) :
    parser.run ⟨stack, .firstItem⟩ (value.print ++ rest) =
      parser.run ⟨stack, .value⟩ (value.print ++ rest) := by
  obtain ⟨b, more, text, space, bracket⟩ := print_opens value plain
  simp only [text, List.cons_append, run_cons, Parser.step, space, bracket, if_false,
    Bool.false_eq_true]

theorem printItems_delimited (items : List Json) : Delimited (printItems items ++ rest) := by
  cases items with
  | nil => exact ⟨93, rest, by rw [printItems]; rfl, .inr (.inl rfl)⟩
  | cons item items => exact ⟨44, _, by rw [printItems, List.cons_append], .inl rfl⟩

theorem printFields_delimited (fields : List (String × Json)) :
    Delimited (printFields fields ++ rest) := by
  cases fields with
  | nil => exact ⟨125, rest, by rw [printFields]; rfl, .inr (.inr rfl)⟩
  | cons field fields => exact ⟨44, _, by rw [printFields, List.cons_append], .inl rfl⟩

end

mutual

theorem run_print (value : Json) (plain : value.Plain) (stack : List Frame) {rest : List UInt8}
    (room : stack.length + value.depth ≤ maxDepth) (delimited : Delimited rest) :
    parser.run ⟨stack, .value⟩ (value.print ++ rest) = parser.run ⟨stack, .after value⟩ rest := by
  cases value with
  | null => rfl
  | bool value => cases value <;> rfl
  | int value =>
    rw [print]
    exact run_intText (by simpa [Plain] using plain) delimited
  | number text => exact absurd plain (by simp [Plain])
  | str text =>
    rw [print]
    exact run_printString text
  | arr items => exact run_printArr items (by simpa [Plain] using plain) stack room rest
  | obj fields => exact run_printObj fields (by simpa [Plain] using plain) stack room rest

theorem run_printArr (items : List Json) (plain : PlainItems items) (stack : List Frame)
    (room : stack.length + depthItems items < maxDepth) (rest : List UInt8) :
    parser.run ⟨stack, .value⟩ (print (.arr items) ++ rest) =
      parser.run ⟨stack, .after (.arr items)⟩ rest := by
  have opens : Parser.step ⟨stack, .value⟩ 91 = some ⟨.arr [] :: stack, .firstItem⟩ :=
    if_pos (Nat.lt_of_le_of_lt (Nat.le_add_right _ _) room)
  match items with
  | [] =>
    rw [print, List.cons_append, run_cons, opens]
    rfl
  | item :: items =>
    obtain ⟨plainItem, plainItems⟩ : item.Plain ∧ PlainItems items := by
      simpa [PlainItems] using plain
    rw [depthItems] at room
    rw [print, List.cons_append, List.append_assoc, run_cons, opens]
    show parser.run _ _ = _
    rw [run_firstItem plainItem, run_print item plainItem _ (by simp; omega) (printItems_delimited items),
      run_printItems items plainItems _ _ _ (by omega)]
    rfl

theorem run_printItems (items : List Json) (plain : PlainItems items) (before : List Json)
    (value : Json) (stack : List Frame) (room : stack.length + depthItems items < maxDepth)
    (rest : List UInt8) :
    parser.run ⟨.arr before :: stack, .after value⟩ (printItems items ++ rest) =
      parser.run ⟨stack, .after (.arr (before ++ value :: items))⟩ rest := by
  cases items with
  | nil =>
    rw [printItems]
    rfl
  | cons item items =>
    obtain ⟨plainItem, plainItems⟩ : item.Plain ∧ PlainItems items := by simpa [PlainItems] using plain
    have next : Parser.step ⟨.arr before :: stack, .after value⟩ 44 =
        some ⟨.arr (before ++ [value]) :: stack, .value⟩ := rfl
    rw [depthItems] at room
    rw [printItems, List.cons_append, List.append_assoc, run_cons, next]
    show parser.run _ _ = _
    rw [run_print item plainItem _ (by simp; omega) (printItems_delimited items),
      run_printItems items plainItems _ _ _ (by omega), List.append_assoc, List.singleton_append]

theorem run_printFields (fields : List (String × Json)) (plain : PlainFields fields)
    (before : List (String × Json)) (key : String) (value : Json) (stack : List Frame)
    (room : stack.length + depthFields fields < maxDepth) (rest : List UInt8) :
    parser.run ⟨.obj before key :: stack, .after value⟩ (printFields fields ++ rest) =
      parser.run ⟨stack, .after (.obj (before ++ (key, value) :: fields))⟩ rest := by
  match fields with
  | [] =>
    rw [printFields]
    rfl
  | (nextKey, nextValue) :: fields =>
    obtain ⟨plainValue, plainFields⟩ : nextValue.Plain ∧ PlainFields fields := by
      simpa [PlainFields] using plain
    have next : Parser.step ⟨.obj before key :: stack, .after value⟩ 44 =
        some ⟨.obj (before ++ [(key, value)]) "" :: stack, .key⟩ := rfl
    rw [depthFields] at room
    rw [printFields, List.cons_append, List.append_assoc, run_cons, next]
    show parser.run _ _ = _
    rw [List.cons_append, List.append_assoc, run_printKey nextKey _ "" rfl,
      run_print nextValue plainValue _ (by simp; omega) (printFields_delimited fields),
      run_printFields fields plainFields _ _ _ _ (by omega), List.append_assoc, List.singleton_append]

/-- An object is over at its brace, whatever follows. -/
theorem run_printObj (fields : List (String × Json)) (plain : PlainFields fields)
    (stack : List Frame) (room : stack.length + depthFields fields < maxDepth) (rest : List UInt8) :
    parser.run ⟨stack, .value⟩ (print (.obj fields) ++ rest) =
      parser.run ⟨stack, .after (.obj fields)⟩ rest := by
  have opens : Parser.step ⟨stack, .value⟩ 123 = some ⟨.obj [] "" :: stack, .firstKey⟩ :=
    if_pos (Nat.lt_of_le_of_lt (Nat.le_add_right _ _) room)
  match fields with
  | [] =>
    rw [print, List.cons_append, run_cons, opens]
    rfl
  | (key, value) :: fields =>
    obtain ⟨plainValue, plainFields⟩ : value.Plain ∧ PlainFields fields := by
      simpa [PlainFields] using plain
    rw [depthFields] at room
    rw [print, List.cons_append, List.append_assoc, run_cons, opens]
    show parser.run _ _ = _
    rw [List.cons_append, List.append_assoc, run_printKey key _ "" rfl,
      run_print value plainValue _ (by simp; omega) (printFields_delimited fields),
      run_printFields fields plainFields _ _ _ _ (by omega)]
    rfl

end

theorem parse_print_obj {fields : List (String × Json)} (plain : PlainFields fields)
    (shallow : depthFields fields < maxDepth) : parse (print (.obj fields)) = some (.obj fields) := by
  have whole := run_printObj fields plain [] (by simpa using shallow) []
  rw [List.append_nil] at whole
  rw [parse, Parser.start, whole]
  rfl

theorem parse_print_arr {items : List Json} (plain : PlainItems items)
    (shallow : depthItems items < maxDepth) : parse (print (.arr items)) = some (.arr items) := by
  have whole := run_printArr items plain [] (by simpa using shallow) []
  rw [List.append_nil] at whole
  rw [parse, Parser.start, whole]
  rfl

theorem plainItems_values {fields : List (String × Json)} (plain : PlainFields fields) :
    PlainItems (fields.map Prod.snd) := by
  induction fields with
  | nil => trivial
  | cons field fields ih => exact ⟨plain.1, ih plain.2⟩

theorem depthItems_values (fields : List (String × Json)) :
    depthItems (fields.map Prod.snd) = depthFields fields := by
  induction fields with
  | nil => rfl
  | cons field fields ih => rw [List.map_cons, depthItems, ih, depthFields]

/-! ### An object is neither cut short nor followed by anything -/

theorem parse_trailing {fields : List (String × Json)} (plain : PlainFields fields)
    (shallow : depthFields fields < maxDepth) {b : UInt8} (follows : isSpace b = false) (more : List UInt8) :
    parse (print (.obj fields) ++ b :: more) = none := by
  have stuck : Parser.step ⟨[], .after (.obj fields)⟩ b = none := by
    simp [Parser.step, Parser.afterValue, follows, Parser.follow]
  rw [parse, Parser.start, run_printObj fields plain [] (by simpa using shallow), run_cons, stuck]
  rfl

namespace Parser
variable {p q : Parser} {stack : List Frame}

/-- Inside the outermost array or object, or behind a value. -/
def Enclosed (p : Parser) : Prop := p.stack ≠ [] ∨ ∃ value, p.mode = .after value

theorem enter_enclosed {opened : Mode} (entered : enter stack frame opened = some q) : q.Enclosed := by
  simp only [enter, Option.ite_none_right_eq_some, Option.some.injEq] at entered
  obtain ⟨_, rfl⟩ := entered
  exact .inl (List.cons_ne_nil _ _)

theorem beginValue_enclosed (inside : stack ≠ []) (begun : beginValue stack b = some q) :
    q.Enclosed := by
  unfold beginValue at begun
  split_ifs at begun
  case neg =>
    obtain ⟨scan, _, rfl⟩ := Option.map_eq_some_iff.mp begun
    exact .inl inside
  all_goals
    first
    | exact enter_enclosed begun
    | cases begun
      exact .inl inside

theorem follow_enclosed (followed : follow value b stack = some q) : q.Enclosed := by
  unfold follow at followed
  split at followed
  · contradiction
  all_goals
    split_ifs at followed <;> cases followed
    · exact .inl (List.cons_ne_nil _ _)
    · exact .inr ⟨_, rfl⟩

theorem afterValue_enclosed (followed : afterValue stack value b = some q) : q.Enclosed := by
  unfold afterValue at followed
  split at followed
  · cases followed
    exact .inr ⟨value, rfl⟩
  · exact follow_enclosed followed

theorem closeEmpty_enclosed (closed : closeEmpty stack = some q) : q.Enclosed := by
  unfold closeEmpty at closed
  split at closed <;> cases closed
  · exact .inr ⟨_, rfl⟩
  · exact .inr ⟨_, rfl⟩

theorem finishString_enclosed (inside : stack ≠ []) (finished : finishString isKey text stack = some q) :
    q.Enclosed := by
  unfold finishString at finished
  split at finished <;> split at finished <;> cases finished
  · exact .inl (List.cons_ne_nil _ _)
  · exact .inr ⟨_, rfl⟩
  · exact .inl inside

/-- Only a value that is complete can leave the outermost array or object. -/
theorem step_enclosed (enclosed : p.Enclosed) (stepped : p.step b = some q) : q.Enclosed := by
  obtain ⟨stack, mode⟩ := p
  have inside : stack ≠ [] ∨ ∃ value, mode = .after value := enclosed
  cases mode with
  | after value => exact afterValue_enclosed stepped
  | value =>
    have inside := inside.resolve_right (by simp)
    simp only [step] at stepped
    split at stepped
    · cases stepped
      exact .inl inside
    · exact beginValue_enclosed inside stepped
  | firstItem =>
    have inside := inside.resolve_right (by simp)
    simp only [step] at stepped
    split_ifs at stepped
    · cases stepped
      exact .inl inside
    · exact closeEmpty_enclosed stepped
    · exact beginValue_enclosed inside stepped
  | firstKey =>
    have inside := inside.resolve_right (by simp)
    simp only [step] at stepped
    split_ifs at stepped
    · cases stepped
      exact .inl inside
    · exact closeEmpty_enclosed stepped
    · cases stepped
      exact .inl inside
  | key =>
    have inside := inside.resolve_right (by simp)
    simp only [step] at stepped
    split_ifs at stepped <;> cases stepped <;> exact .inl inside
  | colon =>
    have inside := inside.resolve_right (by simp)
    simp only [step] at stepped
    split_ifs at stepped <;> cases stepped <;> exact .inl inside
  | literal letters value =>
    have nonempty := inside.resolve_right (by simp)
    cases letters with
    | nil => contradiction
    | cons c rest =>
      simp only [step, Option.ite_none_right_eq_some, Option.some.injEq] at stepped
      obtain ⟨_, rfl⟩ := stepped
      exact .inl nonempty
  | number scan text =>
    have inside := inside.resolve_right (by simp)
    simp only [step] at stepped
    split at stepped
    · cases stepped
      exact .inl inside
    · obtain ⟨value, _, followed⟩ := Option.bind_eq_some_iff.mp stepped
      exact afterValue_enclosed followed
  | string isKey scan bytes =>
    have inside := inside.resolve_right (by simp)
    simp only [step] at stepped
    split at stepped
    · cases stepped
      exact .inl inside
    · simp only [Option.ite_none_right_eq_some] at stepped
      obtain ⟨text, _, finished⟩ := Option.bind_eq_some_iff.mp stepped.2
      exact finishString_enclosed inside finished

theorem Enclosed.finish (enclosed : p.Enclosed) (finished : p.finish = some value) :
    p = ⟨[], .after value⟩ := by
  obtain ⟨stack, mode⟩ := p
  unfold Parser.finish at finished
  split at finished
  · cases finished
    rename_i same
    exact same
  · rename_i same
    cases same
    rcases enclosed with inside | ⟨value, after⟩ <;> contradiction
  · contradiction

/-- Nothing but space follows the whole value. -/
theorem run_after {value : Json} {bytes : List UInt8}
    (path : parser.run ⟨[], .after value⟩ bytes = some p) : ∀ b ∈ bytes, isSpace b = true := by
  induction bytes with
  | nil => simp
  | cons b bytes ih =>
    obtain ⟨next, stepped, path⟩ := Machine.run_cons.mp path
    have space : isSpace b = true := by
      by_contra other
      have stuck : Parser.step ⟨[], .after value⟩ b = none := by
        simp [step, afterValue, follow, other]
      exact absurd (stuck.symm.trans stepped) (by simp)
    have same : next = ⟨[], .after value⟩ := by
      have stays : Parser.step ⟨[], .after value⟩ b = some ⟨[], .after value⟩ := by
        simp [step, afterValue, space]
      exact (Option.some.inj (stays.symm.trans stepped)).symm
    subst same
    rw [List.forall_mem_cons]
    exact ⟨space, ih path⟩

end Parser

theorem printFields_last (fields : List (String × Json)) :
    ∃ front, printFields fields = front ++ [125] := by
  induction fields with
  | nil => exact ⟨[], by rw [printFields]; rfl⟩
  | cons field fields ih =>
    obtain ⟨front, last⟩ := ih
    refine ⟨44 :: (printString field.1 ++ 58 :: (field.2.print ++ front)), ?_⟩
    rw [printFields, last]
    simp

theorem print_obj_last (fields : List (String × Json)) :
    ∃ front, print (.obj fields) = 123 :: (front ++ [125]) := by
  cases fields with
  | nil => exact ⟨[], by rw [print]; rfl⟩
  | cons field fields =>
    obtain ⟨front, last⟩ := printFields_last fields
    refine ⟨printString field.1 ++ 58 :: (field.2.print ++ front), ?_⟩
    rw [print, last]
    simp

/-- A proper part of an object's text is not JSON. -/
theorem parse_prefix {fields : List (String × Json)} (plain : PlainFields fields)
    (shallow : depthFields fields < maxDepth)
    {first rest : List UInt8} (cut : print (.obj fields) = first ++ rest) (proper : rest ≠ []) :
    parse first = none := by
  obtain ⟨front, text⟩ := print_obj_last fields
  have whole : parser.run .start (print (.obj fields)) = some ⟨[], .after (.obj fields)⟩ := by
    have whole := run_printObj fields plain [] (by simpa using shallow) []
    rwa [List.append_nil] at whole
  rw [cut, Machine.run_append] at whole
  obtain ⟨p, path, later⟩ := Option.bind_eq_some_iff.mp whole
  rw [parse, path, Option.bind_some]
  by_contra accepted
  obtain ⟨value, finished⟩ := Option.ne_none_iff_exists'.mp accepted
  cases first with
  | nil =>
    cases path
    contradiction
  | cons b first =>
    rw [text, List.cons_append] at cut
    obtain ⟨rfl, body⟩ := List.cons.inj cut
    obtain ⟨opened, stepped, path⟩ := Machine.run_cons.mp path
    cases stepped
    have enclosed : p.Enclosed := by
      refine Machine.invariant (fun _ _ _ => Parser.step_enclosed) (Or.inl ?_) path
      exact List.cons_ne_nil _ _
    -- the brace that closes the object is still to be read
    obtain rfl := enclosed.finish finished
    have spaces := Parser.run_after later
    have brace : (125 : UInt8) ∈ rest := by
      have last : (first ++ rest).getLast? = some 125 := by rw [← body]; simp
      rw [List.getLast?_append_of_ne_nil _ proper] at last
      exact List.mem_of_getLast? last
    exact absurd (spaces 125 brace) (by decide)

end Json
