import Mathlib.Data.List.Basic

/-! JSON values. Objects keep their members in order; integers are exact and any
other number is kept as the text it was written with. -/

inductive Json where
  | null
  | bool (value : Bool)
  | int (value : Int)
  | number (text : String)
  | str (value : String)
  | arr (items : List Json)
  | obj (fields : List (String × Json))

namespace Json

/-- The member `key` of an object's members. -/
def field? (fields : List (String × Json)) (key : String) : Option Json := fields.lookup key

def asStr : Json → Option String
  | .str value => some value
  | _ => none

def asObj : Json → Option (List (String × Json))
  | .obj fields => some fields
  | _ => none

mutual

/-- What `serde_json::Value` keeps of a text: of the members with one key, the last. The
order of members is kept here and not there; no reader looks at it. -/
def asValue : Json → Json
  | .arr items => .arr (asValues items)
  | .obj fields => .obj (asMap fields)
  | .null => .null
  | .bool value => .bool value
  | .int value => .int value
  | .number text => .number text
  | .str text => .str text

def asValues : List Json → List Json
  | [] => []
  | item :: items => item.asValue :: asValues items

def asMap : List (String × Json) → List (String × Json)
  | [] => []
  | (key, value) :: fields =>
    if (asMap fields).any fun field => field.1 = key then asMap fields
    else (key, value.asValue) :: asMap fields

end

/-! No object has two members of one name: then nothing is lost in a `Value`. -/

mutual

def DistinctKeys : Json → Prop
  | .arr items => DistinctItems items
  | .obj fields => DistinctFields fields
  | .null | .bool _ | .int _ | .number _ | .str _ => True

def DistinctItems : List Json → Prop
  | [] => True
  | item :: items => item.DistinctKeys ∧ DistinctItems items

def DistinctFields : List (String × Json) → Prop
  | [] => True
  | (key, value) :: fields =>
    key ∉ fields.map Prod.fst ∧ value.DistinctKeys ∧ DistinctFields fields

end

mutual

theorem asValue_eq : (value : Json) → value.DistinctKeys → value.asValue = value
  | .arr items, distinct => congrArg Json.arr (asValues_eq items distinct)
  | .obj fields, distinct => congrArg Json.obj (asMap_eq fields distinct)
  | .null, _ | .bool _, _ | .int _, _ | .number _, _ | .str _, _ => rfl

theorem asValues_eq : (items : List Json) → DistinctItems items → asValues items = items
  | [], _ => rfl
  | item :: items, distinct => by
    rw [asValues, asValue_eq item distinct.1, asValues_eq items distinct.2]

theorem asMap_eq : (fields : List (String × Json)) → DistinctFields fields → asMap fields = fields
  | [], _ => rfl
  | (key, value) :: fields, ⟨apart, distinct, rest⟩ => by
    have missing : (fields.any fun field => field.1 = key) = false := by
      rw [List.any_eq_false]
      intro field member same
      exact apart (List.mem_map.mpr ⟨field, member, of_decide_eq_true same⟩)
    rw [asMap, asMap_eq fields rest, missing, asValue_eq value distinct]
    rfl

end

end Json
