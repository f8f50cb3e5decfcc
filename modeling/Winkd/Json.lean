import Winkd.Strings

/-!
# JSON values

`serde_json::Value`, as the server reads payloads and builds events.  A number is kept
as its literal, and an object is the list of its fields; no name occurs in it twice.
-/

namespace Winkd.Server

inductive Json where
  | null
  | bool (b : Bool)
  | num (literal : Text)
  | str (t : Text)
  | arr (items : List Json)
  | obj (fields : List (String × Json))

namespace Json

/-- `Value::get`: the field of an object. -/
def get (key : String) : Json → Option Json
  | .obj fields => (fields.find? fun f => f.1 = key).map Prod.snd
  | _ => none

/-- The value of the first of several names that is a field: a chain of
`.or_else(|| payload.get(…))`. -/
def getAny (keys : List String) (j : Json) : Option Json := keys.findSome? fun key => j.get key

/-- `Value::as_str`. -/
def asStr : Json → Option Text
  | .str t => some t
  | _ => none

/-- `Value::as_i64`. -/
def asI64 : Json → Option ℤ
  | .num literal => Text.parseI64 literal
  | _ => none

/-- The value of a field if it is a string. -/
def getStr (key : String) (j : Json) : Option Text := (j.get key).bind asStr

/-- The fields with `key` set to `v`. -/
def setField (key : String) (v : Json) : List (String × Json) → List (String × Json)
  | [] => [(key, v)]
  | f :: fields => if f.1 = key then (key, v) :: fields else f :: setField key v fields

/-- `value[key] = v`: sets a field of an object, and makes an object of `null`.  It
panics on any other value. -/
def set (j : Json) (key : String) (v : Json) : Json :=
  match j with
  | .obj fields => .obj (setField key v fields)
  | .null => .obj [(key, v)]
  | j => j

example : ((obj [("id", .null), ("body", .null)]).set "id" (.bool true)).get "id" = some (.bool true) :=
  rfl

/-- A string literal as a value. -/
def ofString (s : String) : Json := .str s.toList

/-- A number as a value. -/
def ofNat (n : ℕ) : Json := .num (Nat.toDigits 10 n)

def ofInt (n : ℤ) : Json := .num (Text.ofInt n)

/-- `null` where there is no text. -/
def ofText : Option Text → Json
  | none => .null
  | some t => .str t

/-! ## U+0000 -/

mutual

/-- A string or a name in the value has the character U+0000. -/
def hasNul : Json → Bool
  | .str t => t.contains (Char.ofNat 0)
  | .arr items => itemsHaveNul items
  | .obj fields => fieldsHaveNul fields
  | _ => false

def itemsHaveNul : List Json → Bool
  | [] => false
  | j :: items => j.hasNul || itemsHaveNul items

def fieldsHaveNul : List (String × Json) → Bool
  | [] => false
  | (key, j) :: fields => key.toList.contains (Char.ofNat 0) || j.hasNul || fieldsHaveNul fields

end

example : (obj [("body", .arr [.null, .str [Char.ofNat 0]])]).hasNul = true := by decide

end Json
end Winkd.Server
