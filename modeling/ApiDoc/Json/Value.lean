import ApiDoc.Number.Binary64

/-!
# JSON values

A JSON tree whose objects keep their fields in the order in which they were written, and whose
numbers remember whether they are integers or floating point.
-/

namespace ApiDoc

/-- A JSON value. -/
inductive Json where
  /-- The value `null`. -/
  | null
  /-- A truth value. -/
  | bool (value : Bool)
  /-- A whole number. -/
  | integer (value : Int)
  /-- A floating point number. -/
  | decimal (value : Binary64)
  /-- A string. -/
  | text (value : String)
  /-- A list of values. -/
  | list (items : List Json)
  /-- An object, its fields in order. -/
  | object (fields : List (String × Json))
  deriving Inhabited

namespace Json

/-- One more than the greatest unsigned 64-bit word. -/
def wordEnd : Int := 0x10000000000000000

/-- A count or an index as a JSON number. -/
def nat (n : Nat) : Json := integer n

/-- A present value, or `null`. -/
def ofOption (encode : α → Json) : Option α → Json
  | some a => encode a
  | none => null

/-- A list of encoded values. -/
def ofList (encode : α → Json) (items : List α) : Json := list (items.map encode)

/-- The field with the given name and value when there is a value. -/
def optionalField (name : String) (encode : α → Json) : Option α → List (String × Json)
  | some a => [(name, encode a)]
  | none => []

/-- The field with the given text unless the text is empty. -/
def textField (name : String) (value : String) : List (String × Json) :=
  if value.isEmpty then [] else [(name, text value)]

/-- Fields with one more: a field of that name is replaced where it stands, a new one comes
last. -/
def putField (name : String) (value : Json) : List (String × Json) → List (String × Json)
  | [] => [(name, value)]
  | field :: rest =>
    if field.1 = name then (name, value) :: rest else field :: putField name value rest

/-- An object with one more field; anything but an object is left as it is. -/
def put (target : Json) (name : String) (value : Json) : Json :=
  match target with
  | object fields => object (putField name value fields)
  | other => other

/-- The value of a field of an object. -/
def field? (name : String) : Json → Option Json
  | object fields => fields.lookup name
  | _ => none

end Json

end ApiDoc
