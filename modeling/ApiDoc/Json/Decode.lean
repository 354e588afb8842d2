import ApiDoc.Json.Value

/-!
# Decoding JSON values

A record is decoded from an object, where fields of other names are passed over, or from a list
that gives its fields by position.  A missing field may stand for a default; `null` stands for a
missing value only where the value is optional.
-/

namespace ApiDoc.Json

/-- A string. -/
def asText? : Json → Option String
  | text s => some s
  | _ => none

/-- A truth value. -/
def asBool? : Json → Option Bool
  | bool b => some b
  | _ => none

/-- A whole number that an unsigned 64-bit word holds. -/
def asWord? : Json → Option Nat
  | integer i => if 0 ≤ i && i < wordEnd then some i.toNat else none
  | _ => none

/-- Any number, as floating point. -/
def asNumber? : Json → Option Binary64
  | integer i => some (Binary64.ofInt i)
  | decimal x => some x
  | _ => none

/-- A list of values of one kind. -/
def asList? (decode : Json → Option α) : Json → Option (List α)
  | list items => items.mapM decode
  | _ => none

/-- The word of an enumeration: a string, or an object whose only field is `null`. -/
def asWordOf? : Json → Option String
  | text s => some s
  | object [(name, null)] => some name
  | _ => none

/-- A value that `null` leaves absent. -/
def asOption? (decode : Json → Option α) : Json → Option (Option α)
  | null => some none
  | value => (decode value).map some

/-- A field that has to be there. -/
def required (decode : Json → Option α) : Option Json → Option α
  | some value => decode value
  | none => none

/-- A field that stands for a default when it is missing. -/
def withDefault (default : α) (decode : Json → Option α) : Option Json → Option α
  | some value => decode value
  | none => some default

/-- An optional field: missing and `null` both leave it absent. -/
def optional (decode : Json → Option α) : Option Json → Option (Option α) :=
  withDefault none (asOption? decode)

/-- The values of the named fields of a record, each absent or present. -/
def record? (names : List String) : Json → Option (List (Option Json))
  | object fields => some (names.map fun name => fields.lookup name)
  | list items =>
    if items.length ≤ names.length then
      some (items.map some ++ List.replicate (names.length - items.length) none)
    else none
  | _ => none

/-- The values of the named fields of a record that has no other fields. -/
def strictRecord? (names : List String) (value : Json) : Option (List (Option Json)) :=
  match value with
  | object fields =>
    if fields.all fun field => names.contains field.1 then value.record? names else none
  | _ => value.record? names

end ApiDoc.Json
