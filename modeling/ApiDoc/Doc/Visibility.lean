import ApiDoc.Json.Decode
import ApiDoc.Text.Blank
import ApiDoc.Checker.Flags

/-!
# Visibility

A member's visibility starts from the modifiers of its declaration; the tags of its comment may
change it.
-/

namespace ApiDoc

/-- Who may use a member. -/
inductive Visibility where
  /-- Everyone. -/
  | everyone
  /-- Derived classes. -/
  | derived
  /-- The class itself. -/
  | owner
  /-- The package. -/
  | package
  deriving DecidableEq, Repr, Inhabited

namespace Visibility

/-- The visibility that modifiers give; the strictest of them wins. -/
def ofModifiers (modifiers : ModifierFlags) : Visibility :=
  if modifiers.has .privateAccess then .owner
  else if modifiers.has .protectedAccess then .derived
  else .everyone

/-- The visibility that the text of an access tag names, public when it names none. -/
def ofAccess (text : String) : Visibility :=
  let word := String.ofList (Text.trim text.toList)
  if word = "package" || word = "internal" then .package
  else if word = "protected" then .derived
  else if word = "private" then .owner
  else .everyone

/-- Whether everyone may use the member. -/
def isPublic (v : Visibility) : Bool := v = .everyone

/-- The word for a visibility. -/
def word : Visibility → String
  | .everyone => "public"
  | .derived => "protected"
  | .owner => "private"
  | .package => "internal"

/-- The visibility a word stands for. -/
def ofWord? (w : String) : Option Visibility :=
  [everyone, derived, owner, package].find? fun v => v.word = w

/-- The visibility in JSON. -/
def toJson (v : Visibility) : Json := .text v.word

/-- The visibility a JSON value stands for. -/
def ofJson? (value : Json) : Option Visibility := value.asWordOf?.bind ofWord?

@[simp]
theorem ofWord?_word (v : Visibility) : ofWord? v.word = some v := by
  cases v <;> decide

@[simp]
theorem ofJson?_toJson (v : Visibility) : ofJson? v.toJson = some v := by
  simp [ofJson?, toJson, Json.asWordOf?]

end Visibility

end ApiDoc
