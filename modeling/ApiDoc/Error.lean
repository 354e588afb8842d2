/-!
# Errors

What can go wrong, by cause.  The checker reports most of it; the rest concerns settings, files and
references that lead nowhere.
-/

namespace ApiDoc

/-- Why no answer was given. -/
inductive Error where
  /-- The checker could not answer a query. -/
  | checker (text : String)
  /-- A handle of the given kind that the checker does not know. -/
  | unknownHandle (kind : String) (index : Nat)
  /-- A setting that makes no sense. -/
  | config (text : String)
  /-- A file that could not be read. -/
  | unreadable
  /-- A value that does not decode. -/
  | undecodable
  /-- A settings file that is not well formed. -/
  | malformedSettings
  /-- A reference or an offset that leads nowhere. -/
  | outOfBounds
  /-- A count that no machine word holds. -/
  | overflow
  /-- A resolution that went deeper than the program it describes allows. -/
  | tooDeep
  deriving DecidableEq, Repr, Inhabited

namespace Error

/-- The wording of an error. -/
def message : Error → String
  | checker text => "checker failure: " ++ text
  | unknownHandle kind index => "unknown " ++ kind ++ " handle #" ++ toString index
  | config text => "configuration error: " ++ text
  | unreadable => "the file cannot be read"
  | undecodable => "the value does not decode"
  | malformedSettings => "the settings are not well formed"
  | outOfBounds => "the reference leads nowhere"
  | overflow => "the count is too great"
  | tooDeep => "the resolution does not end"

/-- Whether the checker is the cause. -/
def ofChecker : Error → Bool
  | checker _ | unknownHandle .. => true
  | _ => false

/-- The value, or the error of a reference that leads nowhere. -/
def orOutOfBounds : Option α → Except Error α
  | some a => .ok a
  | none => .error outOfBounds

theorem orOutOfBounds_eq_ok_iff {x : Option α} {a : α} : orOutOfBounds x = .ok a ↔ x = some a := by
  cases x <;> simp [orOutOfBounds]

end Error

end ApiDoc
