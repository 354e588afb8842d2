import ApiDoc.Model.Member

/-!
# Sharing documentation

Summaries pass between members in two ways: the declarations of one function fill each other's
gaps, and a member fills its own from the one that it overrides.  Neither ever changes a text that is
already there.
-/

namespace ApiDoc

namespace Method

/-- The method with missing summaries of parameters and of the result taken from another. -/
def fillFrom (own base : Method) : Method :=
  { own with
    signature.parameters := backfillParameters own.signature.parameters base.signature.parameters
    returnSummary := Text.fill own.returnSummary base.returnSummary }

/-- The method with all missing summaries taken from the one it overrides. -/
def inherit (own base : Method) : Method :=
  { own.fillFrom base with
    signature.typeParameters :=
      backfillTypeParameters own.signature.typeParameters base.signature.typeParameters }

end Method

namespace Member

/-- The member with missing summaries of parameters and of the result taken from another, if both
are methods. -/
def fillFrom (own base : Member) : Member :=
  match own.body, base.body with
  | .method m, .method b => { own with body := .method (m.fillFrom b) }
  | _, _ => own

/-- The member with missing documentation taken from the one it overrides. -/
def inherit (own base : Member) : Member :=
  let body := match own.body, base.body with
    | .method m, .method b => .method (m.inherit b)
    | body, _ => body
  { own with doc := own.doc.inherit base.doc, body }

/-- The first summary of some members that says something, or nothing. -/
def firstSummary : List Member → String
  | [] => ""
  | m :: rest => Text.fill m.doc.summary (firstSummary rest)

/-- The main declaration of a function with its gaps filled from the others, the first that has
something to say winning. -/
def fillFromOverloads (primary : Member) (overloads : List Member) : Member :=
  overloads.foldl fillFrom
    { primary with doc.summary := Text.fill primary.doc.summary (firstSummary overloads) }

end Member

end ApiDoc
