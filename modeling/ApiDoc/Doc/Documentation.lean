import ApiDoc.Doc.NamedTexts
import ApiDoc.Text.Fill

/-!
# Documentation

What a doc block says about a member, apart from the facts that concern its declaration.
`Documentation.inherit` fills what one member leaves open from another.
-/

namespace ApiDoc

/-- The documentation of a member. -/
structure Documentation where
  /-- The leading text, or the last one that replaced it. -/
  summary : String := ""
  /-- The longer description. -/
  description : Option String := none
  /-- Examples, in order. -/
  examples : List String := []
  /-- References to other places, in order. -/
  sees : List String := []
  /-- Tags without a meaning of their own. -/
  customTags : NamedTexts := .empty
  /-- Why the member should not be used. -/
  deprecated : Option String := none
  /-- The version that introduced the member. -/
  since : Option String := none
  /-- The category it is listed under. -/
  category : Option String := none
  /-- The value it has unless told otherwise. -/
  defaultValue : Option String := none
  /-- Who wrote it. -/
  author : Option String := none
  /-- Its version. -/
  version : Option String := none
  /-- Whether it is left out of listings. -/
  hidden : Bool := false
  /-- Whether it is meant to be overridden. -/
  isVirtual : Bool := false
  deriving DecidableEq, Inhabited

namespace Documentation

/-- Whether nothing is documented. -/
def isEmpty (doc : Documentation) : Bool := doc = {}

/-- An empty list is filled, any other stays. -/
def fillList (own base : List String) : List String := if own.isEmpty then base else own

/-- An absent or empty text is filled if there is something to fill it with. -/
def fillOption (own base : Option String) : Option String :=
  match own with
  | some text => if text.isEmpty then base.or own else own
  | none => base

/-- The documentation with its gaps filled from `base`. -/
def inherit (own base : Documentation) : Documentation where
  summary := Text.fill own.summary base.summary
  description := fillOption own.description base.description
  examples := fillList own.examples base.examples
  sees := fillList own.sees base.sees
  customTags := own.customTags.inherit base.customTags
  deprecated := fillOption own.deprecated base.deprecated
  since := fillOption own.since base.since
  category := fillOption own.category base.category
  defaultValue := fillOption own.defaultValue base.defaultValue
  author := fillOption own.author base.author
  version := fillOption own.version base.version
  hidden := own.hidden || base.hidden
  isVirtual := own.isVirtual || base.isVirtual

/-! ### JSON -/

/-- The field with the given texts unless there are none. -/
def listField (name : String) (texts : List String) : List (String × Json) :=
  if texts.isEmpty then [] else [(name, .ofList .text texts)]

/-- The field with the given truth value when it is true. -/
def flagField (name : String) (value : Bool) : List (String × Json) :=
  if value then [(name, .bool true)] else []

/-- The fields of the JSON object: the summary, and whatever else there is. -/
def fields (doc : Documentation) : List (String × Json) :=
  [("summary", .text doc.summary)] ++
  Json.optionalField "description" .text doc.description ++
  listField "examples" doc.examples ++
  listField "sees" doc.sees ++
  (if doc.customTags.isEmpty then [] else [("customTags", doc.customTags.toJson)]) ++
  Json.optionalField "deprecated" .text doc.deprecated ++
  Json.optionalField "since" .text doc.since ++
  Json.optionalField "category" .text doc.category ++
  Json.optionalField "defaultValue" .text doc.defaultValue ++
  Json.optionalField "author" .text doc.author ++
  Json.optionalField "version" .text doc.version ++
  flagField "hidden" doc.hidden ++
  flagField "virtual" doc.isVirtual

/-- The documentation in JSON. -/
def toJson (doc : Documentation) : Json := .object doc.fields

/-- The names of the fields, in order. -/
def fieldNames : List String :=
  ["summary", "description", "examples", "sees", "customTags", "deprecated", "since", "category",
   "defaultValue", "author", "version", "hidden", "virtual"]

/-- The documentation that the values of the fields stand for. -/
def ofFields? : List (Option Json) → Option Documentation
  | [summary, description, examples, sees, customTags, deprecated, since, category, defaultValue,
      author, version, hidden, isVirtual] => do
    return {
      summary := ← Json.withDefault "" Json.asText? summary
      description := ← Json.optional Json.asText? description
      examples := ← Json.withDefault [] (Json.asList? Json.asText?) examples
      sees := ← Json.withDefault [] (Json.asList? Json.asText?) sees
      customTags := ← Json.withDefault .empty NamedTexts.ofJson? customTags
      deprecated := ← Json.optional Json.asText? deprecated
      since := ← Json.optional Json.asText? since
      category := ← Json.optional Json.asText? category
      defaultValue := ← Json.optional Json.asText? defaultValue
      author := ← Json.optional Json.asText? author
      version := ← Json.optional Json.asText? version
      hidden := ← Json.withDefault false Json.asBool? hidden
      isVirtual := ← Json.withDefault false Json.asBool? isVirtual }
  | _ => none

/-- The documentation a JSON value stands for. -/
def ofJson? (value : Json) : Option Documentation :=
  (value.record? fieldNames).bind ofFields?

end Documentation

end ApiDoc
