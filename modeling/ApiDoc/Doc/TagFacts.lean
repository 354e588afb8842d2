import ApiDoc.Comment.Block
import ApiDoc.Doc.Documentation
import ApiDoc.Doc.ParamTag
import ApiDoc.Doc.Visibility

/-!
# What tags say

The tags of a doc block are taken one after the other.  Each belongs to a group that decides what
it contributes: some texts replace what was there, some are put on a new line behind it, some are
listed, and a tag outside all groups is kept under its own name.
-/

namespace ApiDoc

open Comment

/-- Everything that the doc block of a declaration says. -/
structure TagFacts where
  /-- The documentation. -/
  doc : Documentation := {}
  /-- The visibility, from modifiers and tags. -/
  visibility : Visibility := .everyone
  /-- A name to show in place of the declared one. -/
  name : Option String := none
  /-- Summaries of parameters, by name. -/
  params : NamedTexts := .empty
  /-- Summaries of type parameters, by name. -/
  typeParams : NamedTexts := .empty
  /-- What the function returns. -/
  returns : Option String := none
  /-- Whether the member is abstract. -/
  isAbstract : Bool := false
  /-- Whether the member overrides another. -/
  isOverride : Bool := false
  deriving DecidableEq, Inhabited

/-- What a tag is about. -/
inductive TagGroup where
  | examples | sees | description | summary | displayName | package | owner | derived | access
  | hidden | isVirtual | isAbstract | isOverride | category | since | deprecated | author | version
  | defaultValue | param | typeParam | returns | custom
  deriving DecidableEq, Repr

/-- The group of a tag's name. -/
def TagGroup.ofName (name : String) : TagGroup :=
  if ["example", "sample", "demo"].contains name then .examples
  else if ["see", "seeAlso", "seealso"].contains name then .sees
  else if ["desc", "description", "remark"].contains name then .description
  else if name = "summary" then .summary
  else if ["name", "member", "method", "property", "field", "getter", "setter"].contains name then
    .displayName
  else if ["internal", "package"].contains name then .package
  else if name = "private" then .owner
  else if name = "protected" then .derived
  else if name = "access" then .access
  else if name = "hidden" then .hidden
  else if name = "virtual" then .isVirtual
  else if name = "abstract" then .isAbstract
  else if name = "override" then .isOverride
  else if name = "category" then .category
  else if name = "since" then .since
  else if name = "deprecated" then .deprecated
  else if name = "author" then .author
  else if name = "version" then .version
  else if name = "default" then .defaultValue
  else if ["param", "arg", "argument"].contains name then .param
  else if ["template", "typeparam", "typeParam"].contains name then .typeParam
  else if ["returns", "return"].contains name then .returns
  else .custom

/-- A text put on a new line behind what is there. -/
def appendText (slot : Option String) (text : String) : Option String :=
  some (NamedTexts.joinText slot text)

namespace TagFacts

/-- Sets the summary of the parameter that a tag's text names. -/
def addParam (summaries : NamedTexts) (text : String) : NamedTexts :=
  match ParamTag.split? text with
  | some (name, summary) => summaries.insert name summary
  | none => summaries

/-- The facts with one more tag. -/
def add (facts : TagFacts) (tag : Tag) : TagFacts :=
  let doc := facts.doc
  let text := tag.text
  match TagGroup.ofName tag.name with
  | .examples => { facts with doc.examples := doc.examples ++ [text] }
  | .sees => { facts with doc.sees := doc.sees ++ [text] }
  | .description => { facts with doc.description := appendText doc.description text }
  | .summary => { facts with doc.summary := text }
  | .displayName => { facts with name := some text }
  | .package => { facts with visibility := .package }
  | .owner => { facts with visibility := .owner }
  | .derived => { facts with visibility := .derived }
  | .access => { facts with visibility := .ofAccess text }
  | .hidden => { facts with doc.hidden := true }
  | .isVirtual => { facts with doc.isVirtual := true }
  | .isAbstract => { facts with isAbstract := true }
  | .isOverride => { facts with isOverride := true }
  | .category => { facts with doc.category := appendText doc.category text }
  | .since => { facts with doc.since := appendText doc.since text }
  | .deprecated => { facts with doc.deprecated := appendText doc.deprecated text }
  | .author => { facts with doc.author := appendText doc.author text }
  | .version => { facts with doc.version := appendText doc.version text }
  | .defaultValue => { facts with doc.defaultValue := some text }
  | .param => { facts with params := addParam facts.params text }
  | .typeParam => { facts with typeParams := addParam facts.typeParams text }
  | .returns => { facts with returns := appendText facts.returns text }
  | .custom => { facts with doc.customTags := doc.customTags.append tag.name text }

/-- What the doc block of a declaration says, given the visibility of its modifiers. -/
def ofBlock (block : Option Block) (seed : Visibility) : TagFacts :=
  match block with
  | none => { visibility := seed }
  | some block =>
    block.tags.foldl add { doc := { summary := block.summary }, visibility := seed }

end TagFacts

end ApiDoc
