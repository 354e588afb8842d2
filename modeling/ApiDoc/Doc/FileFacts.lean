import ApiDoc.Comment.Locator
import ApiDoc.Doc.TagFacts

/-!
# What blocks say about a file

The blocks at the top of a file that carry a file marker describe the file; all others are passed
over.
-/

namespace ApiDoc

open Comment

/-- Everything that the leading doc blocks of a file say about it. -/
structure FileFacts where
  /-- What the file is for. -/
  summary : Option String := none
  /-- Who wrote it. -/
  author : Option String := none
  /-- Its version. -/
  version : Option String := none
  /-- Who owns it. -/
  copyright : Option String := none
  /-- The terms of its use. -/
  license : Option String := none
  /-- The name of the module. -/
  name : Option String := none
  /-- Tags without a meaning of their own. -/
  customTags : NamedTexts := .empty
  deriving DecidableEq, Inhabited

namespace FileFacts

/-- The facts with one more tag. -/
def add (facts : FileFacts) (tag : Tag) : FileFacts :=
  let text := tag.text
  if ["file", "overview", "fileoverview", "fileOverview"].contains tag.name then
    { facts with summary := appendText facts.summary text }
  else if tag.name = "author" then { facts with author := appendText facts.author text }
  else if tag.name = "version" then { facts with version := appendText facts.version text }
  else if tag.name = "copyright" then { facts with copyright := appendText facts.copyright text }
  else if ["license", "licence"].contains tag.name then
    { facts with license := appendText facts.license text }
  else if ["name", "module"].contains tag.name then { facts with name := some text }
  else { facts with customTags := facts.customTags.append tag.name text }

/-- The facts with one more block, if it describes the file. -/
def apply (facts : FileFacts) (block : Block) : FileFacts :=
  if block.describesFile then block.tags.foldl add facts else facts

/-- What the leading blocks of a file say about it. -/
def read (locator : Locator) (text : String) : Except Error FileFacts := do
  return (← locator.blocksAt text 0).foldl apply {}

end FileFacts

end ApiDoc
