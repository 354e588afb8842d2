import ApiDoc.Doc.FileFacts
import ApiDoc.Model.Arena
import ApiDoc.Model.Member

/-!
# Projects

A project is a list of files with their members, and the graph that all references lead into.
-/

namespace ApiDoc

/-- Every documented type and member. -/
structure Graph where
  /-- The types. -/
  types : Arena TypeNode := {}
  /-- The members. -/
  members : Arena Member := {}
  deriving Inhabited

namespace Graph

/-- The node of a type. -/
def type (g : Graph) (r : TypeRef) : Except Error TypeNode :=
  Error.orOutOfBounds (g.types.get? r.index)

/-- The member of a reference. -/
def member (g : Graph) (r : MemberRef) : Except Error Member :=
  Error.orOutOfBounds (g.members.get? r.index)

end Graph

/-- What a file imports or refers to. -/
structure Import where
  /-- The name as it is written. -/
  name : String
  /-- The file it stands for. -/
  resolvedName : Option String := none
  /-- The path before links were followed. -/
  path : Option String := none
  /-- Whether it comes from a library. -/
  external : Bool := false
  /-- Whether it is a reference by path and not an import. -/
  reference : Bool := false
  deriving DecidableEq, Repr, Inhabited

namespace Import

/-- The import in JSON. -/
def toJson (i : Import) : Json :=
  .object ([("name", .text i.name)] ++
    Json.optionalField "resolvedName" .text i.resolvedName ++
    Json.optionalField "path" .text i.path ++
    [("external", .bool i.external), ("reference", .bool i.reference)])

/-- The import a JSON value stands for. -/
def ofJson? (value : Json) : Option Import :=
  match value.record? ["name", "resolvedName", "path", "external", "reference"] with
  | some [name, resolvedName, path, external, reference] => do
    return {
      name := ← Json.required Json.asText? name
      resolvedName := ← Json.optional Json.asText? resolvedName
      path := ← Json.optional Json.asText? path
      external := ← Json.withDefault false Json.asBool? external
      reference := ← Json.withDefault false Json.asBool? reference }
  | _ => none

end Import

/-- A documented file. -/
structure SourceFile where
  /-- Its path, with forward slashes. -/
  fileName : String := ""
  /-- The name of its module, or its path. -/
  name : String := ""
  /-- Whether it holds declarations only. -/
  declaration : Bool := false
  /-- Whether it is a module. -/
  isModule : Bool := false
  /-- What it is for. -/
  summary : String := ""
  /-- Who wrote it. -/
  author : Option String := none
  /-- Its version. -/
  version : Option String := none
  /-- Who owns it. -/
  copyright : Option String := none
  /-- The terms of its use. -/
  license : Option String := none
  /-- Tags without a meaning of their own. -/
  customTags : NamedTexts := .empty
  /-- What it imports. -/
  imports : List Import := []
  /-- Its members, in order. -/
  members : List MemberRef := []
  deriving DecidableEq, Inhabited

/-- The documentation of a program. -/
structure Project where
  /-- Its files, in order. -/
  files : List SourceFile := []
  /-- What the files refer to. -/
  graph : Graph := {}
  deriving Inhabited

namespace Project

/-- The first file with a path. -/
def file? (p : Project) (fileName : String) : Option SourceFile :=
  p.files.find? fun file => file.fileName = fileName

/-- The first of some members with a name. -/
def findNamed (p : Project) (name : String) : List MemberRef → Except Error (Option MemberRef)
  | [] => .ok none
  | r :: rest => do
    let member ← p.graph.member r
    if member.name = name then return some r else p.findNamed name rest

/-- The members that a path may lead to from a member: those it owns, and those its companion
owns. -/
def innerMembers (p : Project) (r : MemberRef) : Except Error (List MemberRef) := do
  let member ← p.graph.member r
  match member.method?.bind Method.companion with
  | some companion => return member.children ++ (← p.graph.member companion).children
  | none => return member.children

/-- The member that the rest of a path leads to. -/
def descend (p : Project) (r : MemberRef) : List String → Except Error (Option MemberRef)
  | [] => .ok (some r)
  | name :: rest => do
    match ← p.findNamed name (← p.innerMembers r) with
    | some inner => p.descend inner rest
    | none => return none

/-- The member at a path of names with dots between them, within a file. -/
def lookup (p : Project) (fileName path : String) : Except Error (Option MemberRef) := do
  match p.file? fileName, path.splitOn "." with
  | some file, first :: rest =>
    match ← p.findNamed first file.members with
    | some r => p.descend r rest
    | none => return none
  | _, _ => return none

end Project

end ApiDoc
