import ApiDoc.Config
import ApiDoc.Json.Printer
import ApiDoc.Render.TypeText

/-!
# Projects as JSON

The graph is unfolded into a tree: what a node owns is written in place, what it only points to as
a name and a location.  A node met again inside itself is written as a marker, so the tree is
finite.  Hidden members are left out of lists unless they are asked for.

`typeBody` and `memberBody` write one node given how its parts are written; `views` ties them
together, and keeps the types and members around the one at hand on two stacks.
-/

namespace ApiDoc

/-- How the parts of a node are written. -/
structure TreeWriter (m : Type → Type) where
  /-- A type. -/
  type : TypeRef → m Json
  /-- A member. -/
  member : MemberRef → m Json

namespace TreeWriter

variable {m : Type → Type} [Monad m] [MonadLiftT (Except Error) m]

/-- What stands for a member that is only pointed to. -/
def pointer (g : Graph) (r : MemberRef) : Except Error Json := do
  let member ← g.member r
  return .object [("name", .text member.name), ("location", .text (← member.location.display))]

/-- What stands for members that are only pointed to, in order. -/
def pointers (g : Graph) (rs : List MemberRef) : Except Error (List Json) := rs.mapM (pointer g)

/-- The field of the member that a member overrides, if there is one. -/
def overriddenField (g : Graph) : Option MemberRef → Except Error (List (String × Json))
  | some r => return [("overrides", ← pointer g r)]
  | none => return []

/-- What stands for a member that may be unknown. -/
def pointer? (g : Graph) : Option MemberRef → Except Error Json
  | some r => pointer g r
  | none => return .null

/-- What stands for a node inside itself. -/
def marker (text : String) : Json := .object [("kind", .text "recursive"), ("text", .text text)]

/-- Types in order. -/
def types (w : TreeWriter m) (rs : List TypeRef) : m Json :=
  return .list (← rs.mapM w.type)

/-- The field of a type that may be absent. -/
def typeField (w : TreeWriter m) (name : String) : Option TypeRef → m (List (String × Json))
  | some r => return [(name, ← w.type r)]
  | none => return []

/-- The field of a member that may be absent. -/
def memberField (w : TreeWriter m) (name : String) : Option MemberRef → m (List (String × Json))
  | some r => return [(name, ← w.member r)]
  | none => return []

/-- Whether a member is left out of lists. -/
def isSkipped (g : Graph) (includeHidden : Bool) (r : MemberRef) : Except Error Bool :=
  if includeHidden then return false else return (← g.member r).doc.hidden

/-- The members of a list that are not left out. -/
def shown (g : Graph) (includeHidden : Bool) (rs : List MemberRef) :
    Except Error (List MemberRef) :=
  rs.filterM fun r => return !(← isSkipped g includeHidden r)

/-- A list of members, without those that are left out. -/
def members (w : TreeWriter m) (g : Graph) (includeHidden : Bool) (rs : List MemberRef) : m Json :=
  return .list (← (← shown g includeHidden rs).mapM w.member)

/-- A type parameter. -/
def typeParameter (w : TreeWriter m) (p : TypeParameter) : m Json := do
  return .object ([("name", .text p.name)] ++ Json.textField "summary" p.summary ++
    (← w.typeField "constraint" p.constraint) ++ (← w.typeField "default" p.default))

/-- Type parameters in order. -/
def typeParameters (w : TreeWriter m) (ps : List TypeParameter) : m Json :=
  return .list (← ps.mapM w.typeParameter)

/-- A parameter. -/
def parameter (w : TreeWriter m) (p : Parameter) : m Json := do
  return .object ([("name", .text p.name)] ++ Json.textField "summary" p.summary ++
    [("type", ← w.type p.type), ("optional", .bool p.optional), ("rest", .bool p.rest)] ++
    Json.optionalField "default" .text p.default)

/-- The fields of a signature. -/
def signature (w : TreeWriter m) (s : Signature) : m (List (String × Json)) := do
  return [("typeParameters", ← w.typeParameters s.typeParameters),
    ("parameters", .list (← s.parameters.mapM w.parameter)),
    ("returnType", ← w.type s.returnType)] ++ (← w.typeField "thisType" s.thisType)

/-! ### Types -/

/-- The fields of one type node behind its kind. -/
def typeBody (w : TreeWriter m) (g : Graph) (includeHidden : Bool) :
    TypeNode → m (List (String × Json))
  | .native t => return [("name", t.toJson)]
  | .literal value => return [("value", value.toJson)]
  | .array element => return [("element", ← w.type element)]
  | .tuple elements => return [("elements", ← w.types elements)]
  | .generic target arguments =>
    return [("target", ← w.type target), ("typeArguments", ← w.types arguments)]
  | .function s => w.signature s
  | .object rs => return [("members", ← w.members g includeHidden rs)]
  | .union operands | .intersection operands => return [("operands", ← w.types operands)]
  | .conditional check bound whenTrue whenFalse =>
    return [("checkType", ← w.type check), ("extendsType", ← w.type bound),
      ("trueType", ← w.type whenTrue), ("falseType", ← w.type whenFalse)]
  | .indexedAccess operand argument =>
    return [("operand", ← w.type operand), ("argument", ← w.type argument)]
  | .unary operator operand =>
    return [("operator", .text operator.keyword), ("operand", ← w.type operand)]
  | .parameter name declaredBy =>
    return [("name", .text name), ("declaredBy", ← pointer? g declaredBy)]
  | .this => return []
  | .typeOf member => return [("member", ← pointer? g member)]
  | .named member => return [("class", ← pointer? g member)]

/-! ### Members -/

/-- A member of an enum, with its value. -/
def enumEntry (w : TreeWriter m) (entry : EnumEntry) : m Json :=
  return (← w.member entry.member).put "value" entry.value.toJson

/-- The members of an enum that are not left out. -/
def shownEntries (g : Graph) (includeHidden : Bool) (entries : List EnumEntry) :
    Except Error (List EnumEntry) :=
  entries.filterM fun entry => return !(← isSkipped g includeHidden entry.member)

/-- The fields that belong to the kind of a member. -/
def kindFields (w : TreeWriter m) (g : Graph) (includeHidden : Bool) :
    MemberBody → m (List (String × Json))
  | .field f =>
    return [("declKind", f.kind.toJson), ("type", ← w.type f.type),
      ("optional", .bool f.optional), ("readOnly", .bool f.readOnly), ("const", .bool f.isConst)] ++
      Json.optionalField "default" .text f.default
  | .method m =>
    return [("declKind", m.kind.toJson)] ++ (← w.signature m.signature) ++
      Json.textField "returnSummary" m.returnSummary ++
      [("async", .bool m.isAsync), ("generator", .bool m.isGenerator),
        ("overloads", ← w.members g includeHidden m.overloads)] ++
      (← w.memberField "class" m.companion)
  | .classLike c =>
    return [("typeParameters", ← w.typeParameters c.typeParameters),
      ("extends", ← w.types c.bases), ("implements", ← w.types c.implements),
      ("members", ← w.members g includeHidden c.members),
      ("instanceMembers", ← w.members g includeHidden c.instanceMembers),
      ("extendedMembers", .list (← pointers g c.extendedMembers))] ++
      (← w.memberField "constructor" c.constructor) ++ (← w.memberField "indexer" c.indexer) ++
      (← w.memberField "newSignature" c.newSignature)
  | .enumeration e =>
    return [("const", .bool e.isConst),
      ("members", .list (← (← shownEntries g includeHidden e.members).mapM w.enumEntry)),
      ("namespaceMembers", ← w.members g includeHidden e.namespaceMembers)]
  | .namespaceLike rs => return [("members", ← w.members g includeHidden rs)]
  | .alias type params =>
    return [("type", ← w.type type), ("typeParameters", ← w.typeParameters params)]

/-- The fields of one member. -/
def memberBody (w : TreeWriter m) (g : Graph) (includeHidden : Bool) (member : Member) :
    m (List (String × Json)) := do
  let overrides ← overriddenField g member.overrides
  return [("memberType", .text member.kind), ("name", .text member.name)] ++
    Json.optionalField "exportName" .text member.exportName ++ member.doc.fields ++
    [("location", member.location.toJson), ("visibility", member.visibility.toJson),
      ("static", .bool member.isStatic), ("abstract", .bool member.isAbstract),
      ("override", .bool member.isOverride)] ++
    (← w.typeField "parent" member.parent) ++ overrides ++
    (← w.kindFields g includeHidden member.body)

/-- A file with its members. -/
def sourceFile (w : TreeWriter m) (g : Graph) (includeHidden : Bool) (file : SourceFile) :
    m Json := do
  return .object ([("fileName", .text file.fileName), ("name", .text file.name),
      ("declaration", .bool file.declaration), ("module", .bool file.isModule)] ++
    Json.textField "summary" file.summary ++
    Json.optionalField "author" .text file.author ++
    Json.optionalField "version" .text file.version ++
    Json.optionalField "copyright" .text file.copyright ++
    Json.optionalField "license" .text file.license ++
    (if file.customTags.isEmpty then [] else [("customTags", file.customTags.toJson)]) ++
    [("imports", .ofList Import.toJson file.imports),
      ("members", ← w.members g includeHidden file.members)])

/-- Files in order. -/
def project (w : TreeWriter m) (g : Graph) (includeHidden : Bool) (files : List SourceFile) :
    m Json :=
  return .object [("sourceFiles", .list (← files.mapM (w.sourceFile g includeHidden)))]

end TreeWriter

/-! ### The whole tree -/

/-- The types and members around the one at hand, innermost first. -/
structure OpenNodes where
  /-- The types. -/
  types : List TypeRef := []
  /-- The members. -/
  members : List MemberRef := []
  deriving DecidableEq, Inhabited

namespace OpenNodes

/-- One more type is open. -/
def enterType (r : TypeRef) (o : OpenNodes) : OpenNodes := { o with types := r :: o.types }

/-- The innermost type is closed. -/
def leaveType (o : OpenNodes) : OpenNodes := { o with types := o.types.tail }

/-- One more member is open. -/
def enterMember (r : MemberRef) (o : OpenNodes) : OpenNodes := { o with members := r :: o.members }

/-- The innermost member is closed. -/
def leaveMember (o : OpenNodes) : OpenNodes := { o with members := o.members.tail }

end OpenNodes

/-- How types and members are written down to a depth. -/
def views (g : Graph) (includeHidden : Bool) : Nat → TreeWriter (Writing OpenNodes)
  | 0 => ⟨fun _ => throw .tooDeep, fun _ => throw .tooDeep⟩
  | fuel + 1 =>
    let inner := views g includeHidden fuel
    { type := fun r => do
        if (← get).types.contains r then return TreeWriter.marker (← typeText g r)
        Writing.inside (OpenNodes.enterType r) OpenNodes.leaveType do
          let node ← g.type r
          return .object (("kind", .text node.kind) :: (← inner.typeBody g includeHidden node))
      member := fun r => do
        if (← get).members.contains r then return TreeWriter.marker (← g.member r).name
        Writing.inside (OpenNodes.enterMember r) OpenNodes.leaveMember do
          return .object (← inner.memberBody g includeHidden (← g.member r)) }

/-- How types and members are written: no type and no member is open twice, so their number bounds the
depth. -/
def Graph.view (g : Graph) (includeHidden : Bool) : TreeWriter (Writing OpenNodes) :=
  views g includeHidden (g.types.size + g.members.size + 2)

/-- A type as JSON. -/
def Graph.typeTree (g : Graph) (includeHidden : Bool) (r : TypeRef) : Except Error Json :=
  ((g.view includeHidden).type r).result {}

/-- A file as JSON. -/
def Graph.fileTree (g : Graph) (includeHidden : Bool) (file : SourceFile) : Except Error Json :=
  ((g.view includeHidden).sourceFile g includeHidden file).result {}

/-- A project as JSON. -/
def Project.tree (p : Project) (config : Config) : Except Error Json :=
  ((p.graph.view config.includeHidden).project p.graph config.includeHidden p.files).result {}

/-- The JSON text of a project, as the settings ask for it. -/
def Project.jsonText (p : Project) (config : Config) : Except Error String := do
  let tree ← p.tree config
  return if config.prettyJson then tree.pretty else tree.compact

end ApiDoc
