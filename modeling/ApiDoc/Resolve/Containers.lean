import ApiDoc.Model.Sharing
import ApiDoc.Resolve.Types

/-!
# Resolving containers

Classes and interfaces list their own members in the order of declaration.  A member whose name a
base type has too is linked to the one it overrides and takes missing documentation from it; members
that only a base type has are listed apart.  Enums number their members, and namespaces list what
they export.
-/

namespace ApiDoc

/-- A property of a base type. -/
structure BaseProperty where
  /-- Its symbol. -/
  symbol : SymbolId
  /-- The base type that has it. -/
  base : TypeId
  deriving DecidableEq, Repr

namespace Environment

variable (env : Environment)

/-! ### Overrides -/

/-- The properties of base types by name; of two with one name the first counts. -/
def baseProperties (bases : List TypeId) : Answer (List (String × BaseProperty)) := do
  let found ← bases.mapM fun base => do
    (← env.checker.propertiesOfType base).mapM fun symbol =>
      return (← env.checker.symbolName symbol, ({ symbol, base } : BaseProperty))
  return found.flatten

/-- Builds a member anew as an override, and puts it in its place. -/
def fillOverride (inner : Resolver) (symbol : SymbolId) (base : BaseProperty) (slot : MemberRef) :
    Resolve Unit := do
  let member ← inner.build symbol slot
  let overrides ← inner.member base.symbol
  let parent ← inner.type base.base
  let linked := { member with isOverride := true, parent := some parent, overrides }
  match overrides with
  | some r =>
    let inherited ← Resolve.getMember r
    Resolve.setMember slot (if env.config.inheritDocs then linked.inherit inherited else linked)
  | none => Resolve.setMember slot linked

/-- The member for a declaration that a base type has too.  If the symbol was met before, its member
is built anew in the same place, unless it is an override already. -/
def overriding (inner : Resolver) (symbol : SymbolId) (base : BaseProperty) :
    Resolve MemberRef := do
  match (← get).cachedMember symbol with
  | some slot =>
    unless (← Resolve.getMember slot).isOverride do env.fillOverride inner symbol base slot
    return slot
  | none =>
    let slot ← Resolve.reserveMember (.symbol symbol)
      (.placeholder (← env.checker.symbolName symbol))
    env.fillOverride inner symbol base slot
    return slot

/-! ### Classes and interfaces -/

/-- What a class is declared to implement. -/
def implemented (inner : Resolver) : Option NodeId → Resolve (List TypeRef)
  | some decl => do
    if (← env.checker.nodeKind decl) = .classDeclaration then
      (← env.checker.implementsClause decl).mapM fun expression => do
        inner.type (← env.checker.typeAtLocation expression)
    else return []
  | none => return []

/-- The class with one more of its symbol's members: constructors, index signatures and construct
signatures have a place of their own, call signatures belong to the type, and prototype markers are
passed over. -/
def addMember (inner : Resolver) (inherited : List (String × BaseProperty)) (body : ClassBody)
    (symbol : SymbolId) : Resolve ClassBody := do
  let flags ← env.checker.symbolFlags symbol
  if flags.has .prototype then return body
  else if flags.has .constructor then return { body with constructor := ← inner.member symbol }
  else if flags.has .signature then
    match ← env.checker.declarations symbol with
    | [] => return body
    | decl :: _ =>
      match ← env.checker.nodeKind decl with
      | .indexSignature => return { body with indexer := ← inner.member symbol }
      | .constructSignature => return { body with newSignature := ← inner.member symbol }
      | _ => return body
  else
    match inherited.lookup (← env.checker.symbolName symbol) with
    | some base =>
      let r ← env.overriding inner symbol base
      return { body with instanceMembers := body.instanceMembers ++ [r] }
    | none =>
      let r ← inner.member symbol
      return { body with instanceMembers := body.instanceMembers ++ r.toList }

/-- The member of a property that a type has from elsewhere than `symbol`. -/
def extendedMember (inner : Resolver) (symbol property : SymbolId) :
    Resolve (Option MemberRef) := do
  if (← env.checker.parentSymbol property) = some symbol then return none
  else if (← env.checker.symbolFlags property).has .prototype then return none
  else inner.member property

/-- The type that a symbol declares if it is a class or an interface. -/
def classType? (symbol : SymbolId) (flags : SymbolFlags) : Answer (Option TypeId) := do
  if flags.hasAny [.classSymbol, .interfaceSymbol] then
    return some (← env.checker.declaredTypeOfSymbol symbol)
  else return none

/-- What is asked about the type that a symbol declares; nothing if it declares none. -/
def ofDeclared {α : Type} (query : TypeId → Answer (List α)) : Option TypeId → Answer (List α)
  | some type => query type
  | none => return []

/-- A class or interface; for a namespace that a function is merged with, only what it exports. -/
def classBody (inner : Resolver) (symbol : SymbolId) (decl : Option NodeId) (facts : TagFacts)
    (slot : MemberRef) : Resolve ClassBody := do
  let flags ← env.checker.symbolFlags symbol
  let kind := if flags.has .interfaceSymbol && !flags.has .classSymbol then
    ClassKind.contract else .concrete
  let declared ← env.classType? symbol flags
  let typeParameters ← env.typeParameters inner facts.typeParams (some slot)
    (← env.checker.declaredTypeParameters symbol)
  let baseTypes ← ofDeclared env.checker.baseTypes declared
  let bases ← inner.types baseTypes
  let implements ← env.implemented inner decl
  let members ← inner.members (← env.checker.exportsOf symbol)
  let inherited ← env.baseProperties baseTypes
  let body ← (← env.checker.membersOf symbol).foldlM (env.addMember inner inherited)
    { kind, typeParameters, bases, implements, members }
  let properties ← ofDeclared env.checker.propertiesOfType declared
  let extended ← properties.mapM (env.extendedMember inner symbol)
  return { body with extendedMembers := extended.filterMap id }

/-- The member with the summary of its index signature put behind its own. -/
def withIndexerSummary (member : Member) (indexer : Option MemberRef) : Resolve Member := do
  match indexer with
  | some r =>
    let text := (← Resolve.getMember r).doc.summary
    return { member with doc.summary := NamedTexts.joinText (some member.doc.summary) text }
  | none => return member

/-- A class or interface whose declaration is of one of some kinds, the first there is one of. -/
def classOfKinds (inner : Resolver) (symbol : SymbolId) (slot : MemberRef)
    (kinds : List SyntaxKind) : Resolve Member := do
  let decl ← env.preferredDeclaration? symbol kinds
  let facts ← env.tags? decl
  let body ← env.classBody inner symbol decl facts slot
  withIndexerSummary (← env.commonMember symbol decl facts (.classLike body)) body.indexer

/-- A class or interface. -/
def classLike (inner : Resolver) (symbol : SymbolId) (slot : MemberRef) : Resolve Member :=
  env.classOfKinds inner symbol slot [.classDeclaration, .interfaceDeclaration]

/-- The class, interface or namespace that a function is merged with, as a member of its own. -/
def companion (inner : Resolver) (symbol : SymbolId) : Resolve (Option MemberRef) := do
  match (← get).memberOf? (.companion symbol) with
  | some known => return known
  | none =>
    let slot ← Resolve.reserveMember (.companion symbol)
      (.placeholder (← env.checker.symbolName symbol))
    Resolve.setMember slot (← env.classOfKinds inner symbol slot
      [.classDeclaration, .interfaceDeclaration, .moduleDeclaration])
    return some slot

/-! ### Enums and namespaces -/

/-- The value that an enum member is initialised with: a literal, or else what the checker computed,
or else the text as it is written. -/
def enumInitializer (symbol : SymbolId) : Answer (Option EnumValue) := do
  match ← env.mainDeclaration? symbol with
  | none => return none
  | some decl =>
    match ← env.checker.initializerText decl with
    | none => return none
    | some text =>
      match EnumValue.parse? text with
      | some value => return some value
      | none =>
        match ← env.checker.constantValue decl with
        | some (.number x) => return some (.number x)
        | some (.text s) => return some (.text s)
        | none => return some (.text text)

/-- The members of an enum with their values, and what else it exports. -/
def enumExports (inner : Resolver) :
    Numbering → List SymbolId → Resolve (List EnumEntry × List MemberRef)
  | _, [] => return ([], [])
  | numbering, symbol :: rest => do
    if (← env.checker.symbolFlags symbol).has .enumMember then
      match ← inner.member symbol with
      | some member =>
        let name ← env.checker.symbolName symbol
        let (value, next) := numbering.assign name (← env.enumInitializer symbol)
        let (entries, others) ← enumExports inner next rest
        return ({ name, value, member } :: entries, others)
      | none => enumExports inner numbering rest
    else
      let other ← inner.member symbol
      let (entries, others) ← enumExports inner numbering rest
      return (entries, other.toList ++ others)

/-- An enum. -/
def enumeration (inner : Resolver) (symbol : SymbolId) : Resolve Member := do
  let flags ← env.checker.symbolFlags symbol
  let decl ← env.preferredDeclaration? symbol [.enumDeclaration]
  let facts ← env.tags? decl
  let (members, namespaceMembers) ← env.enumExports inner {} (← env.checker.exportsOf symbol)
  env.commonMember symbol decl facts
    (.enumeration { isConst := flags.has .constEnum, members, namespaceMembers })

/-- A namespace. -/
def namespaceLike (inner : Resolver) (symbol : SymbolId) : Resolve Member := do
  let decl ← env.preferredDeclaration? symbol [.moduleDeclaration]
  let facts ← env.tags? decl
  let members ← inner.members (← env.checker.exportsOf symbol)
  env.commonMember symbol decl facts (.namespaceLike members)

end Environment

end ApiDoc
