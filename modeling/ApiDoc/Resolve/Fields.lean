import ApiDoc.Resolve.Types

/-!
# Resolving fields and aliases

Variables, properties, accessors and enum members are fields.  A name bound by a destructuring
pattern takes its kind from the declaration around the pattern, and a getter and a setter of one
name make one field.
-/

namespace ApiDoc

namespace Environment

variable (env : Environment)

/-- The declaration around a destructuring pattern. -/
def bindingOwner : Nat → NodeId → Answer NodeId
  | 0, _ => .error .tooDeep
  | fuel + 1, node => do
    if (← env.checker.nodeKind node).isBindingPattern then
      match ← env.checker.nodeParent node with
      | some parent => bindingOwner fuel parent
      | none => return node
    else return node

/-- How a field is declared. -/
def fieldKind (decl : NodeId) : Answer FieldKind := do
  let owner ← env.bindingOwner (env.checker.nodeCount + 1) decl
  let listFlags ← match ← env.checker.nodeParent owner with
    | some list => env.checker.nodeFlags list
    | none => pure (.of [])
  return .ofDeclaration (← env.checker.nodeKind owner) listFlags

/-- Whether a field may be absent: its symbol or its declaration says so. -/
def isOptionalField (flags : SymbolFlags) (decl : NodeId) : Answer Bool :=
  if flags.has .optional then return true else env.checker.hasQuestionToken decl

/-- A field with a declaration. -/
def declaredField (inner : Resolver) (symbol : SymbolId) (flags : SymbolFlags) (decl : NodeId) :
    Resolve Member := do
  let kind ← env.fieldKind decl
  let type ← inner.type (← env.checker.typeOfSymbolAtLocation symbol decl)
  let optional ← env.isOptionalField flags decl
  let modifiers ← env.checker.combinedModifierFlags decl
  let readOnly := kind == .constBinding || kind == .enumMember || modifiers.has .readOnly
  let default ← env.checker.initializerText decl
  env.commonMember symbol (some decl) (← env.tags decl)
    (.field { kind, type, optional, readOnly, default })

/-- A variable, property or enum member, or a symbol that is nothing else; without a declaration its
type is `mixed`. -/
def field (inner : Resolver) (symbol : SymbolId) : Resolve Member := do
  let flags ← env.checker.symbolFlags symbol
  match ← env.mainDeclaration? symbol with
  | some decl => env.declaredField inner symbol flags decl
  | none =>
    let type ← Resolve.newType .mixed
    env.commonMember symbol none {} (.field { kind := .property, type })

/-- What the first of some declarations that documents anything says. -/
def firstTags? : List NodeId → Answer (Option TagFacts)
  | [] => return none
  | decl :: rest => do
    let facts ← env.tags decl
    if facts.doc.isEmpty then firstTags? rest else return some facts

/-- What the declarations of an accessor say: the first that documents anything, or else the first. -/
def accessorTags (first : NodeId) (rest : List NodeId) : Answer TagFacts := do
  match ← env.firstTags? (first :: rest) with
  | some facts => return facts
  | none => env.tags first

/-- A getter, a setter or both, as one field. -/
def accessor (inner : Resolver) (symbol : SymbolId) : Resolve Member := do
  let flags ← env.checker.symbolFlags symbol
  match ← env.checker.declarations symbol with
  | [] => env.field inner symbol
  | first :: rest =>
    let type ← inner.type (← env.checker.typeOfSymbolAtLocation symbol first)
    let facts ← env.accessorTags first rest
    env.commonMember symbol (some first) facts
      (.field { kind := .accessor, type, optional := flags.has .optional,
                readOnly := !flags.has .setAccessor })

/-- An alias of a type. -/
def typeAlias (inner : Resolver) (symbol : SymbolId) (slot : MemberRef) : Resolve Member := do
  let decl ← env.preferredDeclaration? symbol [.typeAliasDeclaration]
  let facts ← env.tags? decl
  let typeParameters ← env.typeParameters inner facts.typeParams (some slot)
    (← env.checker.declaredTypeParameters symbol)
  let type ← inner.type (← env.checker.declaredTypeOfSymbol symbol)
  env.commonMember symbol decl facts (.alias type typeParameters)

end Environment

end ApiDoc
