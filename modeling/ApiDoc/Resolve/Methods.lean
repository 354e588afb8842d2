import ApiDoc.Resolve.Containers
import ApiDoc.Resolve.Fields

/-!
# Resolving methods

All declarations of a function make one method: one of them is the main one and the others are its
overloads, which share their summaries.  A class or namespace of the same name is kept beside it.
-/

namespace ApiDoc

namespace Environment

variable (env : Environment)

/-- A method with the signature of one declaration. -/
def signatureMember (inner : Resolver) (symbol : SymbolId) (slot : MemberRef) (decl : NodeId) :
    Resolve Member := do
  let facts ← env.tags decl
  let signature ← env.signature inner (← env.checker.signatureFromDeclaration decl) facts (some slot)
  let kind := MethodKind.ofDeclaration (← env.checker.nodeKind decl)
  let modifiers ← env.checker.combinedModifierFlags decl
  let isGenerator ← env.checker.hasAsterisk decl
  env.commonMember symbol (some decl) facts
    (.method { kind, signature, returnSummary := facts.returns.getD "",
               isAsync := modifiers.has .async, isGenerator })

/-- The declarations of a symbol that are not of a container merged with it. -/
def callableDeclarations (symbol : SymbolId) : Answer (List NodeId) := do
  (← env.checker.declarations symbol).filterM fun decl =>
    return !(← env.checker.nodeKind decl).isContainer

/-- The number of the first declaration that implements the others, counted from `start`. -/
def implementationFrom (start : Nat) : List NodeId → Answer (Option Nat)
  | [] => return none
  | decl :: rest => do
    if ← env.checker.isImplementationOfOverload decl then return some start
    else implementationFrom (start + 1) rest

/-- The number of the main declaration: the only one there is, or else the only one with a body, or
else the first that implements the others, or else the first. -/
def primaryIndex : List NodeId → Answer Nat
  | [_] => return 0
  | decls => do
    let bodies ← decls.mapM env.checker.hasBody
    if bodies.count true = 1 then return bodies.idxOf true
    else return (← env.implementationFrom 0 decls).getD 0

/-- A further declaration of a method, under the name and visibility of the main one. -/
def overload (inner : Resolver) (symbol : SymbolId) (primary : Member) (decl : NodeId) :
    Resolve MemberRef := do
  let slot ← Resolve.newMember (.placeholder primary.name)
  let member ← env.signatureMember inner symbol slot decl
  Resolve.setMember slot { member with name := primary.name, visibility := primary.visibility }
  return slot

/-- Shares summaries between the main declaration and its overloads: first the main one is filled
from all others, then each of them from it. -/
def shareSummaries (primary : Member) (overloads : List MemberRef) : Resolve Member := do
  let filled := primary.fillFromOverloads (← overloads.mapM Resolve.getMember)
  overloads.forM fun r => do Resolve.setMember r ((← Resolve.getMember r).fillFrom filled)
  return filled

/-- The main declaration as it is documented beside its overloads. -/
def sharedPrimary (primary : Member) (overloads : List MemberRef) : Resolve Member :=
  if env.config.backfillOverloads then shareSummaries primary overloads else return primary

/-- The class, interface or namespace that a function is merged with, if its flags say so. -/
def companion? (inner : Resolver) (symbol : SymbolId) (flags : SymbolFlags) :
    Resolve (Option MemberRef) :=
  if flags.hasAny ([.classSymbol, .interfaceSymbol] ++ SymbolFlag.namespaceLike) then
    env.companion inner symbol
  else return none

/-- A function, method, constructor or signature; without a declaration of its own, a field. -/
def method (inner : Resolver) (symbol : SymbolId) (slot : MemberRef) : Resolve Member := do
  let decls ← env.callableDeclarations symbol
  let index ← env.primaryIndex decls
  match decls[index]? with
  | none => env.field inner symbol
  | some decl =>
    let primary ← env.signatureMember inner symbol slot decl
    let overloads ← (decls.eraseIdx index).mapM (env.overload inner symbol primary)
    let shared ← env.sharedPrimary primary overloads
    let companion ← env.companion? inner symbol (← env.checker.symbolFlags symbol)
    return shared.withOverloads overloads companion

end Environment

end ApiDoc
