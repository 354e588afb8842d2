import ApiDoc.Resolve.Methods

/-!
# Resolving members

The flags of a symbol decide what it is documented as: `SymbolClass.of` is an ordered table in which
the first entry that fits wins, and what fits nothing is a field.  A symbol gets its place before its
member is built, so a member that leads back to itself finds that place.

Types and members refer to each other without end, so each step resolves what it refers to through
a `Resolver`.  `Environment.recur` ties the knot up to a depth, and `Environment.depth` is more than any
program without endless chains needs: all that a step goes down to is either a type or symbol met
for the first time, or a link of a chain of substitutions or nested classes.
-/

namespace ApiDoc

/-- What a symbol is documented as. -/
inductive SymbolClass where
  /-- The marker of a prototype, which is not documented. -/
  | marker
  /-- A function, method, constructor or signature. -/
  | method
  /-- A variable, property or enum member. -/
  | field
  /-- A getter, a setter or both. -/
  | accessor
  /-- A class or interface. -/
  | classLike
  /-- An enum. -/
  | enumeration
  /-- A namespace. -/
  | namespaceLike
  /-- An alias of a type. -/
  | alias
  /-- None of these. -/
  | unclassified
  deriving DecidableEq, Repr

/-- What flags say a symbol is. -/
def SymbolClass.of (flags : SymbolFlags) : SymbolClass :=
  if flags.has .prototype then .marker
  else if flags.hasAny [.function, .method, .constructor, .signature] then .method
  else if flags.hasAny (SymbolFlag.anyVariable ++ [.property, .enumMember]) then .field
  else if flags.hasAny SymbolFlag.accessor then .accessor
  else if flags.hasAny [.classSymbol, .interfaceSymbol] then .classLike
  else if flags.hasAny SymbolFlag.enumeration then .enumeration
  else if flags.hasAny SymbolFlag.namespaceLike then .namespaceLike
  else if flags.has .typeAlias then .alias
  else .unclassified

namespace Environment

variable (env : Environment)

/-- A fresh member for a symbol, to stand at `slot`. -/
def buildMemberWith (inner : Resolver) (symbol : SymbolId) (slot : MemberRef) : Resolve Member := do
  match SymbolClass.of (← env.checker.symbolFlags symbol) with
  | .method => env.method inner symbol slot
  | .marker | .field | .unclassified => env.field inner symbol
  | .accessor => env.accessor inner symbol
  | .classLike => env.classLike inner symbol slot
  | .enumeration => env.enumeration inner symbol
  | .namespaceLike => env.namespaceLike inner symbol
  | .alias => env.typeAlias inner symbol slot

/-- The member of a symbol that was not met before.  An override that took the place while the
member was being built stays there. -/
def newMemberWith (inner : Resolver) (symbol : SymbolId) : Resolve (Option MemberRef) := do
  match SymbolClass.of (← env.checker.symbolFlags symbol) with
  | .marker =>
    Resolve.rememberMember (.symbol symbol) none
    return none
  | _ =>
    let slot ← Resolve.reserveMember (.symbol symbol)
      (.placeholder (← env.checker.symbolName symbol))
    let member ← env.buildMemberWith inner symbol slot
    unless (← Resolve.getMember slot).isOverride do Resolve.setMember slot member
    return some slot

/-- The member of a symbol; none if it is not documented. -/
def resolveMemberWith (inner : Resolver) (symbol : SymbolId) : Resolve (Option MemberRef) := do
  match (← get).memberOf? (.symbol symbol) with
  | some known => return known
  | none => env.newMemberWith inner symbol

/-- The resolver that goes down to a depth. -/
def recur : Nat → Resolver
  | 0 => { type := fun _ => throw .tooDeep, member := fun _ => throw .tooDeep,
           build := fun _ _ => throw .tooDeep }
  | depth + 1 => {
    type := fun t => env.resolveTypeWith (recur depth) t
    member := fun symbol => env.resolveMemberWith (recur depth) symbol
    build := fun symbol slot => env.buildMemberWith (recur depth) symbol slot }

/-- A depth that suffices: there are fewer than twice as many places as types and symbols, and
between two of them at most as many steps as there are links of chains. -/
def depth : Nat :=
  let places := env.checker.typeCount + env.checker.symbolCount + 4
  16 * places * places

/-- The node of a type. -/
def resolveType (t : TypeId) : Resolve TypeRef := (env.recur env.depth).type t

/-- The member of a symbol; none if it is not documented. -/
def resolveMember (symbol : SymbolId) : Resolve (Option MemberRef) :=
  (env.recur env.depth).member symbol

end Environment

end ApiDoc
