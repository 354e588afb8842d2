import ApiDoc.Checker.Basic
import ApiDoc.Config
import ApiDoc.Model.Project

/-!
# Sessions

Resolving works on one growing graph.  Which node stands for which type, and which member for which
symbol, is remembered as soon as a place for it is reserved, so that whatever comes back to it finds
that place.  What was remembered is never forgotten, not even when a step fails.
-/

namespace ApiDoc

/-- What resolving asks and how it is set up. -/
structure Environment where
  /-- The answers about the program. -/
  checker : Checker
  /-- How comments are found. -/
  locator : Comment.Locator := .standard
  /-- The settings. -/
  config : Config := {}

/-- What a member stands for. -/
inductive MemberKey where
  /-- A symbol. -/
  | symbol (symbol : SymbolId)
  /-- The class or namespace that a function is merged with. -/
  | companion (symbol : SymbolId)
  deriving DecidableEq, Repr

/-- All that a run has found out so far. -/
structure Session where
  /-- The types and members. -/
  graph : Graph := {}
  /-- The node of each type already met. -/
  typeMemo : List (TypeId × TypeRef) := []
  /-- The member of each symbol already met; none for a symbol that is not documented. -/
  memberMemo : List (MemberKey × Option MemberRef) := []
  /-- The member that declares each type parameter already met. -/
  typeParamOwners : List (TypeId × MemberRef) := []
  deriving Inhabited

/-- A step of resolving: it may fail, and what it has done until then stays. -/
abbrev Resolve := ExceptT Error (StateM Session)

namespace Session

/-- The node of a type, if it was met. -/
def typeOf? (s : Session) (t : TypeId) : Option TypeRef := s.typeMemo.lookup t

/-- What is remembered of a member. -/
def memberOf? (s : Session) (key : MemberKey) : Option (Option MemberRef) :=
  s.memberMemo.lookup key

/-- The member of a symbol, if it was met and is documented. -/
def cachedMember (s : Session) (symbol : SymbolId) : Option MemberRef :=
  (s.memberOf? (.symbol symbol)).join

/-- The member that declares a type parameter, if it is known. -/
def ownerOf? (s : Session) (t : TypeId) : Option MemberRef := s.typeParamOwners.lookup t

/-- The session with one more node, which stands at the end. -/
def pushType (s : Session) (node : TypeNode) : TypeRef × Session :=
  (⟨s.graph.types.size⟩, { s with graph.types := s.graph.types.push node })

/-- The session with one more member, which stands at the end. -/
def pushMember (s : Session) (member : Member) : MemberRef × Session :=
  (⟨s.graph.members.size⟩, { s with graph.members := s.graph.members.push member })

/-- The session with the declaring member of a type parameter recorded, unless one was: among the
owners, and in the node if there is one already. -/
def recordOwner (s : Session) (t : TypeId) (owner : MemberRef) : Session :=
  let s := match s.ownerOf? t with
    | some _ => s
    | none => { s with typeParamOwners := (t, owner) :: s.typeParamOwners }
  match s.typeOf? t with
  | some r =>
    { s with graph.types := s.graph.types.modify r.index fun
        | .parameter name declaredBy => .parameter name (declaredBy.or (some owner))
        | node => node }
  | none => s

end Session

namespace Resolve

/-- A new node. -/
def newType (node : TypeNode) : Resolve TypeRef := modifyGet fun s => s.pushType node

/-- A new member. -/
def newMember (member : Member) : Resolve MemberRef := modifyGet fun s => s.pushMember member

/-- Puts a node in a reserved place. -/
def setType (r : TypeRef) (node : TypeNode) : Resolve Unit :=
  modify fun s => { s with graph.types := s.graph.types.replace r.index node }

/-- Puts a member in a reserved place. -/
def setMember (r : MemberRef) (member : Member) : Resolve Unit :=
  modify fun s => { s with graph.members := s.graph.members.replace r.index member }

/-- The member of a reference. -/
def getMember (r : MemberRef) : Resolve Member := do (← get).graph.member r

/-- Remembers the node of a type. -/
def rememberType (t : TypeId) (r : TypeRef) : Resolve Unit :=
  modify fun s => { s with typeMemo := (t, r) :: s.typeMemo }

/-- Remembers a member. -/
def rememberMember (key : MemberKey) (r : Option MemberRef) : Resolve Unit :=
  modify fun s => { s with memberMemo := (key, r) :: s.memberMemo }

/-- A new node that is the type's from now on. -/
def reserveType (t : TypeId) (node : TypeNode) : Resolve TypeRef := do
  let r ← newType node
  rememberType t r
  return r

/-- A new member that is the key's from now on. -/
def reserveMember (key : MemberKey) (member : Member) : Resolve MemberRef := do
  let r ← newMember member
  rememberMember key (some r)
  return r

/-- Records the member that declares a type parameter. -/
def recordOwner (t : TypeId) (owner : MemberRef) : Resolve Unit :=
  modify fun s => s.recordOwner t owner

end Resolve

/-- How the types and symbols that something refers to are resolved. -/
structure Resolver where
  /-- The node of a type. -/
  type : TypeId → Resolve TypeRef
  /-- The member of a symbol; none if it is not documented. -/
  member : SymbolId → Resolve (Option MemberRef)
  /-- A fresh member for a symbol, to stand at the given place. -/
  build : SymbolId → MemberRef → Resolve Member

namespace Resolver

/-- The nodes of types, in order. -/
def types (r : Resolver) (ts : List TypeId) : Resolve (List TypeRef) := ts.mapM r.type

/-- The members of symbols, in order, without those that are not documented. -/
def members (r : Resolver) (ss : List SymbolId) : Resolve (List MemberRef) :=
  return (← ss.mapM r.member).filterMap id

end Resolver

end ApiDoc
