import ApiDoc.Checker.Flags
import ApiDoc.Checker.SyntaxKind
import ApiDoc.Doc.Documentation
import ApiDoc.Doc.Visibility
import ApiDoc.Error
import ApiDoc.Model.EnumValue
import ApiDoc.Model.TypeNode

/-!
# Members

Whatever carries documentation is a member: a field, a method, a class or interface, an enum, a
namespace or a type alias.  What all of them share stands in `Member`, the rest in its body.
Containers own the members they list; all other references are only pointers.
-/

namespace ApiDoc

/-! ### Places -/

/-- Where a declaration stands, counted from zero. -/
structure Location where
  /-- The file, with forward slashes. -/
  file : String := ""
  /-- The line of its first token. -/
  line : Nat := 0
  /-- The column of its first token. -/
  col : Nat := 0
  /-- The line of its end. -/
  endLine : Nat := 0
  /-- The column of its end. -/
  endCol : Nat := 0
  deriving DecidableEq, Repr, Inhabited

namespace Location

/-- A count from zero as a count from one, which has to be a word as well. -/
def fromOne (n : Nat) : Except Error Nat :=
  if n + 1 < UInt64.size then .ok (n + 1) else .error .overflow

/-- File, line and column, counted from one. -/
def display (l : Location) : Except Error String := do
  return l.file ++ ":" ++ toString (← fromOne l.line) ++ ":" ++ toString (← fromOne l.col)

/-- The place in JSON. -/
def toJson (l : Location) : Json :=
  .object [("file", .text l.file), ("line", .nat l.line), ("col", .nat l.col),
    ("endLine", .nat l.endLine), ("endCol", .nat l.endCol)]

/-- The place a JSON value stands for. -/
def ofJson? (value : Json) : Option Location :=
  match value.record? ["file", "line", "col", "endLine", "endCol"] with
  | some [file, line, col, endLine, endCol] => do
    return {
      file := ← Json.required Json.asText? file
      line := ← Json.required Json.asWord? line
      col := ← Json.required Json.asWord? col
      endLine := ← Json.required Json.asWord? endLine
      endCol := ← Json.required Json.asWord? endCol }
  | _ => none

end Location

/-! ### Fields -/

/-- How a field is declared. -/
inductive FieldKind where
  | varBinding | letBinding | constBinding | property | accessor | enumMember
  deriving DecidableEq, Repr

instance : Inhabited FieldKind := ⟨.property⟩

namespace FieldKind

/-- The kind of the declaration that owns a field; `listFlags` are those of the list of variables
around it. -/
def ofDeclaration (kind : SyntaxKind) (listFlags : NodeFlags) : FieldKind :=
  match kind with
  | .variableDeclaration =>
    if listFlags.has .constBinding then .constBinding
    else if listFlags.has .letBinding then .letBinding
    else .varBinding
  | .enumMember => .enumMember
  | .getAccessor | .setAccessor => .accessor
  | _ => .property

/-- The keyword that declares such a field. -/
def keyword? : FieldKind → Option String
  | varBinding => some "var"
  | letBinding => some "let"
  | constBinding => some "const"
  | property | accessor | enumMember => none

/-- The word for a kind. -/
def word : FieldKind → String
  | varBinding => "var"
  | letBinding => "let"
  | constBinding => "const"
  | property => "field"
  | accessor => "accessor"
  | enumMember => "enumMember"

/-- The kind of a word. -/
def ofWord? (w : String) : Option FieldKind :=
  [varBinding, letBinding, constBinding, property, accessor, enumMember].find? fun kind => kind.word = w

/-- The kind in JSON. -/
def toJson (kind : FieldKind) : Json := .text kind.word

/-- The kind a JSON value stands for. -/
def ofJson? (value : Json) : Option FieldKind := value.asWordOf?.bind ofWord?

end FieldKind

/-- A variable, property, accessor or enum member. -/
structure Field where
  /-- How it is declared. -/
  kind : FieldKind
  /-- Its type. -/
  type : TypeRef
  /-- Whether it may be absent. -/
  optional : Bool := false
  /-- Whether it can only be read. -/
  readOnly : Bool := false
  /-- Whether it is declared constant. -/
  isConst : Bool := decide (kind = .constBinding)
  /-- The text of its initialiser. -/
  default : Option String := none
  deriving DecidableEq, Repr

/-! ### Methods -/

/-- How a method is declared. -/
inductive MethodKind where
  | function | method | constructor | indexSignature
  deriving DecidableEq, Repr, Inhabited

namespace MethodKind

/-- The kind of a declaration. -/
def ofDeclaration : SyntaxKind → MethodKind
  | .methodDeclaration | .methodSignature => .method
  | .constructor | .constructSignature => .constructor
  | .indexSignature => .indexSignature
  | _ => .function

/-- The word for a kind. -/
def word : MethodKind → String
  | function => "function"
  | method => "method"
  | constructor => "constructor"
  | indexSignature => "indexSignature"

/-- The kind of a word. -/
def ofWord? (w : String) : Option MethodKind :=
  [function, method, constructor, indexSignature].find? fun kind => kind.word = w

/-- The kind in JSON. -/
def toJson (kind : MethodKind) : Json := .text kind.word

/-- The kind a JSON value stands for. -/
def ofJson? (value : Json) : Option MethodKind := value.asWordOf?.bind ofWord?

end MethodKind

/-- A function, method, constructor or index signature. -/
structure Method where
  /-- How it is declared. -/
  kind : MethodKind
  /-- Its parameters and types. -/
  signature : Signature
  /-- What it returns, in words. -/
  returnSummary : String := ""
  /-- Whether it is asynchronous. -/
  isAsync : Bool := false
  /-- Whether it is a generator. -/
  isGenerator : Bool := false
  /-- Its other declarations, in order. -/
  overloads : List MemberRef := []
  /-- The class or namespace that it is merged with. -/
  companion : Option MemberRef := none
  deriving DecidableEq, Repr

/-! ### Containers -/

/-- Class or interface. -/
inductive ClassKind where
  /-- A class. -/
  | concrete
  /-- An interface. -/
  | contract
  deriving DecidableEq, Repr, Inhabited

namespace ClassKind

/-- The word for a kind. -/
def word : ClassKind → String
  | concrete => "class"
  | contract => "interface"

/-- The kind of a word. -/
def ofWord? (w : String) : Option ClassKind :=
  [concrete, contract].find? fun kind => kind.word = w

/-- The kind in JSON. -/
def toJson (kind : ClassKind) : Json := .text kind.word

/-- The kind a JSON value stands for. -/
def ofJson? (value : Json) : Option ClassKind := value.asWordOf?.bind ofWord?

end ClassKind

/-- A class or interface. -/
structure ClassBody where
  /-- Which of the two. -/
  kind : ClassKind
  /-- Its type parameters. -/
  typeParameters : List TypeParameter := []
  /-- What it extends. -/
  bases : List TypeRef := []
  /-- What it implements. -/
  implements : List TypeRef := []
  /-- Its own static members. -/
  members : List MemberRef := []
  /-- Its own instance members. -/
  instanceMembers : List MemberRef := []
  /-- Inherited instance members, which it does not own. -/
  extendedMembers : List MemberRef := []
  /-- Its constructor. -/
  constructor : Option MemberRef := none
  /-- Its index signature. -/
  indexer : Option MemberRef := none
  /-- Its construct signature. -/
  newSignature : Option MemberRef := none
  deriving DecidableEq, Repr

/-- The members a class owns: static ones, instance ones, and those with a place of their own. -/
def ClassBody.ownedMembers (c : ClassBody) : List MemberRef :=
  c.members ++ c.instanceMembers ++ c.constructor.toList ++ c.indexer.toList ++
    c.newSignature.toList

/-- A member of an enum. -/
structure EnumEntry where
  /-- Its name. -/
  name : String
  /-- Its value. -/
  value : EnumValue
  /-- The member with its documentation. -/
  member : MemberRef
  deriving DecidableEq, Repr

/-- An enum. -/
structure EnumBody where
  /-- Whether it is constant. -/
  isConst : Bool := false
  /-- Its members. -/
  members : List EnumEntry := []
  /-- What a namespace merged into it exports. -/
  namespaceMembers : List MemberRef := []
  deriving DecidableEq, Repr

/-- The first member of an enum with a name. -/
def EnumBody.member? (e : EnumBody) (name : String) : Option EnumEntry :=
  e.members.find? fun entry => entry.name = name

/-! ### Members -/

/-- What tells one kind of member from another. -/
inductive MemberBody where
  /-- A field. -/
  | field (body : Field)
  /-- A method. -/
  | method (body : Method)
  /-- A class or interface. -/
  | classLike (body : ClassBody)
  /-- An enum. -/
  | enumeration (body : EnumBody)
  /-- A namespace, by what it exports. -/
  | namespaceLike (members : List MemberRef)
  /-- An alias of a type. -/
  | alias (type : TypeRef) (typeParameters : List TypeParameter)
  deriving DecidableEq, Repr

/-- A documented member. -/
structure Member where
  /-- The name to show. -/
  name : String
  /-- The name under which its module exports it. -/
  exportName : Option String := none
  /-- Its documentation. -/
  doc : Documentation := {}
  /-- Where it is declared. -/
  location : Location := {}
  /-- Who may use it. -/
  visibility : Visibility := .everyone
  /-- Whether it belongs to the class and not to its instances. -/
  isStatic : Bool := false
  /-- Whether it has no implementation of its own. -/
  isAbstract : Bool := false
  /-- Whether it declares a member of a base type anew. -/
  isOverride : Bool := false
  /-- The base type with the member that it overrides. -/
  parent : Option TypeRef := none
  /-- The member that it overrides. -/
  overrides : Option MemberRef := none
  /-- What kind of member it is, with what belongs to that kind. -/
  body : MemberBody
  deriving DecidableEq

namespace Member

/-- What stands in a member's place while it is being worked out. -/
def placeholder (name : String) : Member := { name, body := .namespaceLike [] }

instance : Inhabited Member := ⟨placeholder ""⟩

/-- The word for the kind of a member. -/
def kind (m : Member) : String :=
  match m.body with
  | .field _ => "field"
  | .method _ => "method"
  | .classLike c => c.kind.word
  | .enumeration _ => "enum"
  | .namespaceLike _ => "namespace"
  | .alias .. => "type"

/-- The method, if the member is one. -/
def method? (m : Member) : Option Method :=
  match m.body with
  | .method body => some body
  | _ => none

/-- The class or interface, if the member is one. -/
def class? (m : Member) : Option ClassBody :=
  match m.body with
  | .classLike body => some body
  | _ => none

/-- The enum, if the member is one. -/
def enum? (m : Member) : Option EnumBody :=
  match m.body with
  | .enumeration body => some body
  | _ => none

/-- The member with overloads and a companion, if it is a method. -/
def withOverloads (m : Member) (overloads : List MemberRef) (companion : Option MemberRef) :
    Member :=
  match m.body with
  | .method body => { m with body := .method { body with overloads, companion } }
  | _ => m

/-- The members it owns, in the order in which they are listed. -/
def children (m : Member) : List MemberRef :=
  match m.body with
  | .method body => body.overloads ++ body.companion.toList
  | .classLike body => body.ownedMembers
  | .enumeration body => body.members.map EnumEntry.member ++ body.namespaceMembers
  | .namespaceLike members => members
  | .field _ | .alias .. => []

end Member

end ApiDoc
