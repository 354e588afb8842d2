import ApiDoc.Json.Decode
import ApiDoc.Number.Layout
import ApiDoc.Text.Fill
import ApiDoc.Text.Quoted

/-!
# Types

A documented type is a node whose parts are references to other nodes, so that a type that mentions
itself is a cycle of references.  Members are referred to the same way.
-/

namespace ApiDoc

/-- A reference to a documented type. -/
structure TypeRef where
  /-- The number of the type's node. -/
  index : Nat
  deriving DecidableEq, Repr, Inhabited

/-- A reference to a documented member. -/
structure MemberRef where
  /-- The number of the member. -/
  index : Nat
  deriving DecidableEq, Repr, Inhabited

/-! ### Built-in types -/

/-- A built-in type; `mixed` stands for whatever has no description of its own. -/
inductive NativeType where
  | any | unknown | string | number | boolean | bigint | symbol | uniqueSymbol | void | undefined
  | null | never | object | mixed
  deriving DecidableEq, Repr, Inhabited

namespace NativeType

/-- The keyword of a built-in type. -/
def name : NativeType → String
  | any => "any"
  | unknown => "unknown"
  | string => "string"
  | number => "number"
  | boolean => "boolean"
  | bigint => "bigint"
  | symbol => "symbol"
  | uniqueSymbol => "unique symbol"
  | void => "void"
  | undefined => "undefined"
  | null => "null"
  | never => "never"
  | object => "object"
  | mixed => "mixed"

/-- Every built-in type. -/
def all : List NativeType :=
  [any, unknown, string, number, boolean, bigint, symbol, uniqueSymbol, void, undefined, null,
   never, object, mixed]

/-- The built-in type of a keyword. -/
def ofName? (n : String) : Option NativeType := all.find? fun native => native.name = n

/-- The built-in type of the checker's name for it, `mixed` when it is not known. -/
def ofIntrinsicName (n : String) : NativeType := (ofName? n).getD mixed

/-- The built-in type in JSON. -/
def toJson (native : NativeType) : Json := .text native.name

/-- The built-in type a JSON value stands for. -/
def ofJson? (value : Json) : Option NativeType := value.asWordOf?.bind ofName?

@[simp]
theorem ofName?_name (native : NativeType) : ofName? native.name = some native := by
  cases native <;> rfl

end NativeType

/-! ### Literal types -/

/-- The value of a literal type. -/
inductive LiteralValue where
  /-- A string. -/
  | text (value : String)
  /-- A number. -/
  | number (value : Binary64)
  /-- A truth value. -/
  | bool (value : Bool)
  /-- A whole number of any size, by its decimal digits. -/
  | bigint (digits : String)
  deriving DecidableEq, Repr

namespace LiteralValue

/-- The literal as source text has it. -/
def sourceText : LiteralValue → String
  | text s => Text.quoted s
  | number x => x.sourceText
  | bool b => if b then "true" else "false"
  | bigint digits => digits ++ "n"

/-- The literal in JSON. -/
def toJson : LiteralValue → Json
  | text s => .text s
  | number x => .decimal x
  | bool b => .bool b
  | bigint digits => .text digits

/-- The literal a JSON value stands for. -/
def ofJson? : Json → Option LiteralValue
  | .text s => some (text s)
  | .integer i => some (number (Binary64.ofInt i))
  | .decimal x => some (number x)
  | .bool b => some (bool b)
  | _ => none

end LiteralValue

/-- An operator in front of a type. -/
inductive TypeOperator where
  /-- The names of a type's properties. -/
  | keyOf
  deriving DecidableEq, Repr, Inhabited

namespace TypeOperator

/-- The keyword of an operator. -/
def keyword : TypeOperator → String
  | keyOf => "keyof"

/-- The operator in JSON. -/
def toJson : TypeOperator → Json
  | keyOf => .text "keyOf"

/-- The operator a JSON value stands for. -/
def ofJson? (value : Json) : Option TypeOperator :=
  value.asWordOf?.bind fun word => if word = "keyOf" then some keyOf else none

end TypeOperator

/-! ### Signatures -/

/-- A type parameter. -/
structure TypeParameter where
  /-- Its name. -/
  name : String
  /-- What its tag says. -/
  summary : String := ""
  /-- The parameter as a type. -/
  type : TypeRef
  /-- What it has to extend. -/
  constraint : Option TypeRef := none
  /-- What it is unless told otherwise. -/
  default : Option TypeRef := none
  deriving DecidableEq, Repr

/-- A parameter of a signature. -/
structure Parameter where
  /-- Its name. -/
  name : String
  /-- What its tag says. -/
  summary : String := ""
  /-- Its type. -/
  type : TypeRef
  /-- Whether it may be left out: marked so, taking the rest, or with a default. -/
  optional : Bool := false
  /-- Whether it takes the rest of the arguments. -/
  rest : Bool := false
  /-- The text of its default. -/
  default : Option String := none
  deriving DecidableEq, Repr

namespace Parameter

/-- The parameter, marked as optional. -/
def asOptional (p : Parameter) : Parameter := { p with optional := true }

/-- The parameter, taking the rest of the arguments. -/
def asRest (p : Parameter) : Parameter := { p with rest := true, optional := true }

/-- The parameter with a default, and so optional. -/
def withDefault (p : Parameter) (text : String) : Parameter :=
  { p with default := some text, optional := true }

end Parameter

/-- Parameters with missing summaries taken, position by position, from others. -/
def backfillParameters : List Parameter → List Parameter → List Parameter
  | p :: ps, b :: bs =>
    { p with summary := Text.fill p.summary b.summary } :: backfillParameters ps bs
  | ps, [] => ps
  | [], _ => []

/-- Type parameters with missing summaries taken, position by position, from others. -/
def backfillTypeParameters : List TypeParameter → List TypeParameter → List TypeParameter
  | p :: ps, b :: bs =>
    { p with summary := Text.fill p.summary b.summary } :: backfillTypeParameters ps bs
  | ps, [] => ps
  | [], _ => []

/-- The shape of a call, shared by methods and function types. -/
structure Signature where
  /-- Its type parameters. -/
  typeParameters : List TypeParameter := []
  /-- Its parameters. -/
  parameters : List Parameter := []
  /-- The type of what it returns. -/
  returnType : TypeRef
  /-- The type of an explicit receiver. -/
  thisType : Option TypeRef := none
  deriving DecidableEq, Repr

/-! ### Nodes -/

/-- A documented type. -/
inductive TypeNode where
  /-- A built-in type. -/
  | native (type : NativeType)
  /-- A literal. -/
  | literal (value : LiteralValue)
  /-- An array. -/
  | array (element : TypeRef)
  /-- A tuple. -/
  | tuple (elements : List TypeRef)
  /-- A generic type with its arguments. -/
  | generic (target : TypeRef) (arguments : List TypeRef)
  /-- A function. -/
  | function (signature : Signature)
  /-- An object without a name, which owns its members. -/
  | object (members : List MemberRef)
  /-- A union. -/
  | union (operands : List TypeRef)
  /-- An intersection. -/
  | intersection (operands : List TypeRef)
  /-- A choice between two types by a test on a third. -/
  | conditional (check bound whenTrue whenFalse : TypeRef)
  /-- The type of a property, by the type of its name. -/
  | indexedAccess (operand argument : TypeRef)
  /-- An operator before a type. -/
  | unary (operator : TypeOperator) (operand : TypeRef)
  /-- A type parameter, with the member that declares it if that is known. -/
  | parameter (name : String) (declaredBy : Option MemberRef)
  /-- The type of the receiver. -/
  | this
  /-- The type of a named value. -/
  | typeOf (member : Option MemberRef)
  /-- A class, interface or enum by name. -/
  | named (member : Option MemberRef)
  deriving DecidableEq, Repr

namespace TypeNode

/-- The type of whatever has no description of its own. -/
def mixed : TypeNode := native .mixed

instance : Inhabited TypeNode := ⟨mixed⟩

/-- Whether the node is `mixed`. -/
def isMixed (node : TypeNode) : Bool := node = mixed

/-- The word for the kind of a node. -/
def kind : TypeNode → String
  | native _ => "native"
  | literal _ => "literal"
  | array _ => "array"
  | tuple _ => "tuple"
  | generic .. => "generic"
  | function _ => "function"
  | object _ => "object"
  | union _ => "union"
  | intersection _ => "intersection"
  | conditional .. => "conditional"
  | indexedAccess .. => "indexedAccess"
  | unary .. => "unary"
  | parameter .. => "typeParameterRef"
  | this => "this"
  | typeOf _ => "typeof"
  | named _ => "class"

/-- The types a node is made of, in order. -/
def children : TypeNode → List TypeRef
  | array element => [element]
  | tuple elements => elements
  | generic target arguments => target :: arguments
  | function signature => signature.parameters.map Parameter.type ++ [signature.returnType]
  | union operands | intersection operands => operands
  | conditional check bound whenTrue whenFalse => [check, bound, whenTrue, whenFalse]
  | indexedAccess operand argument => [operand, argument]
  | unary _ operand => [operand]
  | native _ | literal _ | object _ | parameter .. | this | typeOf _ | named _ => []

end TypeNode

end ApiDoc
