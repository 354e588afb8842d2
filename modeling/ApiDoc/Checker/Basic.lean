import ApiDoc.Checker.Flags
import ApiDoc.Checker.SyntaxKind
import ApiDoc.Error
import ApiDoc.Number.Binary64

/-!
# The checker

Documentation is made from a program that a type checker has already resolved.  All that is known of
it are answers to queries about five kinds of handles: files, symbols, types, signatures and syntax
nodes.  A `Checker` is the table of these answers.  A query about a handle that does not exist, and
one that the checker could not settle, is answered by an error.
-/

namespace ApiDoc

/-! ### Handles -/

/-- A name binding. -/
structure SymbolId where
  /-- Its number. -/
  index : Nat
  deriving DecidableEq, Repr, Inhabited

/-- A type. -/
structure TypeId where
  /-- Its number. -/
  index : Nat
  deriving DecidableEq, Repr, Inhabited

/-- A call, construct or index signature. -/
structure SignatureId where
  /-- Its number. -/
  index : Nat
  deriving DecidableEq, Repr, Inhabited

/-- A syntax node. -/
structure NodeId where
  /-- Its number. -/
  index : Nat
  deriving DecidableEq, Repr, Inhabited

/-- A source file. -/
structure FileId where
  /-- Its number. -/
  index : Nat
  deriving DecidableEq, Repr, Inhabited

/-! ### Answers -/

/-- The place of a node in the text of its file, in bytes. -/
structure Span where
  /-- Its start, with the comments and blanks before it. -/
  pos : Nat := 0
  /-- Its first token. -/
  start : Nat := 0
  /-- Its end. -/
  stop : Nat := 0
  deriving DecidableEq, Repr, Inhabited

/-- The value of a literal type. -/
inductive LiteralData where
  /-- A string. -/
  | text (value : String)
  /-- A number. -/
  | number (value : Binary64)
  /-- A whole number of any size: its sign and decimal digits. -/
  | bigint (negative : Bool) (digits : String)
  deriving DecidableEq, Repr

/-- The value of an enum member as the checker computed it. -/
inductive ConstantValue where
  /-- A number. -/
  | number (value : Binary64)
  /-- A string. -/
  | text (value : String)
  deriving DecidableEq, Repr

/-- The parts of a conditional type. -/
structure ConditionalRoot where
  /-- The type that is tested. -/
  check : TypeId
  /-- The type it is tested against. -/
  bound : TypeId
  /-- The outcome if the test succeeds. -/
  whenTrue : TypeId
  /-- The outcome if it fails. -/
  whenFalse : TypeId
  deriving DecidableEq, Repr

/-- An import and the file it stands for. -/
structure ResolvedModule where
  /-- The name as it is written. -/
  name : String
  /-- The file. -/
  resolvedFileName : String
  /-- The path before links were followed, if it differs. -/
  unresolvedPath : Option String := none
  /-- Whether the file belongs to a library. -/
  isExternal : Bool := false
  deriving DecidableEq, Repr

/-- A query's answer. -/
abbrev Answer (α : Type) := Except Error α

/-- The answers of a resolved program. -/
structure Checker where
  /-- A bound on how many symbols there are answers for. -/
  symbolCount : Nat
  /-- A bound on how many types there are answers for. -/
  typeCount : Nat
  /-- A bound on how many nodes there are answers for. -/
  nodeCount : Nat
  /-- The files of the program, in order. -/
  rootFiles : Answer (List FileId)
  /-- The path of a file. -/
  fileName : FileId → Answer String
  /-- The text of a file. -/
  fileText : FileId → Answer String
  /-- The name a file gives its module. -/
  moduleName : FileId → Answer (Option String)
  /-- Whether a file holds declarations only. -/
  isDeclarationFile : FileId → Answer Bool
  /-- Whether a file is a module. -/
  isExternalModule : FileId → Answer Bool
  /-- The node of a file. -/
  fileNode : FileId → Answer NodeId
  /-- The symbols of a script, in order. -/
  fileLocals : FileId → Answer (List SymbolId)
  /-- What a file imports. -/
  resolvedModules : FileId → Answer (List ResolvedModule)
  /-- What a file refers to by path. -/
  referencedFiles : FileId → Answer (List String)
  /-- The name of a symbol. -/
  symbolName : SymbolId → Answer String
  /-- What a symbol is declared as. -/
  symbolFlags : SymbolId → Answer SymbolFlags
  /-- The declarations of a symbol, in order. -/
  declarations : SymbolId → Answer (List NodeId)
  /-- The declaration that gives a symbol its value. -/
  valueDeclaration : SymbolId → Answer (Option NodeId)
  /-- What a symbol exports, in order. -/
  exportsOf : SymbolId → Answer (List SymbolId)
  /-- The members of a symbol's instances, in order. -/
  membersOf : SymbolId → Answer (List SymbolId)
  /-- The symbol that contains another. -/
  parentSymbol : SymbolId → Answer (Option SymbolId)
  /-- The symbol a node declares; may fail. -/
  symbolAtLocation : NodeId → Answer SymbolId
  /-- The type parameters that a symbol declares. -/
  declaredTypeParameters : SymbolId → Answer (List TypeId)
  /-- What a module exports; may fail. -/
  exportsOfModule : SymbolId → Answer (List SymbolId)
  /-- The type of a symbol at a node; may fail. -/
  typeOfSymbolAtLocation : SymbolId → NodeId → Answer TypeId
  /-- The type a symbol declares; may fail. -/
  declaredTypeOfSymbol : SymbolId → Answer TypeId
  /-- The type written at a node; may fail. -/
  typeAtLocation : NodeId → Answer TypeId
  /-- What a type extends. -/
  baseTypes : TypeId → Answer (List TypeId)
  /-- The properties of a type, its own before inherited ones. -/
  propertiesOfType : TypeId → Answer (List SymbolId)
  /-- The call signatures of a type. -/
  callSignatures : TypeId → Answer (List SignatureId)
  /-- Whether a type is an array. -/
  isArrayType : TypeId → Answer Bool
  /-- The type of an array's elements; may fail. -/
  elementTypeOfArray : TypeId → Answer TypeId
  /-- What shape a type has. -/
  typeFlags : TypeId → Answer TypeFlags
  /-- What shape an object type has. -/
  objectFlags : TypeId → Answer ObjectFlags
  /-- The symbol of a type. -/
  typeSymbol : TypeId → Answer (Option SymbolId)
  /-- The name of a built-in type. -/
  intrinsicName : TypeId → Answer (Option String)
  /-- The value of a literal type. -/
  literalValue : TypeId → Answer (Option LiteralData)
  /-- The generic type behind one with arguments. -/
  referenceTarget : TypeId → Answer (Option TypeId)
  /-- The arguments of a generic type. -/
  typeArguments : TypeId → Answer (List TypeId)
  /-- The operands of a union or intersection, in order. -/
  operandTypes : TypeId → Answer (List TypeId)
  /-- The parts of a conditional type. -/
  conditionalRoot : TypeId → Answer (Option ConditionalRoot)
  /-- The object and the index of an indexed access. -/
  indexedAccessParts : TypeId → Answer (Option (TypeId × TypeId))
  /-- The operand of the operator for property names. -/
  indexOperand : TypeId → Answer (Option TypeId)
  /-- Whether a type parameter is the type of the receiver. -/
  isThisType : TypeId → Answer Bool
  /-- The type that a substitution stands for. -/
  substitutionBase : TypeId → Answer (Option TypeId)
  /-- What a type parameter has to extend. -/
  constraintOf : TypeId → Answer (Option TypeId)
  /-- What a type parameter is unless told otherwise. -/
  defaultOf : TypeId → Answer (Option TypeId)
  /-- The signature of a declaration; may fail. -/
  signatureFromDeclaration : NodeId → Answer SignatureId
  /-- The declaration of a signature. -/
  signatureDeclaration : SignatureId → Answer (Option NodeId)
  /-- The type parameters of a signature. -/
  signatureTypeParameters : SignatureId → Answer (List TypeId)
  /-- The parameters of a signature, without the receiver. -/
  signatureParameters : SignatureId → Answer (List SymbolId)
  /-- The receiver of a signature. -/
  signatureThisParameter : SignatureId → Answer (Option SymbolId)
  /-- The type of what a signature returns. -/
  returnType : SignatureId → Answer TypeId
  /-- Whether a declaration implements the others of its function. -/
  isImplementationOfOverload : NodeId → Answer Bool
  /-- The kind of a node. -/
  nodeKind : NodeId → Answer SyntaxKind
  /-- The node around a node. -/
  nodeParent : NodeId → Answer (Option NodeId)
  /-- The file of a node. -/
  nodeFile : NodeId → Answer FileId
  /-- The place of a node. -/
  nodeSpan : NodeId → Answer Span
  /-- How a list of variables is declared. -/
  nodeFlags : NodeId → Answer NodeFlags
  /-- The modifiers of a declaration. -/
  combinedModifierFlags : NodeId → Answer ModifierFlags
  /-- The name of a declaration. -/
  declarationName : NodeId → Answer (Option String)
  /-- The text of an initialiser. -/
  initializerText : NodeId → Answer (Option String)
  /-- Whether a declaration has a body. -/
  hasBody : NodeId → Answer Bool
  /-- Whether a declaration is marked as a generator. -/
  hasAsterisk : NodeId → Answer Bool
  /-- Whether a declaration is marked as optional. -/
  hasQuestionToken : NodeId → Answer Bool
  /-- Whether a parameter takes the rest of the arguments. -/
  hasDotDotDot : NodeId → Answer Bool
  /-- What a class is declared to implement. -/
  implementsClause : NodeId → Answer (List NodeId)
  /-- The value of an enum member's initialiser. -/
  constantValue : NodeId → Answer (Option ConstantValue)

/-- The same answers, with room for those to some more handles of each kind. -/
def Checker.widen (c : Checker) (more : Nat) : Checker :=
  { c with
    symbolCount := c.symbolCount + more
    typeCount := c.typeCount + more
    nodeCount := c.nodeCount + more }

/-- A table of answers with the answer for one handle replaced.  The handle may be a new one, so a
checker with replaced answers has to be widened by their number. -/
def override {κ α : Type} [DecidableEq κ] (table : κ → α) (key : κ) (answer : α) : κ → α :=
  fun k => if k = key then answer else table k

@[simp]
theorem override_same {κ α : Type} [DecidableEq κ] (table : κ → α) (key : κ) (answer : α) :
    override table key answer key = answer := by
  simp [override]

theorem override_of_ne {κ α : Type} [DecidableEq κ] (table : κ → α) {key k : κ} (answer : α)
    (h : k ≠ key) : override table key answer k = table k := by
  simp [override, h]

end ApiDoc
