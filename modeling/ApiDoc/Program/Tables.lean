import ApiDoc.Checker.Basic
import ApiDoc.Model.Arena

/-!
# Programs in memory

A whole resolved program as tables: one for each kind of handle, and the nodes about which the
checker is to fail.  `Program.checker` answers every query from them.
-/

namespace ApiDoc

/-- A file of a program. -/
structure FileData where
  /-- Its path. -/
  name : String
  /-- Its text. -/
  text : String := ""
  /-- The name it gives its module. -/
  moduleName : Option String := none
  /-- Whether it holds declarations only. -/
  declaration : Bool := false
  /-- Whether it is a module. -/
  isModule : Bool := false
  /-- Its node. -/
  node : NodeId
  /-- Its symbol. -/
  symbol : SymbolId
  /-- The symbols declared at its top. -/
  locals : List SymbolId := []
  /-- What it imports. -/
  resolvedModules : List ResolvedModule := []
  /-- What it refers to by path. -/
  referencedFiles : List String := []
  deriving Inhabited

/-- A symbol of a program. -/
structure SymbolData where
  /-- Its name. -/
  name : String
  /-- What it is declared as. -/
  flags : SymbolFlags
  /-- Its declarations. -/
  declarations : List NodeId := []
  /-- The declaration that gives it its value. -/
  valueDeclaration : Option NodeId := none
  /-- What it exports. -/
  exportsOf : List SymbolId := []
  /-- The members of its instances. -/
  membersOf : List SymbolId := []
  /-- The symbol that contains it. -/
  parent : Option SymbolId := none
  /-- The type of its value. -/
  type : Option TypeId := none
  /-- The type it declares. -/
  declaredType : Option TypeId := none
  /-- The type parameters it declares. -/
  typeParameters : List TypeId := []
  deriving Inhabited

/-- A type of a program. -/
structure TypeData where
  /-- What shape it has. -/
  flags : TypeFlags := .of []
  /-- What shape it has as an object type. -/
  objectFlags : ObjectFlags := .of []
  /-- Its symbol. -/
  symbol : Option SymbolId := none
  /-- Its name, if it is built in. -/
  intrinsicName : Option String := none
  /-- Its value, if it is a literal. -/
  literal : Option LiteralData := none
  /-- The generic type behind it. -/
  target : Option TypeId := none
  /-- Its arguments. -/
  arguments : List TypeId := []
  /-- Its operands. -/
  operands : List TypeId := []
  /-- Its parts, if it is conditional. -/
  conditional : Option ConditionalRoot := none
  /-- Its parts, if it is an indexed access. -/
  indexedAccess : Option (TypeId × TypeId) := none
  /-- The type whose property names it is. -/
  indexOperand : Option TypeId := none
  /-- Whether it is the type of the receiver. -/
  isThis : Bool := false
  /-- The type it stands for. -/
  substitutionBase : Option TypeId := none
  /-- What it has to extend. -/
  constraint : Option TypeId := none
  /-- What it is unless told otherwise. -/
  default : Option TypeId := none
  /-- What it extends. -/
  baseTypes : List TypeId := []
  /-- Its properties, if it is an object without a name. -/
  properties : List SymbolId := []
  /-- Its call signatures. -/
  callSignatures : List SignatureId := []
  /-- The type of its elements, if it is an array. -/
  element : Option TypeId := none
  deriving Inhabited

/-- A signature of a program. -/
structure SignatureData where
  /-- Its declaration. -/
  declaration : Option NodeId := none
  /-- Its type parameters. -/
  typeParameters : List TypeId := []
  /-- Its parameters. -/
  parameters : List SymbolId := []
  /-- Its receiver. -/
  thisParameter : Option SymbolId := none
  /-- The type of what it returns. -/
  returnType : TypeId
  deriving Inhabited

/-- A node of a program. -/
structure NodeData where
  /-- Its kind. -/
  kind : SyntaxKind
  /-- The node around it. -/
  parent : Option NodeId := none
  /-- Its file. -/
  file : FileId
  /-- Its place. -/
  span : Span := {}
  /-- How the list of variables it is, is declared. -/
  flags : NodeFlags := .of []
  /-- Its modifiers. -/
  modifiers : ModifierFlags := .of []
  /-- Its name. -/
  name : Option String := none
  /-- The text of its initialiser. -/
  initializer : Option String := none
  /-- Whether it has a body. -/
  hasBody : Bool := false
  /-- Whether it is marked as a generator. -/
  asterisk : Bool := false
  /-- Whether it is marked as optional. -/
  question : Bool := false
  /-- Whether it takes the rest of the arguments. -/
  dotDotDot : Bool := false
  /-- What it is declared to implement. -/
  implements : List NodeId := []
  /-- The value of its initialiser. -/
  constant : Option ConstantValue := none
  /-- Its signature. -/
  signature : Option SignatureId := none
  /-- Whether it implements the other declarations of its function. -/
  implementation : Bool := false
  /-- The type written at it. -/
  typeAt : Option TypeId := none
  /-- The symbol it declares. -/
  symbol : Option SymbolId := none
  deriving Inhabited

/-- A resolved program. -/
structure Program where
  /-- Its files. -/
  files : Arena FileData := {}
  /-- Its symbols. -/
  symbols : Arena SymbolData := {}
  /-- Its types. -/
  types : Arena TypeData := {}
  /-- Its signatures. -/
  signatures : Arena SignatureData := {}
  /-- Its nodes. -/
  nodes : Arena NodeData := {}
  /-- The nodes about which queries that may fail do fail. -/
  failing : List NodeId := []
  deriving Inhabited

namespace Program

/-! ### Looking up handles -/

/-- The data of a file. -/
def file (p : Program) (f : FileId) : Answer FileData := Error.orOutOfBounds (p.files.get? f.index)

/-- The data of a symbol. -/
def symbol (p : Program) (s : SymbolId) : Answer SymbolData :=
  Error.orOutOfBounds (p.symbols.get? s.index)

/-- The data of a type. -/
def type (p : Program) (t : TypeId) : Answer TypeData := Error.orOutOfBounds (p.types.get? t.index)

/-- The data of a signature. -/
def signature (p : Program) (s : SignatureId) : Answer SignatureData :=
  Error.orOutOfBounds (p.signatures.get? s.index)

/-- The data of a node. -/
def node (p : Program) (n : NodeId) : Answer NodeData := Error.orOutOfBounds (p.nodes.get? n.index)

/-- The value, or the checker's failure with the given text. -/
def orFail (text : String) : Option α → Answer α
  | some a => .ok a
  | none => .error (.checker text)

/-- The data of a symbol, for a query that may fail. -/
def knownSymbol (p : Program) (s : SymbolId) : Answer SymbolData :=
  match p.symbols.get? s.index with
  | some data => .ok data
  | none => .error (.unknownHandle "symbol" s.index)

/-- The data of a type, for a query that may fail. -/
def knownType (p : Program) (t : TypeId) : Answer TypeData :=
  match p.types.get? t.index with
  | some data => .ok data
  | none => .error (.unknownHandle "type" t.index)

/-- The data of a node, for a query that may fail; it does if the node is one of the failing. -/
def knownNode (p : Program) (n : NodeId) : Answer NodeData :=
  match p.nodes.get? n.index with
  | some data =>
    if p.failing.contains n then
      .error (.checker ("cannot resolve " ++ data.kind.name ++ " node #" ++ toString n.index))
    else .ok data
  | none => .error (.unknownHandle "node" n.index)

/-! ### Properties -/

/-- A symbol that is listed among the properties of its owner's instances. -/
def isProperty (p : Program) (s : SymbolId) : Answer Bool :=
  return !(← p.symbol s).flags.hasAny [.constructor, .signature]

/-- Properties with those of a base that have a new name. -/
def addInherited (p : Program) (own : List SymbolId) : List SymbolId → Answer (List SymbolId)
  | [] => .ok own
  | s :: rest => do
    let name := (← p.symbol s).name
    let names ← own.mapM fun other => return (← p.symbol other).name
    p.addInherited (if names.contains name then own else own ++ [s]) rest

/-- The properties of a type: those of its class or interface, then what each base adds; those of
the generic type behind it; or those listed with the type itself. -/
def propertiesWithin (p : Program) : Nat → TypeId → Answer (List SymbolId)
  | 0, _ => .error .tooDeep
  | fuel + 1, t => do
    let data ← p.type t
    if data.objectFlags.hasAny ObjectFlag.classOrInterface then
      let own ← match data.symbol with
        | some owner => (← p.symbol owner).membersOf.filterM p.isProperty
        | none => pure []
      data.baseTypes.foldlM
        (fun properties base => do p.addInherited properties (← p.propertiesWithin fuel base)) own
    else
      match data.target with
      | some target => if target = t then return data.properties else p.propertiesWithin fuel target
      | none => return data.properties

/-- The properties of a type.  Bases and generic types never come back to where they started, so
the number of types bounds the depth. -/
def properties (p : Program) (t : TypeId) : Answer (List SymbolId) :=
  p.propertiesWithin (p.types.size + 1) t

/-! ### Answers -/

/-- The answers of a program. -/
def checker (p : Program) : Checker where
  symbolCount := p.symbols.size
  typeCount := p.types.size
  nodeCount := p.nodes.size
  rootFiles := .ok ((List.range p.files.size).map FileId.mk)
  fileName f := return (← p.file f).name
  fileText f := return (← p.file f).text
  moduleName f := return (← p.file f).moduleName
  isDeclarationFile f := return (← p.file f).declaration
  isExternalModule f := return (← p.file f).isModule
  fileNode f := return (← p.file f).node
  fileLocals f := return (← p.file f).locals
  resolvedModules f := return (← p.file f).resolvedModules
  referencedFiles f := return (← p.file f).referencedFiles
  symbolName s := return (← p.symbol s).name
  symbolFlags s := return (← p.symbol s).flags
  declarations s := return (← p.symbol s).declarations
  valueDeclaration s := return (← p.symbol s).valueDeclaration
  exportsOf s := return (← p.symbol s).exportsOf
  membersOf s := return (← p.symbol s).membersOf
  parentSymbol s := return (← p.symbol s).parent
  symbolAtLocation n := do
    orFail ("no symbol at node #" ++ toString n.index) (← p.knownNode n).symbol
  declaredTypeParameters s := return (← p.symbol s).typeParameters
  exportsOfModule s := return (← p.knownSymbol s).exportsOf
  typeOfSymbolAtLocation s n := do
    let _ ← p.knownNode n
    let data ← p.knownSymbol s
    orFail ("no type for `" ++ data.name ++ "`") data.type
  declaredTypeOfSymbol s := do
    let data ← p.knownSymbol s
    orFail ("`" ++ data.name ++ "` declares no type") data.declaredType
  typeAtLocation n := do
    orFail ("no type at node #" ++ toString n.index) (← p.knownNode n).typeAt
  baseTypes t := return (← p.type t).baseTypes
  propertiesOfType t := p.properties t
  callSignatures t := return (← p.type t).callSignatures
  isArrayType t := return (← p.type t).element.isSome
  elementTypeOfArray t := do
    orFail ("type #" ++ toString t.index ++ " is not an array") (← p.knownType t).element
  typeFlags t := return (← p.type t).flags
  objectFlags t := return (← p.type t).objectFlags
  typeSymbol t := return (← p.type t).symbol
  intrinsicName t := return (← p.type t).intrinsicName
  literalValue t := return (← p.type t).literal
  referenceTarget t := return (← p.type t).target
  typeArguments t := return (← p.type t).arguments
  operandTypes t := return (← p.type t).operands
  conditionalRoot t := return (← p.type t).conditional
  indexedAccessParts t := return (← p.type t).indexedAccess
  indexOperand t := return (← p.type t).indexOperand
  isThisType t := return (← p.type t).isThis
  substitutionBase t := return (← p.type t).substitutionBase
  constraintOf t := return (← p.type t).constraint
  defaultOf t := return (← p.type t).default
  signatureFromDeclaration n := do
    orFail ("node #" ++ toString n.index ++ " has no signature") (← p.knownNode n).signature
  signatureDeclaration s := return (← p.signature s).declaration
  signatureTypeParameters s := return (← p.signature s).typeParameters
  signatureParameters s := return (← p.signature s).parameters
  signatureThisParameter s := return (← p.signature s).thisParameter
  returnType s := return (← p.signature s).returnType
  isImplementationOfOverload n := return (← p.node n).implementation
  nodeKind n := return (← p.node n).kind
  nodeParent n := return (← p.node n).parent
  nodeFile n := return (← p.node n).file
  nodeSpan n := return (← p.node n).span
  nodeFlags n := return (← p.node n).flags
  combinedModifierFlags n := return (← p.node n).modifiers
  declarationName n := return (← p.node n).name
  initializerText n := return (← p.node n).initializer
  hasBody n := return (← p.node n).hasBody
  hasAsterisk n := return (← p.node n).asterisk
  hasQuestionToken n := return (← p.node n).question
  hasDotDotDot n := return (← p.node n).dotDotDot
  implementsClause n := return (← p.node n).implements
  constantValue n := return (← p.node n).constant

end Program

end ApiDoc
