import ApiDoc.Resolve.Source

/-!
# Resolving types

The flags of a type decide what it is documented as: `TypeShape.of` is an ordered table in which the
first entry that fits wins.  A type made of others gets its place before its parts are resolved, so
a type that mentions itself leads back to that place.
-/

namespace ApiDoc

/-- The shape of a type that is made of other types or of members. -/
inductive Composite where
  /-- A class, interface or enum by name. -/
  | named
  /-- An array. -/
  | array
  /-- A tuple. -/
  | tuple
  /-- A generic type with arguments. -/
  | generic
  /-- A function with one signature. -/
  | function (signature : SignatureId)
  /-- The type of a named value. -/
  | typeOf (symbol : SymbolId)
  /-- An object without a name. -/
  | object
  /-- A union. -/
  | union
  /-- An intersection. -/
  | intersection
  /-- A conditional type. -/
  | conditional
  /-- An indexed access. -/
  | indexedAccess
  /-- The names of a type's properties. -/
  | keyOf
  deriving DecidableEq, Repr

/-- What a type is documented as. -/
inductive TypeShape where
  /-- A built-in type; `mixed` for whatever fits nothing else. -/
  | native (type : NativeType)
  /-- A literal. -/
  | literal
  /-- The type of the receiver. -/
  | this
  /-- A type parameter. -/
  | parameter
  /-- A type that stands for another. -/
  | substitution (base : TypeId)
  /-- A type with parts. -/
  | composite (shape : Composite)
  deriving DecidableEq, Repr

namespace TypeShape

/-- The built-in types by their flags. -/
def nativeFlags : List (TypeFlag × NativeType) :=
  [(.any, .any), (.unknown, .unknown), (.string, .string), (.number, .number),
   (.boolean, .boolean), (.bigInt, .bigint), (.esSymbol, .symbol), (.void, .void),
   (.undefined, .undefined), (.null, .null), (.never, .never), (.nonPrimitive, .object)]

/-- The built-in type of a name or, if the name is not known, of flags. -/
def nativeOf (name : Option String) (flags : TypeFlags) : NativeType :=
  let named := (name.map NativeType.ofIntrinsicName).getD .mixed
  if named = .mixed then
    ((nativeFlags.find? fun entry => flags.has entry.1).map Prod.snd).getD .mixed
  else named

/-- The symbol that names an object type, unless it only stands for a literal. -/
def namingSymbol? (checker : Checker) (t : TypeId) : Answer (Option SymbolId) := do
  match ← checker.typeSymbol t with
  | some symbol =>
    if (← checker.symbolFlags symbol).hasAny [.typeLiteral, .objectLiteral] then return none
    else return some symbol
  | none => return none

/-- The shape of an object type; none if its flags say nothing. -/
def ofObject? (checker : Checker) (t : TypeId) : Answer (Option Composite) := do
  let flags ← checker.objectFlags t
  if flags.hasAny ObjectFlag.classOrInterface then return some .named
  else if flags.has .reference then
    if ← checker.isArrayType t then return some .array
    match ← checker.referenceTarget t with
    | some target =>
      if (← checker.objectFlags target).has .tuple then return some .tuple else return some .generic
    | none => return some .generic
  else if flags.hasAny [.anonymous, .mapped] then
    match ← checker.callSignatures t with
    | [signature] => return some (.function signature)
    | _ =>
      match ← namingSymbol? checker t with
      | some symbol => return some (.typeOf symbol)
      | none => return some .object
  else return none

/-- The shape of a type that is neither built in nor an object. -/
def ofFlags (checker : Checker) (t : TypeId) (flags : TypeFlags) : Answer TypeShape := do
  if flags.hasAny [.stringLiteral, .numberLiteral, .booleanLiteral, .bigIntLiteral] then
    return .literal
  if flags.has .union then return .composite .union
  if flags.has .intersection then return .composite .intersection
  if flags.has .conditional then return .composite .conditional
  if flags.has .indexedAccess then return .composite .indexedAccess
  if flags.has .index then return .composite .keyOf
  if flags.has .typeParameter then
    if ← checker.isThisType t then return .this else return .parameter
  if flags.has .uniqueEsSymbol then return .native .uniqueSymbol
  if flags.hasAny [.enumType, .enumLiteral] then
    if let some symbol ← checker.typeSymbol t then return .composite (.typeOf symbol)
  if flags.has .substitution then
    if let some base ← checker.substitutionBase t then return .substitution base
  return .native .mixed

/-- What a type is documented as. -/
def of (checker : Checker) (t : TypeId) : Answer TypeShape := do
  let flags ← checker.typeFlags t
  if flags.hasAny TypeFlag.intrinsic then
    return .native (nativeOf (← checker.intrinsicName t) flags)
  if flags.has .object then
    if let some shape ← ofObject? checker t then return .composite shape
  ofFlags checker t flags

end TypeShape

namespace Environment

variable (env : Environment)

/-- The node of a literal type. -/
def literalNode (t : TypeId) : Answer TypeNode := do
  if (← env.checker.typeFlags t).has .booleanLiteral then
    return .literal (.bool ((← env.checker.intrinsicName t) == some "true"))
  match ← env.checker.literalValue t with
  | some (.text s) => return .literal (.text s)
  | some (.number x) => return .literal (.number x)
  | some (.bigint negative digits) =>
    return .literal (.bigint (if negative then "-" ++ digits else digits))
  | none => return .mixed

/-- The name of a type parameter. -/
def typeParameterName (t : TypeId) : Answer String := do
  match ← env.checker.typeSymbol t with
  | some symbol => env.checker.symbolName symbol
  | none => return (← env.checker.intrinsicName t).getD ""

/-- The type of a symbol at its own declaration; `mixed` if it has none. -/
def symbolType (inner : Resolver) (symbol : SymbolId) : Resolve TypeRef := do
  match ← env.mainDeclaration? symbol with
  | some decl => inner.type (← env.checker.typeOfSymbolAtLocation symbol decl)
  | none => Resolve.newType .mixed

/-- A type parameter, recorded as declared by `owner`. -/
def typeParameter (inner : Resolver) (summaries : NamedTexts) (owner : Option MemberRef)
    (t : TypeId) : Resolve TypeParameter := do
  owner.forM (Resolve.recordOwner t)
  let name ← env.typeParameterName t
  let type ← inner.type t
  let constraint ← (← env.checker.constraintOf t).mapM inner.type
  let default ← (← env.checker.defaultOf t).mapM inner.type
  return { name, type, constraint, default, summary := (summaries.get? name).getD "" }

/-- Type parameters in order. -/
def typeParameters (inner : Resolver) (summaries : NamedTexts) (owner : Option MemberRef)
    (ts : List TypeId) : Resolve (List TypeParameter) :=
  ts.mapM (env.typeParameter inner summaries owner)

/-- A parameter. -/
def parameter (inner : Resolver) (facts : TagFacts) (symbol : SymbolId) : Resolve Parameter := do
  let name ← env.checker.symbolName symbol
  let type ← env.symbolType inner symbol
  let plain : Parameter := { name, type, summary := (facts.params.get? name).getD "" }
  match ← env.mainDeclaration? symbol with
  | some decl =>
    let withRest := if ← env.checker.hasDotDotDot decl then plain.asRest else plain
    let marked := if ← env.checker.hasQuestionToken decl then withRest.asOptional else withRest
    match ← env.checker.initializerText decl with
    | some text => return marked.withDefault text
    | none => return marked
  | none => return plain

/-- A signature, of a method or of a function type. -/
def signature (inner : Resolver) (sig : SignatureId) (facts : TagFacts)
    (owner : Option MemberRef) : Resolve Signature := do
  let typeParameters ← env.typeParameters inner facts.typeParams owner
    (← env.checker.signatureTypeParameters sig)
  let parameters ← (← env.checker.signatureParameters sig).mapM (env.parameter inner facts)
  let thisType ← (← env.checker.signatureThisParameter sig).mapM (env.symbolType inner)
  let returnType ← inner.type (← env.checker.returnType sig)
  return { typeParameters, parameters, returnType, thisType }

/-- The generic type behind one with arguments; `mixed` if there is none other than it. -/
def targetType (inner : Resolver) (t : TypeId) : Option TypeId → Resolve TypeRef
  | some target => if target = t then Resolve.newType .mixed else inner.type target
  | none => Resolve.newType .mixed

/-- The node of a type with parts. -/
def compositeNode (inner : Resolver) (t : TypeId) : Composite → Resolve TypeNode
  | .named => do
    match ← env.checker.typeSymbol t with
    | some symbol => return .named (← inner.member symbol)
    | none => return .named none
  | .array => return .array (← inner.type (← env.checker.elementTypeOfArray t))
  | .tuple => return .tuple (← inner.types (← env.checker.typeArguments t))
  | .generic => do
    let target ← targetType inner t (← env.checker.referenceTarget t)
    return .generic target (← inner.types (← env.checker.typeArguments t))
  | .function sig => return .function (← env.signature inner sig {} none)
  | .typeOf symbol => return .typeOf (← inner.member symbol)
  | .object => return .object (← inner.members (← env.checker.propertiesOfType t))
  | .union => return .union (← inner.types (← env.checker.operandTypes t))
  | .intersection => return .intersection (← inner.types (← env.checker.operandTypes t))
  | .conditional => do
    match ← env.checker.conditionalRoot t with
    | some root =>
      return .conditional (← inner.type root.check) (← inner.type root.bound)
        (← inner.type root.whenTrue) (← inner.type root.whenFalse)
    | none => return .mixed
  | .indexedAccess => do
    match ← env.checker.indexedAccessParts t with
    | some (operand, argument) =>
      return .indexedAccess (← inner.type operand) (← inner.type argument)
    | none => return .mixed
  | .keyOf => do
    match ← env.checker.indexOperand t with
    | some operand => return .unary .keyOf (← inner.type operand)
    | none => return .mixed

/-- The node of a type that was not met before. -/
def newTypeNode (inner : Resolver) (t : TypeId) : Resolve TypeRef := do
  match ← TypeShape.of env.checker t with
  | .native type => Resolve.reserveType t (.native type)
  | .literal => do Resolve.reserveType t (← env.literalNode t)
  | .this => Resolve.reserveType t .this
  | .parameter =>
    let name ← env.typeParameterName t
    Resolve.reserveType t (.parameter name ((← get).ownerOf? t))
  | .substitution base =>
    let r ← inner.type base
    Resolve.rememberType t r
    return r
  | .composite shape =>
    let r ← Resolve.reserveType t .mixed
    Resolve.setType r (← env.compositeNode inner t shape)
    return r

/-- The node of a type. -/
def resolveTypeWith (inner : Resolver) (t : TypeId) : Resolve TypeRef := do
  match (← get).typeOf? t with
  | some r => return r
  | none => env.newTypeNode inner t

end Environment

end ApiDoc
