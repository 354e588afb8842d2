import ApiDoc.Model.EnumValue
import ApiDoc.Program.Tables

/-!
# Building programs

A program is built declaration by declaration.  Each declaration is also written into the text of
its file, its comment before it, so that comments and places are found as in a file that was parsed.
Handles are numbers in the order of creation.
-/

namespace ApiDoc

/-- A program under construction. -/
structure Builder where
  /-- The program so far. -/
  program : Program := {}
  /-- The built-in types already made, by keyword. -/
  intrinsics : List (String × TypeId) := []
  /-- Where the numbering of each enum stands. -/
  numberings : List (SymbolId × Numbering) := []
  deriving Inhabited

/-- A step of building a program. -/
abbrev Build := StateT Builder (Except Error)

/-- Where a declaration is added. -/
inductive Scope where
  /-- At the top of a file. -/
  | file (file : FileId)
  /-- Among what a namespace, enum or class exports. -/
  | exportsOf (owner : SymbolId)
  /-- Among the members of a class's or interface's instances. -/
  | membersOf (owner : SymbolId)
  deriving DecidableEq, Repr

/-- A parameter to declare. -/
structure ParamSpec where
  /-- Its name. -/
  name : String
  /-- Its type. -/
  type : TypeId
  /-- Whether it is marked as optional. -/
  optional : Bool := false
  /-- Whether it takes the rest of the arguments. -/
  rest : Bool := false
  /-- The text of its default. -/
  default : Option String := none

/-- A signature to declare. -/
structure SignatureSpec where
  /-- Its type parameters. -/
  typeParameters : List TypeId := []
  /-- Its parameters. -/
  params : List ParamSpec := []
  /-- The type of its receiver. -/
  thisType : Option TypeId := none
  /-- The type of what it returns. -/
  returnType : TypeId
  /-- Whether it is asynchronous. -/
  isAsync : Bool := false
  /-- Whether it is a generator. -/
  isGenerator : Bool := false

/-- A parameter as it is written. -/
def ParamSpec.code (p : ParamSpec) : String :=
  (if p.rest then "..." else "") ++ p.name ++ (if p.optional then "?" else "") ++
    (match p.default with
     | some text => " = " ++ text
     | none => "")

/-- The parameters of a signature as they are written. -/
def SignatureSpec.code (s : SignatureSpec) : String :=
  "(" ++ String.intercalate ", " (s.params.map ParamSpec.code) ++ ")"

namespace Build

/-! ### Tables -/

/-- The program so far. -/
def program : Build Program := return (← get).program

/-- Changes the program. -/
def modifyProgram (f : Program → Program) : Build Unit :=
  modify fun b => { b with program := f b.program }

/-- Changes the data of a file. -/
def modifyFile (f : FileId) (change : FileData → FileData) : Build Unit := do
  let _ ← (← program).file f
  modifyProgram fun p => { p with files := p.files.modify f.index change }

/-- Changes the data of a symbol. -/
def modifySymbol (s : SymbolId) (change : SymbolData → SymbolData) : Build Unit := do
  let _ ← (← program).symbol s
  modifyProgram fun p => { p with symbols := p.symbols.modify s.index change }

/-- Changes the data of a type. -/
def modifyType (t : TypeId) (change : TypeData → TypeData) : Build Unit := do
  let _ ← (← program).type t
  modifyProgram fun p => { p with types := p.types.modify t.index change }

/-- Changes the data of a signature. -/
def modifySignature (s : SignatureId) (change : SignatureData → SignatureData) : Build Unit := do
  let _ ← (← program).signature s
  modifyProgram fun p => { p with signatures := p.signatures.modify s.index change }

/-- Changes the data of a node. -/
def modifyNode (n : NodeId) (change : NodeData → NodeData) : Build Unit := do
  let _ ← (← program).node n
  modifyProgram fun p => { p with nodes := p.nodes.modify n.index change }

/-- A new symbol. -/
def addSymbol (name : String) (flags : List SymbolFlag) : Build SymbolId := do
  let s := SymbolId.mk (← program).symbols.size
  modifyProgram fun p => { p with symbols := p.symbols.push { name, flags := .of flags } }
  return s

/-- A new type. -/
def addType (data : TypeData) : Build TypeId := do
  let t := TypeId.mk (← program).types.size
  modifyProgram fun p => { p with types := p.types.push data }
  return t

/-- A new signature. -/
def addSignature (data : SignatureData) : Build SignatureId := do
  let s := SignatureId.mk (← program).signatures.size
  modifyProgram fun p => { p with signatures := p.signatures.push data }
  return s

/-- A new node. -/
def addNode (data : NodeData) : Build NodeId := do
  let n := NodeId.mk (← program).nodes.size
  modifyProgram fun p => { p with nodes := p.nodes.push data }
  return n

/-! ### Text and places -/

/-- Writes a comment and code on lines of their own at the end of a file; the span is that of the
code, with the comment before it. -/
def pushText (file : FileId) (doc code : String) : Build Span := do
  let text := (← (← program).file file).text
  let comment := if doc.isEmpty then "" else doc ++ "\n"
  let pos := text.utf8ByteSize
  let start := pos + comment.utf8ByteSize
  modifyFile file fun data => { data with text := text ++ comment ++ code ++ "\n" }
  return ⟨pos, start, start + code.utf8ByteSize⟩

/-- The kinds of declarations that declare no value. -/
def valueless : List SyntaxKind :=
  [.interfaceDeclaration, .typeAliasDeclaration, .moduleDeclaration, .sourceFile]

/-- Makes a node a declaration of a symbol, and the one of its value if it is the first that can
be. -/
def declare (symbol : SymbolId) (node : NodeId) : Build Unit := do
  let kind := (← (← program).node node).kind
  modifyNode node fun data => { data with symbol := some symbol }
  let isValue := !valueless.contains kind
  modifySymbol symbol fun data => { data with
    declarations := data.declarations ++ [node]
    valueDeclaration :=
      if isValue then data.valueDeclaration.or (some node) else data.valueDeclaration }

/-- Lists a symbol in a scope. -/
def attach (scope : Scope) (symbol : SymbolId) : Build Unit := do
  match scope with
  | .file file =>
    let data ← (← program).file file
    modifyFile file fun data => { data with locals := data.locals ++ [symbol] }
    if data.isModule then
      modifySymbol data.symbol fun owner => { owner with exportsOf := owner.exportsOf ++ [symbol] }
    modifySymbol symbol fun s => { s with parent := some data.symbol }
  | .exportsOf owner =>
    modifySymbol owner fun data => { data with exportsOf := data.exportsOf ++ [symbol] }
    modifySymbol symbol fun s => { s with parent := some owner }
  | .membersOf owner =>
    modifySymbol owner fun data => { data with membersOf := data.membersOf ++ [symbol] }
    modifySymbol symbol fun s => { s with parent := some owner }

/-- The file of a symbol's first declaration, the first file if it has none. -/
def fileOf (symbol : SymbolId) : Build FileId := do
  match (← (← program).symbol symbol).declarations with
  | node :: _ => return (← (← program).node node).file
  | [] => return ⟨0⟩

/-- The file in which a scope's declarations are written. -/
def scopeFile : Scope → Build FileId
  | .file file => return file
  | .exportsOf owner | .membersOf owner => fileOf owner

/-- The node around a scope's declarations. -/
def scopeNode : Scope → Build (Option NodeId)
  | .file file => return some (← (← program).file file).node
  | .exportsOf owner | .membersOf owner =>
    return (← (← program).symbol owner).declarations.head?

/-- Whether a symbol is an interface and no class. -/
def isInterface (symbol : SymbolId) : Build Bool := do
  let flags := (← (← program).symbol symbol).flags
  return flags.has .interfaceSymbol && !flags.has .classSymbol

/-- Where a declaration is written. -/
structure Place where
  /-- The file. -/
  file : FileId
  /-- The node around it. -/
  parent : Option NodeId

/-- Where the declarations of a scope are written; its owner has to exist by then. -/
def placeOf (scope : Scope) : Build Place := do
  let file ← scopeFile scope
  let parent ← scopeNode scope
  return { file, parent }

/-- A declaration written at a place, with its comment. -/
def writeDeclaration (place : Place) (kind : SyntaxKind) (doc code : String)
    (name : Option String) : Build NodeId := do
  let span ← pushText place.file doc code
  addNode { kind, file := place.file, span, parent := place.parent, name }

/-! ### Files -/

/-- The text before the last dot, or all of it. -/
def stem (name : String) : String :=
  let cs := name.toList
  if cs.contains '.' then
    String.ofList ((cs.reverse.dropWhile (· != '.')).drop 1).reverse
  else name

/-- A new file, a module or a script. -/
def addFile (name : String) (isModule : Bool) : Build FileId := do
  let file := FileId.mk (← program).files.size
  let symbol ← addSymbol ("\"" ++ stem name ++ "\"") [.valueModule]
  let node ← addNode { kind := .sourceFile, file }
  declare symbol node
  let data : FileData := { name, declaration := name.endsWith ".d.ts", isModule, node, symbol }
  modifyProgram fun p => { p with files := p.files.push data }
  return file

/-- Writes a comment at the end of a file. -/
def fileComment (file : FileId) (comment : String) : Build Unit :=
  modifyFile file fun data => { data with text := data.text ++ comment ++ "\n" }

/-! ### Types -/

/-- The flags of a built-in type. -/
def intrinsicFlags (name : String) : List TypeFlag :=
  match ([("any", .any), ("unknown", .unknown), ("string", .string), ("number", .number),
    ("boolean", .boolean), ("bigint", .bigInt), ("symbol", .esSymbol), ("void", .void),
    ("undefined", .undefined), ("null", .null), ("never", .never),
    ("object", .nonPrimitive)] : List (String × TypeFlag)).lookup name with
  | some flag => [flag]
  | none => []

/-- The built-in type of a keyword, the same each time. -/
def intrinsic (name : String) : Build TypeId := do
  match (← get).intrinsics.lookup name with
  | some t => return t
  | none =>
    let t ← addType { flags := .of (intrinsicFlags name), intrinsicName := some name }
    modify fun b => { b with intrinsics := (name, t) :: b.intrinsics }
    return t

/-- The type of a literal. -/
def literalType (value : LiteralData) : Build TypeId :=
  addType {
    flags := .of <| match value with
      | .text _ => [.stringLiteral]
      | .number _ => [.numberLiteral]
      | .bigint .. => [.bigIntLiteral]
    literal := some value }

/-- The type of a truth value. -/
def booleanLiteral (value : Bool) : Build TypeId :=
  addType { flags := .of [.booleanLiteral], intrinsicName := some (if value then "true" else "false") }

/-- A tuple type, with the generic type behind it. -/
def tuple (elements : List TypeId) : Build TypeId := do
  let target ← addType { flags := .of [.object], objectFlags := .of [.tuple] }
  addType {
    flags := .of [.object], objectFlags := .of [.reference], target := some target,
    arguments := elements }

/-- A generic type with arguments. -/
def typeReference (target : TypeId) (arguments : List TypeId) : Build TypeId := do
  let symbol := (← (← program).type target).symbol
  addType {
    flags := .of [.object], objectFlags := .of [.reference], symbol, target := some target,
    arguments }

/-- A type parameter, or the type of the receiver. -/
def typeParameter (name : String) (isThis : Bool) : Build TypeId := do
  let symbol ← addSymbol name [.typeParameter]
  addType { flags := .of [.typeParameter], symbol := some symbol, isThis }

/-- An object type without a name, with the given call signatures. -/
def anonymousType (callSignatures : List SignatureId) : Build TypeId := do
  let symbol ← addSymbol "__type" [.typeLiteral]
  addType {
    flags := .of [.object], objectFlags := .of [.anonymous], symbol := some symbol,
    callSignatures }

/-- A property of an object type without a name. -/
def typeProperty (file : FileId) (object : TypeId) (doc name : String) (type : TypeId) :
    Build SymbolId := do
  let span ← pushText file doc (name ++ ": T;")
  let node ← addNode { kind := .propertySignature, file, span, name := some name }
  let symbol ← addSymbol name [.property]
  let parent := (← (← program).type object).symbol
  modifySymbol symbol fun s => { s with type := some type, parent }
  declare symbol node
  modifyType object fun t => { t with properties := t.properties ++ [symbol] }
  return symbol

/-! ### Signatures -/

/-- A parameter, declared in a file without a place of its own. -/
def addParameter (file : FileId) (p : ParamSpec) : Build SymbolId := do
  let node ← addNode {
    kind := .parameter, file, name := some p.name, question := p.optional, dotDotDot := p.rest,
    initializer := p.default }
  let symbol ← addSymbol p.name [.functionScopedVariable]
  modifySymbol symbol fun s => { s with type := some p.type }
  declare symbol node
  return symbol

/-- The receiver of a signature. -/
def addReceiver (file : FileId) (type : TypeId) : Build SymbolId := do
  let node ← addNode { kind := .parameter, file }
  let symbol ← addSymbol "this" [.functionScopedVariable]
  modifySymbol symbol fun s => { s with type := some type }
  declare symbol node
  return symbol

/-- A signature on its own. -/
def signature (file : FileId) (spec : SignatureSpec) : Build SignatureId := do
  let parameters ← spec.params.mapM (addParameter file)
  let thisParameter ← spec.thisType.mapM (addReceiver file)
  addSignature {
    typeParameters := spec.typeParameters, parameters, thisParameter,
    returnType := spec.returnType }

/-- A declaration with a signature. -/
def signatureDeclaration (place : Place) (kind : SyntaxKind) (doc code : String)
    (spec : SignatureSpec) (hasBody : Bool) (name : Option String) : Build NodeId := do
  let node ← writeDeclaration place kind doc code name
  let sig ← signature place.file spec
  modifySignature sig fun data => { data with declaration := some node }
  for param in (← (← program).signature sig).parameters do
    if let some decl := (← (← program).symbol param).valueDeclaration then
      modifyNode decl fun data => { data with parent := some node }
  modifyNode node fun data => { data with
    signature := some sig
    hasBody
    asterisk := spec.isGenerator
    modifiers := if spec.isAsync then data.modifiers.add .async else data.modifiers }
  return node

/-! ### Variables -/

/-- The list node of a variable statement, the offset of what it declares, and its end. -/
def variableStatement (scope : Scope) (doc keyword declaration : String) :
    Build (NodeId × Nat × Nat) := do
  let place ← placeOf scope
  let file := place.file
  let span ← pushText file doc (keyword ++ " " ++ declaration ++ ";")
  let statement ← addNode { kind := .variableStatement, file, span, parent := place.parent }
  let flags : List NodeFlag :=
    if keyword = "const" then [.constBinding] else if keyword = "let" then [.letBinding] else []
  let list ← addNode {
    kind := .variableDeclarationList, file, span := ⟨span.start, span.start, span.stop - 1⟩,
    parent := some statement, flags := .of flags }
  return (list, span.start + keyword.utf8ByteSize + 1, span.stop - 1)

/-- A variable. -/
def addVariable (scope : Scope) (doc keyword name : String) (type : TypeId)
    (initializer : Option String) : Build SymbolId := do
  let code := name ++ (match initializer with
    | some text => " = " ++ text
    | none => "")
  let (list, start, stop) ← variableStatement scope doc keyword code
  let file := (← (← program).node list).file
  let node ← addNode {
    kind := .variableDeclaration, file, span := ⟨start, start, stop⟩, parent := some list,
    name := some name, initializer }
  let flag := if keyword = "var" then SymbolFlag.functionScopedVariable else .blockScopedVariable
  let symbol ← addSymbol name [flag]
  modifySymbol symbol fun s => { s with type := some type }
  declare symbol node
  attach scope symbol
  return symbol

/-- The names of a destructuring pattern, the first at the given offset. -/
def bindingElements (scope : Scope) (file : FileId) (pattern : NodeId) :
    Nat → List (String × TypeId) → Build (List SymbolId)
  | _, [] => return []
  | offset, (name, type) :: rest => do
    let stop := offset + name.utf8ByteSize
    let node ← addNode {
      kind := .bindingElement, file, span := ⟨offset, offset, stop⟩, parent := some pattern,
      name := some name }
    let symbol ← addSymbol name [.blockScopedVariable]
    modifySymbol symbol fun s => { s with type := some type }
    declare symbol node
    attach scope symbol
    return symbol :: (← bindingElements scope file pattern (stop + 2) rest)

/-- Constants taken apart from one value. -/
def destructuredConst (scope : Scope) (doc : String) (bindings : List (String × TypeId))
    (initializer : String) : Build (List SymbolId) := do
  let names := String.intercalate ", " (bindings.map Prod.fst)
  let (list, start, stop) ←
    variableStatement scope doc "const" ("\x7b " ++ names ++ " \x7d = " ++ initializer)
  let file := (← (← program).node list).file
  let span : Span := ⟨start, start, stop⟩
  let declaration ← addNode {
    kind := .variableDeclaration, file, span, parent := some list,
    initializer := some initializer }
  let pattern ← addNode { kind := .objectBindingPattern, file, span, parent := some declaration }
  bindingElements scope file pattern (start + 2) bindings

/-! ### Functions, classes and their members -/

/-- A function with one or more declarations: comment, signature, and whether there is a body. -/
def overloadedFunction (scope : Scope) (name : String)
    (declarations : List (String × SignatureSpec × Bool)) : Build SymbolId := do
  let place ← placeOf scope
  let symbol ← addSymbol name [.function]
  for (doc, spec, hasBody) in declarations do
    let code := "function " ++ name ++ spec.code ++ (if hasBody then " \x7b\x7d" else ";")
    let node ←
      signatureDeclaration place .functionDeclaration doc code spec hasBody (some name)
    declare symbol node
  attach scope symbol
  return symbol

/-- A class or an interface. -/
def classLike (scope : Scope) (doc name : String) (isClass : Bool) : Build SymbolId := do
  let kind : SyntaxKind := if isClass then .classDeclaration else .interfaceDeclaration
  let keyword := if isClass then "class" else "interface"
  let node ← writeDeclaration (← placeOf scope) kind doc
    (keyword ++ " " ++ name ++ " \x7b\x7d") (some name)
  let symbol ← addSymbol name [if isClass then .classSymbol else .interfaceSymbol]
  let declared ← addType {
    flags := .of [.object], symbol := some symbol,
    objectFlags := .of [if isClass then .classType else .interfaceType] }
  modifySymbol symbol fun s => { s with declaredType := some declared, type := some declared }
  declare symbol node
  attach scope symbol
  return symbol

/-- A class, with the marker of its prototype among what it exports. -/
def addClass (scope : Scope) (doc name : String) : Build SymbolId := do
  let symbol ← classLike scope doc name true
  let prototype ← addSymbol "prototype" [.property, .prototype]
  modifySymbol prototype fun s => { s with parent := some symbol }
  modifySymbol symbol fun s => { s with exportsOf := s.exportsOf ++ [prototype] }
  return symbol

/-- The type that a symbol declares. -/
def declaredType (symbol : SymbolId) : Build (Option TypeId) :=
  return (← (← program).symbol symbol).declaredType

/-- Adds a base to a class or interface. -/
def extend (symbol : SymbolId) (base : TypeId) : Build Unit := do
  if let some declared ← declaredType symbol then
    modifyType declared fun t => { t with baseTypes := t.baseTypes ++ [base] }

/-- Adds what a class implements. -/
def implement (symbol : SymbolId) (type : TypeId) : Build Unit := do
  if let decl :: _ := (← (← program).symbol symbol).declarations then
    let data ← (← program).node decl
    let clause ← addNode {
      kind := .expressionWithTypeArguments, file := data.file, span := data.span,
      parent := some decl, typeAt := some type }
    modifyNode decl fun n => { n with implements := n.implements ++ [clause] }

/-- Adds modifiers to every declaration of a symbol. -/
def setModifiers (symbol : SymbolId) (modifiers : ModifierFlags) : Build Unit := do
  for decl in (← (← program).symbol symbol).declarations do
    modifyNode decl fun n => { n with modifiers := n.modifiers.union modifiers }

/-- A property in a scope. -/
def memberProperty (scope : Scope) (kind : SyntaxKind) (doc name : String) (type : TypeId) :
    Build SymbolId := do
  let node ← writeDeclaration (← placeOf scope) kind doc (name ++ ": T;") (some name)
  let symbol ← addSymbol name [.property]
  modifySymbol symbol fun s => { s with type := some type }
  declare symbol node
  attach scope symbol
  return symbol

/-- A property of a class's or interface's instances. -/
def property (owner : SymbolId) (doc name : String) (type : TypeId) : Build SymbolId := do
  let kind : SyntaxKind :=
    if ← isInterface owner then .propertySignature else .propertyDeclaration
  memberProperty (.membersOf owner) kind doc name type

/-- A property that may be absent. -/
def optionalProperty (owner : SymbolId) (doc name : String) (type : TypeId) : Build SymbolId := do
  let symbol ← property owner doc name type
  modifySymbol symbol fun s => { s with flags := s.flags.add .optional }
  for decl in (← (← program).symbol symbol).declarations do
    modifyNode decl fun n => { n with question := true }
  return symbol

/-- A property of a class itself. -/
def staticProperty (owner : SymbolId) (doc name : String) (type : TypeId) : Build SymbolId := do
  let symbol ← memberProperty (.exportsOf owner) .propertyDeclaration doc name type
  setModifiers symbol (.of [.static])
  return symbol

/-- A method with one or more declarations; on a class the last of them has the body. -/
def overloadedMethod (owner : SymbolId) (name : String)
    (declarations : List (String × SignatureSpec)) : Build SymbolId := do
  let contract ← isInterface owner
  let kind : SyntaxKind := if contract then .methodSignature else .methodDeclaration
  let scope := Scope.membersOf owner
  let place ← placeOf scope
  let symbol ← addSymbol name [.method]
  for ((doc, spec), i) in declarations.zipIdx do
    let hasBody := !contract && i + 1 == declarations.length
    let code := name ++ spec.code ++ (if hasBody then " \x7b\x7d" else ";")
    let node ← signatureDeclaration place kind doc code spec hasBody (some name)
    declare symbol node
  attach scope symbol
  return symbol

/-- A constructor or signature among the members of a class or interface. -/
def signatureMember (owner : SymbolId) (flag : SymbolFlag) (name : String) (kind : SyntaxKind)
    (doc code : String) (spec : SignatureSpec) : Build SymbolId := do
  let hasBody := kind = .constructor && !(← isInterface owner)
  let scope := Scope.membersOf owner
  let node ← signatureDeclaration (← placeOf scope) kind doc code spec hasBody none
  let symbol ← addSymbol name [flag]
  declare symbol node
  attach scope symbol
  return symbol

/-- A constructor. -/
def addConstructor (owner : SymbolId) (doc : String) (spec : SignatureSpec) : Build SymbolId :=
  signatureMember owner .constructor "__constructor" .constructor doc
    ("constructor" ++ spec.code ++ ";") spec

/-- An index signature. -/
def indexSignature (owner : SymbolId) (doc : String) (key : ParamSpec) (type : TypeId) :
    Build SymbolId :=
  signatureMember owner .signature "__index" .indexSignature doc ("[" ++ key.name ++ ": K]: T;")
    { params := [key], returnType := type }

/-- A construct signature. -/
def constructSignature (owner : SymbolId) (doc : String) (spec : SignatureSpec) :
    Build SymbolId :=
  signatureMember owner .signature "__new" .constructSignature doc ("new" ++ spec.code ++ ";") spec

/-- A call signature. -/
def callSignature (owner : SymbolId) (doc : String) (spec : SignatureSpec) : Build SymbolId :=
  signatureMember owner .signature "__call" .callSignature doc (spec.code ++ ";") spec

/-- A getter, with a setter if there is a comment for one. -/
def accessor (owner : SymbolId) (name : String) (type : TypeId) (getterDoc : String)
    (setterDoc : Option String) : Build SymbolId := do
  let scope := Scope.membersOf owner
  let place ← placeOf scope
  let symbol ←
    addSymbol name (if setterDoc.isSome then [.getAccessor, .setAccessor] else [.getAccessor])
  modifySymbol symbol fun s => { s with type := some type }
  let getter ← writeDeclaration place .getAccessor getterDoc ("get " ++ name ++ "() \x7b\x7d")
    (some name)
  declare symbol getter
  if let some doc := setterDoc then
    let setter ← writeDeclaration place .setAccessor doc ("set " ++ name ++ "(value) \x7b\x7d")
      (some name)
    declare symbol setter
  attach scope symbol
  return symbol

/-! ### Enums -/

/-- An enum. -/
def enumeration (scope : Scope) (doc name : String) (isConst : Bool) : Build SymbolId := do
  let keyword := if isConst then "const enum" else "enum"
  let node ← writeDeclaration (← placeOf scope) .enumDeclaration doc
    (keyword ++ " " ++ name ++ " \x7b\x7d") (some name)
  let symbol ← addSymbol name [if isConst then .constEnum else .regularEnum]
  let declared ← addType { flags := .of [.enumType, .union], symbol := some symbol }
  modifySymbol symbol fun s => { s with declaredType := some declared, type := some declared }
  declare symbol node
  attach scope symbol
  return symbol

/-- The type of an enum member: a literal if its value is known. -/
def enumLiteral (member : SymbolId) : Option EnumValue → TypeData
  | some (.number x) =>
    { flags := .of [.enumLiteral, .numberLiteral], symbol := some member, literal := some (.number x) }
  | some (.text s) =>
    { flags := .of [.enumLiteral, .stringLiteral], symbol := some member, literal := some (.text s) }
  | none => { flags := .of [.enumLiteral], symbol := some member }

/-- The value of an enum's next member in its numbering; none if the initialiser has to be
computed, which counts as a text. -/
def numberMember (enumeration : SymbolId) (name : String) (initializer : Option String) :
    Build (Option EnumValue) := do
  let numbering := ((← get).numberings.lookup enumeration).getD {}
  let parsed := initializer.bind EnumValue.parse?
  let computed := initializer.isSome && parsed.isNone
  let explicit := if computed then initializer.map EnumValue.text else parsed
  let (value, next) := numbering.assign name explicit
  modify fun b => { b with numberings := (enumeration, next) :: b.numberings }
  return if computed then none else some value

/-- A member of an enum. -/
def enumMember (enumeration : SymbolId) (doc name : String) (initializer : Option String) :
    Build SymbolId := do
  let code := match initializer with
    | some text => name ++ " = " ++ text ++ ","
    | none => name ++ ","
  let scope := Scope.exportsOf enumeration
  let node ← writeDeclaration (← placeOf scope) .enumMember doc code (some name)
  modifyNode node fun n => { n with initializer }
  let symbol ← addSymbol name [.enumMember]
  let type ← addType (enumLiteral symbol (← numberMember enumeration name initializer))
  modifySymbol symbol fun s => { s with type := some type }
  if let some declared ← declaredType enumeration then
    modifyType declared fun t => { t with operands := t.operands ++ [type] }
  declare symbol node
  attach scope symbol
  return symbol

/-- Sets the value of an enum member as the checker computed it. -/
def setConstantValue (member : SymbolId) (value : ConstantValue) : Build Unit := do
  let data ← (← program).symbol member
  for decl in data.declarations do
    modifyNode decl fun n => { n with constant := some value }
  if let some type := data.type then
    let literal := match value with
      | .number x => EnumValue.number x
      | .text s => .text s
    modifyType type fun _ => enumLiteral member (some literal)

/-! ### Namespaces and aliases -/

/-- A declaration of a namespace. -/
def namespaceDeclaration (scope : Scope) (symbol : SymbolId) (doc : String) : Build Unit := do
  let name := (← (← program).symbol symbol).name
  let node ← writeDeclaration (← placeOf scope) .moduleDeclaration doc
    ("namespace " ++ name ++ " \x7b\x7d") (some name)
  declare symbol node

/-- A namespace. -/
def addNamespace (scope : Scope) (doc name : String) : Build SymbolId := do
  let symbol ← addSymbol name [.valueModule, .namespaceModule]
  namespaceDeclaration scope symbol doc
  attach scope symbol
  return symbol

/-- The scope in which the parts of a symbol are declared: a file for its symbol, otherwise what
the symbol exports. -/
def scopeOf (owner : SymbolId) : Build Scope := do
  match (← program).files.toList.findIdx? (fun file => file.symbol = owner) with
  | some i => return .file ⟨i⟩
  | none => return .exportsOf owner

/-- Merges a namespace into a symbol. -/
def mergeNamespace (symbol : SymbolId) (doc : String) : Build Unit := do
  let scope ← match (← (← program).symbol symbol).parent with
    | some parent => scopeOf parent
    | none => pure (Scope.file (← fileOf symbol))
  modifySymbol symbol fun s => { s with flags := (s.flags.add .valueModule).add .namespaceModule }
  namespaceDeclaration scope symbol doc

/-- An alias of a type. -/
def typeAlias (scope : Scope) (doc name : String) (type : TypeId) : Build SymbolId := do
  let node ← writeDeclaration (← placeOf scope) .typeAliasDeclaration doc
    ("type " ++ name ++ " = T;") (some name)
  let symbol ← addSymbol name [.typeAlias]
  modifySymbol symbol fun s => { s with declaredType := some type }
  declare symbol node
  attach scope symbol
  return symbol

/-- A symbol without declarations. -/
def bareSymbol (scope : Scope) (name : String) (flags : SymbolFlags) : Build SymbolId := do
  let symbol ← addSymbol name []
  modifySymbol symbol fun s => { s with flags }
  attach scope symbol
  return symbol

/-! ### Failures -/

/-- Makes queries about the declarations of a symbol fail. -/
def failDeclarations (symbol : SymbolId) : Build Unit := do
  let decls := (← (← program).symbol symbol).declarations
  modifyProgram fun p => { p with failing := p.failing ++ decls }

/-- Makes the query for the symbol of a file fail. -/
def failFile (file : FileId) : Build Unit := do
  let node := (← (← program).file file).node
  modifyProgram fun p => { p with failing := p.failing ++ [node] }

end Build

end ApiDoc
