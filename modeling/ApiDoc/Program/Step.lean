import ApiDoc.Program.Builder

/-!
# Building steps

A `BuildStep` is one request to add something to a program, as data.  Running it gives the handle of
what was added.
-/

namespace ApiDoc

/-- One request to a program under construction. -/
inductive BuildStep where
  | addModule (name : String)
  | addScript (name : String)
  | fileComment (file : FileId) (text : String)
  | setModuleName (file : FileId) (name : String)
  | importModule (file : FileId) (name resolved : String) (isExternal : Bool)
  | referencePath (file : FileId) (path : String)
  | intrinsic (name : String)
  | literal (value : LiteralData)
  | booleanLiteral (value : Bool)
  | union (operands : List TypeId)
  | intersection (operands : List TypeId)
  | array (element : TypeId)
  | tuple (elements : List TypeId)
  | typeReference (target : TypeId) (arguments : List TypeId)
  | keyof (operand : TypeId)
  | indexedAccess (object index : TypeId)
  | conditional (root : ConditionalRoot)
  | substitution (base : TypeId)
  | typeParameter (name : String)
  | constrain (parameter constraint : TypeId)
  | defaultType (parameter default : TypeId)
  | thisType
  | uniqueSymbol
  | templateLiteral
  | typeofSymbol (symbol : SymbolId)
  | objectType
  | typeProperty (file : FileId) (object : TypeId) (doc name : String) (type : TypeId)
  | functionType (signature : SignatureId)
  | signature (file : FileId) (spec : SignatureSpec)
  | setReturnType (signature : SignatureId) (type : TypeId)
  | declaredType (symbol : SymbolId)
  | addVariable (scope : Scope) (doc keyword name : String) (type : TypeId)
      (initializer : Option String)
  | destructuredConst (scope : Scope) (doc : String) (bindings : List (String × TypeId))
      (initializer : String)
  | function (scope : Scope) (name : String) (declarations : List (String × SignatureSpec × Bool))
  | addClass (scope : Scope) (doc name : String)
  | interface (scope : Scope) (doc name : String)
  | extend (symbol : SymbolId) (base : TypeId)
  | implement (symbol : SymbolId) (type : TypeId)
  | setTypeParameters (symbol : SymbolId) (params : List TypeId)
  | property (owner : SymbolId) (doc name : String) (type : TypeId)
  | optionalProperty (owner : SymbolId) (doc name : String) (type : TypeId)
  | staticProperty (owner : SymbolId) (doc name : String) (type : TypeId)
  | method (owner : SymbolId) (name : String) (declarations : List (String × SignatureSpec))
  | addConstructor (owner : SymbolId) (doc : String) (spec : SignatureSpec)
  | indexSignature (owner : SymbolId) (doc : String) (key : ParamSpec) (type : TypeId)
  | constructSignature (owner : SymbolId) (doc : String) (spec : SignatureSpec)
  | callSignature (owner : SymbolId) (doc : String) (spec : SignatureSpec)
  | accessor (owner : SymbolId) (name : String) (type : TypeId) (getterDoc : String)
      (setterDoc : Option String)
  | setModifiers (symbol : SymbolId) (modifiers : ModifierFlags)
  | enumeration (scope : Scope) (doc name : String) (isConst : Bool)
  | enumMember (owner : SymbolId) (doc name : String) (initializer : Option String)
  | setConstantValue (member : SymbolId) (value : ConstantValue)
  | addNamespace (scope : Scope) (doc name : String)
  | mergeNamespace (symbol : SymbolId) (doc : String)
  | typeAlias (scope : Scope) (doc name : String) (type : TypeId)
  | bareSymbol (scope : Scope) (name : String) (flags : SymbolFlags)
  | failDeclarations (symbol : SymbolId)
  | failFile (file : FileId)

/-- What a step added. -/
inductive Added where
  /-- Nothing with a handle. -/
  | nothing
  /-- A file. -/
  | file (file : FileId)
  /-- A symbol. -/
  | symbol (symbol : SymbolId)
  /-- Several symbols. -/
  | symbols (symbols : List SymbolId)
  /-- A type. -/
  | type (type : TypeId)
  /-- A signature. -/
  | signature (signature : SignatureId)
  deriving DecidableEq, Repr, Inhabited

namespace Added

/-- The file that was added, if it was one. -/
def file? : Added → Option FileId
  | file f => some f
  | _ => none

/-- The symbol that was added, if it was one. -/
def symbol? : Added → Option SymbolId
  | symbol s => some s
  | _ => none

/-- The symbols that were added at once. -/
def symbols? : Added → Option (List SymbolId)
  | symbols ss => some ss
  | _ => none

/-- The type that was added, if it was one. -/
def type? : Added → Option TypeId
  | type t => some t
  | _ => none

/-- The signature that was added, if it was one. -/
def signature? : Added → Option SignatureId
  | signature s => some s
  | _ => none

end Added

namespace BuildStep

open Build in
/-- Takes a step. -/
def run : BuildStep → Build Added
  | addModule name => return .file (← addFile name true)
  | addScript name => return .file (← addFile name false)
  | fileComment file text => do Build.fileComment file text; return .nothing
  | setModuleName file name => do
    modifyFile file fun f => { f with moduleName := some name }
    return .nothing
  | importModule file name resolvedFileName isExternal => do
    modifyFile file fun f => { f with
      resolvedModules := f.resolvedModules ++ [{ name, resolvedFileName, isExternal }] }
    return .nothing
  | referencePath file path => do
    modifyFile file fun f => { f with referencedFiles := f.referencedFiles ++ [path] }
    return .nothing
  | intrinsic name => return .type (← Build.intrinsic name)
  | literal value => return .type (← literalType value)
  | booleanLiteral value => return .type (← Build.booleanLiteral value)
  | union operands => return .type (← addType { flags := .of [.union], operands })
  | intersection operands => return .type (← addType { flags := .of [.intersection], operands })
  | array element =>
    return .type (← addType {
      flags := .of [.object], objectFlags := .of [.reference], arguments := [element],
      element := some element })
  | tuple elements => return .type (← Build.tuple elements)
  | typeReference target arguments => return .type (← Build.typeReference target arguments)
  | keyof operand =>
    return .type (← addType { flags := .of [.index], indexOperand := some operand })
  | indexedAccess object index =>
    return .type (← addType { flags := .of [.indexedAccess], indexedAccess := some (object, index) })
  | conditional root =>
    return .type (← addType { flags := .of [.conditional], conditional := some root })
  | substitution base =>
    return .type (← addType { flags := .of [.substitution], substitutionBase := some base })
  | typeParameter name => return .type (← Build.typeParameter name false)
  | constrain parameter constraint => do
    modifyType parameter fun t => { t with constraint := some constraint }
    return .nothing
  | defaultType parameter default => do
    modifyType parameter fun t => { t with default := some default }
    return .nothing
  | thisType => return .type (← Build.typeParameter "this" true)
  | uniqueSymbol => return .type (← addType { flags := .of [.uniqueEsSymbol] })
  | templateLiteral => return .type (← addType { flags := .of [.templateLiteral] })
  | typeofSymbol symbol =>
    return .type (← addType {
      flags := .of [.object], objectFlags := .of [.anonymous], symbol := some symbol })
  | objectType => return .type (← anonymousType [])
  | typeProperty file object doc name type =>
    return .symbol (← Build.typeProperty file object doc name type)
  | functionType sig => return .type (← anonymousType [sig])
  | signature file spec => return .signature (← Build.signature file spec)
  | setReturnType sig type => do
    modifySignature sig fun s => { s with returnType := type }
    return .nothing
  | declaredType symbol => do
    match ← Build.declaredType symbol with
    | some type => return .type type
    | none => return .nothing
  | addVariable scope doc keyword name type initializer =>
    return .symbol (← Build.addVariable scope doc keyword name type initializer)
  | destructuredConst scope doc bindings initializer =>
    return .symbols (← Build.destructuredConst scope doc bindings initializer)
  | function scope name declarations =>
    return .symbol (← overloadedFunction scope name declarations)
  | addClass scope doc name => return .symbol (← Build.addClass scope doc name)
  | interface scope doc name => return .symbol (← classLike scope doc name false)
  | extend symbol base => do Build.extend symbol base; return .nothing
  | implement symbol type => do Build.implement symbol type; return .nothing
  | setTypeParameters symbol params => do
    modifySymbol symbol fun s => { s with typeParameters := params }
    return .nothing
  | property owner doc name type => return .symbol (← Build.property owner doc name type)
  | optionalProperty owner doc name type =>
    return .symbol (← Build.optionalProperty owner doc name type)
  | staticProperty owner doc name type =>
    return .symbol (← Build.staticProperty owner doc name type)
  | method owner name declarations => return .symbol (← overloadedMethod owner name declarations)
  | addConstructor owner doc spec => return .symbol (← Build.addConstructor owner doc spec)
  | indexSignature owner doc key type =>
    return .symbol (← Build.indexSignature owner doc key type)
  | constructSignature owner doc spec => return .symbol (← Build.constructSignature owner doc spec)
  | callSignature owner doc spec => return .symbol (← Build.callSignature owner doc spec)
  | accessor owner name type getterDoc setterDoc =>
    return .symbol (← Build.accessor owner name type getterDoc setterDoc)
  | setModifiers symbol modifiers => do Build.setModifiers symbol modifiers; return .nothing
  | enumeration scope doc name isConst =>
    return .symbol (← Build.enumeration scope doc name isConst)
  | enumMember owner doc name initializer =>
    return .symbol (← Build.enumMember owner doc name initializer)
  | setConstantValue member value => do Build.setConstantValue member value; return .nothing
  | addNamespace scope doc name => return .symbol (← Build.addNamespace scope doc name)
  | mergeNamespace symbol doc => do Build.mergeNamespace symbol doc; return .nothing
  | typeAlias scope doc name type => return .symbol (← Build.typeAlias scope doc name type)
  | bareSymbol scope name flags => return .symbol (← Build.bareSymbol scope name flags)
  | failDeclarations symbol => do Build.failDeclarations symbol; return .nothing
  | failFile file => do Build.failFile file; return .nothing

/-- Takes steps one after the other, and lists what each added. -/
def runAll (steps : List BuildStep) : Build (List Added) := steps.mapM run

end BuildStep

/-- The program that steps build from nothing. -/
def Program.build (steps : List BuildStep) : Except Error Program :=
  return ((← (BuildStep.runAll steps).run {}).2).program

end ApiDoc
