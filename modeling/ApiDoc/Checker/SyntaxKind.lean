/-!
# Kinds of syntax nodes

The kinds of declarations and of the nodes around them that documentation tells apart.
-/

namespace ApiDoc

/-- The kind of a syntax node. -/
inductive SyntaxKind where
  | sourceFile | variableStatement | variableDeclarationList | variableDeclaration
  | objectBindingPattern | arrayBindingPattern | bindingElement | parameter | typeParameter
  | functionDeclaration | methodDeclaration | methodSignature | constructor | callSignature
  | constructSignature | indexSignature | propertyDeclaration | propertySignature | getAccessor
  | setAccessor | classDeclaration | interfaceDeclaration | enumDeclaration | enumMember
  | moduleDeclaration | typeAliasDeclaration | typeLiteral | functionType
  | expressionWithTypeArguments | other
  deriving DecidableEq, Repr, Inhabited

namespace SyntaxKind

/-- The name of a kind. -/
def name : SyntaxKind → String
  | .sourceFile => "SourceFile"
  | .variableStatement => "VariableStatement"
  | .variableDeclarationList => "VariableDeclarationList"
  | .variableDeclaration => "VariableDeclaration"
  | .objectBindingPattern => "ObjectBindingPattern"
  | .arrayBindingPattern => "ArrayBindingPattern"
  | .bindingElement => "BindingElement"
  | .parameter => "Parameter"
  | .typeParameter => "TypeParameter"
  | .functionDeclaration => "FunctionDeclaration"
  | .methodDeclaration => "MethodDeclaration"
  | .methodSignature => "MethodSignature"
  | .constructor => "Constructor"
  | .callSignature => "CallSignature"
  | .constructSignature => "ConstructSignature"
  | .indexSignature => "IndexSignature"
  | .propertyDeclaration => "PropertyDeclaration"
  | .propertySignature => "PropertySignature"
  | .getAccessor => "GetAccessor"
  | .setAccessor => "SetAccessor"
  | .classDeclaration => "ClassDeclaration"
  | .interfaceDeclaration => "InterfaceDeclaration"
  | .enumDeclaration => "EnumDeclaration"
  | .enumMember => "EnumMember"
  | .moduleDeclaration => "ModuleDeclaration"
  | .typeAliasDeclaration => "TypeAliasDeclaration"
  | .typeLiteral => "TypeLiteral"
  | .functionType => "FunctionType"
  | .expressionWithTypeArguments => "ExpressionWithTypeArguments"
  | .other => "Other"

/-- Every kind. -/
def all : List SyntaxKind :=
  [.sourceFile, .variableStatement, .variableDeclarationList, .variableDeclaration,
   .objectBindingPattern, .arrayBindingPattern, .bindingElement, .parameter, .typeParameter,
   .functionDeclaration, .methodDeclaration, .methodSignature, .constructor, .callSignature,
   .constructSignature, .indexSignature, .propertyDeclaration, .propertySignature, .getAccessor,
   .setAccessor, .classDeclaration, .interfaceDeclaration, .enumDeclaration, .enumMember,
   .moduleDeclaration, .typeAliasDeclaration, .typeLiteral, .functionType,
   .expressionWithTypeArguments, .other]

/-- The kind of a name. -/
def ofName? (n : String) : Option SyntaxKind := all.find? fun kind => kind.name = n

/-- A node of a destructuring pattern, passed over on the way to the declaration it belongs to. -/
def isBindingPattern (kind : SyntaxKind) : Bool :=
  [.bindingElement, .objectBindingPattern, .arrayBindingPattern].contains kind

/-- A declaration of a container that other declarations of the same name merge with. -/
def isContainer (kind : SyntaxKind) : Bool :=
  [.moduleDeclaration, .interfaceDeclaration, .classDeclaration, .enumDeclaration].contains kind

@[simp]
theorem ofName?_name (kind : SyntaxKind) : ofName? kind.name = some kind := by
  cases kind <;> rfl

end SyntaxKind

end ApiDoc
