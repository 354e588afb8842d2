import ApiDoc.Doc.TagFacts
import ApiDoc.Resolve.Session
import ApiDoc.Text.Position

/-!
# What declarations say

The doc block and the place of a declaration, read from the text of its file.
-/

namespace ApiDoc

/-- A path with forward slashes. -/
def normalizePath (path : String) : String :=
  String.ofList (path.toList.map fun c => if c = '\\' then '/' else c)

namespace Environment

variable (env : Environment)

/-- Whether a declaration without a doc block takes that of the node around it: the parts of a
variable statement do. -/
def sharesBlock (kind : SyntaxKind) : Bool :=
  [SyntaxKind.variableDeclaration, .variableDeclarationList, .bindingElement,
    .objectBindingPattern, .arrayBindingPattern].contains kind

/-- The doc block of a node, or of the nodes around it as far as they share theirs. -/
def blockFrom (text : String) : Nat → NodeId → Answer (Option Comment.Block)
  | 0, _ => .error .tooDeep
  | fuel + 1, node => do
    match ← env.locator.read text (← env.checker.nodeSpan node).pos with
    | some block => return some block
    | none =>
      if sharesBlock (← env.checker.nodeKind node) then
        match ← env.checker.nodeParent node with
        | some parent => blockFrom text fuel parent
        | none => return none
      else return none

/-- What the doc block of a declaration says, over the visibility of its modifiers. -/
def tags (decl : NodeId) : Answer TagFacts := do
  let seed := Visibility.ofModifiers (← env.checker.combinedModifierFlags decl)
  let text ← env.checker.fileText (← env.checker.nodeFile decl)
  return TagFacts.ofBlock (← env.blockFrom text (env.checker.nodeCount + 1) decl) seed

/-- What the doc block of a declaration says, if there is a declaration. -/
def tags? : Option NodeId → Answer TagFacts
  | some decl => env.tags decl
  | none => return {}

/-- The place of a declaration. -/
def location (decl : NodeId) : Answer Location := do
  let file ← env.checker.nodeFile decl
  let span ← env.checker.nodeSpan decl
  let text := (← env.checker.fileText file).toList
  let (line, col) := Text.lineCol text span.start
  let (endLine, endCol) := Text.lineCol text span.stop
  return { file := normalizePath (← env.checker.fileName file), line, col, endLine, endCol }

/-- The declaration of a symbol's value, or else its first. -/
def mainDeclaration? (symbol : SymbolId) : Answer (Option NodeId) := do
  match ← env.checker.valueDeclaration symbol with
  | some decl => return some decl
  | none => return (← env.checker.declarations symbol).head?

/-- The first of some declarations that is of a kind. -/
def firstOfKind? (kind : SyntaxKind) : List NodeId → Answer (Option NodeId)
  | [] => return none
  | decl :: rest => do
    if (← env.checker.nodeKind decl) = kind then return some decl else firstOfKind? kind rest

/-- The first of some declarations that is of the first kind there is one of, or else the first. -/
def preferredOf? (decls : List NodeId) : List SyntaxKind → Answer (Option NodeId)
  | [] => return decls.head?
  | kind :: rest => do
    match ← env.firstOfKind? kind decls with
    | some decl => return some decl
    | none => preferredOf? decls rest

/-- The declaration of a symbol that is of the first kind there is one of, or else its first. -/
def preferredDeclaration? (symbol : SymbolId) (kinds : List SyntaxKind) :
    Answer (Option NodeId) := do
  env.preferredOf? (← env.checker.declarations symbol) kinds

/-- A member with what all members share: the name, what the declaration says and what its tags
say. -/
def commonMember (symbol : SymbolId) (decl : Option NodeId) (facts : TagFacts)
    (body : MemberBody) : Answer Member := do
  let name ← env.checker.symbolName symbol
  let modifiers ← match decl with
    | some decl => env.checker.combinedModifierFlags decl
    | none => pure (.of [])
  let location ← match decl with
    | some decl => env.location decl
    | none => pure {}
  return {
    name := facts.name.getD name
    doc := facts.doc
    location
    visibility := facts.visibility
    isStatic := modifiers.has .static
    isAbstract := modifiers.has .abstract || facts.isAbstract
    isOverride := modifiers.has .override || facts.isOverride
    body }

end Environment

end ApiDoc
