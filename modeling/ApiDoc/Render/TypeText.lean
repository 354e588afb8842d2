import ApiDoc.Model.Project

/-!
# Types as text

A type is shown the way the language writes it.  A type met again inside itself is shown as three
dots, so the text is finite however the types refer to each other.

`nodeText` writes one node given how its parts are written; `guardedText` ties it to itself, and
keeps the types around the one at hand on a stack.  No type is on it twice, so the number of types
bounds the depth.
-/

namespace ApiDoc

/-- A piece of writing: it may fail, and it keeps what is open around it. -/
abbrev Writing (σ : Type) := ExceptT Error (StateM σ)

namespace Writing

variable {σ α : Type}

/-- A piece of writing with one more thing open, which is closed again whatever comes of it. -/
def inside (enter leave : σ → σ) (x : Writing σ α) : Writing σ α :=
  .mk do
    modify enter
    let result ← x.run
    modify leave
    return result

/-- What comes of a piece of writing with some things open. -/
def result (x : Writing σ α) (opened : σ) : Except Error α := (x.run.run opened).1

end Writing

/-- How the parts of a type are written. -/
structure TypeWriter (m : Type → Type) where
  /-- A type where nothing can be mistaken. -/
  type : TypeRef → m String
  /-- A type as the operand of another, with parentheses when it needs them. -/
  operand : TypeRef → m String

namespace TypeWriter

variable {m : Type → Type} [Monad m] [MonadLiftT (Except Error) m]

/-- Texts with a separator between them. -/
def join (separator : String) (texts : List String) : String := String.intercalate separator texts

/-- The text behind a mark when there is a type to write. -/
def after (w : TypeWriter m) (mark : String) : Option TypeRef → m String
  | some r => return mark ++ (← w.type r)
  | none => return ""

/-- A type parameter with its constraint and default. -/
def typeParameter (w : TypeWriter m) (p : TypeParameter) : m String := do
  return p.name ++ (← w.after " extends " p.constraint) ++ (← w.after " = " p.default)

/-- Type parameters between angle brackets, or nothing. -/
def typeParameters (w : TypeWriter m) (ps : List TypeParameter) : m String := do
  if ps.isEmpty then return ""
  return "<" ++ join ", " (← ps.mapM w.typeParameter) ++ ">"

/-- A parameter with its marks and its type. -/
def parameter (w : TypeWriter m) (p : Parameter) : m String := do
  let dots := if p.rest then "..." else ""
  let question := if p.optional && !p.rest then "?" else ""
  return dots ++ p.name ++ question ++ ": " ++ (← w.type p.type)

/-- The receiver of a signature as its first parameter, if it is explicit. -/
def receiver (w : TypeWriter m) : Option TypeRef → m (List String)
  | some r => return ["this: " ++ (← w.type r)]
  | none => return []

/-- A signature, with `arrow` before the type of what it returns. -/
def signature (w : TypeWriter m) (arrow : String) (s : Signature) : m String := do
  let typeParams ← w.typeParameters s.typeParameters
  let receiver ← w.receiver s.thisType
  let params ← s.parameters.mapM w.parameter
  return typeParams ++ "(" ++ join ", " (receiver ++ params) ++ ")" ++ arrow ++
    (← w.type s.returnType)

/-- A member of an object type. -/
def objectMember (w : TypeWriter m) (g : Graph) (r : MemberRef) : m String := do
  let member ← g.member r
  match member.body with
  | .field f =>
    let readOnly := if f.readOnly then "readonly " else ""
    let question := if f.optional then "?" else ""
    return readOnly ++ member.name ++ question ++ ": " ++ (← w.type f.type)
  | .method m => return member.name ++ (← w.signature ": " m.signature)
  | _ => return member.name

/-- The name of a member, or the word for an unknown one. -/
def memberName (g : Graph) : Option MemberRef → Except Error String
  | some r => return (← g.member r).name
  | none => return "unknown"

/-- The text of one node. -/
def nodeText (w : TypeWriter m) (g : Graph) : TypeNode → m String
  | .native t => return t.name
  | .literal value => return value.sourceText
  | .array element => return (← w.operand element) ++ "[]"
  | .tuple elements => return "[" ++ join ", " (← elements.mapM w.type) ++ "]"
  | .generic target arguments => do
    let target ← w.type target
    if arguments.isEmpty then return target
    return target ++ "<" ++ join ", " (← arguments.mapM w.type) ++ ">"
  | .function s => w.signature " => " s
  | .object [] => return "\x7b\x7d"
  | .object members => return "\x7b " ++ join "; " (← members.mapM (w.objectMember g)) ++ " \x7d"
  | .union operands => return join " | " (← operands.mapM w.operand)
  | .intersection operands => return join " & " (← operands.mapM w.operand)
  | .conditional check bound whenTrue whenFalse => do
    return (← w.operand check) ++ " extends " ++ (← w.operand bound) ++ " ? " ++
      (← w.type whenTrue) ++ " : " ++ (← w.type whenFalse)
  | .indexedAccess operand argument =>
    return (← w.operand operand) ++ "[" ++ (← w.type argument) ++ "]"
  | .unary operator operand => return operator.keyword ++ " " ++ (← w.operand operand)
  | .parameter name _ => return name
  | .this => return "this"
  | .typeOf member => return "typeof " ++ (← memberName g member)
  | .named member => memberName g member

end TypeWriter

/-- Whether a node needs parentheses as an operand. -/
def TypeNode.isLoose : TypeNode → Bool
  | .union _ | .intersection _ | .function _ | .conditional .. => true
  | _ => false

/-- An operand, in parentheses when its node is loose and not one of those around it. -/
def operandText (g : Graph) (type : TypeRef → Writing (List TypeRef) String) (r : TypeRef) :
    Writing (List TypeRef) String := do
  let node ← g.type r
  if node.isLoose && !(← get).contains r then return "(" ++ (← type r) ++ ")" else type r

/-- The text of a type inside those on the stack, innermost first. -/
def guardedText (g : Graph) : Nat → TypeRef → Writing (List TypeRef) String
  | 0, _ => throw .tooDeep
  | fuel + 1, r => do
    if (← get).contains r then return "..."
    let inner := guardedText g fuel
    Writing.inside (r :: ·) List.tail do
      TypeWriter.nodeText ⟨inner, operandText g inner⟩ g (← g.type r)

/-- How the types of a graph are written: no type is open twice, so their number bounds the
depth. -/
def Graph.printer (g : Graph) : TypeRef → Writing (List TypeRef) String :=
  guardedText g (g.types.size + 2)

/-- The text of a type. -/
def typeText (g : Graph) (r : TypeRef) : Except Error String := (g.printer r).result []

end ApiDoc
