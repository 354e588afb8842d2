import ApiDoc.Resolve.Files

/-!
# What is read of declarations

What declarations say, which of them counts and how a field is declared depends on a few answers about nodes, files and
symbols only.  Environments that agree on these (`Environment.SameSource`) read the same, whatever else sets them apart.
-/

namespace ApiDoc

namespace Environment

/-- Two environments with the same declarations. -/
structure SameSource (env env' : Environment) : Prop where
  locator : env.locator = env'.locator
  fileText : env.checker.fileText = env'.checker.fileText
  declarations : env.checker.declarations = env'.checker.declarations
  nodeCount : env.checker.nodeCount = env'.checker.nodeCount
  nodeKind : env.checker.nodeKind = env'.checker.nodeKind
  nodeParent : env.checker.nodeParent = env'.checker.nodeParent
  nodeFile : env.checker.nodeFile = env'.checker.nodeFile
  nodeSpan : env.checker.nodeSpan = env'.checker.nodeSpan
  nodeFlags : env.checker.nodeFlags = env'.checker.nodeFlags
  combinedModifierFlags : env.checker.combinedModifierFlags = env'.checker.combinedModifierFlags
  hasBody : env.checker.hasBody = env'.checker.hasBody
  isImplementationOfOverload : env.checker.isImplementationOfOverload = env'.checker.isImplementationOfOverload

namespace SameSource

variable {env env' : Environment}

/-! ### Doc blocks -/

theorem blockFrom (h : env.SameSource env') (text : String) (fuel : Nat) (d : NodeId) :
    env.blockFrom text fuel d = env'.blockFrom text fuel d := by
  induction fuel generalizing d with
  | zero => rfl
  | succ fuel ih =>
    unfold Environment.blockFrom
    simp only [ih, h.locator, h.nodeSpan, h.nodeKind, h.nodeParent]

theorem tags (h : env.SameSource env') (d : NodeId) : env.tags d = env'.tags d := by
  unfold Environment.tags
  simp only [h.blockFrom, h.combinedModifierFlags, h.fileText, h.nodeFile, h.nodeCount]

theorem tags? (h : env.SameSource env') (d : Option NodeId) : env.tags? d = env'.tags? d := by
  cases d with
  | none => rfl
  | some d => exact h.tags d

theorem accessorTags (h : env.SameSource env') (first : NodeId) (rest : List NodeId) :
    env.accessorTags first rest = env'.accessorTags first rest := by
  have hfirst (ds : List NodeId) : env.firstTags? ds = env'.firstTags? ds := by
    induction ds with
    | nil => rfl
    | cons d rest ih =>
      unfold firstTags?
      simp only [ih, h.tags]
  unfold Environment.accessorTags
  simp only [hfirst, h.tags]

/-! ### Choices -/

theorem preferredDeclaration? (h : env.SameSource env') (m : SymbolId) (kinds : List SyntaxKind) :
    env.preferredDeclaration? m kinds = env'.preferredDeclaration? m kinds := by
  have hfirst (kind : SyntaxKind) (ds : List NodeId) : env.firstOfKind? kind ds = env'.firstOfKind? kind ds := by
    induction ds with
    | nil => rfl
    | cons d rest ih =>
      unfold firstOfKind?
      simp only [ih, h.nodeKind]
  have hpreferred (ds : List NodeId) : env.preferredOf? ds kinds = env'.preferredOf? ds kinds := by
    induction kinds with
    | nil => rfl
    | cons kind rest ih =>
      unfold preferredOf?
      simp only [ih, hfirst]
  unfold Environment.preferredDeclaration?
  simp only [hpreferred, h.declarations]

theorem primaryIndex (h : env.SameSource env') (ds : List NodeId) : env.primaryIndex ds = env'.primaryIndex ds := by
  have himplementation (start : Nat) (ds : List NodeId) :
      env.implementationFrom start ds = env'.implementationFrom start ds := by
    induction ds generalizing start with
    | nil => rfl
    | cons d rest ih =>
      unfold implementationFrom
      simp only [ih, h.isImplementationOfOverload]
  unfold Environment.primaryIndex
  simp only [himplementation, h.hasBody]

theorem fieldKind (h : env.SameSource env') (d : NodeId) : env.fieldKind d = env'.fieldKind d := by
  have howner (fuel : Nat) (d : NodeId) : env.bindingOwner fuel d = env'.bindingOwner fuel d := by
    induction fuel generalizing d with
    | zero => rfl
    | succ fuel ih =>
      unfold bindingOwner
      simp only [ih, h.nodeKind, h.nodeParent]
  unfold Environment.fieldKind
  simp only [howner, h.nodeCount, h.nodeKind, h.nodeParent, h.nodeFlags]

end SameSource

end Environment

end ApiDoc
