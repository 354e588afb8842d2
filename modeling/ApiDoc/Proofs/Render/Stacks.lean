import ApiDoc.Render.Tree

/-!
# The stacks of open nodes

Writing a type or a member pushes it on a stack and pops it again, whether the writing succeeds or not.
So every piece of writing leaves the stacks as it finds them, and its answer depends on them alone:
`Writing.Gives x s y` says that `x` answers `y` with `s` open and leaves `s` open.

It follows that what is written of one node, with some nodes open, is what its body writes given the
answers for its parts with that node open as well (`TypeWriter.within`, `TreeWriter.within`): the stacks
are gone from the equations `guardedText_succ`, `views_type` and `views_member`, which everything about
texts and trees is shown from.
-/

namespace ApiDoc

/-! ### Pieces of writing -/

namespace Writing

variable {σ α β : Type} {s : σ}

/-- With `s` open the answer is `y`, and `s` is open again afterwards. -/
def Gives (x : Writing σ α) (s : σ) (y : Except Error α) : Prop := x.run.run s = (y, s)

namespace Gives

theorem result {x : Writing σ α} {y : Except Error α} (h : x.Gives s y) : x.result s = y :=
  congrArg Prod.fst h

theorem self {x : Writing σ α} {y : Except Error α} (h : x.Gives s y) : x.Gives s (x.result s) := by
  rw [h.result]
  exact h

theorem pure (a : α) : Gives (Pure.pure a) s (Pure.pure a) := rfl

theorem fail (e : Error) : Gives (throw e : Writing σ α) s (.error e) := rfl

theorem lift (y : Except Error α) : Gives (liftM y) s (liftM y) := rfl

theorem bind {x : Writing σ α} {y : Except Error α} {f : α → Writing σ β} {f' : α → Except Error β}
    (hx : x.Gives s y) (hf : ∀ a, (f a).Gives s (f' a)) : (x >>= f).Gives s (y >>= f') := by
  have run : (x >>= f).run.run s =
      match x.run.run s with
      | (.ok a, s') => (f a).run.run s'
      | (.error e, s') => (.error e, s') := by
    simp only [ExceptT.run_bind, StateT.run_bind]
    cases h : x.run.run s with | mk answer s' => cases answer <;> rfl
  rw [Gives, run, show x.run.run s = (y, s) from hx]
  cases y with
  | ok a => exact hf a
  | error e => rfl

/-- Looking at what is open. -/
theorem look {f : σ → Writing σ α} {y : Except Error α} (h : (f s).Gives s y) :
    (get >>= f).Gives s y :=
  h

theorem mapM {f : α → Writing σ β} {f' : α → Except Error β} (h : ∀ a, (f a).Gives s (f' a))
    (items : List α) : (items.mapM f).Gives s (items.mapM f') := by
  induction items with
  | nil => exact .pure _
  | cons a items ih =>
    simp only [List.mapM_cons]
    exact .bind (h a) fun b => .bind ih fun bs => .pure _

theorem ite {c : Prop} [Decidable c] {x x' : Writing σ α} {y y' : Except Error α} (h : x.Gives s y)
    (h' : x'.Gives s y') : (if c then x else x').Gives s (if c then y else y') := by
  split
  · exact h
  · exact h'

/-- What is opened is closed again whatever the answer. -/
theorem inside {x : Writing σ α} {y : Except Error α} {enter leave : σ → σ}
    (hleave : leave (enter s) = s) (h : x.Gives (enter s) y) : (Writing.inside enter leave x).Gives s y := by
  have run : (Writing.inside enter leave x).run.run s =
      ((x.run.run (enter s)).1, leave (x.run.run (enter s)).2) := rfl
  rw [Gives, run, show x.run.run (enter s) = (y, enter s) from h, hleave]

end Gives

end Writing

open Writing (Gives)

/-! ### Types as text -/

namespace TypeWriter

variable {σ : Type} {w : TypeWriter (Writing σ)} {s : σ}

/-- How the parts of a type are written with some things open. -/
def within (w : TypeWriter (Writing σ)) (s : σ) : TypeWriter (Except Error) where
  type r := (w.type r).result s
  operand r := (w.operand r).result s

/-- Parts are written with `s` open and leave it open. -/
structure Steady (w : TypeWriter (Writing σ)) (s : σ) : Prop where
  type (r : TypeRef) : (w.type r).Gives s ((w.within s).type r)
  operand (r : TypeRef) : (w.operand r).Gives s ((w.within s).operand r)

namespace Steady

theorem after (hw : w.Steady s) (mark : String) (r : Option TypeRef) :
    (w.after mark r).Gives s ((w.within s).after mark r) := by
  cases r with
  | none => exact .pure _
  | some r => exact .bind (hw.type r) fun _ => .pure _

theorem typeParameter (hw : w.Steady s) (p : TypeParameter) :
    (w.typeParameter p).Gives s ((w.within s).typeParameter p) :=
  .bind (hw.after _ _) fun _ => .bind (hw.after _ _) fun _ => .pure _

theorem typeParameters (hw : w.Steady s) (ps : List TypeParameter) :
    (w.typeParameters ps).Gives s ((w.within s).typeParameters ps) := by
  refine .ite (.pure _) ?_
  exact .bind (.mapM hw.typeParameter ps) fun _ => .pure _

theorem parameter (hw : w.Steady s) (p : Parameter) :
    (w.parameter p).Gives s ((w.within s).parameter p) :=
  .bind (hw.type _) fun _ => .pure _

theorem receiver (hw : w.Steady s) (r : Option TypeRef) :
    (w.receiver r).Gives s ((w.within s).receiver r) := by
  cases r with
  | none => exact .pure _
  | some r => exact .bind (hw.type r) fun _ => .pure _

theorem signature (hw : w.Steady s) (arrow : String) (sig : Signature) :
    (w.signature arrow sig).Gives s ((w.within s).signature arrow sig) :=
  .bind (hw.typeParameters _) fun _ => .bind (hw.receiver _) fun _ =>
    .bind (.mapM hw.parameter _) fun _ => .bind (hw.type _) fun _ => .pure _

theorem objectMember (hw : w.Steady s) (g : Graph) (r : MemberRef) :
    (w.objectMember g r).Gives s ((w.within s).objectMember g r) := by
  refine .bind (.lift _) fun member => ?_
  cases member.body with
  | field f => exact .bind (hw.type _) fun _ => .pure _
  | method m => exact .bind (hw.signature _ _) fun _ => .pure _
  | classLike _ | enumeration _ | namespaceLike _ | «alias» _ _ => exact .pure _

theorem nodeText (hw : w.Steady s) (g : Graph) (node : TypeNode) :
    (w.nodeText g node).Gives s ((w.within s).nodeText g node) := by
  cases node with
  | native _ | literal _ | parameter _ _ | this => exact .pure _
  | array element => exact .bind (hw.operand _) fun _ => .pure _
  | tuple elements => exact .bind (.mapM hw.type _) fun _ => .pure _
  | generic target arguments =>
    refine .bind (hw.type _) fun _ => .ite (.pure _) ?_
    exact .bind (.mapM hw.type _) fun _ => .pure _
  | function sig => exact hw.signature _ _
  | object members =>
    cases members with
    | nil => exact .pure _
    | cons r rs => exact .bind (.mapM (hw.objectMember g) _) fun _ => .pure _
  | union operands | intersection operands => exact .bind (.mapM hw.operand _) fun _ => .pure _
  | conditional check bound whenTrue whenFalse =>
    exact .bind (hw.operand _) fun _ => .bind (hw.operand _) fun _ =>
      .bind (hw.type _) fun _ => .bind (hw.type _) fun _ => .pure _
  | indexedAccess operand argument =>
    exact .bind (hw.operand _) fun _ => .bind (hw.type _) fun _ => .pure _
  | unary operator operand => exact .bind (hw.operand _) fun _ => .pure _
  | typeOf member => exact .bind (.lift _) fun _ => .pure _
  | named member => exact .lift _

end Steady

end TypeWriter

/-- How the parts of a type are written down to a depth. -/
def typeParts (g : Graph) (fuel : Nat) : TypeWriter (Writing (List TypeRef)) :=
  ⟨guardedText g fuel, operandText g (guardedText g fuel)⟩

section

variable {g : Graph} {fuel : Nat} {path : List TypeRef}

theorem operandText_gives (h : ∀ r, (guardedText g fuel r).Gives path ((guardedText g fuel r).result path))
    (r : TypeRef) :
    (operandText g (guardedText g fuel) r).Gives path (do
      let node ← g.type r
      if node.isLoose && !path.contains r then
        return "(" ++ (← (guardedText g fuel r).result path) ++ ")"
      else (guardedText g fuel r).result path) :=
  .bind (.lift _) fun _ => .look <| .ite (.bind (h r) fun _ => .pure _) (h r)

theorem guardedText_gives (h : ∀ path, (typeParts g fuel).Steady path) (r : TypeRef) :
    (guardedText g (fuel + 1) r).Gives path (if path.contains r then return "..." else do
      ((typeParts g fuel).within (r :: path)).nodeText g (← g.type r)) := by
  refine .look <| .ite (.pure _) <| .inside rfl ?_
  exact .bind (.lift _) fun node => (h _).nodeText g node

/-- At any depth the stack is left as it was found. -/
theorem typeParts_steady (g : Graph) (fuel : Nat) (path : List TypeRef) :
    (typeParts g fuel).Steady path := by
  have of_types {fuel : Nat} {path : List TypeRef}
      (h : ∀ r, (guardedText g fuel r).Gives path ((guardedText g fuel r).result path)) :
      (typeParts g fuel).Steady path :=
    ⟨h, fun r => (operandText_gives h r).self⟩
  induction fuel generalizing path with
  | zero => exact of_types fun r => .fail _
  | succ fuel ih => exact of_types fun r => (guardedText_gives ih r).self

/-- What is written of a type with some types open. -/
theorem guardedText_succ (g : Graph) (fuel : Nat) (path : List TypeRef) (r : TypeRef) :
    (guardedText g (fuel + 1) r).result path = (if path.contains r then return "..." else do
      ((typeParts g fuel).within (r :: path)).nodeText g (← g.type r)) :=
  (guardedText_gives (typeParts_steady g fuel) r).result

end

/-! ### Trees -/

namespace TreeWriter

variable {σ : Type} {w : TreeWriter (Writing σ)} {s : σ}

/-- How the parts of a node are written with some things open. -/
def within (w : TreeWriter (Writing σ)) (s : σ) : TreeWriter (Except Error) where
  type r := (w.type r).result s
  member r := (w.member r).result s

/-- Parts are written with `s` open and leave it open. -/
structure Steady (w : TreeWriter (Writing σ)) (s : σ) : Prop where
  type (r : TypeRef) : (w.type r).Gives s ((w.within s).type r)
  member (r : MemberRef) : (w.member r).Gives s ((w.within s).member r)

namespace Steady

theorem types (hw : w.Steady s) (rs : List TypeRef) :
    (w.types rs).Gives s ((w.within s).types rs) :=
  .bind (.mapM hw.type rs) fun _ => .pure _

theorem typeField (hw : w.Steady s) (name : String) (r : Option TypeRef) :
    (w.typeField name r).Gives s ((w.within s).typeField name r) := by
  cases r with
  | none => exact .pure _
  | some r => exact .bind (hw.type r) fun _ => .pure _

theorem memberField (hw : w.Steady s) (name : String) (r : Option MemberRef) :
    (w.memberField name r).Gives s ((w.within s).memberField name r) := by
  cases r with
  | none => exact .pure _
  | some r => exact .bind (hw.member r) fun _ => .pure _

theorem members (hw : w.Steady s) (g : Graph) (includeHidden : Bool) (rs : List MemberRef) :
    (w.members g includeHidden rs).Gives s ((w.within s).members g includeHidden rs) :=
  .bind (.lift _) fun _ => .bind (.mapM hw.member _) fun _ => .pure _

theorem typeParameter (hw : w.Steady s) (p : TypeParameter) :
    (w.typeParameter p).Gives s ((w.within s).typeParameter p) :=
  .bind (hw.typeField _ _) fun _ => .bind (hw.typeField _ _) fun _ => .pure _

theorem typeParameters (hw : w.Steady s) (ps : List TypeParameter) :
    (w.typeParameters ps).Gives s ((w.within s).typeParameters ps) :=
  .bind (.mapM hw.typeParameter ps) fun _ => .pure _

theorem parameter (hw : w.Steady s) (p : Parameter) :
    (w.parameter p).Gives s ((w.within s).parameter p) :=
  .bind (hw.type _) fun _ => .pure _

theorem signature (hw : w.Steady s) (sig : Signature) :
    (w.signature sig).Gives s ((w.within s).signature sig) :=
  .bind (hw.typeParameters _) fun _ => .bind (.mapM hw.parameter _) fun _ =>
    .bind (hw.type _) fun _ => .bind (hw.typeField _ _) fun _ => .pure _

theorem typeBody (hw : w.Steady s) (g : Graph) (includeHidden : Bool) (node : TypeNode) :
    (w.typeBody g includeHidden node).Gives s ((w.within s).typeBody g includeHidden node) := by
  cases node with
  | native _ | literal _ | this => exact .pure _
  | array element => exact .bind (hw.type _) fun _ => .pure _
  | tuple elements => exact .bind (hw.types _) fun _ => .pure _
  | generic target arguments => exact .bind (hw.type _) fun _ => .bind (hw.types _) fun _ => .pure _
  | function sig => exact hw.signature sig
  | object members => exact .bind (hw.members g includeHidden _) fun _ => .pure _
  | union operands | intersection operands => exact .bind (hw.types _) fun _ => .pure _
  | conditional check bound whenTrue whenFalse =>
    exact .bind (hw.type _) fun _ => .bind (hw.type _) fun _ =>
      .bind (hw.type _) fun _ => .bind (hw.type _) fun _ => .pure _
  | indexedAccess operand argument =>
    exact .bind (hw.type _) fun _ => .bind (hw.type _) fun _ => .pure _
  | unary operator operand => exact .bind (hw.type _) fun _ => .pure _
  | parameter name declaredBy => exact .bind (.lift _) fun _ => .pure _
  | typeOf member | named member => exact .bind (.lift _) fun _ => .pure _

theorem enumEntry (hw : w.Steady s) (entry : EnumEntry) :
    (w.enumEntry entry).Gives s ((w.within s).enumEntry entry) :=
  .bind (hw.member _) fun _ => .pure _

theorem kindFields (hw : w.Steady s) (g : Graph) (includeHidden : Bool) (body : MemberBody) :
    (w.kindFields g includeHidden body).Gives s ((w.within s).kindFields g includeHidden body) := by
  cases body with
  | field f => exact .bind (hw.type _) fun _ => .pure _
  | method m =>
    exact .bind (hw.signature _) fun _ => .bind (hw.members g includeHidden _) fun _ =>
      .bind (hw.memberField _ _) fun _ => .pure _
  | classLike c =>
    exact .bind (hw.typeParameters _) fun _ => .bind (hw.types _) fun _ => .bind (hw.types _) fun _ =>
      .bind (hw.members g includeHidden _) fun _ => .bind (hw.members g includeHidden _) fun _ =>
      .bind (.lift _) fun _ => .bind (hw.memberField _ _) fun _ =>
      .bind (hw.memberField _ _) fun _ => .bind (hw.memberField _ _) fun _ => .pure _
  | enumeration e =>
    exact .bind (.lift _) fun _ => .bind (.mapM hw.enumEntry _) fun _ =>
      .bind (hw.members g includeHidden _) fun _ => .pure _
  | namespaceLike rs => exact .bind (hw.members g includeHidden _) fun _ => .pure _
  | «alias» type params => exact .bind (hw.type _) fun _ => .bind (hw.typeParameters _) fun _ => .pure _

theorem memberBody (hw : w.Steady s) (g : Graph) (includeHidden : Bool) (member : Member) :
    (w.memberBody g includeHidden member).Gives s
      ((w.within s).memberBody g includeHidden member) :=
  .bind (.lift _) fun _ => .bind (hw.typeField _ _) fun _ =>
    .bind (hw.kindFields g includeHidden _) fun _ => .pure _

theorem sourceFile (hw : w.Steady s) (g : Graph) (includeHidden : Bool) (file : SourceFile) :
    (w.sourceFile g includeHidden file).Gives s ((w.within s).sourceFile g includeHidden file) :=
  .bind (hw.members g includeHidden _) fun _ => .pure _

theorem project (hw : w.Steady s) (g : Graph) (includeHidden : Bool) (files : List SourceFile) :
    (w.project g includeHidden files).Gives s ((w.within s).project g includeHidden files) :=
  .bind (.mapM (hw.sourceFile g includeHidden) files) fun _ => .pure _

end Steady

end TreeWriter

section

variable {g : Graph} {includeHidden : Bool} {fuel : Nat} {s : OpenNodes}

theorem views_type_gives (h : ∀ s, (views g includeHidden fuel).Steady s) (r : TypeRef) :
    ((views g includeHidden (fuel + 1)).type r).Gives s
      (if s.types.contains r then return TreeWriter.marker (← typeText g r) else do
        let node ← g.type r
        return .object (("kind", .text node.kind) ::
          (← ((views g includeHidden fuel).within (s.enterType r)).typeBody g includeHidden node))) := by
  refine .look <| .ite (.bind (.lift _) fun _ => .pure _) <| .inside rfl ?_
  exact .bind (.lift _) fun node => .bind ((h _).typeBody g includeHidden node) fun _ => .pure _

theorem views_member_gives (h : ∀ s, (views g includeHidden fuel).Steady s) (r : MemberRef) :
    ((views g includeHidden (fuel + 1)).member r).Gives s
      (if s.members.contains r then return TreeWriter.marker (← g.member r).name else do
        return .object (← ((views g includeHidden fuel).within (s.enterMember r)).memberBody g
          includeHidden (← g.member r))) := by
  refine .look <| .ite (.bind (.lift _) fun _ => .pure _) <| .inside rfl ?_
  exact .bind (.lift _) fun member =>
    .bind ((h _).memberBody g includeHidden member) fun _ => .pure _

/-- At any depth the stacks are left as they were found. -/
theorem views_steady (g : Graph) (includeHidden : Bool) (fuel : Nat) (s : OpenNodes) :
    (views g includeHidden fuel).Steady s := by
  induction fuel generalizing s with
  | zero => exact ⟨fun r => .fail _, fun r => .fail _⟩
  | succ fuel ih => exact ⟨fun r => (views_type_gives ih r).self, fun r => (views_member_gives ih r).self⟩

/-- What is written of a type with some types and members open. -/
theorem views_type (g : Graph) (includeHidden : Bool) (fuel : Nat) (s : OpenNodes) (r : TypeRef) :
    ((views g includeHidden (fuel + 1)).within s).type r =
      (if s.types.contains r then return TreeWriter.marker (← typeText g r) else do
        let node ← g.type r
        return .object (("kind", .text node.kind) ::
          (← ((views g includeHidden fuel).within (s.enterType r)).typeBody g includeHidden node))) :=
  (views_type_gives (views_steady g includeHidden fuel) r).result

/-- What is written of a member with some types and members open. -/
theorem views_member (g : Graph) (includeHidden : Bool) (fuel : Nat) (s : OpenNodes) (r : MemberRef) :
    ((views g includeHidden (fuel + 1)).within s).member r =
      (if s.members.contains r then return TreeWriter.marker (← g.member r).name else do
        return .object (← ((views g includeHidden fuel).within (s.enterMember r)).memberBody g
          includeHidden (← g.member r))) :=
  (views_member_gives (views_steady g includeHidden fuel) r).result

end

/-- The tree of a project is what its writer gives with nothing open. -/
theorem Project.tree_eq (p : Project) (config : Config) :
    p.tree config = ((p.graph.view config.includeHidden).within {}).project p.graph config.includeHidden
      p.files :=
  ((views_steady _ _ _ {}).project p.graph config.includeHidden p.files).result

end ApiDoc
