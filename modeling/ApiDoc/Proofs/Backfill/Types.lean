import ApiDoc.Proofs.Backfill.Lockstep
import ApiDoc.Proofs.Source

/-!
# Types in lock step

What the settings say about documentation is read in two places only, so whatever else is asked about a program has the
same answer without them (`Environment.withoutBackfill`).  Types are among it: from twins, both resolvers come to the
same node.
-/

namespace ApiDoc

namespace Environment

/-- The same program without any completion of documentation. -/
def withoutBackfill (env : Environment) : Environment := { env with config := env.config.withoutBackfill }

variable {env : Environment} {inner inner' : Resolver} {s s' : Session}

theorem sameSource_withoutBackfill (env : Environment) : env.withoutBackfill.SameSource env := by
  constructor <;> rfl

/-! ### Resolvers side by side -/

/-- What two resolvers build for a symbol: a member with gaps that the other has filled.  For a signature it is no
class. -/
def BuiltAlike (env : Environment) (m : SymbolId) (own full : Member) (s' : Session) : Prop :=
  env.Fills s' own full ∧ (env.IsSignature m → own.class? = none)

/-- Resolvers that go in lock step.  The first completes nothing, the second whatever its settings say. -/
structure Paired (env : Environment) (inner inner' : Resolver) : Prop where
  type {s s' : Session} (t : TypeId) : env.Agree s s' (inner.type t) (inner'.type t)
  member {s s' : Session} (m : SymbolId) : env.Lockstep s s' (inner.member m) (inner'.member m)
    fun v v' t' => v = v' ∧ t'.memberOf? (.symbol m) = some v'
  build {s s' : Session} (m : SymbolId) (slot : MemberRef) :
    env.Lockstep s s' (inner.build m slot) (inner'.build m slot) (env.BuiltAlike m)

namespace Paired

theorem sameMember (h : env.Paired inner inner') (m : SymbolId) : env.Agree s s' (inner.member m) (inner'.member m) :=
  (h.member m).mono fun _ _ _ _ hv => hv.1

theorem types (h : env.Paired inner inner') (ts : List TypeId) : env.Agree s s' (inner.types ts) (inner'.types ts) :=
  .mapM fun t _ _ => h.type t

theorem members (h : env.Paired inner inner') (ms : List SymbolId) :
    env.Agree s s' (inner.members ms) (inner'.members ms) :=
  .map (.mapM fun m _ _ => h.sameMember m)

/-! ### Signatures -/

theorem newType (node : TypeNode) : env.Agree s s' (Resolve.newType node) (Resolve.newType node) := by
  refine .of_twin fun ht => .change (Session.newType_run node) (Session.newType_run node)
    (fun h => h.growType node) (.of_same (.growType s' node) (by simp)) ?_
  rw [ht.types]

theorem symbolType (h : env.Paired inner inner') (m : SymbolId) :
    env.Agree s s' (env.withoutBackfill.symbolType inner m) (env.symbolType inner' m) := by
  unfold Environment.symbolType
  refine .ask rfl fun d _ => ?_
  cases d with
  | some d => exact .ask rfl fun t _ => h.type t
  | none => exact newType _

theorem typeParameter (h : env.Paired inner inner') (summaries : NamedTexts) (owner : Option MemberRef) (t : TypeId) :
    env.Agree s s' (env.withoutBackfill.typeParameter inner summaries owner t)
      (env.typeParameter inner' summaries owner t) := by
  have howner : env.Agree s s' (owner.forM (Resolve.recordOwner t)) (owner.forM (Resolve.recordOwner t)) := by
    cases owner with
    | none => exact .pure rfl
    | some r =>
      exact .change (Session.recordOwner_run t r) (Session.recordOwner_run t r) (fun h => h.recordOwner t r)
        (.of_same (.recordOwner s' t r) (by simp)) rfl
  unfold Environment.typeParameter
  refine .same howner fun _ _ _ _ => .ask rfl fun name _ => ?_
  refine .same (h.type t) fun type _ _ _ => .ask rfl fun u _ => ?_
  refine .same (.optionMapM fun u' _ _ => h.type u') fun constraint _ _ _ => .ask rfl fun v _ => ?_
  exact .same (.optionMapM fun v' _ _ => h.type v') fun default _ _ _ => .pure rfl

theorem typeParameters (h : env.Paired inner inner') (summaries : NamedTexts) (owner : Option MemberRef)
    (ts : List TypeId) :
    env.Agree s s' (env.withoutBackfill.typeParameters inner summaries owner ts)
      (env.typeParameters inner' summaries owner ts) :=
  .mapM fun t _ _ => h.typeParameter summaries owner t

theorem parameter (h : env.Paired inner inner') (facts : TagFacts) (m : SymbolId) :
    env.Agree s s' (env.withoutBackfill.parameter inner facts m) (env.parameter inner' facts m) := by
  unfold Environment.parameter
  refine .ask rfl fun name _ => .same (h.symbolType m) fun type _ _ _ => ?_
  refine .ask rfl fun d _ => ?_
  cases d with
  | none => exact .pure rfl
  | some d =>
    refine .ask rfl fun rest _ => .ask rfl fun question _ => .ask rfl fun text _ => ?_
    cases text <;> exact .pure rfl

theorem signature (h : env.Paired inner inner') (sig : SignatureId) (facts : TagFacts) (owner : Option MemberRef) :
    env.Agree s s' (env.withoutBackfill.signature inner sig facts owner) (env.signature inner' sig facts owner) := by
  unfold Environment.signature
  refine .ask rfl fun ts _ => .same (h.typeParameters _ owner ts) fun typeParams _ _ _ => ?_
  refine .ask rfl fun ms _ => .same (.mapM fun m _ _ => h.parameter facts m) fun params _ _ _ => ?_
  refine .ask rfl fun this _ => .same (.optionMapM fun m _ _ => h.symbolType m) fun receiver _ _ _ => ?_
  exact .ask rfl fun t _ => .same (h.type t) fun r _ _ _ => .pure rfl

/-! ### Nodes -/

theorem targetType (h : env.Paired inner inner') (t : TypeId) (target : Option TypeId) :
    env.Agree s s' (Environment.targetType inner t target) (Environment.targetType inner' t target) := by
  unfold Environment.targetType
  split
  · split
    · exact newType _
    · exact h.type _
  · exact newType _

theorem compositeNode (h : env.Paired inner inner') (t : TypeId) (shape : Composite) :
    env.Agree s s' (env.withoutBackfill.compositeNode inner t shape) (env.compositeNode inner' t shape) := by
  unfold Environment.compositeNode
  cases shape with
  | named =>
    refine .ask rfl fun m _ => ?_
    cases m with
    | none => exact .pure rfl
    | some m => exact .map (h.sameMember m)
  | typeOf m => exact .map (h.sameMember m)
  | object => exact .ask rfl fun ms _ => .map (h.members ms)
  | array => exact .ask rfl fun u _ => .map (h.type u)
  | tuple | union | intersection => exact .ask rfl fun us _ => .map (h.types us)
  | generic =>
    refine .ask rfl fun target _ => .same (h.targetType t target) fun r _ _ _ => ?_
    exact .ask rfl fun us _ => .map (h.types us)
  | function sig => exact .map (h.signature sig {} none)
  | conditional =>
    refine .ask rfl fun root _ => ?_
    cases root with
    | none => exact .pure rfl
    | some root =>
      refine .same (h.type root.check) fun _ _ _ _ => .same (h.type root.bound) fun _ _ _ _ => ?_
      exact .same (h.type root.whenTrue) fun _ _ _ _ => .map (h.type root.whenFalse)
  | indexedAccess =>
    refine .ask rfl fun parts _ => ?_
    cases parts with
    | none => exact .pure rfl
    | some parts => exact .same (h.type parts.1) fun _ _ _ _ => .map (h.type parts.2)
  | keyOf =>
    refine .ask rfl fun operand _ => ?_
    cases operand with
    | none => exact .pure rfl
    | some u => exact .map (h.type u)

theorem reserveType (t : TypeId) (node : TypeNode) :
    env.Agree s s' (Resolve.reserveType t node) (Resolve.reserveType t node) := by
  refine .of_twin fun ht => .change (Session.reserveType_run t node) (Session.reserveType_run t node)
    (fun h => h.addType t node) (.of_same (.addType s' t node) (by simp)) ?_
  rw [ht.types]

theorem newTypeNode (h : env.Paired inner inner') (t : TypeId) :
    env.Agree s s' (env.withoutBackfill.newTypeNode inner t) (env.newTypeNode inner' t) := by
  unfold Environment.newTypeNode
  refine .ask rfl fun shape _ => ?_
  cases shape with
  | native type => exact reserveType _ _
  | literal => exact .ask rfl fun node _ => reserveType _ _
  | this => exact reserveType _ _
  | parameter =>
    refine .ask rfl fun name _ => .get (.of_twin fun ht => ?_)
    rw [ht.ownerOf t]
    exact reserveType _ _
  | substitution base =>
    refine .same (h.type base) fun r u u' _ => ?_
    exact .change_then (Session.rememberType_run t r) (Session.rememberType_run t r) (fun h => h.shareType t r)
      (.of_same (.shareType u' t r) (by simp)) (.pure rfl)
  | composite shape =>
    refine .same (reserveType t .mixed) fun r u u' _ => ?_
    refine .same (h.compositeNode t shape) fun node u u' _ => ?_
    exact .change_then (Session.setType_run r node) (Session.setType_run r node) (fun h => h.putType r node)
      (.of_same (.putType u' r node) (by simp)) (.pure rfl)

/-- A type leads to the same node on both sides. -/
theorem resolveType (h : env.Paired inner inner') (t : TypeId) :
    env.Agree s s' (env.withoutBackfill.resolveTypeWith inner t) (env.resolveTypeWith inner' t) := by
  unfold resolveTypeWith
  refine .get (.of_twin fun ht => ?_)
  rw [ht.typeOf t]
  cases s.typeOf? t with
  | some r => exact .pure rfl
  | none => exact h.newTypeNode t

end Paired

end Environment

end ApiDoc
