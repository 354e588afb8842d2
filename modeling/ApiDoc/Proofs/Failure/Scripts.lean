import ApiDoc.Proofs.Failure.Inquiry
import ApiDoc.Proofs.Run.Exec

/-!
# Types by inquiry

A piece of the resolver is `Scripted` if it sees no more of the queries that may be refused than the replies to those
that it makes: from every session it is an inquiry, the same whatever the replies are.  The rules follow the ways in
which the resolver is put together.  By them all that resolves a type is scripted, as soon as what it refers to is
resolved by scripts.
-/

namespace ApiDoc

/-- What comes of a piece of the resolver: its answer and the session that it leaves, or an error. -/
def Resolve.outcome {α : Type} (x : Resolve α) (s : Session) : Except Error (α × Session) :=
  match x.run.run s with
  | (.ok a, s') => .ok (a, s')
  | (.error e, _) => .error e

theorem Resolve.outcome_bind {α β : Type} (x : Resolve α) (f : α → Resolve β) (s : Session) :
    (x >>= f).outcome s = x.outcome s >>= fun p => (f p.1).outcome p.2 := by
  unfold outcome
  rw [Environment.Exec.run_bind]
  generalize x.run.run s = p
  obtain ⟨e | a, s'⟩ := p <;> rfl

/-- From every session there is one inquiry that does what the piece does, whatever the replies are. -/
def Scripted {α : Type} (x : Replies → Resolve α) : Prop :=
  ∀ s, ∃ run : Inquiry (α × Session), ∀ replies, (x replies).outcome s = run.outcome replies

namespace Scripted

variable {α β : Type}

/-- What does not depend on the replies asks nothing. -/
theorem const (x : Resolve α) : Scripted fun _ => x :=
  fun s => ⟨.ends (x.outcome s), fun _ => rfl⟩

theorem bind {x : Replies → Resolve α} {f : Replies → α → Resolve β} (hx : Scripted x)
    (hf : ∀ a, Scripted fun replies => f replies a) : Scripted fun replies => x replies >>= f replies := by
  intro s
  obtain ⟨run, hrun⟩ := hx s
  choose next hnext using fun p : α × Session => hf p.1 p.2
  refine ⟨run.andThen next, fun replies => ?_⟩
  rw [Resolve.outcome_bind, Inquiry.outcome_andThen, hrun]
  simp only [hnext]

/-- An answer that is the same whatever the replies are. -/
theorem answer {x : Replies → Answer α} (hx : ∀ replies replies', x replies = x replies') :
    Scripted fun replies => liftM (x replies) := by
  obtain ⟨y, hy⟩ : ∃ y, ∀ replies, x replies = y := ⟨x fun _ => .error .unreadable, fun _ => hx _ _⟩
  simp only [hy]
  exact const _

theorem ask {x : Replies → Answer α} {f : Replies → α → Resolve β} (hx : ∀ replies replies', x replies = x replies')
    (hf : ∀ a, Scripted fun replies => f replies a) : Scripted fun replies => liftM (x replies) >>= f replies :=
  (answer hx).bind hf

/-- What is made of the reply to a query that may be refused. -/
theorem reply (q : Query) (f : q.Reply → α) :
    Scripted fun replies => liftM (replies q >>= fun a => Pure.pure (f a) : Answer α) := by
  refine fun s => ⟨.asks q fun a => .ends (.ok (f a, s)), fun replies => ?_⟩
  simp only [Inquiry.outcome]
  cases replies q <;> rfl

/-- A query that may be refused. -/
theorem query (q : Query) {f : Replies → q.Reply → Resolve β} (hf : ∀ a, Scripted fun replies => f replies a) :
    Scripted fun replies => liftM (replies q) >>= f replies := by
  have hreply := reply q id
  simp only [id_eq, bind_pure] at hreply
  exact hreply.bind hf

/-- What is made of an answer. -/
theorem map {x : Replies → Resolve α} {f : α → β} (hx : Scripted x) :
    Scripted fun replies => x replies >>= fun a => Pure.pure (f a) :=
  hx.bind fun _ => const _

/-! ### Lists -/

theorem mapM {f : Replies → α → Resolve β} {xs : List α} (hf : ∀ a, Scripted fun replies => f replies a) :
    Scripted fun replies => xs.mapM (f replies) := by
  induction xs with
  | nil => exact const _
  | cons a xs ih =>
    simp only [List.mapM_cons]
    exact (hf a).bind fun b => ih.map

theorem optionMapM {f : Replies → α → Resolve β} {x : Option α} (hf : ∀ a, Scripted fun replies => f replies a) :
    Scripted fun replies => x.mapM (f replies) := by
  cases x with
  | none => exact const _
  | some a => exact (hf a).map

theorem foldlM {f : Replies → β → α → Resolve β} {xs : List α} {b : β}
    (hf : ∀ b a, Scripted fun replies => f replies b a) : Scripted fun replies => xs.foldlM (f replies) b := by
  induction xs generalizing b with
  | nil => exact const _
  | cons a xs ih =>
    simp only [List.foldlM_cons]
    exact (hf b a).bind fun c => ih

end Scripted

/-- A resolver by scripts. -/
structure Scripting (inner : Replies → Resolver) : Prop where
  type (t : TypeId) : Scripted fun replies => (inner replies).type t
  member (m : SymbolId) : Scripted fun replies => (inner replies).member m
  build (m : SymbolId) (slot : MemberRef) : Scripted fun replies => (inner replies).build m slot

namespace Scripting

variable {inner : Replies → Resolver}

theorem types (h : Scripting inner) (ts : List TypeId) : Scripted fun replies => (inner replies).types ts :=
  .mapM h.type

theorem members (h : Scripting inner) (ms : List SymbolId) : Scripted fun replies => (inner replies).members ms :=
  .map (.mapM h.member)

variable (env : Environment)

/-! ### Signatures -/

theorem symbolType (h : Scripting inner) (m : SymbolId) :
    Scripted fun replies => (env.answering replies).symbolType (inner replies) m := by
  unfold Environment.symbolType
  refine .ask (fun _ _ => rfl) fun d => ?_
  cases d with
  | some d => exact .query (.typeOfSymbolAtLocation m d) fun t => h.type t
  | none => exact .const _

theorem typeParameter (h : Scripting inner) (summaries : NamedTexts) (owner : Option MemberRef) (t : TypeId) :
    Scripted fun replies => (env.answering replies).typeParameter (inner replies) summaries owner t := by
  unfold Environment.typeParameter
  refine .bind (.const _) fun _ => .ask (fun _ _ => rfl) fun name => .bind (h.type t) fun type => ?_
  refine .ask (fun _ _ => rfl) fun u => .bind (.optionMapM h.type) fun constraint => ?_
  exact .ask (fun _ _ => rfl) fun v => .bind (.optionMapM h.type) fun default => .const _

theorem typeParameters (h : Scripting inner) (summaries : NamedTexts) (owner : Option MemberRef) (ts : List TypeId) :
    Scripted fun replies => (env.answering replies).typeParameters (inner replies) summaries owner ts :=
  .mapM fun t => h.typeParameter env summaries owner t

theorem parameter (h : Scripting inner) (facts : TagFacts) (m : SymbolId) :
    Scripted fun replies => (env.answering replies).parameter (inner replies) facts m := by
  unfold Environment.parameter
  refine .ask (fun _ _ => rfl) fun name => .bind (h.symbolType env m) fun type => .ask (fun _ _ => rfl) fun d => ?_
  cases d with
  | none => exact .const _
  | some d =>
    refine .ask (fun _ _ => rfl) fun rest => .ask (fun _ _ => rfl) fun question => ?_
    refine .ask (fun _ _ => rfl) fun text => ?_
    cases text <;> exact .const _

theorem signature (h : Scripting inner) (sig : SignatureId) (facts : TagFacts) (owner : Option MemberRef) :
    Scripted fun replies => (env.answering replies).signature (inner replies) sig facts owner := by
  unfold Environment.signature
  refine .ask (fun _ _ => rfl) fun ts => .bind (h.typeParameters env _ owner ts) fun typeParams => ?_
  refine .ask (fun _ _ => rfl) fun ms => .bind (.mapM fun m => h.parameter env facts m) fun params => ?_
  refine .ask (fun _ _ => rfl) fun this => .bind (.optionMapM fun m => h.symbolType env m) fun receiver => ?_
  exact .ask (fun _ _ => rfl) fun t => .bind (h.type t) fun r => .const _

/-! ### Nodes -/

theorem targetType (h : Scripting inner) (t : TypeId) (target : Option TypeId) :
    Scripted fun replies => Environment.targetType (inner replies) t target := by
  unfold Environment.targetType
  cases target with
  | none => exact .const _
  | some target =>
    dsimp only
    split
    · exact .const _
    · exact h.type target

theorem compositeNode (h : Scripting inner) (t : TypeId) (shape : Composite) :
    Scripted fun replies => (env.answering replies).compositeNode (inner replies) t shape := by
  unfold Environment.compositeNode
  cases shape with
  | named =>
    refine .ask (fun _ _ => rfl) fun m => ?_
    cases m with
    | none => exact .const _
    | some m => exact .map (h.member m)
  | typeOf m => exact .map (h.member m)
  | object => exact .ask (fun _ _ => rfl) fun ms => .map (h.members ms)
  | array => exact .query (.elementTypeOfArray t) fun u => .map (h.type u)
  | tuple | union | intersection => exact .ask (fun _ _ => rfl) fun us => .map (h.types us)
  | generic =>
    refine .ask (fun _ _ => rfl) fun target => .bind (h.targetType t target) fun r => ?_
    exact .ask (fun _ _ => rfl) fun us => .map (h.types us)
  | function sig => exact .map (h.signature env sig {} none)
  | conditional =>
    refine .ask (fun _ _ => rfl) fun root => ?_
    cases root with
    | none => exact .const _
    | some root =>
      refine .bind (h.type root.check) fun _ => .bind (h.type root.bound) fun _ => ?_
      exact .bind (h.type root.whenTrue) fun _ => .map (h.type root.whenFalse)
  | indexedAccess =>
    refine .ask (fun _ _ => rfl) fun parts => ?_
    cases parts with
    | none => exact .const _
    | some parts => exact .bind (h.type parts.1) fun _ => .map (h.type parts.2)
  | keyOf =>
    refine .ask (fun _ _ => rfl) fun operand => ?_
    cases operand with
    | none => exact .const _
    | some u => exact .map (h.type u)

theorem newTypeNode (h : Scripting inner) (t : TypeId) :
    Scripted fun replies => (env.answering replies).newTypeNode (inner replies) t := by
  unfold Environment.newTypeNode
  refine .ask (fun _ _ => rfl) fun shape => ?_
  cases shape with
  | native type => exact .const _
  | literal => exact .ask (fun _ _ => rfl) fun node => .const _
  | this => exact .const _
  | parameter => exact .ask (fun _ _ => rfl) fun name => .const _
  | substitution base => exact .bind (h.type base) fun r => .const _
  | composite shape => exact .bind (.const _) fun r => .bind (h.compositeNode env t shape) fun node => .const _

theorem resolveType (h : Scripting inner) (t : TypeId) :
    Scripted fun replies => (env.answering replies).resolveTypeWith (inner replies) t := by
  unfold Environment.resolveTypeWith
  refine .bind (.const _) fun s => ?_
  cases s.typeOf? t with
  | some r => exact .const _
  | none => exact h.newTypeNode env t

end Scripting

end ApiDoc
