import ApiDoc.Proofs.Source
import Mathlib.Logic.Function.Basic

/-!
# Queries that may be refused

Most queries about a handle that exists have an answer, but seven may be refused even then (`Query`).  An `Inquiry` is
a computation that can do nothing but ask such queries, one after the other: each reply decides what is asked next, and
the first refusal is the outcome.  The queries it makes are exactly those whose refusal it would pass on
(`Inquiry.mem_asked_iff`), so whoever describes a program by an inquiry has no choice in what is asked.
-/

namespace ApiDoc

/-- A query that may be refused. -/
inductive Query where
  /-- The symbol that a node declares. -/
  | symbolAtLocation (node : NodeId)
  /-- What a module exports. -/
  | exportsOfModule (symbol : SymbolId)
  /-- The type of a symbol at a node. -/
  | typeOfSymbolAtLocation (symbol : SymbolId) (node : NodeId)
  /-- The type that a symbol declares. -/
  | declaredTypeOfSymbol (symbol : SymbolId)
  /-- The type that is written at a node. -/
  | typeAtLocation (node : NodeId)
  /-- The type of an array's elements. -/
  | elementTypeOfArray (type : TypeId)
  /-- The signature of a declaration. -/
  | signatureFromDeclaration (node : NodeId)
  deriving DecidableEq, Repr

/-- What a query is answered with. -/
abbrev Query.Reply : Query → Type
  | symbolAtLocation _ => SymbolId
  | exportsOfModule _ => List SymbolId
  | typeOfSymbolAtLocation .. | declaredTypeOfSymbol _ | typeAtLocation _ | elementTypeOfArray _ => TypeId
  | signatureFromDeclaration _ => SignatureId

/-- An answer to every query, which may be a refusal. -/
abbrev Replies := (q : Query) → Answer q.Reply

/-- The answers of a checker. -/
def Checker.replies (c : Checker) : Replies
  | .symbolAtLocation node => c.symbolAtLocation node
  | .exportsOfModule symbol => c.exportsOfModule symbol
  | .typeOfSymbolAtLocation symbol node => c.typeOfSymbolAtLocation symbol node
  | .declaredTypeOfSymbol symbol => c.declaredTypeOfSymbol symbol
  | .typeAtLocation node => c.typeAtLocation node
  | .elementTypeOfArray type => c.elementTypeOfArray type
  | .signatureFromDeclaration node => c.signatureFromDeclaration node

/-- The checker with other answers to the queries that may be refused. -/
def Checker.answering (c : Checker) (replies : Replies) : Checker :=
  { c with
    symbolAtLocation := fun node => replies (.symbolAtLocation node)
    exportsOfModule := fun symbol => replies (.exportsOfModule symbol)
    typeOfSymbolAtLocation := fun symbol node => replies (.typeOfSymbolAtLocation symbol node)
    declaredTypeOfSymbol := fun symbol => replies (.declaredTypeOfSymbol symbol)
    typeAtLocation := fun node => replies (.typeAtLocation node)
    elementTypeOfArray := fun type => replies (.elementTypeOfArray type)
    signatureFromDeclaration := fun node => replies (.signatureFromDeclaration node) }

namespace Environment

/-- The environment with other answers to the queries that may be refused. -/
def answering (env : Environment) (replies : Replies) : Environment :=
  { env with checker := env.checker.answering replies }

@[simp]
theorem answering_replies (env : Environment) : env.answering env.checker.replies = env := rfl

theorem sameSource_answering (env : Environment) (replies : Replies) : (env.answering replies).SameSource env := by
  constructor <;> rfl

/-- What declarations say does not depend on the replies. -/
theorem sameSource_replies (env : Environment) (replies replies' : Replies) :
    (env.answering replies).SameSource (env.answering replies') := by
  constructor <;> rfl

end Environment

namespace Replies

/-- The same answers, except that a query is refused. -/
def refuse (replies : Replies) (q : Query) (e : Error) : Replies := Function.update replies q (.error e)

/-- The same answers, with another reason for each refusal. -/
def blaming (replies : Replies) (e : Error) : Replies := fun q => (replies q).mapError fun _ => e

theorem refuse_same (replies : Replies) (q : Query) (e : Error) : replies.refuse q e q = .error e :=
  Function.update_self ..

theorem refuse_of_ne (replies : Replies) {q q' : Query} (e : Error) (h : q' ≠ q) :
    replies.refuse q e q' = replies q' :=
  Function.update_of_ne h ..

theorem blaming_of_ok {replies : Replies} {q : Query} {a : q.Reply} (e : Error) (h : replies q = .ok a) :
    replies.blaming e q = .ok a := by
  rw [blaming, h]
  rfl

end Replies

/-- A computation that asks queries until it ends, by itself or with the first refusal. -/
inductive Inquiry (α : Type) where
  /-- It ends. -/
  | ends (result : Except Error α)
  /-- It asks, and goes on as the reply tells. -/
  | asks (q : Query) (next : q.Reply → Inquiry α)

namespace Inquiry

variable {α β : Type}

/-- What comes of an inquiry. -/
def outcome (replies : Replies) : Inquiry α → Except Error α
  | ends result => result
  | asks q next => replies q >>= fun a => (next a).outcome replies

/-- The queries that an inquiry makes, in order. -/
def asked (replies : Replies) : Inquiry α → List Query
  | ends _ => []
  | asks q next => q :: match replies q with
    | .ok a => (next a).asked replies
    | .error _ => []

/-- An inquiry and then another, which depends on what came of the first. -/
def andThen (f : α → Inquiry β) : Inquiry α → Inquiry β
  | ends (.ok a) => f a
  | ends (.error e) => ends (.error e)
  | asks q next => asks q fun a => (next a).andThen f

theorem outcome_andThen (replies : Replies) (f : α → Inquiry β) (run : Inquiry α) :
    (run.andThen f).outcome replies = run.outcome replies >>= fun a => (f a).outcome replies := by
  induction run with
  | ends result => cases result <;> rfl
  | asks q next ih =>
    simp only [andThen, outcome, ih]
    cases replies q <;> rfl

/-- An inquiry depends on the answers to the queries that it makes, and on no others. -/
theorem outcome_congr {replies replies' : Replies} {run : Inquiry α}
    (h : ∀ q ∈ run.asked replies, replies' q = replies q) : run.outcome replies' = run.outcome replies := by
  induction run with
  | ends result => rfl
  | asks q next ih =>
    rw [asked] at h
    have hq := h q (by simp)
    simp only [outcome, hq]
    cases hreply : replies q with
    | error e => rfl
    | ok a => exact ih a fun q' hq' => h q' (by simp [hreply, hq'])

/-- A query that an inquiry makes is not passed over: its refusal is the outcome. -/
theorem outcome_refuse {replies : Replies} {run : Inquiry α} {q : Query} (h : q ∈ run.asked replies) (e : Error) :
    run.outcome (replies.refuse q e) = .error e := by
  induction run with
  | ends result => cases h
  | asks q' next ih =>
    rw [asked] at h
    rw [outcome]
    by_cases hq : q' = q
    · subst hq
      rw [Replies.refuse_same]
      rfl
    · rw [Replies.refuse_of_ne _ _ hq]
      rcases List.mem_cons.1 h with hhead | htail
      · exact absurd hhead.symm hq
      · cases hreply : replies q' with
        | error e' => simp [hreply] at htail
        | ok a => exact ih a (by simpa [hreply] using htail)

/-- **The queries that an inquiry makes** are those whose refusal, for whatever reason, is its outcome. -/
theorem mem_asked_iff {replies : Replies} {run : Inquiry α} {q : Query} :
    q ∈ run.asked replies ↔ ∀ e, run.outcome (replies.refuse q e) = .error e := by
  refine ⟨fun h e => outcome_refuse h e, fun h => ?_⟩
  by_contra hnot
  -- a query that is not made can be refused for different reasons, to the same effect
  have hsame (e : Error) : run.outcome (replies.refuse q e) = run.outcome replies :=
    outcome_congr fun q' hq' => replies.refuse_of_ne e fun heq => hnot (heq ▸ hq')
  have hboth : Error.unreadable = .undecodable := Except.error.inj <|
    calc Except.error .unreadable = run.outcome (replies.refuse q .unreadable) := (h .unreadable).symm
      _ = run.outcome (replies.refuse q .undecodable) := (hsame _).trans (hsame _).symm
      _ = .error .undecodable := h .undecodable
  cases hboth

/-- Either every query is answered, or the last one is refused and all others are answered. -/
theorem answered_or_refused (replies : Replies) (run : Inquiry α) :
    (∀ q ∈ run.asked replies, ∃ a, replies q = .ok a) ∨
      ∃ before q e, run.asked replies = before ++ [q] ∧ (∀ q' ∈ before, ∃ a, replies q' = .ok a) ∧
        replies q = .error e ∧ run.outcome replies = .error e := by
  induction run with
  | ends result => exact .inl (by simp [asked])
  | asks q next ih =>
    cases hreply : replies q with
    | error e => exact .inr ⟨[], q, e, by simp [asked, hreply], by simp, hreply, by simp [outcome, hreply]; rfl⟩
    | ok a =>
      have houtcome : (asks q next).outcome replies = (next a).outcome replies := by
        rw [outcome, hreply]
        rfl
      have hasked : (asks q next).asked replies = q :: (next a).asked replies := by rw [asked, hreply]
      rw [houtcome, hasked]
      rcases ih a with hall | ⟨before, q', e, hbefore, hok, hrefused, herror⟩
      · refine .inl fun q' hq' => ?_
        rcases List.mem_cons.1 hq' with rfl | hq'
        · exact ⟨a, hreply⟩
        · exact hall q' hq'
      · refine .inr ⟨q :: before, q', e, by rw [hbefore, List.cons_append], fun q'' hq'' => ?_, hrefused, herror⟩
        rcases List.mem_cons.1 hq'' with rfl | hq''
        · exact ⟨a, hreply⟩
        · exact hok q'' hq''

/-- If every query is answered, it does not matter for which reason others would be refused. -/
theorem outcome_blaming {replies : Replies} {run : Inquiry α}
    (h : ∀ q ∈ run.asked replies, ∃ a, replies q = .ok a) (e : Error) :
    run.outcome (replies.blaming e) = run.outcome replies :=
  outcome_congr fun q hq => by
    obtain ⟨a, ha⟩ := h q hq
    rw [Replies.blaming_of_ok e ha, ha]

end Inquiry

end ApiDoc
