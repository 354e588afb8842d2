import ApiDoc.Proofs.Backfill.Members

/-!
# Completion fills gaps only

Whatever the settings say about completing documentation, the project is the same as without completion, apart from
texts that were missing (`Project.CompletedTo`).  The two runs are compared step by step: from twins the resolvers go in
lock step, so in the end the projects fail alike or differ as twins do (`Environment.assemble_completes`).
-/

namespace ApiDoc

/-- A member as it may look after completion.  Apart from its texts it is the same.  A text that says something has
stayed, tags were only added, and nothing ceased to be hidden or virtual.  Only the summary of a class or interface may
have grown, by what its index signature says in the end. -/
structure Member.CompletedTo (graph : Graph) (own full : Member) : Prop where
  texts : own.Fills full
  summary : Text.Kept own.doc.summary full.doc.summary ∨
    ∃ c r indexer, own.class? = some c ∧ c.indexer = some r ∧ graph.member r = .ok indexer ∧
      full.doc.summary = NamedTexts.joinText (some own.doc.summary) indexer.doc.summary

/-- A project as it may look after completion: the same files and types, and as many members, each completed. -/
structure Project.CompletedTo (own full : Project) : Prop where
  files : full.files = own.files
  types : full.graph.types = own.graph.types
  size : full.graph.members.size = own.graph.members.size
  members {r m m'} : own.graph.member r = .ok m → full.graph.member r = .ok m' → m.CompletedTo full.graph m'

namespace Environment

variable {env : Environment} {s s' : Session}

/-- What a signature said when its class was built is what it says in the end. -/
theorem Fills.completedTo {own full : Member} (h : env.Fills s' own full) : own.CompletedTo s'.graph full where
  texts := h.texts
  summary := by
    refine h.summary.imp_right fun ⟨c, r, text, hbody, hindexer, ⟨_, indexer, _, _, hat, htext, _⟩, hsummary⟩ => ?_
    exact ⟨c, r, indexer, by rw [Member.class?, hbody], hindexer, Graph.member_eq_ok_iff.2 hat, htext ▸ hsummary⟩

theorem Twin.completedTo (h : env.Twin s s') (files : List SourceFile) :
    Project.CompletedTo { files, graph := s.graph } { files, graph := s'.graph } where
  files := rfl
  types := h.types
  size := h.size
  members hown hfull := (h.member (Graph.member_eq_ok_iff.1 hown) (Graph.member_eq_ok_iff.1 hfull)).completedTo

/-- **Completion fills gaps and changes nothing else.** -/
theorem assemble_completes (env : Environment) (files : List FileId) :
    (∃ e, env.withoutBackfill.assemble files = .error e ∧ env.assemble files = .error e) ∨
      ∃ own full, env.withoutBackfill.assemble files = .ok own ∧ env.assemble files = .ok full ∧
        own.CompletedTo full := by
  have hagree : env.Agree {} {} (files.mapM env.withoutBackfill.resolveFile) (files.mapM env.resolveFile) :=
    .mapM fun f _ _ => agree_resolveFile f
  have houtcome := hagree .empty
  unfold assemble
  generalize (files.mapM env.withoutBackfill.resolveFile).run.run {} = p,
    (files.mapM env.resolveFile).run.run {} = p' at houtcome
  cases houtcome with
  | error => exact .inl ⟨_, rfl, rfl⟩
  | ok htwin _ hsame =>
    subst hsame
    exact .inr ⟨_, _, rfl, rfl, htwin.completedTo _⟩

end Environment

end ApiDoc
