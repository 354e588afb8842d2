import ApiDoc.Proofs.Memos

/-!
# What was interrupted

A request that fails may leave places behind that it has reserved and not filled.  Looking back on all requests so
far, these are the only places that are unfinished: what stands in the place of a key is what its symbol is documented
as, unless an earlier request failed in the middle of that very symbol's resolution (`Environment.tidy_after`).
-/

namespace ApiDoc

namespace Environment

variable (env : Environment)

/-- A request fails with an error. -/
def FailsWith (s : Session) (e : Error) : Request → Prop
  | .type t => ((env.resolveType t).run.run s).1 = .error e
  | .member m => ((env.resolveMember m).run.run s).1 = .error e
  | .file f => ((env.resolveFile f).run.run s).1 = .error e

/-- One of some requests has failed in the middle of the resolution of a key, and has left a place behind for it. -/
def Interrupted (requests : List Request) (key : MemberKey) : Prop :=
  ∃ before request later e, requests = before ++ request :: later ∧ env.FailsWith (env.after {} before) e request ∧
    (env.after {} (before ++ [request])).memberOf? key ≠ none ∧
    env.FailedMember e (env.after {} (before ++ [request])) key

/-- The keys that may be unfinished after some requests. -/
def interruptedBy (requests : List Request) : Context := ⟨env.Interrupted requests, fun _ => False⟩

variable {env} {ctx : Context} {s : Session} {α : Type}

/-- Only what is remembered can be pending. -/
theorem Tidy.remembered (h : env.Tidy ctx s) :
    env.Tidy { ctx with pending := fun key => ctx.pending key ∧ s.memberOf? key ≠ none } s :=
  { h with
    finished := fun {key r} hr => by
      obtain ⟨member, hat, hmember⟩ := h.finished hr
      exact ⟨member, hat, hmember.imp_right fun hp => ⟨⟨hp.1, by simp [hr]⟩, hp.2⟩⟩ }

/-- Whatever comes of a piece, what is pending then was so before, or was interrupted. -/
theorem Safe.outcome {x : Resolve α} {post : α → Session → Prop} (h : env.Safe ctx s x post) (ht : env.Tidy ctx s) :
    env.Tidy { ctx with pending := fun key => ctx.pending key ∨ ∃ e, (x.run.run s).1 = .error e ∧
      (x.run.run s).2.memberOf? key ≠ none ∧ env.FailedMember e (x.run.run s).2 key } (x.run.run s).2 := by
  have hx := h ht
  generalize x.run.run s = p at hx ⊢
  obtain ⟨r, s'⟩ := p
  cases r with
  | ok a => exact hx.1.weaken (fun _ => .inl) fun _ => id
  | error e =>
    refine hx.1.remembered.weaken ?_ fun _ => id
    rintro key ⟨hp | hfailed, hmet⟩
    · exact .inl hp
    · exact .inr ⟨e, rfl, hmet, hfailed⟩

theorem Interrupted.more {requests : List Request} {key : MemberKey} (h : env.Interrupted requests key)
    (request : Request) : env.Interrupted (requests ++ [request]) key := by
  obtain ⟨before, failing, later, e, rfl, hrest⟩ := h
  exact ⟨before, failing, later ++ [request], e, by simp, hrest⟩

/-- Nothing was interrupted before anything was asked. -/
theorem not_interrupted_nil (key : MemberKey) : ¬ env.Interrupted [] key := by
  rintro ⟨before, request, later, e, h, -⟩
  simp at h

theorem after_append (s : Session) (requests : List Request) (request : Request) :
    env.after s (requests ++ [request]) = env.afterRequest (env.after s requests) request := by
  simp [after]

/-- **Only what was interrupted is unfinished**, whatever was asked before and whatever came of it. -/
theorem tidy_after (env : Environment) (requests : List Request) :
    env.Tidy (env.interruptedBy requests) (env.after {} requests) := by
  induction requests using List.reverseRecOn with
  | nil => exact Tidy.empty.weaken (fun _ h => h.elim) fun _ => id
  | append_singleton requests request ih =>
    have hstep {α : Type} {x : Resolve α} {post : α → Session → Prop}
        (h : env.Safe (env.interruptedBy requests) (env.after {} requests) x post)
        (hafter : env.afterRequest (env.after {} requests) request = (x.run.run (env.after {} requests)).2)
        (hfails : ∀ e, (x.run.run (env.after {} requests)).1 = .error e →
          env.FailsWith (env.after {} requests) e request) :
        env.Tidy (env.interruptedBy (requests ++ [request])) (env.after {} (requests ++ [request])) := by
      rw [after_append, hafter]
      refine (h.outcome ih).weaken ?_ fun _ => id
      rintro key (hold | ⟨e, herror, hmet, hfailed⟩)
      · exact hold.more request
      · refine ⟨requests, request, [], e, rfl, hfails e herror, ?_⟩
        rw [after_append, hafter]
        exact ⟨hmet, hfailed⟩
    cases request with
    | type t => exact hstep (safe_resolveType t) rfl fun _ => id
    | member m => exact hstep (safe_resolveMember m) rfl fun _ => id
    | file f => exact hstep (safe_resolveFile f) rfl fun _ => id

/-- A key is remembered once. -/
theorem single_after (env : Environment) (requests : List Request) : (env.after {} requests).Single := by
  obtain ⟨⟨_, hc⟩, -⟩ := env.after_reachable requests .start
  exact hc.single

/-- The session in which a symbol has been resolved is one that requests lead to. -/
theorem after_member {requests : List Request} {m : SymbolId} {v : Option MemberRef} {s' : Session}
    (hrun : (env.resolveMember m).run.run (env.after {} requests) = (.ok v, s')) :
    env.after {} (requests ++ [.member m]) = s' := by
  rw [after_append]
  exact congrArg Prod.snd hrun

/-- So is the session of a project. -/
theorem exists_after_assembly {files : List FileId} {project : Project} (h : env.assemble files = .ok project) :
    ∃ requests, env.assembly files = env.after {} requests := by
  obtain ⟨resolved, hrun, -⟩ := assemble_eq_ok h
  refine resolveFiles_induction (P := fun s => ∃ requests, s = env.after {} requests) ?_ ⟨[], rfl⟩ hrun
  rintro s s' f file ⟨requests, rfl⟩ hfile
  refine ⟨requests ++ [.file f], ?_⟩
  rw [after_append]
  exact (congrArg Prod.snd hfile).symm

/-- What a request that succeeds has met for the first time is finished. -/
theorem finished_of_new {requests : List Request} {m : SymbolId} {v : Option MemberRef} {s' : Session}
    (hnew : (env.after {} requests).memberOf? (.symbol m) = none)
    (hrun : (env.resolveMember m).run.run (env.after {} requests) = (.ok v, s')) {r : MemberRef}
    (hr : s'.memberOf? (.symbol m) = some (some r)) :
    ∃ member, s'.memberAt? r = some member ∧ env.Finished s' (.symbol m) member := by
  obtain ⟨ht, -, -⟩ := (safe_resolveMember m).of_ok (tidy_after env requests).remembered hrun
  obtain ⟨member, hat, hfinished | ⟨⟨-, hmet⟩, -⟩⟩ := ht.finished hr
  · exact ⟨member, hat, hfinished⟩
  · exact absurd hnew hmet

/-- What stands in the place of a symbol that was resolved: its finished member, or else the placeholder that an earlier
request left there, and then nothing was done. -/
theorem finished_or_interrupted {requests : List Request} {m : SymbolId} {v : Option MemberRef} {s' : Session}
    (hrun : (env.resolveMember m).run.run (env.after {} requests) = (.ok v, s')) {r : MemberRef}
    (hr : s'.memberOf? (.symbol m) = some (some r)) :
    ∃ member, s'.memberAt? r = some member ∧ (env.Finished s' (.symbol m) member ∨
      env.Interrupted requests (.symbol m) ∧ env.IsPlaceholder (.symbol m) member ∧ s' = env.after {} requests) := by
  cases hold : (env.after {} requests).memberOf? (.symbol m) with
  | none =>
    obtain ⟨member, hat, hfinished⟩ := finished_of_new hold hrun hr
    exact ⟨member, hat, .inl hfinished⟩
  | some v' =>
    obtain rfl : env.after {} requests = s' := congrArg Prod.snd ((resolveMember_run hold).symm.trans hrun)
    obtain ⟨member, hat, hmember⟩ := (tidy_after env requests).finished hr
    exact ⟨member, hat, hmember.imp_right fun h => ⟨h.1, h.2, rfl⟩⟩

end Environment

end ApiDoc
