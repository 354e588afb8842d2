import ApiDoc.Proofs.Run.Members

/-!
# Requests

What comes from outside is a type, a symbol or a file to be resolved.  `Environment.Visited` are the sessions
that such requests lead to, whatever came of them, and `Environment.Settled` those in which every one has
succeeded.  All of them are states of the machine, and in a settled one nothing is left open
(`Settled.reachable`).
-/

namespace ApiDoc

namespace Environment

variable {env : Environment} {D : Domain} {fail : Error → Prop} {g : env.Gauge D fail}
  {fs fs' : List Frame} {s s' : Session}

/-! ### Requests as runs -/

/-- A depth that suffices for everything. -/
def Gauge.Suffices (g : env.Gauge D fail) : Prop := ∀ {call s}, D.call call → g.ready env.depth call s

theorem exec_resolveType (hcov : env.Covers D fail) (hg : g.Suffices) {t : TypeId} (ht : D.type t)
    (hlead : env.Leads fs (.type t)) :
    env.Exec fail ⟨fs, s⟩ (env.resolveType t) fs fun r s' => s'.typeOf? t = some r :=
  (recur_serves hcov g env.depth).type ht (hg ht) hlead

theorem exec_resolveMember (hcov : env.Covers D fail) (hg : g.Suffices) {m : SymbolId}
    (hm : D.symbol m) (hlead : env.Leads fs (.symbol m)) :
    env.Exec fail ⟨fs, s⟩ (env.resolveMember m) fs fun v s' => env.HoldsMember s' m v :=
  (recur_serves hcov g env.depth).member hm (hg hm) hlead

theorem exec_exportedMember (hcov : env.Covers D fail) (hg : g.Suffices) {m : SymbolId}
    (hm : D.symbol m) (hlead : env.Leads fs (.symbol m)) :
    env.Exec fail ⟨fs, s⟩ (env.exportedMember m) fs fun v s' => env.HoldsMember s' m v := by
  unfold exportedMember
  refine (exec_resolveMember hcov hg hm hlead).bind fun v s₁ _ hv => ?_
  cases v with
  | none => exact .pure hv
  | some r =>
    refine .ask (hcov.symbolName hm) fun name _ _ => .of_reachable fun hc => ?_
    obtain ⟨member, hmember⟩ := hc.exists_memberAt? hv.1
    refine .getMember hmember ?_
    exact .step_then (.refl fs) (Session.setMember_run _ _) (.export hmember) fun hs => .pure (hv.mono hs)

theorem Covers.imports (hcov : env.Covers D fail) {f : FileId} (hf : D.file f) (isModule : Bool) :
    Meets fail (env.imports f isModule) fun _ => True := by
  unfold Environment.imports
  cases isModule with
  | true =>
    refine (hcov.resolvedModules hf).bind fun modules _ _ => ?_
    exact (hcov.referencedFiles hf).bind fun _ _ _ => .pure trivial
  | false => exact (hcov.referencedFiles hf).bind fun _ _ _ => .pure trivial

theorem Covers.fileTitle (hcov : env.Covers D fail) {f : FileId} (hf : D.file f) (facts : FileFacts)
    (fileName : String) : Meets fail (env.fileTitle f facts fileName) fun _ => True := by
  unfold Environment.fileTitle
  split
  · exact .pure trivial
  · exact (hcov.moduleName hf).bind fun _ _ _ => .pure trivial

theorem exec_fileMembers (hcov : env.Covers D fail) (hg : g.Suffices) {f : FileId} (hf : D.file f)
    (hfs : ∀ e, ¬ WorksOn fs e) (isModule : Bool) :
    env.Exec fail ⟨fs, s⟩ (env.fileMembers f isModule) fs fun _ _ => True := by
  -- nothing is worked on, so anything may come next
  have hlead {e : Entity} : env.Leads fs e := fun a ha => absurd ha (hfs a)
  unfold fileMembers
  cases isModule with
  | true =>
    refine .ask (hcov.fileNode hf) fun node _ hnode => ?_
    refine .ask (hcov.symbolAtLocation hnode) fun m _ hm => ?_
    refine .ask (hcov.exportsOfModule hm) fun ms _ hms => ?_
    exact Exec.bind (Exec.mapM (R := fun _ _ _ => True) (fun _ h => h) fun m' hm' _ _ =>
      (exec_exportedMember hcov hg (hms m' hm') hlead).mono fun _ _ _ _ => trivial)
      fun _ _ _ _ => .pure trivial
  | false =>
    refine .ask (hcov.fileLocals hf) fun ms _ hms => ?_
    exact Exec.bind (Exec.mapM (R := fun _ _ _ => True) (fun _ h => h) fun m' hm' _ _ =>
      (exec_resolveMember hcov hg (hms m' hm') hlead).mono fun _ _ _ _ => trivial)
      fun _ _ _ _ => .pure trivial

/-- **Resolving a file is a run of the machine.** -/
theorem exec_resolveFile (hcov : env.Covers D fail) (hg : g.Suffices) {f : FileId} (hf : D.file f)
    (hfs : ∀ e, ¬ WorksOn fs e) :
    env.Exec fail ⟨fs, s⟩ (env.resolveFile f) fs fun _ _ => True := by
  unfold resolveFile
  refine .ask (hcov.fileName hf) fun fileName _ _ => ?_
  refine .ask (hcov.fileText hf) fun text htext _ => ?_
  refine .ask (hcov.fileFacts hf htext) fun facts _ _ => ?_
  refine .ask (hcov.isExternalModule hf) fun isModule _ _ => ?_
  refine .ask (hcov.fileTitle hf facts _) fun name _ _ => ?_
  refine .ask (hcov.isDeclarationFile hf) fun declaration _ _ => ?_
  refine .ask (hcov.imports hf isModule) fun imports _ _ => ?_
  exact (exec_fileMembers hcov hg hf hfs isModule).bind fun _ _ _ _ => .pure trivial

theorem exec_resolveFiles (hcov : env.Covers D fail) (hg : g.Suffices) {files : List FileId}
    (hfiles : ∀ f ∈ files, D.file f) (hfs : ∀ e, ¬ WorksOn fs e) :
    env.Exec fail ⟨fs, s⟩ (files.mapM env.resolveFile) fs fun _ _ => True :=
  (Exec.mapM (R := fun _ _ _ => True) (fun _ h => h) fun f hf _ _ =>
    exec_resolveFile hcov hg (hfiles f hf) hfs).mono fun _ _ _ _ => trivial

/-! ### Sessions -/

namespace Exec

variable {α : Type} {x : Resolve α} {post : α → Session → Prop}

theorem of_ok (h : env.Exec fail ⟨fs, s⟩ x fs' post) (hc : env.Reachable ⟨fs, s⟩) {a : α}
    (hrun : x.run.run s = (.ok a, s')) : env.Steps ⟨fs, s⟩ ⟨fs', s'⟩ ∧ post a s' := by
  have hx := h hc
  rwa [show x.run.run (Stage.mk fs s).session = (.ok a, s') from hrun] at hx

theorem of_error (h : env.Exec fail ⟨fs, s⟩ x fs' post) (hc : env.Reachable ⟨fs, s⟩) {e : Error}
    (hrun : x.run.run s = (.error e, s')) :
    fail e ∧ ∃ fs'', env.Steps ⟨fs, s⟩ ⟨fs'', s'⟩ ∧ env.Leaves e s' fs fs'' := by
  have hx := h hc
  rwa [show x.run.run (Stage.mk fs s).session = (.error e, s') from hrun] at hx

/-- Whatever comes of a piece of the resolver, steps lead to the session that it leaves. -/
theorem steps (h : env.Exec fail ⟨fs, s⟩ x fs' post) (hc : env.Reachable ⟨fs, s⟩) :
    ∃ fs'', env.Steps ⟨fs, s⟩ ⟨fs'', (x.run.run s).2⟩ := by
  rcases hrun : x.run.run s with ⟨r, s'⟩
  cases r with
  | ok a => exact ⟨fs', (h.of_ok hc hrun).1⟩
  | error e =>
    obtain ⟨-, fs'', hsteps, -⟩ := h.of_error hc hrun
    exact ⟨fs'', hsteps⟩

/-- Whatever comes of a request, the session is reachable. -/
theorem reachable (h : env.Exec fail ⟨fs, s⟩ x fs' post) (hc : env.Reachable ⟨fs, s⟩) :
    ∃ fs'', env.Reachable ⟨fs'', (x.run.run s).2⟩ := by
  obtain ⟨fs'', hsteps⟩ := h.steps hc
  exact ⟨fs'', hc.steps hsteps⟩

end Exec

variable (env) in
/-- The sessions that requests about known handles lead to. -/
inductive Visited (D : Domain) : Session → Prop
  | start : Visited D {}
  | type {s t} : Visited D s → D.type t → Visited D ((env.resolveType t).run.run s).2
  | member {s m} : Visited D s → D.symbol m → Visited D ((env.resolveMember m).run.run s).2
  | file {s f} : Visited D s → D.file f → Visited D ((env.resolveFile f).run.run s).2

variable (env) in
/-- The sessions that successful requests lead to. -/
inductive Settled : Session → Prop
  | start : Settled {}
  | type {s s' t r} : Settled s → (env.resolveType t).run.run s = (.ok r, s') → Settled s'
  | member {s s' m v} : Settled s → (env.resolveMember m).run.run s = (.ok v, s') → Settled s'
  | file {s s' f file} : Settled s → (env.resolveFile f).run.run s = (.ok file, s') → Settled s'

variable (env) in
/-- Nothing needs to be measured where every error will do. -/
def freeGauge : env.Gauge .all fun _ => True where
  ready _ _ _ := True
  zero _ _ := trivial
  succ _ := trivial
  mono _ _ := trivial
  newType _ _ _ _ _ := trivial
  newMember _ _ _ _ _ := trivial
  substitution _ _ _ _ := trivial
  belowType _ _ := trivial
  belowMember _ _ := trivial
  nested _ _ _ _ := trivial

theorem freeGauge_suffices : env.freeGauge.Suffices := fun _ => trivial

theorem not_worksOn_nil (e : Entity) : ¬ WorksOn [] e := by
  rintro ⟨f, rest, hnil, -⟩
  simp at hnil

theorem not_worksOn_request (fs : List Frame) (e : Entity) : ¬ WorksOn (.request :: fs) e := by
  rintro ⟨f, rest, heq, hf⟩
  obtain ⟨rfl, rfl⟩ := List.cons.inj heq
  simp [Frame.entity?] at hf

theorem leads_request (fs : List Frame) (e : Entity) : env.Leads (.request :: fs) e :=
  fun a ha => absurd ha (not_worksOn_request fs a)

/-- A session that requests lead to is a state of the machine. -/
theorem Visited.reachable (hcov : env.Covers D fail) (hg : g.Suffices) (h : env.Visited D s) :
    ∃ fs, env.Reachable ⟨fs, s⟩ := by
  induction h with
  | start => exact ⟨[], .start⟩
  | type _ ht ih =>
    obtain ⟨fs, hc⟩ := ih
    exact (exec_resolveType hcov hg ht (leads_request fs _)).reachable hc.again
  | member _ hm ih =>
    obtain ⟨fs, hc⟩ := ih
    exact (exec_resolveMember hcov hg hm (leads_request fs _)).reachable hc.again
  | file _ hf ih =>
    obtain ⟨fs, hc⟩ := ih
    exact (exec_resolveFile hcov hg hf (not_worksOn_request fs)).reachable hc.again

/-- A settled session is where steps from the empty one lead, with nothing left open. -/
theorem Settled.steps (h : env.Settled s) : env.Steps ⟨[], {}⟩ ⟨[], s⟩ := by
  have hcov := env.covers_all
  have hlead {e : Entity} : env.Leads [] e := fun a ha => absurd ha (not_worksOn_nil a)
  have hstart : env.Reachable ⟨[], {}⟩ := .start
  induction h with
  | start => exact .refl
  | type _ hrun ih =>
    exact ih.trans ((exec_resolveType hcov freeGauge_suffices trivial hlead).of_ok
      (hstart.steps ih) hrun).1
  | member _ hrun ih =>
    exact ih.trans ((exec_resolveMember hcov freeGauge_suffices trivial hlead).of_ok
      (hstart.steps ih) hrun).1
  | file _ hrun ih =>
    exact ih.trans ((exec_resolveFile hcov freeGauge_suffices trivial not_worksOn_nil).of_ok
      (hstart.steps ih) hrun).1

/-- **A settled session** is a state of the machine in which nothing is open. -/
theorem Settled.reachable (h : env.Settled s) : env.Reachable ⟨[], s⟩ := Reachable.start.steps h.steps

/-! ### Projects -/

variable (env) in
/-- The session that putting a project together ends with. -/
def assembly (files : List FileId) : Session := ((files.mapM env.resolveFile).run.run {}).2

theorem assemble_eq_ok {files : List FileId} {project : Project} (h : env.assemble files = .ok project) :
    ∃ resolved, (files.mapM env.resolveFile).run.run {} = (.ok resolved, env.assembly files) ∧
      project = { files := resolved, graph := (env.assembly files).graph } := by
  unfold assemble at h
  unfold assembly
  generalize (files.mapM env.resolveFile).run.run {} = p at h ⊢
  obtain ⟨r, s⟩ := p
  cases r with
  | error e => cases h
  | ok resolved => exact ⟨resolved, rfl, (Except.ok.inj h).symm⟩

theorem assemble_graph {files : List FileId} {project : Project} (h : env.assemble files = .ok project) :
    project.graph = (env.assembly files).graph := by
  obtain ⟨resolved, -, rfl⟩ := assemble_eq_ok h
  rfl

/-- What holds of a session still holds when files have been resolved, if each file leaves it so. -/
theorem resolveFiles_induction {P : Session → Prop}
    (hstep : ∀ {s s' f file}, P s → (env.resolveFile f).run.run s = (.ok file, s') → P s') {files : List FileId}
    {resolved : List SourceFile} (hs : P s) (hrun : (files.mapM env.resolveFile).run.run s = (.ok resolved, s')) :
    P s' := by
  induction files generalizing s resolved with
  | nil =>
    obtain rfl : s = s' := congrArg Prod.snd hrun
    exact hs
  | cons f files ih =>
    rw [List.mapM_cons] at hrun
    obtain ⟨file, s₁, hfile, hrun⟩ := Exec.bind_eq_ok hrun
    obtain ⟨rest, s₂, hrest, hrun⟩ := Exec.bind_eq_ok hrun
    obtain rfl : s₂ = s' := congrArg Prod.snd hrun
    exact ih (hstep hs hfile) hrest

/-- The session of a project is settled. -/
theorem settled_assembly {files : List FileId} {project : Project}
    (h : env.assemble files = .ok project) : env.Settled (env.assembly files) := by
  obtain ⟨resolved, hrun, -⟩ := assemble_eq_ok h
  exact resolveFiles_induction (P := env.Settled) (fun hs hfile => hs.file hfile) .start hrun

end Environment

end ApiDoc
