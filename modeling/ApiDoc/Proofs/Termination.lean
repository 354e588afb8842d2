import ApiDoc.Proofs.Program.WellFormed
import ApiDoc.Proofs.Run.Requests

/-!
# Resolution ends

However the types and symbols of a well-formed program refer to each other, resolving comes to an end: it
succeeds, or the checker itself has failed (`Program.resolution_ends`).

What goes down is counted first by the types, symbols and companions that were not met yet
(`Session.unmet`).  A step that meets nothing new follows a substitution, or makes a member of a class anew:
the first is bounded by the chain of substitutions, the second by how deep classes are nested, and
either is less than what one new meeting is worth (`Program.gauge`).
-/

namespace ApiDoc

/-! ### What was not met yet -/

namespace Session

/-- How many of the first types, symbols and companions were not met yet. -/
def unmet (s : Session) (types symbols : Nat) : Nat :=
  ((Finset.range types).filter fun i => s.typeOf? ⟨i⟩ = none).card +
  ((Finset.range symbols).filter fun i => s.memberOf? (.symbol ⟨i⟩) = none).card +
  ((Finset.range symbols).filter fun i => s.memberOf? (.companion ⟨i⟩) = none).card

variable {s s' : Session} {types symbols : Nat}

theorem unmet_le (s : Session) (types symbols : Nat) : s.unmet types symbols ≤ types + symbols + symbols := by
  have ht := Finset.card_filter_le (Finset.range types) fun i => s.typeOf? ⟨i⟩ = none
  have hm := Finset.card_filter_le (Finset.range symbols) fun i => s.memberOf? (.symbol ⟨i⟩) = none
  have hk := Finset.card_filter_le (Finset.range symbols) fun i => s.memberOf? (.companion ⟨i⟩) = none
  rw [Finset.card_range] at ht hm hk
  unfold unmet
  omega

/-- Fewer are left if none comes back. -/
theorem card_unmet_le {α : Type} {n : Nat} {f f' : Nat → Option α} (h : ∀ i, f' i = none → f i = none) :
    ((Finset.range n).filter fun i => f' i = none).card ≤
      ((Finset.range n).filter fun i => f i = none).card :=
  Finset.card_le_card (Finset.monotone_filter_right _ fun i _ => h i)

theorem card_unmet_lt {α : Type} {n i : Nat} {f f' : Nat → Option α} (h : ∀ i, f' i = none → f i = none)
    (hi : i < n) (hf : f i = none) (hf' : f' i ≠ none) :
    ((Finset.range n).filter fun i => f' i = none).card <
      ((Finset.range n).filter fun i => f i = none).card := by
  have hsub := Finset.monotone_filter_right (Finset.range n) fun i _ => h i
  refine Finset.card_lt_card ((Finset.ssubset_iff_of_subset hsub).2 ⟨i, ?_, ?_⟩)
  · simp [hi, hf]
  · simp [hf']

/-- Nothing that was met is forgotten. -/
theorem unmet_mono (h : s.Extends s') : s'.unmet types symbols ≤ s.unmet types symbols := by
  have htype : ∀ t, s'.typeOf? t = none → s.typeOf? t = none := by
    refine fun t ht => Option.eq_none_iff_forall_ne_some.2 fun r hr => ?_
    simp [h.typeOf hr] at ht
  have hmember : ∀ key, s'.memberOf? key = none → s.memberOf? key = none := by
    refine fun key hkey => Option.eq_none_iff_forall_ne_some.2 fun v hv => ?_
    simp [h.memberOf hv] at hkey
  exact Nat.add_le_add (Nat.add_le_add (card_unmet_le fun i => htype ⟨i⟩)
    (card_unmet_le fun i => hmember (.symbol ⟨i⟩))) (card_unmet_le fun i => hmember (.companion ⟨i⟩))

theorem unmet_addType {t : TypeId} (ht : t.index < types) (hnew : s.typeOf? t = none)
    (node : TypeNode) : (s.addType t node).unmet types symbols < s.unmet types symbols := by
  have htype : ∀ u, (s.addType t node).typeOf? u = none → s.typeOf? u = none := by
    intro u hu
    rw [typeOf?_addType] at hu
    split at hu
    · simp at hu
    · exact hu
  have hself : (s.addType t node).typeOf? t ≠ none := by simp [typeOf?_addType]
  exact Nat.add_lt_add_of_lt_of_le (Nat.add_lt_add_of_lt_of_le
    (card_unmet_lt (fun i => htype ⟨i⟩) ht hnew hself) (card_unmet_le fun _ h => h))
    (card_unmet_le fun _ h => h)

theorem unmet_addMember {key : MemberKey} (hkey : key.owner.index < symbols)
    (hnew : s.memberOf? key = none) (member : Member) :
    (s.addMember key member).unmet types symbols < s.unmet types symbols := by
  have hmember : ∀ k, (s.addMember key member).memberOf? k = none → s.memberOf? k = none := by
    intro k hk
    rw [memberOf?_addMember] at hk
    split at hk
    · simp at hk
    · exact hk
  have hself : (s.addMember key member).memberOf? key ≠ none := by simp [memberOf?_addMember]
  have htypes : ∀ i : Nat, (s.addMember key member).typeOf? ⟨i⟩ = none → s.typeOf? ⟨i⟩ = none :=
    fun _ h => h
  cases key with
  | symbol m =>
    exact Nat.add_lt_add_of_lt_of_le (Nat.add_lt_add_of_le_of_lt (card_unmet_le htypes)
      (card_unmet_lt (fun i => hmember (.symbol ⟨i⟩)) hkey hnew hself))
      (card_unmet_le fun i => hmember (.companion ⟨i⟩))
  | companion m =>
    exact Nat.add_lt_add_of_le_of_lt (Nat.add_le_add (card_unmet_le htypes)
      (card_unmet_le fun i => hmember (.symbol ⟨i⟩)))
      (card_unmet_lt (fun i => hmember (.companion ⟨i⟩)) hkey hnew hself)

end Session

/-! ### How deep a call may go -/

namespace Program

variable (p : Program) (config : Config)

/-- The chains of a program end: no node lies around itself, no type stands for itself or inherits from
itself, and no class is nested in itself. -/
structure ChainsEnd : Prop where
  parents : Acyclic p.IsParent
  substitutions : Acyclic p.IsSubstitute
  bases : Acyclic p.InheritsFrom
  nesting : Acyclic (p.environment {}).Contains

/-- What one new meeting is worth. -/
def places : Nat := p.types.size + p.symbols.size + 4

/-- How many links may follow before something new is met. -/
noncomputable def links : Call → Nat
  | .type t => 1 + rank p.IsSubstitute TypeId.mk p.types.size t
  | .member _ => 1
  | .build m => p.types.size + 2 + rank (p.environment {}).Contains SymbolId.mk p.symbols.size m

/-- How deep a call may go. -/
noncomputable def need (call : Call) (s : Session) : Nat :=
  s.unmet p.types.size p.symbols.size * p.places + p.links call

variable {p config}

theorem links_pos (call : Call) : 1 ≤ p.links call := by
  cases call <;> simp only [links] <;> omega

theorem links_lt_places (call : Call) : p.links call < p.places := by
  cases call with
  | type t =>
    have := rank_le p.IsSubstitute TypeId.mk p.types.size t
    simp only [links, places]
    omega
  | member m => simp only [links, places]; omega
  | build m =>
    have := rank_le (p.environment {}).Contains SymbolId.mk p.symbols.size m
    simp only [links, places]
    omega

/-- After a new meeting everything goes less deep. -/
theorem need_lt {s s' : Session} {call call' : Call}
    (h : s'.unmet p.types.size p.symbols.size < s.unmet p.types.size p.symbols.size) :
    p.need call' s' < p.need call s := by
  have hmul := Nat.mul_le_mul_right p.places (Nat.succ_le_of_lt h)
  rw [Nat.succ_mul] at hmul
  have hlinks := p.links_lt_places call'
  have hpos := p.links_pos call
  unfold need
  omega

/-- Following a substitution goes one link less deep. -/
theorem links_substitution (hc : p.ChainsEnd) {t base : TypeId} (hbase : p.domain.type base)
    (hsub : p.checker.substitutionBase t = .ok (some base)) :
    p.links (.type base) < p.links (.type t) := by
  obtain ⟨data, hdata, hlink⟩ := map_eq_ok_iff.1 hsub
  have hget : p.types.get? t.index = some data := Error.orOutOfBounds_eq_ok_iff.1 hdata
  have hlt : rank p.IsSubstitute TypeId.mk p.types.size base <
      rank p.IsSubstitute TypeId.mk p.types.size t :=
    @rank_lt _ _ _ _ base.index _ hc.substitutions hbase ⟨data, hget, hlink⟩
  simp only [links]
  omega

/-- Making a member of a class anew goes one link less deep. -/
theorem links_contains (hc : p.ChainsEnd) {m m' : SymbolId} (hm' : p.domain.symbol m')
    (h : (p.environment config).Contains m m') : p.links (.build m') < p.links (.build m) := by
  have hlt : rank (p.environment {}).Contains SymbolId.mk p.symbols.size m' <
      rank (p.environment {}).Contains SymbolId.mk p.symbols.size m :=
    @rank_lt _ _ _ _ m'.index _ hc.nesting hm' h
  simp only [links]
  omega

/-- A depth suffices for what does not need more. -/
noncomputable def gauge (config : Config) (hc : p.ChainsEnd) :
    (p.environment config).Gauge p.domain IsReported where
  ready d call s := p.need call s ≤ d
  zero {call s} h _ := by
    have := p.links_pos call
    unfold need at h
    omega
  succ h := Nat.le_succ_of_le h
  mono {d call s s'} hs h :=
    Nat.le_trans (Nat.add_le_add_right (Nat.mul_le_mul_right _ (Session.unmet_mono hs)) _) h
  -- one new meeting pays for all links that may follow
  newType {d call t node s} h ht hnew call' _ :=
    Nat.le_of_lt_succ (Nat.lt_of_lt_of_le (need_lt (Session.unmet_addType ht hnew node)) h)
  newMember {d call key member s} h hkey hnew call' _ :=
    Nat.le_of_lt_succ (Nat.lt_of_lt_of_le (need_lt (Session.unmet_addMember hkey hnew member)) h)
  -- nothing new is met, but one link is used up
  substitution h _ hbase hsub := by
    have := links_substitution hc hbase hsub
    unfold need at h ⊢
    omega
  belowType {d m t s} h _ := by
    have := rank_le p.IsSubstitute TypeId.mk p.types.size t
    simp only [need, links] at h ⊢
    omega
  belowMember h _ := by
    simp only [need, links] at h ⊢
    omega
  nested h _ hm' hcontains := by
    have := links_contains hc hm' hcontains
    unfold need at h ⊢
    omega

theorem gauge_suffices (config : Config) (hc : p.ChainsEnd) : (p.gauge config hc).Suffices := by
  intro call s _
  have hunmet := s.unmet_le p.types.size p.symbols.size
  have hplaces : s.unmet p.types.size p.symbols.size ≤ 2 * p.places := by
    unfold places
    omega
  -- both what is needed and the depth grow with the square of the number of places
  have hmul := Nat.mul_le_mul_right p.places hplaces
  have hlinks := p.links_lt_places call
  have hsquare : p.places ≤ p.places * p.places := Nat.le_mul_self p.places
  have hdepth : (p.environment config).depth = 16 * p.places * p.places := rfl
  change p.need call s ≤ (p.environment config).depth
  rw [hdepth, Nat.mul_assoc]
  rw [Nat.mul_assoc] at hmul
  unfold need
  omega

/-! ### The end -/

/-- A result, or an error that the checker reported. -/
def Ends {α : Type} (x : Except Error α) : Prop :=
  (∃ a, x = .ok a) ∨ ∃ e, x = .error e ∧ e.ofChecker = true

theorem ends_of_exec {α : Type} {env : Environment} {x : Resolve α} {fs fs' : List Frame} {s : Session}
    {post : α → Session → Prop} (h : env.Exec IsReported ⟨fs, s⟩ x fs' post)
    (hc : env.Reachable ⟨fs, s⟩) : Ends (x.run.run s).1 := by
  rcases hrun : x.run.run s with ⟨r, s'⟩
  cases r with
  | ok a => exact .inl ⟨a, rfl⟩
  | error e => exact .inr ⟨e, rfl, (h.of_error hc hrun).1⟩

/-- **Resolution ends** on every well-formed program whose chains end, however its types and symbols refer to
each other: a project is put together or the checker has failed, and so it is with every type, symbol
or file that is asked for, whatever was asked for before. -/
theorem resolution_ends (hp : p.WellFormed) (hc : p.ChainsEnd) (config : Config) :
    (∀ files, (∀ f ∈ files, p.domain.file f) → Ends ((p.environment config).assemble files)) ∧
    ∀ s, (p.environment config).Visited p.domain s →
      (∀ t, p.domain.type t → Ends (((p.environment config).resolveType t).run.run s).1) ∧
      (∀ m, p.domain.symbol m → Ends (((p.environment config).resolveMember m).run.run s).1) ∧
      ∀ f, p.domain.file f → Ends (((p.environment config).resolveFile f).run.run s).1 := by
  have hcov := covers hp hc.parents hc.bases config
  have hg : (p.gauge config hc).Suffices := gauge_suffices config hc
  refine ⟨fun files hfiles => ?_, fun s hs => ?_⟩
  · have hends := ends_of_exec
      (Environment.exec_resolveFiles hcov hg hfiles Environment.not_worksOn_nil) .start
    unfold Environment.assemble
    generalize (files.mapM (p.environment config).resolveFile).run.run {} = r at hends ⊢
    obtain ⟨r, s⟩ := r
    rcases hends with ⟨resolved, rfl⟩ | ⟨e, rfl, he⟩
    · exact .inl ⟨_, rfl⟩
    · exact .inr ⟨e, rfl, he⟩
  · obtain ⟨fs, hreach⟩ := hs.reachable hcov hg
    refine ⟨fun t ht => ?_, fun m hm => ?_, fun f hf => ?_⟩
    · exact ends_of_exec (Environment.exec_resolveType hcov hg ht (Environment.leads_request fs _))
        hreach.again
    · exact ends_of_exec (Environment.exec_resolveMember hcov hg hm (Environment.leads_request fs _))
        hreach.again
    · exact ends_of_exec (Environment.exec_resolveFile hcov hg hf (Environment.not_worksOn_request fs))
        hreach.again

theorem chainsEnd_threeClasses (type : TypeId) (modifiers : ModifierFlags) :
    (threeClasses type modifiers).ChainsEnd where
  parents := by
    refine acyclic_of_lt NodeId.index ?_
    rintro n n' ⟨data, hdata, hparent⟩
    have hnone : data.parent = none :=
      forall_get? (P := fun data => data.parent = none) (by simp [threeClasses]) hdata
    simp [hnone] at hparent
  substitutions := by
    refine acyclic_of_lt TypeId.index ?_
    rintro t t' ⟨data, hdata, hbase⟩
    have hnone : data.substitutionBase = none :=
      forall_get? (P := fun data => data.substitutionBase = none) (by simp [threeClasses]) hdata
    simp [hnone] at hbase
  bases := by
    refine acyclic_of_lt TypeId.index ?_
    rintro ⟨i⟩ t' ⟨data, hdata, hbase⟩
    have htarget : data.target = none :=
      forall_get? (P := fun data => data.target = none) (by simp [threeClasses]) hdata
    have hmem : t' ∈ data.baseTypes := by
      split at hbase
      · exact hbase
      · simp [htarget] at hbase
    rcases i with _ | _ | _ | _ | i
    all_goals cases hdata
    · exact absurd (show t' ∈ [] from hmem) (by simp)
    · exact absurd (show t' ∈ [] from hmem) (by simp)
    · obtain rfl := List.mem_singleton.1 (show t' ∈ [⟨1⟩] from hmem)
      simp
    · obtain rfl := List.mem_singleton.1 (show t' ∈ [⟨2⟩] from hmem)
      simp
  nesting := by
    refine acyclic_of_lt (fun m => 6 - m.index) ?_
    rintro m m' ⟨-, ms, hms, hm'⟩
    rcases mem_membersOf_threeClasses hms hm' with ⟨rfl, rfl⟩ | ⟨rfl, rfl | rfl⟩
    all_goals simp

/-- Classes that lead to each other in a circle are no obstacle. -/
theorem resolution_ends_circularClasses : Ends (circularClasses.assemble [⟨0⟩]) :=
  (resolution_ends (wellFormed_threeClasses (by decide) _) (chainsEnd_threeClasses _ _) {}).1 [⟨0⟩]
    (by simp [threeClasses, domain, Arena.size])

/-! ### A class that extends a reference to itself -/

/-- The generic type behind another, unless that is the type itself. -/
def IsTarget (p : Program) (t t' : TypeId) : Prop :=
  ∃ data, p.types.get? t.index = some data ∧ data.target = some t' ∧ t' ≠ t

/-- A type that another extends. -/
def IsBase (p : Program) (t t' : TypeId) : Prop :=
  ∃ data, p.types.get? t.index = some data ∧ t' ∈ data.baseTypes

/-- A class whose base is a reference with the class for its generic type. -/
def selfExtending : Program where
  files := ⟨#[{ name := "", node := ⟨0⟩, symbol := ⟨0⟩, locals := [⟨0⟩] }]⟩
  symbols := ⟨#[{ name := "First", flags := .of [.classSymbol], declaredType := some ⟨0⟩ }]⟩
  types := ⟨#[
    { flags := .of [.object], objectFlags := .of [.classType], symbol := some ⟨0⟩, baseTypes := [⟨1⟩] },
    { flags := .of [.object], objectFlags := .of [.reference], symbol := some ⟨0⟩,
      target := some ⟨0⟩ }]⟩
  nodes := ⟨#[{ kind := .sourceFile, file := ⟨0⟩ }]⟩

theorem wellFormed_selfExtending : selfExtending.WellFormed where
  file := forall_get? fun data hdata => by
    obtain rfl := List.mem_singleton.1 hdata
    constructor <;> simp [selfExtending, domain, Arena.size]
  symbol := forall_get? fun data hdata => by
    obtain rfl := List.mem_singleton.1 hdata
    constructor <;> simp [selfExtending, domain, Arena.size]
  type := forall_get? fun data hdata => by
    simp only [selfExtending, List.mem_cons, List.not_mem_nil, or_false] at hdata
    rcases hdata with rfl | rfl
    all_goals constructor <;> simp [selfExtending, domain, Arena.size]
  signature := forall_get? fun data hdata => by simp [selfExtending] at hdata
  node := forall_get? fun data hdata => by
    obtain rfl := List.mem_singleton.1 hdata
    constructor <;> simp [selfExtending, domain, Arena.size]
  boundary {n n' data data' file} _ _ _ hnode := by
    have hpos : data'.span.pos = 0 :=
      forall_get? (P := fun data => data.span.pos = 0) (by simp [selfExtending]) hnode
    exact ⟨[], _, rfl, by simp [hpos]⟩

/-- Its properties are looked for without end: among those of its base, and there among its own. -/
theorem propertiesWithin_selfExtending (depth : Nat) :
    selfExtending.propertiesWithin depth ⟨0⟩ = .error .tooDeep ∧
      selfExtending.propertiesWithin depth ⟨1⟩ = .error .tooDeep := by
  induction depth with
  | zero => exact ⟨rfl, rfl⟩
  | succ depth ih =>
    -- the class has no member of its own, and the one base is the reference
    have hclass : selfExtending.propertiesWithin (depth + 1) ⟨0⟩ =
        selfExtending.propertiesWithin depth ⟨1⟩ >>= selfExtending.addInherited [] >>= pure := rfl
    exact ⟨by rw [hclass, ih.2]; rfl, ih.1⟩

/-- Each kind of chain ends by itself, of bases and of generic types, but not both together: such a class
is looked through deeper and deeper, and resolution does not end. -/
theorem selfExtending_unending : selfExtending.WellFormed ∧
    Acyclic selfExtending.IsParent ∧ Acyclic selfExtending.IsSubstitute ∧
    Acyclic selfExtending.IsTarget ∧ Acyclic selfExtending.IsBase ∧
    Acyclic (selfExtending.environment {}).Contains ∧
    (∀ depth, selfExtending.propertiesWithin depth ⟨0⟩ = .error .tooDeep) ∧
    ¬ Ends ((selfExtending.environment {}).assemble [⟨0⟩]) := by
  refine ⟨wellFormed_selfExtending, ?parents, ?substitutions, ?targets, ?bases, ?nesting,
    fun depth => (propertiesWithin_selfExtending depth).1, ?run⟩
  case parents =>
    refine acyclic_of_lt NodeId.index ?_
    rintro n n' ⟨data, hdata, hparent⟩
    have hnone : data.parent = none :=
      forall_get? (P := fun data => data.parent = none) (by simp [selfExtending]) hdata
    simp [hnone] at hparent
  case substitutions =>
    refine acyclic_of_lt TypeId.index ?_
    rintro t t' ⟨data, hdata, hbase⟩
    have hnone : data.substitutionBase = none :=
      forall_get? (P := fun data => data.substitutionBase = none) (by simp [selfExtending]) hdata
    simp [hnone] at hbase
  case targets =>
    -- only the reference has another type behind it
    refine acyclic_of_lt TypeId.index ?_
    rintro ⟨i⟩ t' ⟨data, hdata, htarget, -⟩
    rcases i with _ | _ | i
    all_goals cases hdata
    · cases htarget
    · cases htarget
      simp
  case bases =>
    -- only the class has a base
    refine acyclic_of_lt (fun t => 1 - t.index) ?_
    rintro ⟨i⟩ t' ⟨data, hdata, hbase⟩
    rcases i with _ | _ | i
    all_goals cases hdata
    · obtain rfl := List.mem_singleton.1 hbase
      simp
    · exact absurd (show t' ∈ [] from hbase) (by simp)
  case nesting =>
    refine acyclic_of_lt SymbolId.index ?_
    rintro ⟨i⟩ m' ⟨-, ms, hms, hm'⟩
    rcases i with _ | i
    all_goals cases hms
    exact absurd (show m' ∈ [] from hm') (by simp)
  case run =>
    have hrun : ((selfExtending.environment {}).assemble [⟨0⟩]).map (fun _ => ()) = .error .tooDeep := by
      decide +kernel
    rintro (⟨a, ha⟩ | ⟨e, he, hchecker⟩)
    · rw [ha] at hrun
      cases hrun
    · rw [he] at hrun
      cases hrun
      cases hchecker

end Program

end ApiDoc
