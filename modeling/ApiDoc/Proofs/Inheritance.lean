import ApiDoc.Proofs.Gaps
import ApiDoc.Proofs.Program.WellFormed
import ApiDoc.Proofs.Run.Requests

/-!
# Inherited documentation

An override takes its missing documentation from what stands in the other's place at that moment, which is
final if nothing is being made there and if the other is not to be made anew as an override itself
(`Environment.IsFinal`).  Then no gap is left in the finished project (`assemble_inherits_docs`).

`Environment.IsClear` is a condition on the program alone under which this is so, in whatever order things are
met.  Whatever is open leads to what is worked on (`Reachable.chain`), and the classes that a base type
inherits from are finished before the overrides of it are linked (`Ancestor.classDone`).
-/

namespace ApiDoc

namespace Environment

/-- The classes that a type is made of or inherits from. -/
inductive Ancestor (env : Environment) : TypeId → SymbolId → Prop
  /-- A class or interface by name. -/
  | named {t m} : TypeShape.of env.checker t = .ok (.composite .named) →
      env.checker.typeSymbol t = .ok (some m) → env.IsClassLike m → Ancestor env t m
  /-- The generic type behind one with arguments. -/
  | target {t u m} : TypeShape.of env.checker t = .ok (.composite .generic) →
      env.checker.referenceTarget t = .ok (some u) → u ≠ t → Ancestor env u m → Ancestor env t m
  /-- An operand of an intersection. -/
  | operand {t us u m} : TypeShape.of env.checker t = .ok (.composite .intersection) →
      env.checker.operandTypes t = .ok us → u ∈ us → Ancestor env u m → Ancestor env t m
  /-- What a class extends. -/
  | base {t m us u m'} : Ancestor env t m → env.HasBases m us → u ∈ us → Ancestor env u m' →
      Ancestor env t m'

/-- The documentation of a base property is final when it is taken over: the property does not lead back
to the class, and if it is an override itself then neither does the base type, and it belongs to classes
that this inherits from. -/
structure IsClear (env : Environment) (owner : SymbolId) (base : BaseProperty) : Prop where
  property : ¬ env.LeadsTo (.symbol base.symbol) (.symbol owner)
  type {owner' base'} : env.Overrides owner' base.symbol base' →
    ¬ env.LeadsTo (.type base.base) (.symbol owner)
  ancestor {owner' base'} : env.Overrides owner' base.symbol base' → env.Ancestor base.base owner'

variable {env : Environment} {c c' : Stage} {fs : List Frame}

/-! ### What is open -/

/-- Everything open leads to what was opened next. -/
def Chain (env : Environment) : List Frame → Prop
  | [] => True
  | f :: fs => (∀ e, f.entity? = some e → env.Leads fs e) ∧ Chain env fs

theorem Step.chain (h : env.Step c c') (hc : env.Chain c.frames) : env.Chain c'.frames := by
  have hmember {fs : List Frame} {owner m : SymbolId} {base : BaseProperty}
      (hwork : WorksOn fs (.symbol owner)) (hover : env.Overrides owner m base) :
      ∀ e, (Frame.rebuild m).entity? = some e → env.Leads fs e := by
    rintro e ⟨⟩
    obtain ⟨⟨⟨ms, hms, hm⟩, -⟩, -⟩ := hover
    exact .of_mentions hwork (.member hms hm)
  cases h with
  | openType _ _ hlead => exact ⟨by rintro e ⟨⟩; exact hlead, hc⟩
  | openMember _ _ hlead => exact ⟨by rintro e ⟨⟩; exact hlead, hc⟩
  | openOverride _ _ hwork hover => exact ⟨hmember hwork hover, hc⟩
  | reopen _ _ _ hwork hover => exact ⟨hmember hwork hover, hc⟩
  | openOverload hwork => exact ⟨by rintro e ⟨⟩; exact .of_worksOn hwork, hc⟩
  | closeType => exact hc.2
  | closeMember => exact hc.2
  | keepMember => exact hc.2
  | link => exact hc.2
  | closeOverload => exact hc.2
  | _ => exact hc

theorem Reachable.chain (h : env.Reachable c) : env.Chain c.frames := by
  induction h with
  | start => trivial
  | step _ hst ih => exact hst.chain ih
  | again _ ih => exact ⟨by simp [Frame.entity?], ih⟩

/-- Without requests in between, whatever is open leads to what is worked on. -/
theorem Chain.leadsTo (h : env.Chain fs) (hrequest : .request ∉ fs) {e a : Entity}
    (hwork : WorksOn fs e) {f : Frame} (hf : f ∈ fs) (ha : f.entity? = some a) : env.LeadsTo a e := by
  induction fs generalizing e with
  | nil => simp at hf
  | cons f₀ fs ih =>
    obtain ⟨f', rest, heq, he⟩ := hwork
    obtain ⟨rfl, rfl⟩ := List.cons.inj heq
    rcases List.mem_cons.1 hf with rfl | hmem
    · obtain rfl : a = e := Option.some.inj (ha.symm.trans he)
      exact .refl
    · cases fs with
      | nil => simp at hmem
      | cons f₁ fs =>
        -- the next frame is no request, so it is about something that leads here
        obtain ⟨e₁, he₁⟩ : ∃ e₁, f₁.entity? = some e₁ := by
          cases f₁ with
          | request => simp at hrequest
          | type t => exact ⟨_, rfl⟩
          | member key => exact ⟨_, rfl⟩
          | rebuild m => exact ⟨_, rfl⟩
          | overload m decl r => exact ⟨_, rfl⟩
        have hwork₁ : WorksOn (f₁ :: fs) e₁ := ⟨f₁, fs, rfl, he₁⟩
        have hbelow := ih h.2 (fun hmem => hrequest (by simp [hmem])) hwork₁ hmem
        exact hbelow.trans (h.1 e he e₁ hwork₁)

theorem Step.no_request (h : env.Step c c') (hc : .request ∉ c.frames) : .request ∉ c'.frames := by
  cases h <;> simp_all

/-! ### Ancestors -/

theorem Ancestor.leadsTo {t : TypeId} {m : SymbolId} (h : env.Ancestor t m) :
    env.LeadsTo (.type t) (.symbol m) := by
  induction h with
  | named _ hm _ => exact .single (.typeSymbol hm)
  | target _ hu _ _ ih => exact .head (.target hu) ih
  | operand _ hus hu _ ih => exact .head (.operand hus hu) ih
  | base _ hus hu _ ih ih' => exact ih.trans (.head (.base hus hu) ih')

/-- A class or interface is no marker. -/
theorem IsClassLike.not_isMarker {m : SymbolId} (h : env.IsClassLike m) : ¬ env.IsMarker m := by
  obtain ⟨flags, hflags, hclass⟩ := h
  simp [isMarker_iff hflags, hclass]

/-- The classes that a type inherits from are finished, unless the type leads to something open. -/
theorem Ancestor.classDone (hs : env.Sound c) {t : TypeId} {m : SymbolId} (h : env.Ancestor t m)
    (hopen : ∀ f ∈ c.frames, ∀ e, f.entity? = some e → ¬ env.LeadsTo (.type t) e) {r : TypeRef}
    (hr : c.session.typeOf? t = some r) : env.ClassDone c.session m := by
  have hclosed {t : TypeId} (hopen : ∀ f ∈ c.frames, ∀ e, f.entity? = some e →
      ¬ env.LeadsTo (.type t) e) : .type t ∉ c.frames :=
    fun hmem => hopen _ hmem _ rfl .refl
  -- along the way up to the class nothing is open, so each type on it shows its node and the next type has a place
  induction h generalizing r with
  | @named t m hshape hm hclass =>
    obtain ⟨shape, hshape', hd⟩ := hs.typesDone hr (hclosed hopen)
    obtain rfl := Except.ok.inj (hshape.symm.trans hshape')
    obtain ⟨node, -, m', v, hm', -, hv⟩ := hd
    obtain rfl : m' = some m := Except.ok.inj (hm'.symm.trans hm)
    have hleads : env.LeadsTo (.type t) (.symbol m) := .single (.typeSymbol hm)
    cases v with
    | none => exact absurd (hv.2.1 rfl) hclass.not_isMarker
    | some r' =>
      have hdone : env.KeyDone c.session (.symbol m) := by
        refine hs.keysDone hv.1 (fun hmem => hopen _ hmem _ rfl hleads) fun m' hm' hmem => ?_
        obtain rfl := MemberKey.symbol.inj hm'
        exact hopen _ hmem _ rfl hleads
      exact hdone hclass
  | @target t u m hshape hu hne _ ih =>
    obtain ⟨shape, hshape', hd⟩ := hs.typesDone hr (hclosed hopen)
    obtain rfl := Except.ok.inj (hshape.symm.trans hshape')
    obtain ⟨node, -, target, r', us, rs, htarget, hr', -⟩ := hd
    obtain rfl : target = some u := Except.ok.inj (htarget.symm.trans hu)
    rcases hr' with ⟨u', hu', -, hr'⟩ | ⟨hself, -⟩
    · obtain rfl := Option.some.inj hu'
      exact ih (fun f hf e he hlead => hopen f hf e he (.head (.target hu) hlead)) hr'
    · simp [hne] at hself
  | @operand t us u m hshape hus hu _ ih =>
    obtain ⟨shape, hshape', hd⟩ := hs.typesDone hr (hclosed hopen)
    obtain rfl := Except.ok.inj (hshape.symm.trans hshape')
    obtain ⟨node, -, us', rs, hus', hrs, -⟩ := hd
    obtain rfl : us' = us := Except.ok.inj (hus'.symm.trans hus)
    obtain ⟨r', hr'⟩ := hrs.exists_of_mem hu
    exact ih (fun f hf e he hlead => hopen f hf e he (.head (.operand hus hu) hlead)) hr'
  | @base t m us u m' hm hus hu _ ih ih' =>
    obtain ⟨r', hr'⟩ := (ih hopen hr).bases hus hu
    refine ih' (fun f hf e he hlead => hopen f hf e he ?_) hr'
    exact hm.leadsTo.trans (.head (.base hus hu) hlead)

/-! ### Final documentation -/

/-- A symbol whose member is never made again: nothing is being made in its place, and it is marked as an
override already or overrides nothing. -/
structure IsFinal (env : Environment) (c : Stage) (m : SymbolId) : Prop where
  member : .member (.symbol m) ∉ c.frames
  rebuild : .rebuild m ∉ c.frames
  marked : c.session.IsMarked m ∨ ∀ owner base, ¬ env.Overrides owner m base

/-- What is final stays so, and keeps its place and what is said there. -/
theorem IsFinal.step {m : SymbolId} {r : MemberRef} {now : Member} (h : env.IsFinal c m)
    (hst : env.Step c c') (hs : env.Sound c) (hr : c.session.memberOf? (.symbol m) = some (some r))
    (hat : c.session.memberAt? r = some now) :
    env.IsFinal c' m ∧ ∃ name, c'.session.memberAt? r = some { now with exportName := name } := by
  have hext := hst.extends hs
  have hr' := hext.memberOf hr
  constructor
  · refine ⟨fun hmem => ?_, fun hmem => ?_, ?_⟩
    · cases hst with
      | openMember hnew =>
        rcases List.mem_cons.1 hmem with heq | hmem
        · obtain rfl := Frame.member.inj heq
          simp [hnew] at hr
        · exact h.member hmem
      | _ => exact h.member (by simp_all)
    · cases hst with
      | openOverride hnew =>
        rcases List.mem_cons.1 hmem with heq | hmem
        · obtain rfl := Frame.rebuild.inj heq
          simp [hnew] at hr
        · exact h.rebuild hmem
      | @reopen _ _ owner m' base r' old hkey hold hplain _ hover =>
        -- only what is not an override yet is made anew
        rcases List.mem_cons.1 hmem with heq | hmem
        · obtain rfl := Frame.rebuild.inj heq
          rcases h.marked with ⟨r'', old', hkey', hold', hmarked⟩ | hnone
          · obtain rfl : r' = r'' := by simpa [hkey] using hkey'
            obtain rfl : old = old' := by simpa [hold] using hold'
            simp [hplain] at hmarked
          · exact hnone owner base hover
        · exact h.rebuild hmem
      | _ => exact h.rebuild (by simp_all)
    · exact h.marked.imp hext.marked id
  · obtain ⟨now', hat'⟩ := Session.exists_memberAt? ((hst.sound hs).memberBound hr')
    cases hst.puts hs hr' hat' with
    | @keep old name _ hold =>
      obtain rfl : now = old := Option.some.inj (hat.symm.trans hold)
      exact ⟨name, hat'⟩
    | place hnew => simp [hnew] at hr
    | build hframes => exact absurd (by simp [hframes]) h.member
    | link hkey hframes =>
      obtain rfl := MemberKey.symbol.inj hkey
      exact absurd (by simp [hframes]) h.rebuild

theorem IsFinal.steps {m : SymbolId} {r : MemberRef} {now : Member} (h : env.IsFinal c m)
    (hst : env.Steps c c') (hc : env.Reachable c) (hr : c.session.memberOf? (.symbol m) = some (some r))
    (hat : c.session.memberAt? r = some now) :
    env.IsFinal c' m ∧ ∃ name, c'.session.memberAt? r = some { now with exportName := name } := by
  induction hst with
  | refl => exact ⟨h, now.exportName, hat⟩
  | tail hsteps hst ih =>
    obtain ⟨hfinal, name, hat'⟩ := ih
    have hc' := hc.steps hsteps
    obtain ⟨hfinal', name', hat''⟩ := hfinal.step hst hc'.sound ((hc.extends hsteps).memberOf hr) hat'
    exact ⟨hfinal', name', hat''⟩

/-- The moment at which a class goes on after one of its members was linked to a base property. -/
structure HasLinked (env : Environment) (c : Stage) (owner m : SymbolId) (base : BaseProperty)
    (q : MemberRef) : Prop where
  run : env.Steps ⟨[], {}⟩ c
  noRequest : .request ∉ c.frames
  work : WorksOn c.frames (.symbol owner)
  overrides : env.Overrides owner m base
  property : c.session.memberOf? (.symbol base.symbol) = some (some q)
  parent : ∃ r, c.session.typeOf? base.base = some r

/-- What is linked in a clear place is linked to something final. -/
theorem IsClear.isFinal {owner m : SymbolId} {base : BaseProperty} {q : MemberRef}
    (h : env.IsClear owner base) (hlinked : env.HasLinked c owner m base q) :
    env.IsFinal c base.symbol := by
  have hc := Reachable.start.steps hlinked.run
  have hopen : ∀ f ∈ c.frames, ∀ e, f.entity? = some e → env.LeadsTo e (.symbol owner) :=
    fun f hf e he => hc.chain.leadsTo hlinked.noRequest hlinked.work hf he
  refine ⟨fun hmem => h.property (hopen _ hmem _ rfl), fun hmem => h.property (hopen _ hmem _ rfl), ?_⟩
  by_cases hnone : ∀ owner' base', ¬ env.Overrides owner' base.symbol base'
  · exact .inr hnone
  · push Not at hnone
    obtain ⟨owner', base', hover⟩ := hnone
    obtain ⟨parent, hparent⟩ := hlinked.parent
    -- the class it is an override in was finished with the base type
    have hdone : env.ClassDone c.session owner' :=
      (h.ancestor hover).classDone hc.sound
        (fun f hf e he hlead => h.type hover (hlead.trans (hopen f hf e he))) hparent
    exact .inl (hdone.overrides hover)

/-- A member that has taken over documentation, at an earlier moment, from what then stood in the place of
another. -/
def HasTaken (env : Environment) (c : Stage) (m : SymbolId) (member : Member) (q : MemberRef) : Prop :=
  ∃ taken owner base seen, env.HasLinked taken owner m base q ∧ env.Steps taken c ∧
    taken.session.memberAt? q = some seen ∧ member.IsComplete seen

/-- A link takes over what there is in the other's place. -/
theorem Step.hasTaken (h : env.Step c c') (hrun : env.Steps ⟨[], {}⟩ c) (hrequest : .request ∉ c.frames)
    (hdocs : env.config.inheritDocs = true)
    (htaken : ∀ {key r member q}, c.session.memberOf? key = some (some r) →
      c.session.memberAt? r = some member → member.overrides = some q →
      ∃ m, key = .symbol m ∧ env.HasTaken c m member q)
    {key : MemberKey} {r q : MemberRef} {member : Member}
    (hr : c'.session.memberOf? key = some (some r)) (hat : c'.session.memberAt? r = some member)
    (hq : member.overrides = some q) : ∃ m, key = .symbol m ∧ env.HasTaken c' m member q := by
  have hs : env.Sound c := (Reachable.start.steps hrun).sound
  have hext := h.extends hs
  cases h.puts hs hr hat with
  | @keep old name hkey hold =>
    obtain ⟨m, rfl, taken, owner, base, seen, hlinked, hsteps, hseen, hcomplete⟩ := htaken hkey hold hq
    exact ⟨m, rfl, taken, owner, base, seen, hlinked, hsteps.tail h, hseen,
      hcomplete.congr rfl rfl rfl rfl⟩
  | place => simp [Member.placeholder] at hq
  | build _ hbuilt => simp [hbuilt.overrides] at hq
  | @link m owner base built parent overrides hkey hframes hwork hover _ hoverrides hparent =>
    obtain rfl : overrides = some q := by
      rw [← hq]
      exact (overrideOf_links _ _ _ _).2.symm
    obtain ⟨seen, hseen⟩ := Session.exists_memberAt? (hs.memberBound hoverrides.1)
    have hcomplete : (env.overrideOf built parent (some q) ((some q).bind c.session.memberAt?)).IsComplete
        seen := by
      simp only [Option.bind_some, hseen, overrideOf, hdocs, if_true]
      exact Member.isComplete_inherit _ _
    have hsym := hext.memberOf hoverrides.1
    have hlinked : env.HasLinked c' owner m base q :=
      ⟨hrun.tail h, h.no_request hrequest, hwork, hover, hsym, parent, hext.typeOf hparent⟩
    obtain ⟨now, hnow⟩ := Session.exists_memberAt? ((h.sound hs).memberBound hsym)
    refine ⟨m, hkey, c', owner, base, now, hlinked, .refl, hnow, ?_⟩
    -- the link leaves the other's place as it is, unless that is the member's own
    cases h.puts hs hsym hnow with
    | @keep old name _ hold =>
      obtain rfl : seen = old := Option.some.inj (hseen.symm.trans hold)
      exact hcomplete.congr rfl rfl rfl rfl
    | place hnew => exact absurd (hnew.symm.trans hoverrides.1) (by simp)
    | build hframes' => simp [hframes] at hframes'
    | link hkey' hframes' =>
      have hself : m = base.symbol := by
        obtain rfl := MemberKey.symbol.inj hkey'
        simpa [hframes] using hframes'
      obtain rfl : r = q := by
        rw [hkey, hself] at hr
        simpa [hr] using hsym
      rw [← Option.some.inj (hnow.symm.trans hat)]
      exact .refl _

/-- Along a run from the start, every member with a link has taken over what there was. -/
theorem Steps.hasTaken (h : env.Steps ⟨[], {}⟩ c) (hdocs : env.config.inheritDocs = true) :
    .request ∉ c.frames ∧ ∀ {key r member q}, c.session.memberOf? key = some (some r) →
      c.session.memberAt? r = some member → member.overrides = some q →
      ∃ m, key = .symbol m ∧ env.HasTaken c m member q := by
  induction h with
  | refl => simp
  | tail hsteps hst ih => exact ⟨hst.no_request ih.1, hst.hasTaken hsteps ih.1 hdocs ih.2⟩

/-- **Inherited documentation is complete** if what it was taken from was final: a member has no gap that
what it overrides could fill, unless the latter was still being made or was to be made anew when the member
was linked to it.  It never is where the program is clear. -/
theorem assemble_inherits_docs {files : List FileId} {project : Project}
    (h : env.assemble files = .ok project) (hdocs : env.config.inheritDocs = true) {r q : MemberRef}
    {member : Member} (hat : project.graph.members.get? r.index = some member)
    (hq : member.overrides = some q) :
    ∃ m owner base c, (env.assembly files).memberOf? (.symbol m) = some (some r) ∧
      env.HasLinked c owner m base q ∧ env.Steps c ⟨[], env.assembly files⟩ ∧
      (∃ seen, c.session.memberAt? q = some seen ∧ member.IsComplete seen) ∧
      (env.IsFinal c base.symbol →
        ∃ overridden, project.graph.members.get? q.index = some overridden ∧
          member.IsComplete overridden) ∧
      (env.IsClear owner base → env.IsFinal c base.symbol) := by
  have hsettled := settled_assembly h
  rw [assemble_graph h] at hat ⊢
  have hs := hsettled.reachable.sound
  -- what is nobody's has no links
  have hkeyed : ∃ key, (env.assembly files).memberOf? key = some (some r) := by
    by_contra hnone
    push Not at hnone
    have hloose : (env.assembly files).IsLoose r := ⟨Session.memberAt?_eq_some_lt hat, hnone⟩
    simp [(hs.unlinked hloose hat).2] at hq
  obtain ⟨key, hkey⟩ := hkeyed
  obtain ⟨m, rfl, c, owner, base, seen, hlinked, hsteps, hseen, hcomplete⟩ :=
    (hsettled.steps.hasTaken hdocs).2 hkey hat hq
  refine ⟨m, owner, base, c, hkey, hlinked, hsteps, ⟨seen, hseen, hcomplete⟩, fun hfinal => ?_,
    fun hclear => hclear.isFinal hlinked⟩
  obtain ⟨-, name, hnow⟩ :=
    hfinal.steps hsteps (Reachable.start.steps hlinked.run) hlinked.property hseen
  exact ⟨_, hnow, hcomplete.congr rfl rfl rfl rfl⟩

section ThreeClasses

open Program

/-- A number mentions nothing. -/
theorem not_mentions_plainClasses {e : Entity} : ¬ plainClasses.Mentions (.type ⟨0⟩) e := by
  intro h
  cases h with
  | element h => cases h
  | argument h hu => cases h; exact absurd hu List.not_mem_nil
  | target h => cases h
  | operand h hu => cases h; exact absurd hu List.not_mem_nil
  | conditional h => cases h
  | indexedAccess h => cases h
  | indexOperand h => cases h
  | substitution h => cases h
  | property h hm => cases h; exact absurd hm List.not_mem_nil
  | typeSymbol h => cases h
  | callSignature h hsig => cases h; exact absurd hsig List.not_mem_nil

/-- The property of the first class mentions its type only. -/
theorem mentions_plainClasses {e : Entity} (h : plainClasses.Mentions (.symbol ⟨3⟩) e) :
    e = .type ⟨0⟩ := by
  have hdeclares : ∀ d, plainClasses.Declares ⟨3⟩ d → d = ⟨1⟩ := by
    rintro d (hd | ⟨ds, hds, hd⟩)
    · cases hd
    · cases hds
      exact List.mem_singleton.1 hd
  cases h with
  | valueType h =>
    obtain ⟨_, -, h⟩ := bind_eq_ok_iff.1 h
    cases h
    rfl
  | declaredType h => cases h
  | typeParameter h he =>
    cases h
    cases he <;> exact absurd ‹_ ∈ _› List.not_mem_nil
  | signature hd h =>
    obtain rfl := hdeclares _ hd
    cases h
  | implemented hd h hn =>
    obtain rfl := hdeclares _ hd
    cases h
    exact absurd hn List.not_mem_nil
  | exported h hm => cases h; exact absurd hm List.not_mem_nil
  | member h hm => cases h; exact absurd hm List.not_mem_nil
  | base h =>
    obtain ⟨_, _, _, _, h, _⟩ := h
    cases h
  | baseProperty h =>
    obtain ⟨_, _, _, _, h, _⟩ := h
    cases h
  | inherited h => cases h
  | overridden h => exact absurd h not_overrides_threeClasses
  | overriddenIn h => exact absurd h not_overrides_threeClasses

theorem isClear_plainClasses : plainClasses.IsClear ⟨1⟩ ⟨⟨3⟩, ⟨1⟩⟩ where
  property h := by
    have hclosed : ∀ e, plainClasses.LeadsTo (.symbol ⟨3⟩) e → e = .symbol ⟨3⟩ ∨ e = .type ⟨0⟩ := by
      intro e he
      induction he with
      | refl => exact .inl rfl
      | tail _ hmention ih =>
        rcases ih with rfl | rfl
        · exact .inr (mentions_plainClasses hmention)
        · exact absurd hmention not_mentions_plainClasses
    rcases hclosed _ h with h | h
    all_goals cases h
  type h := absurd h not_overrides_threeClasses
  ancestor h := absurd h not_overrides_threeClasses

/-- The property of the second class takes over the comment of the first, although the third class leads to it
before the second has come to it. -/
theorem assemble_inherits_docs_plainClasses :
    ∃ project member overridden, plainClasses.assemble [⟨0⟩] = .ok project ∧
      plainClasses.config.inheritDocs = true ∧ project.graph.members.get? 5 = some member ∧
      member.overrides = some ⟨1⟩ ∧ project.graph.members.get? 1 = some overridden ∧
      overridden.doc.summary = "What it is worth." ∧ member.IsComplete overridden := by
  obtain ⟨project, h⟩ := exists_plainClasses
  have hat : ((plainClasses.assembly [⟨0⟩]).graph.members.get? 5).map Member.overrides =
      some (some ⟨1⟩) := by
    decide +kernel
  have hdoc : ((plainClasses.assembly [⟨0⟩]).graph.members.get? 1).map (·.doc.summary) =
      some "What it is worth." := by
    decide +kernel
  have hkey : (plainClasses.assembly [⟨0⟩]).memberOf? (.symbol ⟨5⟩) = some (some ⟨5⟩) := by
    decide +kernel
  rw [← assemble_graph h] at hat hdoc
  obtain ⟨member, hmember, hq⟩ := Option.map_eq_some_iff.1 hat
  obtain ⟨overridden, hoverridden, hsummary⟩ := Option.map_eq_some_iff.1 hdoc
  obtain ⟨m, owner, base, c, hm, hlinked, -, -, hcomplete, hfinal⟩ :=
    assemble_inherits_docs h rfl (r := ⟨5⟩) (q := ⟨1⟩) hmember hq
  obtain rfl := MemberKey.symbol.inj ((settled_assembly h).reachable.sound.memberInj hm hkey)
  obtain rfl := owner_threeClasses hlinked.overrides
  obtain rfl := hlinked.overrides.unique (overrides_threeClasses _ _)
  obtain ⟨overridden', hoverridden', hresult⟩ := hcomplete (hfinal isClear_plainClasses)
  obtain rfl : overridden = overridden' := Option.some.inj (hoverridden.symm.trans hoverridden')
  exact ⟨project, member, overridden, h, rfl, hmember, hq, hoverridden, hsummary, hresult⟩

/-- If the first property leads to the second class, the second property is linked before the first has its
comment, and is left without it. -/
theorem docs_lost_in_circle :
    ∃ project member overridden, circularClasses.assemble [⟨0⟩] = .ok project ∧
      circularClasses.config.inheritDocs = true ∧ project.graph.members.get? 5 = some member ∧
      member.overrides = some ⟨1⟩ ∧ project.graph.members.get? 1 = some overridden ∧
      ¬ member.IsComplete overridden := by
  obtain ⟨project, h⟩ := exists_circularClasses
  have hat : ((circularClasses.assembly [⟨0⟩]).graph.members.get? 5).map
      (fun member => (member.overrides, member.doc.summary)) = some (some ⟨1⟩, "") := by
    decide +kernel
  have hdoc : ((circularClasses.assembly [⟨0⟩]).graph.members.get? 1).map (·.doc.summary) =
      some "What it is worth." := by
    decide +kernel
  rw [← assemble_graph h] at hat hdoc
  obtain ⟨member, hmember, hlink⟩ := Option.map_eq_some_iff.1 hat
  obtain ⟨overridden, hoverridden, hsummary⟩ := Option.map_eq_some_iff.1 hdoc
  obtain ⟨hq, hempty⟩ := Prod.mk.inj hlink
  refine ⟨project, member, overridden, h, rfl, hmember, hq, hoverridden, fun hcomplete => ?_⟩
  have hfill : Text.fill member.doc.summary overridden.doc.summary = member.doc.summary :=
    congrArg Documentation.summary hcomplete.doc
  simp [hempty, hsummary, Text.fill] at hfill

end ThreeClasses

end Environment

end ApiDoc
