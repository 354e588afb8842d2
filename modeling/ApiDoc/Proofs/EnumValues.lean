import ApiDoc.Proofs.ClassProperties
import ApiDoc.Proofs.Numbering

/-!
# The values of enums

An enum lists the enum members among what its symbol exports, whatever else a namespace merged into it exports in
between.  Each has the value it is initialised with (`Environment.InitialisedWith`), and the others are numbered from
these (`AutoNumbered`).  `Environment.enum_values_follow_numbering` says so of every enum that is ever resolved.
-/

namespace ApiDoc

/-- The enum in the place of a symbol. -/
def Session.enumOf? (s : Session) (m : SymbolId) : Option EnumBody :=
  (s.cachedMember m).bind fun r => (s.memberAt? r).bind Member.enum?

theorem Session.enumOf?_eq_some_iff {s : Session} {m : SymbolId} {e : EnumBody} :
    s.enumOf? m = some e ↔ ∃ r member, s.memberOf? (.symbol m) = some (some r) ∧ s.memberAt? r = some member ∧
      member.body = .enumeration e := by
  have henum (member : Member) : member.enum? = some e ↔ member.body = .enumeration e := by
    unfold Member.enum?
    split <;> simp_all
  simp [enumOf?, Session.cachedMember, Option.bind_eq_some_iff, Option.join_eq_some_iff, henum]

/-- A constant as the value of an enum member. -/
def ConstantValue.enumValue : ConstantValue → EnumValue
  | .number x => .number x
  | .text s => .text s

namespace Environment

variable (env : Environment)

/-! ### Initialisers -/

/-- The value that an enum member is initialised with, if it is initialised: the literal that its text is, or else what
the checker computed, or else the text. -/
inductive InitialisedWith (m : SymbolId) : Option EnumValue → Prop
  | undeclared (hd : env.mainDeclaration? m = .ok none) : InitialisedWith m none
  | bare {d : NodeId} (hd : env.mainDeclaration? m = .ok (some d)) (htext : env.checker.initializerText d = .ok none) :
      InitialisedWith m none
  | literal {d : NodeId} {text : String} {value : EnumValue} (hd : env.mainDeclaration? m = .ok (some d))
      (htext : env.checker.initializerText d = .ok (some text)) (hparse : EnumValue.parse? text = some value) :
      InitialisedWith m (some value)
  | computed {d : NodeId} {text : String} {constant : ConstantValue} (hd : env.mainDeclaration? m = .ok (some d))
      (htext : env.checker.initializerText d = .ok (some text)) (hparse : EnumValue.parse? text = none)
      (hconstant : env.checker.constantValue d = .ok (some constant)) : InitialisedWith m (some constant.enumValue)
  | verbatim {d : NodeId} {text : String} (hd : env.mainDeclaration? m = .ok (some d))
      (htext : env.checker.initializerText d = .ok (some text)) (hparse : EnumValue.parse? text = none)
      (hconstant : env.checker.constantValue d = .ok none) : InitialisedWith m (some (.text text))

/-- The enum members among some exports, markers left out. -/
def enumMembers (ms : List SymbolId) : List SymbolId :=
  ms.filter fun m => env.checker.isFlagged [.enumMember] m && !env.checker.isFlagged [.prototype] m

/-- An enum has the enum members that its symbol exports, in order, with the values that are written or follow from
these. -/
def NumbersMembers (s : Session) (m : SymbolId) (e : EnumBody) : Prop :=
  ∃ ms written, env.checker.exportsOf m = .ok ms ∧
    List.Forall₂ (fun m' (entry : EnumEntry) => env.checker.symbolName m' = .ok entry.name ∧
      s.memberOf? (.symbol m') = some (some entry.member)) (env.enumMembers ms) e.members ∧
    List.Forall₂ env.InitialisedWith (env.enumMembers ms) written ∧ AutoNumbered written e.members

variable {env} {ctx : Context} {s : Session} {requests : List Request} {m : SymbolId} {member : Member} {e : EnumBody}

theorem initialisedWith_iff {own : Option EnumValue} :
    env.InitialisedWith m own ↔ env.enumInitializer m = .ok own := by
  constructor
  · intro h
    unfold enumInitializer
    cases h with
    | undeclared hd => exact bind_eq_ok_iff.2 ⟨_, hd, rfl⟩
    | bare hd htext => exact bind_eq_ok_iff.2 ⟨_, hd, bind_eq_ok_iff.2 ⟨_, htext, rfl⟩⟩
    | literal hd htext hparse =>
      refine bind_eq_ok_iff.2 ⟨_, hd, bind_eq_ok_iff.2 ⟨_, htext, ?_⟩⟩
      simp only [hparse]
      rfl
    | @computed d text constant hd htext hparse hconstant =>
      refine bind_eq_ok_iff.2 ⟨_, hd, bind_eq_ok_iff.2 ⟨_, htext, ?_⟩⟩
      simp only [hparse]
      refine bind_eq_ok_iff.2 ⟨_, hconstant, ?_⟩
      cases constant <;> rfl
    | verbatim hd htext hparse hconstant =>
      refine bind_eq_ok_iff.2 ⟨_, hd, bind_eq_ok_iff.2 ⟨_, htext, ?_⟩⟩
      simp only [hparse]
      exact bind_eq_ok_iff.2 ⟨_, hconstant, rfl⟩
  · intro h
    obtain ⟨d?, hd, h⟩ := bind_eq_ok_iff.1 h
    cases d? with
    | none =>
      obtain rfl := Except.ok.inj h
      exact .undeclared hd
    | some d =>
      obtain ⟨text?, htext, h⟩ := bind_eq_ok_iff.1 h
      cases text? with
      | none =>
        obtain rfl := Except.ok.inj h
        exact .bare hd htext
      | some text =>
        dsimp only at h
        cases hparse : EnumValue.parse? text with
        | some value =>
          rw [hparse] at h
          obtain rfl := Except.ok.inj h
          exact .literal hd htext hparse
        | none =>
          rw [hparse] at h
          obtain ⟨constant?, hconstant, h⟩ := bind_eq_ok_iff.1 h
          match constant? with
          | some (.number x) =>
            obtain rfl := Except.ok.inj h
            exact .computed hd htext hparse hconstant
          | some (.text s) =>
            obtain rfl := Except.ok.inj h
            exact .computed hd htext hparse hconstant
          | none =>
            obtain rfl := Except.ok.inj h
            exact .verbatim hd htext hparse hconstant

/-! ### One walk -/

/-- What is listed of an enum's exports are the enum members among them. -/
theorem NumbersExports.follows {n : Numbering} {ms : List SymbolId} {entries : List EnumEntry}
    (h : env.NumbersExports s n ms entries) (ht : env.Tidy ctx s) (hsingle : s.Single) :
    ∃ written, List.Forall₂ (fun m (entry : EnumEntry) => env.checker.symbolName m = .ok entry.name ∧
        s.memberOf? (.symbol m) = some (some entry.member)) (env.enumMembers ms) entries ∧
      List.Forall₂ env.InitialisedWith (env.enumMembers ms) written ∧ n.Follows written entries := by
  induction h with
  | nil n => exact ⟨[], .nil, .nil, .nil n⟩
  | @other n m flags ms entries hflags hother _ ih =>
    have hpassed : env.enumMembers (m :: ms) = env.enumMembers ms := by
      simp [enumMembers, Checker.isFlagged_eq hflags, FlagSet.hasAny, hother]
    rwa [hpassed]
  | @marker n m flags ms entries hflags hmember hnone _ ih =>
    -- only markers are remembered without a place
    have hmarker := isFlagged_prototype_iff.2 ((ht.markers (hsingle.memberOf hnone)).1 rfl)
    have hpassed : env.enumMembers (m :: ms) = env.enumMembers ms := by simp [enumMembers, hmarker]
    rwa [hpassed]
  | @entry n m flags name own r ms entries hflags hmember hr hname hown _ ih =>
    have hmemo := hsingle.memberOf hr
    have hmarker : env.checker.isFlagged [.prototype] m = false := by
      rw [Bool.eq_false_iff, Ne, isFlagged_prototype_iff, ← ht.markers hmemo]
      simp
    have hlisted : env.enumMembers (m :: ms) = m :: env.enumMembers ms := by
      simp [enumMembers, hmarker, Checker.isFlagged_eq hflags, FlagSet.hasAny, hmember]
    obtain ⟨written, hentries, hwritten, hfollows⟩ := ih
    rw [hlisted]
    exact ⟨own :: written, .cons ⟨hname, hmemo⟩ hentries, .cons (initialisedWith_iff.2 hown) hwritten,
      .cons n own name r hfollows⟩

/-! ### Whatever was asked -/

/-- A symbol in whose place an enum stands is documented as one. -/
theorem Finished.isEnumeration (h : env.Finished s (.symbol m) member) (he : member.body = .enumeration e) :
    env.IsEnumeration m := by
  obtain ⟨flags, hflags, hshows⟩ := h.shows
  refine ⟨flags, hflags, ?_⟩
  rw [he] at hshows
  cases hclass : SymbolClass.of flags with
  | enumeration => rfl
  | marker | field | accessor | unclassified | method | classLike | namespaceLike | «alias» =>
    simp [hclass, ShowsSymbol, ShowsClass] at hshows

/-- Whatever was asked before, and whatever came of it, the members of an enum are numbered one after the other. -/
theorem exists_follows_after (h : (env.after {} requests).enumOf? m = some e) :
    ∃ ms written, env.checker.exportsOf m = .ok ms ∧
      List.Forall₂ (fun m' (entry : EnumEntry) => env.checker.symbolName m' = .ok entry.name ∧
        (env.after {} requests).memberOf? (.symbol m') = some (some entry.member)) (env.enumMembers ms) e.members ∧
      List.Forall₂ env.InitialisedWith (env.enumMembers ms) written ∧ Numbering.Follows {} written e.members := by
  obtain ⟨r, member, hr, hat, he⟩ := Session.enumOf?_eq_some_iff.1 h
  have hbody : ∀ rs, member.body ≠ .namespaceLike rs := by simp [he]
  obtain ⟨built, hbuilt, hretells⟩ := exists_built_after hr hat hbody
  obtain ⟨s₀, s₁, hbuilds, hs₁, -⟩ := hbuilt.builds
  obtain ⟨e', ms, he', hms, hnumbers⟩ := hbuilds.enumeration ((finished_after hr hat hbody).isEnumeration he)
  obtain rfl : e' = e := MemberBody.enumeration.inj ((hretells.enumeration he').symm.trans he)
  obtain ⟨written, hentries, hwritten, hfollows⟩ :=
    (hnumbers.mono hs₁).follows (tidy_after env requests) (env.single_after requests)
  exact ⟨ms, written, hms, hentries, hwritten, hfollows⟩

/-- So it has numbered members. -/
theorem numbersMembers_after (h : (env.after {} requests).enumOf? m = some e) :
    env.NumbersMembers (env.after {} requests) m e := by
  obtain ⟨ms, written, hms, hentries, hwritten, hfollows⟩ := exists_follows_after h
  exact ⟨ms, written, hms, hentries, hwritten, hfollows.autoNumbered⟩

/-- Once a symbol that is documented as an enum has been resolved, there is an enum in its place. -/
theorem exists_enum_of_resolved {flags : SymbolFlags} (hflags : env.checker.symbolFlags m = .ok flags)
    (hclass : SymbolClass.of flags = .enumeration) {v : Option MemberRef} {s' : Session}
    (hrun : (env.resolveMember m).run.run (env.after {} requests) = (.ok v, s')) :
    (∃ e, s'.enumOf? m = some e) ∨ env.Interrupted requests (.symbol m) ∧ s' = env.after {} requests := by
  refine (exists_shown_of_resolved hflags (by simp [hclass]) hrun).imp_left fun ⟨r, member, hmemo, hat, hshows⟩ => ?_
  rw [hclass] at hshows
  obtain ⟨e, ms, he, -⟩ := hshows
  exact ⟨e, Session.enumOf?_eq_some_iff.2 ⟨r, member, hmemo, hat, he⟩⟩

/-- **Enum values follow numbering**: whatever was asked before and whatever came of it, every enum has the enum members
that its symbol exports, each with the value it is initialised with or the one that follows.  Once the symbol of an enum
has been resolved there is an enum in its place, unless an earlier request failed while it was at this very symbol and
has left a placeholder there. -/
theorem enum_values_follow_numbering (env : Environment) (requests : List Request) (m : SymbolId) :
    (∀ e, (env.after {} requests).enumOf? m = some e → env.NumbersMembers (env.after {} requests) m e) ∧
    ∀ (flags : SymbolFlags) (v : Option MemberRef) (s' : Session), env.checker.symbolFlags m = .ok flags →
      SymbolClass.of flags = .enumeration →
      (env.resolveMember m).run.run (env.after {} requests) = (.ok v, s') →
      (∃ e, s'.enumOf? m = some e ∧ env.NumbersMembers s' m e) ∨
        env.Interrupted requests (.symbol m) ∧ s' = env.after {} requests := by
  refine ⟨fun e he => numbersMembers_after he, fun flags v s' hflags hclass hrun => ?_⟩
  refine (exists_enum_of_resolved hflags hclass hrun).imp_left fun ⟨e, he⟩ => ⟨e, he, ?_⟩
  rw [← after_member hrun] at he ⊢
  exact numbersMembers_after he

/-! ### An enum of all sorts -/

/-- An enum whose members are numbers, texts and what was computed, with a function of a merged namespace and the marker
of a prototype in between. -/
def mixedEnum : Environment :=
  let member (name : String) (decl : Nat) : SymbolData :=
    { name, flags := .of [.enumMember], declarations := [⟨decl⟩], valueDeclaration := some ⟨decl⟩,
      type := some ⟨0⟩ }
  let decl (initializer : Option String) (constant : Option ConstantValue) : NodeData :=
    { kind := .enumMember, file := ⟨0⟩, initializer, constant }
  { checker := Program.checker {
      files := ⟨#[{ name := "a.ts", node := ⟨0⟩, symbol := ⟨0⟩, locals := [⟨0⟩] }]⟩
      symbols := ⟨#[{ name := "Mixed", flags := .of [.regularEnum, .valueModule], exportsOf :=
            [⟨1⟩, ⟨2⟩, ⟨3⟩, ⟨4⟩, ⟨5⟩, ⟨6⟩, ⟨7⟩, ⟨8⟩, ⟨9⟩] },
        member "first" 0,
        { name := "parse", flags := .of [.function], type := some ⟨0⟩ },
        member "five" 1,
        { name := "prototype", flags := .of [.enumMember, .prototype] },
        member "six" 2,
        member "text" 3,
        member "name" 4,
        member "shifted" 5,
        member "next" 6]⟩
      types := ⟨#[{ flags := .of [.number] }]⟩
      nodes := ⟨#[decl none none, decl (some "0x5") none, decl none none, decl (some "'t'") none, decl none none,
        decl (some "1 << 3") (some (.number (.ofInt 8))), decl none none]⟩ } }

/-- What is written and what follows from it. -/
theorem enum_values_follow_numbering_mixed :
    ∃ s' e, (mixedEnum.resolveMember ⟨0⟩).run.run {} = (.ok (some ⟨0⟩), s') ∧ s'.enumOf? ⟨0⟩ = some e ∧
      mixedEnum.NumbersMembers s' ⟨0⟩ e ∧
      e.members.map EnumEntry.value = [.number (.ofInt 0), .number (.ofInt 5), .number (.ofInt 6), .text "t",
        .text "name", .number (.ofInt 8), .number (.ofInt 9)] := by
  have hanswer : ((mixedEnum.resolveMember ⟨0⟩).run.run {}).1 = .ok (some ⟨0⟩) := by decide +kernel
  have hvalues : (((mixedEnum.resolveMember ⟨0⟩).run.run {}).2.enumOf? ⟨0⟩).map (·.members.map EnumEntry.value) =
      some [.number (.ofInt 0), .number (.ofInt 5), .number (.ofInt 6), .text "t", .text "name", .number (.ofInt 8),
        .number (.ofInt 9)] := by decide +kernel
  rcases hrun : (mixedEnum.resolveMember ⟨0⟩).run.run {} with ⟨answer, s'⟩
  rw [hrun] at hanswer hvalues
  obtain rfl : answer = .ok (some ⟨0⟩) := hanswer
  have hflags : mixedEnum.checker.symbolFlags ⟨0⟩ = .ok (.of [.regularEnum, .valueModule]) := by decide +kernel
  have hmixed := (enum_values_follow_numbering mixedEnum [] ⟨0⟩).2 _ _ s' hflags (by decide) hrun
  obtain ⟨e, he, hnumbers⟩ := hmixed.resolve_right fun h => not_interrupted_nil _ h.1
  rw [he] at hvalues
  exact ⟨s', e, rfl, he, hnumbers, Option.some.inj hvalues⟩

end Environment

end ApiDoc
