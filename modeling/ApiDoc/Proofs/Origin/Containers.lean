import ApiDoc.Proofs.Origin.Types

/-!
# Containers, traced

Whatever is put in the place of a key was built for it, and perhaps linked to what it overrides.  A class has the
members of its own symbol's members on its instance side, and apart from them those of the properties that its type
has from elsewhere, both in order (`Environment.ListsProperties`).  An enum has the members among what its symbol
exports, numbered one after the other (`Environment.NumbersExports`).
-/

namespace ApiDoc

namespace Environment

variable (env : Environment)

/-- One of the members of a class's symbol has its member among the instance members, unless it is a constructor, a
signature or a marker. -/
def InstanceEntry (s : Session) (m : SymbolId) (v : Option MemberRef) : Prop :=
  ∃ flags : SymbolFlags, env.checker.symbolFlags m = .ok flags ∧
    if flags.hasAny [.prototype, .constructor, .signature] then v = none else (.symbol m, v) ∈ s.memberMemo

/-- A property of a class's type has its member among those that the class has from elsewhere, unless it is one of the
class's own or a marker. -/
def ExtendedEntry (s : Session) (owner m : SymbolId) (v : Option MemberRef) : Prop :=
  ∃ parent, env.checker.parentSymbol m = .ok parent ∧
    if parent = some owner then v = none else
      ∃ flags : SymbolFlags, env.checker.symbolFlags m = .ok flags ∧
        if flags.has .prototype then v = none else (.symbol m, v) ∈ s.memberMemo

/-- What a class lists of its own members and of the properties of the type that it declares, each in order. -/
structure ListsProperties (s : Session) (m : SymbolId) (c : ClassBody) : Prop where
  own : ∃ ms known, env.checker.membersOf m = .ok ms ∧ List.Forall₂ (env.InstanceEntry s) ms known ∧
    c.instanceMembers = known.filterMap id
  extended : ∃ flags declared ms known, env.checker.symbolFlags m = .ok flags ∧
    env.classType? m flags = .ok declared ∧ ofDeclared env.checker.propertiesOfType declared = .ok ms ∧
    List.Forall₂ (env.ExtendedEntry s m) ms known ∧ c.extendedMembers = known.filterMap id

/-- A symbol that is documented as an enum. -/
def IsEnumeration (m : SymbolId) : Prop :=
  ∃ flags : SymbolFlags, env.checker.symbolFlags m = .ok flags ∧ SymbolClass.of flags = .enumeration

/-- What an enum lists of some exports, numbered from where its numbering stands: exports that are no enum members are
passed over, and so are markers. -/
inductive NumbersExports (s : Session) : Numbering → List SymbolId → List EnumEntry → Prop
  | nil (n : Numbering) : NumbersExports s n [] []
  | other {n : Numbering} {m : SymbolId} {flags : SymbolFlags} {ms : List SymbolId} {entries : List EnumEntry}
      (hflags : env.checker.symbolFlags m = .ok flags) (hother : flags.has .enumMember = false)
      (h : NumbersExports s n ms entries) : NumbersExports s n (m :: ms) entries
  | marker {n : Numbering} {m : SymbolId} {flags : SymbolFlags} {ms : List SymbolId} {entries : List EnumEntry}
      (hflags : env.checker.symbolFlags m = .ok flags) (hmember : flags.has .enumMember = true)
      (hnone : (.symbol m, none) ∈ s.memberMemo) (h : NumbersExports s n ms entries) :
      NumbersExports s n (m :: ms) entries
  | entry {n : Numbering} {m : SymbolId} {flags : SymbolFlags} {name : String} {own : Option EnumValue} {r : MemberRef}
      {ms : List SymbolId} {entries : List EnumEntry} (hflags : env.checker.symbolFlags m = .ok flags)
      (hmember : flags.has .enumMember = true) (hr : (.symbol m, some r) ∈ s.memberMemo)
      (hname : env.checker.symbolName m = .ok name) (hown : env.enumInitializer m = .ok own)
      (h : NumbersExports s (n.assign name own).2 ms entries) :
      NumbersExports s n (m :: ms) (⟨name, (n.assign name own).1, r⟩ :: entries)

variable {env} {inner : Resolver} {base s s' : Session} {key : MemberKey} {m : SymbolId} {member : Member}

theorem NumbersExports.mono {n : Numbering} {ms : List SymbolId} {entries : List EnumEntry}
    (h : env.NumbersExports s n ms entries) (hs : s.Recalls s') : env.NumbersExports s' n ms entries := by
  induction h with
  | nil n => exact .nil n
  | other hflags hother _ ih => exact .other hflags hother ih
  | marker hflags hmember hnone _ ih => exact .marker hflags hmember (hs.member_mem hnone) ih
  | entry hflags hmember hr hname hown _ ih => exact .entry hflags hmember (hs.member_mem hr) hname hown ih

theorem InstanceEntry.mono {v : Option MemberRef} (h : env.InstanceEntry s m v) (hs : s.Recalls s') :
    env.InstanceEntry s' m v := by
  obtain ⟨flags, hflags, hv⟩ := h
  refine ⟨flags, hflags, ?_⟩
  by_cases hapart : flags.hasAny [.prototype, .constructor, .signature] = true
  · simpa only [if_pos hapart] using hv
  · rw [if_neg hapart] at hv ⊢
    exact hs.member_mem hv

theorem ExtendedEntry.mono {owner : SymbolId} {v : Option MemberRef} (h : env.ExtendedEntry s owner m v)
    (hs : s.Recalls s') : env.ExtendedEntry s' owner m v := by
  obtain ⟨parent, hparent, hv⟩ := h
  refine ⟨parent, hparent, ?_⟩
  by_cases hown : parent = some owner
  · simpa only [if_pos hown] using hv
  · rw [if_neg hown] at hv ⊢
    obtain ⟨flags, hflags, hv⟩ := hv
    refine ⟨flags, hflags, ?_⟩
    by_cases hproto : flags.has .prototype = true
    · simpa only [if_pos hproto] using hv
    · rw [if_neg hproto] at hv ⊢
      exact hs.member_mem hv

theorem ListsProperties.mono {c : ClassBody} (h : env.ListsProperties s m c) (hs : s.Recalls s') :
    env.ListsProperties s' m c where
  own := by
    obtain ⟨ms, known, hms, hknown, hlist⟩ := h.own
    exact ⟨ms, known, hms, hknown.imp fun _ _ hv => hv.mono hs, hlist⟩
  extended := by
    obtain ⟨flags, declared, ms, known, hflags, hdeclared, hms, hknown, hlist⟩ := h.extended
    exact ⟨flags, declared, ms, known, hflags, hdeclared, hms, hknown.imp fun _ _ hv => hv.mono hs, hlist⟩

theorem Made.of_none (h : member.overloads = []) : Made s member s' := by simp [Made, h]

theorem overloads_commonMember {decl : Option NodeId} {facts : TagFacts} {body : MemberBody}
    (h : env.commonMember m decl facts body = .ok member) (hbody : ∀ f, body ≠ .method f) : member.overloads = [] := by
  have hbody' : member.body = body := (commonMember_eq_ok h).1
  cases body with
  | method f => exact absurd rfl (hbody f)
  | _ => simp [Member.overloads, hbody']

/-! ### Members that are put in the place of a key -/

/-- The run of a resolver that builds a member. -/
theorem Answers.builtFor (hinner : env.Answers inner) {slot : MemberRef} (hs : s.Anchored)
    (hrun : (inner.build m slot).run.run s = (.ok member, s')) : env.BuiltFor s' (.symbol m) member := by
  obtain ⟨depth, rfl⟩ := hinner.recur
  cases depth with
  | zero => cases hrun
  | succ depth => exact ⟨depth, slot, s, s', hs, hrun, .refl s', fun _ _ haside => ⟨haside, rfl⟩⟩

namespace Yields

/-- The place of a key gets a member that was made since the base. -/
theorem place {slot : MemberRef} {P : Unit → Session → Prop} (hslot : (key, some slot) ∈ s.memberMemo)
    (horigin : env.Origin s key member) (hmade : Made base member s)
    (h : P () (s.putMember slot member)) : env.Yields base s (Resolve.setMember slot member) P :=
  .change (Session.setMember_run slot member)
    (fun ha hs => .putMember ha hs hslot (fun _ => horigin) fun o ho => .inr (hmade o ho)) h

/-- A new place for a key. -/
theorem reserve {name : String} {β : Type} {f : MemberRef → Resolve β} {Q : β → Session → Prop}
    (h : ∀ slot s', base.Continues s' → (key, some slot) ∈ s'.memberMemo → env.Yields base s' (f slot) Q) :
    env.Yields base s (Resolve.reserveMember key (.placeholder name) >>= f) Q :=
  .change_then (Session.reserveMember_run key _) (fun ha hs => .addMember ha hs key name) fun hs =>
    h _ _ hs List.mem_cons_self

end Yields

theorem Made.mono {s₁ s₂ : Session} (h : Made s member s₁) (hbase : base.Continues s) (hs : s₁.Continues s₂) :
    Made base member s₂ :=
  fun o ho => ⟨Nat.le_trans hbase.members_le (h o ho).1, Nat.lt_of_lt_of_le (h o ho).2 hs.members_le⟩

namespace Answers

/-! ### Overrides -/

theorem fillOverride (hinner : env.Answers inner) {slot : MemberRef} (hslot : (.symbol m, some slot) ∈ s.memberMemo)
    (property : BaseProperty) : env.Yields s s (env.fillOverride inner m property slot) fun _ _ => True := by
  unfold Environment.fillOverride
  refine (hinner.build m slot).ran.bind fun member s₁ hs₁ ⟨hmade, hs, hrun⟩ => ?_
  refine (hinner.member property.symbol).bind fun overrides s₂ hs₂ hoverrides => ?_
  refine (hinner.type property.base).bind fun parent s₃ hs₃ _ => ?_
  have hs₁₃ := hs₂.trans hs₃
  have hslot₃ := (hs₁.trans hs₁₃).member_mem hslot
  have hbuilt := (hinner.builtFor hs hrun).mono hs₁₃
  have hplace (inherited : Option Member) : env.Yields s s₃
      (Resolve.setMember slot (env.overrideOf member parent overrides inherited)) fun _ _ => True := by
    refine .place hslot₃ (.linked hbuilt parent overrides inherited _) (fun o ho => ?_) trivial
    exact hmade.mono (.refl s) hs₁₃ o (by simpa using ho)
  cases overrides with
  | none => exact hplace none
  | some r =>
    refine .getMember fun inherited _ => ?_
    exact hplace (some inherited)

theorem overriding (hinner : env.Answers inner) (m : SymbolId) (property : BaseProperty) :
    env.Yields s s (env.overriding inner m property) fun r s' => (.symbol m, some r) ∈ s'.memberMemo := by
  unfold Environment.overriding
  refine .get ?_
  cases hold : s.cachedMember m with
  | some slot =>
    have hslot : (.symbol m, some slot) ∈ s.memberMemo :=
      Session.mem_of_memberOf? (by simpa [Session.cachedMember, Option.join_eq_some_iff] using hold)
    refine .getMember fun member _ => ?_
    dsimp only
    split
    · exact .pure hslot
    · exact (hinner.fillOverride hslot property).bind fun _ s' hs _ => .pure (hs.member_mem hslot)
  | none =>
    refine .ask fun name _ => .reserve fun slot s' _ hslot => ?_
    exact (hinner.fillOverride hslot property).bind fun _ s'' hs _ => .pure (hs.member_mem hslot)

/-! ### Classes and interfaces -/

theorem implemented (hinner : env.Answers inner) (d : Option NodeId) :
    env.Yields s s (env.implemented inner d) fun _ _ => True := by
  unfold Environment.implemented
  cases d with
  | none => exact .pure trivial
  | some d =>
    refine .ask fun kind _ => ?_
    split
    · refine .ask fun es _ => Yields.mono (Yields.mapM (R := fun _ _ _ => True) (fun _ h => h) fun e _ s' _ => ?_)
        fun _ _ _ _ => trivial
      exact .ask fun t _ => (hinner.type t).mono fun _ _ _ _ => trivial
    · exact .pure trivial

/-- One more of the symbol's members: if it belongs among the instance members, it is put behind them. -/
theorem addMember (hinner : env.Answers inner) (inherited : List (String × BaseProperty)) (c : ClassBody)
    (m : SymbolId) :
    env.Yields s s (env.addMember inner inherited c m) fun c' s' => ∃ v, env.InstanceEntry s' m v ∧
      c'.instanceMembers = c.instanceMembers ++ v.toList ∧ c'.extendedMembers = c.extendedMembers := by
  unfold Environment.addMember
  refine .ask fun flags hflags => ?_
  -- prototypes, constructors and signatures are put elsewhere, if anywhere
  have hapart {s' : Session} (h : flags.hasAny [.prototype, .constructor, .signature] = true) :
      env.InstanceEntry s' m none := ⟨flags, hflags, by rw [if_pos h]⟩
  have helsewhere (set : Option MemberRef → ClassBody)
      (h : flags.hasAny [.prototype, .constructor, .signature] = true)
      (hset : ∀ v, (set v).instanceMembers = c.instanceMembers ∧ (set v).extendedMembers = c.extendedMembers) :
      env.Yields s s (do return set (← inner.member m)) fun c' s' => ∃ v, env.InstanceEntry s' m v ∧
        c'.instanceMembers = c.instanceMembers ++ v.toList ∧ c'.extendedMembers = c.extendedMembers :=
    (hinner.member m).bind fun v s' _ _ => .pure ⟨none, hapart h, by simpa using hset v⟩
  split
  · next hproto => exact .pure ⟨none, hapart (by simp [FlagSet.hasAny, hproto]), by simp⟩
  next hproto =>
  split
  · next hconstructor =>
    exact helsewhere (fun v => { c with constructor := v }) (by simp [FlagSet.hasAny, hconstructor]) fun _ => ⟨rfl, rfl⟩
  next hconstructor =>
  split
  · next hsignature =>
    have h : flags.hasAny [.prototype, .constructor, .signature] = true := by simp [FlagSet.hasAny, hsignature]
    refine .ask fun ds _ => ?_
    cases ds with
    | nil => exact .pure ⟨none, hapart h, by simp⟩
    | cons d rest =>
      refine .ask fun kind _ => ?_
      split
      · exact helsewhere (fun v => { c with indexer := v }) h fun _ => ⟨rfl, rfl⟩
      · exact helsewhere (fun v => { c with newSignature := v }) h fun _ => ⟨rfl, rfl⟩
      · exact .pure ⟨none, hapart h, by simp⟩
  · next hsignature =>
    have hown {s' : Session} {v : Option MemberRef} (hv : (.symbol m, v) ∈ s'.memberMemo) :
        env.InstanceEntry s' m v :=
      ⟨flags, hflags, by simpa [FlagSet.hasAny, hproto, hconstructor, hsignature] using hv⟩
    refine .ask fun name _ => ?_
    split
    · next property _ =>
      exact (hinner.overriding m property).bind fun r s' _ hr => .pure ⟨some r, hown hr, rfl, rfl⟩
    · exact (hinner.member m).bind fun v s' _ hv => .pure ⟨v, hown hv, rfl, rfl⟩

theorem extendedMember (hinner : env.Answers inner) (owner m : SymbolId) :
    env.Yields s s (env.extendedMember inner owner m) fun v s' => env.ExtendedEntry s' owner m v := by
  unfold Environment.extendedMember
  refine .ask fun parent hparent => ?_
  split
  · next hown => exact .pure ⟨parent, hparent, by rw [if_pos hown]⟩
  · next hown =>
    refine .ask fun flags hflags => ?_
    split
    · next hproto => exact .pure ⟨parent, hparent, by rw [if_neg hown]; exact ⟨flags, hflags, by rw [if_pos hproto]⟩⟩
    · next hproto =>
      refine (hinner.member m).mono fun v s' _ hv => ⟨parent, hparent, ?_⟩
      rw [if_neg hown]
      exact ⟨flags, hflags, by rw [if_neg hproto]; exact hv⟩

/-- A class lists its own members, and the properties that its type has from elsewhere. -/
theorem classBody (hinner : env.Answers inner) (m : SymbolId) (d : Option NodeId) (facts : TagFacts)
    (slot : MemberRef) :
    env.Yields s s (env.classBody inner m d facts slot) fun c s' => env.ListsProperties s' m c := by
  unfold Environment.classBody
  refine .ask fun flags hflags => .ask fun declared hdeclared => .ask fun ts _ => ?_
  refine (hinner.typeParameters (some slot) facts.typeParams ts).bind fun params _ _ _ => ?_
  refine .ask fun us _ => (hinner.types us).bind fun bases _ _ _ => ?_
  refine (hinner.implemented d).bind fun implements _ _ _ => ?_
  refine .ask fun exports _ => (hinner.members exports).bind fun members s₄ _ _ => ?_
  refine .ask fun inherited _ => .ask fun own hown => ?_
  refine Yields.bind (Yields.foldlM (I := fun s' done (c : ClassBody) => ∃ known,
    List.Forall₂ (env.InstanceEntry s') done known ∧ c.instanceMembers = known.filterMap id) []
    ⟨[], .nil, rfl⟩ fun done m' c s' _ ⟨known, hknown, hlist⟩ => ?_) fun c s₅ _ ⟨known, hknown, hlist⟩ => ?_
  · refine (hinner.addMember inherited c m').mono fun c' s'' hs ⟨v, hv, hlist', _⟩ => ⟨known ++ [v], ?_, ?_⟩
    · exact List.rel_append (hknown.imp fun _ _ h => h.mono hs.toRecalls) (.cons hv .nil)
    · rw [hlist', hlist, List.filterMap_append]
      cases v <;> simp
  refine .ask fun properties hproperties => ?_
  refine Yields.bind (Yields.mapM (R := fun s' => env.ExtendedEntry s' m) (fun hs h => h.mono hs.toRecalls)
    fun p _ _ _ => hinner.extendedMember m p) fun extended s₆ hs₆ hextended => .pure ?_
  exact {
    own := ⟨own, known, hown, hknown.imp fun _ _ h => h.mono hs₆.toRecalls, hlist⟩
    extended := ⟨flags, declared, properties, extended, hflags, hdeclared, hproperties, hextended, rfl⟩ }

theorem withIndexerSummary (member : Member) (indexer : Option MemberRef) :
    env.Yields base s (Environment.withIndexerSummary member indexer) fun member' s' => s' = s ∧
      member'.body = member.body := by
  unfold Environment.withIndexerSummary
  cases indexer with
  | none => exact .pure ⟨rfl, rfl⟩
  | some r => exact .getMember fun _ _ => .pure ⟨rfl, rfl⟩

/-- What is made of a class or interface. -/
theorem classOfKinds (hinner : env.Answers inner) (m : SymbolId) (slot : MemberRef) (kinds : List SyntaxKind) :
    env.Yields s s (env.classOfKinds inner m slot kinds) fun member s' =>
      ∃ c, member.body = .classLike c ∧ env.ListsProperties s' m c := by
  unfold Environment.classOfKinds
  refine .ask fun d _ => .ask fun facts _ => (hinner.classBody m d facts slot).bind fun c s₁ _ hc => ?_
  refine .ask fun member hmember => (withIndexerSummary member c.indexer).mono ?_
  rintro member' _ - ⟨rfl, hbody⟩
  exact ⟨c, hbody.trans (commonMember_eq_ok hmember).1, hc⟩

theorem companion (hinner : env.Answers inner) (m : SymbolId) :
    env.Yields s s (env.companion inner m) fun _ _ => True := by
  unfold Environment.companion
  refine .get ?_
  cases hold : s.memberOf? (.companion m) with
  | some known => exact .pure trivial
  | none =>
    refine .ask fun name _ => .reserve fun slot s₁ _ hslot => ?_
    refine (hinner.classOfKinds m slot _).ran.bind fun member s₂ hs₂ ⟨⟨c, hbody, _⟩, hs₁, hrun⟩ => ?_
    obtain ⟨depth, rfl⟩ := hinner.recur
    have hbuilt : env.BuiltFor s₂ (.companion m) member :=
      ⟨depth, slot, s₁, s₂, hs₁, hrun, .refl s₂, fun _ _ haside => ⟨haside, rfl⟩⟩
    refine (Yields.place (P := fun _ _ => True) (hs₂.member_mem hslot) (.built hbuilt member.exportName)
      (.of_none ?_) trivial).bind fun _ _ _ _ => .pure trivial
    simp [Member.overloads, hbody]

/-! ### Enums and namespaces -/

theorem enumExports (hinner : env.Answers inner) (numbering : Numbering) (ms : List SymbolId) :
    env.Yields s s (env.enumExports inner numbering ms) fun found s' =>
      env.NumbersExports s' numbering ms found.1 := by
  induction ms generalizing numbering s with
  | nil => exact .pure (.nil numbering)
  | cons m ms ih =>
    unfold Environment.enumExports
    refine .ask fun flags hflags => ?_
    split
    · next hmember =>
      refine (hinner.member m).bind fun v s₁ _ hv => ?_
      cases v with
      | none => exact (ih numbering).on.mono fun found s₂ _ h => .marker hflags hmember (h.1.member_mem hv) h.2
      | some r =>
        refine .ask fun name hname => .ask fun own hown => ?_
        exact (ih _).bind fun found s₂ hs₂ h => .pure (.entry hflags hmember (hs₂.member_mem hv) hname hown h)
    · next hother =>
      exact (hinner.member m).bind fun v s₁ _ _ => (ih numbering).bind fun found s₂ _ h =>
        .pure (.other hflags (by simpa using hother) h)

/-- An enum lists the members among its exports. -/
theorem enumeration (hinner : env.Answers inner) (m : SymbolId) :
    env.Yields s s (env.enumeration inner m) fun member s' => ∃ e ms, member.body = .enumeration e ∧
      env.checker.exportsOf m = .ok ms ∧ env.NumbersExports s' {} ms e.members := by
  unfold Environment.enumeration
  refine .ask fun flags _ => .ask fun d _ => .ask fun facts _ => .ask fun ms hms => ?_
  exact (hinner.enumExports {} ms).bind fun found s' _ h => .answer fun member hmember =>
    ⟨_, ms, (commonMember_eq_ok hmember).1, hms, h⟩

theorem namespaceLike (hinner : env.Answers inner) (m : SymbolId) :
    env.Yields s s (env.namespaceLike inner m) fun member _ => member.overloads = [] := by
  unfold Environment.namespaceLike
  refine .ask fun d _ => .ask fun facts _ => .ask fun ms _ => ?_
  exact (hinner.members ms).bind fun rs _ _ _ => .answer fun member h => overloads_commonMember h (by simp)

end Answers

end Environment

end ApiDoc
