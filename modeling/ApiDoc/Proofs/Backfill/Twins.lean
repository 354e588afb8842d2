import ApiDoc.Proofs.Backfill.Texts
import ApiDoc.Proofs.Contents.Ranges
import ApiDoc.Proofs.Run.Exec

/-!
# Two runs side by side

Two sessions are *twins* if they differ in what is said about members only, and there the second one fills gaps of the
first (`Environment.Twin`).  One text may grow where another was filled: the summary of a class or interface ends with
that of its index signature, which is read once.  This is sound because the place of a signature is written once, after
which its summary stays (`Environment.Steady`), so the text that was read is the one that stands there in the end.

Each way of changing a session takes twins to twins.
-/

namespace ApiDoc

namespace Environment

variable (env : Environment)

/-- A symbol of a call, construct or index signature. -/
def IsSignature (m : SymbolId) : Prop :=
  ∃ flags : SymbolFlags, env.checker.symbolFlags m = .ok flags ∧ flags.has .signature = true

/-- What the member of a signature says, if it says something. -/
def Tells (s : Session) (r : MemberRef) (text : String) : Prop :=
  ∃ m member, env.IsSignature m ∧ s.memberOf? (.symbol m) = some (some r) ∧ s.memberAt? r = some member ∧
    member.doc.summary = text ∧ text ≠ ""

/-- A summary is kept, or that of a class or interface has grown by what its index signature says. -/
def KeepsSummary (s : Session) (own full : Member) : Prop :=
  Text.Kept own.doc.summary full.doc.summary ∨
    ∃ c r text, own.body = .classLike c ∧ c.indexer = some r ∧ env.Tells s r text ∧
      full.doc.summary = NamedTexts.joinText (some own.doc.summary) text

/-- A member that is the same apart from its texts, of which nothing but gaps was filled. -/
structure Fills (s : Session) (own full : Member) : Prop where
  texts : own.Fills full
  summary : env.KeepsSummary s own full

/-- Sessions that differ in texts only: the second fills gaps of the first.  The places of keys are there and
different from each other. -/
structure Twin (s s' : Session) : Prop where
  types : s'.graph.types = s.graph.types
  typeMemo : s'.typeMemo = s.typeMemo
  owners : s'.typeParamOwners = s.typeParamOwners
  memberOf (key) : s'.memberOf? key = s.memberOf? key
  size : s'.graph.members.size = s.graph.members.size
  member {r own full} : s.memberAt? r = some own → s'.memberAt? r = some full → env.Fills s' own full
  signature {m r own full} : env.IsSignature m → s'.memberOf? (.symbol m) = some (some r) →
    s.memberAt? r = some own → s'.memberAt? r = some full → Text.Kept own.doc.summary full.doc.summary
  range {key r} : s'.memberOf? key = some (some r) → r.index < s'.graph.members.size
  single {key key' r} : s'.memberOf? key = some (some r) → s'.memberOf? key' = some (some r) → key = key'
  markers {m} : s'.memberOf? (.symbol m) = some none → env.IsMarker m

/-- What no piece of the resolver undoes; the summaries of signatures are among it. -/
structure Steady (s s' : Session) : Prop extends s.Keeps s' where
  summary {m r member} : env.IsSignature m → s.memberOf? (.symbol m) = some (some r) → s.memberAt? r = some member →
    ∃ member', s'.memberAt? r = some member' ∧ member'.doc.summary = member.doc.summary

variable {env} {s s' t t' : Session} {own full : Member}

theorem Steady.refl (s : Session) : env.Steady s s := ⟨.refl s, fun _ _ h => ⟨_, h, rfl⟩⟩

theorem Steady.trans {s'' : Session} (h : env.Steady s s') (h' : env.Steady s' s'') : env.Steady s s'' where
  toKeeps := h.toKeeps.trans h'.toKeeps
  summary hm hr hmember := by
    obtain ⟨mid, hmid, heq⟩ := h.summary hm hr hmember
    obtain ⟨last, hlast, heq'⟩ := h'.summary hm (h.memberOf hr) hmid
    exact ⟨last, hlast, heq'.trans heq⟩

/-- Where the members are the same. -/
theorem Steady.of_same (hs : s.Keeps s') (hat : ∀ r, r.index < s.graph.members.size → s'.memberAt? r = s.memberAt? r) :
    env.Steady s s' :=
  ⟨hs, fun _ _ hmember => ⟨_, (hat _ (Session.memberAt?_eq_some_lt hmember)).trans hmember, rfl⟩⟩

theorem Steady.growMember (member : Member) : env.Steady s (s.growMember member) := by
  refine .of_same (.growMember s member) fun r hr => ?_
  rw [Session.memberAt?_growMember, if_neg (Nat.ne_of_lt hr)]

theorem Steady.addMember {key : MemberKey} (hnew : s.memberOf? key = none) (member : Member) :
    env.Steady s (s.addMember key member) := by
  refine .of_same (.addMember hnew member) fun r hr => ?_
  rw [Session.memberAt?_addMember, if_neg (Nat.ne_of_lt hr)]

theorem Tells.keep {r : MemberRef} {text : String} (h : env.Tells s r text) (hs : env.Steady s s') :
    env.Tells s' r text := by
  obtain ⟨m, member, hm, hr, hmember, heq, hne⟩ := h
  obtain ⟨member', hmember', heq'⟩ := hs.summary hm hr hmember
  exact ⟨m, member', hm, hs.memberOf hr, hmember', heq'.trans heq, hne⟩

/-! ### Filled members -/

namespace Fills

theorem refl (s : Session) (m : Member) : env.Fills s m m := ⟨.refl m, .inl (.refl _)⟩

/-- What signatures say has to stay. -/
theorem mono (h : env.Fills s own full) (htells : ∀ r text, env.Tells s r text → env.Tells s' r text) :
    env.Fills s' own full where
  texts := h.texts
  summary := h.summary.imp_right fun ⟨c, r, text, hbody, hindexer, htext, heq⟩ =>
    ⟨c, r, text, hbody, hindexer, htells r text htext, heq⟩

theorem keep (h : env.Fills s own full) (hs : env.Steady s s') : env.Fills s' own full :=
  h.mono fun _ _ htext => htext.keep hs

/-- Where there is no class the summary is kept. -/
theorem kept (h : env.Fills s own full) (hbody : own.class? = none) : Text.Kept own.doc.summary full.doc.summary := by
  rcases h.summary with hkept | ⟨c, -, -, hclass, -⟩
  · exact hkept
  · simp [Member.class?, hclass] at hbody

/-- A summary that has grown says something, so that filling it changes nothing. -/
theorem of_fill {full' : Member} (h : env.Fills s own full) (htexts : full.Fills full') (base : String)
    (hsummary : full'.doc.summary = Text.fill full.doc.summary base) : env.Fills s own full' := by
  refine ⟨h.texts.trans htexts, ?_⟩
  rcases h.summary with hkept | ⟨c, r, text, hbody, hindexer, htells, heq⟩
  · rw [KeepsSummary, hsummary]
    exact .inl (hkept.trans (Text.kept_fill _ _))
  · refine .inr ⟨c, r, text, hbody, hindexer, htells, ?_⟩
    obtain ⟨-, -, -, -, -, -, hne⟩ := htells
    have hgrown : full.doc.summary ≠ "" := by
      rw [heq, NamedTexts.joinText]
      split
      · exact hne
      · split
        · next hempty => exact absurd (String.isEmpty_iff.1 hempty) hne
        · simp
    rw [hsummary, Text.kept_fill _ _ hgrown, heq]

theorem inherit (h : env.Fills s own full) (base : Member) : env.Fills s own (full.inherit base) :=
  h.of_fill (full.fills_inherit base) base.doc.summary rfl

theorem fillFrom (h : env.Fills s own full) (base : Member) : env.Fills s own (full.fillFrom base) := by
  refine h.of_fill (full.fills_fillFrom base) "" ?_
  rw [full.doc_fillFrom base, Text.fill_empty]

theorem fillFromOverloads (h : env.Fills s own full) (others : List Member) :
    env.Fills s own (full.fillFromOverloads others) :=
  h.of_fill (full.fills_fillFromOverloads others) _ (full.summary_fillFromOverloads others)

/-- Changes that are made to both members and concern no texts. -/
theorem congr {own' full' : Member} (h : env.Fills s own full) (htexts : own'.Fills full')
    (hdoc : own'.doc = own.doc) (hdoc' : full'.doc = full.doc) (hclass : own'.class? = own.class?) :
    env.Fills s own' full' := by
  refine ⟨htexts, ?_⟩
  unfold KeepsSummary
  rw [hdoc, hdoc']
  refine h.summary.imp_right fun ⟨c, r, text, hbody, hrest⟩ => ⟨c, r, text, ?_, hrest⟩
  have hc : own'.class? = some c := by rw [hclass, Member.class?, hbody]
  unfold Member.class? at hc
  split at hc
  · next hbody' => rw [hbody', Option.some.inj hc]
  · cases hc

theorem withOverloads (h : env.Fills s own full) (overloads : List MemberRef) (companion : Option MemberRef) :
    env.Fills s (own.withOverloads overloads companion) (full.withOverloads overloads companion) :=
  h.congr (h.texts.withOverloads overloads companion) (own.doc_withOverloads _ _) (full.doc_withOverloads _ _)
    (own.class?_withOverloads _ _)

end Fills

/-! ### Changes -/

namespace Twin

theorem empty : env.Twin {} {} where
  types := rfl
  typeMemo := rfl
  owners := rfl
  memberOf _ := rfl
  size := rfl
  member h h' := by
    obtain rfl := Option.some.inj (h.symm.trans h')
    exact .refl _ _
  signature _ h := by simp at h
  range h := by simp at h
  single h := by simp at h
  markers h := by simp at h

theorem typeOf (h : env.Twin s s') (t : TypeId) : s'.typeOf? t = s.typeOf? t := by
  simp only [Session.typeOf?, h.typeMemo]

theorem ownerOf (h : env.Twin s s') (t : TypeId) : s'.ownerOf? t = s.ownerOf? t := by
  simp only [Session.ownerOf?, h.owners]

theorem cachedMember (h : env.Twin s s') (m : SymbolId) : s'.cachedMember m = s.cachedMember m := by
  simp only [Session.cachedMember, h.memberOf]

/-- A place that is there on one side is there on the other. -/
theorem exists_full (h : env.Twin s s') {r : MemberRef} (hown : s.memberAt? r = some own) :
    ∃ full, s'.memberAt? r = some full :=
  Session.exists_memberAt? (h.size ▸ Session.memberAt?_eq_some_lt hown)

/-- What concerns types is done on both sides and leaves members alone. -/
theorem of_types (h : env.Twin s s') (htypes : t'.graph.types = t.graph.types) (hmemo : t'.typeMemo = t.typeMemo)
    (howners : t'.typeParamOwners = t.typeParamOwners) (hmembers : t.graph.members = s.graph.members)
    (hmembers' : t'.graph.members = s'.graph.members) (hmember : ∀ key, t.memberOf? key = s.memberOf? key)
    (hmember' : ∀ key, t'.memberOf? key = s'.memberOf? key) : env.Twin t t' := by
  have hat (r : MemberRef) : t.memberAt? r = s.memberAt? r := by simp only [Session.memberAt?, hmembers]
  have hat' (r : MemberRef) : t'.memberAt? r = s'.memberAt? r := by simp only [Session.memberAt?, hmembers']
  refine ⟨htypes, hmemo, howners, fun key => ?_, ?_, fun {r own full} hown hfull => ?_,
    fun {m r own full} hm hr hown hfull => ?_, fun {key r} hr => ?_, fun {key key' r} hr hr' => ?_, fun {m} hm => ?_⟩
  · rw [hmember, hmember', h.memberOf]
  · rw [hmembers, hmembers', h.size]
  · rw [hat] at hown
    rw [hat'] at hfull
    refine (h.member hown hfull).mono fun r text hwritten => ?_
    obtain ⟨m, member, hm, hr, hmember, hrest⟩ := hwritten
    exact ⟨m, member, hm, (hmember' _).trans hr, (hat' r).trans hmember, hrest⟩
  · rw [hat] at hown
    rw [hat'] at hfull
    rw [hmember'] at hr
    exact h.signature hm hr hown hfull
  · rw [hmember'] at hr
    rw [hmembers']
    exact h.range hr
  · rw [hmember'] at hr hr'
    exact h.single hr hr'
  · rw [hmember'] at hm
    exact h.markers hm

theorem growType (h : env.Twin s s') (node : TypeNode) : env.Twin (s.growType node) (s'.growType node) :=
  h.of_types (congrArg (·.push node) h.types) h.typeMemo h.owners rfl rfl (by simp) (by simp)

theorem addType (h : env.Twin s s') (t : TypeId) (node : TypeNode) :
    env.Twin (s.addType t node) (s'.addType t node) :=
  h.of_types (h.growType node).types (by simp [Session.addType, h.types, h.typeMemo]) h.owners rfl rfl (by simp)
    (by simp)

theorem shareType (h : env.Twin s s') (t : TypeId) (r : TypeRef) : env.Twin (s.shareType t r) (s'.shareType t r) :=
  h.of_types h.types (by simp [Session.shareType, h.typeMemo]) h.owners rfl rfl (by simp) (by simp)

theorem putType (h : env.Twin s s') (r : TypeRef) (node : TypeNode) :
    env.Twin (s.putType r node) (s'.putType r node) :=
  h.of_types (by simp [Session.putType, h.types]) h.typeMemo h.owners rfl rfl (by simp) (by simp)

theorem recordOwner (h : env.Twin s s') (t : TypeId) (r : MemberRef) :
    env.Twin (s.recordOwner t r) (s'.recordOwner t r) := by
  have hrecord : (s'.recordOwner t r).graph.types = (s.recordOwner t r).graph.types ∧
      (s'.recordOwner t r).typeMemo = (s.recordOwner t r).typeMemo ∧
      (s'.recordOwner t r).typeParamOwners = (s.recordOwner t r).typeParamOwners := by
    have howner := h.ownerOf t
    cases ho : s.ownerOf? t <;> cases hr : s.typeMemo.lookup t <;>
      simp [Session.recordOwner, Session.typeOf?, howner, ho, hr, h.types, h.typeMemo, h.owners]
  exact h.of_types hrecord.1 hrecord.2.1 hrecord.2.2 (by simp) (by simp) (by simp) (by simp)

/-- One more member, the same on both sides. -/
theorem of_grown (h : env.Twin s s') {member : Member} (hs : env.Steady s' t') (htypes : t'.graph.types = t.graph.types)
    (hmemo : t'.typeMemo = t.typeMemo) (howners : t'.typeParamOwners = t.typeParamOwners)
    (hmember : ∀ key, t'.memberOf? key = t.memberOf? key) (hsize : t'.graph.members.size = t.graph.members.size)
    (hat : ∀ r, t.memberAt? r = if r.index = s.graph.members.size then some member else s.memberAt? r)
    (hat' : ∀ r, t'.memberAt? r = if r.index = s'.graph.members.size then some member else s'.memberAt? r)
    (hsignature : ∀ {m r}, t'.memberOf? (.symbol m) = some (some r) → r.index ≠ s'.graph.members.size →
      s'.memberOf? (.symbol m) = some (some r))
    (hrange : ∀ {key r}, t'.memberOf? key = some (some r) → r.index < t'.graph.members.size)
    (hsingle : ∀ {key key' r}, t'.memberOf? key = some (some r) → t'.memberOf? key' = some (some r) → key = key')
    (hmarkers : ∀ {m}, t'.memberOf? (.symbol m) = some none → env.IsMarker m) : env.Twin t t' := by
  have hcases {r : MemberRef} {own full : Member} (hown : t.memberAt? r = some own) (hfull : t'.memberAt? r = some full) :
      own = full ∨ r.index ≠ s'.graph.members.size ∧ s.memberAt? r = some own ∧ s'.memberAt? r = some full := by
    rw [hat, ← h.size] at hown
    rw [hat'] at hfull
    by_cases hnew : r.index = s'.graph.members.size
    · rw [if_pos hnew] at hown hfull
      exact .inl (Option.some.inj (hown.symm.trans hfull))
    · rw [if_neg hnew] at hown hfull
      exact .inr ⟨hnew, hown, hfull⟩
  refine ⟨htypes, hmemo, howners, hmember, hsize, fun hown hfull => ?_, fun hm hr hown hfull => ?_, hrange, hsingle,
    hmarkers⟩
  · rcases hcases hown hfull with rfl | ⟨-, hown, hfull⟩
    · exact .refl _ _
    · exact (h.member hown hfull).keep hs
  · rcases hcases hown hfull with rfl | ⟨hold, hown, hfull⟩
    · exact .refl _
    · exact h.signature hm (hsignature hr hold) hown hfull

theorem growMember (h : env.Twin s s') (member : Member) : env.Twin (s.growMember member) (s'.growMember member) := by
  refine h.of_grown (.growMember member) h.types h.typeMemo h.owners (by simpa using h.memberOf) (by simpa using h.size)
    (Session.memberAt?_growMember member) (Session.memberAt?_growMember member) (fun hr _ => by simpa using hr)
    (fun hr => ?_) (fun hr hr' => h.single (by simpa using hr) (by simpa using hr'))
    fun hm => h.markers (by simpa using hm)
  have hlt := h.range (by simpa using hr)
  simpa using Nat.lt_succ_of_lt hlt

/-- A new key with the same member on both sides. -/
theorem addMember (h : env.Twin s s') {key : MemberKey} (member : Member) (hnew : s'.memberOf? key = none) :
    env.Twin (s.addMember key member) (s'.addMember key member) := by
  refine h.of_grown (.addMember hnew member) h.types h.typeMemo h.owners (fun k => ?_) (by simpa using h.size)
    (Session.memberAt?_addMember key member) (Session.memberAt?_addMember key member) (fun {m r} hr hne => ?_)
    (fun {k r} hr => ?_) (Session.single_addMember h.range h.single) fun {m} hm => ?_
  · rw [Session.memberOf?_addMember, Session.memberOf?_addMember, h.size, h.memberOf]
  · obtain ⟨-, hr⟩ | ⟨-, hr⟩ := Session.memberOf?_addMember_eq_some_iff.1 hr
    · obtain rfl := Option.some.inj hr
      exact absurd rfl hne
    · exact hr
  · rw [Session.members_addMember]
    obtain ⟨-, hr⟩ | ⟨-, hr⟩ := Session.memberOf?_addMember_eq_some_iff.1 hr
    · obtain rfl := Option.some.inj hr
      exact Nat.lt_succ_self _
    · exact Nat.lt_succ_of_lt (h.range hr)
  · obtain ⟨-, hm⟩ | ⟨-, hm⟩ := Session.memberOf?_addMember_eq_some_iff.1 hm
    · exact nomatch hm
    · exact h.markers hm

/-- A marker has no member. -/
theorem skipMember (h : env.Twin s s') {m : SymbolId} (hmarker : env.IsMarker m)
    (hnew : s'.memberOf? (.symbol m) = none) :
    env.Twin (s.skipMember (.symbol m)) (s'.skipMember (.symbol m)) := by
  have hold {key : MemberKey} {r : MemberRef}
      (hr : (s'.skipMember (.symbol m)).memberOf? key = some (some r)) : s'.memberOf? key = some (some r) :=
    Session.memberOf?_of_skipMember hr
  have hs : env.Steady s' (s'.skipMember (.symbol m)) := .of_same (.skipMember hnew) fun _ _ => rfl
  refine ⟨h.types, h.typeMemo, h.owners, fun key => ?_, h.size, fun hown hfull => (h.member hown hfull).keep hs,
    fun hm hr => h.signature hm (hold hr), fun hr => h.range (hold hr), fun hr hr' => h.single (hold hr) (hold hr'),
    fun {m'} hm' => ?_⟩
  · rw [Session.memberOf?_skipMember, Session.memberOf?_skipMember, h.memberOf]
  · obtain ⟨hkey, -⟩ | ⟨-, hm'⟩ := Session.memberOf?_skipMember_eq_some_iff.1 hm'
    · obtain rfl := MemberKey.symbol.inj hkey
      exact hmarker
    · exact h.markers hm'

/-- Another member in a place.  If it is the place of a signature, it said nothing before, or what is put there says the
same. -/
theorem putMember (h : env.Twin s s') {r : MemberRef} (hfills : env.Fills s' own full)
    (hsignature : ∀ m old, env.IsSignature m → s'.memberOf? (.symbol m) = some (some r) → s'.memberAt? r = some old →
      (old.doc.summary = "" ∨ old.doc.summary = full.doc.summary) ∧ Text.Kept own.doc.summary full.doc.summary) :
    env.Twin (s.putMember r own) (s'.putMember r full) := by
  have htells (q : MemberRef) (text : String) (ht : env.Tells s' q text) : env.Tells (s'.putMember r full) q text := by
    obtain ⟨m, member, hm, hq, hmember, rfl, hne⟩ := ht
    by_cases heq : r = q
    · subst heq
      rcases (hsignature m member hm hq hmember).1 with hempty | hsame
      · exact absurd hempty hne
      · exact ⟨m, full, hm, hq, Session.memberAt?_putMember_self (h.range hq) full, hsame.symm, hne⟩
    · exact ⟨m, member, hm, hq, by rw [Session.memberAt?_putMember, if_neg heq, hmember], rfl, hne⟩
  have hcases {q : MemberRef} {own' full' : Member} (hown : (s.putMember r own).memberAt? q = some own')
      (hfull : (s'.putMember r full).memberAt? q = some full') :
      r = q ∧ own' = own ∧ full' = full ∨ s.memberAt? q = some own' ∧ s'.memberAt? q = some full' := by
    rw [Session.memberAt?_putMember] at hown hfull
    by_cases heq : r = q
    · rw [if_pos heq] at hown hfull
      obtain ⟨_, -, rfl⟩ := Option.map_eq_some_iff.1 hown
      obtain ⟨_, -, rfl⟩ := Option.map_eq_some_iff.1 hfull
      exact .inl ⟨heq, rfl, rfl⟩
    · rw [if_neg heq] at hown hfull
      exact .inr ⟨hown, hfull⟩
  refine ⟨h.types, h.typeMemo, h.owners, h.memberOf, by simpa using h.size, fun hown hfull => ?_,
    fun {m q _ _} hm hq hown hfull => ?_, fun hq => by simpa using h.range hq, h.single, h.markers⟩
  · rcases hcases hown hfull with ⟨rfl, rfl, rfl⟩ | ⟨hown, hfull⟩
    · exact hfills.mono htells
    · exact (h.member hown hfull).mono htells
  · rcases hcases hown hfull with ⟨rfl, rfl, rfl⟩ | ⟨hown, hfull⟩
    · obtain ⟨old, hold⟩ := Session.exists_memberAt? (h.range hq)
      exact (hsignature m old hm hq hold).2
    · exact h.signature hm hq hown hfull

end Twin

/-- What is put in a place that is no signature's leaves what signatures say as it is. -/
theorem Steady.putMember {r : MemberRef} (member : Member)
    (h : ∀ m old, env.IsSignature m → s.memberOf? (.symbol m) = some (some r) → s.memberAt? r = some old →
      old.doc.summary = member.doc.summary) : env.Steady s (s.putMember r member) where
  toKeeps := .putMember s r member
  summary {m q old} hm hq hold := by
    rw [Session.memberAt?_putMember]
    split
    · next heq =>
      subst heq
      exact ⟨member, by rw [hold]; rfl, (h m old hm hq hold).symm⟩
    · exact ⟨old, hold, rfl⟩

end Environment

end ApiDoc
