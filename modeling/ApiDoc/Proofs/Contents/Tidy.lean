import ApiDoc.Proofs.Contents.Overloads
import ApiDoc.Proofs.Run.Machine

/-!
# What stands in a session

Places are handed out before what belongs there is known, so for a while a placeholder stands in them.  A
session is *tidy* if all its references lead somewhere, no two keys share a place, overloads are kept apart, and
in the place of each key stands the finished member of that key (`Environment.Finished`), or still a placeholder
if the key is one of those that are pending (`Environment.Tidy`).  What a class or method owns beside what its
symbol exports comes from its symbol too (`Environment.Owns`).

Each way of changing a session keeps it tidy; the lemmas say under which condition.
-/

namespace ApiDoc

/-- The members of a class's instances, those with a place of their own included. -/
def ClassBody.instanceSide (c : ClassBody) : List MemberRef :=
  c.instanceMembers ++ c.constructor.toList ++ c.indexer.toList ++ c.newSignature.toList

/-- What a run is in the middle of: the keys whose members are not finished, and the overloads that no method
lists yet. -/
structure Context where
  pending : MemberKey → Prop
  held : MemberRef → Prop

namespace Context

/-- Nothing is left to do. -/
def closed : Context := ⟨fun _ => False, fun _ => False⟩

/-- One more key is pending. -/
def opening (ctx : Context) (key : MemberKey) : Context := { ctx with pending := fun k => ctx.pending k ∨ k = key }

/-- More overloads are held. -/
def holding (ctx : Context) (os : List MemberRef) : Context := { ctx with held := fun o => ctx.held o ∨ o ∈ os }

/-- Whatever was pending is given up, and anything may be left unfinished. -/
def abandoned (ctx : Context) : Context := { ctx with pending := fun _ => True }

end Context

namespace Environment

variable (env : Environment)

/-! ### Finished members -/

/-- A declaration of a symbol that is not one of a container merged with it. -/
def IsCallable (m : SymbolId) (d : NodeId) : Prop :=
  ∃ ds kind, env.checker.declarations m = .ok ds ∧ d ∈ ds ∧ env.checker.nodeKind d = .ok kind ∧
    kind.isContainer = false

/-- Whether a symbol is a member of an enum. -/
def isEnumMember (m : SymbolId) : Bool :=
  match env.checker.symbolFlags m with
  | .ok flags => flags.has .enumMember
  | .error _ => false

/-- A class or interface with what its symbol exports, in order. -/
def ShowsClass (s : Session) (m : SymbolId) (body : MemberBody) : Prop :=
  ∃ c ms, body = .classLike c ∧ env.checker.exportsOf m = .ok ms ∧ env.HoldsMembers s ms c.members

/-- An enum with what its symbol exports: enum members and everything else apart, each in order. -/
def ShowsEnum (s : Session) (m : SymbolId) (body : MemberBody) : Prop :=
  ∃ e ms, body = .enumeration e ∧ env.checker.exportsOf m = .ok ms ∧
    env.HoldsMembers s (ms.filter env.isEnumMember) (e.members.map EnumEntry.member) ∧
    env.HoldsMembers s (ms.filter fun m' => !env.isEnumMember m') e.namespaceMembers

/-- What a symbol of some class is documented as. -/
def ShowsSymbol (s : Session) (m : SymbolId) (body : MemberBody) : SymbolClass → Prop
  | .marker | .field | .accessor | .unclassified => ∃ f, body = .field f
  | .method =>
    (∃ d, env.IsCallable m d) ∧ (∃ f, body = .method f) ∨
      (¬ ∃ d, env.IsCallable m d) ∧ ∃ f, body = .field f
  | .classLike => env.ShowsClass s m body
  | .enumeration => env.ShowsEnum s m body
  | .namespaceLike => ∃ ms rs, env.checker.exportsOf m = .ok ms ∧ env.HoldsMembers s ms rs ∧
      body = .namespaceLike rs
  | .alias => ∃ type params, body = .alias type params

/-- What a key is documented as: a symbol as its flags say, and whatever a function is merged with as a
class. -/
def Shows (s : Session) (body : MemberBody) : MemberKey → Prop
  | .symbol m => ∃ flags, env.checker.symbolFlags m = .ok flags ∧
      env.ShowsSymbol s m body (SymbolClass.of flags)
  | .companion m => env.ShowsClass s m body

/-- Where a symbol is documented: at one of its declarations, if it has any. -/
def StandsAt (m : SymbolId) (location : Location) : Prop :=
  (∃ d, env.Declares m d ∧ env.location d = .ok location) ∨
    env.checker.declarations m = .ok [] ∧ location = {}

/-- What a key is documented as in the end. -/
structure Finished (s : Session) (key : MemberKey) (member : Member) : Prop where
  shows : env.Shows s member.body key
  place : env.StandsAt key.owner member.location

/-- What stands in the place of a key from the start: a member that says nothing but the name of its symbol, and
perhaps the name under which it is exported. -/
def IsPlaceholder (key : MemberKey) (member : Member) : Prop :=
  ∃ name exported, env.checker.symbolName key.owner = .ok name ∧
    member = { Member.placeholder name with exportName := exported }

/-! ### What members own -/

/-- The instance side of a class stands for different symbols among some of its symbol's members. -/
def Lists (s : Session) (ms : List SymbolId) (rs : List MemberRef) : Prop :=
  ∃ own : List SymbolId, own.Subperm ms ∧
    List.Forall₂ (fun m r => s.memberOf? (.symbol m) = some (some r)) own rs

/-- What a key's member owns beside what the symbol exports: a class the members of its symbol, a method the
companion of its symbol. -/
def Owns (s : Session) (key : MemberKey) : MemberBody → Prop
  | .classLike c => ∃ ms, env.checker.membersOf key.owner = .ok ms ∧ Lists s ms c.instanceSide
  | .method f => ∀ r, f.companion = some r → ∃ m, key = .symbol m ∧ s.memberOf? (.companion m) = some (some r)
  | _ => True

/-- A symbol that is documented as a method. -/
def IsMethodLike (m : SymbolId) : Prop :=
  ∃ flags, env.checker.symbolFlags m = .ok flags ∧ SymbolClass.of flags = .method

/-! ### Tidy sessions -/

/-- A session in which every key has its finished member, those that are pending apart. -/
structure Tidy (ctx : Context) (s : Session) : Prop where
  range : s.InRange
  markers {m v} : s.memberOf? (.symbol m) = some v → (v = none ↔ env.IsMarker m)
  single {key key' r} : s.memberOf? key = some (some r) → s.memberOf? key' = some (some r) → key = key'
  finished {key r} : s.memberOf? key = some (some r) → ∃ member, s.memberAt? r = some member ∧
    (env.Finished s key member ∨ ctx.pending key ∧ env.IsPlaceholder key member)
  owns {key r member} : s.memberOf? key = some (some r) → s.memberAt? r = some member →
    env.Owns s key member.body
  companions {m v} : s.memberOf? (.companion m) = some v → env.IsMethodLike m
  apart : s.Apart ctx.held

variable {env} {s s' : Session}

/-- A placeholder overrides nothing. -/
theorem IsPlaceholder.plain {key : MemberKey} {member : Member} (h : env.IsPlaceholder key member) :
    member.isOverride = false := by
  obtain ⟨name, exported, -, rfl⟩ := h
  rfl

/-! ### What is finished stays so -/

theorem HoldsMember.keep {m : SymbolId} {v : Option MemberRef} (h : env.HoldsMember s m v)
    (hs : s.Keeps s') : env.HoldsMember s' m v :=
  ⟨hs.memberOf h.1, h.2⟩

theorem HoldsMembers.keep {ms : List SymbolId} {rs : List MemberRef} (h : env.HoldsMembers s ms rs)
    (hs : s.Keeps s') : env.HoldsMembers s' ms rs := by
  obtain ⟨known, hknown, rfl⟩ := h
  exact ⟨known, hknown.imp fun _ _ hv => hv.keep hs, rfl⟩

theorem ShowsClass.keep {m : SymbolId} {body : MemberBody} (h : env.ShowsClass s m body)
    (hs : s.Keeps s') : env.ShowsClass s' m body := by
  obtain ⟨c, ms, hbody, hms, hmembers⟩ := h
  exact ⟨c, ms, hbody, hms, hmembers.keep hs⟩

theorem ShowsSymbol.keep {m : SymbolId} {body : MemberBody} {c : SymbolClass}
    (h : env.ShowsSymbol s m body c) (hs : s.Keeps s') : env.ShowsSymbol s' m body c := by
  cases c with
  | marker | field | accessor | unclassified | method | «alias» => exact h
  | classLike => exact ShowsClass.keep h hs
  | enumeration =>
    obtain ⟨e, ms, hbody, hms, hentries, hothers⟩ := h
    exact ⟨e, ms, hbody, hms, hentries.keep hs, hothers.keep hs⟩
  | namespaceLike =>
    obtain ⟨ms, rs, hms, hmembers, hbody⟩ := h
    exact ⟨ms, rs, hms, hmembers.keep hs, hbody⟩

theorem Finished.keep {key : MemberKey} {member : Member} (h : env.Finished s key member)
    (hs : s.Keeps s') : env.Finished s' key member where
  shows := by
    cases key with
    | symbol m =>
      obtain ⟨flags, hflags, hshows⟩ := h.shows
      exact ⟨flags, hflags, hshows.keep hs⟩
    | companion m => exact ShowsClass.keep h.shows hs
  place := h.place

/-- What a symbol whose flags are known is documented as. -/
theorem Finished.showsSymbol {m : SymbolId} {member : Member} {flags : SymbolFlags}
    (h : env.Finished s (.symbol m) member) (hflags : env.checker.symbolFlags m = .ok flags) :
    env.ShowsSymbol s m member.body (SymbolClass.of flags) := by
  obtain ⟨flags', hflags', hshows⟩ := h.shows
  obtain rfl : flags = flags' := Except.ok.inj (hflags.symm.trans hflags')
  exact hshows

theorem Lists.keep {ms : List SymbolId} {rs : List MemberRef} (h : Lists s ms rs) (hs : s.Keeps s') :
    Lists s' ms rs := by
  obtain ⟨own, hown, hrs⟩ := h
  exact ⟨own, hown, hrs.imp fun _ _ hr => hs.memberOf hr⟩

theorem Owns.keep {key : MemberKey} {body : MemberBody} (h : env.Owns s key body) (hs : s.Keeps s') :
    env.Owns s' key body := by
  cases body with
  | classLike c =>
    obtain ⟨ms, hms, hlists⟩ := h
    exact ⟨ms, hms, hlists.keep hs⟩
  | method f =>
    intro r hr
    obtain ⟨m, hkey, hcompanion⟩ := h r hr
    exact ⟨m, hkey, hs.memberOf hcompanion⟩
  | field _ | enumeration _ | namespaceLike _ | «alias» _ _ => trivial

/-! ### Changes -/

namespace Tidy

variable {ctx ctx' : Context}

theorem empty : env.Tidy .closed {} where
  range := .empty
  markers h := by simp at h
  single h := by simp at h
  finished h := by simp at h
  owns h := by simp at h
  companions h := by simp at h
  apart := .empty

theorem weaken (h : env.Tidy ctx s) (hpending : ∀ key, ctx.pending key → ctx'.pending key)
    (hheld : ∀ o, ctx'.held o → ctx.held o) : env.Tidy ctx' s where
  range := h.range
  markers := h.markers
  single := h.single
  finished hr := by
    obtain ⟨member, hat, hmember⟩ := h.finished hr
    exact ⟨member, hat, hmember.imp_right fun hp => ⟨hpending _ hp.1, hp.2⟩⟩
  owns := h.owns
  companions := h.companions
  apart := h.apart.weaken hheld

theorem abandoned (h : env.Tidy ctx s) : env.Tidy ctx.abandoned s :=
  h.weaken (fun _ _ => trivial) fun _ => id

/-- Spare members can be held. -/
theorem holding (h : env.Tidy ctx s) {os : List MemberRef} (hos : ∀ o ∈ os, s.IsSpare o) :
    env.Tidy (ctx.holding os) s :=
  { h with apart := h.apart.hold hos }

/-- A key that is finished is not pending any more. -/
theorem finish {key : MemberKey} (h : env.Tidy (ctx.opening key) s)
    (hkey : ∀ r, s.memberOf? key = some (some r) →
      ∃ member, s.memberAt? r = some member ∧ env.Finished s key member) : env.Tidy ctx s :=
  { h with
    finished := fun {k r} hr => by
      obtain ⟨member, hat, hmember | ⟨hp | rfl, hplain⟩⟩ := h.finished hr
      · exact ⟨member, hat, .inl hmember⟩
      · exact ⟨member, hat, .inr ⟨hp, hplain⟩⟩
      · obtain ⟨member, hat, hmember⟩ := hkey r hr
        exact ⟨member, hat, .inl hmember⟩ }

/-- Where the same is remembered of members, and the members that are somebody's are the same. -/
theorem of_same (h : env.Tidy ctx s) (hs : s.Keeps s') (hrange : s'.InRange)
    (hmemo : ∀ key, s'.memberOf? key = s.memberOf? key)
    (hat : ∀ r, r.index < s.graph.members.size → s'.memberAt? r = s.memberAt? r)
    (hapart : s'.Apart ctx.held) : env.Tidy ctx s' where
  range := hrange
  markers hv := h.markers (by rwa [hmemo] at hv)
  single hr hr' := h.single (by rwa [hmemo] at hr) (by rwa [hmemo] at hr')
  finished hr := by
    rw [hmemo] at hr
    obtain ⟨member, hmember, hfinished⟩ := h.finished hr
    refine ⟨member, ?_, hfinished.imp_left fun hf => hf.keep hs⟩
    rw [hat _ (Session.memberAt?_eq_some_lt hmember), hmember]
  owns hr hmember := by
    rw [hmemo] at hr
    rw [hat _ (h.range.memberOf hr)] at hmember
    exact (h.owns hr hmember).keep hs
  companions hv := h.companions (by rwa [hmemo] at hv)
  apart := hapart

theorem growType (h : env.Tidy ctx s) {node : TypeNode} (hnode : node.InRange (s.growType node).graph) :
    env.Tidy ctx (s.growType node) :=
  have hs := Session.Keeps.growType s node
  h.of_same hs (h.range.growType hnode) (by simp) (by simp) (h.apart.of_same hs (by simp))

theorem addType (h : env.Tidy ctx s) {t : TypeId} {node : TypeNode}
    (hnode : node.InRange (s.growType node).graph) : env.Tidy ctx (s.addType t node) :=
  have hs := Session.Keeps.addType s t node
  h.of_same hs (h.range.addType hnode) (by simp) (by simp) (h.apart.of_same hs (by simp))

theorem shareType (h : env.Tidy ctx s) {t : TypeId} {r : TypeRef} (hr : s.graph.HasType r) :
    env.Tidy ctx (s.shareType t r) :=
  have hs := Session.Keeps.shareType s t r
  h.of_same hs (h.range.shareType hr) (by simp) (by simp) (h.apart.of_same hs (by simp))

theorem putType (h : env.Tidy ctx s) {r : TypeRef} {node : TypeNode} (hnode : node.InRange s.graph) :
    env.Tidy ctx (s.putType r node) :=
  have hs := Session.Keeps.putType s r node
  h.of_same hs (h.range.putType hnode) (by simp) (by simp) (h.apart.of_same hs (by simp))

theorem recordOwner (h : env.Tidy ctx s) {t : TypeId} {owner : MemberRef}
    (howner : s.graph.HasMember owner) : env.Tidy ctx (s.recordOwner t owner) :=
  have hs := Session.Keeps.recordOwner s t owner
  h.of_same hs (h.range.recordOwner howner) (by simp) (by simp) (h.apart.of_same hs (by simp))

/-- A new member that is nobody's and owns nothing. -/
theorem growMember (h : env.Tidy ctx s) {member : Member}
    (hmember : member.InRange (s.growMember member).graph) (hbare : member.children = []) :
    env.Tidy ctx (s.growMember member) := by
  have hs := Session.Keeps.growMember s member
  refine h.of_same hs (h.range.growMember hmember) (by simp) (fun r hr => ?_)
    (h.apart.of_grown hs hbare fun r => Session.memberAt?_growMember ..)
  rw [Session.memberAt?_growMember, if_neg (Nat.ne_of_lt hr)]

/-- A place of a key gets a finished member, or a placeholder if the key is pending; a place that is nobody's gets
any that owns nothing. -/
theorem putMember (h : env.Tidy ctx s) {r : MemberRef} {member : Member}
    (hrange : member.InRange s.graph)
    (hkey : ∀ key, s.memberOf? key = some (some r) →
      (env.Finished s key member ∨ ctx.pending key ∧ env.IsPlaceholder key member) ∧ env.Owns s key member.body)
    (hbare : s.IsLoose r → member.children = [])
    (hlists : Session.MayList ctx.held s member.overloads ∨
      ∃ old, s.memberAt? r = some old ∧ member.overloads = old.overloads) :
    env.Tidy ctx (s.putMember r member) where
  range := h.range.putMember hrange
  markers hv := h.markers (by simpa using hv)
  single hr hr' := h.single (by simpa using hr) (by simpa using hr')
  finished {key r'} hr' := by
    rw [Session.memberOf?_putMember] at hr'
    have hs := Session.Keeps.putMember s r member
    by_cases heq : r = r'
    · subst heq
      have hat := Session.memberAt?_putMember_self (h.range.memberOf hr') member
      exact ⟨member, hat, (hkey key hr').1.imp_left fun hf => hf.keep hs⟩
    · obtain ⟨old, hold, hfinished⟩ := h.finished hr'
      refine ⟨old, ?_, hfinished.imp_left fun hf => hf.keep hs⟩
      rw [Session.memberAt?_putMember, if_neg heq, hold]
  owns {key r' current} hr' hcurrent := by
    rw [Session.memberOf?_putMember] at hr'
    have hs := Session.Keeps.putMember s r member
    rcases Session.memberAt?_of_putMember hcurrent with ⟨rfl, rfl⟩ | ⟨-, hcurrent⟩
    · exact (hkey key hr').2.keep hs
    · exact (h.owns hr' hcurrent).keep hs
  companions hv := h.companions (by simpa using hv)
  apart := h.apart.putMember hbare hlists

/-- A new key is pending until its member is finished. -/
theorem addMember (h : env.Tidy ctx s) {key : MemberKey} {name : String}
    (hname : env.checker.symbolName key.owner = .ok name) (hnew : s.memberOf? key = none)
    (hmarker : ∀ m, key = .symbol m → ¬ env.IsMarker m) (hmethod : ∀ m, key = .companion m → env.IsMethodLike m) :
    env.Tidy (ctx.opening key) (s.addMember key (.placeholder name)) where
  range := h.range.addMember (Member.placeholder_inRange _ _)
  markers {m v} hv := by
    obtain ⟨hkey, rfl⟩ | ⟨-, hv⟩ := Session.memberOf?_addMember_eq_some_iff.1 hv
    · exact ⟨(nomatch ·), (absurd · (hmarker m hkey.symm))⟩
    · exact h.markers hv
  single := Session.single_addMember h.range.memberOf h.single
  finished {k r} hr := by
    have hs := Session.Keeps.addMember hnew (.placeholder name)
    obtain ⟨rfl, hplace⟩ | ⟨-, hr⟩ := Session.memberOf?_addMember_eq_some_iff.1 hr
    · obtain rfl := Option.some.inj hplace
      refine ⟨.placeholder name, by simp [Session.memberAt?_addMember], .inr ⟨.inr rfl, ?_⟩⟩
      exact ⟨name, none, hname, rfl⟩
    · obtain ⟨old, hold, hfinished⟩ := h.finished hr
      refine ⟨old, ?_, hfinished.imp (fun hf => hf.keep hs) fun hp => ⟨.inl hp.1, hp.2⟩⟩
      rw [Session.memberAt?_addMember, if_neg (Nat.ne_of_lt (h.range.memberOf hr)), hold]
  owns {k r member} hr hmember := by
    have hs := Session.Keeps.addMember hnew (.placeholder name)
    rw [Session.memberAt?_addMember] at hmember
    obtain ⟨-, hr⟩ | ⟨-, hr⟩ := Session.memberOf?_addMember_eq_some_iff.1 hr
    · obtain rfl := Option.some.inj hr
      obtain rfl : .placeholder name = member := by simpa using hmember
      trivial
    · rw [if_neg (Nat.ne_of_lt (h.range.memberOf hr))] at hmember
      exact (h.owns hr hmember).keep hs
  companions {m v} hv := by
    obtain ⟨hkey, -⟩ | ⟨-, hv⟩ := Session.memberOf?_addMember_eq_some_iff.1 hv
    · exact hmethod m hkey.symm
    · exact h.companions hv
  apart := h.apart.of_grown (.addMember hnew _) rfl fun r => Session.memberAt?_addMember ..

/-- A marker has no member. -/
theorem skipMember (h : env.Tidy ctx s) {m : SymbolId} (hmarker : env.IsMarker m)
    (hnew : s.memberOf? (.symbol m) = none) : env.Tidy ctx (s.skipMember (.symbol m)) where
  range := h.range.remember (by simp)
  markers hv := by
    obtain ⟨hkey, rfl⟩ | ⟨-, hv⟩ := Session.memberOf?_skipMember_eq_some_iff.1 hv
    · obtain rfl := MemberKey.symbol.inj hkey
      exact ⟨fun _ => hmarker, fun _ => rfl⟩
    · exact h.markers hv
  single hr hr' := h.single (Session.memberOf?_of_skipMember hr) (Session.memberOf?_of_skipMember hr')
  finished hr := by
    obtain ⟨old, hold, hfinished⟩ := h.finished (Session.memberOf?_of_skipMember hr)
    exact ⟨old, by simpa using hold, hfinished.imp_left fun hf => hf.keep (.skipMember hnew)⟩
  owns hr hmember :=
    (h.owns (Session.memberOf?_of_skipMember hr) (by simpa using hmember)).keep (.skipMember hnew)
  companions hv := by
    obtain ⟨hkey, -⟩ | ⟨-, hv⟩ := Session.memberOf?_skipMember_eq_some_iff.1 hv
    · exact nomatch hkey
    · exact h.companions hv
  apart := h.apart.of_same (.skipMember hnew) (by simp)

end Tidy

end Environment

end ApiDoc
