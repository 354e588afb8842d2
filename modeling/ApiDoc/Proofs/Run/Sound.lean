import ApiDoc.Proofs.Run.Machine

/-!
# What holds in every state

`Environment.Sound` collects what relates the places that are finished, those that are still open and
what is remembered: remembered places exist, no two keys share a member, only types that stand for
others share a node, and whatever is remembered and not open any more is finished.  A step keeps it
(`Step.sound`), so it holds in every reachable state (`Reachable.sound`), and in a sound state a step only
adds to what the session holds (`Step.extends`).
-/

namespace ApiDoc

namespace Environment

/-- What relates finished places, open places and what is remembered. -/
structure Sound (env : Environment) (c : Stage) : Prop where
  typeBound {t r} : c.session.typeOf? t = some r → r.index < c.session.graph.types.size
  memberBound {key r} : c.session.memberOf? key = some (some r) →
    r.index < c.session.graph.members.size
  skipped {key} : c.session.memberOf? key = some none → ∃ m, key = .symbol m ∧ env.IsMarker m
  kept {key r} : c.session.memberOf? key = some (some r) → ¬ env.IsMarker key.owner
  shared {t base r} : TypeShape.of env.checker t = .ok (.substitution base) →
    c.session.typeOf? t = some r → c.session.typeOf? base = some r
  typeInj {t t' shape shape' r} : TypeShape.of env.checker t = .ok shape →
    TypeShape.of env.checker t' = .ok shape' → (∀ base, shape ≠ .substitution base) →
    (∀ base, shape' ≠ .substitution base) → c.session.typeOf? t = some r →
    c.session.typeOf? t' = some r → t = t'
  memberInj {key key' r} : c.session.memberOf? key = some (some r) →
    c.session.memberOf? key' = some (some r) → key = key'
  unlinked {r member} : c.session.IsLoose r → c.session.memberAt? r = some member →
    member.parent = none ∧ member.overrides = none
  typesDone {t r} : c.session.typeOf? t = some r → .type t ∉ c.frames →
    ∃ shape, TypeShape.of env.checker t = .ok shape ∧ env.Depicts c.session t r shape
  keysDone {key r} : c.session.memberOf? key = some (some r) → .member key ∉ c.frames →
    (∀ m, key = .symbol m → .rebuild m ∉ c.frames) → env.KeyDone c.session key

variable {env : Environment} {c c' : Stage}

/-! ### Growth -/

/-- A member put in a place that is no symbol's, or that is an override itself, unmarks nothing. -/
theorem IsMarked.putMember {s : Session} {m : SymbolId} {r : MemberRef} {member : Member}
    (h : s.IsMarked m) (hr : s.memberOf? (.symbol m) = some (some r) → member.isOverride = true) :
    (s.putMember r member).IsMarked m := by
  obtain ⟨r', old, hr', hold, hmarked⟩ := h
  by_cases heq : r = r'
  · subst heq
    exact ⟨r, member, hr', by simp [Session.memberAt?_putMember, hold], hr hr'⟩
  · exact ⟨r', old, hr', by simp [Session.memberAt?_putMember, heq, hold], hmarked⟩

theorem IsMarked.addMember {s : Session} {m : SymbolId} {key : MemberKey} {member : Member}
    (h : s.IsMarked m) (hnew : s.memberOf? key = none) : (s.addMember key member).IsMarked m := by
  obtain ⟨r, old, hr, hold, hmarked⟩ := h
  have hlt := Session.memberAt?_eq_some_lt hold
  refine ⟨r, old, Session.memberOf?_addMember_of_some hnew hr, ?_, hmarked⟩
  rw [Session.memberAt?_addMember, if_neg (by omega)]
  exact hold

theorem Step.marked (h : env.Step c c') (hs : env.Sound c) {m : SymbolId}
    (hm : c.session.IsMarked m) : c'.session.IsMarked m := by
  have hsame : ∀ s' : Session, (∀ k, s'.memberOf? k = c.session.memberOf? k) →
      (∀ r, s'.memberAt? r = c.session.memberAt? r) → s'.IsMarked m := by
    intro s' hof hat
    obtain ⟨r, old, hr, hold, hmarked⟩ := hm
    exact ⟨r, old, by rw [hof, hr], by rw [hat, hold], hmarked⟩
  cases h with
  | @skip _ s m' hnew _ =>
    obtain ⟨r, old, hr, hold, hmarked⟩ := hm
    exact ⟨r, old, Session.memberOf?_skipMember_of_some hnew hr, hold, hmarked⟩
  | openMember hnew => exact IsMarked.addMember hm hnew
  | openOverride hnew => exact IsMarked.addMember hm hnew
  | @closeMember _ s key r old member hr hold hplain _ _ =>
    refine IsMarked.putMember hm fun hr' => ?_
    -- the place is that of a member that is not an override, so it cannot be the marked one
    obtain rfl := hs.memberInj hr hr'
    obtain ⟨r'', old', hr'', hold', hmarked⟩ := hm
    obtain rfl : r = r'' := by simpa [hr] using hr''
    obtain rfl : old = old' := by simpa [hold] using hold'
    simp [hplain m rfl] at hmarked
  | link => exact IsMarked.putMember hm fun _ => isOverride_overrideOf _ _ _ _
  | openOverload =>
    obtain ⟨r, old, hr, hold, hmarked⟩ := hm
    have hlt := Session.memberAt?_eq_some_lt hold
    refine ⟨r, old, hr, ?_, hmarked⟩
    rw [Session.memberAt?_growMember, if_neg (Nat.ne_of_lt hlt)]
    exact hold
  | closeOverload _ hr => exact IsMarked.putMember hm fun hr' => absurd hr' (hr.2 _)
  | fill hr => exact IsMarked.putMember hm fun hr' => absurd hr' (hr.2 _)
  | @«export» _ s r member name hr =>
    refine IsMarked.putMember hm fun hr' => ?_
    obtain ⟨r'', old, hr'', hold, hmarked⟩ := hm
    obtain rfl : r = r'' := by simpa [hr'] using hr''
    obtain rfl : member = old := by simpa [hr] using hold
    exact hmarked
  | _ => exact hsame _ (by simp) (by simp)

theorem Step.fresh (h : env.Step c c') {r : TypeRef} (hr : c.session.IsFresh r) :
    c'.session.IsFresh r := by
  obtain ⟨hnode, hnone⟩ := hr
  have hlt := Session.nodeAt?_eq_some_lt hnode
  constructor
  · cases h with
    | mixed => rw [Session.nodeAt?_growType, if_neg (Nat.ne_of_lt hlt)]; exact hnode
    | leaf => rw [Session.nodeAt?_addType, if_neg (Nat.ne_of_lt hlt)]; exact hnode
    | openType => rw [Session.nodeAt?_addType, if_neg (Nat.ne_of_lt hlt)]; exact hnode
    | @closeType _ s t _ r' node _ hr' _ =>
      -- the place that is filled is a type's
      have hne : r' ≠ r := by
        rintro rfl
        exact hnone t hr'
      rw [Session.nodeAt?_putType, if_neg hne]
      exact hnode
    | owner =>
      rcases Session.nodeAt?_recordOwner hnode with hsame | ⟨-, name, hparam, -⟩
      · exact hsame
      · simp [TypeNode.mixed] at hparam
    | _ => exact hnode
  · intro t ht
    rcases h.typeOf? ht with hold | ⟨-, hnew, -⟩ | ⟨base, -, hbase⟩
    · exact hnone t hold
    · rw [hnew] at hlt
      exact absurd hlt (Nat.lt_irrefl _)
    · exact hnone base hbase

theorem Step.loose (h : env.Step c c') {r : MemberRef} (hr : c.session.IsLoose r) :
    c'.session.IsLoose r := by
  refine ⟨Nat.lt_of_lt_of_le hr.1 h.members_le, fun key hkey => ?_⟩
  rcases h.memberOf? hkey with hold | ⟨-, ⟨hv, -⟩ | ⟨hv, -⟩⟩
  · exact hr.2 key hold
  · simp at hv
  · obtain rfl := Option.some.inj hv
    exact absurd hr.1 (Nat.lt_irrefl _)

/-- **A step only adds** to what a session holds. -/
theorem Step.extends (h : env.Step c c') (hs : env.Sound c) : c.session.Extends c'.session where
  typeOf := by
    intro t r hr
    cases h with
    | leaf hnew => exact Session.typeOf?_addType_of_some hnew hr
    | openType hnew => exact Session.typeOf?_addType_of_some hnew hr
    | @share _ s u base r' _ _ hold =>
      rw [Session.typeOf?_shareType]
      split
      · next heq => rw [hold r (heq ▸ hr)]
      · exact hr
    | _ => simpa using hr
  memberOf := by
    intro key v hv
    cases h with
    | skip hnew => exact Session.memberOf?_skipMember_of_some hnew hv
    | openMember hnew => exact Session.memberOf?_addMember_of_some hnew hv
    | openOverride hnew => exact Session.memberOf?_addMember_of_some hnew hv
    | _ => simpa using hv
  ownerOf := by
    intro t r hr
    cases h with
    | owner => exact Session.ownerOf?_recordOwner_of_some hr
    | _ => exact hr
  types_le := h.types_le
  members_le := h.members_le
  fresh := h.fresh
  loose := h.loose
  marked := h.marked hs

/-- What is put in a place leaves what is nobody's without links if the place is somebody's, or if
the member has none itself. -/
theorem unlinked_putMember {s : Session} {r r' : MemberRef} {member member' : Member}
    (h : ∀ {r member}, s.IsLoose r → s.memberAt? r = some member →
      member.parent = none ∧ member.overrides = none)
    (hput : s.IsLoose r' → member'.parent = none ∧ member'.overrides = none)
    (hr : s.IsLoose r) (hat : (s.putMember r' member').memberAt? r = some member) :
    member.parent = none ∧ member.overrides = none := by
  rcases Session.memberAt?_of_putMember hat with ⟨rfl, rfl⟩ | ⟨-, hat⟩
  · exact hput hr
  · exact h hr hat

theorem fillFrom_unlinked {own : Member} (base : Member) (h : own.parent = none ∧ own.overrides = none) :
    (own.fillFrom base).parent = none ∧ (own.fillFrom base).overrides = none := by
  unfold Member.fillFrom
  split <;> exact h

theorem Step.unlinked (h : env.Step c c') (hs : env.Sound c) {r : MemberRef} {member : Member}
    (hr : c'.session.IsLoose r) (hat : c'.session.memberAt? r = some member) :
    member.parent = none ∧ member.overrides = none := by
  have hext := h.extends hs
  have hold : r.index < c.session.graph.members.size → c.session.IsLoose r :=
    fun hlt => ⟨hlt, fun key hkey => hr.2 key (hext.memberOf hkey)⟩
  have hadd : ∀ {key : MemberKey} {placeholder : Member},
      c'.session = c.session.addMember key placeholder →
      member.parent = none ∧ member.overrides = none := by
    intro key placeholder heq
    rw [heq, Session.memberAt?_addMember] at hat
    split at hat
    · next hsize =>
      refine absurd ?_ (hr.2 key)
      rw [heq, Session.memberOf?_addMember, if_pos rfl, ← hsize]
    · exact hs.unlinked (hold (Session.memberAt?_eq_some_lt hat)) hat
  -- what is put in a place that has a key is no loose member, and what is put in a loose place has no links
  cases h with
  | openMember => exact hadd rfl
  | openOverride => exact hadd rfl
  | closeMember hkey =>
    exact unlinked_putMember hs.unlinked (fun hl => absurd hkey (hl.2 _))
      (hold (by simpa using hr.1)) hat
  | link hkey =>
    exact unlinked_putMember hs.unlinked (fun hl => absurd hkey (hl.2 _))
      (hold (by simpa using hr.1)) hat
  | closeOverload _ _ hparent hoverrides =>
    exact unlinked_putMember hs.unlinked (fun _ => ⟨hparent, hoverrides⟩)
      (hold (by simpa using hr.1)) hat
  | fill hloose hmember =>
    exact unlinked_putMember hs.unlinked (fun _ => fillFrom_unlinked _ (hs.unlinked hloose hmember))
      (hold (by simpa using hr.1)) hat
  | «export» hmember =>
    refine unlinked_putMember hs.unlinked (fun hl => ?_) (hold (by simpa using hr.1)) hat
    have hnone := hs.unlinked hl hmember
    exact hnone
  | openOverload =>
    rw [Session.memberAt?_growMember] at hat
    split at hat
    · obtain rfl := Option.some.inj hat
      exact ⟨rfl, rfl⟩
    · exact hs.unlinked (hold (Session.memberAt?_eq_some_lt hat)) hat
  | _ => exact hs.unlinked (hold (by simpa using hr.1)) (by simpa using hat)

/-! ### Finished nodes -/

theorem DepictsLeaf.fillOwner {t : TypeId} {shape : TypeShape} {name : String} {owner : MemberRef}
    (h : env.DepictsLeaf t shape (.parameter name none)) :
    env.DepictsLeaf t shape (.parameter name (some owner)) := by
  cases shape with
  | native => simp [DepictsLeaf] at h
  | literal =>
    -- a literal type is never documented as a type parameter
    simp only [DepictsLeaf, literalNode, bind_eq_ok_iff] at h
    obtain ⟨flags, -, h⟩ := h
    split at h
    · obtain ⟨_, -, h⟩ := bind_eq_ok_iff.1 h
      simp [pure, Except.pure] at h
    · obtain ⟨v, -, h⟩ := bind_eq_ok_iff.1 h
      cases v with
      | none => simp [pure, Except.pure, TypeNode.mixed] at h
      | some v => cases v <;> simp [pure, Except.pure] at h
  | this => simp [DepictsLeaf] at h
  | parameter =>
    obtain ⟨name', owner', hname, hnode⟩ := h
    obtain ⟨rfl, -⟩ : name = name' ∧ none = owner' := by simpa using hnode
    exact ⟨name, some owner, hname, rfl⟩
  | substitution => exact h
  | composite => exact h

theorem not_depictsComposite_parameter {s : Session} {t : TypeId} {shape : Composite} {name : String}
    {owner : Option MemberRef} : ¬ env.DepictsComposite s t shape (.parameter name owner) := by
  intro h
  cases shape with
  | conditional =>
    obtain ⟨root, -, h⟩ := h
    cases root <;> simp [TypeNode.mixed] at h
  | indexedAccess =>
    obtain ⟨parts, -, h⟩ := h
    cases parts <;> simp [TypeNode.mixed] at h
  | keyOf =>
    obtain ⟨operand, -, h⟩ := h
    cases operand <;> simp [TypeNode.mixed] at h
  | _ => simp [DepictsComposite] at h

/-- What stands in the place of a finished type stays there, up to the owner of a type parameter. -/
theorem Step.nodeAt? (h : env.Step c c') {r : TypeRef} {node : TypeNode}
    (hnode : c.session.nodeAt? r = some node)
    (hclose : ∀ t fs, c.frames = .type t :: fs → c'.frames = fs →
      (∃ shape, TypeShape.of env.checker t = .ok (.composite shape)) → c.session.typeOf? t ≠ some r) :
    c'.session.nodeAt? r = some node ∨ ∃ name owner, node = .parameter name none ∧
      c'.session.nodeAt? r = some (.parameter name (some owner)) := by
  have hlt := Session.nodeAt?_eq_some_lt hnode
  cases h with
  | mixed => rw [Session.nodeAt?_growType, if_neg (Nat.ne_of_lt hlt)]; exact .inl hnode
  | leaf => rw [Session.nodeAt?_addType, if_neg (Nat.ne_of_lt hlt)]; exact .inl hnode
  | openType => rw [Session.nodeAt?_addType, if_neg (Nat.ne_of_lt hlt)]; exact .inl hnode
  | @closeType fs s t shape r' node' hshape hr' _ =>
    have hne : r' ≠ r := by
      rintro rfl
      exact hclose t fs rfl rfl ⟨shape, hshape⟩ hr'
    rw [Session.nodeAt?_putType, if_neg hne]
    exact .inl hnode
  | owner =>
    rcases Session.nodeAt?_recordOwner hnode with hsame | ⟨-, name, hparam, hfilled⟩
    · exact .inl hsame
    · exact .inr ⟨name, _, hparam, hfilled⟩
  | _ => exact .inl hnode

/-- A finished type stays finished. -/
theorem Step.depicts (h : env.Step c c') (hs : env.Sound c) {t : TypeId} {r : TypeRef}
    {shape : TypeShape} (hshape : TypeShape.of env.checker t = .ok shape)
    (hr : c.session.typeOf? t = some r) (hopen : .type t ∉ c.frames)
    (hd : env.Depicts c.session t r shape) : env.Depicts c'.session t r shape := by
  have hext := h.extends hs
  have hkeep : (∀ base, shape ≠ .substitution base) → ∀ node, c.session.nodeAt? r = some node →
      c'.session.nodeAt? r = some node ∨ ∃ name owner, node = .parameter name none ∧
        c'.session.nodeAt? r = some (.parameter name (some owner)) := by
    intro hsub node hnode
    refine h.nodeAt? hnode fun t' fs hfs _ ⟨shape', hshape'⟩ hr' => ?_
    -- a type that is being closed is open, and has its place for itself
    obtain rfl := hs.typeInj hshape hshape' hsub (by simp) hr hr'
    exact hopen (by simp [hfs])
  have hleaf : (∀ base, shape ≠ .substitution base) →
      (∃ node, c.session.nodeAt? r = some node ∧ env.DepictsLeaf t shape node) →
      ∃ node, c'.session.nodeAt? r = some node ∧ env.DepictsLeaf t shape node := by
    rintro hsub ⟨node, hnode, hleaf⟩
    rcases hkeep hsub node hnode with hsame | ⟨name, owner, rfl, hfilled⟩
    · exact ⟨node, hsame, hleaf⟩
    · exact ⟨_, hfilled, hleaf.fillOwner⟩
  cases shape with
  | substitution base => exact hext.typeOf hd
  | composite shape =>
    obtain ⟨node, hnode, hcomp⟩ := hd
    rcases hkeep (by simp) node hnode with hsame | ⟨name, owner, rfl, hfilled⟩
    · exact ⟨node, hsame, hcomp.mono hext⟩
    · exact absurd hcomp not_depictsComposite_parameter
  | native => exact hleaf (by simp) hd
  | literal => exact hleaf (by simp) hd
  | this => exact hleaf (by simp) hd
  | parameter => exact hleaf (by simp) hd

/-- What is remembered and not open any more after a step is finished. -/
theorem Step.typesDone (h : env.Step c c') (hs : env.Sound c) {t : TypeId} {r : TypeRef}
    (hr : c'.session.typeOf? t = some r) (hclosed : .type t ∉ c'.frames) :
    ∃ shape, TypeShape.of env.checker t = .ok shape ∧ env.Depicts c'.session t r shape := by
  have hext := h.extends hs
  -- the step closes the type, or the type was finished before, or it is new
  by_cases hopen : .type t ∈ c.frames
  · cases h with
    | @closeType fs s u shape r' node hshape hr' hnode =>
      obtain rfl : t = u := by
        rcases List.mem_cons.1 hopen with heq | hmem
        · exact Frame.type.inj heq
        · exact absurd hmem hclosed
      obtain rfl : r' = r := Option.some.inj (hr'.symm.trans hr)
      obtain ⟨old, hold⟩ := Session.exists_nodeAt? (hs.typeBound hr')
      refine ⟨_, hshape, node, ?_, hnode.mono hext⟩
      simp [Session.nodeAt?_putType, show s.nodeAt? r' = some old from hold]
    | _ => exact absurd (by simp_all) hclosed
  · cases hold : c.session.typeOf? t with
    | some r' =>
      obtain rfl : r' = r := Option.some.inj ((hext.typeOf hold).symm.trans hr)
      obtain ⟨shape, hshape, hd⟩ := hs.typesDone hold hopen
      exact ⟨shape, hshape, h.depicts hs hshape hold hopen hd⟩
    | none =>
      cases h with
      | @leaf fs s u shape node hnew hshape hnode _ =>
        obtain ⟨rfl, rfl⟩ | ⟨-, hr⟩ := Session.typeOf?_addType_eq_some_iff.1 hr
        · have hat : (s.addType t node).nodeAt? ⟨s.graph.types.size⟩ = some node := by
            simp [Session.nodeAt?_addType]
          refine ⟨shape, hshape, ?_⟩
          cases shape with
          | substitution => exact hnode.elim
          | composite => exact hnode.elim
          | _ => exact ⟨node, hat, hnode⟩
        · exact absurd (hold.symm.trans hr) (by simp)
      | @share fs s u base r' hshape hbase _ =>
        obtain ⟨rfl, rfl⟩ | ⟨-, hr⟩ := Session.typeOf?_shareType_eq_some_iff.1 hr
        · exact ⟨_, hshape, hext.typeOf hbase⟩
        · exact absurd (hold.symm.trans hr) (by simp)
      | @openType fs s u shape hnew hshape _ =>
        obtain ⟨rfl, -⟩ | ⟨-, hr⟩ := Session.typeOf?_addType_eq_some_iff.1 hr
        · exact absurd List.mem_cons_self hclosed
        · exact absurd (hold.symm.trans hr) (by simp)
      | _ => simp_all

/-- What a key's members override is marked once the key is closed. -/
theorem Step.keysDone (h : env.Step c c') (hs : env.Sound c) {key : MemberKey} {r : MemberRef}
    (hr : c'.session.memberOf? key = some (some r)) (hclosed : .member key ∉ c'.frames)
    (hbuilt : ∀ m, key = .symbol m → .rebuild m ∉ c'.frames) : env.KeyDone c'.session key := by
  have hext := h.extends hs
  suffices hdone : env.KeyDone c.session key ∨ c.session.memberOf? key = none ∧
      (.member key ∈ c'.frames ∨ ∃ m, key = .symbol m ∧ .rebuild m ∈ c'.frames) by
    rcases hdone with hdone | ⟨-, hopen | ⟨m, hm, hopen⟩⟩
    · exact hdone.mono hext
    · exact absurd hopen hclosed
    · exact absurd hopen (hbuilt m hm)
  -- the step closes the key, links it, finds it finished, or opens it
  by_cases hopen : .member key ∈ c.frames
  · left
    cases h with
    | @closeMember _ _ key' _ _ _ _ _ _ _ hdone =>
      rcases List.mem_cons.1 hopen with heq | hmem
      · obtain rfl := Frame.member.inj heq
        exact hdone
      · exact absurd hmem hclosed
    | @keepMember _ _ m _ hdone =>
      rcases List.mem_cons.1 hopen with heq | hmem
      · obtain rfl := Frame.member.inj heq
        exact hdone
      · exact absurd hmem hclosed
    | _ => exact absurd (by simp_all) hclosed
  by_cases hre : ∃ m, key = .symbol m ∧ .rebuild m ∈ c.frames
  · obtain ⟨m, rfl, hre⟩ := hre
    left
    cases h with
    | @link _ _ owner m' _ _ _ _ _ _ _ _ _ hdone =>
      rcases List.mem_cons.1 hre with heq | hmem
      · obtain rfl := Frame.rebuild.inj heq
        exact hdone
      · exact absurd hmem (hbuilt m rfl)
    | _ => exact absurd (by simp_all) (hbuilt m rfl)
  cases hold : c.session.memberOf? key with
  | some v =>
    obtain rfl : v = some r := Option.some.inj ((hext.memberOf hold).symm.trans hr)
    exact .inl (hs.keysDone hold hopen fun m hm hmem => hre ⟨m, hm, hmem⟩)
  | none =>
    refine .inr ⟨rfl, ?_⟩
    cases h with
    | @openMember _ s k name =>
      obtain ⟨rfl, -⟩ | ⟨-, hr⟩ := Session.memberOf?_addMember_eq_some_iff.1 hr
      · exact .inl List.mem_cons_self
      · exact absurd (hold.symm.trans hr) (by simp)
    | @openOverride _ s owner m _ name =>
      obtain ⟨rfl, -⟩ | ⟨-, hr⟩ := Session.memberOf?_addMember_eq_some_iff.1 hr
      · exact .inr ⟨m, rfl, List.mem_cons_self⟩
      · exact absurd (hold.symm.trans hr) (by simp)
    | @skip _ s m =>
      exact absurd (hold.symm.trans (Session.memberOf?_of_skipMember hr)) (by simp)
    | _ => simp_all

/-- **A step keeps a state sound.** -/
theorem Step.sound (h : env.Step c c') (hs : env.Sound c) : env.Sound c' where
  typeBound := by
    intro t r hr
    rcases h.typeOf? hr with hold | ⟨-, rfl, hsize, -⟩ | ⟨base, -, hbase⟩
    · exact Nat.lt_of_lt_of_le (hs.typeBound hold) h.types_le
    · exact hsize ▸ Nat.lt_succ_self _
    · exact Nat.lt_of_lt_of_le (hs.typeBound hbase) h.types_le
  memberBound := by
    intro key r hr
    rcases h.memberOf? hr with hold | ⟨-, ⟨hv, -⟩ | ⟨hv, hsize, -⟩⟩
    · exact Nat.lt_of_lt_of_le (hs.memberBound hold) h.members_le
    · simp at hv
    · obtain rfl := Option.some.inj hv
      exact hsize ▸ Nat.lt_succ_self _
  skipped := by
    intro key hr
    rcases h.memberOf? hr with hold | ⟨-, ⟨-, hskip⟩ | ⟨hv, -⟩⟩
    · exact hs.skipped hold
    · exact hskip
    · simp at hv
  kept := by
    intro key r hr
    rcases h.memberOf? hr with hold | ⟨-, ⟨hv, -⟩ | ⟨-, -, hkept⟩⟩
    · exact hs.kept hold
    · simp at hv
    · exact hkept
  shared := by
    intro t base r hshape hr
    have hext := h.extends hs
    rcases h.typeOf? hr with hold | ⟨-, -, -, shape, hshape', hsub⟩ | ⟨base', hshape', hbase⟩
    · exact hext.typeOf (hs.shared hshape hold)
    · exact absurd (Except.ok.inj (hshape'.symm.trans hshape)) (hsub base)
    · obtain rfl : base' = base := by simpa using hshape'.symm.trans hshape
      exact hext.typeOf hbase
  typeInj := by
    -- a step remembers one new type at most, and its place is none of the old ones
    intro t t' shape shape' r hshape hshape' hsub hsub' hr hr'
    rcases h.typeOf? hr with hold | ⟨hnone, hsize, -⟩ | ⟨base, hbase, -⟩
    · rcases h.typeOf? hr' with hold' | ⟨-, rfl, -⟩ | ⟨base, hbase, -⟩
      · exact hs.typeInj hshape hshape' hsub hsub' hold hold'
      · exact absurd (hs.typeBound hold) (Nat.lt_irrefl _)
      · exact absurd (Except.ok.inj (hshape'.symm.trans hbase)) (hsub' base)
    · rcases h.typeOf? hr' with hold' | ⟨hnone', -⟩ | ⟨base, hbase, -⟩
      · subst hsize
        exact absurd (hs.typeBound hold') (Nat.lt_irrefl _)
      · exact h.typeOf?_new hnone hnone' hr hr'
      · exact absurd (Except.ok.inj (hshape'.symm.trans hbase)) (hsub' base)
    · exact absurd (Except.ok.inj (hshape.symm.trans hbase)) (hsub base)
  memberInj := by
    -- a step gives one key a place at most, and it is none of the old ones
    intro key key' r hr hr'
    rcases h.memberOf? hr with hold | ⟨hnone, ⟨hv, -⟩ | ⟨hv, -⟩⟩
    · rcases h.memberOf? hr' with hold' | ⟨-, ⟨hv, -⟩ | ⟨hv, -⟩⟩
      · exact hs.memberInj hold hold'
      · simp at hv
      · obtain rfl := Option.some.inj hv
        exact absurd (hs.memberBound hold) (Nat.lt_irrefl _)
    · simp at hv
    · rcases h.memberOf? hr' with hold' | ⟨hnone', -⟩
      · obtain rfl := Option.some.inj hv
        exact absurd (hs.memberBound hold') (Nat.lt_irrefl _)
      · exact h.memberOf?_new hnone hnone' hr hr'
  unlinked := h.unlinked hs
  typesDone := h.typesDone hs
  keysDone := h.keysDone hs

/-- **Every reachable state is sound.** -/
theorem Reachable.sound (h : env.Reachable c) : env.Sound c := by
  induction h with
  | start => constructor <;> simp [Session.IsLoose, Arena.size]
  | step _ hst ih => exact hst.sound ih
  | again _ ih =>
    exact { ih with
      typesDone := fun hr hclosed => ih.typesDone hr fun hmem => hclosed (by simp [hmem])
      keysDone := fun hr hclosed hbuilt => ih.keysDone hr (fun hmem => hclosed (by simp [hmem]))
        fun m hm hmem => hbuilt m hm (by simp [hmem]) }

/-- Whatever is remembered of a member is there. -/
theorem Reachable.exists_memberAt? {fs : List Frame} {s : Session} (h : env.Reachable ⟨fs, s⟩)
    {key : MemberKey} {r : MemberRef} (hr : s.memberOf? key = some (some r)) :
    ∃ member, s.memberAt? r = some member :=
  Session.exists_memberAt? (h.sound.memberBound hr)

/-- **A run only adds** to what a session holds. -/
theorem Reachable.extends (hc : env.Reachable c) (h : env.Steps c c') :
    c.session.Extends c'.session := by
  induction h with
  | refl => exact .refl _
  | tail hsteps hst ih => exact ih.trans (hst.extends (hc.steps hsteps).sound)

/-! ### What stands in the place of a member -/

/-- What a step puts in the place of a key's member: nothing new but perhaps the name it is exported
under, a placeholder, a member made from its own declarations, or an override with its link. -/
inductive Puts (env : Environment) (c c' : Stage) (key : MemberKey) (r : MemberRef) : Member → Prop
  | keep {old name} (hr : c.session.memberOf? key = some (some r))
      (hold : c.session.memberAt? r = some old) : Puts env c c' key r { old with exportName := name }
  | place {name} (hnew : c.session.memberOf? key = none) : Puts env c c' key r (.placeholder name)
  | build {member} (hframes : c.frames = .member key :: c'.frames)
      (hbuilt : env.IsBuilt key.owner member) : Puts env c c' key r member
  | link {m owner base built parent overrides} (hkey : key = .symbol m)
      (hframes : c.frames = .rebuild m :: c'.frames) (hwork : WorksOn c'.frames (.symbol owner))
      (hover : env.Overrides owner m base) (hbuilt : env.IsBuilt m built)
      (hoverrides : env.HoldsMember c.session base.symbol overrides)
      (hparent : c.session.typeOf? base.base = some parent) :
      Puts env c c' key r
        (env.overrideOf built parent overrides (overrides.bind c.session.memberAt?))

theorem Puts.same {key : MemberKey} {r : MemberRef} {member : Member}
    (hr : c.session.memberOf? key = some (some r)) (hat : c.session.memberAt? r = some member) :
    Puts env c c' key r member :=
  @Puts.keep env c c' key r member member.exportName hr hat

/-- A place that is reserved is the key's own or another's. -/
theorem Puts.of_addMember {key key' : MemberKey} {r : MemberRef} {member : Member} {name : String}
    (hs : env.Sound c) (hnew : c.session.memberOf? key' = none)
    (hr : (c.session.addMember key' (.placeholder name)).memberOf? key = some (some r))
    (hat : (c.session.addMember key' (.placeholder name)).memberAt? r = some member) :
    Puts env c c' key r member := by
  rw [Session.memberAt?_addMember] at hat
  obtain ⟨rfl, hplace⟩ | ⟨-, hr⟩ := Session.memberOf?_addMember_eq_some_iff.1 hr
  · obtain rfl := Option.some.inj hplace
    rw [if_pos rfl] at hat
    obtain rfl := Option.some.inj hat
    exact .place hnew
  · rw [if_neg (Nat.ne_of_lt (hs.memberBound hr))] at hat
    exact .same hr hat

/-- A place that is filled is the key's own or another's. -/
theorem Puts.of_putMember {key : MemberKey} {r r' : MemberRef} {member member' : Member}
    (hr : c.session.memberOf? key = some (some r))
    (hat : (c.session.putMember r' member').memberAt? r = some member)
    (hput : r' = r → Puts env c c' key r member') : Puts env c c' key r member := by
  rcases Session.memberAt?_of_putMember hat with ⟨hplace, rfl⟩ | ⟨-, hat⟩
  · exact hput hplace
  · exact .same hr hat

theorem Step.puts (h : env.Step c c') (hs : env.Sound c) {key : MemberKey} {r : MemberRef}
    {member : Member} (hr : c'.session.memberOf? key = some (some r))
    (hat : c'.session.memberAt? r = some member) : Puts env c c' key r member := by
  cases h with
  | openMember hnew => exact .of_addMember hs hnew hr hat
  | openOverride hnew => exact .of_addMember hs hnew hr hat
  | skip => exact .same (Session.memberOf?_of_skipMember hr) hat
  | closeMember hkey _ _ hbuilt =>
    refine .of_putMember hr hat fun hplace => ?_
    obtain rfl := hs.memberInj (hplace ▸ hkey) hr
    exact .build rfl hbuilt
  | link hkey hwork hover hbuilt _ _ hoverrides hparent =>
    refine .of_putMember hr hat fun hplace => ?_
    obtain rfl := hs.memberInj (hplace ▸ hkey) hr
    exact .link rfl rfl hwork hover hbuilt hoverrides hparent
  | openOverload =>
    rw [Session.memberAt?_growMember, if_neg (Nat.ne_of_lt (hs.memberBound hr))] at hat
    exact .same hr hat
  | closeOverload _ hloose =>
    exact .of_putMember hr hat fun hplace => absurd (hplace ▸ hr) (hloose.2 key)
  | fill hloose => exact .of_putMember hr hat fun hplace => absurd (hplace ▸ hr) (hloose.2 key)
  | «export» hold => exact .of_putMember hr hat fun hplace => .keep hr (hplace ▸ hold)
  | _ => exact .same (by simpa using hr) (by simpa using hat)

end Environment

end ApiDoc
