import ApiDoc.Proofs.Completion
import ApiDoc.Proofs.Program.Placement

/-!
# Every member has one owner

A program that was built lists every symbol at one place (`Program.build_placed`), and in the session of a finished
project two keys never share a member, so what the members of a project own is a forest with its files as roots:
the walk from the files through what members own reaches every member along one path at most
(`Environment.assembleRoots_isForest`).

A member is found below another one for one of three reasons: its symbol is in a table of the owner's symbol, it is
the companion of the owner, or it is one of the owner's overloads (`Environment.IsBelow`).  Each of them tells who the
owner is.
-/

namespace ApiDoc

namespace Project

/-- The walk from the files through what members own, by the places it takes in their lists, the last one first. -/
inductive Reaches (p : Project) : List Nat → MemberRef → Prop
  | file {i j file r} : p.files[i]? = some file → file.members[j]? = some r → Reaches p [j, i] r
  | child {path owner member j r} : Reaches p path owner → p.graph.member owner = .ok member →
      member.children[j]? = some r → Reaches p (j :: path) r

/-- One member owns another. -/
def Owns (p : Project) (owner r : MemberRef) : Prop := ∃ member, p.graph.member owner = .ok member ∧ r ∈ member.children

/-- Every member is listed once at most, by a file or by an owner that is reached. -/
structure ListsOnce (p : Project) : Prop where
  /-- No member is listed by two owners, or twice by one. -/
  owner {owner owner' member member' r} {j j' : Nat} : p.graph.member owner = .ok member →
    p.graph.member owner' = .ok member' → member.children[j]? = some r → member'.children[j']? = some r →
    owner = owner' ∧ j = j'
  /-- No member is listed by two files, or twice by one. -/
  file {file file' : SourceFile} {i i' j j' : Nat} {r} : p.files[i]? = some file → p.files[i']? = some file' →
    file.members[j]? = some r → file'.members[j']? = some r → i = i' ∧ j = j'
  /-- What a file lists has no owner. -/
  root {path owner r file} : p.Reaches path owner → p.Owns owner r → file ∈ p.files → r ∉ file.members

/-- What members own is a forest whose roots are the files. -/
structure IsForest (p : Project) : Prop extends p.ListsOnce where
  /-- Every member is reached once at most. -/
  path {path path' r} : p.Reaches path r → p.Reaches path' r → path = path'
  /-- Nothing that is reached owns itself, directly or not. -/
  acyclic {path r} : p.Reaches path r → ¬ Relation.TransGen p.Owns r r

variable {p : Project}

/-- Whatever belongs to a member that is reached is reached by a longer path. -/
theorem Reaches.descend {path : List Nat} {r r' : MemberRef} (h : p.Reaches path r)
    (howns : Relation.TransGen p.Owns r r') : ∃ path', path.length < path'.length ∧ p.Reaches path' r' := by
  induction howns with
  | single howns =>
    obtain ⟨member, hmember, hr⟩ := howns
    obtain ⟨j, hj⟩ := List.mem_iff_getElem?.1 hr
    exact ⟨j :: path, Nat.lt_succ_self _, h.child hmember hj⟩
  | tail _ howns ih =>
    obtain ⟨path', hlength, hpath'⟩ := ih
    obtain ⟨member, hmember, hr⟩ := howns
    obtain ⟨j, hj⟩ := List.mem_iff_getElem?.1 hr
    exact ⟨j :: path', Nat.lt_succ_of_lt hlength, hpath'.child hmember hj⟩

/-- The last step of the walk tells the one before it. -/
theorem ListsOnce.path_unique (hp : p.ListsOnce) {path path' : List Nat} {r : MemberRef} (h : p.Reaches path r)
    (h' : p.Reaches path' r) : path = path' := by
  induction h generalizing path' with
  | file hi hj =>
    cases h' with
    | file hi' hj' =>
      obtain ⟨rfl, rfl⟩ := hp.file hi hi' hj hj'
      rfl
    | child hpath' hmember' hj' =>
      exact absurd (List.mem_of_getElem? hj)
        (hp.root hpath' ⟨_, hmember', List.mem_of_getElem? hj'⟩ (List.mem_of_getElem? hi))
  | child hpath hmember hj ih =>
    cases h' with
    | file hi' hj' =>
      exact absurd (List.mem_of_getElem? hj')
        (hp.root hpath ⟨_, hmember, List.mem_of_getElem? hj⟩ (List.mem_of_getElem? hi'))
    | child hpath' hmember' hj' =>
      obtain ⟨rfl, rfl⟩ := hp.owner hmember hmember' hj hj'
      rw [ih hpath']

theorem ListsOnce.isForest (hp : p.ListsOnce) : p.IsForest where
  toListsOnce := hp
  path := hp.path_unique
  acyclic hreached hcycle := by
    obtain ⟨path', hlength, hpath'⟩ := hreached.descend hcycle
    exact absurd (congrArg List.length (hp.path_unique hreached hpath')) (Nat.ne_of_lt hlength)

end Project

/-- A list without repetitions has everything at one place. -/
theorem index_unique {α : Type} {xs : List α} (h : xs.Nodup) {i j : Nat} {a : α} (hi : xs[i]? = some a)
    (hj : xs[j]? = some a) : i = j :=
  (List.getElem?_inj (List.getElem?_eq_some_iff.1 hi).1 h).1 (hi.trans hj.symm)

namespace Environment

variable {env : Environment} {s : Session} {ms ms' : List SymbolId} {rs rs' : List MemberRef}

/-! ### Members of different symbols -/

theorem HoldsMembers.lists (h : env.HoldsMembers s ms rs) : Lists s ms rs := by
  obtain ⟨known, hknown, rfl⟩ := h
  induction hknown with
  | nil => exact ⟨[], List.nil_subperm, .nil⟩
  | @cons m v ms known hv _ ih =>
    obtain ⟨own, hown, hrs⟩ := ih
    cases v with
    | none => exact ⟨own, List.Subperm.cons_right m hown, hrs⟩
    | some r => exact ⟨m :: own, (List.subperm_cons m).2 hown, .cons hv.1 hrs⟩

theorem Lists.append (h : Lists s ms rs) (h' : Lists s ms' rs') : Lists s (ms ++ ms') (rs ++ rs') := by
  obtain ⟨own, hown, hrs⟩ := h
  obtain ⟨own', hown', hrs'⟩ := h'
  exact ⟨own ++ own', hown.append hown', List.rel_append hrs hrs'⟩

theorem Lists.of_subperm (h : Lists s ms rs) (hms : ms.Subperm ms') : Lists s ms' rs := by
  obtain ⟨own, hown, hrs⟩ := h
  exact ⟨own, List.Subperm.trans hown hms, hrs⟩

theorem Lists.exists_symbol (h : Lists s ms rs) {r : MemberRef} (hr : r ∈ rs) :
    ∃ m ∈ ms, s.memberOf? (.symbol m) = some (some r) := by
  obtain ⟨own, hown, hrs⟩ := h
  suffices hsymbol : ∃ m ∈ own, s.memberOf? (.symbol m) = some (some r) by
    obtain ⟨m, hm, hr⟩ := hsymbol
    exact ⟨m, hown.subset hm, hr⟩
  clear hown
  induction hrs with
  | nil => simp at hr
  | cons hm _ ih =>
    rcases List.mem_cons.1 hr with rfl | hr
    · exact ⟨_, List.mem_cons_self, hm⟩
    · obtain ⟨m, hmem, hm⟩ := ih hr
      exact ⟨m, List.mem_cons_of_mem _ hmem, hm⟩

/-- Different symbols have different members. -/
theorem Lists.nodup (h : Lists s ms rs) (hms : ms.Nodup) {ctx : Context} (ht : env.Tidy ctx s) : rs.Nodup := by
  obtain ⟨own, hown, hrs⟩ := h
  have hnodup : own.Nodup := by
    obtain ⟨ms', hperm, hsub⟩ := hown
    exact hperm.nodup_iff.1 (hms.sublist hsub)
  clear hown
  induction hrs with
  | nil => exact .nil
  | @cons m r own rs hm hrest ih =>
    obtain ⟨hnot, hnodup⟩ := List.nodup_cons.1 hnodup
    refine List.nodup_cons.2 ⟨fun hr => hnot ?_, ih hnodup⟩
    obtain ⟨m', hmem, hm'⟩ := Lists.exists_symbol ⟨own, List.Subperm.refl _, hrest⟩ hr
    obtain rfl := MemberKey.symbol.inj (ht.single hm hm')
    exact hmem

/-! ### What the member of a key owns -/

variable {p : Program} {key key' : MemberKey} {r r' : MemberRef} {member member' : Member}

theorem exportsOf_outline {m : SymbolId} (h : p.checker.exportsOf m = .ok ms) : ms = (p.outline.symbol m).exportsOf := by
  obtain ⟨data, hdata, hms⟩ := bind_eq_ok_iff.1 h
  rw [Program.outline_symbol (Error.orOutOfBounds_eq_ok_iff.1 hdata)]
  exact (Except.ok.inj hms).symm

theorem membersOf_outline {m : SymbolId} (h : p.checker.membersOf m = .ok ms) : ms = (p.outline.symbol m).membersOf := by
  obtain ⟨data, hdata, hms⟩ := bind_eq_ok_iff.1 h
  rw [Program.outline_symbol (Error.orOutOfBounds_eq_ok_iff.1 hdata)]
  exact (Except.ok.inj hms).symm

/-- What a symbol exports is part of what it lists. -/
theorem Lists.of_exports {m : SymbolId} (hms : p.checker.exportsOf m = .ok ms) (h : Lists s ms rs) :
    Lists s (p.outline.symbol m).listed rs := by
  rw [exportsOf_outline hms] at h
  exact h.of_subperm (List.sublist_append_left _ _).subperm

/-- A class owns the members of what its symbol lists. -/
theorem ShowsClass.lists (henv : env.checker = p.checker) (hshows : env.ShowsClass s key.owner member.body)
    (howns : env.Owns s key member.body) : Lists s (p.outline.symbol key.owner).listed member.children := by
  obtain ⟨c, exported, hbody, hexported, hmembers⟩ := hshows
  rw [hbody] at howns
  obtain ⟨ms, hms, hside⟩ := howns
  rw [henv] at hexported hms
  rw [exportsOf_outline hexported] at hmembers
  rw [membersOf_outline hms] at hside
  have hchildren : member.children = c.members ++ c.instanceSide := by
    simp [Member.children, hbody, ClassBody.ownedMembers, ClassBody.instanceSide, List.append_assoc]
  rw [hchildren]
  exact hmembers.lists.append hside

/-- A member with the companion and overloads of a method owns nothing else. -/
structure OwnsAsMethod (s : Session) (key : MemberKey) (member : Member) (companion : Option MemberRef) : Prop where
  children : member.children = member.overloads ++ companion.toList
  named {c} : companion = some c → ∃ m, key = .symbol m ∧ s.memberOf? (.companion m) = some (some c)

theorem OwnsAsMethod.of_bare (h : member.children = []) : OwnsAsMethod s key member none :=
  ⟨by simp [h, member.overloads_eq_nil h], by simp⟩

/-- A method owns its overloads and its companion, and every other member what its symbol lists. -/
theorem Tidy.owns_cases (ht : env.Tidy .closed s) (henv : env.checker = p.checker)
    (hkey : s.memberOf? key = some (some r)) (hat : s.memberAt? r = some member) :
    (∀ m, key = .symbol m → ¬ env.IsMethodLike m) ∧ Lists s (p.outline.symbol key.owner).listed member.children ∨
      ∃ companion, OwnsAsMethod s key member companion := by
  have howns := ht.owns hkey hat
  obtain ⟨_, hat', hfinished | ⟨hpending, -⟩⟩ := ht.finished hkey
  case inr => exact hpending.elim
  obtain rfl := Option.some.inj (hat.symm.trans hat')
  have hshows := hfinished.shows
  cases key with
  | companion m => exact .inl ⟨by simp, ShowsClass.lists henv hshows howns⟩
  | symbol m =>
    obtain ⟨flags, hflags, hshows⟩ := hshows
    -- a symbol has one class
    have hclass {c : SymbolClass} (hc : SymbolClass.of flags = c) (hne : c ≠ .method) (m' : SymbolId)
        (hm' : MemberKey.symbol m = .symbol m') : ¬ env.IsMethodLike m' := by
      rintro ⟨flags', hflags', hmethod⟩
      obtain rfl := MemberKey.symbol.inj hm'
      obtain rfl := Except.ok.inj (hflags.symm.trans hflags')
      exact hne (hc.symm.trans hmethod)
    cases hc : SymbolClass.of flags with
    | marker | field | accessor | unclassified =>
      rw [hc] at hshows
      obtain ⟨f, hbody⟩ := hshows
      exact .inr ⟨none, .of_bare (by simp [Member.children, hbody])⟩
    | method =>
      rw [hc] at hshows
      rcases hshows with ⟨-, f, hbody⟩ | ⟨-, f, hbody⟩
      · refine .inr ⟨f.companion, by simp [Member.children, Member.overloads, hbody], ?_⟩
        rw [hbody] at howns
        exact howns _
      · exact .inr ⟨none, .of_bare (by simp [Member.children, hbody])⟩
    | «alias» =>
      rw [hc] at hshows
      obtain ⟨type, params, hbody⟩ := hshows
      exact .inr ⟨none, .of_bare (by simp [Member.children, hbody])⟩
    | classLike =>
      rw [hc] at hshows
      exact .inl ⟨hclass hc (by simp), ShowsClass.lists henv hshows howns⟩
    | namespaceLike =>
      rw [hc] at hshows
      obtain ⟨ms, rs, hms, hmembers, hbody⟩ := hshows
      have hchildren : member.children = rs := by simp [Member.children, hbody]
      exact .inl ⟨hclass hc (by simp), hchildren ▸ hmembers.lists.of_exports (henv ▸ hms)⟩
    | enumeration =>
      rw [hc] at hshows
      obtain ⟨e, ms, hbody, hms, hentries, hothers⟩ := hshows
      have hchildren : member.children = e.members.map EnumEntry.member ++ e.namespaceMembers := by
        simp [Member.children, hbody]
      have hboth := hentries.lists.append hothers.lists
      exact .inl ⟨hclass hc (by simp), hchildren ▸
        (hboth.of_subperm (List.filter_append_perm _ ms).subperm).of_exports (henv ▸ hms)⟩

/-! ### Who owns a member -/

variable (env s) in
/-- Why a member is found below that of a key. -/
inductive IsBelow (o : Outline) (r : MemberRef) (key : MemberKey) : Prop
  /-- Its symbol is listed by that of the key. -/
  | table {m} : m ∈ (o.symbol key.owner).listed → s.memberOf? (.symbol m) = some (some r) →
      (∀ m, key = .symbol m → ¬ env.IsMethodLike m) → IsBelow o r key
  /-- It is the companion of a method. -/
  | companion {m} : key = .symbol m → s.memberOf? (.companion m) = some (some r) → IsBelow o r key
  /-- It is an overload of a method. -/
  | overload {owner member} : s.memberOf? key = some (some owner) → s.memberAt? owner = some member →
      r ∈ member.overloads → IsBelow o r key

/-- Whatever owns something is the member of a key. -/
theorem Tidy.isBelow (ht : env.Tidy .closed s) (henv : env.checker = p.checker) (hat : s.memberAt? r = some member)
    (hr : r' ∈ member.children) : ∃ key, s.memberOf? key = some (some r) ∧ env.IsBelow s p.outline r' key := by
  obtain ⟨key, hkey⟩ : ∃ key, s.memberOf? key = some (some r) := by
    by_contra hnone
    have hloose : s.IsLoose r := ⟨Session.memberAt?_eq_some_lt hat, fun key hkey => hnone ⟨key, hkey⟩⟩
    simp [ht.apart.bare hloose hat] at hr
  refine ⟨key, hkey, ?_⟩
  rcases ht.owns_cases henv hkey hat with ⟨hmethod, hlists⟩ | ⟨companion, hmethod⟩
  · obtain ⟨m, hm, hr⟩ := hlists.exists_symbol hr
    exact .table hm hr hmethod
  · rw [hmethod.children, List.mem_append, Option.mem_toList] at hr
    rcases hr with hr | hr
    · exact .overload hkey hat hr
    · obtain ⟨m, hm, hr⟩ := hmethod.named hr
      exact .companion hm hr

/-- The tables of a symbol belong to one key: a symbol with a companion leaves them to it. -/
theorem Tidy.key_of_tables (ht : env.Tidy .closed s) (howner : key.owner = key'.owner)
    (hkey : s.memberOf? key = some (some r)) (hmethod : ∀ m, key = .symbol m → ¬ env.IsMethodLike m)
    (hkey' : s.memberOf? key' = some (some r')) (hmethod' : ∀ m, key' = .symbol m → ¬ env.IsMethodLike m) :
    key = key' := by
  cases key with
  | symbol m =>
    cases key' with
    | symbol m' => exact congrArg _ howner
    | companion m' =>
      obtain rfl : m = m' := howner
      exact absurd (ht.companions hkey') (hmethod m rfl)
  | companion m =>
    cases key' with
    | symbol m' =>
      obtain rfl : m = m' := howner
      exact absurd (ht.companions hkey) (hmethod' m rfl)
    | companion m' => exact congrArg _ howner

/-- A member is found below one key only. -/
theorem Tidy.isBelow_unique (ht : env.Tidy .closed s) (hp : p.outline.Placed) {o o' : MemberRef}
    (hkey : s.memberOf? key = some (some o)) (h : env.IsBelow s p.outline r key)
    (hkey' : s.memberOf? key' = some (some o')) (h' : env.IsBelow s p.outline r key') : key = key' := by
  cases h with
  | @table m hm hr hmethod =>
    cases h' with
    | @table m' hm' hr' hmethod' =>
      obtain rfl := MemberKey.symbol.inj (ht.single hr hr')
      have howner : key.owner = key'.owner := Option.some.inj ((hp.listed hm).symm.trans (hp.listed hm'))
      exact ht.key_of_tables howner hkey hmethod hkey' hmethod'
    | companion _ hr' => exact nomatch ht.single hr hr'
    | overload _ hat' hr' => exact absurd hr ((ht.apart.loose hat' hr').2 _)
  | companion hm hr =>
    cases h' with
    | table _ hr' _ => exact nomatch ht.single hr hr'
    | companion hm' hr' =>
      obtain rfl := MemberKey.companion.inj (ht.single hr hr')
      exact hm.trans hm'.symm
    | overload _ hat' hr' => exact absurd hr ((ht.apart.loose hat' hr').2 _)
  | overload hk hat hr =>
    cases h' with
    | table _ hr' _ => exact absurd hr' ((ht.apart.loose hat hr).2 _)
    | companion _ hr' => exact absurd hr' ((ht.apart.loose hat hr).2 _)
    | overload hk' hat' hr' =>
      obtain rfl := ht.apart.once hat hat' hr hr'
      exact ht.single hk hk'

/-- No member is listed twice by one owner. -/
theorem Tidy.children_nodup (ht : env.Tidy .closed s) (hp : p.outline.Placed) (henv : env.checker = p.checker)
    (hat : s.memberAt? r = some member) : member.children.Nodup := by
  by_cases hbare : member.children = []
  · simp [hbare]
  obtain ⟨r', hr'⟩ := List.exists_mem_of_ne_nil _ hbare
  obtain ⟨key, hkey, -⟩ := ht.isBelow henv hat hr'
  rcases ht.owns_cases henv hkey hat with ⟨-, hlists⟩ | ⟨companion, hmethod⟩
  · exact hlists.nodup (hp.once _) ht
  · rw [hmethod.children]
    refine (ht.apart.nodup hat).append (by cases companion <;> simp) fun o ho hcompanion => ?_
    obtain ⟨m, -, hm⟩ := hmethod.named (Option.mem_toList.1 hcompanion)
    exact (ht.apart.loose hat ho).2 _ hm

/-- No member is listed by two owners, or twice by one. -/
theorem Tidy.owner_unique (ht : env.Tidy .closed s) (hp : p.outline.Placed) (henv : env.checker = p.checker)
    {o o' : MemberRef} {j j' : Nat} (hat : s.memberAt? o = some member) (hat' : s.memberAt? o' = some member')
    (hr : member.children[j]? = some r) (hr' : member'.children[j']? = some r) : o = o' ∧ j = j' := by
  obtain ⟨key, hkey, hbelow⟩ := ht.isBelow henv hat (List.mem_of_getElem? hr)
  obtain ⟨key', hkey', hbelow'⟩ := ht.isBelow henv hat' (List.mem_of_getElem? hr')
  obtain rfl := ht.isBelow_unique hp hkey hbelow hkey' hbelow'
  obtain rfl : o = o' := by simpa [hkey] using hkey'
  obtain rfl := Option.some.inj (hat.symm.trans hat')
  exact ⟨rfl, index_unique (ht.children_nodup hp henv hat) hr hr'⟩

/-! ### What files list -/

/-- The node of a file declares the symbol of the file. -/
theorem symbolAtLocation_outline {n : NodeId} {m : SymbolId} (h : p.checker.symbolAtLocation n = .ok m) :
    p.outline.declared n = some m := by
  obtain ⟨data, hdata, hm⟩ := bind_eq_ok_iff.1 h
  have hget := Program.meets_knownNode (p := p) n
  rw [hdata] at hget
  have hsymbol : data.symbol = some m := by
    cases hs : data.symbol with
    | some m' => exact congrArg some (Except.ok.inj (by rwa [hs] at hm))
    | none => simp [hs, Program.orFail] at hm
  simp [Program.outline, show p.nodes.get? n.index = some data from hget, hsymbol]

theorem exportsOfModule_outline {m : SymbolId} (h : p.checker.exportsOfModule m = .ok ms) :
    ms = (p.outline.symbol m).exportsOf := by
  obtain ⟨data, hdata, hms⟩ := bind_eq_ok_iff.1 h
  have hget := Program.meets_knownSymbol (p := p) m
  rw [hdata] at hget
  rw [Program.outline_symbol hget]
  exact (Except.ok.inj hms).symm

/-- The symbols that a file lists are inside of its symbol. -/
theorem ListsSymbols.placed (hp : p.outline.Placed) (henv : env.checker = p.checker) {f : FileId}
    (h : env.ListsSymbols f ms) :
    ∃ file, p.outline.files[f.index]? = some file ∧ ms.Nodup ∧
      ∀ m ∈ ms, (p.outline.symbol m).parent = some file.symbol := by
  rw [ListsSymbols, henv] at h
  rcases h with ⟨-, node, m, hnode, hm, hms⟩ | ⟨-, hlocals⟩
  · obtain ⟨data, hdata, hn⟩ := bind_eq_ok_iff.1 hnode
    have hfile := Program.outline_file hdata
    have hplaced := hp.file (List.mem_of_getElem? hfile)
    obtain rfl : data.node = node := Except.ok.inj hn
    obtain rfl : data.symbol = m := Option.some.inj (hplaced.declared.symm.trans (symbolAtLocation_outline hm))
    rw [exportsOfModule_outline hms]
    have honce := hp.once data.symbol
    exact ⟨_, hfile, (List.nodup_append.1 honce).1, fun m' hm' => hp.listed (List.mem_append_left _ hm')⟩
  · obtain ⟨data, hdata, hn⟩ := bind_eq_ok_iff.1 hlocals
    have hfile := Program.outline_file hdata
    have hplaced := hp.file (List.mem_of_getElem? hfile)
    obtain rfl : data.locals = ms := Except.ok.inj hn
    exact ⟨_, hfile, hplaced.once, fun m hm => hplaced.locals hm⟩

/-- The members that a file lists, each once, are those of symbols inside of its symbol. -/
theorem ListsMembers.placed (h : env.ListsMembers s f file) (ht : env.Tidy .closed s) (hp : p.outline.Placed)
    (henv : env.checker = p.checker) :
    ∃ f', p.outline.files[f.index]? = some f' ∧ file.members.Nodup ∧
      ∀ r ∈ file.members, ∃ m, s.memberOf? (.symbol m) = some (some r) ∧
        (p.outline.symbol m).parent = some f'.symbol := by
  obtain ⟨ms, hms, hmembers⟩ := h
  obtain ⟨f', hf', hnodup, hparent⟩ := hms.placed hp henv
  refine ⟨f', hf', hmembers.lists.nodup hnodup ht, fun r hr => ?_⟩
  obtain ⟨m, hm, hr⟩ := hmembers.lists.exists_symbol hr
  exact ⟨m, hr, hparent m hm⟩

/-! ### The forest -/

variable {project : Project} {files : List FileId}

/-- What is reached from the files belongs to symbols inside of others. -/
theorem reached_inside (ht : env.Tidy .closed s) (hp : p.outline.Placed) (henv : env.checker = p.checker)
    (hgraph : project.graph = s.graph) (hfiles : ∀ file ∈ project.files, ∃ f, env.ListsMembers s f file)
    {path : List Nat} (h : project.Reaches path r) (hkey : s.memberOf? key = some (some r)) :
    (p.outline.symbol key.owner).parent ≠ none := by
  induction h generalizing key with
  | file hi hj =>
    obtain ⟨f, hlists⟩ := hfiles _ (List.mem_of_getElem? hi)
    obtain ⟨f', -, -, hinside⟩ := hlists.placed ht hp henv
    obtain ⟨m, hm, hparent⟩ := hinside _ (List.mem_of_getElem? hj)
    obtain rfl := ht.single hkey hm
    rw [MemberKey.owner, hparent]
    simp
  | child _ hmember hj ih =>
    rw [hgraph] at hmember
    obtain ⟨owner, howner, hbelow⟩ := ht.isBelow henv (Graph.member_eq_ok_iff.1 hmember) (List.mem_of_getElem? hj)
    cases hbelow with
    | table hm hr _ =>
      obtain rfl := ht.single hkey hr
      rw [MemberKey.owner, hp.listed hm]
      simp
    | companion hm hr =>
      obtain rfl := ht.single hkey hr
      subst hm
      have hinside := ih howner
      exact hinside
    | overload _ hat hr => exact absurd hkey ((ht.apart.loose hat hr).2 _)

/-- The file at each place of a project is the one with that number. -/
theorem listsMembers_root (henv : env.checker = p.checker) (hroots : env.checker.rootFiles = .ok files)
    {found : List SourceFile} (h : List.Forall₂ (env.ListsMembers s) files found) {i : Nat} {file : SourceFile}
    (hi : found[i]? = some file) : env.ListsMembers s ⟨i⟩ file := by
  obtain ⟨f, hf, hlists⟩ := exists_getElem?_of_forall₂ h.flip hi
  rw [henv] at hroots
  obtain rfl : (List.range p.files.size).map FileId.mk = files := Except.ok.inj hroots
  rw [List.getElem?_map] at hf
  obtain ⟨_, hi', rfl⟩ := Option.map_eq_some_iff.1 hf
  obtain ⟨_, heq⟩ := List.getElem?_eq_some_iff.1 hi'
  rw [List.getElem_range] at heq
  exact heq ▸ hlists

/-- No member is listed by two files: its symbol is inside of one file's symbol. -/
theorem ListsMembers.file_unique {i i' : Nat} {file file' : SourceFile} (h : env.ListsMembers s ⟨i⟩ file)
    (h' : env.ListsMembers s ⟨i'⟩ file') (ht : env.Tidy .closed s) (hp : p.outline.Placed)
    (henv : env.checker = p.checker) (hr : r ∈ file.members) (hr' : r ∈ file'.members) : i = i' := by
  obtain ⟨f, hf, -, hinside⟩ := h.placed ht hp henv
  obtain ⟨f', hf', -, hinside'⟩ := h'.placed ht hp henv
  obtain ⟨m, hm, hparent⟩ := hinside r hr
  obtain ⟨m', hm', hparent'⟩ := hinside' r hr'
  obtain rfl := MemberKey.symbol.inj (ht.single hm hm')
  have hsymbol : f.symbol = f'.symbol := Option.some.inj (hparent.symm.trans hparent')
  refine index_unique hp.apart (a := f.symbol) ?_ ?_
  · simp [hf]
  · simp [hf', hsymbol]

/-- What a file lists belongs to no member that is reached: that would have to be the file's own symbol. -/
theorem ListsMembers.unowned {f : FileId} {file : SourceFile} (h : env.ListsMembers s f file)
    (ht : env.Tidy .closed s) (hp : p.outline.Placed) (henv : env.checker = p.checker)
    (hgraph : project.graph = s.graph) (hfiles : ∀ file ∈ project.files, ∃ f, env.ListsMembers s f file)
    {path : List Nat} {owner : MemberRef} (hreached : project.Reaches path owner) (howns : project.Owns owner r) :
    r ∉ file.members := by
  intro hr
  obtain ⟨f', hf', -, hinside⟩ := h.placed ht hp henv
  obtain ⟨m, hm, hparent⟩ := hinside r hr
  obtain ⟨member, hat, hchild⟩ := howns
  rw [hgraph] at hat
  obtain ⟨key, hkey, hbelow⟩ := ht.isBelow henv (Graph.member_eq_ok_iff.1 hat) hchild
  cases hbelow with
  | table hm' hr' _ =>
    obtain rfl := MemberKey.symbol.inj (ht.single hm hr')
    have howner : key.owner = f'.symbol := Option.some.inj ((hp.listed hm').symm.trans hparent)
    have hroot := (hp.file (List.mem_of_getElem? hf')).root
    exact reached_inside ht hp henv hgraph hfiles hreached hkey (howner ▸ hroot)
  | companion _ hr' => exact nomatch ht.single hm hr'
  | overload _ hat' hr' => exact (ht.apart.loose hat' hr').2 _ hm

/-- **Ownership is a forest.**  Whatever a program was built from, the walk from the files of its project through what
members own reaches every member once at most. -/
theorem assembleRoots_isForest {steps : List BuildStep} (hbuild : Program.build steps = .ok p)
    (henv : env.checker = p.checker) (h : env.assembleRoots = .ok project) : project.IsForest := by
  have hp := Program.build_placed hbuild
  obtain ⟨files, hroots, h⟩ := bind_eq_ok_iff.1 h
  obtain ⟨ht, hfiles⟩ := tidy_assembly h
  have hgraph := assemble_graph h
  have hmember {r : MemberRef} {member : Member} (hmember : project.graph.member r = .ok member) :
      (env.assembly files).memberAt? r = some member := Graph.member_eq_ok_iff.1 (hgraph ▸ hmember)
  have hfile {i : Nat} {file : SourceFile} (hi : project.files[i]? = some file) :
      env.ListsMembers (env.assembly files) ⟨i⟩ file := listsMembers_root henv hroots hfiles hi
  have hlisted (file : SourceFile) (hmem : file ∈ project.files) :
      ∃ f, env.ListsMembers (env.assembly files) f file := by
    obtain ⟨i, hi⟩ := List.mem_iff_getElem?.1 hmem
    exact ⟨_, hfile hi⟩
  refine Project.ListsOnce.isForest ⟨fun hat hat' hr hr' => ?_, fun {file file' i i' j j' r} hi hi' hj hj' => ?_,
    fun {path owner r file} hreached howns hmem hr => ?_⟩
  · exact ht.owner_unique hp henv (hmember hat) (hmember hat') hr hr'
  · obtain rfl := (hfile hi).file_unique (hfile hi') ht hp henv (List.mem_of_getElem? hj) (List.mem_of_getElem? hj')
    obtain rfl := Option.some.inj (hi.symm.trans hi')
    obtain ⟨-, -, hnodup, -⟩ := (hfile hi).placed ht hp henv
    exact ⟨rfl, index_unique hnodup hj hj'⟩
  · obtain ⟨f, hlists⟩ := hlisted file hmem
    exact hlists.unowned ht hp henv hgraph hlisted hreached howns hr

/-! ### A function that is merged with a namespace -/

/-- A script with a function that is declared twice and merged with a namespace, which exports a constant. -/
def mergedFunction : List BuildStep := [
  .addScript "a.ts",
  .intrinsic "number",
  .function (.file ⟨0⟩) "f" [("", { returnType := ⟨0⟩ }, false), ("", { returnType := ⟨0⟩ }, true)],
  .mergeNamespace ⟨1⟩ "",
  .addVariable (.exportsOf ⟨1⟩) "" "const" "x" ⟨0⟩ none]

/-- The one path to the constant leads through the companion of the function, which stands behind its overload. -/
theorem assembleRoots_isForest_mergedFunction :
    ∃ p project, Program.build mergedFunction = .ok p ∧ (p.environment {}).assembleRoots = .ok project ∧
      project.IsForest ∧ project.Reaches [0, 1, 0, 0] ⟨3⟩ ∧ ∀ path, project.Reaches path ⟨3⟩ → path = [0, 1, 0, 0] := by
  have hlists : (do
      let p ← Program.build mergedFunction
      let project ← (p.environment {}).assembleRoots
      return (project.files.map SourceFile.members, project.graph.members.toList.map Member.children)) =
        .ok ([[⟨0⟩]], [[⟨1⟩, ⟨2⟩], [], [⟨3⟩], []]) := by decide +kernel
  obtain ⟨p, hbuild, hlists⟩ := bind_eq_ok_iff.1 hlists
  obtain ⟨project, h, hlists⟩ := bind_eq_ok_iff.1 hlists
  obtain ⟨hfiles, hmembers⟩ := Prod.mk.inj (Except.ok.inj hlists)
  have hforest := assembleRoots_isForest hbuild rfl h
  have hmember (i : Nat) (rs : List MemberRef)
      (hrs : (project.graph.members.toList.map Member.children)[i]? = some rs) :
      ∃ member, project.graph.member ⟨i⟩ = .ok member ∧ member.children = rs := by
    rw [List.getElem?_map] at hrs
    obtain ⟨member, hmember, rfl⟩ := Option.map_eq_some_iff.1 hrs
    exact ⟨member, Graph.member_eq_ok_iff.2 (by simpa [Arena.toList, Arena.get?] using hmember), rfl⟩
  obtain ⟨file, hfile, hlisted⟩ : ∃ file, project.files[0]? = some file ∧ file.members = [⟨0⟩] := by
    have hfirst := congrArg (·[0]?) hfiles
    simpa [List.getElem?_map, Option.map_eq_some_iff] using hfirst
  obtain ⟨f, hf, howned⟩ := hmember 0 [⟨1⟩, ⟨2⟩] (by rw [hmembers]; rfl)
  obtain ⟨companion, hcompanion, hconstant⟩ := hmember 2 [⟨3⟩] (by rw [hmembers]; rfl)
  have hreached : project.Reaches [0, 1, 0, 0] ⟨3⟩ :=
    .child (.child (.file hfile (by rw [hlisted]; rfl)) hf (by rw [howned]; rfl)) hcompanion (by rw [hconstant]; rfl)
  exact ⟨p, project, hbuild, h, hforest, hreached, fun path hpath => hforest.path hpath hreached⟩

end Environment

end ApiDoc
