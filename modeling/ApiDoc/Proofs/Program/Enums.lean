import ApiDoc.Proofs.Program.EnumMembers

/-!
# Building numbers the members of enums

Two steps of building touch members of enums: one tells the value of a member (`Draft.Numbered.setConstantValue`), and
one adds a member behind the others (`Draft.Numbered.gain`).  Both leave the others as they are, so the members of every
enum of a built program are numbered one after the other (`Program.build_numbers`), as long as members are added as
such and values are told of members only (`BuildStep.areProper`).
-/

namespace ApiDoc

/-! ### Telling the value of a member -/

namespace Build

/-- Some nodes are changed, each once or more. -/
theorem meets_changeNodes (change : NodeData → NodeData) (hchange : ∀ data, change (change data) = change data)
    (ns : List NodeId) (b : Builder) :
    Meets (fun _ => True) ((ForIn.forIn ns () fun n _ => do
        modifyNode n change
        return ForInStep.yield () : Build Unit).run b) fun r =>
      ∃ nodes, r.2 = b.update (fun p => { p with nodes }) ∧ ∀ n : NodeId, nodes.get? n.index =
        if n ∈ ns then (b.program.nodes.get? n.index).map change else b.program.nodes.get? n.index := by
  induction ns generalizing b with
  | nil => exact ⟨b.program.nodes, rfl, fun n => by simp⟩
  | cons n ns ih =>
    rw [List.forIn_cons]
    refine meets_bind (P := fun r => r.1 = .yield () ∧
      r.2 = b.update fun p => { p with nodes := p.nodes.modify n.index change }) ?_ ?_
    · exact meets_bind (meets_modifyNode n change b) fun _ _ hb => ⟨rfl, hb.2⟩
    · rintro _ b' ⟨rfl, hb' : b' = _⟩
      refine (ih b').mono fun r _ ⟨nodes, hr, hnodes⟩ => ⟨nodes, by rw [hr, hb']; rfl, fun k => ?_⟩
      have hget : b'.program.nodes.get? k.index = if n = k then (b.program.nodes.get? k.index).map change
          else b.program.nodes.get? k.index := by
        rw [hb']
        show (b.program.nodes.modify n.index change).get? k.index = _
        rw [Arena.get?_modify]
        exact if_congr ⟨fun h => congrArg NodeId.mk h, fun h => congrArg NodeId.index h⟩ rfl rfl
      rw [hnodes, hget]
      by_cases hk : n = k
      · subst hk
        simp [Option.map_map, Function.comp_def, hchange]
      · simp [hk, Ne.symm hk]

/-- What telling a value changes: the declarations of the symbol and its type. -/
theorem meets_setConstantValue (m : SymbolId) (c : ConstantValue) (b : Builder) :
    Meets (fun _ => True) ((setConstantValue m c).run b) fun r => ∃ nodes types,
      r.2 = b.update (fun p => { p with nodes, types }) ∧
      (∀ n : NodeId, nodes.get? n.index = if n ∈ (b.program.symbolData m).declarations then
        (b.program.nodes.get? n.index).map fun data => { data with constant := some c }
        else b.program.nodes.get? n.index) ∧
      ∀ t : TypeId, types.get? t.index = if (b.program.symbolData m).type = some t then
        (b.program.types.get? t.index).map fun _ => enumLiteral m (some c.enumValue)
        else b.program.types.get? t.index := by
  unfold setConstantValue
  refine meets_program (meets_ask (fun _ => trivial) fun data hdata => ?_)
  have hm : b.program.symbolData m = data := Program.symbolData_eq (Error.orOutOfBounds_eq_ok_iff.1 hdata)
  refine meets_bind (meets_changeNodes (fun data => { data with constant := some c }) (fun _ => rfl) _ b) ?_
  rintro _ b' ⟨nodes, hb' : b' = _, hnodes⟩
  rw [hm]
  cases htype : data.type with
  | none => exact ⟨nodes, b.program.types, hb', hnodes, fun t => by simp⟩
  | some t =>
    refine (meets_modifyType t _ b').mono fun r _ hr => ?_
    refine ⟨nodes, b.program.types.modify t.index fun _ => enumLiteral m (some c.enumValue), ?_, hnodes, fun t' => ?_⟩
    · rw [hr, hb']
      rfl
    · rw [Arena.get?_modify]
      refine if_congr ⟨fun h => ?_, fun h => congrArg TypeId.index (Option.some.inj h)⟩ rfl rfl
      exact congrArg (fun i => some (TypeId.mk i)) h

end Build

/-- **Telling the value of a member changes its type and nothing else**: no other member has its declarations or its
type. -/
theorem Draft.Numbered.setConstantValue {b : Builder} (howns : Draft.Owns ⟨.none, b⟩)
    (hb : Draft.Numbered ⟨.none, b⟩) {m : SymbolId} (hm : b.program.isEnumMember m = true) (c : ConstantValue) :
    Meets (fun _ => True) ((Build.setConstantValue m c).run b) fun r => Draft.Numbered ⟨.none, r.2⟩ := by
  refine (Build.meets_setConstantValue m c b).mono fun r _ ⟨nodes, types, hr, hnodes, htypes⟩ => ?_
  rw [hr]
  let told : Program := { b.program with nodes, types }
  obtain ⟨_, _, hwrites⟩ := hb.written hm
  obtain ⟨t, type, ht, htype, hliteral⟩ := hwrites.typed
  -- declarations belong to one symbol each, and the literal type names the member it was made for
  have hother {k w value} (hk : k ≠ m) (h : b.program.Writes k w value) : told.Writes k w value := by
    refine h.continues (SymbolData.SameRole.refl _).continues (fun {n data} hget hn => ?_) fun {i data} hget hdata => ?_
    · have hnot : n ∉ (b.program.symbolData m).declarations := fun hmem =>
        hk (Option.some.inj ((howns.declared hn).symm.trans (howns.declared hmem)))
      exact ⟨data, by rw [hnodes, if_neg hnot]; exact hget, .refl _⟩
    · have hnot : (b.program.symbolData m).type ≠ some ⟨i⟩ := by
        intro heq
        obtain rfl : t = ⟨i⟩ := Option.some.inj (ht.symm.trans heq)
        obtain rfl : type = data := Option.some.inj (htype.symm.trans hget)
        exact hk (Option.some.inj (hdata.symm.trans (hliteral.symbol.trans (Build.enumLiteral_symbol m _))))
      have hsame := htypes ⟨i⟩
      rw [if_neg hnot] at hsame
      exact ⟨data, hsame.trans hget, .refl _⟩
  have hself {w value} (h : b.program.Writes m w value) :
      told.Writes m { w with constant := some c } (some c.enumValue) := by
    obtain ⟨n, node, hvalue, hn, hget, hinitializer, -⟩ := h.declared
    have hget' : nodes.get? n.index = some { node with constant := some c } := by
      rw [hnodes, if_pos hn, hget]
      rfl
    have htype' : types.get? t.index = some (Build.enumLiteral m (some c.enumValue)) := by
      rw [htypes, if_pos ht, htype]
      rfl
    exact ⟨h.name, h.flags, ⟨n, _, hvalue, hn, hget', hinitializer, rfl⟩, ⟨t, _, ht, htype', .refl _⟩⟩
  refine ⟨(nomatch ·), fun {k} hk => ?_, fun owner => (hb.numbers owner).mono fun {k w n} h => ?_⟩
  · obtain ⟨w, value, h⟩ := hb.written hk
    by_cases heq : k = m
    · subst heq
      exact ⟨_, _, hself h⟩
    · exact ⟨w, value, hother heq h⟩
  · by_cases heq : k = m
    · subst heq
      exact ⟨_, hself h, rfl, rfl⟩
    · exact ⟨w, hother heq h, rfl, rfl⟩

/-! ### Adding a member -/

/-- One more member of an enum, which is not declared yet, with its node and a type for its value. -/
structure Program.Prepares (p p' : Program) (m : SymbolId) (n : NodeId) (w : WrittenMember) (value : Option EnumValue) :
    Prop where
  fresh : m.index = p.symbols.size ∧ n.index = p.nodes.size
  symbol {k} (hk : k ≠ m) : p'.symbolData k = p.symbolData k
  node {i data} (hi : p.nodes.get? i = some data) : p'.nodes.get? i = some data
  type {i data} (hi : p.types.get? i = some data) : ∃ data', p'.types.get? i = some data' ∧ data.SameLiteral data'
  written : ∃ node, p'.nodes.get? n.index = some node ∧ node.kind = .enumMember ∧ node.initializer = w.initializer ∧
    node.constant = w.constant
  typed : ∃ t type, p'.symbolData m = { name := w.name, flags := .of [.enumMember], type := some t } ∧
    p'.types.get? t.index = some type ∧ (Build.enumLiteral m value).SameLiteral type

/-- The program with one more member of an enum, at a new node. -/
def Program.withMember (p : Program) (files : Arena FileData) (node : NodeData) (name : String)
    (value : Option EnumValue) : Program :=
  { p with
    files
    symbols := p.symbols.push { name, flags := .of [.enumMember], type := some ⟨p.types.size⟩ }
    types := p.types.push (Build.enumLiteral ⟨p.symbols.size⟩ value)
    nodes := p.nodes.push node }

theorem Program.prepares_withMember (p : Program) (files : Arena FileData) {node : NodeData}
    (hkind : node.kind = .enumMember) (hconstant : node.constant = none) (name : String) (value : Option EnumValue) :
    p.Prepares (p.withMember files node name value) ⟨p.symbols.size⟩ ⟨p.nodes.size⟩
      { name, initializer := node.initializer } value where
  fresh := ⟨rfl, rfl⟩
  symbol {k} hk := (symbolData_push p _ k).trans (if_neg fun h => hk (congrArg SymbolId.mk h))
  node hi := Arena.get?_push_of_eq_some hi _
  type hi := ⟨_, Arena.get?_push_of_eq_some hi _, .refl _⟩
  written := ⟨node, (Arena.get?_push ..).trans (if_pos rfl), hkind, rfl, hconstant⟩
  typed := ⟨⟨p.types.size⟩, _, (symbolData_push p _ _).trans (if_pos rfl),
    (Arena.get?_push ..).trans (if_pos rfl), .refl _⟩

/-- It does not matter what else is said about types. -/
theorem Program.Prepares.modifyType {p p' : Program} {m : SymbolId} {n : NodeId} {w : WrittenMember}
    {value : Option EnumValue} (h : p.Prepares p' m n w value) (t : TypeId) {change : TypeData → TypeData}
    (hsame : ∀ data : TypeData, data.SameLiteral (change data)) :
    p.Prepares { p' with types := p'.types.modify t.index change } m n w value := by
  have htype {i data} (hi : p'.types.get? i = some data) :
      ∃ data', (p'.types.modify t.index change).get? i = some data' ∧ data.SameLiteral data' := by
    obtain ⟨data', hdata', rfl | rfl⟩ := Arena.exists_get?_modify hi t.index change
    · exact ⟨_, hdata', .refl _⟩
    · exact ⟨_, hdata', hsame _⟩
  refine ⟨h.fresh, h.symbol, h.node, fun hi => ?_, h.written, ?_⟩
  · obtain ⟨_, hdata, hliteral⟩ := h.type hi
    obtain ⟨data', hdata', hliteral'⟩ := htype hdata
    exact ⟨data', hdata', hliteral.trans hliteral'⟩
  · obtain ⟨t', type, hm, hget, hliteral⟩ := h.typed
    obtain ⟨type', hget', hliteral'⟩ := htype hget
    exact ⟨t', type', hm, hget', hliteral.trans hliteral'⟩

/-- One more member of an enum, behind the others. -/
structure Program.GainsMember (p p' : Program) (owner m : SymbolId) (w : WrittenMember) (value : Option EnumValue) :
    Prop where
  fresh : m.index = p.symbols.size
  apart : owner ≠ m
  symbol {k} (hk : k ≠ m) : p'.symbolData k =
    if k = owner then { p.symbolData k with exportsOf := (p.symbolData k).exportsOf ++ [m] } else p.symbolData k
  node {i data} (hi : p.nodes.get? i = some data) : p'.nodes.get? i = some data
  type {i data} (hi : p.types.get? i = some data) : ∃ data', p'.types.get? i = some data' ∧ data.SameLiteral data'
  writes : p'.Writes m w value
  exportsOf : (p'.symbolData m).exportsOf = []

theorem Draft.Numbered.gain {b b' : Builder} (hb : Draft.Numbered ⟨.none, b⟩) (hplaced : b.program.outline.Placed)
    {owner m : SymbolId} {w : WrittenMember}
    (h : b.program.GainsMember b'.program owner m w (w.typed (b.numbering owner)))
    (hnumberings : b'.numberings = (owner, ((b.numbering owner).assign w.name w.counted).2) :: b.numberings) :
    Draft.Numbered ⟨.none, b'⟩ := by
  have hnew : b.program.isEnumMember m = false := by
    rw [Program.isEnumMember, Program.symbolData_of_size_le (Nat.le_of_eq h.fresh.symm)]
    decide
  -- the member is listed nowhere before, so no other enum gains one
  have hunlisted (o : SymbolId) : m ∉ (b.program.symbolData o).exportsOf := by
    intro hm
    have hlisted : m ∈ (b.program.outline.symbol o).listed := by
      rw [Program.outline_symbolData]
      exact List.mem_append_left _ hm
    exact Nat.lt_irrefl _ (h.fresh ▸ hplaced.known (hplaced.listed hlisted))
  have hmember (k : SymbolId) (hk : k ≠ m) : b'.program.isEnumMember k = b.program.isEnumMember k := by
    rw [Program.isEnumMember, h.symbol hk]
    split <;> rfl
  have hwrites {k w value} (hk : b.program.Writes k w value) : b'.program.Writes k w value := by
    have hne : k ≠ m := fun heq => by simpa [heq, hnew] using hk.isEnumMember
    refine hk.continues ?_ (fun hi _ => ⟨_, h.node hi, .refl _⟩) fun hi _ => h.type hi
    rw [h.symbol hne]
    split <;> exact ⟨rfl, fun _ => rfl, List.Subset.refl _, fun hn => hn, rfl⟩
  have hfilter (o : SymbolId) : (b.program.symbolData o).exportsOf.filter b'.program.isEnumMember =
      b.program.enumMembers o :=
    List.filter_congr fun k hk => hmember k fun heq => hunlisted o (heq ▸ hk)
  have hold (o : SymbolId) : b'.program.Numbers {} (b.program.enumMembers o) (b.numbering o) :=
    (hb.numbers o).mono fun hk => ⟨_, hwrites hk, rfl, rfl⟩
  refine ⟨fun hm => absurd hm List.not_mem_nil, fun {k} hk => ?_, fun o => ?_⟩
  · by_cases heq : k = m
    · exact ⟨_, _, heq ▸ h.writes⟩
    · obtain ⟨w, value, hw⟩ := hb.written ((hmember k heq).symm.trans hk)
      exact ⟨w, value, hwrites hw⟩
  · rw [Builder.numbering, hnumberings, Program.enumMembers]
    by_cases hm : o = m
    · have hnone := hold m
      rw [Program.enumMembers, Program.symbolData_of_size_le (Nat.le_of_eq h.fresh.symm)] at hnone
      rw [hm, h.exportsOf, List.lookup_cons, beq_false_of_ne h.apart.symm]
      exact hnone
    · rw [h.symbol hm]
      by_cases ho : o = owner
      · subst ho
        rw [if_pos rfl, List.filter_append, hfilter, List.filter_cons_of_pos h.writes.isEnumMember,
          List.lookup_cons_self]
        exact (hold o).snoc h.writes
      · rw [if_neg ho, hfilter, List.lookup_cons, beq_false_of_ne ho]
        exact hold o

namespace Build

theorem meets_addSymbol (name : String) (flags : List SymbolFlag) (b : Builder) :
    Meets (fun _ => True) ((addSymbol name flags).run b) fun r => r.1 = ⟨b.program.symbols.size⟩ ∧
      r.2 = b.update fun p => { p with symbols := p.symbols.push { name, flags := .of flags } } := ⟨rfl, rfl⟩

theorem meets_addType (data : TypeData) (b : Builder) :
    Meets (fun _ => True) ((addType data).run b) fun r => r.1 = ⟨b.program.types.size⟩ ∧
      r.2 = b.update fun p => { p with types := p.types.push data } := ⟨rfl, rfl⟩

theorem meets_fileOf (m : SymbolId) (b : Builder) : Meets (fun _ => True) ((fileOf m).run b) fun r => r.2 = b := by
  unfold fileOf
  refine meets_program (meets_ask (fun _ => trivial) fun data _ => ?_)
  split
  · exact meets_program (meets_ask (fun _ => trivial) fun _ _ => rfl)
  · rfl

theorem meets_declaredType (m : SymbolId) (b : Builder) :
    Meets (fun _ => True) ((declaredType m).run b) fun r => r.2 = b := by
  unfold declaredType
  exact meets_program (meets_ask (fun _ => trivial) fun _ _ => rfl)

/-- Declarations are written among what a symbol exports only if there is such a symbol. -/
theorem meets_placeOf (owner : SymbolId) (b : Builder) : Meets (fun _ => True) ((placeOf (.exportsOf owner)).run b)
    fun r => r.2 = b ∧ ∃ data, b.program.symbols.get? owner.index = some data := by
  unfold placeOf
  refine meets_bind (meets_fileOf owner b) fun file b' (hb' : b' = b) => ?_
  subst hb'
  have hnode : Meets (fun _ => True) ((scopeNode (.exportsOf owner)).run b') fun r =>
      r.2 = b' ∧ ∃ data, b'.program.symbols.get? owner.index = some data :=
    meets_program (meets_ask (fun _ => trivial) fun data hdata => ⟨rfl, data, Error.orOutOfBounds_eq_ok_iff.1 hdata⟩)
  exact meets_bind hnode fun _ _ h => h

theorem meets_writeDeclaration (place : Place) (kind : SyntaxKind) (doc code : String) (name : Option String)
    (b : Builder) :
    Meets (fun _ => True) ((writeDeclaration place kind doc code name).run b) fun r =>
      r.1 = ⟨b.program.nodes.size⟩ ∧ ∃ files span, r.2 = b.update fun p => { p with
        files, nodes := p.nodes.push { kind, file := place.file, span, parent := place.parent, name } } := by
  unfold writeDeclaration
  have hwritten : Meets (fun _ => True) ((pushText place.file doc code).run b) fun r =>
      ∃ files, r.2 = b.update fun p => { p with files } := by
    unfold pushText
    refine meets_program (meets_ask (fun _ => trivial) fun data _ => ?_)
    exact meets_bind (meets_modifyFile place.file _ b) fun _ b' hb' => ⟨_, hb'⟩
  refine meets_bind hwritten fun span b' ⟨files, (hb' : b' = _)⟩ => ?_
  subst hb'
  exact ⟨rfl, files, span, rfl⟩

/-- A new member is numbered on, and its type is the one that the numbering gives it. -/
theorem meets_numberMember (owner : SymbolId) (name : String) (initializer : Option String) (b : Builder) :
    Meets (fun _ => True) ((numberMember owner name initializer).run b) fun r =>
      r.1 = WrittenMember.typed { name, initializer } (b.numbering owner) ∧
      r.2 = { b with numberings := (owner, ((b.numbering owner).assign name
        (WrittenMember.counted { name, initializer })).2) :: b.numberings } := by
  have hcounted : (if initializer.isSome && (initializer.bind EnumValue.parse?).isNone
        then initializer.map EnumValue.text else initializer.bind EnumValue.parse?) =
      WrittenMember.counted { name, initializer } := by
    cases initializer with
    | none => rfl
    | some text => 
      cases hparse : EnumValue.parse? text <;> simp [WrittenMember.counted, hparse]
  have hcomputed : (initializer.isSome && (initializer.bind EnumValue.parse?).isNone) =
      WrittenMember.isComputed { name, initializer } := by
    cases initializer <;> rfl
  have hrun : (numberMember owner name initializer).run b = .ok
      (if initializer.isSome && (initializer.bind EnumValue.parse?).isNone then none else
        some (((b.numbering owner).assign name (if initializer.isSome && (initializer.bind EnumValue.parse?).isNone
          then initializer.map EnumValue.text else initializer.bind EnumValue.parse?)).1),
      { b with numberings := (owner, ((b.numbering owner).assign name
        (if initializer.isSome && (initializer.bind EnumValue.parse?).isNone
          then initializer.map EnumValue.text else initializer.bind EnumValue.parse?)).2) :: b.numberings }) := rfl
  rw [hrun, hcounted, hcomputed]
  exact ⟨rfl, rfl⟩

/-- A symbol is listed last among what another exports. -/
theorem meets_attachExport {m owner : SymbolId} (hne : owner ≠ m) (b : Builder) :
    Meets (fun _ => True) ((attach (.exportsOf owner) m).run b) fun r =>
      r.2.numberings = b.numberings ∧ r.2.program.types = b.program.types ∧ r.2.program.nodes = b.program.nodes ∧
      ∀ k, r.2.program.symbolData k =
        if k = m then { b.program.symbolData m with parent := some owner }
        else if k = owner then
          { b.program.symbolData k with exportsOf := (b.program.symbolData k).exportsOf ++ [m] }
        else b.program.symbolData k := by
  refine meets_bind (meets_modifySymbol owner _ b) fun _ b₁ ⟨⟨_, howner⟩, (hb₁ : b₁ = _)⟩ => ?_
  refine (meets_modifySymbol m _ b₁).mono fun r _ ⟨⟨_, hm⟩, hr⟩ => ?_
  refine ⟨by rw [hr, hb₁]; rfl, by rw [hr, hb₁]; rfl, by rw [hr, hb₁]; rfl, fun k => ?_⟩
  have hlisted (k : SymbolId) : b₁.program.symbolData k = if k = owner then
      { b.program.symbolData owner with exportsOf := (b.program.symbolData owner).exportsOf ++ [m] }
      else b.program.symbolData k := by
    rw [hb₁]
    exact Program.symbolData_modify howner _ k
  rw [hr, Builder.update, Program.symbolData_modify hm, hlisted, if_neg hne.symm, hlisted]
  split
  · rfl
  · split
    · next heq => rw [heq]
    · rfl

/-- What is prepared becomes a member once it is declared and listed. -/
theorem meets_listMember {p : Program} {owner m : SymbolId} {n : NodeId} {w : WrittenMember} {value : Option EnumValue}
    {b : Builder} (h : p.Prepares b.program m n w value) (hne : owner ≠ m) :
    Meets (fun _ => True) ((do declare m n; attach (.exportsOf owner) m; return m : Build SymbolId).run b) fun r =>
      p.GainsMember r.2.program owner r.1 w value ∧ r.2.numberings = b.numberings := by
  obtain ⟨node, hnode, hkind, hinitializer, hconstant⟩ := h.written
  obtain ⟨t, type, hm, htype, hliteral⟩ := h.typed
  refine meets_bind (meets_declare m n b) fun _ b₁ ⟨_, node', hsymbol, hnode', (hb₁ : b₁ = _)⟩ => ?_
  obtain rfl : node' = node := Option.some.inj (hnode'.symm.trans hnode)
  refine meets_bind (meets_attachExport hne b₁) fun _ b₂ ⟨hnumberings, htypes, hnodes, hsymbols⟩ => ?_
  have hdeclared (k : SymbolId) : b₁.program.symbolData k = if k = m then
      (b.program.symbolData m).withDeclaration n !valueless.contains node'.kind else b.program.symbolData k := by
    rw [hb₁]
    exact Program.symbolData_declared hsymbol n _ k
  -- the tables in the end: the symbol with its declaration and owner, the node with its symbol, and all else as it was
  have hself : b₂.program.symbolData m =
      { name := w.name, flags := .of [.enumMember], declarations := [n], valueDeclaration := some n, type := some t,
        parent := some owner } := by
    rw [hsymbols, if_pos rfl, hdeclared, if_pos rfl, hm, hkind]
    rfl
  have hother {k : SymbolId} (hk : k ≠ m) : b₁.program.symbolData k = p.symbolData k := by
    rw [hdeclared, if_neg hk, h.symbol hk]
  have hnode₂ (i : Nat) : b₂.program.nodes.get? i = if n.index = i then
      (b.program.nodes.get? i).map fun data => { data with symbol := some m } else b.program.nodes.get? i := by
    rw [show b₂.program.nodes = b₁.program.nodes from hnodes, hb₁]
    exact Arena.get?_modify ..
  have htype₂ : b₂.program.types = b.program.types := htypes.trans (hb₁ ▸ rfl)
  refine ⟨⟨h.fresh.1, hne, fun {k} hk => ?_, fun {i data} hi => ?_, fun hi => ?_, ?_, ?_⟩,
    hnumberings.trans (hb₁ ▸ rfl)⟩
  · rw [hsymbols, if_neg hk, hother hk]
  · rw [hnode₂, if_neg fun heq => Arena.ne_size hi (heq.symm.trans h.fresh.2)]
    exact h.node hi
  · rw [htype₂]
    exact h.type hi
  · refine ⟨?_, ?_, ⟨n, { node' with symbol := some m }, ?_, ?_, ?_, hinitializer, hconstant⟩,
      ⟨t, type, ?_, ?_, hliteral⟩⟩
    · rw [hself]
    · rw [hself]
      exact fun _ => rfl
    · rw [hself]
    · rw [hself]
      exact List.mem_singleton_self n
    · rw [hnode₂, if_pos rfl, hnode]
      rfl
    · rw [hself]
    · rw [htype₂]
      exact htype
  · rw [hself]

/-- A member of an enum is added behind the others, numbered on from the last. -/
theorem meets_enumMember (owner : SymbolId) (doc name : String) (initializer : Option String) (b : Builder) :
    Meets (fun _ => True) ((enumMember owner doc name initializer).run b) fun r =>
      b.program.GainsMember r.2.program owner r.1 { name, initializer }
        (WrittenMember.typed { name, initializer } (b.numbering owner)) ∧
      r.2.numberings = (owner, ((b.numbering owner).assign name
        (WrittenMember.counted { name, initializer })).2) :: b.numberings := by
  unfold enumMember
  refine meets_bind (meets_placeOf owner b) fun place b' ⟨(hb' : b' = b), _, howner⟩ => ?_
  subst hb'
  refine meets_bind (meets_writeDeclaration place _ _ _ _ b') fun n b₁ ⟨hn, files, span, (hb₁ : b₁ = _)⟩ => ?_
  refine meets_bind (meets_modifyNode n _ b₁) fun _ b₂ ⟨_, (hb₂ : b₂ = _)⟩ => ?_
  refine meets_bind (meets_addSymbol name [.enumMember] b₂) fun m b₃ ⟨hm, (hb₃ : b₃ = _)⟩ => ?_
  refine meets_bind (meets_numberMember owner name initializer b₃) fun value b₄ hnumbered => ?_
  obtain ⟨hvalue, hb₄⟩ : value = _ ∧ b₄ = _ := hnumbered
  refine meets_bind (meets_addType (enumLiteral m value) b₄) fun t b₅ ⟨ht, (hb₅ : b₅ = _)⟩ => ?_
  refine meets_bind (meets_modifySymbol m _ b₅) fun _ b₆ ⟨⟨_, hget⟩, (hb₆ : b₆ = _)⟩ => ?_
  -- the steps so far put together: the node, the symbol and the type are new, and nothing else has changed
  have hwritten : b₆ = { b' with
      program := b'.program.withMember files
        { kind := .enumMember, file := place.file, span, parent := place.parent, name, initializer } name value
      numberings := (owner, ((b'.numbering owner).assign name
        (WrittenMember.counted { name, initializer })).2) :: b'.numberings } := by
    subst hb₆ hb₅ ht hb₄ hb₃ hm hb₂ hb₁ hn
    simp [Builder.update, Builder.numbering, Program.withMember, Arena.modify_push]
  have hvalue' : value = WrittenMember.typed { name, initializer } (b'.numbering owner) := by
    rw [hvalue, hb₃, hb₂, hb₁]
    rfl
  have hm' : m = ⟨b'.program.symbols.size⟩ := by
    rw [show m = _ from hm, hb₂, hb₁]
    rfl
  have hne : owner ≠ m := by
    rintro rfl
    rw [hm', Arena.get?_eq_none_iff.2 (Nat.le_refl _)] at howner
    cases howner
  have hprepared : b'.program.Prepares b₆.program m n { name, initializer } value := by
    rw [hwritten, hm', show n = _ from hn]
    exact b'.program.prepares_withMember files rfl rfl name value
  have hnumberings := congrArg Builder.numberings hwritten
  clear hwritten hb₆ hget hb₅ ht hb₄ hvalue hb₃ hm hb₂ hb₁ hn
  subst hvalue'
  -- the declared type of the enum, if it has one, gets the type of the member; the member is listed in either case
  refine meets_bind (meets_declaredType owner b₆) fun declared b₇ (hb₇ : b₇ = b₆) => ?_
  subst hb₇
  split
  · refine meets_bind (meets_modifyType _ _ b₇) fun _ b₈ (hb₈ : b₈ = _) => ?_
    subst hb₈
    refine (meets_listMember (hprepared.modifyType _ fun data => ?_) hne).mono fun r _ hr => ?_
    · exact ⟨rfl, rfl, rfl⟩
    · exact ⟨hr.1, hr.2.trans hnumberings⟩
  · exact (meets_listMember hprepared hne).mono fun r _ hr => ⟨hr.1, hr.2.trans hnumberings⟩

end Build

/-! ### Whatever a program is built from -/

namespace BuildStep

/-- A step that adds members of enums as such only, and tells the value of nothing else. -/
def isProper (p : Program) : BuildStep → Bool
  | setConstantValue m _ => p.isEnumMember m
  | bareSymbol _ _ flags => !flags.has .enumMember
  | _ => true

/-- Steps that are proper one after the other. -/
def areProper (b : Builder) : List BuildStep → Bool
  | [] => true
  | step :: steps =>
    step.isProper b.program && match step.run.run b with
      | .ok r => areProper r.2 steps
      | .error _ => true

end BuildStep

/-- A program under construction between two steps. -/
structure Builder.Numbered (b : Builder) : Prop where
  placed : b.program.outline.Placed
  owns : Draft.Owns ⟨.none, b⟩
  numbered : Draft.Numbered ⟨.none, b⟩

theorem Builder.Numbered.empty : Builder.Numbered {} := by
  have hdata (m : SymbolId) : Program.symbolData {} m = default := Program.symbolData_of_size_le (Nat.zero_le _)
  refine ⟨.empty, .empty, (nomatch ·), fun {m} hm => ?_, fun owner => ?_⟩
  · rw [Program.isEnumMember, hdata] at hm
    exact absurd hm (by decide)
  · rw [Program.enumMembers, hdata]
    exact .nil {}

/-- **A proper step keeps the members of enums numbered.** -/
theorem Builder.Numbered.run {b : Builder} (hb : b.Numbered) {step : BuildStep} (h : step.isProper b.program = true) :
    Meets (fun _ => True) (step.run.run b) fun r => r.2.Numbered := by
  have hnumbered : Meets (fun _ => True) (step.run.run b) fun r => Draft.Numbered ⟨.none, r.2⟩ := by
    by_cases hspares : step.SparesEnums
    · exact (step.keeps_run (fun _ => hspares) b).mono fun _ _ hr => hr.numbered hb.placed.offers hb.numbered
    · cases step with
      | setConstantValue m c =>
        exact Build.meets_bind (hb.numbered.setConstantValue hb.owns h c) fun _ _ hr => hr
      | enumMember owner doc name initializer =>
        refine Build.meets_bind (Build.meets_enumMember owner doc name initializer b) fun m b' hmember => ?_
        exact hb.numbered.gain hb.placed hmember.1 hmember.2
      | bareSymbol _ _ flags =>
        have hflag : flags.has .enumMember = false := by simpa [BuildStep.isProper] using h
        exact absurd hflag hspares
      | _ => exact absurd trivial hspares
  have hedits : Meets (fun _ => True) (step.run.run b) fun r => Edits True ⟨.none, b⟩ ⟨.none, r.2⟩ :=
    step.keeps_run (fun h => absurd trivial h) b
  refine hnumbered.mono fun r hr hnumbered => ?_
  rw [hr] at hedits
  exact ⟨(hedits.offers hb.placed.offers).placed, hedits.owns hb.owns, hnumbered⟩

/-- Proper steps keep them numbered, one after the other. -/
theorem Builder.Numbered.runAll {b : Builder} (hb : b.Numbered) {steps : List BuildStep}
    (h : BuildStep.areProper b steps = true) :
    Meets (fun _ => True) ((BuildStep.runAll steps).run b) fun r => r.2.Numbered := by
  induction steps generalizing b with
  | nil => exact hb
  | cons step steps ih =>
    obtain ⟨hstep, hrest⟩ := Bool.and_eq_true_iff.1 h
    unfold BuildStep.runAll
    rw [List.mapM_cons, StateT.run_bind]
    refine (hb.run hstep).bind fun r hr hnumbered => ?_
    rw [hr] at hrest
    exact Build.meets_bind (ih hnumbered hrest) fun _ _ h => h

/-- **The enums of a built program.** -/
theorem Program.build_numbers {steps : List BuildStep} {p : Program} (h : Program.build steps = .ok p)
    (hproper : BuildStep.areProper {} steps = true) (owner : SymbolId) :
    ∃ n, p.Numbers {} (p.enumMembers owner) n := by
  obtain ⟨⟨added, b⟩, hrun, hp⟩ := bind_eq_ok_iff.1 h
  obtain rfl : b.program = p := Except.ok.inj hp
  have hb := Builder.Numbered.empty.runAll hproper
  rw [hrun] at hb
  exact ⟨_, hb.numbered.numbers owner⟩

end ApiDoc
