import ApiDoc.Proofs.EnumValues
import ApiDoc.Proofs.Program.Declarations

/-!
# Members of enums under construction

A member of an enum has a type for its value from the start, by a numbering that runs while the program is built, and
another one when its value is told.  What the types are by then is told by `Program.Numbers`: the numbering goes by what
is written (`WrittenMember.counted`), whatever is told of it, and each type is that of what was told, or else of the
number that was due (`WrittenMember.typed`).

Members stay as they are whatever else is built (`Edit.retains`), and so does their numbering (`Edits.numbered`).
-/

namespace ApiDoc

/-! ### Members of enums -/

/-- A member of an enum as it is written, with what was told of its value. -/
structure WrittenMember where
  name : String
  initializer : Option String
  constant : Option ConstantValue := none

namespace WrittenMember

/-- Whether there is an initialiser that is no literal. -/
def isComputed (w : WrittenMember) : Bool := w.initializer.any fun text => (EnumValue.parse? text).isNone

/-- The value that members are numbered on from while a program is built: an initialiser that is no literal counts as a
text. -/
def counted (w : WrittenMember) : Option EnumValue :=
  w.initializer.map fun text => (EnumValue.parse? text).getD (.text text)

/-- The value in the type of a member: what was told of it, or else what the numbering gives it. -/
def typed (w : WrittenMember) (n : Numbering) : Option EnumValue :=
  match w.constant with
  | some c => some c.enumValue
  | none => if w.isComputed then none else some (n.valueOf w.name w.counted)

end WrittenMember

/-- Whether a symbol is a member of an enum. -/
def Program.isEnumMember (p : Program) (m : SymbolId) : Bool := (p.symbolData m).flags.has .enumMember

/-- The members of an enum among what its symbol exports. -/
def Program.enumMembers (p : Program) (owner : SymbolId) : List SymbolId :=
  (p.symbolData owner).exportsOf.filter p.isEnumMember

/-- The type of a member is of that member only. -/
theorem Build.enumLiteral_symbol (m : SymbolId) (value : Option EnumValue) : (enumLiteral m value).symbol = some m := by
  unfold enumLiteral
  split <;> rfl

/-- A member of an enum with its initialiser and a type for its value. -/
structure Program.Writes (p : Program) (m : SymbolId) (w : WrittenMember) (value : Option EnumValue) : Prop where
  name : (p.symbolData m).name = w.name
  flags {f} (hf : f ∈ SymbolFlag.settled) : (p.symbolData m).flags.has f = (FlagSet.of [SymbolFlag.enumMember]).has f
  declared : ∃ n node, (p.symbolData m).valueDeclaration = some n ∧ n ∈ (p.symbolData m).declarations ∧
    p.nodes.get? n.index = some node ∧ node.initializer = w.initializer ∧ node.constant = w.constant
  typed : ∃ t type, (p.symbolData m).type = some t ∧ p.types.get? t.index = some type ∧
    (Build.enumLiteral m value).SameLiteral type

/-- The members of an enum are numbered one after the other, from where the numbering stands before them to where it
stands behind them, and have types for the values that this gives. -/
inductive Program.Numbers (p : Program) : Numbering → List SymbolId → Numbering → Prop
  | nil (n : Numbering) : Numbers p n [] n
  | cons {n n' : Numbering} {m : SymbolId} {ms : List SymbolId} {w : WrittenMember} (hm : p.Writes m w (w.typed n))
      (h : Numbers p (n.assign w.name w.counted).2 ms n') : Numbers p n (m :: ms) n'

/-- Where the numbering of an enum stands. -/
def Builder.numbering (b : Builder) (owner : SymbolId) : Numbering := (b.numberings.lookup owner).getD {}

/-- The enums of a program under construction have numbered members, and what is at hand is no member of an enum. -/
structure Draft.Numbered (d : Draft) : Prop where
  plain {m : SymbolId} (hm : m ∈ d.stock.symbols) : d.builder.program.isEnumMember m = false
  written {m : SymbolId} (hm : d.builder.program.isEnumMember m = true) : ∃ w value, d.builder.program.Writes m w value
  numbers (owner : SymbolId) :
    d.builder.program.Numbers {} (d.builder.program.enumMembers owner) (d.builder.numbering owner)

/-! ### What edits leave of them -/

/-- The same symbol in the same role, which may be declared once more. -/
structure SymbolData.Continues (data data' : SymbolData) : Prop where
  name : data'.name = data.name
  flags {f} (hf : f ∈ SymbolFlag.settled) : data'.flags.has f = data.flags.has f
  declarations : data.declarations ⊆ data'.declarations
  valueDeclaration {n} (hn : data.valueDeclaration = some n) : data'.valueDeclaration = some n
  type : data'.type = data.type

/-- A member of an enum continues and nothing else becomes one; some symbols may be listed in addition. -/
structure SymbolData.Retained (listed : SymbolId → Prop) (data data' : SymbolData) : Prop where
  flag : data'.flags.has .enumMember = data.flags.has .enumMember
  exportsOf : ∃ ms, data'.exportsOf = data.exportsOf ++ ms ∧ ∀ m ∈ ms, listed m
  role (hmember : data.flags.has .enumMember = true) : data.Continues data'

/-- The members of enums continue, with the same initialisers and the same types. -/
structure Program.Retains (p p' : Program) : Prop where
  symbol (m : SymbolId) : (p.symbolData m).Retained (p.isEnumMember · = false) (p'.symbolData m)
  node {i : Nat} {data : NodeData} (hi : p.nodes.get? i = some data) :
    ∃ data', p'.nodes.get? i = some data' ∧ data.SameInitializer data'
  type {i : Nat} {data : TypeData} (hi : p.types.get? i = some data) :
    ∃ data', p'.types.get? i = some data' ∧ data.SameLiteral data'

theorem SymbolData.SameRole.continues {data data' : SymbolData} (h : data.SameRole data') : data.Continues data' where
  name := h.name
  flags := h.flags
  declarations := h.declarations ▸ List.Subset.refl _
  valueDeclaration hn := h.valueDeclaration.trans hn
  type := h.type

/-- The first declaration of a value stays the one. -/
theorem SymbolData.continues_withDeclaration (n : NodeId) (isValue : Bool) (data : SymbolData) :
    data.Continues (data.withDeclaration n isValue) where
  name := rfl
  flags _ := rfl
  declarations := List.subset_append_left _ _
  valueDeclaration hn := by
    unfold withDeclaration
    split
    · simp [hn]
    · exact hn
  type := rfl

theorem SymbolData.Retained.refl {listed : SymbolId → Prop} (data : SymbolData) : data.Retained listed data :=
  ⟨rfl, ⟨[], by simp, by simp⟩, fun _ => (SymbolData.SameRole.refl data).continues⟩

namespace Program

variable {p p' : Program} {m owner : SymbolId} {data : SymbolData}

/-- Where symbols change one by one it is enough to look at one that does. -/
theorem Retains.modifySymbol (h : p.symbols.get? m.index = some data) {change : SymbolData → SymbolData}
    (hchange : data.Retained (p.isEnumMember · = false) (change data)) :
    p.Retains { p with symbols := p.symbols.modify m.index change } where
  symbol k := by
    rw [symbolData_modify h]
    split
    · next hk =>
      subst hk
      rw [symbolData_eq h]
      exact hchange
    · exact .refl _
  node hi := ⟨_, hi, .refl _⟩
  type hi := ⟨_, hi, .refl _⟩

/-- Nothing is lost where nothing is said about symbols. -/
theorem Retains.of_symbols (h : p'.symbols = p.symbols)
    (hnode : ∀ {i data}, p.nodes.get? i = some data →
      ∃ data', p'.nodes.get? i = some data' ∧ data.SameInitializer data')
    (htype : ∀ {i data}, p.types.get? i = some data → ∃ data', p'.types.get? i = some data' ∧ data.SameLiteral data') :
    p.Retains p' where
  symbol m := by
    rw [symbolData_congr h]
    exact .refl _
  node := hnode
  type := htype

namespace Retains

theorem isEnumMember (h : p.Retains p') (m : SymbolId) : p'.isEnumMember m = p.isEnumMember m := (h.symbol m).flag

theorem enumMembers (h : p.Retains p') (owner : SymbolId) : p'.enumMembers owner = p.enumMembers owner := by
  obtain ⟨ms, hexports, hplain⟩ := (h.symbol owner).exportsOf
  have hnone : ms.filter p.isEnumMember = [] := List.filter_eq_nil_iff.2 fun m hm => by simp [hplain m hm]
  rw [Program.enumMembers, funext h.isEnumMember, hexports, List.filter_append, hnone, List.append_nil]
  rfl

end Retains

/-- A member of an enum is one as long as it goes on. -/
theorem Writes.continues {w : WrittenMember} {value : Option EnumValue} (h : p.Writes m w value)
    (hsymbol : (p.symbolData m).Continues (p'.symbolData m))
    (hnode : ∀ {n : NodeId} {data}, p.nodes.get? n.index = some data → n ∈ (p.symbolData m).declarations →
      ∃ data', p'.nodes.get? n.index = some data' ∧ data.SameInitializer data')
    (htype : ∀ {i data}, p.types.get? i = some data → data.symbol = some m →
      ∃ data', p'.types.get? i = some data' ∧ data.SameLiteral data') : p'.Writes m w value where
  name := hsymbol.name.trans h.name
  flags hf := (hsymbol.flags hf).trans (h.flags hf)
  declared := by
    obtain ⟨n, node, hvalue, hn, hget, hinitializer, hconstant⟩ := h.declared
    obtain ⟨node', hget', hsame⟩ := hnode hget hn
    exact ⟨n, node', hsymbol.valueDeclaration hvalue, hsymbol.declarations hn, hget',
      hsame.initializer.trans hinitializer, hsame.constant.trans hconstant⟩
  typed := by
    obtain ⟨t, type, ht, hget, hliteral⟩ := h.typed
    obtain ⟨type', hget', hsame⟩ := htype hget (hliteral.symbol.trans (Build.enumLiteral_symbol m value))
    exact ⟨t, type', hsymbol.type.trans ht, hget', hliteral.trans hsame⟩

theorem Writes.isEnumMember {w : WrittenMember} {value : Option EnumValue} (h : p.Writes m w value) :
    p.isEnumMember m = true := (h.flags (by decide)).trans (by decide)

theorem Retains.writes {w : WrittenMember} {value : Option EnumValue} (h : p.Retains p') (hm : p.Writes m w value) :
    p'.Writes m w value :=
  hm.continues ((h.symbol m).role hm.isEnumMember) (fun hi _ => h.node hi) fun hi _ => h.type hi

/-- Members are numbered alike as long as their initialisers stay, whatever is told of them. -/
theorem Numbers.mono {n n' : Numbering} {ms : List SymbolId} (h : p.Numbers n ms n')
    (hwrites : ∀ {m w n}, p.Writes m w (w.typed n) → ∃ w', p'.Writes m w' (w'.typed n) ∧ w'.name = w.name ∧
      w'.initializer = w.initializer) : p'.Numbers n ms n' := by
  induction h with
  | nil n => exact .nil n
  | @cons n n' m ms w hm _ ih =>
    obtain ⟨w', hm', hname, hinitializer⟩ := hwrites hm
    refine .cons hm' ?_
    rwa [hname, WrittenMember.counted, hinitializer]

/-- One more member is numbered on from where the numbering stands. -/
theorem Numbers.snoc {n n' : Numbering} {ms : List SymbolId} (h : p.Numbers n ms n') {w : WrittenMember}
    (hm : p.Writes m w (w.typed n')) : p.Numbers n (ms ++ [m]) (n'.assign w.name w.counted).2 := by
  induction h with
  | nil n => exact .cons hm (.nil _)
  | cons hm' _ ih => exact .cons hm' (ih hm)

end Program

/-- A declaration more makes no other member. -/
theorem Program.Retains.declared {p : Program} {m : SymbolId} {n : NodeId} {symbol : SymbolData}
    (hsymbol : p.symbols.get? m.index = some symbol) (isValue : Bool) : p.Retains (p.declared m n isValue) where
  symbol := by
    refine (Retains.modifySymbol hsymbol ?_).symbol
    exact ⟨rfl, ⟨[], (List.append_nil _).symm, by simp⟩, fun _ => SymbolData.continues_withDeclaration ..⟩
  node {i data} hi := by
    obtain ⟨data', hdata', rfl | rfl⟩ := Arena.exists_get?_modify hi n.index fun data => { data with symbol := some m }
    · exact ⟨_, hdata', .refl _⟩
    · exact ⟨_, hdata', rfl, rfl⟩
  type hi := ⟨_, hi, .refl _⟩

/-- **An edit that is not free leaves the members of enums as they are.** -/
theorem Edit.retains {d d' : Draft} (h : Edit False d d') (hoffers : d.builder.program.outline.Offers d.stock)
    (hplain : ∀ m ∈ d.stock.symbols, d.builder.program.isEnumMember m = false) :
    d.builder.program.Retains d'.builder.program := by
  cases h with
  | spend => exact .of_symbols rfl (fun hi => ⟨_, hi, .refl _⟩) fun hi => ⟨_, hi, .refl _⟩
  | aside hsymbols htypes hnodes =>
    exact .of_symbols hsymbols (fun hi => ⟨_, hnodes ▸ hi, .refl _⟩) fun hi => ⟨_, htypes ▸ hi, .refl _⟩
  | number hfree => exact hfree.elim
  | file => exact .of_symbols rfl (fun hi => ⟨_, hi, .refl _⟩) fun hi => ⟨_, hi, .refl _⟩
  | @newFile k b node symbol isValue m n data hm hn hsymbol =>
    have hretains := Program.Retains.declared (n := n) hsymbol isValue
    exact ⟨hretains.symbol, hretains.node, hretains.type⟩
  | @newSymbol k b name flags hflags =>
    -- where the symbol is put there was none, and the flags of no member of an enum are given to it
    refine ⟨fun m => ?_, fun hi => ⟨_, hi, .refl _⟩, fun hi => ⟨_, hi, .refl _⟩⟩
    have hpush := b.program.symbolData_push { name, flags := .of flags } m
    show SymbolData.Retained _ _ (Program.symbolData { b.program with symbols := _ } m)
    rw [hpush]
    split
    · next heq =>
      rw [Program.symbolData_of_size_le (Nat.le_of_eq heq.symm)]
      refine ⟨SymbolFlag.has_foldl_add_of_notMem (hflags id), ⟨[], rfl, by simp⟩, fun hmember => ?_⟩
      exact absurd hmember (by decide)
    · exact .refl _
  | @newType k b data =>
    exact .of_symbols rfl (fun hi => ⟨_, hi, .refl _⟩) fun hi => ⟨_, Arena.get?_push_of_eq_some hi data, .refl _⟩
  | @newNode k b data =>
    exact .of_symbols rfl (fun hi => ⟨_, Arena.get?_push_of_eq_some hi data, .refl _⟩) fun hi => ⟨_, hi, .refl _⟩
  | symbol hm houtline hrole =>
    refine .modifySymbol hm ⟨(hrole _).flags (by decide), ⟨[], ?_, by simp⟩, fun _ => (hrole _).continues⟩
    rw [List.append_nil]
    exact congrArg SymbolOutline.exportsOf (houtline _)
  | @loose k b data m change hm hdata houtline _ hflags =>
    -- a symbol at hand is no member of an enum, and while it has no parent its outline stays
    have hflag : data.flags.has .enumMember = false := Program.symbolData_eq hdata ▸ hplain m hm
    have hparent : data.parent = none := by
      have hloose := (hoffers.loose hm).parent
      rwa [Program.outline_symbol hdata] at hloose
    refine .modifySymbol hdata ⟨?_, ⟨[], ?_, by simp⟩, fun hmember => ?_⟩
    · rw [hflag, hflags id _ hflag]
    · rw [List.append_nil]
      exact congrArg SymbolOutline.exportsOf (houtline _ hparent)
    · rw [hflag] at hmember
      cases hmember
  | @type k b t change h =>
    refine .of_symbols rfl (fun hi => ⟨_, hi, .refl _⟩) fun hi => ?_
    obtain ⟨data', hdata', rfl | rfl⟩ := Arena.exists_get?_modify hi t.index change
    · exact ⟨_, hdata', .refl _⟩
    · exact ⟨_, hdata', h id _⟩
  | @node k b data n change hn hsymbol h =>
    refine .of_symbols rfl (fun hi => ?_) fun hi => ⟨_, hi, .refl _⟩
    obtain ⟨data', hdata', rfl | rfl⟩ := Arena.exists_get?_modify hi n.index change
    · exact ⟨_, hdata', .refl _⟩
    · exact ⟨_, hdata', h id _⟩
  | declare _ hsymbol => exact .declared hsymbol _
  | @place k b b' m owner hm h =>
    refine ⟨fun m' => ?_, fun hi => ⟨_, by rw [h.nodes]; exact hi, .refl _⟩,
      fun hi => ⟨_, by rw [h.types]; exact hi, .refl _⟩⟩
    have hlist := h.mayList m'
    refine ⟨hlist.1.flags (by decide), ?_, fun _ => hlist.1.continues⟩
    -- the owner lists one symbol more at most, and that one is no member of an enum
    rcases hlist.2 with hsame | hlisted
    · exact ⟨[], by rw [List.append_nil]; exact hsame, by simp⟩
    · exact ⟨[m], hlisted, by simpa using hplain m hm⟩

/-- A symbol is at hand from when it is made. -/
theorem Edit.mem_stock {free : Prop} {d d' : Draft} (h : Edit free d d') {m : SymbolId} (hm : m ∈ d'.stock.symbols) :
    m ∈ d.stock.symbols ∨ m.index = d.builder.program.symbols.size := by
  cases h with
  | spend hsymbols => exact .inl (hsymbols hm)
  | newFile | place => exact nomatch hm
  | newSymbol =>
    rcases List.mem_cons.1 hm with rfl | hm
    · exact .inr rfl
    · exact .inl hm
  | aside | number | file | newType | newNode | symbol | loose | type | node | declare => exact .inl hm

theorem Edit.numberings_eq {d d' : Draft} (h : Edit False d d') : d'.builder.numberings = d.builder.numberings := by
  cases h with
  | aside _ _ _ _ hnumberings | place _ _ hnumberings => exact hnumberings
  | number hfree => exact hfree.elim
  | spend | file | newFile | newSymbol | newType | newNode | symbol | loose | type | node | declare => rfl

theorem Edit.numbered {d d' : Draft} (h : Edit False d d') (hoffers : d.builder.program.outline.Offers d.stock)
    (hd : d.Numbered) : d'.Numbered := by
  have hretains := h.retains hoffers fun m hm => hd.plain hm
  refine ⟨fun {m} hm => ?_, fun {m} hm => ?_, fun owner => ?_⟩
  · rw [hretains.isEnumMember]
    rcases h.mem_stock hm with hm | hm
    · exact hd.plain hm
    · rw [Program.isEnumMember, Program.symbolData_of_size_le (Nat.le_of_eq hm.symm)]
      decide
  · rw [hretains.isEnumMember] at hm
    obtain ⟨w, value, hwrites⟩ := hd.written hm
    exact ⟨w, value, hretains.writes hwrites⟩
  · rw [hretains.enumMembers, Builder.numbering, h.numberings_eq]
    exact (hd.numbers owner).mono fun hm => ⟨_, hretains.writes hm, rfl, rfl⟩

theorem Edits.numbered {d d' : Draft} (h : Edits False d d') (hoffers : d.builder.program.outline.Offers d.stock)
    (hd : d.Numbered) : d'.Numbered := by
  induction h with
  | refl => exact hd
  | tail hbefore hedit ih => exact hedit.numbered (Edits.offers hbefore hoffers) ih

end ApiDoc
