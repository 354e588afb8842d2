import ApiDoc.Proofs.Program.Making

/-!
# What declarations write

Each way to make a declaration succeeds from a sound program, with handles that are known in it, and declares symbols
with the code that it writes.  Parameters are declared without a place.
-/

namespace ApiDoc

/-- A symbol whose value is declared by a parameter in a file, from some node on. -/
def Builder.HasParameter (b : Builder) (file : FileId) (start : Nat) (m : SymbolId) : Prop :=
  ∃ data n node, b.program.symbols.get? m.index = some data ∧ data.valueDeclaration = some n ∧
    b.program.nodes.get? n.index = some node ∧ node.kind = .parameter ∧ node.file = file ∧ start ≤ n.index

theorem Builder.HasParameter.mono {b b' : Builder} {file : FileId} {start start' : Nat} {m : SymbolId}
    (h : b.HasParameter file start m) (hstays : b.program.StaysIn b'.program) (hstart : start' ≤ start) :
    b'.HasParameter file start' m := by
  obtain ⟨data, n, node, hdata, hn, hnode, hkind, hfile, hle⟩ := h
  obtain ⟨data', hdata', hn'⟩ := hstays.value hdata hn
  obtain ⟨node', hnode', hkind', hfile', -⟩ := hstays.node hnode
  exact ⟨data', n, node', hdata', hn', hnode', hkind'.trans hkind, hfile'.trans hfile, Nat.le_trans hstart hle⟩

/-- A variable as it is written, without keyword and semicolon. -/
def variableCode (name : String) (initializer : Option String) : String := name ++ initializer.elim "" (" = " ++ ·)

/-- A function or method as it is written, with a body or without. -/
def methodCode (name : String) (spec : SignatureSpec) (hasBody : Bool) : String :=
  name ++ spec.code ++ if hasBody then " \x7b\x7d" else ";"

/-- A container as it is written. -/
def containerCode (keyword name : String) : String := keyword ++ " " ++ name ++ " \x7b\x7d"

/-- A property as it is written. -/
def propertyCode (name : String) : String := name ++ ": T;"

/-- A getter as it is written, and a setter behind it. -/
def accessorCodes (name : String) (hasSetter : Bool) : List String :=
  ("get " ++ name ++ "() \x7b\x7d") :: if hasSetter then ["set " ++ name ++ "(value) \x7b\x7d"] else []

/-- An alias of a type as it is written. -/
def aliasCode (name : String) : String := "type " ++ name ++ " = T;"

/-- The types of parameters and receiver are there. -/
structure SignatureSpec.IsKnown (b : Builder) (spec : SignatureSpec) : Prop where
  params : ∀ p ∈ spec.params, b.program.domain.type p.type
  thisType : ∀ t ∈ spec.thisType, b.program.domain.type t

theorem SignatureSpec.IsKnown.mono {b b' : Builder} {spec : SignatureSpec} (h : spec.IsKnown b)
    (hstays : b.program.StaysIn b'.program) : spec.IsKnown b' :=
  ⟨fun p hp => hstays.type (h.params p hp), fun t ht => hstays.type (h.thisType t ht)⟩

namespace Build

variable {b b₀ : Builder} {m owner : SymbolId} {t : TypeId} {n : NodeId} {file : FileId} {scope : Scope} {place : Place}
  {spec : SignatureSpec} {kind : SyntaxKind} {code : String}

/-! ### Signatures -/

theorem makes_typeSymbol (hb : b.Sound) (hm : b.program.domain.symbol m) (ht : b.program.domain.type t) :
    Makes b (modifySymbol m fun s => { s with type := some t }) fun _ b' => b.Extends b' [] ∧
      ∀ data, b.program.symbols.get? m.index = some data →
        b'.program.symbols.get? m.index = some { data with type := some t } := by
  refine makes_modifySymbol hb hm (fun data hdata => ?_) fun _ => rfl
  refine ⟨hdata.declarations, hdata.parent, fun t' ht' => ?_, hdata.declaredType⟩
  obtain rfl := Option.some.inj ht'
  exact ht

/-- A symbol of a signature is declared at a node without a place. -/
theorem makes_parameter (hb : b.Sound) (hfile : b.program.domain.file file) {data : NodeData}
    (hframe : data.frame = ⟨.parameter, file, {}, none, none⟩) (name : String) (flags : List SymbolFlag)
    (ht : b.program.domain.type t) :
    Makes b (do
      let node ← addNode data
      let symbol ← addSymbol name flags
      modifySymbol symbol fun s => { s with type := some t }
      declare symbol node
      return symbol) fun m b' => b.Extends b' [] ∧ b'.HasParameter file b.program.nodes.size m := by
  -- the empty place at the front of the file
  have hfits : b.program.frames.Fits b.program.nodes.size data.frame := by
    obtain ⟨fileData, hdata⟩ := Program.exists_get? hfile
    rw [hframe]
    refine ⟨⟨[], fileData.text.toList, ?_, .empty _⟩, (fun _ h => nomatch h), fun _ => rfl⟩
    rw [Program.frames_texts, hdata]
    rfl
  refine (makes_addNode hb hfits (congrArg NodeFrame.symbol hframe)).bind fun n b₁ ⟨h₁, hn, hnode₁⟩ => ?_
  refine (makes_addSymbol h₁.sound name flags).bind fun m b₂ ⟨h₂, hm, hsymbol₂⟩ => ?_
  refine (makes_typeSymbol h₂.sound hm ((h₁.trans h₂).stays.type ht)).bind fun _ b₃ ⟨h₃, hsymbol₃⟩ => ?_
  obtain ⟨node, hnode, hsame⟩ := (h₂.trans h₃).program.node hnode₁
  rw [hframe] at hsame
  have hkind : node.kind = .parameter := congrArg NodeFrame.kind hsame
  have hnone : node.symbol = none := congrArg NodeFrame.symbol hsame
  refine (makes_declared (h₃.stays.symbol hm) hnode).bind fun _ b₄ hb₄ => ?_
  subst hb₄
  have hgrown : b.Extends b₃ [] := (h₁.trans h₂).trans h₃
  refine .pure ⟨⟨hgrown.program.declared hnode hnone _ ?_, hgrown.intrinsics⟩, ?_⟩
  · have hfits := h₃.program.frames.sound _ _ (Program.frames_node hnode)
    have hsame : b₃.program.frames.Fits n.index { node.frame with symbol := some m } :=
      ⟨hfits.marks, hfits.around, hfits.front⟩
    refine hgrown.program.frames.change ?_ (Program.frames_node hnode) hsame rfl ?_
    · rw [Program.length_frames, hn]
    · simp [NodeFrame.isDeclaration, NodeData.frame, hkind, SyntaxKind.placeless]
  · have hdata : (b₃.program.declared m n !valueless.contains node.kind).symbols.get? m.index =
        some (SymbolData.withDeclaration n true { name, flags := .of flags, type := some t }) := by
      show (b₃.program.symbols.modify m.index _).get? m.index = _
      rw [Arena.get?_modify, if_pos rfl, hsymbol₃ _ hsymbol₂, hkind]
      rfl
    exact ⟨_, n, _, hdata, rfl, Program.node_declared m hnode _, hkind, congrArg NodeFrame.file hsame,
      Nat.le_of_eq hn.symm⟩

theorem makes_signature (hb : b.Sound) (hfile : b.program.domain.file file) (hspec : spec.IsKnown b) :
    Makes b (signature file spec) fun sig b' => b.Extends b' [] ∧ b'.program.domain.signature sig ∧
      ∃ data, b'.program.signatures.get? sig.index = some data ∧
        ∀ m ∈ data.parameters, b'.HasParameter file b.program.nodes.size m := by
  unfold signature
  have hparams : Makes b (spec.params.mapM (addParameter file)) fun ms b' =>
      b.Extends b' [] ∧ ∀ m ∈ ms, b'.HasParameter file b.program.nodes.size m := by
    refine .mapM hb (fun _ _ _ h hm => hm.mono h.stays (Nat.le_refl _)) fun p hp b' h => ?_
    have ht := h.stays.type (hspec.params p hp)
    refine (makes_parameter h.sound (h.stays.file hfile) rfl p.name _ ht).mono fun m b'' hm => ?_
    exact ⟨hm.1, hm.2.mono (.refl _) h.program.size_le⟩
  refine hparams.bind fun parameters b₁ ⟨h₁, hparameters⟩ => ?_
  have hreceiver : Makes b₁ (spec.thisType.mapM (addReceiver file)) fun _ b' => b₁.Extends b' [] := by
    cases hthis : spec.thisType with
    | none => exact .pure (.refl h₁.sound)
    | some type =>
      have ht := h₁.stays.type (hspec.thisType type hthis)
      exact (makes_parameter h₁.sound (h₁.stays.file hfile) rfl "this" _ ht).bind fun _ _ hm => .pure hm.1
  refine hreceiver.bind fun receiver b₂ h₂ => ?_
  refine (makes_addSignature h₂.sound _).mono fun sig b₃ ⟨h₃, hsig, hdata⟩ => ?_
  refine ⟨(h₁.trans h₂).trans h₃, hsig, _, hdata, fun m hm => ?_⟩
  exact (hparameters m hm).mono (h₂.trans h₃).stays (Nat.le_refl _)

/-- A new parameter is told which declaration it is of. -/
theorem makes_modifyParent (hn : b₀.Pending b n file code) {b' : Builder} (h : b.Extends b' []) {decl : NodeId}
    {node : NodeData} (hnode : b'.program.nodes.get? decl.index = some node) (hkind : node.kind = .parameter)
    (hfile : node.file = file) (hnew : b.program.nodes.size ≤ decl.index) :
    Makes b' (modifyNode decl fun data => { data with parent := some n }) fun _ b'' =>
      b.Extends b'' [] ∧ b'.program.StaysIn b''.program := by
  obtain ⟨outer, houter, -, -, rfl, -⟩ := hn.node
  obtain ⟨outer', houter', hframe⟩ := h.program.node houter
  have hknown : b'.program.domain.node decl := Arena.lt_size hnode
  refine (makes_change ((Program.meets_node hknown).mono fun _ _ _ => trivial)).mono fun _ b'' hb'' => ?_
  subst hb''
  have hplaceless : node.kind ∈ SyntaxKind.placeless := by
    rw [hkind]
    decide
  refine ⟨⟨?_, h.intrinsics⟩, Program.staysIn_modifyParent decl n⟩
  exact h.program.modifyParent hnew hnode hplaceless (Nat.lt_of_lt_of_le (Arena.lt_size houter) hnew) houter'
    ((congrArg NodeFrame.file hframe).trans hfile.symm)

theorem makes_signatureDeclaration (hb : b.Sound) (hplace : place.IsGood b) (hkind : kind ∉ SyntaxKind.placeless)
    (hspec : spec.IsKnown b) (doc code : String) (hasBody : Bool) (name : Option String) :
    Makes b (signatureDeclaration place kind doc code spec hasBody name) fun n b' =>
      b.Pending b' n place.file code := by
  unfold signatureDeclaration
  refine (makes_writeDeclaration hb hplace hkind doc code name).bind fun n b₁ hn => ?_
  have h₁ := hn.grown
  refine (makes_signature h₁.sound (h₁.stays.file hplace.file) (hspec.mono h₁.stays)).bind
    fun sig b₂ ⟨h₂, hsig, data, hdata, hparameters⟩ => ?_
  refine (makes_modifySignature h₂.sound hsig _).bind fun _ b₃ ⟨h₃, hdata₃⟩ => ?_
  refine .look (Program.meets_signature (h₃.stays.signature hsig)) fun data' hdata' => ?_
  obtain rfl := Option.some.inj ((hdata₃ _ hdata).symm.trans hdata')
  -- the parameters that are still to be told are parameters
  let Left (ms : List SymbolId) (b' : Builder) : Prop :=
    b₁.Extends b' [] ∧ ∀ m ∈ ms, b'.HasParameter place.file b₁.program.nodes.size m
  have hleft : Left data.parameters b₃ :=
    ⟨h₂.trans h₃, fun m hm => (hparameters m hm).mono h₃.stays (Nat.le_refl _)⟩
  refine Makes.bind (Makes.forIn hleft fun m ms b' ⟨h, hms⟩ => ?_) fun _ b₄ ⟨h₄, _⟩ => ?_
  · obtain ⟨mdata, decl, node, hmdata, hdecl, hnode, hkind, hfile, hnew⟩ := hms m (List.mem_cons_self ..)
    refine .look (Program.meets_symbol (Arena.lt_size hmdata)) fun mdata' hmdata' => ?_
    obtain rfl := Option.some.inj (hmdata.symm.trans hmdata')
    rw [hdecl]
    refine (makes_modifyParent hn h hnode hkind hfile hnew).bind fun _ b'' ⟨h', hstays⟩ => .pure ⟨rfl, h', ?_⟩
    exact fun m' hm' => (hms m' (List.mem_cons_of_mem _ hm')).mono hstays (Nat.le_refl _)
  · obtain ⟨node, hnode, -⟩ := (hn.mono h₄).node
    refine (makes_modifyNode h₄.sound (Arena.lt_size hnode) fun _ => by rfl).bind fun _ b₅ h₅ => ?_
    exact .pure (hn.mono (h₄.trans h₅))

/-! ### Variables -/

/-- A statement with its list of variables, and the place in it for what is declared. -/
theorem makes_variableStatement (hb : b.Sound) (hscope : scope.IsKnown b) (doc keyword declaration : String) :
    Makes b (variableStatement scope doc keyword declaration) fun r b' => b.Extends b' [] ∧
      ∃ node, b'.program.nodes.get? r.1.index = some node ∧
        b'.program.frames.Marks node.file ⟨r.2.1, r.2.1, r.2.2⟩ declaration.toList := by
  unfold variableStatement
  refine (reads_placeOf hb hscope).bind fun place hplace => ?_
  refine (makes_pushText hb hplace.file doc _).bind fun span b₁ ⟨h₁, hstatement⟩ => ?_
  have hstop : span.stop = span.start + (keyword.utf8ByteSize + 1 + (declaration.utf8ByteSize + 1)) := by
    rw [hstatement.stop, Text.byteLength_toList]
    simp only [String.utf8ByteSize_append, Nat.add_assoc]
    rfl
  -- the list is the statement without its semicolon, and the declaration is the list without its keyword
  have hlist : b₁.program.frames.Marks place.file ⟨span.start, span.start, span.stop - 1⟩
      (keyword ++ " " ++ declaration).toList := by
    have hsplit : (keyword ++ " " ++ declaration ++ ";").toList =
        [] ++ ((keyword ++ " " ++ declaration).toList ++ [';']) := by simp
    rw [hsplit] at hstatement
    refine hstatement.inner rfl ?_
    rw [hstop, Text.byteLength_toList, String.utf8ByteSize_append, String.utf8ByteSize_append]
    show _ = span.start + (keyword.utf8ByteSize + 1 + declaration.utf8ByteSize)
    omega
  have hdeclaration : b₁.program.frames.Marks place.file ⟨span.start + keyword.utf8ByteSize + 1,
      span.start + keyword.utf8ByteSize + 1, span.stop - 1⟩ declaration.toList := by
    have hsplit : (keyword ++ " " ++ declaration ++ ";").toList =
        (keyword ++ " ").toList ++ (declaration.toList ++ [';']) := by simp
    rw [hsplit] at hstatement
    refine hstatement.inner ?_ ?_
    · rw [Text.byteLength_toList, String.utf8ByteSize_append, Nat.add_assoc]
      rfl
    · rw [hstop, Text.byteLength_toList]
      omega
  refine (makes_addPending (.refl h₁.sound) (hplace.mono h₁.stays) (by simp [SyntaxKind.placeless])
    (by exact hstatement) (by rfl) (by rfl) (by rfl)).bind fun statement b₂ hn₂ => ?_
  have hlist₂ := hn₂.grown.program.frames.marks hlist
  refine (makes_addPending (.refl hn₂.grown.sound) hn₂.isGood (by simp [SyntaxKind.placeless]) (by exact hlist₂)
    (by rfl) (by rfl) (by rfl)).bind fun list b₃ hn₃ => .pure ⟨(h₁.trans hn₂.grown).trans hn₃.grown, ?_⟩
  obtain ⟨node, hnode, -, -, hfile, -⟩ := hn₃.node
  rw [← hfile] at hdeclaration
  exact ⟨node, hnode, (hn₂.grown.trans hn₃.grown).program.frames.marks hdeclaration⟩

/-- The end of a declaration whose symbol has a type. -/
theorem makes_typedDeclaration (hn : b₀.Pending b n file code) (hscope : scope.IsKnown b₀)
    (ht : b₀.program.domain.type t) (name : String) (flags : List SymbolFlag) :
    Makes b (do
      let symbol ← addSymbol name flags
      modifySymbol symbol fun s => { s with type := some t }
      declare symbol n
      attach scope symbol
      return symbol) fun m b' => b₀.Extends b' [(m, code)] ∧ b'.Hosts m := by
  refine (makes_addSymbol hn.grown.sound name flags).bind fun m b₁ ⟨h₁, hm, _⟩ => ?_
  have hn₁ := hn.mono h₁
  refine (makes_typeSymbol h₁.sound hm (hn₁.grown.stays.type ht)).bind fun _ b₂ ⟨h₂, _⟩ => ?_
  have hn₂ := hn₁.mono h₂
  exact makes_declareListed hn₂ hscope (h₂.stays.symbol hm)

theorem makes_addVariable (hb : b.Sound) (hscope : scope.IsKnown b) (ht : b.program.domain.type t)
    (doc keyword name : String) (initializer : Option String) :
    Makes b (addVariable scope doc keyword name t initializer) fun m b' =>
      b.Extends b' [(m, variableCode name initializer)] ∧ b'.Hosts m := by
  unfold addVariable
  refine (makes_variableStatement hb hscope doc keyword _).bind
    fun ⟨list, start, stop⟩ b₁ ⟨h₁, node, hnode, hmarks⟩ => ?_
  refine .look (Program.meets_node (Arena.lt_size hnode)) fun node' hnode' => ?_
  obtain rfl := Option.some.inj (hnode.symm.trans hnode')
  refine (makes_addPending h₁ (h₁.sound.isGood hnode) (by simp [SyntaxKind.placeless]) (by exact hmarks) (by rfl)
    (by rfl) (by rfl)).bind fun n b₂ hn => ?_
  cases initializer <;> exact makes_typedDeclaration hn hscope ht name _

/-- The names of a pattern, at the places where they are written. -/
theorem makes_bindingElements (hb : b.Sound) (hscope : scope.IsKnown b)
    (hpattern : ∃ node, b.program.nodes.get? n.index = some node ∧ node.file = file) {offset : Nat}
    {bindings : List (String × TypeId)}
    (hmarks : b.program.frames.MarksNames file offset (bindings.map Prod.fst))
    (htypes : ∀ binding ∈ bindings, b.program.domain.type binding.2) :
    Makes b (bindingElements scope file n offset bindings) fun ms b' =>
      b.Extends b' (ms.zip (bindings.map Prod.fst)) ∧ ms.length = bindings.length ∧ ∀ m ∈ ms, b'.Hosts m := by
  induction bindings generalizing b offset with
  | nil => exact .pure ⟨.refl hb, rfl, fun _ h => nomatch h⟩
  | cons binding rest ih =>
    obtain ⟨name, t⟩ := binding
    obtain ⟨node, hnode, rfl⟩ := hpattern
    unfold bindingElements
    refine (makes_addPending (.refl hb) (hb.isGood hnode) (by simp [SyntaxKind.placeless]) (by exact hmarks.1) (by rfl)
      (by rfl) (by rfl)).bind fun element b₁ hn => ?_
    have ht : b.program.domain.type t := htypes (name, t) (List.mem_cons_self ..)
    have hall := (makes_typedDeclaration hn hscope ht name [.blockScopedVariable]).bind fun m b₂ hmade => by
      obtain ⟨h₂, hm⟩ := hmade
      obtain ⟨node', hnode', -, hfile', -⟩ := h₂.stays.node hnode
      have hrest := ih h₂.sound (hscope.mono h₂.stays) ⟨node', hnode', hfile'⟩ (hmarks.2.mono h₂.program.frames.texts)
        fun binding hbinding => h₂.stays.type (htypes binding (List.mem_cons_of_mem _ hbinding))
      refine hrest.bind fun ms b₃ hmade => .pure (a := m :: ms) (P := fun ms b' =>
        b.Extends b' (ms.zip (((name, t) :: rest).map Prod.fst)) ∧
          ms.length = ((name, t) :: rest).length ∧ ∀ m ∈ ms, b'.Hosts m) ?_
      obtain ⟨h₃, hlength, hms⟩ := hmade
      exact ⟨h₂.trans h₃, congrArg (· + 1) hlength, List.forall_mem_cons.2 ⟨hm.mono h₃.stays, hms⟩⟩
    simpa only [bind_assoc, pure_bind] using hall

theorem makes_destructuredConst (hb : b.Sound) (hscope : scope.IsKnown b) (doc : String)
    {bindings : List (String × TypeId)} (htypes : ∀ binding ∈ bindings, b.program.domain.type binding.2)
    (initializer : String) :
    Makes b (destructuredConst scope doc bindings initializer) fun ms b' =>
      b.Extends b' (ms.zip (bindings.map Prod.fst)) ∧ ms.length = bindings.length ∧ ∀ m ∈ ms, b'.Hosts m := by
  unfold destructuredConst
  refine (makes_variableStatement hb hscope doc "const" _).bind
    fun ⟨list, start, stop⟩ b₁ ⟨h₁, node, hnode, hmarks⟩ => ?_
  refine .look (Program.meets_node (Arena.lt_size hnode)) fun node' hnode' => ?_
  obtain rfl := Option.some.inj (hnode.symm.trans hnode')
  refine (makes_addPending (.refl h₁.sound) (h₁.sound.isGood hnode) (by simp [SyntaxKind.placeless]) (by exact hmarks)
    (by rfl) (by rfl) (by rfl)).bind fun declaration b₂ hn₂ => ?_
  have hmarks₂ := hn₂.grown.program.frames.marks hmarks
  refine (makes_addPending (.refl hn₂.grown.sound) hn₂.isGood (by simp [SyntaxKind.placeless]) (by exact hmarks₂)
    (by rfl) (by rfl) (by rfl)).bind fun pattern b₃ hn₃ => ?_
  have hmarks₃ := hn₃.grown.program.frames.marks hmarks₂
  have h₃ : b.Extends b₃ [] := (h₁.trans hn₂.grown).trans hn₃.grown
  obtain ⟨outer, houter, -, -, hfile, -⟩ := hn₃.node
  have hnames : b₃.program.frames.MarksNames node.file (start + 2) (bindings.map Prod.fst) := by
    simp only [String.toList_append, List.append_assoc] at hmarks₃
    exact hmarks₃.names rfl
  refine (makes_bindingElements h₃.sound (hscope.mono h₃.stays) ⟨outer, houter, hfile⟩ hnames
    fun binding hbinding => h₃.stays.type (htypes binding hbinding)).mono fun ms b' h => ?_
  exact ⟨h₃.trans h.1, h.2⟩

/-! ### Functions, classes and their members -/

/-- One more declaration with a signature. -/
theorem makes_declareSignature (hb : b.Sound) (hplace : place.IsGood b) (hkind : kind ∉ SyntaxKind.placeless)
    (hspec : spec.IsKnown b) (hm : b.program.domain.symbol m) (doc code : String) (hasBody : Bool)
    (name : Option String) :
    Makes b (do
      let node ← signatureDeclaration place kind doc code spec hasBody name
      declare m node
      return ForInStep.yield ()) fun r b' => r = .yield () ∧ b.Extends b' [(m, code)] := by
  refine (makes_signatureDeclaration hb hplace hkind hspec doc code hasBody name).bind fun n b₁ hn => ?_
  exact (makes_declare hn (hn.grown.stays.symbol hm)).bind fun _ b₂ h => .pure ⟨rfl, h.1⟩

theorem makes_overloadedFunction (hb : b.Sound) (hscope : scope.IsKnown b) (name : String)
    {declarations : List (String × SignatureSpec × Bool)} (hspecs : ∀ d ∈ declarations, d.2.1.IsKnown b) :
    Makes b (overloadedFunction scope name declarations) fun m b' =>
      b.Extends b' (declarations.map fun d => (m, methodCode ("function " ++ name) d.2.1 d.2.2)) ∧ b'.Hosts m := by
  unfold overloadedFunction
  refine (reads_placeOf hb hscope).bind fun place hplace => ?_
  refine (makes_addSymbol hb name _).bind fun m b₁ ⟨h₁, hm, _⟩ => ?_
  refine Makes.bind (Makes.forExtends (fun d => [(m, methodCode ("function " ++ name) d.2.1 d.2.2)]) h₁.sound
    fun d hd b' hstays hb' => ?_) fun _ b₂ h₂ => ?_
  · exact makes_declareSignature hb' ((hplace.mono h₁.stays).mono hstays) (by decide)
      (((hspecs d hd).mono h₁.stays).mono hstays) (hstays.symbol hm) _ _ _ _
  · rw [← List.map_eq_flatMap] at h₂
    exact makes_listed (h₁.trans h₂) hscope (h₂.stays.symbol hm)

/-- The end of a declaration whose symbol declares a new type. -/
theorem makes_typeDeclaration (hn : b₀.Pending b n file code) (hscope : scope.IsKnown b₀) (name : String)
    (flags : List SymbolFlag) {data : SymbolId → TypeData} (hdata : ∀ m, (data m).symbol = some m) :
    Makes b (do
      let symbol ← addSymbol name flags
      let declared ← addType (data symbol)
      modifySymbol symbol fun s => { s with declaredType := some declared, type := some declared }
      declare symbol n
      attach scope symbol
      return symbol) fun m b' => b₀.Extends b' [(m, code)] ∧ b'.Hosts m := by
  refine (makes_addSymbol hn.grown.sound name flags).bind fun m b₁ ⟨h₁, hm, _⟩ => ?_
  refine (makes_addTypeOf h₁.sound hm (hdata m)).bind fun t b₂ ⟨h₂, ht⟩ => ?_
  refine (makes_modifySymbol h₂.sound (h₂.stays.symbol hm) (fun data hdata => ?_) fun _ => by rfl).bind
    fun _ b₃ ⟨h₃, _⟩ => ?_
  · have hknown : ∀ t' ∈ some t, b₂.program.domain.type t' := by
      intro t' ht'
      obtain rfl := Option.some.inj ht'
      exact ht
    exact ⟨hdata.declarations, hdata.parent, hknown, hknown⟩
  · have hn₃ := ((hn.mono h₁).mono h₂).mono h₃
    exact makes_declareListed hn₃ hscope (h₃.stays.symbol (h₂.stays.symbol hm))

theorem makes_classLike (hb : b.Sound) (hscope : scope.IsKnown b) (doc name : String) (isClass : Bool) :
    Makes b (classLike scope doc name isClass) fun m b' =>
      b.Extends b' [(m, containerCode (if isClass then "class" else "interface") name)] ∧ b'.Hosts m := by
  unfold classLike
  refine (reads_placeOf hb hscope).bind fun place hplace => ?_
  refine (makes_writeDeclaration hb hplace (by cases isClass <;> decide) doc _ _).bind fun n b₁ hn => ?_
  exact makes_typeDeclaration hn hscope name _ fun _ => rfl

theorem makes_addClass (hb : b.Sound) (hscope : scope.IsKnown b) (doc name : String) :
    Makes b (addClass scope doc name) fun m b' =>
      b.Extends b' [(m, containerCode "class" name)] ∧ b'.Hosts m := by
  unfold addClass
  refine (makes_classLike hb hscope doc name true).bind fun m b₁ ⟨h₁, hm⟩ => ?_
  refine (makes_addSymbol h₁.sound "prototype" _).bind fun prototype b₂ ⟨h₂, hprototype, _⟩ => ?_
  refine (makes_setParent h₂.sound hprototype (h₂.stays.symbol hm.symbol)).bind fun _ b₃ h₃ => ?_
  refine (makes_mark h₃.sound (h₃.stays.symbol (h₂.stays.symbol hm.symbol))
    fun _ => by exact ⟨rfl, rfl, rfl, rfl, rfl⟩).bind fun _ b₄ h₄ => .pure ⟨?_, hm.mono ((h₂.trans h₃).trans h₄).stays⟩
  exact h₁.trans ((h₂.trans h₃).trans h₄)

/-- Every declaration of a symbol is marked in a way that its place does not show. -/
theorem makes_markDeclarations (hb : b.Sound) {data : SymbolData} (hdata : b.program.symbols.get? m.index = some data)
    {change : NodeData → NodeData} (hchange : ∀ node, (change node).frame = node.frame) :
    Makes b (forIn data.declarations () fun n _ => do
      modifyNode n change
      return .yield ()) fun _ b' => b.Extends b' [] := by
  refine (Makes.forExtends (fun _ => []) hb fun n hn b' hstays hb' => ?_).mono fun _ b' h => ?_
  · obtain ⟨node, hnode, -⟩ := (hb.program.symbol hdata).declarations n hn
    obtain ⟨node', hnode', -⟩ := hstays.node hnode
    exact (makes_modifyNode hb' (Arena.lt_size hnode') hchange).bind fun _ _ h => .pure ⟨rfl, h⟩
  · rwa [List.flatMap_eq_nil_iff.2 fun _ _ => rfl] at h

theorem makes_setModifiers (hb : b.Sound) (hm : b.program.domain.symbol m) (modifiers : ModifierFlags) :
    Makes b (setModifiers m modifiers) fun _ b' => b.Extends b' [] := by
  unfold setModifiers
  refine .look (Program.meets_symbol hm) fun data hdata => ?_
  exact Makes.bind (makes_markDeclarations hb hdata fun _ => by rfl) fun _ _ h => .pure h

theorem makes_memberProperty (hb : b.Sound) (hscope : scope.IsKnown b) (ht : b.program.domain.type t)
    (hkind : kind ∉ SyntaxKind.placeless) (doc name : String) :
    Makes b (memberProperty scope kind doc name t) fun m b' =>
      b.Extends b' [(m, propertyCode name)] ∧ b'.Hosts m := by
  unfold memberProperty
  refine (reads_placeOf hb hscope).bind fun place hplace => ?_
  refine (makes_writeDeclaration hb hplace hkind doc _ _).bind fun n b₁ hn => ?_
  exact makes_typedDeclaration hn hscope ht name _

theorem makes_property (hb : b.Sound) (howner : b.Hosts owner) (ht : b.program.domain.type t) (doc name : String) :
    Makes b (property owner doc name t) fun m b' => b.Extends b' [(m, propertyCode name)] ∧ b'.Hosts m := by
  unfold property
  refine (reads_isInterface howner.symbol).bind fun contract _ => ?_
  have hscope : (Scope.membersOf owner).IsKnown b := howner
  exact makes_memberProperty hb hscope ht (by cases contract <;> decide) doc name

theorem makes_optionalProperty (hb : b.Sound) (howner : b.Hosts owner) (ht : b.program.domain.type t)
    (doc name : String) :
    Makes b (optionalProperty owner doc name t) fun m b' =>
      b.Extends b' [(m, propertyCode name)] ∧ b'.Hosts m := by
  unfold optionalProperty
  refine (makes_property hb howner ht doc name).bind fun m b₁ ⟨h₁, hm⟩ => ?_
  refine (makes_mark h₁.sound hm.symbol fun _ => by exact ⟨rfl, rfl, rfl, rfl, rfl⟩).bind fun _ b₂ h₂ => ?_
  refine .look (Program.meets_symbol (h₂.stays.symbol hm.symbol)) fun data hdata => ?_
  refine Makes.bind (makes_markDeclarations h₂.sound hdata fun _ => by rfl) fun _ b₃ h₃ => ?_
  exact .pure ⟨h₁.trans (h₂.trans h₃), hm.mono (h₂.trans h₃).stays⟩

theorem makes_staticProperty (hb : b.Sound) (howner : b.Hosts owner) (ht : b.program.domain.type t)
    (doc name : String) :
    Makes b (staticProperty owner doc name t) fun m b' =>
      b.Extends b' [(m, propertyCode name)] ∧ b'.Hosts m := by
  unfold staticProperty
  have hscope : (Scope.exportsOf owner).IsKnown b := howner
  refine (makes_memberProperty hb hscope ht (by decide) doc name).bind fun m b₁ ⟨h₁, hm⟩ => ?_
  refine (makes_setModifiers h₁.sound hm.symbol _).bind fun _ b₂ h₂ => .pure ⟨h₁.trans h₂, hm.mono h₂.stays⟩

theorem makes_overloadedMethod (hb : b.Sound) (howner : b.Hosts owner) (name : String)
    {declarations : List (String × SignatureSpec)} (hspecs : ∀ d ∈ declarations, d.2.IsKnown b) :
    Makes b (overloadedMethod owner name declarations) fun m b' =>
      b.Extends b' (declarations.zipIdx.map fun d => (m, methodCode name d.1.2
        (!b.program.isContract owner && d.2 + 1 == declarations.length))) ∧ b'.Hosts m := by
  unfold overloadedMethod
  refine (reads_isInterface howner.symbol).bind fun contract hcontract => ?_
  subst hcontract
  have hscope : (Scope.membersOf owner).IsKnown b := howner
  refine (reads_placeOf hb hscope).bind fun place hplace => ?_
  refine (makes_addSymbol hb name _).bind fun m b₁ ⟨h₁, hm, _⟩ => ?_
  refine Makes.bind (Makes.forExtends (fun d => [(m, methodCode name d.1.2
    (!b.program.isContract owner && d.2 + 1 == declarations.length))]) h₁.sound
    fun d hd b' hstays hb' => ?_) fun _ b₂ h₂ => ?_
  · have hspec := hspecs d.1 (List.fst_mem_of_mem_zipIdx hd)
    exact makes_declareSignature hb' ((hplace.mono h₁.stays).mono hstays) (by split <;> decide)
      ((hspec.mono h₁.stays).mono hstays) (hstays.symbol hm) _ _ _ _
  · rw [← List.map_eq_flatMap] at h₂
    exact makes_listed (h₁.trans h₂) hscope (h₂.stays.symbol hm)

theorem makes_signatureMember (hb : b.Sound) (howner : b.Hosts owner) (hkind : kind ∉ SyntaxKind.placeless)
    (hspec : spec.IsKnown b) (flag : SymbolFlag) (name doc code : String) :
    Makes b (signatureMember owner flag name kind doc code spec) fun m b' =>
      b.Extends b' [(m, code)] ∧ b'.Hosts m := by
  unfold signatureMember
  refine (reads_isInterface howner.symbol).bind fun contract _ => ?_
  have hscope : (Scope.membersOf owner).IsKnown b := howner
  refine (reads_placeOf hb hscope).bind fun place hplace => ?_
  refine (makes_signatureDeclaration hb hplace hkind hspec doc code _ _).bind fun n b₁ hn => ?_
  refine (makes_addSymbol hn.grown.sound name _).bind fun m b₂ ⟨h₂, hm, _⟩ => ?_
  have hn₂ := hn.mono h₂
  exact makes_declareListed hn₂ hscope hm

theorem makes_accessor (hb : b.Sound) (howner : b.Hosts owner) (ht : b.program.domain.type t) (name getterDoc : String)
    (setterDoc : Option String) :
    Makes b (accessor owner name t getterDoc setterDoc) fun m b' =>
      b.Extends b' ((accessorCodes name setterDoc.isSome).map fun code => (m, code)) ∧ b'.Hosts m := by
  unfold accessor
  have hscope : (Scope.membersOf owner).IsKnown b := howner
  refine (reads_placeOf hb hscope).bind fun place hplace => ?_
  refine (makes_addSymbol hb name _).bind fun m b₁ ⟨h₁, hm, _⟩ => ?_
  refine (makes_typeSymbol h₁.sound hm (h₁.stays.type ht)).bind fun _ b₂ ⟨h₂, _⟩ => ?_
  have hplace₂ := hplace.mono (h₁.trans h₂).stays
  refine (makes_writeDeclaration h₂.sound hplace₂ (by decide) getterDoc _ _).bind fun getter b₃ hgetter => ?_
  refine (makes_declare hgetter (hgetter.grown.stays.symbol (h₂.stays.symbol hm))).bind fun _ b₄ ⟨h₄, hstays₄⟩ => ?_
  have hm₄ := hstays₄.symbol (hgetter.grown.stays.symbol (h₂.stays.symbol hm))
  have hgot := (h₁.trans h₂).trans h₄
  cases setterDoc with
  | none =>
    exact makes_listed hgot hscope hm₄
  | some doc =>
    have hplace₄ := hplace₂.mono h₄.stays
    refine (makes_writeDeclaration h₄.sound hplace₄ (by decide) doc _ _).bind fun setter b₅ hsetter => ?_
    have hm₅ := hsetter.grown.stays.symbol hm₄
    refine (makes_declare hsetter hm₅).bind fun _ b₆ ⟨h₆, hstays₆⟩ => ?_
    exact makes_listed (hgot.trans h₆) hscope (hstays₆.symbol hm₅)

/-! ### Enums -/

theorem makes_enumeration (hb : b.Sound) (hscope : scope.IsKnown b) (doc name : String) (isConst : Bool) :
    Makes b (enumeration scope doc name isConst) fun m b' =>
      b.Extends b' [(m, containerCode (if isConst then "const enum" else "enum") name)] ∧ b'.Hosts m := by
  unfold enumeration
  refine (reads_placeOf hb hscope).bind fun place hplace => ?_
  refine (makes_writeDeclaration hb hplace (by decide) doc _ _).bind fun n b₁ hn => ?_
  exact makes_typeDeclaration hn hscope name _ fun _ => rfl

/-- Numbering is nothing to a program. -/
theorem makes_numberMember (hb : b.Sound) (owner : SymbolId) (name : String) (initializer : Option String) :
    Makes b (numberMember owner name initializer) fun _ b' => b.Extends b' [] :=
  ⟨.refl hb.program, hb.intrinsics⟩

theorem reads_declaredType (hb : b.Sound) (hm : b.program.domain.symbol m) :
    Reads b (declaredType m) fun declared => ∀ t ∈ declared, b.program.domain.type t := by
  unfold declaredType
  exact .look (Program.meets_symbol hm) fun data hdata => .pure ⟨rfl, (hb.program.symbol hdata).declaredType⟩

theorem makes_enumMember (hb : b.Sound) (howner : b.Hosts owner) (doc name : String) (initializer : Option String) :
    Makes b (enumMember owner doc name initializer) fun m b' =>
      b.Extends b' [(m, variableCode name initializer ++ ",")] ∧ b'.Hosts m := by
  unfold enumMember
  have hscope : (Scope.exportsOf owner).IsKnown b := howner
  refine (reads_placeOf hb hscope).bind fun place hplace => ?_
  refine (makes_writeDeclaration hb hplace (by decide) doc _ _).bind fun n b₁ hn => ?_
  have hn : b.Pending b₁ n place.file (variableCode name initializer ++ ",") := by
    cases initializer with
    | none => simpa [variableCode] using hn
    | some text => simpa [variableCode, String.append_assoc] using hn
  obtain ⟨node, hnode, -⟩ := hn.node
  refine (makes_modifyNode hn.grown.sound (Arena.lt_size hnode) fun _ => by rfl).bind fun _ b₂ h₂ => ?_
  refine (makes_addSymbol h₂.sound name _).bind fun m b₃ ⟨h₃, hm, _⟩ => ?_
  refine (makes_numberMember h₃.sound owner name initializer).bind fun value b₄ h₄ => ?_
  have hm₄ := h₄.stays.symbol hm
  refine (makes_addTypeOf h₄.sound hm₄ (enumLiteral_symbol m value)).bind fun type b₅ ⟨h₅, htype⟩ => ?_
  refine (makes_typeSymbol h₅.sound (h₅.stays.symbol hm₄) htype).bind fun _ b₆ ⟨h₆, _⟩ => ?_
  have hn₆ := ((((hn.mono h₂).mono h₃).mono h₄).mono h₅).mono h₆
  have hm₆ := h₆.stays.symbol (h₅.stays.symbol hm₄)
  refine (reads_declaredType h₆.sound (hn₆.grown.stays.symbol howner.symbol)).bind fun declared hdeclared => ?_
  split
  · refine (makes_modifyType h₆.sound (hdeclared _ rfl) fun _ h => by exact h).bind fun _ b₇ h₇ => ?_
    have hn₇ := hn₆.mono h₇
    exact makes_declareListed hn₇ hscope (h₇.stays.symbol hm₆)
  · exact makes_declareListed hn₆ hscope hm₆

theorem makes_setConstantValue (hb : b.Sound) (hm : b.program.domain.symbol m) (value : ConstantValue) :
    Makes b (setConstantValue m value) fun _ b' => b.Extends b' [] := by
  unfold setConstantValue
  refine .look (Program.meets_symbol hm) fun data hdata => ?_
  refine Makes.bind (makes_markDeclarations hb hdata fun _ => by rfl) fun _ b₁ h₁ => ?_
  split
  · next type htype =>
    have ht := h₁.stays.type ((hb.program.symbol hdata).type type htype)
    refine (makes_modifyType h₁.sound ht fun _ _ m' hm' => ?_).mono fun _ _ h => h₁.trans h
    rw [enumLiteral_symbol] at hm'
    obtain rfl := Option.some.inj hm'
    exact h₁.stays.symbol hm
  · exact .pure h₁

/-! ### Namespaces and aliases -/

theorem makes_namespaceDeclaration (hb : b.Sound) (hscope : scope.IsKnown b) (hm : b.program.domain.symbol m)
    (doc : String) :
    Makes b (namespaceDeclaration scope m doc) fun _ b' =>
      b.Extends b' [(m, containerCode "namespace" (b.program.symbolData m).name)] ∧ b.program.StaysIn b'.program := by
  unfold namespaceDeclaration
  refine .look (Program.meets_symbol hm) fun data hdata => ?_
  refine (reads_placeOf hb hscope).bind fun place hplace => ?_
  refine (makes_writeDeclaration hb hplace (by decide) doc _ _).bind fun n b₁ hn => ?_
  refine (makes_declare hn (hn.grown.stays.symbol hm)).mono fun _ b₂ h => ?_
  rw [Program.symbolData_eq hdata]
  exact ⟨h.1, h.1.stays⟩

theorem makes_addNamespace (hb : b.Sound) (hscope : scope.IsKnown b) (doc name : String) :
    Makes b (addNamespace scope doc name) fun m b' =>
      b.Extends b' [(m, containerCode "namespace" name)] ∧ b'.Hosts m := by
  unfold addNamespace
  refine (makes_addSymbol hb name _).bind fun m b₁ ⟨h₁, hm, hdata⟩ => ?_
  refine (makes_namespaceDeclaration h₁.sound (hscope.mono h₁.stays) hm doc).bind fun _ b₂ ⟨h₂, hstays⟩ => ?_
  rw [Program.symbolData_eq hdata] at h₂
  exact makes_listed (h₁.trans h₂) hscope (hstays.symbol hm)

theorem reads_scopeOf (howner : b.Hosts owner) : Reads b (scopeOf owner) fun scope => scope.IsKnown b := by
  unfold scopeOf
  refine Makes.bind (P := fun p b' => p = b.program ∧ b' = b) ⟨rfl, rfl⟩ fun p b' ⟨hp, hb'⟩ => ?_
  subst hp hb'
  split
  · next i hi =>
    refine .pure ⟨rfl, ?_⟩
    have hlt := (List.findIdx?_eq_some_iff_getElem.1 hi).1
    exact hlt
  · exact .pure ⟨rfl, howner⟩

theorem makes_mergeNamespace (hb : b.Sound) (hm : b.Hosts m) (doc : String) :
    Makes b (mergeNamespace m doc) fun _ b' =>
      b.Extends b' [(m, containerCode "namespace" (b.program.symbolData m).name)] := by
  unfold mergeNamespace
  refine .look (Program.meets_symbol hm.symbol) fun data hdata => ?_
  have hmerge (scope : Scope) (hscope : scope.IsKnown b) : Makes b (do
      modifySymbol m fun s => { s with flags := (s.flags.add .valueModule).add .namespaceModule }
      namespaceDeclaration scope m doc) fun _ b' =>
        b.Extends b' [(m, containerCode "namespace" (b.program.symbolData m).name)] := by
    refine (makes_modifySymbol hb hm.symbol (fun _ h => by exact ⟨h.declarations, h.parent, h.type, h.declaredType⟩)
      fun _ => by rfl).bind fun _ b₁ ⟨h₁, hdata₁⟩ => ?_
    refine (makes_namespaceDeclaration h₁.sound (hscope.mono h₁.stays) (h₁.stays.symbol hm.symbol) doc).mono
      fun _ b₂ ⟨h₂, _⟩ => ?_
    rw [Program.symbolData_eq (hdata₁ data hdata)] at h₂
    rw [Program.symbolData_eq hdata]
    exact h₁.trans h₂
  split
  · next parent hparent =>
    have hhosts : b.Hosts parent := ⟨(hb.program.symbol hdata).parent parent hparent, hm.file⟩
    exact (reads_scopeOf hhosts).bind fun scope hscope => hmerge scope hscope
  · exact (reads_fileOf hb hm).bind fun file hfile => hmerge (.file file) hfile.1

theorem makes_typeAlias (hb : b.Sound) (hscope : scope.IsKnown b) (ht : b.program.domain.type t) (doc name : String) :
    Makes b (typeAlias scope doc name t) fun m b' => b.Extends b' [(m, aliasCode name)] ∧ b'.Hosts m := by
  unfold typeAlias
  refine (reads_placeOf hb hscope).bind fun place hplace => ?_
  refine (makes_writeDeclaration hb hplace (by decide) doc _ _).bind fun n b₁ hn => ?_
  refine (makes_addSymbol hn.grown.sound name _).bind fun m b₂ ⟨h₂, hm, _⟩ => ?_
  have hn₂ := hn.mono h₂
  refine (makes_modifySymbol h₂.sound hm (fun data hdata => ?_) fun _ => by rfl).bind fun _ b₃ ⟨h₃, _⟩ => ?_
  · refine ⟨hdata.declarations, hdata.parent, hdata.type, fun t' ht' => ?_⟩
    obtain rfl := Option.some.inj ht'
    exact hn₂.grown.stays.type ht
  · have hn₃ := hn₂.mono h₃
    exact makes_declareListed hn₃ hscope (h₃.stays.symbol hm)

theorem makes_bareSymbol (hb : b.Sound) (hscope : scope.IsKnown b) (name : String) (flags : SymbolFlags) :
    Makes b (bareSymbol scope name flags) fun m b' => b.Extends b' [] ∧ b'.Hosts m := by
  unfold bareSymbol
  refine (makes_addSymbol hb name _).bind fun m b₁ ⟨h₁, hm, _⟩ => ?_
  refine (makes_mark h₁.sound hm fun _ => by exact ⟨rfl, rfl, rfl, rfl, rfl⟩).bind fun _ b₂ h₂ => ?_
  exact makes_listed (h₁.trans h₂) hscope (h₂.stays.symbol hm)

/-! ### Classes and failures -/

theorem makes_extend (hb : b.Sound) (hm : b.program.domain.symbol m) (base : TypeId) :
    Makes b (extend m base) fun _ b' => b.Extends b' [] := by
  unfold extend
  refine (reads_declaredType hb hm).bind fun declared hdeclared => ?_
  split
  · exact makes_modifyType hb (hdeclared _ rfl) fun _ h => by exact h
  · exact .pure (.refl hb)

/-- A clause stands where its class stands, and declares nothing. -/
theorem makes_implement (hb : b.Sound) (hm : b.program.domain.symbol m) (type : TypeId) :
    Makes b (implement m type) fun _ b' => b.Extends b' [] := by
  unfold implement
  refine .look (Program.meets_symbol hm) fun data hdata => ?_
  split
  · next decl rest hdeclarations =>
    obtain ⟨node, hnode, -⟩ := (hb.program.symbol hdata).declarations decl (by simp [hdeclarations])
    refine .look (Program.meets_node (Arena.lt_size hnode)) fun node' hnode' => ?_
    obtain rfl := Option.some.inj (hnode.symm.trans hnode')
    obtain ⟨code, hmarks⟩ := (hb.program.frames _ _ (Program.frames_node hnode)).marks
    rw [← String.toList_ofList (l := code)] at hmarks
    refine (makes_addPending (.refl hb) (hb.isGood hnode) (by simp [SyntaxKind.placeless]) (by exact hmarks) (by rfl)
      (by rfl) (by rfl)).bind fun clause b₁ hclause => ?_
    obtain ⟨node', hnode', -⟩ := hclause.grown.stays.node hnode
    exact (makes_modifyNode hclause.grown.sound (Arena.lt_size hnode') fun _ => by rfl).mono
      fun _ _ h => hclause.grown.trans h
  · exact .pure (.refl hb)

/-- Which queries fail is nothing to what building relies on. -/
theorem makes_fail (hb : b.Sound) (failing : List NodeId) :
    Makes b (modifyProgram fun p => { p with failing := p.failing ++ failing }) fun _ b' => b.Extends b' [] := by
  have hstays : b.program.StaysIn { b.program with failing := b.program.failing ++ failing } :=
    { Program.StaysIn.refl b.program with }
  have hsound := hb.program.of_stays hstays hb.program.frames .inl .inl .inl
  exact ⟨⟨hsound, hstays, .refl hb.program.frames⟩, hb.intrinsics⟩

theorem makes_failDeclarations (hb : b.Sound) (hm : b.program.domain.symbol m) :
    Makes b (failDeclarations m) fun _ b' => b.Extends b' [] := by
  unfold failDeclarations
  exact .look (Program.meets_symbol hm) fun _ _ => makes_fail hb _

theorem makes_failFile (hb : b.Sound) (hfile : b.program.domain.file file) :
    Makes b (failFile file) fun _ b' => b.Extends b' [] := by
  unfold failFile
  exact .look (Program.meets_file hfile) fun _ _ => makes_fail hb _

/-! ### Files and types -/

theorem makes_addFile (hb : b.Sound) (name : String) (isModule : Bool) :
    Makes b (addFile name isModule) fun f b' => b.Extends b' [] ∧ b'.program.domain.file f := by
  unfold addFile
  -- the node is in a file that is there at the end only
  refine Makes.bind (P := fun p b' => p = b.program ∧ b' = b) ⟨rfl, rfl⟩ fun p b₀ ⟨hp, hb₀⟩ => ?_
  subst hp hb₀
  refine Makes.bind (P := fun m b' => m = ⟨b₀.program.symbols.size⟩ ∧ b' = b₀.update fun p =>
    { p with symbols := p.symbols.push { name := "\"" ++ stem name ++ "\"", flags := .of [.valueModule] } })
    ⟨rfl, rfl⟩ fun m b₁ ⟨hm, hb₁⟩ => ?_
  refine Makes.bind (P := fun n b' => n = ⟨b₀.program.nodes.size⟩ ∧ b' = b₁.update fun p =>
    { p with nodes := p.nodes.push { kind := .sourceFile, file := ⟨b₀.program.files.size⟩ } })
    ⟨congrArg (fun b : Builder => NodeId.mk b.program.nodes.size) hb₁, rfl⟩ fun n b₂ ⟨hn, hb₂⟩ => ?_
  have hsymbol : b₂.program.domain.symbol m := by
    rw [hb₂, hb₁, hm]
    show b₀.program.symbols.size < (b₀.program.symbols.push _).size
    simp
  have hnode : b₂.program.nodes.get? n.index = some { kind := .sourceFile, file := ⟨b₀.program.files.size⟩ } := by
    rw [hb₂, hb₁, hn]
    show (b₀.program.nodes.push _).get? b₀.program.nodes.size = _
    rw [Arena.get?_push, if_pos rfl]
  refine (makes_declared hsymbol hnode).bind fun _ b₃ hb₃ => ?_
  have hmade : b₃ = { b₀ with program := { b₀.program with
      symbols := b₀.program.symbols.push
        { name := "\"" ++ stem name ++ "\"", flags := .of [.valueModule], declarations := [n] }
      nodes := b₀.program.nodes.push
        { kind := .sourceFile, file := ⟨b₀.program.files.size⟩, symbol := some m } } } := by
    rw [hb₃, hb₂, hb₁, hm, hn]
    simp only [Builder.update, Program.declared, Arena.modify_push]
    rfl
  subst hmade hm hn
  refine ⟨⟨hb.program.newFile _ _ rfl rfl rfl, hb.intrinsics⟩, ?_⟩
  show b₀.program.files.size < (b₀.program.files.push _).size
  simp

theorem makes_fileComment (hb : b.Sound) (hfile : b.program.domain.file file) (comment : String) :
    Makes b (fileComment file comment) fun _ b' => b.Extends b' [] := by
  obtain ⟨data, hdata⟩ := Program.exists_get? hfile
  unfold fileComment
  refine (makes_write hb hdata (fun _ => by exact ⟨rfl, rfl⟩) (comment.toList ++ ['\n']) ?_).mono fun _ _ h => h.1
  simp

theorem makes_intrinsic (hb : b.Sound) (name : String) :
    Makes b (intrinsic name) fun t b' => b.Extends b' [] ∧ b'.program.domain.type t := by
  unfold intrinsic
  refine Makes.bind (P := fun b₁ b' => b₁ = b ∧ b' = b) ⟨rfl, rfl⟩ fun b₁ b' ⟨h₁, hb'⟩ => ?_
  subst h₁ hb'
  split
  · next t ht =>
    obtain ⟨before, after, hknown, -⟩ := List.lookup_eq_some_iff.1 ht
    exact .pure ⟨.refl hb, hb.intrinsics (name, t) (by rw [hknown]; simp)⟩
  · refine (makes_addType hb (by simp)).bind fun t b₂ ⟨h₂, ht⟩ => ?_
    refine Makes.bind (P := fun _ b' => b₂.Extends b' []) ⟨.refl h₂.program.sound, fun known hknown => ?_⟩
      fun _ b₃ h₃ => .pure ⟨h₂.trans h₃, h₃.stays.type ht⟩
    rcases List.mem_cons.1 hknown with rfl | hknown
    · exact ht
    · exact h₂.intrinsics known hknown

theorem makes_tuple (hb : b.Sound) (elements : List TypeId) :
    Makes b (tuple elements) fun t b' => b.Extends b' [] ∧ b'.program.domain.type t := by
  unfold tuple
  refine (makes_addType hb (by simp)).bind fun target b₁ ⟨h₁, _⟩ => ?_
  exact (makes_addType h₁.sound (by simp)).mono fun t b₂ ⟨h₂, ht⟩ => ⟨h₁.trans h₂, ht⟩

theorem makes_typeReference (hb : b.Sound) (ht : b.program.domain.type t) (arguments : List TypeId) :
    Makes b (typeReference t arguments) fun t b' => b.Extends b' [] ∧ b'.program.domain.type t := by
  unfold typeReference
  exact .look (Program.meets_type ht) fun data hdata => makes_addType hb fun m hm => hb.program.type hdata m hm

/-- A type with a symbol of its own. -/
theorem makes_symbolType (hb : b.Sound) (name : String) (flags : List SymbolFlag) {data : SymbolId → TypeData}
    (hdata : ∀ m, (data m).symbol = some m) :
    Makes b (do
      let symbol ← addSymbol name flags
      addType (data symbol)) fun t b' => b.Extends b' [] ∧ b'.program.domain.type t := by
  refine (makes_addSymbol hb name flags).bind fun m b₁ ⟨h₁, hm, _⟩ => ?_
  exact (makes_addTypeOf h₁.sound hm (hdata m)).mono fun t b₂ ⟨h₂, ht⟩ => ⟨h₁.trans h₂, ht⟩

theorem makes_typeProperty (hb : b.Sound) (hfile : b.program.domain.file file) {object : TypeId}
    (hobject : b.program.domain.type object) (ht : b.program.domain.type t) (doc name : String) :
    Makes b (typeProperty file object doc name t) fun m b' =>
      b.Extends b' [(m, propertyCode name)] ∧ b'.Hosts m := by
  unfold typeProperty
  refine (makes_pushText hb hfile doc _).bind fun span b₁ ⟨h₁, hmarks⟩ => ?_
  have hplace : Place.IsGood b₁ ⟨file, none⟩ := ⟨h₁.stays.file hfile, fun _ h => nomatch h⟩
  refine (makes_addPending h₁ hplace (by simp [SyntaxKind.placeless]) (by exact hmarks) (by rfl) (by rfl)
    (by rfl)).bind fun n b₂ hn => ?_
  refine (makes_addSymbol hn.grown.sound name _).bind fun m b₃ ⟨h₃, hm, _⟩ => ?_
  have hn₃ := hn.mono h₃
  refine .look (Program.meets_type (hn₃.grown.stays.type hobject)) fun data hdata => ?_
  refine (makes_modifySymbol h₃.sound hm (fun s hs => ?_) fun _ => by rfl).bind fun _ b₄ ⟨h₄, _⟩ => ?_
  · refine ⟨hs.declarations, h₃.sound.program.type hdata, fun t' ht' => ?_, hs.declaredType⟩
    obtain rfl := Option.some.inj ht'
    exact hn₃.grown.stays.type ht
  have hn₄ := hn₃.mono h₄
  have hm₄ := h₄.stays.symbol hm
  refine (makes_declare hn₄ hm₄).bind fun _ b₅ ⟨h₅, hstays⟩ => ?_
  refine (makes_modifyType h₅.sound (h₅.stays.type hobject) fun _ h => by exact h).bind fun _ b₆ h₆ => ?_
  refine .pure ⟨h₅.trans h₆, h₆.stays.symbol (hstays.symbol hm₄), ?_⟩
  exact h₆.stays.file (h₅.stays.file (Nat.lt_of_le_of_lt (Nat.zero_le _) hfile))

end Build

end ApiDoc
