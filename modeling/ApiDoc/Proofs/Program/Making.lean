import ApiDoc.Proofs.Program.Growth

/-!
# Building that succeeds

`Build.Makes b x P` says that a step does not fail from `b`, and what it makes; `Build.Reads b x P` that it only looks.
From a sound program, and with handles that are known in it, each of the basic steps succeeds and lets the program grow.

A declaration is made in several steps.  Its node is pending (`Builder.Pending`) from when its code is written until it
declares its symbol, whatever else is added meanwhile, as long as that declares nothing.
-/

namespace ApiDoc

variable {α β : Type}

/-! ### Programs under construction -/

/-- A program under construction is sound, and the built-in types it remembers are there. -/
structure Builder.Sound (b : Builder) : Prop where
  program : b.program.Sound
  intrinsics : ∀ known ∈ b.intrinsics, b.program.domain.type known.2

/-- A program under construction grows into a sound one, which has some more declarations. -/
structure Builder.Extends (b b' : Builder) (new : List (SymbolId × String)) : Prop where
  program : b.program.Extends b'.program new
  intrinsics : ∀ known ∈ b'.intrinsics, b'.program.domain.type known.2

/-- A symbol that is an interface and no class. -/
def Program.isContract (p : Program) (m : SymbolId) : Bool :=
  (p.symbolData m).flags.has .interfaceSymbol && !(p.symbolData m).flags.has .classSymbol

namespace Builder

variable {b b' b'' b₀ : Builder} {new new' : List (SymbolId × String)}

theorem Sound.empty : Sound {} := ⟨.empty, fun _ h => nomatch h⟩

/-- Only the program changes. -/
theorem Sound.extends_program (hb : b.Sound) {p : Program} (h : b.program.Extends p new) :
    b.Extends { b with program := p } new :=
  ⟨h, fun known hknown => h.stays.type (hb.intrinsics known hknown)⟩

namespace Extends

theorem refl (hb : b.Sound) : b.Extends b [] := ⟨.refl hb.program, hb.intrinsics⟩

theorem trans (h : b.Extends b' new) (h' : b'.Extends b'' new') : b.Extends b'' (new ++ new') :=
  ⟨h.program.trans h'.program, h'.intrinsics⟩

theorem trans_nil (h : b.Extends b' new) (h' : b'.Extends b'' []) : b.Extends b'' new := by
  simpa only [List.append_nil] using h.trans h'

theorem sound (h : b.Extends b' new) : b'.Sound := ⟨h.program.sound, h.intrinsics⟩

theorem stays (h : b.Extends b' new) : b.program.StaysIn b'.program := h.program.stays

end Extends

/-- A symbol that something can be written for: there is a file to write it in. -/
structure Hosts (b : Builder) (m : SymbolId) : Prop where
  symbol : b.program.domain.symbol m
  file : b.program.domain.file ⟨0⟩

theorem Hosts.mono {m : SymbolId} (h : b.Hosts m) (hstays : b.program.StaysIn b'.program) : b'.Hosts m :=
  ⟨hstays.symbol h.symbol, hstays.file h.file⟩

/-- A node whose code is written and that is to become a declaration. -/
structure Pending (b₀ b : Builder) (n : NodeId) (file : FileId) (code : String) : Prop where
  grown : b₀.Extends b []
  isNew : b₀.program.nodes.size ≤ n.index
  node : ∃ data, b.program.nodes.get? n.index = some data ∧ data.symbol = none ∧ data.kind ∉ SyntaxKind.placeless ∧
    data.file = file ∧ b.program.frames.Marks file data.span code.toList

/-- A node is pending as long as nothing is declared. -/
theorem Pending.mono {n : NodeId} {file : FileId} {code : String} (h : b₀.Pending b n file code)
    (h' : b.Extends b' []) : b₀.Pending b' n file code where
  grown := h.grown.trans h'
  isNew := h.isNew
  node := by
    obtain ⟨data, hdata, hnone, hkind, hfile, hmarks⟩ := h.node
    obtain ⟨data', hdata', hframe⟩ := h'.program.node hdata
    refine ⟨data', hdata', (congrArg NodeFrame.symbol hframe).trans hnone, ?_,
      (congrArg NodeFrame.file hframe).trans hfile, ?_⟩
    · rwa [show data'.kind = data.kind from congrArg NodeFrame.kind hframe]
    · rw [show data'.span = data.span from congrArg NodeFrame.span hframe]
      exact h'.program.frames.marks hmarks

end Builder

/-- What a scope is of is known. -/
def Scope.IsKnown (b : Builder) : Scope → Prop
  | .file f => b.program.domain.file f
  | .exportsOf owner | .membersOf owner => b.Hosts owner

theorem Scope.IsKnown.mono {b b' : Builder} {scope : Scope} (h : scope.IsKnown b)
    (hstays : b.program.StaysIn b'.program) : scope.IsKnown b' := by
  cases scope with
  | file file => exact hstays.file h
  | exportsOf owner | membersOf owner => exact Builder.Hosts.mono h hstays

/-- Where there is a scope there is a file to write in. -/
theorem Scope.IsKnown.hosts {b : Builder} {scope : Scope} (h : scope.IsKnown b) {m : SymbolId}
    (hm : b.program.domain.symbol m) : b.Hosts m := by
  cases scope with
  | file f => exact ⟨hm, Nat.lt_of_le_of_lt (Nat.zero_le _) h⟩
  | exportsOf owner | membersOf owner => exact ⟨hm, h.file⟩

/-- A place is in a file that is there, and what is around it is in the same file. -/
structure Build.Place.IsGood (b : Builder) (place : Build.Place) : Prop where
  file : b.program.domain.file place.file
  parent : ∀ n ∈ place.parent, ∃ node, b.program.nodes.get? n.index = some node ∧ node.file = place.file

theorem Build.Place.IsGood.mono {b b' : Builder} {place : Build.Place} (h : place.IsGood b)
    (hstays : b.program.StaysIn b'.program) : place.IsGood b' where
  file := hstays.file h.file
  parent n hn := by
    obtain ⟨node, hnode, hfile⟩ := h.parent n hn
    obtain ⟨node', hnode', -, hfile', -⟩ := hstays.node hnode
    exact ⟨node', hnode', hfile'.trans hfile⟩

/-- A place in a node that is there. -/
theorem Builder.Sound.isGood {b : Builder} (hb : b.Sound) {n : NodeId} {node : NodeData}
    (hnode : b.program.nodes.get? n.index = some node) : Build.Place.IsGood b ⟨node.file, some n⟩ where
  file := hb.program.file_of_node hnode
  parent n' hn' := by
    obtain rfl := Option.some.inj hn'
    exact ⟨node, hnode, rfl⟩

theorem Builder.Pending.isGood {b₀ b : Builder} {n : NodeId} {file : FileId} {code : String}
    (h : b₀.Pending b n file code) : Build.Place.IsGood b ⟨file, some n⟩ := by
  obtain ⟨node, hnode, -, -, rfl, -⟩ := h.node
  exact h.grown.sound.isGood hnode

namespace Build

variable {b b₀ : Builder} {x : Build α} {f : α → Build β} {P : α → Builder → Prop} {Q : β → Builder → Prop}

/-! ### Steps that succeed -/

/-- A step succeeds, and `P` says what it makes. -/
def Makes (b : Builder) (x : Build α) (P : α → Builder → Prop) : Prop :=
  Meets (fun _ => False) (x.run b) fun r => P r.1 r.2

/-- A step only looks, and `P` says what it sees. -/
abbrev Reads (b : Builder) (x : Build α) (P : α → Prop) : Prop := Makes b x fun a b' => b' = b ∧ P a

namespace Makes

theorem pure {a : α} (h : P a b) : Makes b (Pure.pure a) P := h

theorem bind (hx : Makes b x P) (hf : ∀ a b', P a b' → Makes b' (f a) Q) : Makes b (x >>= f) Q := meets_bind hx hf

/-- It is known what the first step gives. -/
theorem of_run {a : α} {b' : Builder} (hx : x.run b = .ok (a, b')) (hf : Makes b' (f a) Q) : Makes b (x >>= f) Q := by
  refine bind (P := fun a' b'' => a' = a ∧ b'' = b') ?_ fun a' b'' ⟨ha, hb⟩ => ha ▸ hb ▸ hf
  rw [Makes, hx]
  exact ⟨rfl, rfl⟩

theorem mono {P' : α → Builder → Prop} (hx : Makes b x P) (h : ∀ a b', P a b' → P' a b') : Makes b x P' :=
  Meets.mono hx fun r _ => h r.1 r.2

/-- Something is looked up that is there. -/
theorem look {y : Program → Answer α} {R : α → Prop} (hy : Meets (fun _ => False) (y b.program) R)
    (hf : ∀ a, R a → Makes b (f a) Q) : Makes b (program >>= fun p => liftM (y p) >>= f) Q := by
  obtain ⟨a, ha, hr⟩ := hy.exists_ok
  show Meets _ ((liftM (y b.program) >>= f : Build β).run b) _
  rw [ha]
  exact hf a hr

/-- A loop has an invariant, which says what is left to do. -/
theorem forIn {I : List α → Builder → Prop} {f : α → Unit → Build (ForInStep Unit)} {as : List α} (h : I as b)
    (hf : ∀ a as b, I (a :: as) b → Makes b (f a ()) fun r b' => r = .yield () ∧ I as b') :
    Makes b (ForIn.forIn as () f) fun _ b' => I [] b' := by
  induction as generalizing b with
  | nil => exact h
  | cons a as ih =>
    rw [List.forIn_cons]
    refine (hf a as b h).bind fun r b' ⟨hr, hinv⟩ => ?_
    subst hr
    exact ih hinv

/-- A loop whose passes add declarations adds all of them. -/
theorem forExtends {f : α → Unit → Build (ForInStep Unit)} {as : List α} (new : α → List (SymbolId × String))
    (hb : b.Sound) (hf : ∀ a ∈ as, ∀ b', b.program.StaysIn b'.program → b'.Sound →
      Makes b' (f a ()) fun r b'' => r = .yield () ∧ b'.Extends b'' (new a)) :
    Makes b (ForIn.forIn as () f) fun _ b' => b.Extends b' (as.flatMap new) := by
  induction as generalizing b with
  | nil => exact .refl hb
  | cons a as ih =>
    rw [List.forIn_cons]
    refine (hf a (List.mem_cons_self ..) b (.refl _) hb).bind fun r b₁ ⟨hr, h₁⟩ => ?_
    subst hr
    refine (ih h₁.sound fun a' ha' b' hstays hb' => ?_).mono fun _ b' h => h₁.trans h
    exact hf a' (List.mem_cons_of_mem _ ha') b' (h₁.stays.trans hstays) hb'

/-- Things are made one after the other, and what was made stays. -/
theorem mapM {R : β → Builder → Prop} {f : α → Build β} {as : List α} (hb : b.Sound)
    (hR : ∀ c b b', b.Extends b' [] → R c b → R c b')
    (hf : ∀ a ∈ as, ∀ b', b.Extends b' [] → Makes b' (f a) fun c b'' => b'.Extends b'' [] ∧ R c b'') :
    Makes b (as.mapM f) fun cs b' => b.Extends b' [] ∧ ∀ c ∈ cs, R c b' := by
  induction as generalizing b with
  | nil => exact .pure ⟨.refl hb, fun _ h => nomatch h⟩
  | cons a as ih =>
    rw [List.mapM_cons]
    refine (hf a (List.mem_cons_self ..) b (.refl hb)).bind fun c b₁ ⟨h₁, hc⟩ => ?_
    have hrest := ih h₁.sound fun a' ha' b' h' => hf a' (List.mem_cons_of_mem _ ha') b' (h₁.trans h')
    refine hrest.bind fun cs b₂ h₂ => ?_
    refine .pure ⟨h₁.trans h₂.1, fun c' hc' => ?_⟩
    rcases List.mem_cons.1 hc' with rfl | hc'
    · exact hR _ _ _ h₂.1 hc
    · exact h₂.2 c' hc'

end Makes

theorem Reads.bind {R : α → Prop} (hx : Reads b x R) (hf : ∀ a, R a → Makes b (f a) Q) : Makes b (x >>= f) Q :=
  Makes.bind hx fun a _ ⟨hb', hr⟩ => hb' ▸ hf a hr

/-! ### Tables -/

section

variable {m : SymbolId} {t : TypeId} {sig : SignatureId} {n : NodeId} {file : FileId}

/-- Changing what is there. -/
theorem makes_change {look : Program → Answer α} {change : Program → Program}
    (hlook : Meets (fun _ => False) (look b.program) fun _ => True) :
    Makes b (do let _ ← look (← program); modifyProgram change) fun _ b' => b' = b.update change :=
  .look hlook fun _ _ => rfl

theorem makes_modifySymbol (hb : b.Sound) (hm : b.program.domain.symbol m) {change : SymbolData → SymbolData}
    (hchange : ∀ data : SymbolData, data.IsSound b.program m → (change data).IsSound b.program m)
    (hvalue : ∀ data, (change data).valueDeclaration = data.valueDeclaration) :
    Makes b (modifySymbol m change) fun _ b' => b.Extends b' [] ∧
      ∀ data, b.program.symbols.get? m.index = some data →
        b'.program.symbols.get? m.index = some (change data) := by
  refine (makes_change ((Program.meets_symbol hm).mono fun _ _ _ => trivial)).mono fun _ b' hb' => ?_
  subst hb'
  refine ⟨hb.extends_program (hb.program.modifySymbol (fun data _ => hchange data) hvalue), fun data hdata => ?_⟩
  show (b.program.symbols.modify m.index change).get? m.index = _
  rw [Arena.get?_modify, if_pos rfl, hdata]
  rfl

theorem makes_modifyType (hb : b.Sound) (ht : b.program.domain.type t) {change : TypeData → TypeData}
    (hchange : ∀ data : TypeData, (∀ m ∈ data.symbol, b.program.domain.symbol m) →
      ∀ m ∈ (change data).symbol, b.program.domain.symbol m) :
    Makes b (modifyType t change) fun _ b' => b.Extends b' [] := by
  refine (makes_change ((Program.meets_type ht).mono fun _ _ _ => trivial)).mono fun _ b' hb' => ?_
  subst hb'
  exact hb.extends_program (hb.program.modifyType hchange)

theorem makes_modifySignature (hb : b.Sound) (hsig : b.program.domain.signature sig)
    (change : SignatureData → SignatureData) :
    Makes b (modifySignature sig change) fun _ b' => b.Extends b' [] ∧
      ∀ data, b.program.signatures.get? sig.index = some data →
        b'.program.signatures.get? sig.index = some (change data) := by
  refine (makes_change ((Program.meets_signature hsig).mono fun _ _ _ => trivial)).mono fun _ b' hb' => ?_
  subst hb'
  refine ⟨hb.extends_program (hb.program.modifySignature change), fun data hdata => ?_⟩
  show (b.program.signatures.modify sig.index change).get? sig.index = _
  rw [Arena.get?_modify, if_pos rfl, hdata]
  rfl

/-- Something is said about a node, its place apart. -/
theorem makes_modifyNode (hb : b.Sound) (hn : b.program.domain.node n) {change : NodeData → NodeData}
    (hchange : ∀ data, (change data).frame = data.frame) :
    Makes b (modifyNode n change) fun _ b' => b.Extends b' [] := by
  refine (makes_change ((Program.meets_node hn).mono fun _ _ _ => trivial)).mono fun _ b' hb' => ?_
  subst hb'
  exact hb.extends_program (hb.program.modifyNode hchange)

/-- Something is said about a file, and nothing is written in it. -/
theorem makes_modifyFile (hb : b.Sound) (hfile : b.program.domain.file file) {change : FileData → FileData}
    (hchange : ∀ data, (change data).symbol = data.symbol ∧ (change data).node = data.node)
    (htext : ∀ data, (change data).text = data.text) :
    Makes b (modifyFile file change) fun _ b' => b.Extends b' [] := by
  refine (makes_change ((Program.meets_file hfile).mono fun _ _ _ => trivial)).mono fun _ b' hb' => ?_
  subst hb'
  refine hb.extends_program (hb.program.modifyFile hchange ?_)
  rw [Program.frames_modifyFile_same _ htext]
  exact .refl hb.program.frames

/-- Text is written at the end of a file. -/
theorem makes_write (hb : b.Sound) {data : FileData} (hdata : b.program.files.get? file.index = some data)
    {change : FileData → FileData}
    (hchange : ∀ data, (change data).symbol = data.symbol ∧ (change data).node = data.node) (cs : List Char)
    (htext : (change data).text.toList = data.text.toList ++ cs) :
    Makes b (modifyFile file change) fun _ b' => b.Extends b' [] ∧
      b'.program.frames.texts[file.index]? = some (data.text.toList ++ cs) := by
  have hfile : b.program.domain.file file := Arena.lt_size hdata
  refine (makes_change ((Program.meets_file hfile).mono fun _ _ _ => trivial)).mono fun _ b' hb' => ?_
  subst hb'
  have hwrite := Program.frames_write hdata htext
  refine ⟨hb.extends_program (hb.program.modifyFile hchange ?_), ?_⟩
  · rw [hwrite]
    exact hb.program.frames.extends_write file cs
  · show (Program.frames { b.program with files := _ }).texts[file.index]? = _
    rw [hwrite, Frames.texts_write _ file cs (by rw [Program.frames_texts, hdata]; rfl), if_pos rfl]

theorem makes_addSymbol (hb : b.Sound) (name : String) (flags : List SymbolFlag) :
    Makes b (addSymbol name flags) fun m b' => b.Extends b' [] ∧ b'.program.domain.symbol m ∧
      b'.program.symbols.get? m.index = some { name, flags := .of flags } := by
  refine ⟨hb.extends_program (hb.program.pushSymbol name _), ?_, ?_⟩
  · show b.program.symbols.size < (b.program.symbols.push _).size
    simp
  · show (b.program.symbols.push _).get? b.program.symbols.size = _
    rw [Arena.get?_push, if_pos rfl]

theorem makes_addType (hb : b.Sound) {data : TypeData} (hdata : ∀ m ∈ data.symbol, b.program.domain.symbol m) :
    Makes b (addType data) fun t b' => b.Extends b' [] ∧ b'.program.domain.type t := by
  refine ⟨hb.extends_program (hb.program.pushType hdata), ?_⟩
  show b.program.types.size < (b.program.types.push _).size
  simp

/-- A new type of a symbol. -/
theorem makes_addTypeOf (hb : b.Sound) (hm : b.program.domain.symbol m) {data : TypeData}
    (hdata : data.symbol = some m) : Makes b (addType data) fun t b' => b.Extends b' [] ∧ b'.program.domain.type t := by
  refine makes_addType hb fun m' hm' => ?_
  obtain rfl := Option.some.inj (hdata.symm.trans hm')
  exact hm

theorem makes_addSignature (hb : b.Sound) (data : SignatureData) :
    Makes b (addSignature data) fun sig b' => b.Extends b' [] ∧ b'.program.domain.signature sig ∧
      b'.program.signatures.get? sig.index = some data := by
  refine ⟨hb.extends_program (hb.program.pushSignature data), ?_, ?_⟩
  · show b.program.signatures.size < (b.program.signatures.push _).size
    simp
  · show (b.program.signatures.push _).get? b.program.signatures.size = _
    rw [Arena.get?_push, if_pos rfl]

/-- A new node that declares nothing yet. -/
theorem makes_addNode (hb : b.Sound) {data : NodeData} (hfits : b.program.frames.Fits b.program.nodes.size data.frame)
    (hnone : data.symbol = none) :
    Makes b (addNode data) fun n b' => b.Extends b' [] ∧ n.index = b.program.nodes.size ∧
      b'.program.nodes.get? n.index = some data := by
  refine ⟨hb.extends_program (hb.program.pushNode hfits hnone), rfl, ?_⟩
  show (b.program.nodes.push _).get? b.program.nodes.size = _
  rw [Arena.get?_push, if_pos rfl]

end

/-! ### Text and places -/

section

variable {m : SymbolId} {n : NodeId} {file : FileId} {scope : Scope} {place : Place} {code : String}

theorem makes_pushText (hb : b.Sound) (hfile : b.program.domain.file file) (doc code : String) :
    Makes b (pushText file doc code) fun span b' =>
      b.Extends b' [] ∧ b'.program.frames.Marks file span code.toList := by
  unfold pushText
  refine .look (Program.meets_file hfile) fun data hdata => ?_
  let comment := if doc.isEmpty then "" else doc ++ "\n"
  refine (makes_write hb hdata (fun _ => by exact ⟨rfl, rfl⟩) (comment.toList ++ (code.toList ++ ['\n'])) ?_).bind ?_
  · simp [comment]
  · refine fun _ b' ⟨h, htext⟩ => .pure ⟨h, _, htext, data.text.toList, comment.toList, ['\n'], rfl, ?_, ?_, ?_⟩
    all_goals rw [Text.byteLength_toList]

/-- A node is added at code that is written. -/
theorem makes_addPending (h : b₀.Extends b []) (hplace : place.IsGood b) {data : NodeData}
    (hkind : data.kind ∉ SyntaxKind.placeless) (hmarks : b.program.frames.Marks place.file data.span code.toList)
    (hfile : data.file = place.file) (hparent : data.parent = place.parent) (hnone : data.symbol = none) :
    Makes b (addNode data) fun n b' => b₀.Pending b' n place.file code := by
  have hfits : b.program.frames.Fits b.program.nodes.size data.frame := by
    refine ⟨⟨_, hfile ▸ hmarks⟩, fun parent hmem => ?_, fun hmem => absurd hmem hkind⟩
    obtain ⟨node, hnode, hsame⟩ := hplace.parent parent (hparent ▸ hmem)
    exact ⟨Arena.lt_size hnode, _, Program.frames_node hnode, hsame.trans hfile.symm⟩
  refine (makes_addNode h.sound hfits hnone).mono fun n b' ⟨h', hn, hdata⟩ => ?_
  refine ⟨h.trans h', ?_, data, hdata, hnone, hkind, hfile, h'.program.frames.marks hmarks⟩
  rw [hn]
  exact h.program.size_le

theorem makes_writeDeclaration (hb : b.Sound) (hplace : place.IsGood b) {kind : SyntaxKind}
    (hkind : kind ∉ SyntaxKind.placeless) (doc code : String) (name : Option String) :
    Makes b (writeDeclaration place kind doc code name) fun n b' => b.Pending b' n place.file code := by
  unfold writeDeclaration
  refine (makes_pushText hb hplace.file doc code).bind fun span b₁ ⟨h₁, hmarks⟩ => ?_
  exact makes_addPending h₁ (hplace.mono h₁.stays) hkind hmarks rfl rfl rfl

/-- A node that is there declares a symbol that is there. -/
theorem makes_declared (hm : b.program.domain.symbol m) {node : NodeData}
    (hnode : b.program.nodes.get? n.index = some node) :
    Makes b (declare m n) fun _ b' => b' = b.update (·.declared m n !valueless.contains node.kind) := by
  unfold declare
  have hknown : b.program.domain.node n := Arena.lt_size hnode
  refine .look (Program.meets_node hknown) fun node' hnode' => ?_
  obtain rfl := Option.some.inj (hnode.symm.trans hnode')
  refine (makes_change ((Program.meets_node hknown).mono fun _ _ _ => trivial)).bind fun _ b' hb' => ?_
  subst hb'
  exact (makes_change ((Program.meets_symbol hm).mono fun _ _ _ => trivial)).mono fun _ b' hb' => hb'

/-- A pending node becomes a declaration. -/
theorem makes_declare (hn : b₀.Pending b n file code) (hm : b.program.domain.symbol m) :
    Makes b (declare m n) fun _ b' => b₀.Extends b' [(m, code)] ∧ b.program.StaysIn b'.program := by
  obtain ⟨data, hdata, hnone, hkind, rfl, hmarks⟩ := hn.node
  refine (makes_declared hm hdata).mono fun _ b' hb' => ?_
  subst hb'
  refine ⟨⟨hn.grown.program.declared hdata hnone _ ?_, hn.grown.intrinsics⟩, Program.staysIn_declared m hdata hnone _⟩
  have hnew : b₀.program.frames.nodes.length ≤ n.index := Program.length_frames _ ▸ hn.isNew
  exact hn.grown.program.frames.declare hnew (Program.frames_node hdata) hkind hmarks

/-- What a symbol lists and what it is declared as may change. -/
theorem makes_mark (hb : b.Sound) (hm : b.program.domain.symbol m) {change : SymbolData → SymbolData}
    (hchange : ∀ data, (change data).declarations = data.declarations ∧ (change data).parent = data.parent ∧
      (change data).type = data.type ∧ (change data).declaredType = data.declaredType ∧
      (change data).valueDeclaration = data.valueDeclaration) :
    Makes b (modifySymbol m change) fun _ b' => b.Extends b' [] := by
  refine (makes_modifySymbol hb hm (fun data hdata => ?_) fun data => (hchange data).2.2.2.2).mono fun _ _ h => h.1
  obtain ⟨hdeclarations, hparent, htype, hdeclared, -⟩ := hchange data
  exact ⟨hdeclarations ▸ hdata.declarations, hparent ▸ hdata.parent, htype ▸ hdata.type,
    hdeclared ▸ hdata.declaredType⟩

/-- A symbol is told what is around it. -/
theorem makes_setParent (hb : b.Sound) (hm : b.program.domain.symbol m) {owner : SymbolId}
    (howner : b.program.domain.symbol owner) :
    Makes b (modifySymbol m fun s => { s with parent := some owner }) fun _ b' => b.Extends b' [] := by
  refine (makes_modifySymbol hb hm (fun data hdata => ?_) fun _ => by rfl).mono fun _ _ h => h.1
  refine ⟨hdata.declarations, fun m' hm' => ?_, hdata.type, hdata.declaredType⟩
  obtain rfl := Option.some.inj hm'
  exact howner

theorem makes_attach (hb : b.Sound) (hscope : scope.IsKnown b) (hm : b.program.domain.symbol m) :
    Makes b (attach scope m) fun _ b' => b.Extends b' [] := by
  cases scope with
  | file f =>
    unfold attach
    refine .look (Program.meets_file hscope) fun data hdata => ?_
    have howner := (hb.program.file hdata).symbol
    refine (makes_modifyFile hb hscope (fun _ => by exact ⟨rfl, rfl⟩) fun _ => by rfl).bind fun _ b₁ h₁ => ?_
    have hinside {b' : Builder} (h : b.Extends b' []) :
        Makes b' (modifySymbol m fun s => { s with parent := some data.symbol }) fun _ b'' => b.Extends b'' [] :=
      (makes_setParent h.sound (h.stays.symbol hm) (h.stays.symbol howner)).mono fun _ _ h' => h.trans h'
    split
    · refine (makes_mark h₁.sound (h₁.stays.symbol howner) fun _ => by exact ⟨rfl, rfl, rfl, rfl, rfl⟩).bind
        fun _ b₂ h₂ => ?_
      exact hinside (h₁.trans h₂)
    · exact hinside h₁
  | exportsOf owner | membersOf owner =>
    unfold attach
    refine (makes_mark hb hscope.symbol fun _ => by exact ⟨rfl, rfl, rfl, rfl, rfl⟩).bind fun _ b₁ h₁ => ?_
    exact (makes_setParent h₁.sound (h₁.stays.symbol hm) (h₁.stays.symbol hscope.symbol)).mono
      fun _ _ h₂ => h₁.trans h₂

/-- The file of a symbol is that of its first declaration. -/
theorem reads_fileOf (hb : b.Sound) (hm : b.Hosts m) : Reads b (fileOf m) fun f => b.program.domain.file f ∧
    ∀ data n, b.program.symbols.get? m.index = some data → n ∈ data.declarations.head? →
      ∃ node, b.program.nodes.get? n.index = some node ∧ node.file = f := by
  unfold fileOf
  refine .look (Program.meets_symbol hm.symbol) fun data hdata => ?_
  split
  · next n rest hdeclarations =>
    obtain ⟨node, hnode, -⟩ := (hb.program.symbol hdata).declarations n (by simp [hdeclarations])
    refine .look (Program.meets_node (Arena.lt_size hnode)) fun node' hnode' => ?_
    refine .pure ⟨rfl, hb.program.file_of_node hnode', fun data' n' hdata' hn' => ?_⟩
    obtain rfl := Option.some.inj (hdata.symm.trans hdata')
    obtain rfl : n = n' := by simpa [hdeclarations] using hn'
    exact ⟨node', hnode', rfl⟩
  · next hdeclarations =>
    refine .pure ⟨rfl, hm.file, fun data' n' hdata' hn' => ?_⟩
    obtain rfl := Option.some.inj (hdata.symm.trans hdata')
    simp [hdeclarations] at hn'

theorem reads_placeOf (hb : b.Sound) (hscope : scope.IsKnown b) :
    Reads b (placeOf scope) fun place => place.IsGood b := by
  unfold placeOf
  have hfirst {owner : SymbolId} (howner : b.Hosts owner) :
      Reads b (do return (← (← program).symbol owner).declarations.head?) fun parent =>
        ∃ data, b.program.symbols.get? owner.index = some data ∧ parent = data.declarations.head? :=
    .look (Program.meets_symbol howner.symbol) fun data hdata => .pure ⟨rfl, data, hdata, rfl⟩
  cases scope with
  | file f =>
    have hnode : Reads b (scopeNode (.file f)) fun parent =>
        ∀ n ∈ parent, ∃ node, b.program.nodes.get? n.index = some node ∧ node.file = f := by
      refine .look (Program.meets_file hscope) fun data hdata => .pure ⟨rfl, fun n hn => ?_⟩
      obtain rfl := Option.some.inj hn
      exact (hb.program.file hdata).node
    exact hnode.bind fun parent hparent => .pure ⟨rfl, hscope, hparent⟩
  | exportsOf owner | membersOf owner =>
    refine (reads_fileOf hb hscope).bind fun f ⟨hf, hfile⟩ => (hfirst hscope).bind fun parent hparent => ?_
    obtain ⟨data, hdata, rfl⟩ := hparent
    exact .pure ⟨rfl, hf, fun n hn => hfile data n hdata hn⟩

theorem reads_isInterface (hm : b.program.domain.symbol m) :
    Reads b (isInterface m) fun contract => contract = b.program.isContract m := by
  unfold isInterface
  refine .look (Program.meets_symbol hm) fun data hdata => .pure ⟨rfl, ?_⟩
  rw [Program.isContract, Program.symbolData_eq hdata]

/-- A symbol is listed when its declarations are written. -/
theorem makes_listed {new : SymbolId → List (SymbolId × String)} (h : b₀.Extends b (new m)) (hscope : scope.IsKnown b₀)
    (hm : b.program.domain.symbol m) :
    Makes b (do
      attach scope m
      return m) fun m b' => b₀.Extends b' (new m) ∧ b'.Hosts m := by
  have hscope := hscope.mono h.stays
  refine (makes_attach h.sound hscope hm).bind fun _ b' h' => .pure ⟨h.trans_nil h', ?_⟩
  exact (hscope.hosts hm).mono h'.stays

/-- The end of most declarations: the symbol is declared at its node and listed. -/
theorem makes_declareListed (hn : b₀.Pending b n file code) (hscope : scope.IsKnown b₀)
    (hm : b.program.domain.symbol m) :
    Makes b (do
      declare m n
      attach scope m
      return m) fun m b' => b₀.Extends b' [(m, code)] ∧ b'.Hosts m :=
  Makes.bind (makes_declare hn hm) fun _ _ h => makes_listed h.1 hscope (h.2.symbol hm)

end

end Build

end ApiDoc
