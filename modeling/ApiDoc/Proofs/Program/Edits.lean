import ApiDoc.Proofs.Program.Outline
import Mathlib.Logic.Relation

/-!
# What building does to a program

However a declaration is made, the tables of a program change by a few kinds of edits (`Edit`): an item is added at
the end of a table, an item is changed in a way that matters to nobody, and the symbols and nodes that were made for a
declaration are used for it.  Those are at hand meanwhile (`Stock`): a symbol is loose until it is listed, and a node
may be declared once.

Every step of building is a sequence of edits (`BuildStep.keeps_run`), so what building keeps is to be seen from one
edit at a time.  Only three steps touch what decides the values of enums: adding an enum member, telling its value, and
adding a symbol with any flags.  An edit may do so if it is *free*; the others are not.
-/

namespace ApiDoc

/-! ### Symbols, nodes and types that stay what they are -/

/-- The flags that a symbol has from the start or never. -/
def SymbolFlag.settled : List SymbolFlag := [.enumMember, .prototype, .function, .method, .constructor, .signature]

/-- The same symbol in the same role, however it is listed. -/
structure SymbolData.SameRole (data data' : SymbolData) : Prop where
  name : data'.name = data.name
  flags {f} : f ∈ SymbolFlag.settled → data'.flags.has f = data.flags.has f
  declarations : data'.declarations = data.declarations
  valueDeclaration : data'.valueDeclaration = data.valueDeclaration
  type : data'.type = data.type

/-- The same symbol, which may export one more. -/
def SymbolData.MayList (m : SymbolId) (data data' : SymbolData) : Prop :=
  data.SameRole data' ∧ (data'.exportsOf = data.exportsOf ∨ data'.exportsOf = data.exportsOf ++ [m])

/-- The same initialiser with the same value. -/
structure NodeData.SameInitializer (data data' : NodeData) : Prop where
  initializer : data'.initializer = data.initializer
  constant : data'.constant = data.constant

/-- The same type as far as literals go. -/
structure TypeData.SameLiteral (data data' : TypeData) : Prop where
  flags : data'.flags = data.flags
  literal : data'.literal = data.literal
  symbol : data'.symbol = data.symbol

theorem SymbolData.SameRole.refl (data : SymbolData) : data.SameRole data := ⟨rfl, fun _ => rfl, rfl, rfl, rfl⟩

theorem SymbolData.SameRole.trans {data data' data'' : SymbolData} (h : data.SameRole data')
    (h' : data'.SameRole data'') : data.SameRole data'' where
  name := h'.name.trans h.name
  flags hf := (h'.flags hf).trans (h.flags hf)
  declarations := h'.declarations.trans h.declarations
  valueDeclaration := h'.valueDeclaration.trans h.valueDeclaration
  type := h'.type.trans h.type

theorem NodeData.SameInitializer.refl (data : NodeData) : data.SameInitializer data := ⟨rfl, rfl⟩

theorem TypeData.SameLiteral.refl (data : TypeData) : data.SameLiteral data := ⟨rfl, rfl, rfl⟩

theorem TypeData.SameLiteral.trans {data data' data'' : TypeData} (h : data.SameLiteral data')
    (h' : data'.SameLiteral data'') : data.SameLiteral data'' :=
  ⟨h'.flags.trans h.flags, h'.literal.trans h.literal, h'.symbol.trans h.symbol⟩

theorem SymbolFlag.position_injective : Function.Injective fun f : SymbolFlag => Flag.position f :=
  Function.LeftInverse.injective SymbolFlag.ofNat_ctorIdx

/-- More flags leave the others alone. -/
theorem SymbolFlag.has_foldl_add_of_notMem {flags : SymbolFlags} {f : SymbolFlag} {gs : List SymbolFlag} (h : f ∉ gs) :
    (gs.foldl FlagSet.add flags).has f = flags.has f := by
  have hnone : (gs.any fun g => decide (Flag.position g = Flag.position f)) = false := by
    refine List.any_eq_false.2 fun g hg heq => h ?_
    rwa [← position_injective (of_decide_eq_true heq)]
  rw [FlagSet.has_foldl_add, hnone, Bool.or_false]

/-! ### Edits -/

/-- What is at hand while a declaration is made: symbols that are not listed yet, and nodes that declare nothing yet. -/
structure Stock where
  symbols : List SymbolId := []
  nodes : List NodeId := []

namespace Stock

/-- Nothing is at hand. -/
def none : Stock := {}

def withSymbol (k : Stock) (m : SymbolId) : Stock := { k with symbols := m :: k.symbols }

def withNode (k : Stock) (n : NodeId) : Stock := { k with nodes := n :: k.nodes }

/-- No symbol is at hand any more. -/
def spent (k : Stock) : Stock := { k with symbols := [] }

/-- A node is not at hand any more. -/
def without (k : Stock) (n : NodeId) : Stock := { k with nodes := k.nodes.erase n }

end Stock

/-- A program under construction, with what is at hand. -/
structure Draft where
  stock : Stock
  builder : Builder

/-- A symbol that is declared once more, perhaps with its value. -/
def SymbolData.withDeclaration (n : NodeId) (isValue : Bool) (data : SymbolData) : SymbolData :=
  { data with
    declarations := data.declarations ++ [n]
    valueDeclaration := if isValue then data.valueDeclaration.or (some n) else data.valueDeclaration }

namespace Program

/-- The program in which a node declares a symbol, perhaps its value. -/
def declared (p : Program) (m : SymbolId) (n : NodeId) (isValue : Bool) : Program :=
  { p with
    nodes := p.nodes.modify n.index fun data => { data with symbol := some m }
    symbols := p.symbols.modify m.index (.withDeclaration n isValue) }

theorem outline_declared {p : Program} {m : SymbolId} {n : NodeId} {symbol : SymbolData} {node : NodeData}
    (hsymbol : p.symbols.get? m.index = some symbol) (hnode : p.nodes.get? n.index = some node) (isValue : Bool) :
    (p.declared m n isValue).outline = p.outline.changeNode n fun _ => some m := by
  let named : Program := { p with nodes := p.nodes.modify n.index fun data => { data with symbol := some m } }
  have hnamed : named.outline = p.outline.changeNode n fun _ => some m := outline_modifyNode hnode rfl
  have hsame : (p.declared m n isValue).outline = named.outline.changeSymbol m id :=
    outline_modifySymbol (p := named) hsymbol rfl
  rw [hsame, Outline.changeSymbol_id, hnamed]

/-- A symbol is listed at a place that belongs to `owner`, and nothing else happens. -/
structure Places (p p' : Program) (m owner : SymbolId) : Prop where
  lists : p.outline.Lists p'.outline m owner
  symbols (i) : Option.Rel (SymbolData.MayList m) (p.symbols.get? i) (p'.symbols.get? i)
  types : p'.types = p.types
  nodes : p'.nodes = p.nodes

end Program

/-- The builder with its program changed. -/
def Builder.update (b : Builder) (f : Program → Program) : Builder := { b with program := f b.program }

/-- One change to a program under construction.  One that is not free leaves alone what enums are numbered by. -/
inductive Edit (free : Prop) : Draft → Draft → Prop
  /-- What is at hand need not be used. -/
  | spend {k k' : Stock} {b} (hsymbols : k'.symbols ⊆ k.symbols) (hnodes : k'.nodes.Sublist k.nodes) :
      Edit free ⟨k, b⟩ ⟨k', b⟩
  /-- Something changes beside the tables of symbols, types, nodes and files. -/
  | aside {k} {b b' : Builder} (hsymbols : b'.program.symbols = b.program.symbols)
      (htypes : b'.program.types = b.program.types) (hnodes : b'.program.nodes = b.program.nodes)
      (hfiles : b'.program.files = b.program.files) (hnumberings : b'.numberings = b.numberings) :
      Edit free ⟨k, b⟩ ⟨k, b'⟩
  /-- An enum is numbered on. -/
  | number {k b numberings} (hfree : free) : Edit free ⟨k, b⟩ ⟨k, { b with numberings }⟩
  /-- Something is said about a file. -/
  | file {k b i} {change : FileData → FileData} (h : ∀ data, (change data).outline = data.outline) :
      Edit free ⟨k, b⟩ ⟨k, b.update fun p => { p with files := p.files.modify i change }⟩
  /-- A new file, with its node and symbol. -/
  | newFile {k b node symbol isValue} {m : SymbolId} {n : NodeId} {data : FileData}
      (hm : m ∈ k.symbols) (hn : n ∈ k.nodes)
      (hsymbol : b.program.symbols.get? m.index = some symbol) (hnode : b.program.nodes.get? n.index = some node)
      (h : data.outline = ⟨n, m, []⟩) : Edit free ⟨k, b⟩ ⟨.none, b.update fun p =>
        { p.declared m n isValue with files := (p.declared m n isValue).files.push data }⟩
  /-- A new symbol. -/
  | newSymbol {k b name} {flags : List SymbolFlag} (h : ¬ free → .enumMember ∉ flags) : Edit free ⟨k, b⟩
      ⟨k.withSymbol ⟨b.program.symbols.size⟩, b.update fun p =>
        { p with symbols := p.symbols.push { name, flags := .of flags } }⟩
  /-- A new type. -/
  | newType {k b data} : Edit free ⟨k, b⟩ ⟨k, b.update fun p => { p with types := p.types.push data }⟩
  /-- A new node. -/
  | newNode {k b} {data : NodeData} (h : data.symbol = none) : Edit free ⟨k, b⟩
      ⟨k.withNode ⟨b.program.nodes.size⟩, b.update fun p => { p with nodes := p.nodes.push data }⟩
  /-- Something is said about a symbol. -/
  | symbol {k b data} {m : SymbolId} {change : SymbolData → SymbolData}
      (hm : b.program.symbols.get? m.index = some data) (houtline : ∀ data, (change data).outline = data.outline)
      (hrole : ∀ data : SymbolData, data.SameRole (change data)) :
      Edit free ⟨k, b⟩ ⟨k, b.update fun p => { p with symbols := p.symbols.modify m.index change }⟩
  /-- Anything is said about a new symbol, its name apart. -/
  | loose {k b data} {m : SymbolId} {change : SymbolData → SymbolData} (hm : m ∈ k.symbols)
      (hdata : b.program.symbols.get? m.index = some data)
      (houtline : ∀ data, data.parent = none → (change data).outline = data.outline)
      (hdeclarations : ∀ data, (change data).declarations = data.declarations)
      (h : ¬ free → ∀ data, data.flags.has .enumMember = false → (change data).flags.has .enumMember = false) :
      Edit free ⟨k, b⟩ ⟨k, b.update fun p => { p with symbols := p.symbols.modify m.index change }⟩
  /-- Something is said about a type. -/
  | type {k b} {t : TypeId} {change : TypeData → TypeData}
      (h : ¬ free → ∀ data : TypeData, data.SameLiteral (change data)) :
      Edit free ⟨k, b⟩ ⟨k, b.update fun p => { p with types := p.types.modify t.index change }⟩
  /-- Something is said about a node. -/
  | node {k b data} {n : NodeId} {change : NodeData → NodeData} (hn : b.program.nodes.get? n.index = some data)
      (hsymbol : ∀ data, (change data).symbol = data.symbol)
      (h : ¬ free → ∀ data : NodeData, data.SameInitializer (change data)) :
      Edit free ⟨k, b⟩ ⟨k, b.update fun p => { p with nodes := p.nodes.modify n.index change }⟩
  /-- A node becomes a declaration. -/
  | declare {k b node symbol isValue} {m : SymbolId} {n : NodeId} (hn : n ∈ k.nodes)
      (hsymbol : b.program.symbols.get? m.index = some symbol) (hnode : b.program.nodes.get? n.index = some node) :
      Edit free ⟨k, b⟩ ⟨k.without n, b.update (·.declared m n isValue)⟩
  /-- A symbol is listed. -/
  | place {k b b'} {m owner : SymbolId} (hm : m ∈ k.symbols) (h : b.program.Places b'.program m owner)
      (hnumberings : b'.numberings = b.numberings) : Edit free ⟨k, b⟩ ⟨k.spent, b'⟩

/-- Any number of changes. -/
abbrev Edits (free : Prop) : Draft → Draft → Prop := Relation.ReflTransGen (Edit free)

namespace Build

variable {α β : Type} {free : Prop} {k : Stock}

/-! ### Steps from one state -/

section

variable {fail : Error → Prop} {b : Builder} {P : α × Builder → Prop} {Q : β × Builder → Prop}

theorem meets_bind {x : Build α} {f : α → Build β} (hx : Meets fail (x.run b) P)
    (hf : ∀ a b', P (a, b') → Meets fail ((f a).run b') Q) : Meets fail ((x >>= f).run b) Q := by
  rw [StateT.run_bind]
  exact hx.bind fun r _ hr => hf r.1 r.2 hr

/-- The program may be looked at. -/
theorem meets_program {f : Program → Build β} (hf : Meets fail ((f b.program).run b) Q) :
    Meets fail ((program >>= f).run b) Q := hf

theorem meets_ask {x : Answer α} {f : α → Build β} (hfail : ∀ e, fail e)
    (hf : ∀ a, x = .ok a → Meets fail ((f a).run b) Q) : Meets fail ((liftM x >>= f).run b) Q := by
  cases x with
  | ok a => exact hf a rfl
  | error e => exact hfail e

end

/-! ### Steps from any state -/

/-- A step that edits the program, from what is at hand before it to what is at hand after it. -/
def Keeps (free : Prop) (k : Stock) (x : Build α) (post : α → Stock) : Prop :=
  ∀ b, Meets (fun _ => True) (x.run b) fun r => Edits free ⟨k, b⟩ ⟨post r.1, r.2⟩

namespace Keeps

variable {x : Build α} {f : α → Build β} {post : α → Stock} {post' : β → Stock}

theorem pure (a : α) : Keeps free k (Pure.pure a : Build α) fun _ => k := fun _ => Relation.ReflTransGen.refl

theorem bind (hx : Keeps free k x post) (hf : ∀ a, Keeps free (post a) (f a) post') : Keeps free k (x >>= f) post' :=
  fun b => meets_bind (hx b) fun a b' hb' => (hf a b').mono fun _ _ hr => hb'.trans hr

theorem assoc {γ : Type} {g : β → Build γ} {post'' : γ → Stock} (h : Keeps free k (x >>= f >>= g) post'') :
    Keeps free k (x >>= fun a => f a >>= g) post'' := by
  rwa [LawfulMonad.bind_assoc] at h

/-- What is at hand need not be used. -/
theorem mono {post'' : α → Stock} (hx : Keeps free k x post)
    (h : ∀ a, (post'' a).symbols ⊆ (post a).symbols ∧ (post'' a).nodes.Sublist (post a).nodes) :
    Keeps free k x post'' :=
  fun b => (hx b).mono fun r _ hr => hr.tail (.spend (h r.1).1 (h r.1).2)

theorem done (hx : Keeps free k x post) : Keeps free k x fun _ => .none :=
  hx.mono fun _ => ⟨List.nil_subset _, List.nil_sublist _⟩

theorem map (hx : Keeps free k x post) {g : α → β} : Keeps free k (do return g (← x)) fun _ => .none :=
  hx.bind fun _ => (Keeps.pure _).done

theorem program {f : Program → Build β} (hf : ∀ p, Keeps free k (f p) post') :
    Keeps free k (Build.program >>= f) post' :=
  fun b => meets_program (hf b.program b)

theorem get {f : Builder → Build β} (hf : ∀ b, Keeps free k (f b) post') :
    Keeps free k (MonadState.get >>= f) post' :=
  fun b => hf b b

theorem ask {x : Answer α} (hf : ∀ a, Keeps free k (f a) post') : Keeps free k (liftM x >>= f) post' :=
  fun b => meets_ask (fun _ => trivial) fun a _ => hf a b

theorem mapM {f : α → Build β} {as : List α} (hf : ∀ a, Keeps free k (f a) fun _ => k) :
    Keeps free k (as.mapM f) fun _ => k := by
  induction as with
  | nil => exact .pure _
  | cons a as ih =>
    rw [List.mapM_cons]
    exact (hf a).bind fun _ => ih.bind fun _ => .pure _

theorem forIn {f : α → Unit → Build (ForInStep Unit)} {as : List α}
    (hf : ∀ a u, Keeps free k (f a u) fun _ => k) : Keeps free k (ForIn.forIn as () f) fun _ => k := by
  induction as with
  | nil => exact .pure _
  | cons a as ih =>
    rw [List.forIn_cons]
    refine (hf a ()).bind fun step => ?_
    cases step with
    | done => exact .pure _
    | yield => exact ih

end Keeps

/-! ### Tables -/

/-- Changing what was found to be there. -/
theorem meets_change (look : Program → Answer α) (change : Program → Program) (b : Builder) :
    Meets (fun _ => True) ((do let _ ← look (← program); modifyProgram change : Build Unit).run b)
      fun r => (∃ a, look b.program = .ok a) ∧ r.2 = b.update change := by
  show Meets _ ((liftM (look b.program) >>= fun _ => modifyProgram change : Build Unit).run b) _
  cases look b.program with
  | ok a => exact ⟨⟨a, rfl⟩, rfl⟩
  | error e => trivial

theorem meets_modifySymbol (m : SymbolId) (change : SymbolData → SymbolData) (b : Builder) :
    Meets (fun _ => True) ((modifySymbol m change).run b) fun r =>
      (∃ data, b.program.symbols.get? m.index = some data) ∧
        r.2 = b.update fun p => { p with symbols := p.symbols.modify m.index change } :=
  (meets_change (·.symbol m) _ b).mono fun _ _ hr =>
    ⟨hr.1.imp fun _ hdata => Error.orOutOfBounds_eq_ok_iff.1 hdata, hr.2⟩

theorem meets_modifyNode (n : NodeId) (change : NodeData → NodeData) (b : Builder) :
    Meets (fun _ => True) ((modifyNode n change).run b) fun r =>
      (∃ data, b.program.nodes.get? n.index = some data) ∧
        r.2 = b.update fun p => { p with nodes := p.nodes.modify n.index change } :=
  (meets_change (·.node n) _ b).mono fun _ _ hr =>
    ⟨hr.1.imp fun _ hdata => Error.orOutOfBounds_eq_ok_iff.1 hdata, hr.2⟩

theorem meets_modifyFile (file : FileId) (change : FileData → FileData) (b : Builder) :
    Meets (fun _ => True) ((modifyFile file change).run b) fun r =>
      r.2 = b.update fun p => { p with files := p.files.modify file.index change } :=
  (meets_change (·.file file) _ b).mono fun _ _ hr => hr.2

theorem meets_modifyType (t : TypeId) (change : TypeData → TypeData) (b : Builder) :
    Meets (fun _ => True) ((modifyType t change).run b) fun r =>
      r.2 = b.update fun p => { p with types := p.types.modify t.index change } :=
  (meets_change (·.type t) _ b).mono fun _ _ hr => hr.2

theorem keeps_modifySymbol (m : SymbolId) {change : SymbolData → SymbolData}
    (houtline : ∀ data, (change data).outline = data.outline)
    (hrole : ∀ data : SymbolData, data.SameRole (change data)) :
    Keeps free k (modifySymbol m change) fun _ => k := by
  intro b
  refine (meets_modifySymbol m change b).mono fun r _ ⟨⟨data, hdata⟩, hr⟩ => ?_
  rw [hr]
  exact .single (.symbol hdata houtline hrole)

/-- A symbol may become something else as well. -/
theorem keeps_addFlags (m : SymbolId) (flags : List SymbolFlag) (hflags : ∀ f ∈ flags, f ∉ SymbolFlag.settled) :
    Keeps free k (modifySymbol m fun s => { s with flags := flags.foldl FlagSet.add s.flags }) fun _ => k :=
  keeps_modifySymbol m (fun _ => rfl) fun _ =>
    ⟨rfl, fun hf => SymbolFlag.has_foldl_add_of_notMem fun hmem => hflags _ hmem hf, rfl, rfl, rfl⟩

/-- Anything may be said about a new symbol. -/
theorem keeps_describe {m : SymbolId} (hm : m ∈ k.symbols) {change : SymbolData → SymbolData}
    (houtline : ∀ data, (change data).outline = data.outline)
    (hdeclarations : ∀ data, (change data).declarations = data.declarations)
    (hflags : ¬ free → ∀ data, data.flags.has .enumMember = false → (change data).flags.has .enumMember = false) :
    Keeps free k (modifySymbol m change) fun _ => k := by
  intro b
  refine (meets_modifySymbol m change b).mono fun r _ ⟨⟨data, hdata⟩, hr⟩ => ?_
  rw [hr]
  exact .single (.loose hm hdata (fun data _ => houtline data) hdeclarations hflags)

theorem keeps_typeSymbol {m : SymbolId} (hm : m ∈ k.symbols) (type : TypeId) :
    Keeps free k (modifySymbol m fun s => { s with type := some type }) fun _ => k :=
  keeps_describe hm (fun _ => rfl) (fun _ => rfl) fun _ _ h => h

theorem keeps_modifyNode (n : NodeId) {change : NodeData → NodeData}
    (hsymbol : ∀ data, (change data).symbol = data.symbol)
    (hsame : ¬ free → ∀ data : NodeData, data.SameInitializer (change data)) :
    Keeps free k (modifyNode n change) fun _ => k := by
  intro b
  refine (meets_modifyNode n change b).mono fun r _ ⟨⟨data, hdata⟩, hr⟩ => ?_
  rw [hr]
  exact .single (.node hdata hsymbol hsame)

theorem keeps_modifyFile (file : FileId) {change : FileData → FileData}
    (h : ∀ data, (change data).outline = data.outline) : Keeps free k (modifyFile file change) fun _ => k := by
  intro b
  refine (meets_modifyFile file change b).mono fun r _ hr => ?_
  rw [hr]
  exact .single (.file h)

theorem keeps_modifyType (t : TypeId) {change : TypeData → TypeData}
    (h : ¬ free → ∀ data : TypeData, data.SameLiteral (change data)) :
    Keeps free k (modifyType t change) fun _ => k := by
  intro b
  refine (meets_modifyType t change b).mono fun r _ hr => ?_
  rw [hr]
  exact .single (.type h)

theorem keeps_modifySignature (sig : SignatureId) (change : SignatureData → SignatureData) :
    Keeps free k (modifySignature sig change) fun _ => k := by
  intro b
  refine (meets_change (·.signature sig) _ b).mono fun r _ hr => ?_
  rw [hr.2]
  exact .single (.aside rfl rfl rfl rfl rfl)

theorem keeps_addSymbol (name : String) {flags : List SymbolFlag} (h : ¬ free → .enumMember ∉ flags) :
    Keeps free k (addSymbol name flags) k.withSymbol :=
  fun _ => .single (.newSymbol h)

theorem keeps_addType (data : TypeData) : Keeps free k (addType data) fun _ => k := fun _ => .single .newType

theorem keeps_addSignature (data : SignatureData) : Keeps free k (addSignature data) fun _ => k :=
  fun _ => .single (.aside rfl rfl rfl rfl rfl)

theorem keeps_addNode {data : NodeData} (h : data.symbol = none) : Keeps free k (addNode data) k.withNode :=
  fun _ => .single (.newNode h)

/-! ### Text and places -/

theorem keeps_pushText (file : FileId) (doc code : String) : Keeps free k (pushText file doc code) fun _ => k := by
  unfold pushText
  refine .program fun _ => .ask fun _ => ?_
  exact (keeps_modifyFile file fun _ => by rfl).bind fun _ => .pure _

theorem meets_declare (m : SymbolId) (n : NodeId) (b : Builder) :
    Meets (fun _ => True) ((declare m n).run b) fun r => ∃ symbol node, b.program.symbols.get? m.index = some symbol ∧
      b.program.nodes.get? n.index = some node ∧
      r.2 = b.update (·.declared m n !valueless.contains node.kind) := by
  unfold declare
  refine meets_program (meets_ask (fun _ => trivial) fun node hnode => ?_)
  refine meets_bind (meets_modifyNode n _ b) fun _ b' ⟨_, hb'⟩ => ?_
  refine (meets_modifySymbol m _ b').mono fun r _ ⟨⟨symbol, hsymbol⟩, hr⟩ => ?_
  subst hb'
  exact ⟨symbol, node, hsymbol, Error.orOutOfBounds_eq_ok_iff.1 hnode, hr⟩

theorem keeps_declare (m : SymbolId) {n : NodeId} (hn : n ∈ k.nodes) :
    Keeps free k (declare m n) fun _ => k.without n := by
  intro b
  refine (meets_declare m n b).mono fun r _ ⟨symbol, node, hsymbol, hnode, hr⟩ => ?_
  rw [hr]
  exact .single (.declare hn hsymbol hnode)

/-- A symbol is told where it is. -/
theorem rel_inside {a : Arena SymbolData} {m : SymbolId} {inside : SymbolData → SymbolData}
    (hinside : ∀ data : SymbolData, data.SameRole (inside data) ∧ (inside data).exportsOf = data.exportsOf) (i : Nat) :
    Option.Rel (SymbolData.MayList m) (a.get? i) ((a.modify m.index inside).get? i) := by
  rw [Arena.get?_modify]
  cases a.get? i with
  | none => split <;> exact .none
  | some data =>
    split
    · exact .some ⟨(hinside data).1, .inl (hinside data).2⟩
    · exact .some ⟨.refl data, .inl rfl⟩

/-- One symbol may list another while that one is told where it is. -/
theorem rel_attach {a : Arena SymbolData} {m owner : SymbolId} {change inside : SymbolData → SymbolData}
    (hchange : ∀ data : SymbolData, data.MayList m (change data))
    (hinside : ∀ data, data.SameRole (inside data) ∧ (inside data).exportsOf = data.exportsOf) (i : Nat) :
    Option.Rel (SymbolData.MayList m) (a.get? i) (((a.modify owner.index change).modify m.index inside).get? i) := by
  rw [Arena.get?_modify, Arena.get?_modify]
  cases a.get? i with
  | none => split <;> split <;> exact .none
  | some data =>
    split <;> split
    · obtain ⟨hrole, hexports⟩ := hinside (change data)
      exact .some ⟨(hchange data).1.trans hrole, by simpa only [hexports] using (hchange data).2⟩
    · exact .some ⟨(hinside data).1, .inl (hinside data).2⟩
    · exact .some (hchange data)
    · exact .some ⟨.refl data, .inl rfl⟩

/-- Listing a symbol in a table and telling it so. -/
theorem keeps_attachTo {owner m : SymbolId} (hm : m ∈ k.symbols) {change : SymbolData → SymbolData}
    {f : SymbolOutline → SymbolOutline} (hchange : ∀ data, (change data).outline = f data.outline)
    (hlist : ∀ data : SymbolData, data.MayList m (change data)) (hparent : ∀ s, (f s).parent = s.parent)
    (hlisted : ∀ s, (f s).listed.Perm (m :: s.listed)) :
    Keeps free k (do
      modifySymbol owner change
      modifySymbol m fun s => { s with parent := some owner }) fun _ => k.spent := by
  intro b
  refine meets_bind (meets_modifySymbol owner change b) fun _ b₁ ⟨⟨_, howner⟩, (hb₁ : b₁ = _)⟩ => ?_
  refine (meets_modifySymbol m _ b₁).mono fun r _ ⟨⟨_, hm'⟩, hr⟩ => ?_
  have hexported : b₁.program.outline = b.program.outline.changeSymbol owner f :=
    hb₁ ▸ Program.outline_modifySymbol howner (hchange _)
  have hplaced : r.2.program.outline = b₁.program.outline.changeSymbol m (.inside owner) :=
    hr ▸ Program.outline_modifySymbol hm' rfl
  have hplaces : b.program.Places r.2.program m owner := by
    refine ⟨?_, ?_, by rw [hr, hb₁]; rfl, by rw [hr, hb₁]; rfl⟩
    · rw [hplaced, hexported]
      exact Outline.lists_changeSymbol _ m owner hparent fun s => .inr (hlisted s)
    · rw [hr, hb₁]
      exact rel_attach hlist fun data => ⟨⟨rfl, fun _ => rfl, rfl, rfl, rfl⟩, rfl⟩
  exact .single (.place hm hplaces (by rw [hr, hb₁]; rfl))

/-- Listing a loose symbol. -/
theorem keeps_attach (scope : Scope) {m : SymbolId} (hm : m ∈ k.symbols) :
    Keeps free k (attach scope m) fun _ => k.spent := by
  have hinside (owner : SymbolId) (data : SymbolData) :
      data.SameRole { data with parent := some owner } ∧
        ({ data with parent := some owner } : SymbolData).exportsOf = data.exportsOf :=
    ⟨⟨rfl, fun _ => rfl, rfl, rfl, rfl⟩, rfl⟩
  have hexport (data : SymbolData) : data.MayList m { data with exportsOf := data.exportsOf ++ [m] } :=
    ⟨⟨rfl, fun _ => rfl, rfl, rfl, rfl⟩, .inr rfl⟩
  cases scope with
  | file file =>
    intro b
    refine meets_program (meets_ask (fun _ => trivial) fun data hdata => ?_)
    have hfile := Program.outline_file hdata
    refine meets_bind (meets_modifyFile file _ b) fun _ b₁ (hb₁ : b₁ = _) => ?_
    have hlocal : b₁.program.outline = b.program.outline.changeFile file.index (.withLocal m) :=
      hb₁ ▸ Program.outline_modifyFile b.program file.index fun _ => rfl
    -- the symbol of a module exports it as well
    split
    · refine meets_bind (meets_modifySymbol data.symbol _ b₁) fun _ b₂ ⟨⟨_, howner⟩, (hb₂ : b₂ = _)⟩ => ?_
      refine (meets_modifySymbol m _ b₂).mono fun r _ ⟨⟨_, hm'⟩, hr⟩ => ?_
      have hexported : b₂.program.outline = b₁.program.outline.changeSymbol data.symbol (.withExport m) :=
        hb₂ ▸ Program.outline_modifySymbol howner rfl
      have hplaced : r.2.program.outline = b₂.program.outline.changeSymbol m (.inside data.symbol) :=
        hr ▸ Program.outline_modifySymbol hm' rfl
      have hlists := Outline.lists_changeSymbol b.program.outline m data.symbol (f := .withExport m) (fun _ => rfl)
        fun s => .inr (s.listed_withExport m)
      have hboth := Outline.Lists.withLocal hfile hlists rfl
      have hplaces : b.program.Places r.2.program m data.symbol := by
        refine ⟨?_, ?_, by rw [hr, hb₂, hb₁]; rfl, by rw [hr, hb₂, hb₁]; rfl⟩
        · rw [hplaced, hexported, hlocal]
          exact hboth
        · rw [hr, hb₂, hb₁]
          exact rel_attach hexport (hinside _)
      exact .single (.place hm hplaces (by rw [hr, hb₂, hb₁]; rfl))
    · refine (meets_modifySymbol m _ b₁).mono fun r _ ⟨⟨_, hm'⟩, hr⟩ => ?_
      have hplaced : r.2.program.outline = b₁.program.outline.changeSymbol m (.inside data.symbol) :=
        hr ▸ Program.outline_modifySymbol hm' rfl
      have hlists := Outline.lists_changeSymbol b.program.outline m data.symbol (f := id) (fun _ => rfl)
        fun s => .inl rfl
      rw [Outline.changeSymbol_id] at hlists
      have hboth := Outline.Lists.withLocal hfile hlists rfl
      have hplaces : b.program.Places r.2.program m data.symbol := by
        refine ⟨?_, ?_, by rw [hr, hb₁]; rfl, by rw [hr, hb₁]; rfl⟩
        · rw [hplaced, hlocal]
          exact hboth
        · rw [hr, hb₁]
          exact rel_inside (hinside _)
      exact .single (.place hm hplaces (by rw [hr, hb₁]; rfl))
  | exportsOf owner =>
    exact keeps_attachTo hm (f := .withExport m) (fun _ => rfl) hexport (fun _ => rfl)
      (SymbolOutline.listed_withExport m)
  | membersOf owner =>
    exact keeps_attachTo hm (f := .withMember m) (fun _ => rfl)
      (fun data => ⟨⟨rfl, fun _ => rfl, rfl, rfl, rfl⟩, .inl rfl⟩) (fun _ => rfl) (SymbolOutline.listed_withMember m)

theorem keeps_fileOf (m : SymbolId) : Keeps free k (fileOf m) fun _ => k := by
  unfold fileOf
  refine .program fun _ => .ask fun _ => ?_
  split
  · exact .program fun _ => .ask fun _ => .pure _
  · exact .pure _

theorem keeps_placeOf (scope : Scope) : Keeps free k (placeOf scope) fun _ => k := by
  unfold placeOf
  have hfile : Keeps free k (scopeFile scope) fun _ => k := by
    cases scope with
    | file file => exact .pure _
    | exportsOf owner | membersOf owner => exact keeps_fileOf owner
  have hnode : Keeps free k (scopeNode scope) fun _ => k := by
    cases scope with
    | file file => exact .program fun _ => .ask fun _ => .pure _
    | exportsOf owner | membersOf owner => exact .program fun _ => .ask fun _ => .pure _
  exact hfile.bind fun _ => hnode.bind fun _ => .pure _

theorem keeps_isInterface (m : SymbolId) : Keeps free k (isInterface m) fun _ => k := by
  unfold isInterface
  exact .program fun _ => .ask fun _ => .pure _

theorem keeps_writeDeclaration (place : Place) (kind : SyntaxKind) (doc code : String) (name : Option String) :
    Keeps free k (writeDeclaration place kind doc code name) k.withNode := by
  unfold writeDeclaration
  exact (keeps_pushText _ _ _).bind fun _ => keeps_addNode (by rfl)

/-! ### Files -/

theorem keeps_addFile (name : String) (isModule : Bool) : Keeps free k (addFile name isModule) fun _ => .none := by
  unfold addFile
  refine .program fun _ => (keeps_addSymbol _ fun _ => by simp).bind fun m => ?_
  refine (keeps_addNode (by rfl)).bind fun n b => ?_
  refine meets_bind (meets_declare m n b) fun _ b' ⟨_, _, hsymbol, hnode, (hb' : b' = _)⟩ => ?_
  subst hb'
  exact .single (.newFile (by simp [Stock.withNode, Stock.withSymbol]) (by simp [Stock.withNode]) hsymbol hnode rfl)

theorem keeps_fileComment (file : FileId) (comment : String) : Keeps free k (fileComment file comment) fun _ => k :=
  keeps_modifyFile file fun _ => rfl

/-! ### Types and signatures -/

theorem keeps_intrinsic (name : String) : Keeps free k (intrinsic name) fun _ => k := by
  unfold intrinsic
  refine .get fun _ => ?_
  split
  · exact .pure _
  · exact (keeps_addType _).bind fun _ _ => .single (.aside rfl rfl rfl rfl rfl)

theorem keeps_tuple (elements : List TypeId) : Keeps free k (tuple elements) fun _ => k := by
  unfold tuple
  exact (keeps_addType _).bind fun _ => keeps_addType _

theorem keeps_typeReference (target : TypeId) (arguments : List TypeId) :
    Keeps free k (typeReference target arguments) fun _ => k := by
  unfold typeReference
  exact .program fun _ => .ask fun _ => keeps_addType _

theorem keeps_typeParameter (name : String) (isThis : Bool) :
    Keeps free k (typeParameter name isThis) fun _ => .none := by
  unfold typeParameter
  exact (keeps_addSymbol _ fun _ => by simp).bind fun _ => (keeps_addType _).done

theorem keeps_anonymousType (sigs : List SignatureId) : Keeps free k (anonymousType sigs) fun _ => .none := by
  unfold anonymousType
  exact (keeps_addSymbol _ fun _ => by simp).bind fun _ => (keeps_addType _).done

/-- A symbol is not listed by being told what is around it. -/
theorem keeps_setParent {m : SymbolId} (hm : m ∈ k.symbols) (type parent) :
    Keeps free k (modifySymbol m fun s => { s with type, parent }) fun _ => k.spent := by
  intro b
  refine (meets_modifySymbol m _ b).mono fun r _ ⟨⟨data, hdata⟩, hr⟩ => ?_
  rw [hr]
  cases parent with
  | some owner =>
    -- the type is told first
    let typed := b.update fun p => { p with symbols := p.symbols.modify m.index fun s => { s with type } }
    have htyped : Edit free ⟨k, b⟩ ⟨k, typed⟩ :=
      .loose hm hdata (fun _ _ => rfl) (fun _ => rfl) fun _ _ h => h
    have hdata' : typed.program.symbols.get? m.index = some { data with type } := by
      simp [typed, Builder.update, Arena.get?_modify, hdata]
    have hlists := Outline.lists_changeSymbol typed.program.outline m owner (f := id) (fun _ => rfl) fun s => .inl rfl
    rw [Outline.changeSymbol_id] at hlists
    have hplaces : typed.program.Places (b.update fun p => { p with
        symbols := p.symbols.modify m.index fun s => { s with type, parent := some owner } }).program m owner := by
      have hsame : (b.update fun p => { p with
          symbols := p.symbols.modify m.index fun s => { s with type, parent := some owner } }).program =
          { typed.program with
            symbols := typed.program.symbols.modify m.index fun s => { s with parent := some owner } } := by
        simp [typed, Builder.update, Arena.modify_modify]
      rw [hsame]
      refine ⟨?_, rel_inside fun s => ⟨⟨rfl, fun _ => rfl, rfl, rfl, rfl⟩, rfl⟩, rfl, rfl⟩
      rw [Program.outline_modifySymbol hdata' (f := .inside owner) rfl]
      exact hlists
    exact (Relation.ReflTransGen.single htyped).tail (.place hm hplaces rfl)
  | none =>
    have htold : Edit free ⟨k, b⟩ ⟨k, b.update fun p =>
        { p with symbols := p.symbols.modify m.index fun s => { s with type, parent := none } }⟩ :=
      .loose hm hdata (fun s hs => by simp [SymbolData.outline, hs]) (fun _ => rfl) fun _ _ h => h
    exact (Relation.ReflTransGen.single htold).tail (.spend (List.nil_subset _) (.refl _))

theorem keeps_typeProperty (file : FileId) (object : TypeId) (doc name : String) (type : TypeId) :
    Keeps free k (typeProperty file object doc name type) fun _ => .none := by
  unfold typeProperty
  refine (keeps_pushText _ _ _).bind fun _ => (keeps_addNode (by rfl)).bind fun n => ?_
  refine (keeps_addSymbol _ fun _ => by simp).bind fun m => ?_
  refine .program fun _ => .ask fun _ => ?_
  refine (keeps_setParent (by simp [Stock.withSymbol]) _ _).bind fun _ => ?_
  refine (keeps_declare m (by simp [Stock.spent, Stock.withSymbol, Stock.withNode])).bind fun _ => ?_
  exact (keeps_modifyType _ fun _ _ => by exact ⟨rfl, rfl, rfl⟩).bind fun _ => (Keeps.pure _).done

/-- A symbol of a signature: it has a node of its own and is listed nowhere. -/
theorem keeps_declareUnlisted {data : NodeData} (hdata : data.symbol = none) (name : String) {flags : List SymbolFlag}
    (hflags : ¬ free → .enumMember ∉ flags) (type : TypeId) :
    Keeps free k (do
      let node ← addNode data
      let symbol ← addSymbol name flags
      modifySymbol symbol fun s => { s with type := some type }
      declare symbol node
      return symbol) fun _ => k := by
  refine (keeps_addNode hdata).bind fun n => (keeps_addSymbol _ hflags).bind fun m => ?_
  refine (keeps_typeSymbol (by simp [Stock.withSymbol]) type).bind fun _ => ?_
  refine (keeps_declare m (n := n) (by simp [Stock.withNode, Stock.withSymbol])).bind fun _ => ?_
  refine (Keeps.pure m).mono fun _ => ?_
  simp [Stock.withNode, Stock.withSymbol, Stock.without]

theorem keeps_signature (file : FileId) (spec : SignatureSpec) : Keeps free k (signature file spec) fun _ => k := by
  unfold signature
  have hparameter (p : ParamSpec) : Keeps free k (addParameter file p) fun _ => k :=
    keeps_declareUnlisted rfl _ (fun _ => by simp) _
  have hreceiver : Keeps free k (spec.thisType.mapM (addReceiver file)) fun _ => k := by
    cases spec.thisType with
    | none => exact .pure _
    | some type => exact (keeps_declareUnlisted rfl _ (fun _ => by simp) _).bind fun _ => .pure _
  exact (Keeps.mapM hparameter).bind fun _ => hreceiver.bind fun _ => keeps_addSignature _

theorem keeps_signatureDeclaration (place : Place) (kind : SyntaxKind) (doc code : String) (spec : SignatureSpec)
    (hasBody : Bool) (name : Option String) :
    Keeps free k (signatureDeclaration place kind doc code spec hasBody name) k.withNode := by
  unfold signatureDeclaration
  refine (keeps_writeDeclaration _ _ _ _ _).bind fun n => (keeps_signature _ _).bind fun sig => ?_
  refine (keeps_modifySignature _ _).bind fun _ => .program fun _ => .ask fun data => ?_
  refine Keeps.bind (Keeps.forIn fun param _ => .program fun _ => .ask fun _ => ?_) fun _ => ?_
  · split
    · exact (keeps_modifyNode _ (fun _ => by rfl) fun _ _ => by exact ⟨rfl, rfl⟩).bind fun _ => .pure _
    · exact .pure _
  · exact (keeps_modifyNode _ (fun _ => by rfl) fun _ _ => by exact ⟨rfl, rfl⟩).bind fun _ => .pure _

/-! ### Declarations -/

/-- The end of most declarations: the symbol is declared at its node and listed. -/
theorem keeps_declareListed (scope : Scope) {m : SymbolId} {n : NodeId} (hm : m ∈ k.symbols) (hn : n ∈ k.nodes)
    (a : α) :
    Keeps free k (do
      declare m n
      attach scope m
      return a) fun _ => .none :=
  (keeps_declare m hn).bind fun _ =>
    Keeps.bind (keeps_attach scope (k := k.without n) hm) fun _ => (Keeps.pure a).done

theorem keeps_variableStatement (scope : Scope) (doc keyword declaration : String) :
    Keeps free k (variableStatement scope doc keyword declaration) fun _ => k := by
  unfold variableStatement
  refine (keeps_placeOf scope).bind fun _ => (keeps_pushText _ _ _).bind fun _ => ?_
  refine (keeps_addNode (by rfl)).bind fun _ => (keeps_addNode (by rfl)).bind fun _ => (Keeps.pure _).mono fun _ => ?_
  simp [Stock.withNode]

theorem keeps_addVariable (scope : Scope) (doc keyword name : String) (type : TypeId) (initializer : Option String) :
    Keeps free k (addVariable scope doc keyword name type initializer) fun _ => .none := by
  unfold addVariable
  refine (keeps_variableStatement _ _ _ _).bind fun _ => .program fun _ => .ask fun _ => ?_
  refine (keeps_addNode (by rfl)).bind fun n => (keeps_addSymbol _ fun _ => by split <;> simp).bind fun m => ?_
  refine (keeps_typeSymbol (by simp [Stock.withSymbol]) _).bind fun _ => ?_
  exact keeps_declareListed scope (by simp [Stock.withSymbol]) (by simp [Stock.withSymbol, Stock.withNode]) m

theorem keeps_bindingElements (scope : Scope) (file : FileId) (pattern : NodeId) (offset : Nat)
    (bindings : List (String × TypeId)) :
    Keeps free k (bindingElements scope file pattern offset bindings) fun _ => .none := by
  induction bindings generalizing offset k with
  | nil => exact (Keeps.pure _).done
  | cons binding rest ih =>
    unfold bindingElements
    refine (keeps_addNode (by rfl)).bind fun n => (keeps_addSymbol _ fun _ => by simp).bind fun m => ?_
    refine (keeps_typeSymbol (by simp [Stock.withSymbol]) _).bind fun _ => ?_
    refine (keeps_declare m (n := n) (by simp [Stock.withSymbol, Stock.withNode])).bind fun _ => ?_
    refine (keeps_attach scope (by simp [Stock.withSymbol, Stock.without])).bind fun _ => ?_
    exact (ih _).bind fun _ => .pure _

theorem keeps_destructuredConst (scope : Scope) (doc : String) (bindings : List (String × TypeId))
    (initializer : String) : Keeps free k (destructuredConst scope doc bindings initializer) fun _ => .none := by
  unfold destructuredConst
  refine (keeps_variableStatement _ _ _ _).bind fun _ => .program fun _ => .ask fun _ => ?_
  exact (keeps_addNode (by rfl)).bind fun _ => (keeps_addNode (by rfl)).bind fun _ => keeps_bindingElements _ _ _ _ _

/-- One more declaration of a symbol. -/
theorem keeps_declareNew {x : Build NodeId} (hx : Keeps free k x k.withNode) (m : SymbolId) :
    Keeps free k (x >>= declare m) fun _ => k := by
  refine hx.bind fun n => (keeps_declare m (by simp [Stock.withNode])).mono fun _ => ?_
  simp [Stock.withNode, Stock.without]

theorem keeps_overloadedFunction (scope : Scope) (name : String)
    (declarations : List (String × SignatureSpec × Bool)) :
    Keeps free k (overloadedFunction scope name declarations) fun _ => .none := by
  unfold overloadedFunction
  refine (keeps_placeOf scope).bind fun place => (keeps_addSymbol _ fun _ => by simp).bind fun m => ?_
  refine Keeps.bind (Keeps.forIn fun a _ => ?_) fun _ => ?_
  · exact Keeps.assoc ((keeps_declareNew (keeps_signatureDeclaration _ _ _ _ _ _ _) m).bind fun _ => .pure _)
  · exact (keeps_attach scope (by simp [Stock.withSymbol])).bind fun _ => (Keeps.pure m).done

theorem keeps_classLike (scope : Scope) (doc name : String) (isClass : Bool) :
    Keeps free k (classLike scope doc name isClass) fun _ => .none := by
  unfold classLike
  refine (keeps_placeOf scope).bind fun place => (keeps_writeDeclaration _ _ _ _ _).bind fun n => ?_
  refine (keeps_addSymbol _ fun _ => by split <;> simp).bind fun m => (keeps_addType _).bind fun _ => ?_
  refine Keeps.bind (keeps_describe (by simp [Stock.withSymbol]) (fun _ => by rfl) (fun _ => by rfl)
    fun _ _ h => by exact h) fun _ => ?_
  exact keeps_declareListed scope (by simp [Stock.withSymbol]) (by simp [Stock.withSymbol, Stock.withNode]) m

/-- A class lists the marker of its prototype; here the symbol is told first and listed second. -/
theorem keeps_addClass (scope : Scope) (doc name : String) : Keeps free k (addClass scope doc name) fun _ => .none := by
  unfold addClass
  refine (keeps_classLike scope doc name true).bind fun owner => (keeps_addSymbol _ fun _ => by simp).bind fun m b => ?_
  refine meets_bind (meets_modifySymbol m _ b) fun _ b₁ ⟨⟨_, hm⟩, (hb₁ : b₁ = _)⟩ => ?_
  refine meets_bind (meets_modifySymbol owner _ b₁) fun _ b₂ ⟨⟨_, howner⟩, (hb₂ : b₂ = _)⟩ => ?_
  have hplaced : b₁.program.outline = b.program.outline.changeSymbol m (.inside owner) :=
    hb₁ ▸ Program.outline_modifySymbol hm rfl
  have hexported : b₂.program.outline = b₁.program.outline.changeSymbol owner (.withExport m) :=
    hb₂ ▸ Program.outline_modifySymbol howner rfl
  have hplaces : b.program.Places b₂.program m owner := by
    refine ⟨?_, ?_, by rw [hb₂, hb₁]; rfl, by rw [hb₂, hb₁]; rfl⟩
    · rw [hexported, hplaced, Outline.changeSymbol_comm _ _ _ fun _ => by rfl]
      exact Outline.lists_changeSymbol _ m owner (fun _ => rfl) fun s => .inr (s.listed_withExport m)
    · rw [hb₂, hb₁]
      show ∀ i, Option.Rel _ _ (((b.program.symbols.modify m.index _).modify owner.index _).get? i)
      rw [Arena.modify_comm _ _ _ fun _ => by rfl]
      exact rel_attach (fun s => ⟨⟨rfl, fun _ => rfl, rfl, rfl, rfl⟩, .inr rfl⟩)
        fun s => ⟨⟨rfl, fun _ => rfl, rfl, rfl, rfl⟩, rfl⟩
  exact (Relation.ReflTransGen.single (.place (by simp [Stock.withSymbol]) hplaces (by rw [hb₂, hb₁]; rfl))).tail
    (.spend (by simp [Stock.none]) (by simp [Stock.none]))

theorem keeps_declaredType (m : SymbolId) : Keeps free k (declaredType m) fun _ => k := by
  unfold declaredType
  exact .program fun _ => .ask fun _ => .pure _

theorem keeps_extend (m : SymbolId) (base : TypeId) : Keeps free k (extend m base) fun _ => k := by
  unfold extend
  refine (keeps_declaredType m).bind fun declared => ?_
  split
  · exact keeps_modifyType _ fun _ _ => by exact ⟨rfl, rfl, rfl⟩
  · exact .pure _

theorem keeps_implement (m : SymbolId) (type : TypeId) : Keeps free k (implement m type) fun _ => .none := by
  unfold implement
  refine .program fun _ => .ask fun _ => ?_
  split
  · refine .program fun _ => .ask fun _ => (keeps_addNode (by rfl)).bind fun _ => ?_
    exact (keeps_modifyNode _ (fun _ => by rfl) fun _ _ => by exact ⟨rfl, rfl⟩).done
  · exact (Keeps.pure _).done

theorem keeps_setModifiers (m : SymbolId) (modifiers : ModifierFlags) :
    Keeps free k (setModifiers m modifiers) fun _ => k := by
  unfold setModifiers
  refine .program fun _ => .ask fun _ => Keeps.bind (Keeps.forIn fun n _ => ?_) fun _ => .pure _
  exact (keeps_modifyNode _ (fun _ => by rfl) fun _ _ => by exact ⟨rfl, rfl⟩).bind fun _ => .pure _

theorem keeps_memberProperty (scope : Scope) (kind : SyntaxKind) (doc name : String) (type : TypeId) :
    Keeps free k (memberProperty scope kind doc name type) fun _ => .none := by
  unfold memberProperty
  refine (keeps_placeOf scope).bind fun place => (keeps_writeDeclaration _ _ _ _ _).bind fun n => ?_
  refine (keeps_addSymbol _ fun _ => by simp).bind fun m => ?_
  refine (keeps_typeSymbol (by simp [Stock.withSymbol]) _).bind fun _ => ?_
  exact keeps_declareListed scope (by simp [Stock.withSymbol]) (by simp [Stock.withSymbol, Stock.withNode]) m

theorem keeps_property (owner : SymbolId) (doc name : String) (type : TypeId) :
    Keeps free k (property owner doc name type) fun _ => .none := by
  unfold property
  exact (keeps_isInterface owner).bind fun _ => keeps_memberProperty _ _ _ _ _

theorem keeps_optionalProperty (owner : SymbolId) (doc name : String) (type : TypeId) :
    Keeps free k (optionalProperty owner doc name type) fun _ => .none := by
  unfold optionalProperty
  refine (keeps_property owner doc name type).bind fun m => (keeps_addFlags m [.optional] (by decide)).bind fun _ => ?_
  refine .program fun _ => .ask fun _ => Keeps.bind (Keeps.forIn fun n _ => ?_) fun _ => .pure _
  exact (keeps_modifyNode _ (fun _ => by rfl) fun _ _ => by exact ⟨rfl, rfl⟩).bind fun _ => .pure _

theorem keeps_staticProperty (owner : SymbolId) (doc name : String) (type : TypeId) :
    Keeps free k (staticProperty owner doc name type) fun _ => .none := by
  unfold staticProperty
  exact (keeps_memberProperty _ _ doc name type).bind fun m => (keeps_setModifiers m _).bind fun _ => .pure _

theorem keeps_overloadedMethod (owner : SymbolId) (name : String) (declarations : List (String × SignatureSpec)) :
    Keeps free k (overloadedMethod owner name declarations) fun _ => .none := by
  unfold overloadedMethod
  refine (keeps_isInterface owner).bind fun _ => (keeps_placeOf _).bind fun _ => ?_
  refine (keeps_addSymbol _ fun _ => by simp).bind fun m => ?_
  refine Keeps.bind (Keeps.forIn fun a _ => ?_) fun _ => ?_
  · exact Keeps.assoc ((keeps_declareNew (keeps_signatureDeclaration _ _ _ _ _ _ _) m).bind fun _ => .pure _)
  · exact (keeps_attach _ (by simp [Stock.withSymbol])).bind fun _ => (Keeps.pure m).done

theorem keeps_signatureMember (owner : SymbolId) {flag : SymbolFlag} (hflag : ¬ free → flag ≠ .enumMember)
    (name : String) (kind : SyntaxKind) (doc code : String) (spec : SignatureSpec) :
    Keeps free k (signatureMember owner flag name kind doc code spec) fun _ => .none := by
  unfold signatureMember
  refine (keeps_isInterface owner).bind fun _ => (keeps_placeOf _).bind fun _ => ?_
  refine (keeps_signatureDeclaration _ _ _ _ _ _ _).bind fun n => ?_
  refine (keeps_addSymbol _ fun hfree => by simpa using Ne.symm (hflag hfree)).bind fun m => ?_
  exact keeps_declareListed _ (by simp [Stock.withSymbol]) (by simp [Stock.withSymbol, Stock.withNode]) m

theorem keeps_accessor (owner : SymbolId) (name : String) (type : TypeId) (getterDoc : String)
    (setterDoc : Option String) : Keeps free k (accessor owner name type getterDoc setterDoc) fun _ => .none := by
  unfold accessor
  refine (keeps_placeOf _).bind fun _ => (keeps_addSymbol _ fun _ => by split <;> simp).bind fun m => ?_
  refine (keeps_typeSymbol (by simp [Stock.withSymbol]) _).bind fun _ => ?_
  have hattach : Keeps free (k.withSymbol m) (do attach (.membersOf owner) m; return m) fun _ => .none :=
    (keeps_attach _ (by simp [Stock.withSymbol])).bind fun _ => (Keeps.pure m).done
  refine Keeps.assoc ((keeps_declareNew (keeps_writeDeclaration _ _ _ _ _) m).bind fun _ => ?_)
  split
  · exact Keeps.assoc ((keeps_declareNew (keeps_writeDeclaration _ _ _ _ _) m).bind fun _ => hattach)
  · exact hattach

/-! ### Enums, namespaces and aliases -/

theorem keeps_enumeration (scope : Scope) (doc name : String) (isConst : Bool) :
    Keeps free k (enumeration scope doc name isConst) fun _ => .none := by
  unfold enumeration
  refine (keeps_placeOf scope).bind fun place => (keeps_writeDeclaration _ _ _ _ _).bind fun n => ?_
  refine (keeps_addSymbol _ fun _ => by split <;> simp).bind fun m => (keeps_addType _).bind fun _ => ?_
  refine Keeps.bind (keeps_describe (by simp [Stock.withSymbol]) (fun _ => by rfl) (fun _ => by rfl)
    fun _ _ h => by exact h) fun _ => ?_
  exact keeps_declareListed scope (by simp [Stock.withSymbol]) (by simp [Stock.withSymbol, Stock.withNode]) m

theorem keeps_numberMember (m : SymbolId) (name : String) (initializer : Option String) :
    Keeps True k (numberMember m name initializer) fun _ => k := fun _ => .single (.number trivial)

theorem keeps_enumMember (owner : SymbolId) (doc name : String) (initializer : Option String) :
    Keeps True k (enumMember owner doc name initializer) fun _ => .none := by
  unfold enumMember
  refine (keeps_placeOf _).bind fun place => (keeps_writeDeclaration _ _ _ _ _).bind fun n => ?_
  refine (keeps_modifyNode n (fun _ => by rfl) fun h => absurd trivial h).bind fun _ => ?_
  refine (keeps_addSymbol _ fun h => absurd trivial h).bind fun m => ?_
  refine (keeps_numberMember _ _ _).bind fun _ => (keeps_addType _).bind fun type => ?_
  refine (keeps_typeSymbol (by simp [Stock.withSymbol]) _).bind fun _ => ?_
  refine (keeps_declaredType owner).bind fun declared => ?_
  have hlist : Keeps True ((k.withNode n).withSymbol m) (do declare m n; attach (.exportsOf owner) m; return m)
      fun _ => .none :=
    keeps_declareListed _ (by simp [Stock.withSymbol]) (by simp [Stock.withSymbol, Stock.withNode]) m
  split
  · exact (keeps_modifyType _ fun h => absurd trivial h).bind fun _ => hlist
  · exact hlist

theorem keeps_setConstantValue (m : SymbolId) (value : ConstantValue) :
    Keeps True k (setConstantValue m value) fun _ => k := by
  unfold setConstantValue
  refine .program fun _ => .ask fun data => Keeps.bind (Keeps.forIn fun n _ => ?_) fun _ => ?_
  · exact (keeps_modifyNode _ (fun _ => by rfl) fun h => absurd trivial h).bind fun _ => .pure _
  · split
    · exact keeps_modifyType _ fun h => absurd trivial h
    · exact .pure _

theorem keeps_namespaceDeclaration (scope : Scope) (m : SymbolId) (doc : String) :
    Keeps free k (namespaceDeclaration scope m doc) fun _ => k := by
  unfold namespaceDeclaration
  refine .program fun _ => .ask fun _ => (keeps_placeOf scope).bind fun _ => ?_
  exact keeps_declareNew (keeps_writeDeclaration _ _ _ _ _) m

theorem keeps_addNamespace (scope : Scope) (doc name : String) :
    Keeps free k (addNamespace scope doc name) fun _ => .none := by
  unfold addNamespace
  refine (keeps_addSymbol _ fun _ => by simp).bind fun m => (keeps_namespaceDeclaration scope m doc).bind fun _ => ?_
  exact (keeps_attach _ (by simp [Stock.withSymbol])).bind fun _ => (Keeps.pure m).done

/-- A symbol that a namespace is merged into stays where it is. -/
theorem keeps_mergeNamespace (m : SymbolId) (doc : String) : Keeps free k (mergeNamespace m doc) fun _ => k := by
  unfold mergeNamespace
  refine .program fun _ => .ask fun data => ?_
  have hmerge (scope : Scope) : Keeps free k (do
      modifySymbol m fun s => { s with flags := (s.flags.add .valueModule).add .namespaceModule }
      namespaceDeclaration scope m doc) fun _ => k :=
    (keeps_addFlags m [.valueModule, .namespaceModule] (by decide)).bind fun _ => keeps_namespaceDeclaration scope m doc
  have hscope (owner : SymbolId) : Keeps free k (scopeOf owner) fun _ => k := by
    unfold scopeOf
    refine .program fun _ => ?_
    split <;> exact .pure _
  split
  · exact (hscope _).bind hmerge
  · exact (keeps_fileOf m).bind fun file => hmerge (.file file)

theorem keeps_typeAlias (scope : Scope) (doc name : String) (type : TypeId) :
    Keeps free k (typeAlias scope doc name type) fun _ => .none := by
  unfold typeAlias
  refine (keeps_placeOf scope).bind fun place => (keeps_writeDeclaration _ _ _ _ _).bind fun n => ?_
  refine (keeps_addSymbol _ fun _ => by simp).bind fun m => ?_
  refine Keeps.bind (keeps_describe (by simp [Stock.withSymbol]) (fun _ => by rfl) (fun _ => by rfl)
    fun _ _ h => by exact h) fun _ => ?_
  exact keeps_declareListed scope (by simp [Stock.withSymbol]) (by simp [Stock.withSymbol, Stock.withNode]) m

theorem keeps_bareSymbol (scope : Scope) (name : String) {flags : SymbolFlags}
    (hflags : ¬ free → flags.has .enumMember = false) :
    Keeps free k (bareSymbol scope name flags) fun _ => .none := by
  unfold bareSymbol
  refine (keeps_addSymbol _ fun _ => by simp).bind fun m => ?_
  refine Keeps.bind (keeps_describe (by simp [Stock.withSymbol]) (fun _ => by rfl) (fun _ => by rfl)
    fun hfree _ _ => by exact hflags hfree) fun _ => ?_
  exact (keeps_attach scope (by simp [Stock.withSymbol])).bind fun _ => (Keeps.pure m).done

theorem keeps_failDeclarations (m : SymbolId) : Keeps free k (failDeclarations m) fun _ => k := by
  unfold failDeclarations
  exact .program fun _ => .ask fun _ _ => .single (.aside rfl rfl rfl rfl rfl)

theorem keeps_failFile (file : FileId) : Keeps free k (failFile file) fun _ => k := by
  unfold failFile
  exact .program fun _ => .ask fun _ _ => .single (.aside rfl rfl rfl rfl rfl)

end Build

namespace BuildStep

open Build

/-- A step that neither adds a member of an enum nor tells the value of one. -/
def SparesEnums : BuildStep → Prop
  | enumMember .. | setConstantValue .. => False
  | bareSymbol _ _ flags => flags.has .enumMember = false
  | _ => True

/-- One step of building a program. -/
theorem keeps_run {free : Prop} (step : BuildStep) (h : ¬ free → step.SparesEnums) :
    Keeps free .none step.run fun _ => .none := by
  cases step with
  | addModule _ | addScript _ => exact (keeps_addFile _ _).map
  | fileComment _ _ => exact (keeps_fileComment _ _).map
  | setModuleName _ _ | importModule _ _ _ _ | referencePath _ _ => exact (keeps_modifyFile _ fun _ => by rfl).map
  | intrinsic _ => exact (keeps_intrinsic _).map
  | literal _ | booleanLiteral _ | union _ | intersection _ | array _ | keyof _ | indexedAccess _ _ | conditional _
  | substitution _ | uniqueSymbol | templateLiteral | typeofSymbol _ => exact (keeps_addType _).map
  | tuple _ => exact (keeps_tuple _).map
  | typeReference _ _ => exact (keeps_typeReference _ _).map
  | typeParameter _ | thisType => exact (keeps_typeParameter _ _).map
  | constrain _ _ | defaultType _ _ => exact (keeps_modifyType _ fun _ _ => by exact ⟨rfl, rfl, rfl⟩).map
  | objectType | functionType _ => exact (keeps_anonymousType _).map
  | typeProperty _ _ _ _ _ => exact (keeps_typeProperty _ _ _ _ _).map
  | signature _ _ => exact (keeps_signature _ _).map
  | setReturnType _ _ => exact (keeps_modifySignature _ _).map
  | declaredType _ =>
    refine (keeps_declaredType _).bind fun _ => ?_
    split <;> exact .pure _
  | addVariable _ _ _ _ _ _ => exact (keeps_addVariable _ _ _ _ _ _).map
  | destructuredConst _ _ _ _ => exact (keeps_destructuredConst _ _ _ _).map
  | function _ _ _ => exact (keeps_overloadedFunction _ _ _).map
  | addClass _ _ _ => exact (keeps_addClass _ _ _).map
  | interface _ _ _ => exact (keeps_classLike _ _ _ _).map
  | extend _ _ => exact (keeps_extend _ _).map
  | implement _ _ => exact (keeps_implement _ _).map
  | setTypeParameters _ _ =>
    exact (keeps_modifySymbol _ (fun _ => by rfl) fun _ => by exact ⟨rfl, fun _ => rfl, rfl, rfl, rfl⟩).map
  | property _ _ _ _ => exact (keeps_property _ _ _ _).map
  | optionalProperty _ _ _ _ => exact (keeps_optionalProperty _ _ _ _).map
  | staticProperty _ _ _ _ => exact (keeps_staticProperty _ _ _ _).map
  | method _ _ _ => exact (keeps_overloadedMethod _ _ _).map
  | addConstructor _ _ _ | indexSignature _ _ _ _ | constructSignature _ _ _ | callSignature _ _ _ =>
    exact (keeps_signatureMember _ (fun _ => by decide) _ _ _ _ _).map
  | accessor _ _ _ _ _ => exact (keeps_accessor _ _ _ _ _).map
  | setModifiers _ _ => exact (keeps_setModifiers _ _).map
  | enumeration _ _ _ _ => exact (keeps_enumeration _ _ _ _).map
  | enumMember _ _ _ _ =>
    obtain ⟨⟩ : free = True := eq_true (Classical.not_not.1 h)
    exact (keeps_enumMember _ _ _ _).map
  | setConstantValue _ _ =>
    obtain ⟨⟩ : free = True := eq_true (Classical.not_not.1 h)
    exact (keeps_setConstantValue _ _).map
  | addNamespace _ _ _ => exact (keeps_addNamespace _ _ _).map
  | mergeNamespace _ _ => exact (keeps_mergeNamespace _ _).map
  | typeAlias _ _ _ _ => exact (keeps_typeAlias _ _ _ _).map
  | bareSymbol _ _ _ => exact (keeps_bareSymbol _ _ h).map
  | failDeclarations _ => exact (keeps_failDeclarations _).map
  | failFile _ => exact (keeps_failFile _).map

end BuildStep

end ApiDoc
