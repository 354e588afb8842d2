import ApiDoc.Proofs.Program.Placement

/-!
# Declarations belong to one symbol

A node declares one symbol at most, and every declaration of a symbol is a node that declares it (`Draft.Owns`).  So
what is said about the declarations of one symbol says nothing about another.  Every edit leaves it so (`Edit.owns`).
-/

namespace ApiDoc

/-! ### The data of symbols -/

/-- The data of a symbol; those of one that does not exist say nothing. -/
def Program.symbolData (p : Program) (m : SymbolId) : SymbolData := (p.symbols.get? m.index).getD default

namespace Program

variable {p p' : Program} {m : SymbolId} {data : SymbolData}

theorem symbolData_eq (h : p.symbols.get? m.index = some data) : p.symbolData m = data := by simp [symbolData, h]

theorem symbolData_modify (h : p.symbols.get? m.index = some data) (change : SymbolData → SymbolData) (k : SymbolId) :
    ({ p with symbols := p.symbols.modify m.index change } : Program).symbolData k =
      if k = m then change (p.symbolData m) else p.symbolData k := by
  unfold symbolData
  rw [Arena.get?_modify]
  by_cases hk : k = m
  · simp [hk, h]
  · have hne : m.index ≠ k.index := fun heq => hk (congrArg SymbolId.mk heq.symm)
    rw [if_neg hne, if_neg hk]

theorem symbolData_declared (h : p.symbols.get? m.index = some data) (n : NodeId) (isValue : Bool) (k : SymbolId) :
    (p.declared m n isValue).symbolData k =
      if k = m then (p.symbolData m).withDeclaration n isValue else p.symbolData k :=
  symbolData_modify h _ k

theorem symbolData_push (p : Program) (data : SymbolData) (k : SymbolId) :
    ({ p with symbols := p.symbols.push data } : Program).symbolData k =
      if k.index = p.symbols.size then data else p.symbolData k := by
  unfold symbolData
  rw [Arena.get?_push]
  split <;> rfl

theorem symbolData_of_size_le (h : p.symbols.size ≤ m.index) : p.symbolData m = default := by
  rw [symbolData, Arena.get?_eq_none_iff.2 h]
  rfl

theorem symbolData_congr (h : p'.symbols = p.symbols) (k : SymbolId) : p'.symbolData k = p.symbolData k := by
  rw [symbolData, h]
  rfl

theorem outline_symbolData (p : Program) (m : SymbolId) : p.outline.symbol m = (p.symbolData m).outline := by
  show ((p.symbols.get? m.index).map SymbolData.outline).getD {} = ((p.symbols.get? m.index).getD default).outline
  cases p.symbols.get? m.index <;> rfl

theorem Places.mayList {owner : SymbolId} (h : p.Places p' m owner) (k : SymbolId) :
    (p.symbolData k).MayList m (p'.symbolData k) := by
  have hrel := h.symbols k.index
  unfold symbolData
  generalize p.symbols.get? k.index = data? at hrel ⊢
  generalize p'.symbols.get? k.index = data'? at hrel ⊢
  cases hrel with
  | none => exact ⟨.refl _, .inl rfl⟩
  | some hlist => exact hlist

end Program

/-! ### Declarations belong to one symbol -/

/-- The declarations of every symbol are nodes that declare it, and the nodes at hand declare nothing. -/
structure Draft.Owns (d : Draft) : Prop where
  declared {m : SymbolId} {n : NodeId} (hn : n ∈ (d.builder.program.symbolData m).declarations) :
    d.builder.program.outline.declared n = some m
  undeclared {n : NodeId} (hn : n ∈ d.stock.nodes) : d.builder.program.outline.declared n = none
  known {n : NodeId} (hn : n ∈ d.stock.nodes) : n.index < d.builder.program.nodes.size
  once : d.stock.nodes.Nodup

namespace Draft.Owns

variable {k : Stock} {b b' : Builder}

theorem empty : Draft.Owns ⟨.none, {}⟩ where
  declared := (nomatch ·)
  undeclared := (nomatch ·)
  known := (nomatch ·)
  once := List.nodup_nil

/-- Only declarations and what nodes declare matter. -/
theorem mono (h : Draft.Owns ⟨k, b⟩) {k' : Stock} (hnodes : k'.nodes.Sublist k.nodes)
    (hdeclared : b'.program.outline.declared = b.program.outline.declared)
    (hsize : b'.program.nodes.size = b.program.nodes.size)
    (hdeclarations : ∀ m, (b'.program.symbolData m).declarations ⊆ (b.program.symbolData m).declarations) :
    Draft.Owns ⟨k', b'⟩ where
  declared hn := hdeclared ▸ h.declared (hdeclarations _ hn)
  undeclared hn := hdeclared ▸ h.undeclared (hnodes.subset hn)
  known hn := hsize ▸ h.known (hnodes.subset hn)
  once := h.once.sublist hnodes

/-- What else is said about a symbol changes no declaration. -/
theorem modifySymbol (h : Draft.Owns ⟨k, b⟩) {m : SymbolId} {data : SymbolData}
    (hm : b.program.symbols.get? m.index = some data) {change : SymbolData → SymbolData}
    (hsame : ∀ data, (change data).declarations = data.declarations) :
    Draft.Owns ⟨k, b.update fun p => { p with symbols := p.symbols.modify m.index change }⟩ := by
  refine h.mono (.refl _) rfl rfl fun m' => ?_
  rw [Builder.update, Program.symbolData_modify hm]
  split
  · next heq => rw [heq, hsame]; exact List.Subset.refl _
  · exact List.Subset.refl _

/-- A node at hand declares nothing yet, so it can be made a declaration of any symbol. -/
theorem declare (h : Draft.Owns ⟨k, b⟩) {m : SymbolId} {n : NodeId} {symbol : SymbolData} {node : NodeData}
    (hn : n ∈ k.nodes) (hsymbol : b.program.symbols.get? m.index = some symbol)
    (hnode : b.program.nodes.get? n.index = some node) (isValue : Bool) :
    Draft.Owns ⟨k.without n, b.update (·.declared m n isValue)⟩ := by
  have houtline : (b.program.declared m n isValue).outline = b.program.outline.changeNode n fun _ => some m :=
    Program.outline_declared hsymbol hnode isValue
  have hdeclared (n' : NodeId) : (b.program.declared m n isValue).outline.declared n' =
      if n' = n then some m else b.program.outline.declared n' := by
    rw [houtline]
    exact Function.update_apply ..
  have hold {m' : SymbolId} {n' : NodeId} (hn' : n' ∈ (b.program.symbolData m').declarations) :
      (b.program.declared m n isValue).outline.declared n' = some m' := by
    have hne : n' ≠ n := fun heq => by simpa [heq, h.undeclared hn] using h.declared hn'
    rw [hdeclared, if_neg hne]
    exact h.declared hn'
  have hother {n' : NodeId} (hn' : n' ∈ k.nodes.erase n) : n' ∈ k.nodes ∧ n' ≠ n :=
    ⟨List.mem_of_mem_erase hn', fun heq => h.once.not_mem_erase (heq ▸ hn')⟩
  refine ⟨fun {m' n'} hn' => ?_, fun {n'} hn' => ?_, fun hn' => ?_, h.once.erase n⟩
  · have hmem : n' ∈ ((b.program.declared m n isValue).symbolData m').declarations := hn'
    rw [Program.symbolData_declared hsymbol] at hmem
    split at hmem
    · next heq =>
      rcases List.mem_append.1 hmem with hmem | hmem
      · exact hold (heq ▸ hmem)
      · exact (hdeclared n').trans ((if_pos (List.mem_singleton.1 hmem)).trans (congrArg some heq.symm))
    · exact hold hmem
  · exact ((hdeclared n').trans (if_neg (hother hn').2)).trans (h.undeclared (hother hn').1)
  · simpa [Builder.update, Program.declared] using h.known (hother hn').1

end Draft.Owns

/-- **An edit leaves every declaration to one symbol.** -/
theorem Edit.owns {free : Prop} {d d' : Draft} (h : Edit free d d') (hd : d.Owns) : d'.Owns := by
  cases h with
  | spend _ hnodes => exact hd.mono hnodes rfl rfl fun _ => List.Subset.refl _
  | @aside k b b' hsymbols _ hnodes =>
    refine hd.mono (.refl _) (by simp only [Program.outline, hnodes]) (by rw [hnodes]) fun m => ?_
    rw [Program.symbolData_congr hsymbols]
    exact List.Subset.refl _
  | number => exact { hd with }
  | file => exact { hd with }
  | newType => exact { hd with }
  | type => exact { hd with }
  | @newFile k b node symbol isValue m n data hm hn hsymbol hnode =>
    have howns := hd.declare hn hsymbol hnode isValue
    exact ⟨howns.declared, fun hn => absurd hn List.not_mem_nil, fun hn => absurd hn List.not_mem_nil, List.nodup_nil⟩
  | @newSymbol k b name flags =>
    refine hd.mono (.refl _) rfl rfl fun m => ?_
    rw [Builder.update, Program.symbolData_push]
    split
    · exact List.nil_subset _
    · exact List.Subset.refl _
  | @newNode k b data h =>
    -- the new node declares nothing yet, and is one more of those at hand
    have houtline : ({ b.program with nodes := b.program.nodes.push data } : Program).outline =
        { b.program.outline with nodes := b.program.outline.nodes + 1 } := Program.outline_addNode _ h
    have hdeclared : ({ b.program with nodes := b.program.nodes.push data } : Program).outline.declared =
        b.program.outline.declared := by rw [houtline]
    have hnew : b.program.outline.declared ⟨b.program.nodes.size⟩ = none := by
      simp [Program.outline, Arena.get?_eq_none_iff.2 (Nat.le_refl b.program.nodes.size)]
    refine ⟨fun hn => ?_, fun hn => ?_, fun {n} hn => ?_, ?_⟩
    · exact (congrFun hdeclared _).trans (hd.declared hn)
    · refine (congrFun hdeclared _).trans ?_
      rcases List.mem_cons.1 hn with rfl | hn
      · exact hnew
      · exact hd.undeclared hn
    · show n.index < (b.program.nodes.push data).size
      rw [Arena.size_push]
      rcases List.mem_cons.1 hn with rfl | hn
      · exact Nat.lt_succ_self _
      · exact Nat.lt_succ_of_lt (hd.known hn)
    · exact List.nodup_cons.2 ⟨fun hn => Nat.lt_irrefl _ (hd.known hn), hd.once⟩
  | symbol hm _ hrole => exact hd.modifySymbol hm fun data => (hrole data).declarations
  | loose _ hdata _ hdeclarations => exact hd.modifySymbol hdata hdeclarations
  | @node k b data n change hn hsymbol =>
    have houtline : ({ b.program with nodes := b.program.nodes.modify n.index change } : Program).outline =
        b.program.outline.changeNode n id := Program.outline_modifyNode hn (hsymbol _)
    rw [Outline.changeNode_id] at houtline
    exact hd.mono (.refl _) (congrArg Outline.declared houtline) (Arena.size_modify ..) fun _ => List.Subset.refl _
  | declare hn hsymbol hnode => exact hd.declare hn hsymbol hnode _
  | @place k b b' m owner hm h =>
    refine hd.mono (.refl _) h.lists.declared (by rw [h.nodes]) fun m' => ?_
    rw [(h.mayList m').1.declarations]
    exact List.Subset.refl _

theorem Edits.owns {free : Prop} {d d' : Draft} (h : Edits free d d') (hd : d.Owns) : d'.Owns := by
  induction h with
  | refl => exact hd
  | tail _ hedit ih => exact hedit.owns ih

end ApiDoc
