import ApiDoc.Proofs.Program.Edits

/-!
# Building leaves every symbol at one place

Whatever is added to a program, its outline stays placed (`Program.build_placed`): every edit leaves it so, and what is
at hand can be used (`Outline.Offers`).
-/

namespace ApiDoc

namespace Outline

/-- Every symbol is at one place, and what is at hand can be used. -/
structure Offers (o : Outline) (k : Stock) : Prop where
  placed : o.Placed
  loose {m} : m ∈ k.symbols → o.IsLoose m
  inner {n} : n ∈ k.nodes → o.IsInner n

variable {o o' : Outline} {k : Stock}

theorem Offers.mono {k' : Stock} (h : o.Offers k) (hsymbols : k'.symbols ⊆ k.symbols) (hnodes : k'.nodes ⊆ k.nodes) :
    o.Offers k' := ⟨h.placed, fun hm => h.loose (hsymbols hm), fun hn => h.inner (hnodes hn)⟩

theorem Placed.offers (h : o.Placed) : o.Offers .none := ⟨h, by simp [Stock.none], by simp [Stock.none]⟩

theorem Offers.addSymbol (h : o.Offers k) :
    ({ o with symbols := o.symbols + 1 } : Outline).Offers (k.withSymbol ⟨o.symbols⟩) where
  placed := h.placed.addSymbol
  loose {m} hm := by
    rcases List.mem_cons.1 hm with rfl | hm
    · exact h.placed.isLoose_new
    · exact { h.loose hm with known := Nat.lt_succ_of_lt (h.loose hm).known }
  inner hn := { h.inner hn with }

theorem Offers.addNode (h : o.Offers k) :
    ({ o with nodes := o.nodes + 1 } : Outline).Offers (k.withNode ⟨o.nodes⟩) where
  placed := h.placed.addNode
  loose hm := { h.loose hm with }
  inner {n} hn := by
    rcases List.mem_cons.1 hn with rfl | hn
    · exact h.placed.isInner_new
    · exact { h.inner hn with known := Nat.lt_succ_of_lt (h.inner hn).known }

theorem Offers.declare (h : o.Offers k) {n : NodeId} (hn : n ∈ k.nodes) (m : SymbolId) :
    (o.changeNode n fun _ => some m).Offers k where
  placed := h.placed.declare (h.inner hn) m
  loose hm := { h.loose hm with }
  inner hn := { h.inner hn with }

theorem Offers.place (h : o.Offers k) {m owner : SymbolId} (hm : m ∈ k.symbols) (hlists : o.Lists o' m owner) :
    o'.Offers k.spent where
  placed := h.placed.place (h.loose hm) hlists
  loose hm := by simp [Stock.spent] at hm
  inner hn := by
    refine ⟨by rw [hlists.nodes]; exact (h.inner hn).known, fun hfile' => ?_⟩
    obtain ⟨file, hfile, hnode, -⟩ := hlists.file hfile'
    exact hnode ▸ (h.inner hn).noFile hfile

end Outline

/-- **An edit leaves every symbol at one place.** -/
theorem Edit.offers {free : Prop} {d d' : Draft} (h : Edit free d d')
    (hd : d.builder.program.outline.Offers d.stock) : d'.builder.program.outline.Offers d'.stock := by
  -- what an edit does to the outline is one of few changes, or none; each is known to leave symbols at one place
  cases h with
  | spend hsymbols hnodes => exact hd.mono hsymbols hnodes.subset
  | @aside k b b' hsymbols _ hnodes hfiles =>
    have hsame : b'.program.outline = b.program.outline := by
      simp only [Program.outline, hsymbols, hnodes, hfiles]
    exact hsame.symm ▸ hd
  | number => exact hd
  | @file k b i change h =>
    have hsame : ({ b.program with files := b.program.files.modify i change } : Program).outline =
        b.program.outline.changeFile i id := Program.outline_modifyFile b.program i h
    exact (hsame.trans (Outline.changeFile_id _ _)).symm ▸ hd
  | @newFile k b node symbol isValue m n data hm hn hsymbol hnode h =>
    have hsame : ({ b.program.declared m n isValue with
        files := (b.program.declared m n isValue).files.push data } : Program).outline =
        { b.program.outline.changeNode n fun _ => some m with files := b.program.outline.files ++ [⟨n, m, []⟩] } := by
      rw [Program.outline_addFile, Program.outline_declared hsymbol hnode, h]
      rfl
    have hoffers := hd.declare hn m
    have hadded := hoffers.placed.addFile (hoffers.loose hm) (hoffers.inner hn) (by simp [Outline.changeNode])
    exact hsame.symm ▸ hadded.offers
  | @newSymbol k b name flags =>
    have hsame : ({ b.program with symbols := b.program.symbols.push { name, flags := .of flags } } : Program).outline =
        { b.program.outline with symbols := b.program.outline.symbols + 1 } := Program.outline_addSymbol _ rfl
    exact hsame.symm ▸ hd.addSymbol
  | newType => exact hd
  | @newNode k b data h =>
    have hsame : ({ b.program with nodes := b.program.nodes.push data } : Program).outline =
        { b.program.outline with nodes := b.program.outline.nodes + 1 } := Program.outline_addNode _ h
    exact hsame.symm ▸ hd.addNode
  | @symbol k b data m change hm houtline =>
    have hsame : ({ b.program with symbols := b.program.symbols.modify m.index change } : Program).outline =
        b.program.outline.changeSymbol m id := Program.outline_modifySymbol hm (houtline _)
    exact (hsame.trans (Outline.changeSymbol_id _ _)).symm ▸ hd
  | @loose k b data m change hm hdata houtline =>
    have hparent : data.parent = none := by
      have hloose := (hd.loose hm).parent
      rwa [Program.outline_symbol hdata] at hloose
    have hsame : ({ b.program with symbols := b.program.symbols.modify m.index change } : Program).outline =
        b.program.outline.changeSymbol m id := Program.outline_modifySymbol hdata (houtline data hparent)
    exact (hsame.trans (Outline.changeSymbol_id _ _)).symm ▸ hd
  | type => exact hd
  | @node k b data n change hn hsymbol =>
    have hsame : ({ b.program with nodes := b.program.nodes.modify n.index change } : Program).outline =
        b.program.outline.changeNode n id := Program.outline_modifyNode hn (hsymbol _)
    exact (hsame.trans (Outline.changeNode_id _ _)).symm ▸ hd
  | @declare k b node symbol isValue m n hn hsymbol hnode =>
    have hoffers : (b.program.outline.changeNode n fun _ => some m).Offers (k.without n) :=
      (hd.declare hn m).mono (List.Subset.refl _) List.erase_subset
    exact (Program.outline_declared hsymbol hnode isValue).symm ▸ hoffers
  | place hm h => exact hd.place hm h.lists

theorem Edits.offers {free : Prop} {d d' : Draft} (h : Edits free d d')
    (hd : d.builder.program.outline.Offers d.stock) : d'.builder.program.outline.Offers d'.stock := by
  induction h with
  | refl => exact hd
  | tail _ hedit ih => exact hedit.offers ih

/-- **Whatever a program is built from**, every symbol is listed at one place at most. -/
theorem Program.build_placed {steps : List BuildStep} {p : Program} (h : Program.build steps = .ok p) :
    p.outline.Placed := by
  obtain ⟨⟨added, b⟩, hrun, hp⟩ := bind_eq_ok_iff.1 h
  obtain rfl : b.program = p := Except.ok.inj hp
  have hkeeps : Build.Keeps True .none (BuildStep.runAll steps) fun _ => .none :=
    Build.Keeps.mapM fun step => step.keeps_run fun h => absurd trivial h
  have hedits := hkeeps {}
  rw [hrun] at hedits
  exact (hedits.offers Outline.Placed.empty.offers).placed

end ApiDoc
