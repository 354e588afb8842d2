import ApiDoc.Proofs.Program.EnumMembers
import ApiDoc.Proofs.Program.Frames
import ApiDoc.Proofs.Program.WellFormed

/-!
# Programs that grow

A program is sound (`Program.Sound`) if its nodes fit their places and what building relies on is in range: the symbol
of a file, the declarations of a symbol with the types it is given, the symbol of a type.  All of this stays good as
long as tables do not shrink and nodes stay where they are (`Program.StaysIn`).

`Program.Extends` says that a sound program grows into another one, and which declarations are new.  A new node may be
changed: the growth is told from before it was there.
-/

namespace ApiDoc

/-- A number with an item is in range. -/
theorem Arena.lt_size {α : Type} {a : Arena α} {i : Nat} {item : α} (h : a.get? i = some item) : i < a.size := by
  refine Nat.lt_of_not_le fun hle => ?_
  rw [get?_eq_none_iff.2 hle] at h
  exact nomatch h

/-- What a node says of its place, and of what it declares. -/
def NodeData.frame (data : NodeData) : NodeFrame := ⟨data.kind, data.file, data.span, data.parent, data.symbol⟩

namespace Program

/-! ### The frames of a program -/

section

variable (p : Program)

/-- The places of its nodes, and the texts of its files. -/
def frames : Frames where
  nodes := p.nodes.toList.map NodeData.frame
  texts := p.files.toList.map fun file => file.text.toList

theorem frames_nodes (i : Nat) : p.frames.nodes[i]? = (p.nodes.get? i).map NodeData.frame := by
  simp [frames, Arena.toList, Arena.get?]

theorem frames_texts (i : Nat) : p.frames.texts[i]? = (p.files.get? i).map fun file => file.text.toList := by
  simp [frames, Arena.toList, Arena.get?]

theorem length_frames : p.frames.nodes.length = p.nodes.size := by
  simp [frames, Arena.toList, Arena.size]

theorem frames_pushNode (data : NodeData) :
    frames { p with nodes := p.nodes.push data } = p.frames.push data.frame := by
  simp [frames, Frames.push, Arena.toList, Arena.push]

end

variable {p p' p'' p₀ : Program} {new new' : List (SymbolId × String)}

theorem frames_node {n : NodeId} {data : NodeData} (h : p.nodes.get? n.index = some data) :
    p.frames.nodes[n.index]? = some data.frame := by
  rw [frames_nodes, h]
  rfl

theorem exists_node {i : Nat} {frame : NodeFrame} (h : p.frames.nodes[i]? = some frame) :
    ∃ data, p.nodes.get? i = some data ∧ data.frame = frame := by
  rw [frames_nodes] at h
  exact Option.map_eq_some_iff.1 h

/-- What is said about a node is seen from its frame only. -/
theorem frames_modifyNode {n : NodeId} {data : NodeData} (h : p.nodes.get? n.index = some data)
    (change : NodeData → NodeData) :
    frames { p with nodes := p.nodes.modify n.index change } = p.frames.change n.index (change data).frame := by
  have hlist : (p.nodes.modify n.index change).toList.map NodeData.frame =
      (p.nodes.toList.map NodeData.frame).set n.index (change data).frame := by
    refine List.ext_getElem? fun i => ?_
    have hitem := p.nodes.get?_modify n.index i change
    simp only [Arena.get?] at h hitem
    simp only [Arena.toList, List.getElem?_map, List.getElem?_set, List.length_map, Array.length_toList,
      Array.getElem?_toList, hitem]
    split
    · next heq =>
      subst heq
      rw [h, if_pos (Array.getElem?_eq_some_iff.1 h).1]
      rfl
    · rfl
  exact congrArg (Frames.mk · _) hlist

theorem frames_modifyNode_same (n : NodeId) {change : NodeData → NodeData}
    (h : ∀ data, (change data).frame = data.frame) :
    frames { p with nodes := p.nodes.modify n.index change } = p.frames := by
  have hlist : (p.nodes.modify n.index change).toList.map NodeData.frame = p.nodes.toList.map NodeData.frame := by
    refine List.ext_getElem? fun i => ?_
    have hitem := p.nodes.get?_modify n.index i change
    simp only [Arena.get?] at hitem
    simp only [Arena.toList, List.getElem?_map, Array.getElem?_toList, hitem]
    split
    · rw [Option.map_map, Function.comp_def, funext h]
    · rfl
  exact congrArg (Frames.mk · _) hlist

theorem frames_modifyFile_same (f : FileId) {change : FileData → FileData}
    (h : ∀ data, (change data).text = data.text) :
    frames { p with files := p.files.modify f.index change } = p.frames := by
  have hlist : ((p.files.modify f.index change).toList.map fun file => file.text.toList) =
      p.files.toList.map fun file => file.text.toList := by
    refine List.ext_getElem? fun i => ?_
    have hitem := p.files.get?_modify f.index i change
    simp only [Arena.get?] at hitem
    simp only [Arena.toList, List.getElem?_map, Array.getElem?_toList, hitem]
    split
    · rw [Option.map_map]
      simp only [Function.comp_def, h]
    · rfl
  exact congrArg (Frames.mk p.frames.nodes) hlist

/-- Text is written at the end of a file. -/
theorem frames_write {f : FileId} {data : FileData} (hfile : p.files.get? f.index = some data)
    {change : FileData → FileData} {cs : List Char} (h : (change data).text.toList = data.text.toList ++ cs) :
    frames { p with files := p.files.modify f.index change } = p.frames.write f cs := by
  have hlist : ((p.files.modify f.index change).toList.map fun file => file.text.toList) =
      (p.files.toList.map fun file => file.text.toList).modify f.index (· ++ cs) := by
    refine List.ext_getElem? fun i => ?_
    have hitem := p.files.get?_modify f.index i change
    simp only [Arena.get?] at hfile hitem
    simp only [Arena.toList, List.getElem?_map, List.getElem?_modify, Array.getElem?_toList, hitem]
    split
    · next heq =>
      subst heq
      rw [hfile]
      exact congrArg some h
    · cases p.files.items[i]? <;> rfl
  exact congrArg (Frames.mk p.frames.nodes) hlist

/-! ### Handles that stay good -/

/-- All handles stay good: tables do not shrink, nodes stay in their files and declare what they declare, and a value
has its declaration for good. -/
structure StaysIn (p p' : Program) : Prop where
  file {f : FileId} : p.domain.file f → p'.domain.file f
  symbol {m : SymbolId} : p.domain.symbol m → p'.domain.symbol m
  type {t : TypeId} : p.domain.type t → p'.domain.type t
  signature {sig : SignatureId} : p.domain.signature sig → p'.domain.signature sig
  node {n : NodeId} {data : NodeData} : p.nodes.get? n.index = some data → ∃ data', p'.nodes.get? n.index = some data' ∧
    data'.kind = data.kind ∧ data'.file = data.file ∧ ∀ m ∈ data.symbol, data'.symbol = some m
  value {m : SymbolId} {data : SymbolData} {n : NodeId} : p.symbols.get? m.index = some data →
    data.valueDeclaration = some n →
    ∃ data', p'.symbols.get? m.index = some data' ∧ data'.valueDeclaration = some n

theorem StaysIn.refl (p : Program) : p.StaysIn p :=
  ⟨id, id, id, id, fun h => ⟨_, h, rfl, rfl, fun _ h => h⟩, fun h h' => ⟨_, h, h'⟩⟩

theorem StaysIn.trans (h : p.StaysIn p') (h' : p'.StaysIn p'') : p.StaysIn p'' where
  file hf := h'.file (h.file hf)
  symbol hm := h'.symbol (h.symbol hm)
  type ht := h'.type (h.type ht)
  signature hsig := h'.signature (h.signature hsig)
  node hn := by
    obtain ⟨data', hdata', hkind, hfile, hsymbol⟩ := h.node hn
    obtain ⟨data'', hdata'', hkind', hfile', hsymbol'⟩ := h'.node hdata'
    exact ⟨data'', hdata'', hkind'.trans hkind, hfile'.trans hfile, fun m hm => hsymbol' m (hsymbol m hm)⟩
  value hm hn := by
    obtain ⟨data', hdata', hn'⟩ := h.value hm hn
    exact h'.value hdata' hn'

end Program

/-! ### Sound programs -/

/-- A file has a symbol and a node in it. -/
structure FileData.IsSound (p : Program) (f : FileId) (data : FileData) : Prop where
  symbol : p.domain.symbol data.symbol
  node : ∃ node, p.nodes.get? data.node.index = some node ∧ node.file = f

/-- The declarations of a symbol are its own, and what it is said to belong to and to stand for is there. -/
structure SymbolData.IsSound (p : Program) (m : SymbolId) (data : SymbolData) : Prop where
  declarations : ∀ n ∈ data.declarations, ∃ node, p.nodes.get? n.index = some node ∧ node.symbol = some m
  parent : ∀ m' ∈ data.parent, p.domain.symbol m'
  type : ∀ t ∈ data.type, p.domain.type t
  declaredType : ∀ t ∈ data.declaredType, p.domain.type t

section

variable {p p' : Program} {f : FileId} {m : SymbolId}

theorem FileData.IsSound.mono {data : FileData} (hdata : data.IsSound p f) (h : p.StaysIn p') : data.IsSound p' f where
  symbol := h.symbol hdata.symbol
  node := by
    obtain ⟨node, hnode, hfile⟩ := hdata.node
    obtain ⟨node', hnode', -, hfile', -⟩ := h.node hnode
    exact ⟨node', hnode', hfile'.trans hfile⟩

theorem SymbolData.IsSound.mono {data : SymbolData} (hdata : data.IsSound p m) (h : p.StaysIn p') :
    data.IsSound p' m where
  declarations n hn := by
    obtain ⟨node, hnode, hsymbol⟩ := hdata.declarations n hn
    obtain ⟨node', hnode', -, -, hsymbol'⟩ := h.node hnode
    exact ⟨node', hnode', hsymbol' m hsymbol⟩
  parent m' hm' := h.symbol (hdata.parent m' hm')
  type t ht := h.type (hdata.type t ht)
  declaredType t ht := h.type (hdata.declaredType t ht)

end

namespace Program

variable {p p' p'' p₀ : Program} {new new' : List (SymbolId × String)}

/-- Nodes fit their places, and what building relies on is in range. -/
structure Sound (p : Program) : Prop where
  frames : p.frames.Sound
  file {f : FileId} {data : FileData} : p.files.get? f.index = some data → data.IsSound p f
  symbol {m : SymbolId} {data : SymbolData} : p.symbols.get? m.index = some data → data.IsSound p m
  type {t : TypeId} {data : TypeData} : p.types.get? t.index = some data → ∀ m ∈ data.symbol, p.domain.symbol m

theorem Sound.empty : Sound {} := by
  refine ⟨fun n frame h => ?_, fun h => ?_, fun h => ?_, fun h => ?_⟩ <;> exact nomatch h

theorem Sound.file_of_node (hp : p.Sound) {n : NodeId} {data : NodeData} (h : p.nodes.get? n.index = some data) :
    p.domain.file data.file := by
  obtain ⟨code, text, htext, -⟩ := (hp.frames _ _ (frames_node h)).marks
  rw [frames_texts] at htext
  obtain ⟨file, hfile, -⟩ := Option.map_eq_some_iff.1 htext
  exact Arena.lt_size hfile

/-- What is in range stays in range. -/
theorem Sound.of_stays (hp : p.Sound) (h : p.StaysIn p') (hframes : p'.frames.Sound)
    (hfile : ∀ {f : FileId} {data}, p'.files.get? f.index = some data →
      p.files.get? f.index = some data ∨ data.IsSound p' f)
    (hsymbol : ∀ {m : SymbolId} {data}, p'.symbols.get? m.index = some data →
      p.symbols.get? m.index = some data ∨ data.IsSound p' m)
    (htype : ∀ {t : TypeId} {data}, p'.types.get? t.index = some data →
      p.types.get? t.index = some data ∨ ∀ m ∈ data.symbol, p'.domain.symbol m) : p'.Sound where
  frames := hframes
  file hf := (hfile hf).elim (fun hold => (hp.file hold).mono h) id
  symbol hm := (hsymbol hm).elim (fun hold => (hp.symbol hold).mono h) id
  type ht := (htype ht).elim (fun hold m hm => h.symbol (hp.type hold m hm)) id

/-- A program grows into a sound one, which has some more declarations. -/
structure Extends (p p' : Program) (new : List (SymbolId × String)) : Prop where
  sound : p'.Sound
  stays : p.StaysIn p'
  frames : p.frames.Extends p'.frames new

namespace Extends

theorem refl (hp : p.Sound) : p.Extends p [] := ⟨hp, .refl p, .refl hp.frames⟩

theorem trans (h : p.Extends p' new) (h' : p'.Extends p'' new') : p.Extends p'' (new ++ new') :=
  ⟨h'.sound, h.stays.trans h'.stays, h.frames.trans h'.frames⟩

/-- A node keeps its place. -/
theorem node {n : NodeId} {data : NodeData} (h : p.Extends p' new) (hn : p.nodes.get? n.index = some data) :
    ∃ data', p'.nodes.get? n.index = some data' ∧ data'.frame = data.frame :=
  exists_node (h.frames.node (frames_node hn))

theorem size_le (h : p.Extends p' new) : p.nodes.size ≤ p'.nodes.size := by
  have hle := h.frames.length_le
  rwa [length_frames, length_frames] at hle

end Extends

/-! ### Tables -/

namespace Sound

variable {f : FileId} {m : SymbolId} {t : TypeId} {sig : SignatureId} {n : NodeId}

theorem pushSymbol (hp : p.Sound) (name : String) (flags : SymbolFlags) :
    p.Extends { p with symbols := p.symbols.push { name, flags } } [] := by
  have hstays : p.StaysIn { p with symbols := p.symbols.push { name, flags } } :=
    { StaysIn.refl p with
      symbol := fun hm => Nat.lt_of_lt_of_le hm (by simp)
      value := fun hm hn => ⟨_, Arena.get?_push_of_eq_some hm _, hn⟩ }
  refine ⟨hp.of_stays hstays hp.frames .inl (fun {m data} hm => ?_) .inl, hstays, .refl hp.frames⟩
  rw [Arena.get?_push] at hm
  split at hm
  · obtain rfl := Option.some.inj hm
    exact .inr ⟨by simp, by simp, by simp, by simp⟩
  · exact .inl hm

theorem pushType (hp : p.Sound) {data : TypeData} (hdata : ∀ m ∈ data.symbol, p.domain.symbol m) :
    p.Extends { p with types := p.types.push data } [] := by
  have hstays : p.StaysIn { p with types := p.types.push data } :=
    { StaysIn.refl p with type := fun ht => Nat.lt_of_lt_of_le ht (by simp) }
  refine ⟨hp.of_stays hstays hp.frames .inl .inl fun {t data} ht => ?_, hstays, .refl hp.frames⟩
  rw [Arena.get?_push] at ht
  split at ht
  · obtain rfl := Option.some.inj ht
    exact .inr hdata
  · exact .inl ht

theorem pushSignature (hp : p.Sound) (data : SignatureData) :
    p.Extends { p with signatures := p.signatures.push data } [] := by
  have hstays : p.StaysIn { p with signatures := p.signatures.push data } :=
    { StaysIn.refl p with signature := fun hsig => Nat.lt_of_lt_of_le hsig (by simp) }
  exact ⟨hp.of_stays hstays hp.frames .inl .inl .inl, hstays, .refl hp.frames⟩

/-- A new node that declares nothing yet. -/
theorem pushNode (hp : p.Sound) {data : NodeData} (hfits : p.frames.Fits p.nodes.size data.frame)
    (hnone : data.symbol = none) : p.Extends { p with nodes := p.nodes.push data } [] := by
  have hstays : p.StaysIn { p with nodes := p.nodes.push data } :=
    { StaysIn.refl p with
      node := fun hn => ⟨_, Arena.get?_push_of_eq_some hn data, rfl, rfl, fun _ h => h⟩ }
  have hframes : p.frames.Extends (Program.frames { p with nodes := p.nodes.push data }) [] := by
    rw [frames_pushNode]
    refine hp.frames.extends_push (by rwa [length_frames]) ?_
    simp [NodeFrame.isDeclaration, NodeData.frame, hnone]
  exact ⟨hp.of_stays hstays hframes.sound .inl .inl .inl, hstays, hframes⟩

/-- A new file, which is empty, with its symbol and node. -/
theorem newFile (hp : p.Sound) (name : String) (flags : SymbolFlags) {data : FileData} (htext : data.text = "")
    (hsymbol : data.symbol = ⟨p.symbols.size⟩) (hnode : data.node = ⟨p.nodes.size⟩) :
    p.Extends { p with
      symbols := p.symbols.push { name, flags, declarations := [⟨p.nodes.size⟩] }
      nodes := p.nodes.push { kind := .sourceFile, file := ⟨p.files.size⟩, symbol := some ⟨p.symbols.size⟩ }
      files := p.files.push data } [] := by
  let new : Program := { p with
    symbols := p.symbols.push { name, flags, declarations := [⟨p.nodes.size⟩] }
    nodes := p.nodes.push { kind := .sourceFile, file := ⟨p.files.size⟩, symbol := some ⟨p.symbols.size⟩ }
    files := p.files.push data }
  have hstays : p.StaysIn new :=
    { StaysIn.refl p with
      file := fun hf => Nat.lt_of_lt_of_le hf (by simp [new])
      symbol := fun hm => Nat.lt_of_lt_of_le hm (by simp [new])
      node := fun hn => ⟨_, Arena.get?_push_of_eq_some hn _, rfl, rfl, fun _ h => h⟩
      value := fun hm hn => ⟨_, Arena.get?_push_of_eq_some hm _, hn⟩ }
  have hself : new.nodes.get? p.nodes.size =
      some { kind := .sourceFile, file := ⟨p.files.size⟩, symbol := some ⟨p.symbols.size⟩ } := by
    show (p.nodes.push _).get? _ = _
    rw [Arena.get?_push, if_pos rfl]
  have hframes : p.frames.Extends new.frames [] := by
    -- the text of the file is empty, and so is the place of its node
    let frame : NodeFrame := ⟨.sourceFile, ⟨p.files.size⟩, {}, none, some ⟨p.symbols.size⟩⟩
    have hnew : new.frames = p.frames.newText.push frame := by
      simp [new, Program.frames, Frames.newText, Frames.push, Arena.toList, Arena.push, htext, frame, NodeData.frame]
    have hfits : p.frames.newText.Fits p.frames.newText.nodes.length frame := by
      refine ⟨⟨[], [], ?_, .empty []⟩, fun parent hparent => absurd hparent (by simp [frame]), fun _ => rfl⟩
      simp [Frames.newText, Program.frames, Arena.toList, Arena.size, frame]
    rw [hnew]
    exact hp.frames.extends_newText.trans (hp.frames.extends_newText.sound.extends_push hfits rfl)
  refine ⟨hp.of_stays hstays hframes.sound (fun {f data'} hf => ?_) (fun {m data'} hm => ?_) .inl, hstays, hframes⟩
  · rw [show new.files = p.files.push data from rfl, Arena.get?_push] at hf
    split at hf
    · next heq =>
      obtain rfl := Option.some.inj hf
      obtain rfl : f = ⟨p.files.size⟩ := congrArg FileId.mk heq
      refine .inr ⟨?_, ?_⟩
      · rw [hsymbol]
        show p.symbols.size < (p.symbols.push _).size
        simp
      · rw [hnode]
        exact ⟨_, hself, rfl⟩
    · exact .inl hf
  · rw [show new.symbols = p.symbols.push _ from rfl, Arena.get?_push] at hm
    split at hm
    · next heq =>
      obtain rfl := Option.some.inj hm
      refine .inr ⟨fun n hn => ?_, by simp, by simp, by simp⟩
      obtain rfl := List.mem_singleton.1 hn
      exact ⟨_, hself, congrArg (fun i => some (SymbolId.mk i)) heq.symm⟩
    · exact .inl hm

/-- Something is said about a symbol. -/
theorem modifySymbol (hp : p.Sound) {change : SymbolData → SymbolData}
    (hchange : ∀ data, p.symbols.get? m.index = some data → data.IsSound p m → (change data).IsSound p m)
    (hvalue : ∀ data, (change data).valueDeclaration = data.valueDeclaration) :
    p.Extends { p with symbols := p.symbols.modify m.index change } [] := by
  have hstays : p.StaysIn { p with symbols := p.symbols.modify m.index change } :=
    { StaysIn.refl p with
      symbol := fun hm => Nat.lt_of_lt_of_le hm (by simp)
      value := fun {k data n} hk hn => by
        obtain ⟨data', hdata', rfl | rfl⟩ := Arena.exists_get?_modify hk m.index change
        · exact ⟨_, hdata', hn⟩
        · exact ⟨_, hdata', (hvalue data).trans hn⟩ }
  refine ⟨hp.of_stays hstays hp.frames .inl (fun {k data'} hk => ?_) .inl, hstays, .refl hp.frames⟩
  rw [Arena.get?_modify] at hk
  split at hk
  · next heq =>
    obtain rfl : m = k := congrArg SymbolId.mk heq
    obtain ⟨data, hdata, rfl⟩ := Option.map_eq_some_iff.1 hk
    exact .inr ((hchange data hdata (hp.symbol hdata)).mono hstays)
  · exact .inl hk

/-- Something is said about a type. -/
theorem modifyType (hp : p.Sound) {change : TypeData → TypeData} (hchange : ∀ data : TypeData,
      (∀ m ∈ data.symbol, p.domain.symbol m) → ∀ m ∈ (change data).symbol, p.domain.symbol m) :
    p.Extends { p with types := p.types.modify t.index change } [] := by
  have hstays : p.StaysIn { p with types := p.types.modify t.index change } :=
    { StaysIn.refl p with type := fun ht => Nat.lt_of_lt_of_le ht (by simp) }
  refine ⟨hp.of_stays hstays hp.frames .inl .inl fun {u data'} hu => ?_, hstays, .refl hp.frames⟩
  rw [Arena.get?_modify] at hu
  split at hu
  · next heq =>
    obtain rfl : t = u := congrArg TypeId.mk heq
    obtain ⟨data, hdata, rfl⟩ := Option.map_eq_some_iff.1 hu
    exact .inr (hchange data (hp.type hdata))
  · exact .inl hu

theorem modifySignature (hp : p.Sound) (change : SignatureData → SignatureData) :
    p.Extends { p with signatures := p.signatures.modify sig.index change } [] := by
  have hstays : p.StaysIn { p with signatures := p.signatures.modify sig.index change } :=
    { StaysIn.refl p with signature := fun hsig => Nat.lt_of_lt_of_le hsig (by simp) }
  exact ⟨hp.of_stays hstays hp.frames .inl .inl .inl, hstays, .refl hp.frames⟩

/-- Something is said about a node, its place apart. -/
theorem modifyNode (hp : p.Sound) {change : NodeData → NodeData} (hchange : ∀ data, (change data).frame = data.frame) :
    p.Extends { p with nodes := p.nodes.modify n.index change } [] := by
  have hframes : Program.frames { p with nodes := p.nodes.modify n.index change } = p.frames :=
    frames_modifyNode_same n hchange
  have hstays : p.StaysIn { p with nodes := p.nodes.modify n.index change } :=
    { StaysIn.refl p with
      node := fun {k data} hk => by
        obtain ⟨data', hdata', rfl | rfl⟩ := Arena.exists_get?_modify hk n.index change
        · exact ⟨_, hdata', rfl, rfl, fun _ h => h⟩
        · have hframe := hchange data
          refine ⟨_, hdata', congrArg NodeFrame.kind hframe, congrArg NodeFrame.file hframe, fun m hm => ?_⟩
          exact (congrArg NodeFrame.symbol hframe).trans hm }
  refine ⟨hp.of_stays hstays (hframes ▸ hp.frames) .inl .inl .inl, hstays, ?_⟩
  rw [hframes]
  exact .refl hp.frames

/-- Something is said about a file, and text may be written at its end. -/
theorem modifyFile (hp : p.Sound) {change : FileData → FileData}
    (hchange : ∀ data, (change data).symbol = data.symbol ∧ (change data).node = data.node)
    (hframes : p.frames.Extends (Program.frames { p with files := p.files.modify f.index change }) []) :
    p.Extends { p with files := p.files.modify f.index change } [] := by
  have hstays : p.StaysIn { p with files := p.files.modify f.index change } :=
    { StaysIn.refl p with file := fun hf => Nat.lt_of_lt_of_le hf (by simp) }
  refine ⟨hp.of_stays hstays hframes.sound (fun {k data'} hk => ?_) .inl .inl, hstays, hframes⟩
  rw [Arena.get?_modify] at hk
  split at hk
  · next heq =>
    obtain rfl : f = k := congrArg FileId.mk heq
    obtain ⟨data, hdata, rfl⟩ := Option.map_eq_some_iff.1 hk
    have hsound := (hp.file hdata).mono hstays
    refine .inr ⟨?_, ?_⟩
    · rw [(hchange data).1]
      exact hsound.symbol
    · rw [(hchange data).2]
      exact hsound.node
  · exact .inl hk

end Sound

/-! ### New nodes -/

section

variable (m : SymbolId) {n : NodeId} {node : NodeData}

theorem node_declared (hnode : p.nodes.get? n.index = some node) (isValue : Bool) :
    (p.declared m n isValue).nodes.get? n.index = some { node with symbol := some m } := by
  show (p.nodes.modify n.index _).get? n.index = _
  rw [Arena.get?_modify, if_pos rfl, hnode]
  rfl

/-- A node that declares nothing may declare something. -/
theorem staysIn_declared (hnode : p.nodes.get? n.index = some node) (hnone : node.symbol = none) (isValue : Bool) :
    p.StaysIn (p.declared m n isValue) :=
  { StaysIn.refl p with
    symbol := fun hm => Nat.lt_of_lt_of_le hm (by simp [Program.declared])
    node := fun {k data} hk => by
      by_cases heq : n = k
      · subst heq
        obtain rfl := Option.some.inj (hnode.symm.trans hk)
        exact ⟨_, node_declared m hnode isValue, rfl, rfl, fun m' hm' => absurd hm' (by simp [hnone])⟩
      · refine ⟨data, ?_, rfl, rfl, fun _ h => h⟩
        show (p.nodes.modify n.index _).get? k.index = _
        rw [Arena.get?_modify, if_neg fun hindex => heq (congrArg NodeId.mk hindex), hk]
    value := fun {k data n'} hk hn' => by
      obtain ⟨data', hdata', rfl | rfl⟩ := Arena.exists_get?_modify hk m.index (.withDeclaration n isValue)
      · exact ⟨_, hdata', hn'⟩
      · exact ⟨_, hdata', (SymbolData.continues_withDeclaration n isValue data).valueDeclaration hn'⟩ }

theorem staysIn_modifyParent (n around : NodeId) :
    p.StaysIn { p with nodes := p.nodes.modify n.index fun data => { data with parent := some around } } :=
  { StaysIn.refl p with
    node := fun {k data} hk => by
      obtain ⟨data', hdata', rfl | rfl⟩ :=
        Arena.exists_get?_modify hk n.index fun data => { data with parent := some around }
      · exact ⟨_, hdata', rfl, rfl, fun _ h => h⟩
      · exact ⟨_, hdata', rfl, rfl, fun _ h => h⟩ }

end

namespace Extends

variable {m : SymbolId} {n : NodeId} {node : NodeData}

/-- A node that declares nothing yet becomes a declaration of a symbol. -/
theorem declared (h : p₀.Extends p []) (hnode : p.nodes.get? n.index = some node) (hnone : node.symbol = none)
    (isValue : Bool)
    (hframes : p₀.frames.Extends (p.frames.change n.index { node.frame with symbol := some m }) new) :
    p₀.Extends (p.declared m n isValue) new := by
  have hnodes : (p.declared m n isValue).frames = p.frames.change n.index { node.frame with symbol := some m } :=
    frames_modifyNode hnode fun data => { data with symbol := some m }
  have hstays := staysIn_declared m hnode hnone isValue
  rw [← hnodes] at hframes
  refine ⟨h.sound.of_stays hstays hframes.sound .inl (fun {k data'} hk => ?_) .inl, h.stays.trans hstays, hframes⟩
  rw [show (p.declared m n isValue).symbols = p.symbols.modify m.index _ from rfl, Arena.get?_modify] at hk
  split at hk
  · next heq =>
    obtain rfl : m = k := congrArg SymbolId.mk heq
    obtain ⟨old, hold, rfl⟩ := Option.map_eq_some_iff.1 hk
    have hsound := (h.sound.symbol hold).mono hstays
    refine .inr ⟨fun n' hn' => ?_, hsound.parent, hsound.type, hsound.declaredType⟩
    rcases List.mem_append.1 hn' with hn' | hn'
    · exact hsound.declarations n' hn'
    · obtain rfl := List.mem_singleton.1 hn'
      exact ⟨_, node_declared m hnode isValue, rfl⟩
  · exact .inl hk

/-- What is around a new node without a place is told. -/
theorem modifyParent (h : p₀.Extends p []) (hnew : p₀.nodes.size ≤ n.index) (hnode : p.nodes.get? n.index = some node)
    (hkind : node.kind ∈ SyntaxKind.placeless) {around : NodeId} {outer : NodeData} (hlt : around.index < n.index)
    (houter : p.nodes.get? around.index = some outer) (hfile : outer.file = node.file) :
    p₀.Extends { p with nodes := p.nodes.modify n.index fun data => { data with parent := some around } } [] := by
  let told : Program := { p with nodes := p.nodes.modify n.index fun data => { data with parent := some around } }
  have hnodes : told.frames = p.frames.change n.index { node.frame with parent := some around } :=
    frames_modifyNode hnode _
  have hframes : p₀.frames.Extends told.frames [] := by
    have hfits := h.sound.frames _ _ (frames_node hnode)
    have hfits' : p.frames.Fits n.index { node.frame with parent := some around } := by
      refine ⟨hfits.marks, fun parent hparent => ?_, hfits.front⟩
      obtain rfl := Option.some.inj hparent
      exact ⟨hlt, _, frames_node houter, hfile⟩
    rw [hnodes]
    refine h.frames.change (by rwa [length_frames]) (frames_node hnode) hfits' rfl ?_
    simp [NodeFrame.isDeclaration, NodeData.frame, hkind]
  have hstays : p.StaysIn told := staysIn_modifyParent n around
  exact ⟨h.sound.of_stays hstays hframes.sound .inl .inl .inl, h.stays.trans hstays, hframes⟩

end Extends

end Program

end ApiDoc
