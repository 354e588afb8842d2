import ApiDoc.Program.Builder
import ApiDoc.Proofs.Failure.Knowledge

/-!
# Nodes and the texts they are in

What the nodes of a program say of their places (`NodeFrame`), with the texts of its files, is its `Frames`.  Spans are
offsets in bytes, put together from the lengths of pieces of code.  `Span.Marks` is the reason why they are right: how
the text of the file is made up of these pieces.  It outlasts whatever is written behind the span, so a node that fits
its place fits it for good.

`Frames.Extends` says what is added: nodes behind those there are and text behind the text of each file, with the
declarations of some symbols.
-/

namespace ApiDoc

open Text

variable {text code more : List Char}

theorem Text.byteLength_toList (s : String) : byteLength s.toList = s.utf8ByteSize := by
  have hlist (cs : List Char) : byteLength cs = (String.ofList cs).utf8ByteSize := by
    induction cs with
    | nil => rfl
    | cons c cs ih =>
      rw [byteLength_cons, ih, String.ofList_cons, String.utf8ByteSize_append, String.utf8ByteSize_singleton]
  rw [hlist, String.ofList_toList]

/-! ### Spans -/

namespace Span

variable {span : Span}

/-- A span marks code in a text that is put together from what is before it, the comments that lead to the code, the
code and what follows. -/
def Marks (span : Span) (text code : List Char) : Prop :=
  ∃ before lead after, text = before ++ (lead ++ (code ++ after)) ∧ span.pos = byteLength before ∧
    span.start = span.pos + byteLength lead ∧ span.stop = span.start + byteLength code

/-- The offsets of a span are in order and lie between the characters of a text. -/
structure IsWithin (span : Span) (text : List Char) : Prop where
  pos_le_start : span.pos ≤ span.start
  start_le_stop : span.start ≤ span.stop
  stop_le : span.stop ≤ byteLength text
  pos : IsBoundary text span.pos
  start : IsBoundary text span.start
  stop : IsBoundary text span.stop

theorem isBoundary_of_append {before after : List Char} {pos : Nat} (h : pos = byteLength before) :
    IsBoundary (before ++ after) pos :=
  ⟨before, after, rfl, by rw [byteLength_append, h]; omega⟩

namespace Marks

theorem isWithin (h : span.Marks text code) : span.IsWithin text := by
  obtain ⟨before, lead, after, rfl, hpos, hstart, hstop⟩ := h
  refine ⟨by omega, by omega, by simp only [byteLength_append]; omega, isBoundary_of_append hpos, ?_, ?_⟩
  · rw [← List.append_assoc]
    exact isBoundary_of_append (by rw [byteLength_append]; omega)
  · rw [← List.append_assoc, ← List.append_assoc]
    exact isBoundary_of_append (by simp only [byteLength_append]; omega)

theorem slice? (h : span.Marks text code) : Text.slice? text span.start span.stop = some code := by
  obtain ⟨before, lead, after, rfl, hpos, hstart, hstop⟩ := h
  have hslice := slice?_byteLength (before ++ lead) code after
  rw [List.append_assoc] at hslice
  simp only [byteLength_append, Nat.add_assoc] at hslice
  rwa [hstop, hstart, hpos, Nat.add_assoc]

theorem append (h : span.Marks text code) (more : List Char) : span.Marks (text ++ more) code := by
  obtain ⟨before, lead, after, rfl, hspan⟩ := h
  exact ⟨before, lead, after ++ more, by simp only [List.append_assoc], hspan⟩

/-- What has no place of its own is marked at the front. -/
theorem empty (text : List Char) : Marks {} text [] := ⟨[], [], text, rfl, rfl, rfl, rfl⟩

/-- A part of the code is marked behind the part before it. -/
theorem inner {before after : List Char} (h : span.Marks text (before ++ (code ++ after))) {start stop : Nat}
    (hstart : start = span.start + byteLength before) (hstop : stop = start + byteLength code) :
    Marks ⟨start, start, stop⟩ text code := by
  obtain ⟨front, lead, rest, rfl, hpos, hstart', -⟩ := h
  refine ⟨front ++ (lead ++ before), [], after ++ rest, ?_, ?_, rfl, hstop⟩
  · simp only [List.append_assoc, List.nil_append]
  · simp only [byteLength_append]
    omega

end Marks

end Span

/-! ### Nodes and texts -/

/-- The kinds of nodes without a place of their own. -/
def SyntaxKind.placeless : List SyntaxKind := [.sourceFile, .parameter]

/-- What a node says of its place, and of what it declares. -/
structure NodeFrame where
  kind : SyntaxKind
  file : FileId
  span : Span
  parent : Option NodeId
  symbol : Option SymbolId

/-- A node that declares something and has a place of its own. -/
def NodeFrame.isDeclaration (frame : NodeFrame) : Bool :=
  frame.symbol.isSome && !SyntaxKind.placeless.contains frame.kind

/-- The nodes of a program, and the texts of its files. -/
structure Frames where
  nodes : List NodeFrame
  texts : List (List Char)

namespace Frames

variable {l l' l'' l₀ : Frames} {frame frame' : NodeFrame} {n : Nat} {m : SymbolId} {code : String}
  {new new' : List (SymbolId × String)}

/-- A place marks code in the text of its file. -/
def Marks (l : Frames) (file : FileId) (span : Span) (code : List Char) : Prop :=
  ∃ text, l.texts[file.index]? = some text ∧ span.Marks text code

/-- A node declares a symbol with the code that it marks. -/
def Declares (l : Frames) (frame : NodeFrame) (d : SymbolId × String) : Prop :=
  frame.symbol = some d.1 ∧ l.Marks frame.file frame.span d.2.toList

/-- A node fits its number: it has a place in the text of its file, and what is around it is an earlier node of the same
file. -/
structure Fits (l : Frames) (n : Nat) (frame : NodeFrame) : Prop where
  marks : ∃ code, l.Marks frame.file frame.span code
  around : ∀ parent ∈ frame.parent, parent.index < n ∧
    ∃ frame', l.nodes[parent.index]? = some frame' ∧ frame'.file = frame.file
  front : frame.kind ∈ SyntaxKind.placeless → frame.span = {}

/-- All nodes fit. -/
def Sound (l : Frames) : Prop := ∀ n frame, l.nodes[n]? = some frame → l.Fits n frame

/-- Texts go on as they were. -/
def Grows (l l' : Frames) : Prop :=
  ∀ (i : Nat) (text : List Char), l.texts[i]? = some text → ∃ more, l'.texts[i]? = some (text ++ more)

/-- Texts go on, and nodes are added that fit.  The new declarations are of some symbols, each with its code, in
order. -/
structure Extends (l l' : Frames) (new : List (SymbolId × String)) : Prop where
  sound : l'.Sound
  texts : l.Grows l'
  nodes : ∃ rest, l'.nodes = l.nodes ++ rest ∧ List.Forall₂ l'.Declares (rest.filter NodeFrame.isDeclaration) new

/-! ### Texts that grow -/

theorem Grows.refl (l : Frames) : l.Grows l := fun _ _ h => ⟨[], by rw [List.append_nil]; exact h⟩

theorem Grows.trans (h : l.Grows l') (h' : l'.Grows l'') : l.Grows l'' := by
  intro i text htext
  obtain ⟨more, hmore⟩ := h i text htext
  obtain ⟨more', hmore'⟩ := h' i _ hmore
  exact ⟨more ++ more', by rw [hmore', List.append_assoc]⟩

/-- What is marked stays marked as texts grow. -/
theorem Marks.mono {file : FileId} {span : Span} {code : List Char} (h : l.Marks file span code)
    (htexts : l.Grows l') : l'.Marks file span code := by
  obtain ⟨text, htext, hmarks⟩ := h
  obtain ⟨more, hmore⟩ := htexts _ _ htext
  exact ⟨_, hmore, hmarks.append more⟩

theorem Declares.mono {d : SymbolId × String} (h : l.Declares frame d) (htexts : l.Grows l') : l'.Declares frame d :=
  ⟨h.1, h.2.mono htexts⟩

/-- A node that fits still does when there is more. -/
theorem Fits.mono (h : l.Fits n frame) (hnodes : ∀ (i : Nat) (frame : NodeFrame), l.nodes[i]? = some frame →
    ∃ frame', l'.nodes[i]? = some frame' ∧ frame'.file = frame.file) (htexts : l.Grows l') : l'.Fits n frame where
  marks := h.marks.imp fun _ hmarks => hmarks.mono htexts
  around parent hparent := by
    obtain ⟨hlt, around, haround, hfile⟩ := h.around parent hparent
    obtain ⟨around', haround', hfile'⟩ := hnodes _ _ haround
    exact ⟨hlt, around', haround', hfile'.trans hfile⟩
  front := h.front

theorem Marks.stop {file : FileId} {span : Span} {code : List Char} (h : l.Marks file span code) :
    span.stop = span.start + byteLength code := by
  obtain ⟨_, -, _, _, _, -, -, -, hstop⟩ := h
  exact hstop

/-- A part of the code is marked behind the part before it. -/
theorem Marks.inner {file : FileId} {span : Span} {before code after : List Char}
    (h : l.Marks file span (before ++ (code ++ after))) {start stop : Nat}
    (hstart : start = span.start + byteLength before) (hstop : stop = start + byteLength code) :
    l.Marks file ⟨start, start, stop⟩ code := by
  obtain ⟨text, htext, hmarks⟩ := h
  exact ⟨text, htext, hmarks.inner hstart hstop⟩

/-- Names are marked one after the other, with two bytes between them. -/
def MarksNames (l : Frames) (file : FileId) : Nat → List String → Prop
  | _, [] => True
  | offset, name :: rest =>
    l.Marks file ⟨offset, offset, offset + name.utf8ByteSize⟩ name.toList ∧
      l.MarksNames file (offset + name.utf8ByteSize + 2) rest

theorem MarksNames.mono {file : FileId} {offset : Nat} {names : List String} (h : l.MarksNames file offset names)
    (htexts : l.Grows l') : l'.MarksNames file offset names := by
  induction names generalizing offset with
  | nil => trivial
  | cons name rest ih => exact ⟨h.1.mono htexts, ih h.2⟩

/-- The names of a list that is marked. -/
theorem Marks.names {file : FileId} {span : Span} {before after : List Char} {names : List String} {offset : Nat}
    (h : l.Marks file span (before ++ ((", ".intercalate names).toList ++ after)))
    (hoffset : offset = span.start + byteLength before) : l.MarksNames file offset names := by
  induction names generalizing before offset with
  | nil => trivial
  | cons name rest ih =>
    cases rest with
    | nil =>
      rw [String.intercalate_singleton] at h
      exact ⟨h.inner hoffset (by rw [byteLength_toList]), trivial⟩
    | cons next rest =>
      rw [String.intercalate_cons_cons, String.toList_append, String.toList_append] at h
      simp only [List.append_assoc] at h
      refine ⟨h.inner hoffset (by rw [byteLength_toList]), ?_⟩
      simp only [← List.append_assoc] at h
      rw [List.append_assoc _ _ after] at h
      refine ih h ?_
      have hcomma : ", ".utf8ByteSize = 2 := rfl
      simp only [byteLength_append, byteLength_toList]
      omega

/-! ### What is added -/

namespace Extends

theorem refl (h : l.Sound) : l.Extends l [] := ⟨h, .refl l, [], (List.append_nil _).symm, .nil⟩

theorem trans (h : l.Extends l' new) (h' : l'.Extends l'' new') : l.Extends l'' (new ++ new') where
  sound := h'.sound
  texts := h.texts.trans h'.texts
  nodes := by
    obtain ⟨rest, hrest, hnew⟩ := h.nodes
    obtain ⟨rest', hrest', hnew'⟩ := h'.nodes
    refine ⟨rest ++ rest', by rw [hrest', hrest, List.append_assoc], ?_⟩
    rw [List.filter_append]
    exact List.rel_append (hnew.imp fun _ _ hd => hd.mono h'.texts) hnew'

/-- A node stays as it is. -/
theorem node (h : l.Extends l' new) (hn : l.nodes[n]? = some frame) : l'.nodes[n]? = some frame := by
  obtain ⟨rest, hrest, -⟩ := h.nodes
  rw [hrest, List.getElem?_append_left (List.getElem?_eq_some_iff.1 hn).1, hn]

theorem length_le (h : l.Extends l' new) : l.nodes.length ≤ l'.nodes.length := by
  obtain ⟨rest, hrest, -⟩ := h.nodes
  rw [hrest, List.length_append]
  exact Nat.le_add_right _ _

theorem marks {file : FileId} {span : Span} {code : List Char} (h : l.Extends l' new)
    (hmarks : l.Marks file span code) : l'.Marks file span code := hmarks.mono h.texts

end Extends

/-- Only texts change. -/
theorem Sound.extends_texts (hl : l.Sound) (hnodes : l'.nodes = l.nodes) (htexts : l.Grows l') : l.Extends l' [] where
  sound n frame hn := (hl n frame (hnodes ▸ hn)).mono (fun _ _ h => ⟨_, hnodes ▸ h, rfl⟩) htexts
  texts := htexts
  nodes := ⟨[], by rw [hnodes, List.append_nil], .nil⟩

/-- Text is written at the end of a file. -/
def write (l : Frames) (file : FileId) (cs : List Char) : Frames :=
  { l with texts := l.texts.modify file.index (· ++ cs) }

theorem texts_write (l : Frames) (file : FileId) (cs : List Char) {i : Nat} {text : List Char}
    (h : l.texts[i]? = some text) :
    (l.write file cs).texts[i]? = some (if file.index = i then text ++ cs else text) := by
  rw [write, List.getElem?_modify, h]
  split <;> rfl

theorem Sound.extends_write (hl : l.Sound) (file : FileId) (cs : List Char) : l.Extends (l.write file cs) [] := by
  refine hl.extends_texts rfl fun i text htext => ?_
  rw [texts_write l file cs htext]
  split
  · exact ⟨cs, rfl⟩
  · exact ⟨[], by rw [List.append_nil]⟩

/-- There is one more text, which is empty. -/
def newText (l : Frames) : Frames := { l with texts := l.texts ++ [[]] }

theorem Sound.extends_newText (hl : l.Sound) : l.Extends l.newText [] :=
  hl.extends_texts rfl fun _ _ h =>
    ⟨[], by rw [newText, List.getElem?_append_left (List.getElem?_eq_some_iff.1 h).1, h, List.append_nil]⟩

/-- There is one more node. -/
def push (l : Frames) (frame : NodeFrame) : Frames := { l with nodes := l.nodes ++ [frame] }

theorem node_push (l : Frames) (frame : NodeFrame) : (l.push frame).nodes[l.nodes.length]? = some frame := by
  simp [push]

theorem Sound.push (hl : l.Sound) (h : l.Fits l.nodes.length frame) : (l.push frame).Sound := by
  have hkeep {i : Nat} {frame' : NodeFrame} (hi : l.nodes[i]? = some frame') :
      (l.push frame).nodes[i]? = some frame' := by
    rw [Frames.push, List.getElem?_append_left (List.getElem?_eq_some_iff.1 hi).1, hi]
  intro n frame' hn
  rcases Nat.lt_trichotomy n l.nodes.length with hlt | rfl | hgt
  · rw [Frames.push, List.getElem?_append_left hlt] at hn
    exact (hl _ _ hn).mono (fun _ _ hi => ⟨_, hkeep hi, rfl⟩) (.refl l)
  · obtain rfl := Option.some.inj ((l.node_push frame).symm.trans hn)
    exact h.mono (fun _ _ hi => ⟨_, hkeep hi, rfl⟩) (.refl l)
  · rw [Frames.push, List.getElem?_eq_none (by simp; omega)] at hn
    cases hn

/-- A node that declares nothing is no declaration. -/
theorem Sound.extends_push (hl : l.Sound) (h : l.Fits l.nodes.length frame) (hplain : frame.isDeclaration = false) :
    l.Extends (l.push frame) [] where
  sound := hl.push h
  texts := .refl l
  nodes := ⟨[frame], rfl, by rw [List.filter_singleton, hplain]; exact .nil⟩

/-- A node is changed. -/
def change (l : Frames) (n : Nat) (frame : NodeFrame) : Frames := { l with nodes := l.nodes.set n frame }

theorem node_change (h : l.nodes[n]? = some frame) (frame' : NodeFrame) :
    (l.change n frame').nodes[n]? = some frame' := by
  rw [change, List.getElem?_set_self (List.getElem?_eq_some_iff.1 h).1]

theorem node_change_of_ne (l : Frames) {i : Nat} (h : n ≠ i) (frame' : NodeFrame) :
    (l.change n frame').nodes[i]? = l.nodes[i]? := by
  rw [change, List.getElem?_set_ne h]

theorem Sound.change (hl : l.Sound) (hn : l.nodes[n]? = some frame) (hfits : l.Fits n frame')
    (hfile : frame'.file = frame.file) : (l.change n frame').Sound := by
  have hkeep (i : Nat) (around : NodeFrame) (hi : l.nodes[i]? = some around) :
      ∃ around', (l.change n frame').nodes[i]? = some around' ∧ around'.file = around.file := by
    by_cases h : n = i
    · subst h
      obtain rfl := Option.some.inj (hn.symm.trans hi)
      exact ⟨frame', node_change hn frame', hfile⟩
    · exact ⟨around, (l.node_change_of_ne h frame').trans hi, rfl⟩
  intro i around hi
  by_cases h : n = i
  · subst h
    obtain rfl := Option.some.inj ((node_change hn frame').symm.trans hi)
    exact hfits.mono hkeep (.refl l)
  · rw [l.node_change_of_ne h] at hi
    exact (hl _ _ hi).mono hkeep (.refl l)

/-- A new node is changed where nothing new is a declaration. -/
theorem Extends.exists_change (h : l₀.Extends l []) (hnew : l₀.nodes.length ≤ n) (hn : l.nodes[n]? = some frame)
    (frame' : NodeFrame) : ∃ before after, (l.change n frame').nodes = l₀.nodes ++ (before ++ frame' :: after) ∧
      before.filter NodeFrame.isDeclaration = [] ∧ after.filter NodeFrame.isDeclaration = [] := by
  obtain ⟨rest, hrest, hnone⟩ := h.nodes
  have hplain : ∀ frame ∈ rest, ¬ frame.isDeclaration = true :=
    List.filter_eq_nil_iff.1 (List.forall₂_nil_right_iff.1 hnone)
  have hlt : n - l₀.nodes.length < rest.length := by
    have hlt := (List.getElem?_eq_some_iff.1 hn).1
    rw [hrest, List.length_append] at hlt
    omega
  refine ⟨rest.take (n - l₀.nodes.length), rest.drop (n - l₀.nodes.length + 1), ?_, ?_, ?_⟩
  · rw [change, hrest, List.set_append_right _ _ hnew, List.set_eq_take_append_cons_drop, if_pos hlt]
  · exact List.filter_eq_nil_iff.2 fun frame hframe => hplain frame (List.mem_of_mem_take hframe)
  · exact List.filter_eq_nil_iff.2 fun frame hframe => hplain frame (List.mem_of_mem_drop hframe)

/-- A new node is changed, and is no declaration. -/
theorem Extends.change (h : l₀.Extends l []) (hnew : l₀.nodes.length ≤ n) (hn : l.nodes[n]? = some frame)
    (hfits : l.Fits n frame') (hfile : frame'.file = frame.file) (hplain : frame'.isDeclaration = false) :
    l₀.Extends (l.change n frame') [] where
  sound := h.sound.change hn hfits hfile
  texts := h.texts
  nodes := by
    obtain ⟨before, after, hnodes, hbefore, hafter⟩ := h.exists_change hnew hn frame'
    refine ⟨_, hnodes, ?_⟩
    rw [List.filter_append, hbefore, List.filter_cons, hplain, hafter]
    exact .nil

/-- A new node becomes a declaration. -/
theorem Extends.declare (h : l₀.Extends l []) (hnew : l₀.nodes.length ≤ n) (hn : l.nodes[n]? = some frame)
    (hkind : frame.kind ∉ SyntaxKind.placeless) (hmarks : l.Marks frame.file frame.span code.toList) :
    l₀.Extends (l.change n { frame with symbol := some m }) [(m, code)] where
  sound := by
    have hfits := h.sound _ _ hn
    have hsame : l.Fits n { frame with symbol := some m } := ⟨hfits.marks, hfits.around, hfits.front⟩
    exact h.sound.change hn hsame rfl
  texts := h.texts
  nodes := by
    obtain ⟨before, after, hnodes, hbefore, hafter⟩ := h.exists_change hnew hn { frame with symbol := some m }
    have hdeclares : NodeFrame.isDeclaration { frame with symbol := some m } = true := by
      simpa [NodeFrame.isDeclaration] using hkind
    refine ⟨_, hnodes, ?_⟩
    rw [List.filter_append, hbefore, List.filter_cons, hdeclares, hafter]
    exact .cons ⟨rfl, hmarks⟩ .nil

end Frames

end ApiDoc
