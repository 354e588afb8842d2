import ApiDoc.Proofs.Positions
import ApiDoc.Proofs.Program.Threading

/-!
# Programs that are built have good places

Whatever is built with known handles, every node has a place in the text of its file, between characters
(`Program.IsPlaced`), and the code there is what was written for the declaration.  What is added later leaves texts and
places as they are (`Program.GoesOn`).  So the comments and the location of every node can be read
(`Program.IsReadable`).

Parameters have no place of their own: their code is part of the code of the signature, and they are put at the front of
their file (`SyntaxKind.placeless`).
-/

namespace ApiDoc

open Text

namespace Program

variable {p p' : Program} {n : NodeId} {node : NodeData} {written : List (SymbolId × String)}

/-! ### Places -/

/-- The code from the start of a node to its end. -/
def codeOf (p : Program) (node : NodeData) : Option String :=
  (p.files.get? node.file.index).bind fun file =>
    (slice? file.text.toList node.span.start node.span.stop).map String.ofList

/-- What is declared by nodes with places of their own, each with its code, in the order of the nodes. -/
def placedCodes (p : Program) : List (Option SymbolId × Option String) :=
  (p.nodes.toList.filter (·.frame.isDeclaration)).map fun node => (node.symbol, p.codeOf node)

/-- All nodes are in their files, between characters, and declarations are at the code that was written for them. -/
structure IsPlaced (p : Program) (written : List (SymbolId × String)) : Prop where
  within {n : NodeId} {node : NodeData} : p.nodes.get? n.index = some node →
    ∃ file, p.files.get? node.file.index = some file ∧ node.span.IsWithin file.text.toList
  codes : p.placedCodes = written.map fun d => (some d.1, some d.2)
  own {m : SymbolId} {data : SymbolData} : p.symbols.get? m.index = some data →
    ∀ n ∈ data.declarations, ∃ node, p.nodes.get? n.index = some node ∧ node.symbol = some m
  front {n : NodeId} {node : NodeData} : p.nodes.get? n.index = some node → node.kind ∈ SyntaxKind.placeless →
    node.span = {}

/-- What is written stays, and all nodes stay in their places. -/
structure GoesOn (p p' : Program) : Prop where
  text {f : FileId} {file : FileData} : p.files.get? f.index = some file →
    ∃ file' more, p'.files.get? f.index = some file' ∧ file'.text = file.text ++ more
  node {n : NodeId} {node : NodeData} : p.nodes.get? n.index = some node →
    ∃ node', p'.nodes.get? n.index = some node' ∧ node'.frame = node.frame ∧ p'.codeOf node' = p.codeOf node

/-- What comments say of a node is there to be read, and so is its location, which is that of its code. -/
structure IsReadable (p : Program) (config : Config) : Prop where
  tags {n : NodeId} {node : NodeData} : p.nodes.get? n.index = some node →
    ∃ facts, (p.environment config).tags n = .ok facts
  location {n : NodeId} {node : NodeData} : p.nodes.get? n.index = some node → ∃ file before code after,
    p.files.get? node.file.index = some file ∧ file.text.toList = before ++ (code ++ after) ∧
      node.span.start = byteLength before ∧ node.span.stop = byteLength (before ++ code) ∧
      (p.environment config).location n = .ok {
        file := normalizePath file.name
        line := before.count '\n'
        col := (Text.lastLine before).length
        endLine := (before ++ code).count '\n'
        endCol := (Text.lastLine (before ++ code)).length }

/-! ### Sound programs -/

theorem codeOf_eq {code : List Char} (h : p.frames.Marks node.file node.span code) :
    p.codeOf node = some (String.ofList code) := by
  obtain ⟨text, htext, hmarks⟩ := h
  rw [frames_texts] at htext
  obtain ⟨file, hfile, rfl⟩ := Option.map_eq_some_iff.1 htext
  rw [codeOf, hfile, Option.bind_some, hmarks.slice?]
  rfl

/-- A node is marked in the text of its file. -/
theorem Sound.exists_marks (hp : p.Sound) (hn : p.nodes.get? n.index = some node) : ∃ file code,
    p.files.get? node.file.index = some file ∧ node.span.Marks file.text.toList code := by
  obtain ⟨code, text, htext, hmarks⟩ := (hp.frames _ _ (frames_node hn)).marks
  rw [frames_texts] at htext
  obtain ⟨file, hfile, rfl⟩ := Option.map_eq_some_iff.1 htext
  exact ⟨file, code, hfile, hmarks⟩

/-- What a program has that is built from nothing. -/
theorem Extends.isPlaced (h : Extends {} p written) : p.IsPlaced written where
  within hn := by
    obtain ⟨file, code, hfile, hmarks⟩ := h.sound.exists_marks hn
    exact ⟨file, hfile, hmarks.isWithin⟩
  codes := by
    obtain ⟨rest, hrest, hdeclares⟩ := h.frames.nodes
    obtain rfl : p.frames.nodes = rest := hrest
    rw [show p.frames.nodes = p.nodes.toList.map NodeData.frame from rfl, List.filter_map,
      List.forall₂_map_left_iff] at hdeclares
    rw [placedCodes, ← List.forall₂_eq_eq_eq, List.forall₂_map_left_iff, List.forall₂_map_right_iff]
    refine hdeclares.imp fun node d hd => Prod.ext hd.1 ?_
    show p.codeOf node = some d.2
    rw [codeOf_eq hd.2, String.ofList_toList]
  own hm := (h.sound.symbol hm).declarations
  front hn := (h.sound.frames _ _ (frames_node hn)).front

theorem Extends.goesOn (hp : p.Sound) (h : p.Extends p' written) : p.GoesOn p' where
  text {f file} hf := by
    obtain ⟨more, hmore⟩ := h.frames.texts f.index file.text.toList (by rw [frames_texts, hf]; rfl)
    rw [frames_texts] at hmore
    obtain ⟨file', hfile', htext⟩ := Option.map_eq_some_iff.1 hmore
    refine ⟨file', String.ofList more, hfile', String.toList_injective ?_⟩
    rw [htext, String.toList_append, String.toList_ofList]
  node {n node} hn := by
    obtain ⟨node', hnode', hframe⟩ := h.node hn
    obtain ⟨code, hmarks⟩ := (hp.frames _ _ (frames_node hn)).marks
    refine ⟨node', hnode', hframe, ?_⟩
    rw [codeOf_eq hmarks]
    refine codeOf_eq ?_
    rw [show node'.file = node.file from congrArg NodeFrame.file hframe,
      show node'.span = node.span from congrArg NodeFrame.span hframe]
    exact h.frames.marks hmarks

/-! ### Reading -/

section

variable {config : Config} {file : FileData} {α : Type}

theorem look_node (hn : p.nodes.get? n.index = some node) (f : NodeData → α) :
    (do return f (← p.node n)) = (.ok (f node) : Answer α) :=
  map_eq_ok_iff.2 ⟨node, node_eq_ok_iff.2 hn, rfl⟩

theorem look_file {f : FileId} (hf : p.files.get? f.index = some file) (look : FileData → α) :
    (do return look (← p.file f)) = (.ok (look file) : Answer α) :=
  map_eq_ok_iff.2 ⟨file, Error.orOutOfBounds_eq_ok_iff.2 hf, rfl⟩

/-- Comments are looked for along the nodes around a node, which come before it and are in the same file. -/
theorem Sound.meets_blockFrom (hp : p.Sound) (hn : p.nodes.get? n.index = some node)
    (hfile : p.files.get? node.file.index = some file) {fuel : Nat} (hfuel : n.index < fuel) :
    Meets (fun _ => False) ((p.environment config).blockFrom file.text fuel n) fun _ => True := by
  induction fuel generalizing n node with
  | zero => exact absurd hfuel (Nat.not_lt_zero _)
  | succ fuel ih =>
    unfold Environment.blockFrom
    rw [show (p.environment config).checker.nodeSpan n = .ok node.span from look_node hn _,
      show (p.environment config).checker.nodeKind n = .ok node.kind from look_node hn _,
      show (p.environment config).checker.nodeParent n = .ok node.parent from look_node hn _]
    obtain ⟨file', code, hfile', hmarks⟩ := hp.exists_marks hn
    obtain rfl := Option.some.inj (hfile.symm.trans hfile')
    refine (Comment.Locator.isTotal_standard.meets_read hmarks.isWithin.pos).bind fun block _ _ => ?_
    cases block with
    | some block => exact .pure trivial
    | none =>
      refine Meets.ite (fun _ => ?_) fun _ => .pure trivial
      cases hparent : node.parent with
      | none => exact .pure trivial
      | some n' =>
        obtain ⟨hlt, frame, hframe, hsame⟩ := (hp.frames _ _ (frames_node hn)).around n' hparent
        obtain ⟨node', hnode', rfl⟩ := exists_node hframe
        exact ih hnode' ((congrArg (p.files.get? ·.index) hsame).trans hfile) (by omega)

theorem Sound.isReadable (hp : p.Sound) (config : Config) : p.IsReadable config where
  tags {n node} hn := by
    obtain ⟨file, -, hfile, -⟩ := hp.exists_marks hn
    have hlt : n.index < p.nodes.size + 1 := Nat.lt_succ_of_lt (Arena.lt_size hn)
    let env := p.environment config
    have hmeets : Meets (fun _ => False) (env.blockFrom file.text (p.nodes.size + 1) n) fun _ => True :=
      hp.meets_blockFrom hn hfile hlt
    obtain ⟨block, hblock, -⟩ := hmeets.exists_ok
    refine ⟨TagFacts.ofBlock block (Visibility.ofModifiers node.modifiers), ?_⟩
    refine bind_eq_ok_iff.2 ⟨node.modifiers, look_node hn _, bind_eq_ok_iff.2 ⟨node.file, look_node hn _, ?_⟩⟩
    exact bind_eq_ok_iff.2 ⟨file.text, look_file hfile _, bind_eq_ok_iff.2 ⟨block, hblock, rfl⟩⟩
  location {n node} hn := by
    obtain ⟨file, code, hfile, before, lead, after, htext, hpos, hstart, hstop⟩ := hp.exists_marks hn
    rw [← List.append_assoc] at htext
    have hfront : node.span.start = byteLength (before ++ lead) := by rw [byteLength_append, hstart, hpos]
    have hend : node.span.stop = byteLength (before ++ lead ++ code) := by rw [byteLength_append, ← hfront, hstop]
    have hline := lineCol_byteLength (before ++ lead) (code ++ after)
    have hendLine := lineCol_byteLength (before ++ lead ++ code) after
    rw [List.append_assoc (before ++ lead) code after] at hendLine
    refine ⟨file, before ++ lead, code, after, hfile, htext, hfront, hend, ?_⟩
    refine bind_eq_ok_iff.2 ⟨node.file, look_node hn _, bind_eq_ok_iff.2 ⟨node.span, look_node hn _, ?_⟩⟩
    refine bind_eq_ok_iff.2 ⟨file.text, look_file hfile _, ?_⟩
    rw [htext, hfront, hend]
    simp only [hline, hendLine]
    exact bind_eq_ok_iff.2 ⟨file.name, look_file hfile _, rfl⟩

end

/-! ### Programs that are built -/

/-- Steps up to any step build a program, and the steps that follow go on from there. -/
theorem exists_run {before after : List BuildStep} (h : BuildStep.areThreaded [] {} (before ++ after) = true) :
    ∃ added b known, (BuildStep.runAll before).run {} = .ok (added, b) ∧
      Builder.Extends {} b (BuildStep.writtenBy {} before) ∧ (∀ handle ∈ known, Handle.IsKnown b handle) ∧
      BuildStep.areThreaded known b after = true := by
  have hmade := BuildStep.makes_runAll .empty (by simp) h
  obtain ⟨⟨added, b⟩, hrun, hb, known, hknown, hafter⟩ := Meets.exists_ok hmade
  exact ⟨added, b, known, hrun, hb, hknown, hafter⟩

theorem build_eq {steps : List BuildStep} {added : List Added} {b : Builder}
    (h : (BuildStep.runAll steps).run {} = .ok (added, b)) : build steps = .ok b.program := by
  rw [build, h]
  rfl

/-- **Programs that are built with known handles have good places.**  Such a program is there at every step, and goes
on from there: every node is in its file, between characters, and every declaration with a place of its own is at the
code that was written for it; what is written stays as it is and where it is; and comments and locations can be read. -/
theorem build_places {steps : List BuildStep} (h : BuildStep.areThreaded [] {} steps = true) :
    ∃ p, build steps = .ok p ∧ p.IsPlaced (BuildStep.writtenBy {} steps) ∧ (∀ config, p.IsReadable config) ∧
      ∀ before after, steps = before ++ after → ∃ p', build before = .ok p' ∧ p'.GoesOn p := by
  have hall : BuildStep.areThreaded [] {} (steps ++ []) = true := by rwa [List.append_nil]
  obtain ⟨added, b, known, hrun, hb, -, -⟩ := exists_run hall
  refine ⟨b.program, build_eq hrun, hb.program.isPlaced, hb.sound.program.isReadable, ?_⟩
  rintro before after rfl
  obtain ⟨added₁, b₁, known₁, hrun₁, hb₁, hknown₁, hafter⟩ := exists_run h
  refine ⟨b₁.program, build_eq hrun₁, ?_⟩
  -- the steps that follow run from there to the end
  have hrest : BuildStep.areThreaded known₁ b₁ (after ++ []) = true := by rwa [List.append_nil]
  have hmade : Build.Makes {} (BuildStep.runAll (before ++ after)) fun _ b' => b₁.program.GoesOn b'.program := by
    rw [BuildStep.runAll, List.mapM_append]
    refine Build.Makes.of_run hrun₁ ?_
    refine (BuildStep.makes_runAll hb₁.sound hknown₁ hrest).bind fun _ b' hmade => .pure ?_
    exact hmade.1.program.goesOn hb₁.sound.program
  rw [Build.Makes, hrun] at hmade
  exact hmade

/-- A module with a variable, a pattern and a function, named and described with characters of several bytes. -/
def wideNames : List BuildStep := [
  .addModule "a.ts",
  .intrinsic "number",
  .addVariable (.file ⟨0⟩) "/** Höhe → */" "let" "größe" ⟨0⟩ (some "\"→\""),
  .destructuredConst (.file ⟨0⟩) "" [("é", ⟨0⟩), ("ß", ⟨0⟩)] "größe",
  .function (.file ⟨0⟩) "f" [("", { params := [{ name := "ä", type := ⟨0⟩ }], returnType := ⟨0⟩ }, true)]]

theorem build_places_wideNames : BuildStep.areThreaded [] {} wideNames = true ∧
    BuildStep.writtenBy {} wideNames =
      [(⟨1⟩, "größe = \"→\""), (⟨2⟩, "é"), (⟨3⟩, "ß"), (⟨4⟩, "function f(ä) \x7b\x7d")] ∧
    ∃ p, build wideNames = .ok p ∧ p.IsPlaced (BuildStep.writtenBy {} wideNames) ∧
      (∀ config, p.IsReadable config) ∧
      ∀ before after, wideNames = before ++ after → ∃ p', build before = .ok p' ∧ p'.GoesOn p := by
  have h : BuildStep.areThreaded [] {} wideNames = true := by decide +kernel
  exact ⟨h, by decide +kernel, build_places h⟩

/-- A parameter with a name only. -/
def plainParameter : ParamSpec := { name := "x", type := ⟨0⟩ }

/-- A function with that parameter. -/
def plainFunction : List BuildStep := [
  .addModule "a.ts",
  .intrinsic "number",
  .function (.file ⟨0⟩) "f" [("", { params := [plainParameter], returnType := ⟨0⟩ }, true)]]

/-- A parameter is declared as well, and what is written for it is not at its place, which is empty. -/
theorem parameter_unplaced : BuildStep.areThreaded [] {} plainFunction = true ∧
    ∃ (p : Program) (m : SymbolId) (data : SymbolData) (n : NodeId) (node : NodeData), build plainFunction = .ok p ∧
      p.symbols.get? m.index = some data ∧ data.name = plainParameter.name ∧ n ∈ data.declarations ∧
      p.nodes.get? n.index = some node ∧ node.symbol = some m ∧ p.codeOf node ≠ some plainParameter.code := by
  refine ⟨by decide +kernel, ?_⟩
  have hrun : (do
      let p ← build plainFunction
      return ((p.symbols.get? 2).map fun (data : SymbolData) => (data.name, data.declarations),
        (p.nodes.get? 2).map fun (node : NodeData) => (node.symbol, p.codeOf node))) =
      .ok (some (plainParameter.name, [⟨2⟩]), some (some ⟨2⟩, some "")) := by decide +kernel
  obtain ⟨p, hbuild, hrun⟩ := bind_eq_ok_iff.1 hrun
  obtain ⟨hsymbol, hnode⟩ := Prod.mk.inj (Except.ok.inj hrun)
  obtain ⟨data, hdata, hsymbol⟩ := Option.map_eq_some_iff.1 hsymbol
  obtain ⟨node, hnode, hplace⟩ := Option.map_eq_some_iff.1 hnode
  obtain ⟨hname, hdeclarations⟩ := Prod.mk.inj hsymbol
  obtain ⟨hdeclared, hcode⟩ := Prod.mk.inj hplace
  refine ⟨p, ⟨2⟩, data, ⟨2⟩, node, hbuild, hdata, hname, by simp [hdeclarations], hnode, hdeclared, ?_⟩
  rw [hcode]
  decide +kernel

end Program

end ApiDoc
