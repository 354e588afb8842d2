import ApiDoc.Program.Step
import ApiDoc.Proofs.Run.Answers
import Mathlib.Data.List.Nodup
import Mathlib.Logic.Function.Basic

/-!
# Where symbols stand

Of all that a program holds, its *outline* is what decides where a symbol is listed: the tables of each symbol with
the symbol around it, and the files with what they declare.  In an outline that is *placed* every symbol is listed at
one place at most, and that place belongs to the symbol around it; files are apart from each other and inside of
nothing (`Outline.Placed`).

A symbol is *loose* as long as it is listed nowhere, and it is placed once (`Outline.Placed.place`).
-/

namespace ApiDoc

/-- What a symbol lists, and where it is listed. -/
structure SymbolOutline where
  exportsOf : List SymbolId := []
  membersOf : List SymbolId := []
  parent : Option SymbolId := none

/-- Everything that a symbol lists. -/
def SymbolOutline.listed (s : SymbolOutline) : List SymbolId := s.exportsOf ++ s.membersOf

/-- The tables of a symbol that exports one more. -/
def SymbolOutline.withExport (m : SymbolId) (s : SymbolOutline) : SymbolOutline :=
  { s with exportsOf := s.exportsOf ++ [m] }

/-- The tables of a symbol with one more member. -/
def SymbolOutline.withMember (m : SymbolId) (s : SymbolOutline) : SymbolOutline :=
  { s with membersOf := s.membersOf ++ [m] }

theorem SymbolOutline.listed_withExport (m : SymbolId) (s : SymbolOutline) :
    (s.withExport m).listed.Perm (m :: s.listed) := by
  simp [withExport, listed]

theorem SymbolOutline.listed_withMember (m : SymbolId) (s : SymbolOutline) :
    (s.withMember m).listed.Perm (m :: s.listed) := by
  simpa [withMember, listed] using List.perm_append_singleton m (s.exportsOf ++ s.membersOf)

/-- The tables of a symbol that is placed inside of another. -/
def SymbolOutline.inside (owner : SymbolId) (s : SymbolOutline) : SymbolOutline := { s with parent := some owner }

def SymbolData.outline (data : SymbolData) : SymbolOutline := ⟨data.exportsOf, data.membersOf, data.parent⟩

/-- What a file lists, and under which node and symbol. -/
structure FileOutline where
  node : NodeId
  symbol : SymbolId
  locals : List SymbolId

/-- A file that declares one more symbol. -/
def FileOutline.withLocal (m : SymbolId) (file : FileOutline) : FileOutline := { file with locals := file.locals ++ [m] }

def FileData.outline (data : FileData) : FileOutline := ⟨data.node, data.symbol, data.locals⟩

/-- The part of a program that decides where symbols are listed. -/
structure Outline where
  /-- How many symbols there are. -/
  symbols : Nat
  /-- How many nodes there are. -/
  nodes : Nat
  /-- The tables of a symbol; those of one that does not exist are empty. -/
  symbol : SymbolId → SymbolOutline
  /-- The symbol that a node declares. -/
  declared : NodeId → Option SymbolId
  /-- The files. -/
  files : List FileOutline

def Program.outline (p : Program) : Outline where
  symbols := p.symbols.size
  nodes := p.nodes.size
  symbol m := ((p.symbols.get? m.index).map SymbolData.outline).getD {}
  declared n := (p.nodes.get? n.index).bind NodeData.symbol
  files := p.files.toList.map FileData.outline

theorem Program.outline_symbol {p : Program} {m : SymbolId} {data : SymbolData} (h : p.symbols.get? m.index = some data) :
    p.outline.symbol m = data.outline := by
  simp [outline, h]

theorem Program.outline_file {p : Program} {f : FileId} {data : FileData} (h : p.file f = .ok data) :
    p.outline.files[f.index]? = some data.outline := by
  have hget := congrArg (Option.map FileData.outline) (Error.orOutOfBounds_eq_ok_iff.1 h)
  simpa [outline, Arena.toList, Arena.get?] using hget

namespace Outline

/-- A file that stands at its node, inside of nothing, and around what it declares. -/
structure HasPlaced (o : Outline) (file : FileOutline) : Prop where
  symbol : file.symbol.index < o.symbols
  node : file.node.index < o.nodes
  declared : o.declared file.node = some file.symbol
  root : (o.symbol file.symbol).parent = none
  locals {m} : m ∈ file.locals → (o.symbol m).parent = some file.symbol
  once : file.locals.Nodup

/-- Every symbol is listed at one place at most, which belongs to the symbol around it. -/
structure Placed (o : Outline) : Prop where
  listed {m owner} : m ∈ (o.symbol owner).listed → (o.symbol m).parent = some owner
  once (owner) : (o.symbol owner).listed.Nodup
  known {m owner} : (o.symbol m).parent = some owner → m.index < o.symbols
  file {file} : file ∈ o.files → o.HasPlaced file
  apart : (o.files.map FileOutline.symbol).Nodup

/-- A symbol that is listed nowhere and that is no file's. -/
structure IsLoose (o : Outline) (m : SymbolId) : Prop where
  known : m.index < o.symbols
  parent : (o.symbol m).parent = none
  noFile {file} : file ∈ o.files → file.symbol ≠ m

/-- A node that is no file's. -/
structure IsInner (o : Outline) (n : NodeId) : Prop where
  known : n.index < o.nodes
  noFile {file} : file ∈ o.files → file.node ≠ n

/-- The outline with the tables of a symbol changed. -/
def changeSymbol (o : Outline) (m : SymbolId) (f : SymbolOutline → SymbolOutline) : Outline :=
  { o with symbol := Function.update o.symbol m (f (o.symbol m)) }

/-- The outline with what a node declares changed. -/
def changeNode (o : Outline) (n : NodeId) (f : Option SymbolId → Option SymbolId) : Outline :=
  { o with declared := Function.update o.declared n (f (o.declared n)) }

/-- The outline with a file changed. -/
def changeFile (o : Outline) (i : Nat) (f : FileOutline → FileOutline) : Outline :=
  { o with files := o.files.modify i f }

@[simp]
theorem changeSymbol_id (o : Outline) (m : SymbolId) : o.changeSymbol m id = o := by
  simp [changeSymbol]

@[simp]
theorem changeNode_id (o : Outline) (n : NodeId) : o.changeNode n id = o := by
  simp [changeNode]

@[simp]
theorem changeFile_id (o : Outline) (i : Nat) : o.changeFile i id = o := by
  simp [changeFile]

theorem symbol_changeSymbol (o : Outline) (m k : SymbolId) (f : SymbolOutline → SymbolOutline) :
    (o.changeSymbol m f).symbol k = if k = m then f (o.symbol k) else o.symbol k := by
  simp only [changeSymbol, Function.update_apply]
  split
  · next heq => rw [heq]
  · rfl

/-- Changes that do not depend on each other can be made in either order. -/
theorem changeSymbol_comm (o : Outline) (m m' : SymbolId) {f g : SymbolOutline → SymbolOutline}
    (h : ∀ s, f (g s) = g (f s)) :
    (o.changeSymbol m f).changeSymbol m' g = (o.changeSymbol m' g).changeSymbol m f := by
  have hsymbol : ((o.changeSymbol m f).changeSymbol m' g).symbol = ((o.changeSymbol m' g).changeSymbol m f).symbol := by
    funext k
    simp only [symbol_changeSymbol]
    by_cases hm : k = m
    · by_cases hm' : k = m'
      · rw [if_pos hm', if_pos hm, if_pos hm, if_pos hm', h]
      · rw [if_neg hm', if_pos hm, if_pos hm, if_neg hm']
    · rw [if_neg hm, if_neg hm]
  simpa [changeSymbol] using hsymbol

theorem mem_changeFile {o : Outline} {i : Nat} {f : FileOutline → FileOutline} {file' : FileOutline}
    (h : file' ∈ (o.changeFile i f).files) :
    ∃ file ∈ o.files, file' = file ∨ o.files[i]? = some file ∧ file' = f file := by
  obtain ⟨j, hj⟩ := List.mem_iff_getElem?.1 h
  rw [changeFile, List.getElem?_modify] at hj
  obtain ⟨file, hfile, heq⟩ := Option.map_eq_some_iff.1 hj
  refine ⟨file, List.mem_of_getElem? hfile, ?_⟩
  split at heq
  · next hi => exact .inr ⟨hi ▸ hfile, heq.symm⟩
  · exact .inl heq.symm

variable {o o' : Outline}

theorem Placed.empty : ({} : Program).outline.Placed := by
  have hnone (m : SymbolId) : ({} : Program).outline.symbol m = {} := rfl
  have hfiles : ({} : Program).outline.files = [] := rfl
  constructor <;> simp [hnone, hfiles, SymbolOutline.listed]

/-! ### New symbols, nodes and files -/

theorem Placed.addSymbol (h : o.Placed) : ({ o with symbols := o.symbols + 1 } : Outline).Placed where
  listed := h.listed
  once := h.once
  known hm := Nat.lt_succ_of_lt (h.known hm)
  file hfile := { h.file hfile with symbol := Nat.lt_succ_of_lt (h.file hfile).symbol }
  apart := h.apart

/-- A new symbol is loose: whatever is listed exists, and so do the symbols of files. -/
theorem Placed.isLoose_new (h : o.Placed) : ({ o with symbols := o.symbols + 1 } : Outline).IsLoose ⟨o.symbols⟩ where
  known := Nat.lt_succ_self _
  parent := by
    rw [Option.eq_none_iff_forall_ne_some]
    exact fun owner hparent => Nat.lt_irrefl _ (h.known hparent)
  noFile := by
    rintro file hfile heq
    have hlt := (h.file hfile).symbol
    simp [heq] at hlt

theorem Placed.addNode (h : o.Placed) : ({ o with nodes := o.nodes + 1 } : Outline).Placed where
  listed := h.listed
  once := h.once
  known := h.known
  file hfile := { h.file hfile with node := Nat.lt_succ_of_lt (h.file hfile).node }
  apart := h.apart

theorem Placed.isInner_new (h : o.Placed) : ({ o with nodes := o.nodes + 1 } : Outline).IsInner ⟨o.nodes⟩ where
  known := Nat.lt_succ_self _
  noFile := by
    rintro file hfile heq
    have hlt := (h.file hfile).node
    simp [heq] at hlt

/-- Any node may become a declaration of any symbol, as long as it is no file's. -/
theorem Placed.declare (h : o.Placed) {n : NodeId} (hn : o.IsInner n) (m : SymbolId) :
    (o.changeNode n fun _ => some m).Placed where
  listed := h.listed
  once := h.once
  known := h.known
  file hfile := { h.file hfile with
    declared := (Function.update_of_ne (hn.noFile hfile) ..).trans (h.file hfile).declared }
  apart := h.apart

theorem Placed.addFile (h : o.Placed) {n : NodeId} {m : SymbolId} (hm : o.IsLoose m) (hn : o.IsInner n)
    (hdeclared : o.declared n = some m) : ({ o with files := o.files ++ [⟨n, m, []⟩] } : Outline).Placed where
  listed := h.listed
  once := h.once
  known := h.known
  file {file} hfile := by
    rcases List.mem_append.1 hfile with hold | hnew
    · exact { h.file hold with }
    · obtain rfl := List.mem_singleton.1 hnew
      exact ⟨hm.known, hn.known, hdeclared, hm.parent, by simp, by simp⟩
  apart := by
    rw [List.map_append]
    refine h.apart.append (by simp) (List.disjoint_singleton.2 fun hmem => ?_)
    obtain ⟨file, hfile, heq⟩ := List.mem_map.1 hmem
    exact hm.noFile hfile heq

/-! ### Listing a symbol -/

/-- The outline in which a symbol has a place that belongs to `owner`: it is listed in one of the tables there, or
among what a file with that symbol declares, or both. -/
structure Lists (o o' : Outline) (m owner : SymbolId) : Prop where
  symbols : o'.symbols = o.symbols
  nodes : o'.nodes = o.nodes
  declared : o'.declared = o.declared
  parent (k) : (o'.symbol k).parent = if k = m then some owner else (o.symbol k).parent
  listed (k) : (o'.symbol k).listed = (o.symbol k).listed ∨
    k = owner ∧ (o'.symbol k).listed.Perm (m :: (o.symbol k).listed)
  file {file'} : file' ∈ o'.files → ∃ file ∈ o.files, file'.node = file.node ∧ file'.symbol = file.symbol ∧
    (file'.locals = file.locals ∨ file.symbol = owner ∧ file'.locals = file.locals ++ [m])
  files : o'.files.map FileOutline.symbol = o.files.map FileOutline.symbol

/-- A symbol is listed in a table of another one, or in none. -/
theorem lists_changeSymbol (o : Outline) (m owner : SymbolId) {f : SymbolOutline → SymbolOutline}
    (hparent : ∀ s, (f s).parent = s.parent)
    (hlisted : ∀ s, (f s).listed = s.listed ∨ (f s).listed.Perm (m :: s.listed)) :
    o.Lists ((o.changeSymbol owner f).changeSymbol m (.inside owner)) m owner where
  symbols := rfl
  nodes := rfl
  declared := rfl
  parent k := by
    have hsame : ((o.changeSymbol owner f).symbol k).parent = (o.symbol k).parent := by
      rw [symbol_changeSymbol]
      split
      · exact hparent _
      · rfl
    rw [symbol_changeSymbol]
    split
    · rfl
    · exact hsame
  listed k := by
    have hsame : (((o.changeSymbol owner f).changeSymbol m (.inside owner)).symbol k).listed =
        ((o.changeSymbol owner f).symbol k).listed := by
      rw [symbol_changeSymbol]
      split <;> rfl
    rw [hsame, symbol_changeSymbol]
    split
    · next heq => exact (hlisted _).imp_right fun hperm => ⟨heq, hperm⟩
    · exact .inl rfl
  file hfile := ⟨_, hfile, rfl, rfl, .inl rfl⟩
  files := rfl

/-- A file declares a symbol, whether or not a table of the file's symbol lists it too. -/
theorem Lists.withLocal {m : SymbolId} {file : FileOutline} {i : Nat} (hfile : o.files[i]? = some file)
    (h : o.Lists o' m file.symbol) (hsame : o'.files = o.files) :
    o.Lists (o'.changeFile i (.withLocal m)) m file.symbol where
  symbols := h.symbols
  nodes := h.nodes
  declared := h.declared
  parent := h.parent
  listed := h.listed
  file hmem := by
    obtain ⟨old, hold, rfl | ⟨hi, rfl⟩⟩ := mem_changeFile hmem
    · exact h.file hold
    · rw [hsame] at hold hi
      obtain rfl : file = old := Option.some.inj (hfile.symm.trans hi)
      exact ⟨file, hold, rfl, rfl, .inr ⟨rfl, rfl⟩⟩
  files := by
    refine List.ext_getElem? fun j => ?_
    simp only [changeFile, hsame, List.getElem?_map, List.getElem?_modify]
    cases o.files[j]? with
    | none => rfl
    | some old => by_cases hj : i = j <;> simp [hj, FileOutline.withLocal]

/-- A loose symbol may be listed anywhere. -/
theorem Placed.place (h : o.Placed) {m owner : SymbolId} (hm : o.IsLoose m) (hlists : o.Lists o' m owner) :
    o'.Placed := by
  -- no symbol but the loose one gets another parent, and nobody has listed that one so far
  have hold {m' owner' : SymbolId} (hparent : (o.symbol m').parent = some owner') :
      (o'.symbol m').parent = some owner' := by
    rw [hlists.parent, if_neg, hparent]
    rintro rfl
    simp [hm.parent] at hparent
  have hnew : (o'.symbol m).parent = some owner := by rw [hlists.parent, if_pos rfl]
  have hunlisted (owner' : SymbolId) : m ∉ (o.symbol owner').listed := fun hmem => by
    simpa [hm.parent] using h.listed hmem
  refine ⟨fun {m' k} hmem => ?_, fun k => ?_, fun {m' owner'} hparent => ?_, fun {file'} hfile' => ?_, ?_⟩
  · rcases hlists.listed k with heq | ⟨rfl, hperm⟩
    · exact hold (h.listed (heq ▸ hmem))
    · rcases List.mem_cons.1 (hperm.mem_iff.1 hmem) with rfl | hmem
      · exact hnew
      · exact hold (h.listed hmem)
  · rcases hlists.listed k with heq | ⟨rfl, hperm⟩
    · exact heq ▸ h.once k
    · exact hperm.nodup_iff.2 (List.nodup_cons.2 ⟨hunlisted k, h.once k⟩)
  · rw [hlists.symbols]
    rw [hlists.parent] at hparent
    split at hparent
    · next heq => exact heq ▸ hm.known
    · exact h.known hparent
  · obtain ⟨file, hfile, hnode, hsymbol, hlocals⟩ := hlists.file hfile'
    have hplaced := h.file hfile
    refine ⟨?_, ?_, ?_, ?_, fun {m'} hm' => ?_, ?_⟩
    · rw [hsymbol, hlists.symbols]
      exact hplaced.symbol
    · rw [hnode, hlists.nodes]
      exact hplaced.node
    · rw [hnode, hsymbol, hlists.declared]
      exact hplaced.declared
    · rw [hsymbol, hlists.parent, if_neg (hm.noFile hfile)]
      exact hplaced.root
    · rw [hsymbol]
      rcases hlocals with heq | ⟨rfl, heq⟩ <;> rw [heq] at hm'
      · exact hold (hplaced.locals hm')
      · rcases List.mem_append.1 hm' with hm' | hm'
        · exact hold (hplaced.locals hm')
        · rwa [List.mem_singleton.1 hm']
    · rcases hlocals with heq | ⟨-, heq⟩ <;> rw [heq]
      · exact hplaced.once
      · refine hplaced.once.append (by simp) (List.disjoint_singleton.2 fun hmem => ?_)
        simpa [hm.parent] using hplaced.locals hmem
  · exact hlists.files ▸ h.apart

end Outline

/-! ### Outlines of changed tables -/

namespace Program

variable {p : Program}

theorem outline_addSymbol (p : Program) {data : SymbolData} (h : data.outline = {}) :
    ({ p with symbols := p.symbols.push data } : Program).outline =
      { p.outline with symbols := p.outline.symbols + 1 } := by
  have hsymbol (m : SymbolId) :
      (((p.symbols.push data).get? m.index).map SymbolData.outline).getD {} = p.outline.symbol m := by
    rw [Arena.get?_push]
    split
    · next heq =>
      have hnone : p.symbols.get? m.index = Option.none := Arena.get?_eq_none_iff.2 (Nat.le_of_eq heq.symm)
      simp [outline, h, hnone]
    · rfl
  simp only [outline, Arena.size_push, hsymbol]

theorem outline_addNode (p : Program) {data : NodeData} (h : data.symbol = Option.none) :
    ({ p with nodes := p.nodes.push data } : Program).outline = { p.outline with nodes := p.outline.nodes + 1 } := by
  have hdeclared (n : NodeId) : ((p.nodes.push data).get? n.index).bind NodeData.symbol = p.outline.declared n := by
    rw [Arena.get?_push]
    split
    · next heq =>
      have hnone : p.nodes.get? n.index = Option.none := Arena.get?_eq_none_iff.2 (Nat.le_of_eq heq.symm)
      simp [outline, h, hnone]
    · rfl
  simp only [outline, Arena.size_push, hdeclared]

theorem outline_modifySymbol {m : SymbolId} {data : SymbolData} (hm : p.symbols.get? m.index = some data)
    {change : SymbolData → SymbolData} {f : SymbolOutline → SymbolOutline}
    (h : (change data).outline = f data.outline) :
    ({ p with symbols := p.symbols.modify m.index change } : Program).outline = p.outline.changeSymbol m f := by
  have hsymbol : (fun k : SymbolId => (((p.symbols.modify m.index change).get? k.index).map
      SymbolData.outline).getD {}) = Function.update p.outline.symbol m (f (p.outline.symbol m)) := by
    funext k
    rw [Arena.get?_modify, Function.update_apply]
    by_cases hk : k = m
    · subst hk
      simp [outline, hm, h]
    · have hne : ¬ m.index = k.index := fun heq => hk (congrArg SymbolId.mk heq.symm)
      rw [if_neg hne, if_neg hk]
      rfl
  simp only [outline, Arena.size_modify, hsymbol, Outline.changeSymbol]

theorem outline_modifyNode {n : NodeId} {data : NodeData} (hn : p.nodes.get? n.index = some data)
    {change : NodeData → NodeData} {f : Option SymbolId → Option SymbolId}
    (h : (change data).symbol = f data.symbol) :
    ({ p with nodes := p.nodes.modify n.index change } : Program).outline = p.outline.changeNode n f := by
  have hdeclared : (fun k : NodeId => ((p.nodes.modify n.index change).get? k.index).bind NodeData.symbol) =
      Function.update p.outline.declared n (f (p.outline.declared n)) := by
    funext k
    rw [Arena.get?_modify, Function.update_apply]
    by_cases hk : k = n
    · subst hk
      simp [outline, hn, h]
    · have hne : ¬ n.index = k.index := fun heq => hk (congrArg NodeId.mk heq.symm)
      rw [if_neg hne, if_neg hk]
      rfl
  simp only [outline, Arena.size_modify, hdeclared, Outline.changeNode]

theorem outline_modifyFile (p : Program) (i : Nat) {change : FileData → FileData} {f : FileOutline → FileOutline}
    (h : ∀ data, (change data).outline = f data.outline) :
    ({ p with files := p.files.modify i change } : Program).outline = p.outline.changeFile i f := by
  have hfiles : (p.files.modify i change).toList.map FileData.outline = p.outline.files.modify i f := by
    simp only [Arena.toList, Arena.modify, outline, Array.toList_modify]
    refine List.ext_getElem? fun j => ?_
    simp only [List.getElem?_map, List.getElem?_modify]
    cases p.files.items.toList[j]? with
    | none => rfl
    | some data => by_cases hj : i = j <;> simp [hj, h]
  simp only [outline, hfiles, Outline.changeFile]

theorem outline_addFile (p : Program) (data : FileData) :
    ({ p with files := p.files.push data } : Program).outline =
      { p.outline with files := p.outline.files ++ [data.outline] } := by
  simp [outline, Arena.push, Arena.toList]

end Program

end ApiDoc
