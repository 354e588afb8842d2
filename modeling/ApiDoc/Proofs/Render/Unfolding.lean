import ApiDoc.Proofs.Render.Trees

/-!
# Graphs unfold into finite trees

`Unfolds g includeHidden s spot j` says what it is for `j` to unfold a type or a member with the nodes of `s`
open, that is, with those expanded on the way from the root: a node that is open stands there as a marker, and
any other is expanded, its parts unfolding with that node open as well.  So no type and no member is expanded
twice on one way from the root to a leaf.

In a graph in range everything that is written unfolds in this way, comes to an end and leaves the stacks as
they were (`Project.InRange.output_completes`).  It fails on a place only whose line or column cannot be counted
from one.
-/

namespace ApiDoc

/-- A type or a member. -/
inductive Spot where
  | type (r : TypeRef)
  | member (r : MemberRef)

/-- How a type or a member unfolds with some of them open around it. -/
inductive Unfolds (g : Graph) (includeHidden : Bool) : OpenNodes → Spot → Json → Prop where
  /-- A type inside itself. -/
  | repeatedType {s : OpenNodes} {r : TypeRef} {text : String} : r ∈ s.types → typeText g r = .ok text →
      Unfolds g includeHidden s (.type r) (TreeWriter.marker text)
  /-- A member inside itself. -/
  | repeatedMember {s : OpenNodes} {r : MemberRef} {m : Member} : r ∈ s.members → g.member r = .ok m →
      Unfolds g includeHidden s (.member r) (TreeWriter.marker m.name)
  /-- Any other type, with what its parts unfold to. -/
  | type {s : OpenNodes} {r : TypeRef} {node : TypeNode} {fields : List (String × Json)}
      (parts : TreeWriter (Except Error)) : r ∉ s.types → g.type r = .ok node →
      (∀ r' j, parts.type r' = .ok j → Unfolds g includeHidden (s.enterType r) (.type r') j) →
      (∀ r' j, parts.member r' = .ok j → Unfolds g includeHidden (s.enterType r) (.member r') j) →
      parts.typeBody g includeHidden node = .ok fields →
      Unfolds g includeHidden s (.type r) (.object (("kind", .text node.kind) :: fields))
  /-- Any other member, with what its parts unfold to. -/
  | member {s : OpenNodes} {r : MemberRef} {m : Member} {fields : List (String × Json)}
      (parts : TreeWriter (Except Error)) : r ∉ s.members → g.member r = .ok m →
      (∀ r' j, parts.type r' = .ok j → Unfolds g includeHidden (s.enterMember r) (.type r') j) →
      (∀ r' j, parts.member r' = .ok j → Unfolds g includeHidden (s.enterMember r) (.member r') j) →
      parts.memberBody g includeHidden m = .ok fields →
      Unfolds g includeHidden s (.member r) (.object fields)

/-- Whatever is written unfolds with the nodes of `s` open. -/
structure TreeWriter.Unfolding (w : TreeWriter (Except Error)) (g : Graph) (includeHidden : Bool)
    (s : OpenNodes) : Prop where
  type {r : TypeRef} {j : Json} : w.type r = .ok j → Unfolds g includeHidden s (.type r) j
  member {r : MemberRef} {j : Json} : w.member r = .ok j → Unfolds g includeHidden s (.member r) j

/-- At any depth, and with any nodes open, what is written unfolds. -/
theorem views_unfolding (g : Graph) (includeHidden : Bool) (fuel : Nat) (s : OpenNodes) :
    ((views g includeHidden fuel).within s).Unfolding g includeHidden s := by
  induction fuel generalizing s with
  | zero => exact ⟨(nomatch ·), (nomatch ·)⟩
  | succ fuel ih =>
    constructor
    · intro r j hj
      rw [views_type] at hj
      split at hj
      · next hopen =>
        obtain ⟨text, htext, rfl⟩ := map_eq_ok_iff.1 hj
        exact .repeatedType (by simpa using hopen) htext
      · next hopen =>
        obtain ⟨node, hnode, hj⟩ := bind_eq_ok_iff.1 hj
        obtain ⟨fields, hfields, rfl⟩ := map_eq_ok_iff.1 hj
        exact .type _ (by simpa using hopen) hnode (fun _ _ => (ih _).type) (fun _ _ => (ih _).member) hfields
    · intro r j hj
      rw [views_member] at hj
      split at hj
      · next hopen =>
        obtain ⟨m, hm, rfl⟩ := map_eq_ok_iff.1 hj
        exact .repeatedMember (by simpa using hopen) hm
      · next hopen =>
        obtain ⟨m, hm, hj⟩ := bind_eq_ok_iff.1 hj
        obtain ⟨fields, hfields, rfl⟩ := map_eq_ok_iff.1 hj
        exact .member _ (by simpa using hopen) hm (fun _ _ => (ih _).type) (fun _ _ => (ih _).member) hfields

/-- With `s` open a piece of writing comes to an answer that satisfies `P`, or to an error that satisfies
`fail`, and `s` is open again. -/
structure Writing.Completes {σ α : Type} (x : Writing σ α) (s : σ) (fail : Error → Prop) (P : α → Prop) :
    Prop where
  restored : (x.run.run s).2 = s
  answer : Meets fail (x.result s) P

theorem Writing.Gives.completes {σ α : Type} {x : Writing σ α} {s : σ} {y : Except Error α}
    {fail : Error → Prop} {P : α → Prop} (h : x.Gives s y) (hy : Meets fail y P) :
    x.Completes s fail P :=
  ⟨congrArg Prod.snd h, h.result ▸ hy⟩

/-- **Whatever is written of a project in range comes to an end.**  A type has a text, and a type, a file and
the project have trees, whatever is open; the trees unfold the graph, and the stacks are left as they were.
The only error is that of a place in the graph which cannot be counted from one. -/
theorem Project.InRange.output_completes {p : Project} (hp : p.InRange) (config : Config) :
    (∀ r, p.graph.HasType r → ∀ path,
      (p.graph.printer r).Completes path (fun _ => False) fun _ => True) ∧
    (∀ r, p.graph.HasType r → ∀ s,
      ((p.graph.view config.includeHidden).type r).Completes s p.graph.Uncounted fun tree =>
        Unfolds p.graph config.includeHidden s (.type r) tree) ∧
    (∀ file : SourceFile, file.InRange p.graph → ∀ s,
      ((p.graph.view config.includeHidden).sourceFile p.graph config.includeHidden file).Completes s
        p.graph.Uncounted fun tree => ∃ parts : TreeWriter (Except Error),
          parts.Unfolding p.graph config.includeHidden s ∧
          parts.sourceFile p.graph config.includeHidden file = .ok tree) ∧
    Meets p.graph.Uncounted (p.tree config) fun tree => ∃ parts : TreeWriter (Except Error),
      parts.Unfolding p.graph config.includeHidden {} ∧
      parts.project p.graph config.includeHidden p.files = .ok tree := by
  have hsteady := views_steady p.graph config.includeHidden (p.graph.types.size + p.graph.members.size + 2)
  have hserves := hp.graph.view_serves config.includeHidden
  have hunfold := views_unfolding p.graph config.includeHidden (p.graph.types.size + p.graph.members.size + 2)
  refine ⟨fun r hr path => ?_, fun r hr s => ?_, fun file hfile s => ?_, ?_⟩
  · obtain ⟨text, htext⟩ := hp.graph.printer hr path
    exact htext.completes trivial
  · exact ((hsteady s).type r).completes (((hserves s).type hr).mono fun tree htree _ => (hunfold s).type htree)
  · exact ((hsteady s).sourceFile _ _ file).completes (((hserves s).sourceFile hfile).mono fun tree htree _ =>
      ⟨_, hunfold s, htree⟩)
  · rw [p.tree_eq]
    exact ((hserves {}).project hp.files).mono fun tree htree _ => ⟨_, hunfold {}, htree⟩

/-- A class whose construct signature is the class itself, and whose only field is an object with that same
field. -/
def selfReferring : Project where
  files := [{ fileName := "a.ts", members := [⟨1⟩] }]
  graph := {
    types := ⟨#[.object [⟨0⟩]]⟩
    members := ⟨#[
      { name := "next", body := .field { kind := .property, type := ⟨0⟩ } },
      { name := "Node"
        body := .classLike { kind := .concrete, instanceMembers := [⟨0⟩], newSignature := some ⟨1⟩ } }]⟩ }

theorem output_completes_selfReferring :
    ∃ tree, selfReferring.tree {} = .ok tree ∧ ∃ parts : TreeWriter (Except Error),
      parts.Unfolding selfReferring.graph false {} ∧
      parts.project selfReferring.graph false selfReferring.files = .ok tree := by
  have hcountable : ∀ m ∈ selfReferring.graph.members.toList, m.location.IsCountable := by decide
  obtain ⟨-, -, -, h⟩ := Project.InRange.output_completes (p := selfReferring) (by decide) {}
  cases htree : selfReferring.tree {} with
  | ok tree =>
    rw [htree] at h
    exact ⟨tree, rfl, h⟩
  | error e =>
    rw [htree] at h
    obtain ⟨-, m, hm, huncounted⟩ := h
    exact absurd (hcountable m hm) huncounted

/-- A class by name, which stands in the last line that a word can count from zero. -/
def lastLine : Graph where
  types := ⟨#[.named (some ⟨0⟩)]⟩
  members := ⟨#[
    { name := "x", location := { file := "a.ts", line := UInt64.size - 1 }, body := .namespaceLike [] }]⟩

/-- The line cannot be counted from one, so there is no tree. -/
theorem typeTree_overflows_lastLine :
    lastLine.InRange ∧ lastLine.HasType ⟨0⟩ ∧ lastLine.typeTree false ⟨0⟩ = .error .overflow := by
  refine ⟨by decide, by decide, rfl⟩

end ApiDoc
