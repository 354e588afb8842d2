import Mathlib.Data.Finset.Card
import Mathlib.Data.Finset.SDiff
import ApiDoc.Proofs.References
import ApiDoc.Proofs.Render.Stacks
import ApiDoc.Proofs.Run.Answers

/-!
# Types have texts

In a graph in range every type has a text, however its types refer to each other
(`Graph.InRange.exists_typeText`).  What goes down while the text is written is the number of nodes that are
not open (`unopened`): a node is entered only if it is not open yet, and there are only so many of them.
-/

namespace ApiDoc

/-! ### Nodes that are not open -/

/-- Which of the first `n` numbers are not open. -/
def unopened (n : Nat) (opened : List Nat) : Finset Nat := Finset.range n \ opened.toFinset

theorem card_unopened_le (n : Nat) (opened : List Nat) : (unopened n opened).card ≤ n := by
  simpa [unopened] using Finset.card_le_card (Finset.sdiff_subset (s := Finset.range n) (t := opened.toFinset))

/-- Entering what is not open leaves fewer to enter. -/
theorem card_unopened_lt {n i : Nat} {opened : List Nat} (hi : i < n) (hnew : i ∉ opened) :
    (unopened n (i :: opened)).card < (unopened n opened).card := by
  have hmem : i ∈ unopened n opened := by simp [unopened, hi, hnew]
  have herase : unopened n (i :: opened) = (unopened n opened).erase i := by
    simp [unopened, Finset.sdiff_insert]
  rw [herase]
  exact Finset.card_erase_lt_of_mem hmem

namespace Graph

/-- How many types are not open. -/
def typesLeft (g : Graph) (path : List TypeRef) : Nat :=
  (unopened g.types.size (path.map TypeRef.index)).card

theorem typesLeft_le (g : Graph) (path : List TypeRef) : g.typesLeft path ≤ g.types.size :=
  card_unopened_le _ _

theorem typesLeft_lt {g : Graph} {path : List TypeRef} {r : TypeRef} (hr : g.HasType r)
    (hnew : r ∉ path) : g.typesLeft (r :: path) < g.typesLeft path := by
  refine card_unopened_lt hr fun h => ?_
  obtain ⟨r', hr', hindex⟩ := List.mem_map.1 h
  obtain rfl : r' = r := congrArg TypeRef.mk hindex
  exact hnew hr'

end Graph

/-! ### What a signature refers to -/

theorem TypeParameter.mem_typeRefs {p : TypeParameter} {r : TypeRef} :
    r ∈ p.typeRefs ↔ r = p.type ∨ p.constraint = some r ∨ p.default = some r := by
  simp [typeRefs]

theorem Signature.mem_typeRefs {s : Signature} {r : TypeRef} :
    r ∈ s.typeRefs ↔ (∃ p ∈ s.typeParameters, r ∈ p.typeRefs) ∨ (∃ p ∈ s.parameters, p.type = r) ∨
      r = s.returnType ∨ s.thisType = some r := by
  simp [typeRefs, typeParameterRefs]

/-! ### Writing texts -/

namespace TypeWriter

variable {g : Graph} {w : TypeWriter (Except Error)} {fail : Error → Prop}

/-- Whatever type is there can be written. -/
structure Serves (w : TypeWriter (Except Error)) (g : Graph) (fail : Error → Prop) : Prop where
  type {r : TypeRef} : g.HasType r → Meets fail (w.type r) fun _ => True
  operand {r : TypeRef} : g.HasType r → Meets fail (w.operand r) fun _ => True

namespace Serves

theorem after (hw : w.Serves g fail) (mark : String) {r : Option TypeRef}
    (h : ∀ r', r = some r' → g.HasType r') : Meets fail (w.after mark r) fun _ => True := by
  cases r with
  | none => exact .pure trivial
  | some r => exact (hw.type (h r rfl)).map fun _ _ _ => trivial

theorem typeParameter (hw : w.Serves g fail) {p : TypeParameter} (h : ∀ r ∈ p.typeRefs, g.HasType r) :
    Meets fail (w.typeParameter p) fun _ => True := by
  simp only [TypeParameter.mem_typeRefs] at h
  refine (hw.after " extends " fun r hr => h r (.inr (.inl hr))).bind fun _ _ _ => ?_
  exact (hw.after " = " fun r hr => h r (.inr (.inr hr))).map fun _ _ _ => trivial

theorem typeParameters (hw : w.Serves g fail) {ps : List TypeParameter}
    (h : ∀ p ∈ ps, ∀ r ∈ p.typeRefs, g.HasType r) :
    Meets fail (w.typeParameters ps) fun _ => True := by
  refine .ite (fun _ => .pure trivial) fun _ => ?_
  exact (Meets.mapM fun p hp => hw.typeParameter (h p hp)).map fun _ _ _ => trivial

theorem receiver (hw : w.Serves g fail) {r : Option TypeRef} (h : ∀ r', r = some r' → g.HasType r') :
    Meets fail (w.receiver r) fun _ => True := by
  cases r with
  | none => exact .pure trivial
  | some r => exact (hw.type (h r rfl)).map fun _ _ _ => trivial

theorem parameter (hw : w.Serves g fail) {p : Parameter} (h : g.HasType p.type) :
    Meets fail (w.parameter p) fun _ => True :=
  (hw.type h).map fun _ _ _ => trivial

theorem signature (hw : w.Serves g fail) (arrow : String) {s : Signature}
    (h : ∀ r ∈ s.typeRefs, g.HasType r) : Meets fail (w.signature arrow s) fun _ => True := by
  simp only [Signature.mem_typeRefs] at h
  refine (hw.typeParameters fun p hp r hr => h r (.inl ⟨p, hp, hr⟩)).bind fun _ _ _ => ?_
  refine (hw.receiver fun r hr => h r (by simp [hr])).bind fun _ _ _ => ?_
  have hparam (p : Parameter) (hp : p ∈ s.parameters) : Meets fail (w.parameter p) fun _ => True :=
    hw.parameter (h p.type (.inr (.inl ⟨p, hp, rfl⟩)))
  refine (Meets.mapM hparam).bind fun _ _ _ => ?_
  exact (hw.type (h _ (by simp))).map fun _ _ _ => trivial

theorem types (hw : w.Serves g fail) {rs : List TypeRef} (h : ∀ r ∈ rs, g.HasType r) :
    Meets fail (rs.mapM w.type) fun _ => True :=
  (Meets.mapM fun r hr => hw.type (h r hr)).mono fun _ _ _ => trivial

theorem operands (hw : w.Serves g fail) {rs : List TypeRef} (h : ∀ r ∈ rs, g.HasType r) :
    Meets fail (rs.mapM w.operand) fun _ => True :=
  (Meets.mapM fun r hr => hw.operand (h r hr)).mono fun _ _ _ => trivial

theorem objectMember (hw : w.Serves g fail) (hg : g.InRange) {r : MemberRef} (hr : g.HasMember r) :
    Meets fail (w.objectMember g r) fun _ => True := by
  obtain ⟨member, hmember⟩ := hr.exists_member
  have htypes := (hg.member hmember).types
  simp only [Member.typeRefs, List.mem_append] at htypes
  refine Meets.bind (P := (· = member)) (show Meets fail (g.member r) _ by rw [hmember]; rfl) ?_
  rintro _ - rfl
  split <;> rename_i hbody
  · refine (hw.type (htypes _ (.inr ?_))).map fun _ _ _ => trivial
    simp [hbody, MemberBody.typeRefs]
  · refine (hw.signature ": " fun r hr => htypes r (.inr ?_)).map fun _ _ _ => trivial
    simpa [hbody, MemberBody.typeRefs] using hr
  · exact .pure trivial

theorem memberName {r : Option MemberRef} (h : ∀ r', r = some r' → g.HasMember r') :
    Meets fail (memberName g r) fun _ => True := by
  cases r with
  | none => exact .pure trivial
  | some r =>
    obtain ⟨member, hmember⟩ := (h r rfl).exists_member
    simp [TypeWriter.memberName, hmember, Meets, bind, Except.bind, pure, Except.pure]

theorem nodeText (hw : w.Serves g fail) (hg : g.InRange) {node : TypeNode} (hnode : node.InRange g) :
    Meets fail (w.nodeText g node) fun _ => True := by
  obtain ⟨htypes, hmembers⟩ := hnode
  cases node with
  | native _ | literal _ | parameter _ _ | this => exact .pure trivial
  | array element | unary _ element =>
    exact (hw.operand (htypes _ (by simp [TypeNode.typeRefs]))).map fun _ _ _ => trivial
  | tuple elements => exact (hw.types htypes).map fun _ _ _ => trivial
  | generic target arguments =>
    refine (hw.type (htypes _ (by simp [TypeNode.typeRefs]))).bind fun _ _ _ => ?_
    refine .ite (fun _ => .pure trivial) fun _ => ?_
    exact (hw.types fun r hr => htypes r (by simp [TypeNode.typeRefs, hr])).map fun _ _ _ => trivial
  | function s => exact hw.signature " => " htypes
  | object members =>
    cases members with
    | nil => exact .pure trivial
    | cons r rs =>
      exact (Meets.mapM fun r' hr' => hw.objectMember hg (hmembers r' hr')).map fun _ _ _ => trivial
  | union operands | intersection operands => exact (hw.operands htypes).map fun _ _ _ => trivial
  | conditional check bound whenTrue whenFalse =>
    refine (hw.operand (htypes check (by simp [TypeNode.typeRefs]))).bind fun _ _ _ => ?_
    refine (hw.operand (htypes bound (by simp [TypeNode.typeRefs]))).bind fun _ _ _ => ?_
    refine (hw.type (htypes whenTrue (by simp [TypeNode.typeRefs]))).bind fun _ _ _ => ?_
    exact (hw.type (htypes whenFalse (by simp [TypeNode.typeRefs]))).map fun _ _ _ => trivial
  | indexedAccess operand argument =>
    refine (hw.operand (htypes operand (by simp [TypeNode.typeRefs]))).bind fun _ _ _ => ?_
    exact (hw.type (htypes argument (by simp [TypeNode.typeRefs]))).map fun _ _ _ => trivial
  | typeOf member =>
    refine (memberName fun r hr => hmembers r ?_).map fun _ _ _ => trivial
    simp [TypeNode.memberRefs, hr]
  | named member =>
    refine memberName fun r hr => hmembers r ?_
    simp [TypeNode.memberRefs, hr]

end Serves

end TypeWriter

/-- With enough depth for the types that are not open, a type has a text. -/
theorem Graph.InRange.typeParts_serves {g : Graph} (hg : g.InRange) (fail : Error → Prop) {fuel : Nat}
    {path : List TypeRef} (hfuel : g.typesLeft path < fuel) :
    ((typeParts g fuel).within path).Serves g fail := by
  have of_types {fuel : Nat} {path : List TypeRef}
      (h : ∀ r, g.HasType r → Meets fail ((guardedText g fuel r).result path) fun _ => True) :
      ((typeParts g fuel).within path).Serves g fail := by
    refine ⟨fun hr => h _ hr, fun {r} hr => ?_⟩
    have hgives := operandText_gives (fun r => (typeParts_steady g fuel path).type r) r
    obtain ⟨node, hnode⟩ := hr.exists_type
    show Meets fail ((operandText g (guardedText g fuel) r).result path) _
    rw [hgives.result, hnode]
    exact .ite (fun _ => (h r hr).map fun _ _ _ => trivial) fun _ => h r hr
  induction fuel generalizing path with
  | zero => exact absurd hfuel (Nat.not_lt_zero _)
  | succ fuel ih =>
    refine of_types fun r hr => ?_
    rw [guardedText_succ]
    refine .ite (fun _ => .pure trivial) fun hopen => ?_
    obtain ⟨node, hnode⟩ := hr.exists_type
    have hnew : r ∉ path := by simpa using hopen
    have hlt := g.typesLeft_lt hr hnew
    rw [hnode]
    exact (ih (by omega)).nodeText hg (hg.type hnode)

/-- In a graph in range every type has a text, whatever is open, and the stack is left as it was. -/
theorem Graph.InRange.printer {g : Graph} (hg : g.InRange) {r : TypeRef} (hr : g.HasType r)
    (path : List TypeRef) : ∃ text, (g.printer r).Gives path (.ok text) := by
  have hfuel : g.typesLeft path < g.types.size + 2 := by
    have := g.typesLeft_le path
    omega
  have hgives := (typeParts_steady g (g.types.size + 2) path).type r
  obtain ⟨text, htext, -⟩ := ((hg.typeParts_serves (fun _ => False) hfuel).type hr).exists_ok
  exact ⟨text, htext ▸ hgives⟩

theorem Graph.InRange.exists_typeText {g : Graph} (hg : g.InRange) {r : TypeRef} (hr : g.HasType r) :
    ∃ text, typeText g r = .ok text := by
  obtain ⟨text, htext⟩ := hg.printer hr []
  exact ⟨text, htext.result⟩

end ApiDoc
