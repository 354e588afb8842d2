import ApiDoc.Proofs.Program.WellFormed
import ApiDoc.Proofs.Run.Requests

/-!
# The image of the type graph

The node of a type with parts is made when all its parts have their places, while the parts may refer back
to the place that it is to take.  In every state a type is either open or finished (`Environment.Sound`),
so once nothing is open the remembered types are an image of those of the checker
(`Settled.depicts_typeOf`): every node is the one that the shape of its type calls for, with the remembered
nodes and members of its parts.
-/

namespace ApiDoc

namespace Environment

variable {env : Environment} {s : Session} {t t' : TypeId} {r : TypeRef}

/-- With nothing open, whatever is remembered is finished. -/
theorem Settled.exists_depicts (h : env.Settled s) (hr : s.typeOf? t = some r) :
    ∃ shape, TypeShape.of env.checker t = .ok shape ∧ env.Depicts s t r shape :=
  h.reachable.sound.typesDone hr (by simp)

/-- Types that share a node are the same, unless one stands for another type. -/
theorem Settled.eq_of_typeOf? (h : env.Settled s) {shape shape' : TypeShape}
    (hr : s.typeOf? t = some r) (hr' : s.typeOf? t' = some r)
    (hshape : TypeShape.of env.checker t = .ok shape) (hshape' : TypeShape.of env.checker t' = .ok shape')
    (hown : ∀ base, shape ≠ .substitution base) (hown' : ∀ base, shape' ≠ .substitution base) :
    t' = t :=
  h.reachable.sound.typeInj hshape' hshape hown' hown hr' hr

/-- **The remembered types are a faithful image** of those of the checker, whatever was asked for: each has
the node that its shape calls for, with the remembered nodes and members of its parts in their order, and
no two share a node unless one stands for another type. -/
theorem Settled.depicts_typeOf (h : env.Settled s) (hr : s.typeOf? t = some r) :
    ∃ shape, TypeShape.of env.checker t = .ok shape ∧ env.Depicts s t r shape ∧
      ∀ t' shape', s.typeOf? t' = some r → TypeShape.of env.checker t' = .ok shape' →
        (∀ base, shape ≠ .substitution base) → (∀ base, shape' ≠ .substitution base) → t' = t := by
  obtain ⟨shape, hshape, hdepicts⟩ := h.exists_depicts hr
  refine ⟨shape, hshape, hdepicts, fun t' shape' hr' hshape' hown hown' => ?_⟩
  exact h.eq_of_typeOf? hr hr' hshape hshape' hown hown'

section ThreeClasses

open Program

/-- The node of the second class leads to the member of that class, which refers back to the node before it is
made. -/
theorem depicts_typeOf_circularClasses :
    (circularClasses.assembly [⟨0⟩]).typeOf? ⟨2⟩ = some ⟨0⟩ ∧
      (circularClasses.assembly [⟨0⟩]).memberOf? (.symbol ⟨1⟩) = some (some ⟨2⟩) ∧
      (circularClasses.assembly [⟨0⟩]).nodeAt? ⟨0⟩ = some (.named (some ⟨2⟩)) := by
  obtain ⟨project, h⟩ := exists_circularClasses
  have hr : (circularClasses.assembly [⟨0⟩]).typeOf? ⟨2⟩ = some ⟨0⟩ := by decide +kernel
  have hmember : (circularClasses.assembly [⟨0⟩]).memberOf? (.symbol ⟨1⟩) = some (some ⟨2⟩) := by
    decide +kernel
  obtain ⟨shape, hshape, hdepicts, -⟩ := (settled_assembly h).depicts_typeOf hr
  obtain rfl : .composite .named = shape := by
    have hnamed : TypeShape.of circularClasses.checker ⟨2⟩ = .ok (.composite .named) := by
      decide +kernel
    exact Except.ok.inj (hnamed.symm.trans hshape)
  obtain ⟨node, hnode, m, v, hm, rfl, hv⟩ := hdepicts
  obtain rfl : some ⟨1⟩ = m := Except.ok.inj hm
  obtain rfl : some ⟨2⟩ = v := Option.some.inj (hmember.symm.trans hv.1)
  exact ⟨hr, hmember, hnode⟩

end ThreeClasses

end Environment

end ApiDoc
