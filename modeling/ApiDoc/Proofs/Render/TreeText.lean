import Mathlib.Tactic.IntervalCases
import ApiDoc.Proofs.Render.Revealing

/-!
# Types with the same tree have the same text

Two types that do not lie inside themselves and are the same JSON, hidden members included, have the same
text (`Graph.InRange.typeText_of_same_tree`), unless a whole number of any size in one of them stands where a
string of the same characters stands in the other: the tree of both is that string.
-/

namespace ApiDoc

open Relation
open Json (Same)

namespace Graph

variable {g : Graph} {s : OpenNodes} {a b : TypeRef}

/-- What is open around a type: types that are made of it, and members of such types. -/
structure Around (g : Graph) (s : OpenNodes) (a : TypeRef) : Prop where
  types : g.Encloses s.types a
  members : ∀ r ∈ s.members, ∃ m, g.member r = .ok m ∧ ∃ b ∈ m.displayed, ReflTransGen g.Displays b a

/-- The text of one type is made of the literal, among others. -/
def DisplaysLiteral (g : Graph) (a : TypeRef) (l : LiteralValue) : Prop :=
  ∃ b, ReflTransGen g.Displays a b ∧ g.type b = .ok (.literal l)

theorem Around.nil (a : TypeRef) : g.Around {} a := ⟨.nil a, by simp⟩

theorem Around.enterType (h : g.Around s a) (hb : g.Displays a b) : g.Around (s.enterType a) b where
  types := h.types.cons hb
  members r hr := by
    obtain ⟨m, hm, c, hc, hca⟩ := h.members r hr
    exact ⟨m, hm, c, hc, hca.tail hb⟩

variable {node : TypeNode} {rs : List MemberRef} {r : MemberRef} {m : Member}

theorem displays_of_member (hnode : g.type a = .ok (.object rs)) (hr : r ∈ rs) (hm : g.member r = .ok m)
    (hb : b ∈ m.displayed) : g.Displays a b := by
  refine ⟨_, hnode, List.mem_flatMap.2 ⟨r, hr, ?_⟩⟩
  rwa [hm]

/-- A member of an object type that does not lie inside itself is not open. -/
theorem Around.not_mem_members (h : g.Around s a) (ha : ¬ TransGen g.Displays a a)
    (hnode : g.type a = .ok (.object rs)) (hr : r ∈ rs) : r ∉ s.members := by
  intro hmem
  obtain ⟨m, hm, b, hb, hba⟩ := h.members r hmem
  exact ha (.head' (displays_of_member hnode hr hm hb) hba)

theorem Around.enterMember (h : g.Around s a) (hnode : g.type a = .ok (.object rs)) (hr : r ∈ rs)
    (hm : g.member r = .ok m) (hb : b ∈ m.displayed) : g.Around ((s.enterType a).enterMember r) b where
  types := h.types.cons (displays_of_member hnode hr hm hb)
  members r' hr' := by
    rcases List.mem_cons.1 hr' with rfl | hr'
    · exact ⟨m, hm, b, hb, .refl⟩
    · obtain ⟨m', hm', c, hc, hca⟩ := h.members r' hr'
      exact ⟨m', hm', c, hc, hca.tail (displays_of_member hnode hr hm hb)⟩

/-- A type that `r` is made of, with what is open around it. -/
structure PartOf (g : Graph) (r : TypeRef) (s : OpenNodes) (a : TypeRef) : Prop where
  around : g.Around s a
  displayed : ReflTransGen g.Displays r a

namespace PartOf

variable {root : TypeRef}

theorem not_mem (h : g.PartOf root s a) (hroot : g.IsAcyclic root) : a ∉ s.types :=
  h.around.types.not_mem (hroot a h.displayed)

theorem enterType (h : g.PartOf root s a) (hb : g.Displays a b) : g.PartOf root (s.enterType a) b :=
  ⟨h.around.enterType hb, h.displayed.tail hb⟩

theorem enterMember (h : g.PartOf root s a) (hnode : g.type a = .ok (.object rs)) (hr : r ∈ rs)
    (hm : g.member r = .ok m) (hb : b ∈ m.displayed) : g.PartOf root ((s.enterType a).enterMember r) b :=
  ⟨h.around.enterMember hnode hr hm hb, h.displayed.tail (displays_of_member hnode hr hm hb)⟩

end PartOf

/-- What is written of a type that is not open. -/
theorem views_type_eq_ok {n : Nat} {j : Json} (ha : a ∉ s.types)
    (hj : ((views g true n).within s).type a = .ok j) :
    ∃ n' node fields, n = n' + 1 ∧ g.type a = .ok node ∧
      ((views g true n').within (s.enterType a)).typeBody g true node = .ok fields ∧
      j = .object (("kind", .text node.kind) :: fields) := by
  cases n with
  | zero => exact nomatch hj
  | succ n =>
    rw [views_type, if_neg (by simpa using ha)] at hj
    obtain ⟨node, hnode, hj⟩ := bind_eq_ok_iff.1 hj
    obtain ⟨fields, hfields, rfl⟩ := map_eq_ok_iff.1 hj
    exact ⟨n, node, fields, rfl, hnode, hfields, rfl⟩

/-- What is written of a member that is not open. -/
theorem views_member_eq_ok {includeHidden : Bool} {n : Nat} {j : Json} (hr : r ∉ s.members)
    (hj : ((views g includeHidden n).within s).member r = .ok j) :
    ∃ n' m fields, n = n' + 1 ∧ g.member r = .ok m ∧
      ((views g includeHidden n').within (s.enterMember r)).memberBody g includeHidden m = .ok fields ∧
      j = .object fields := by
  cases n with
  | zero => exact nomatch hj
  | succ n =>
    rw [views_member, if_neg (by simpa using hr)] at hj
    obtain ⟨m, hm, hj⟩ := bind_eq_ok_iff.1 hj
    obtain ⟨fields, hfields, rfl⟩ := map_eq_ok_iff.1 hj
    exact ⟨n, m, fields, rfl, hm, hfields, rfl⟩

end Graph

theorem TypeNode.isLoose_eq (node : TypeNode) :
    node.isLoose = ["union", "intersection", "function", "conditional"].contains node.kind := by
  cases node <;> simp [isLoose, kind]

section

variable {g : Graph} {root root' : TypeRef}

/-- Down to any depth, parts of two types that do not lie inside themselves have the same text if they have the
same tree. -/
theorem views_reveals (hroot : g.IsAcyclic root) (hroot' : g.IsAcyclic root')
    (hfinite : ∀ x, g.DisplaysLiteral root (.number x) → x.IsFinite)
    (hconfused : ∀ l l', g.DisplaysLiteral root l → g.DisplaysLiteral root' l' → ¬ l.Confused l') (n : Nat)
    (s s' : OpenNodes) (k k' : Nat) (hk : g.typesLeft s.types < k) (hk' : g.typesLeft s'.types < k') :
    Reveals ((views g true n).within s) ((views g true n).within s') ((typeParts g k).within s.types)
      ((typeParts g k').within s'.types) (g.PartOf root s) (g.PartOf root' s') := by
  induction n using Nat.strong_induction_on generalizing s s' k k' with
  | _ n ih =>
    -- neither type is open, so their trees and texts are those of their nodes
    have htype {a a' : TypeRef} {j j' : Json} (ha : g.PartOf root s a) (ha' : g.PartOf root' s' a')
        (hj : ((views g true n).within s).type a = .ok j) (hj' : ((views g true n).within s').type a' = .ok j')
        (hsame : Same j j') : (guardedText g k a).result s.types = (guardedText g k' a').result s'.types := by
      obtain ⟨n, node, fields, rfl, hnode, hfields, rfl⟩ := Graph.views_type_eq_ok (ha.not_mem hroot) hj
      obtain ⟨_, node', fields', ⟨⟩, hnode', hfields', rfl⟩ := Graph.views_type_eq_ok (ha'.not_mem hroot') hj'
      obtain ⟨k, rfl⟩ := Nat.exists_eq_add_one_of_ne_zero (Nat.ne_zero_of_lt hk)
      obtain ⟨k', rfl⟩ := Nat.exists_eq_add_one_of_ne_zero (Nat.ne_zero_of_lt hk')
      have hlt := Graph.typesLeft_lt (.of_type_eq_ok hnode) (ha.not_mem hroot)
      have hlt' := Graph.typesLeft_lt (.of_type_eq_ok hnode') (ha'.not_mem hroot')
      rw [guardedText_of_not_mem (ha.not_mem hroot) hnode, guardedText_of_not_mem (ha'.not_mem hroot') hnode']
      have hinside : g.typesLeft (a :: s.types) < k := by omega
      have hinside' : g.typesLeft (a' :: s'.types) < k' := by omega
      have hparts := ih n (Nat.lt_succ_self n) (s.enterType a) (s'.enterType a') k k' hinside hinside'
      refine (hparts.mono (fun b hb => ha.enterType hb) fun b hb => ha'.enterType hb).nodeText
        (fun b hb => ⟨node, hnode, hb⟩) (fun b hb => ⟨node', hnode', hb⟩) hfields hfields' hsame ?_ ?_
      · rintro l l' rfl rfl
        refine ⟨?_, hconfused l l' ⟨a, ha.displayed, hnode⟩ ⟨a', ha'.displayed, hnode'⟩⟩
        rintro x rfl
        exact hfinite x ⟨a, ha.displayed, hnode⟩
      · rintro rs rs' rfl rfl r hr r' hr' j j' hj hj' hsame
        have hnew := ha.around.not_mem_members (hroot a ha.displayed) hnode hr
        have hnew' := ha'.around.not_mem_members (hroot' a' ha'.displayed) hnode' hr'
        obtain ⟨n, m, fields, rfl, hm, hfields, rfl⟩ := Graph.views_member_eq_ok (s := s.enterType a) hnew hj
        obtain ⟨_, m', fields', ⟨⟩, hm', hfields', rfl⟩ :=
          Graph.views_member_eq_ok (s := s'.enterType a') hnew' hj'
        have hparts := ih n (by omega) ((s.enterType a).enterMember r) ((s'.enterType a').enterMember r') k k'
          hinside hinside'
        exact (hparts.mono (fun b hb => ha.enterMember hnode hr hm hb)
          fun b hb => ha'.enterMember hnode' hr' hm' hb).objectMember hm hm' (fun _ h => h) (fun _ h => h)
          hfields hfields' hsame
    refine ⟨htype, fun {a a' j j'} ha ha' hj hj' hsame => ?_⟩
    -- whether an operand stands in parentheses depends on the kind of its node, which is a field of the tree
    have htext := htype ha ha' hj hj' hsame
    obtain ⟨_, node, fields, -, hnode, -, rfl⟩ := Graph.views_type_eq_ok (ha.not_mem hroot) hj
    obtain ⟨_, node', fields', -, hnode', -, rfl⟩ := Graph.views_type_eq_ok (ha'.not_mem hroot') hj'
    have hkind : node.kind = node'.kind := (hsame.field "kind" rfl rfl).text_inj
    rw [operandText_of_not_mem (ha.not_mem hroot) hnode, operandText_of_not_mem (ha'.not_mem hroot') hnode', htext,
      TypeNode.isLoose_eq, TypeNode.isLoose_eq, hkind]

/-- **Types with the same tree have the same text.**  Two types that do not lie inside themselves, whose numbers
are finite and of which the trees with hidden members are the same JSON, are displayed the same, unless a whole
number of any size is displayed in one and a string of the same characters in the other. -/
theorem Graph.InRange.typeText_of_same_tree (hg : g.InRange) {r r' : TypeRef} (hr : g.HasType r)
    (hacyclic : g.IsAcyclic r) (hacyclic' : g.IsAcyclic r')
    (hfinite : ∀ x, g.DisplaysLiteral r (.number x) → x.IsFinite)
    (hconfused : ∀ l l', g.DisplaysLiteral r l → g.DisplaysLiteral r' l' → ¬ l.Confused l') {j j' : Json}
    (hj : g.typeTree true r = .ok j) (hj' : g.typeTree true r' = .ok j') (hsame : j.Same j') :
    ∃ text, typeText g r = .ok text ∧ typeText g r' = .ok text := by
  obtain ⟨text, htext⟩ := hg.exists_typeText hr
  have hk : g.typesLeft [] < g.types.size + 2 := by
    have := g.typesLeft_le []
    omega
  have hreveals := views_reveals hacyclic hacyclic' hfinite hconfused (g.types.size + g.members.size + 2) {} {}
    _ _ hk hk
  have hsameText : typeText g r = typeText g r' := hreveals.type ⟨.nil r, .refl⟩ ⟨.nil r', .refl⟩ hj hj' hsame
  exact ⟨text, htext, hsameText ▸ htext⟩

end

/-- Whether the texts of all types are made of those of earlier types only. -/
def Graph.displaysBackwards (g : Graph) : Bool :=
  (List.range g.types.size).all fun i => (g.types.get? i).all fun node => (node.displayed g).all (·.index < i)

theorem Graph.index_lt_of_displays {g : Graph} (h : g.displaysBackwards = true) {a b : TypeRef}
    (hb : g.Displays a b) : b.index < a.index := by
  obtain ⟨node, hnode, hb⟩ := hb
  have hnode' := type_eq_ok_iff.1 hnode
  have ha : a.index ∈ List.range g.types.size := List.mem_range.2 (HasType.of_type_eq_ok hnode)
  have hall := List.all_eq_true.1 h a.index ha
  rw [hnode', Option.all_some] at hall
  simpa using List.all_eq_true.1 hall b hb

theorem Graph.isAcyclic_of_displaysBackwards {g : Graph} (h : g.displaysBackwards = true) (r : TypeRef) :
    g.IsAcyclic r := by
  intro a _ ha
  have hlt {b : TypeRef} (hb : TransGen g.Displays a b) : b.index < a.index := by
    induction hb with
    | single hb => exact index_lt_of_displays h hb
    | tail _ hb ih => exact (index_lt_of_displays h hb).trans ih
  exact Nat.lt_irrefl _ (hlt ha)

/-- Two objects with a field of lists each, and a string beside a whole number of any size. -/
def lookAlikes : Graph where
  types := ⟨#[.native .string, .literal (.number (.finite false 1 0)), .union [⟨0⟩, ⟨1⟩], .array ⟨2⟩, .array ⟨2⟩,
    .object [⟨0⟩], .object [⟨1⟩], .literal (.text "12"), .literal (.bigint "12")]⟩
  members := ⟨#[
    { name := "lists", body := .field { kind := .property, type := ⟨3⟩, readOnly := true } },
    { name := "lists", body := .field { kind := .property, type := ⟨4⟩, readOnly := true } }]⟩

/-- The objects display one literal only. -/
theorem lookAlikes_displaysLiteral {a : TypeRef} (ha : a.index ≤ 6) {l : LiteralValue}
    (h : lookAlikes.DisplaysLiteral a l) : l = .number (.finite false 1 0) := by
  obtain ⟨⟨i⟩, hb, hl⟩ := h
  have hle : i ≤ 6 := by
    induction hb using ReflTransGen.head_induction_on with
    | refl => exact ha
    | head hb _ ih => exact ih ((Graph.index_lt_of_displays (by decide) hb).le.trans ha)
  have hnode := Graph.type_eq_ok_iff.1 hl
  interval_cases i <;> simp_all [lookAlikes, Arena.get?]

theorem typeText_of_same_tree_lookAlikes :
    ∃ j, lookAlikes.typeTree true ⟨5⟩ = .ok j ∧ lookAlikes.typeTree true ⟨6⟩ = .ok j ∧
      ∃ text, typeText lookAlikes ⟨5⟩ = .ok text ∧ typeText lookAlikes ⟨6⟩ = .ok text := by
  have hacyclic := Graph.isAcyclic_of_displaysBackwards (g := lookAlikes) (by decide)
  refine ⟨_, rfl, rfl, ?_⟩
  refine Graph.InRange.typeText_of_same_tree (by decide) (by decide) (hacyclic _) (hacyclic _) ?_ ?_ rfl rfl
    (.refl _)
  · intro x hx
    obtain rfl := LiteralValue.number.inj (lookAlikes_displaysLiteral (by decide) hx)
    trivial
  · rintro l l' hl hl' ⟨digits, ⟨rfl, -⟩ | ⟨rfl, -⟩⟩
    · exact nomatch lookAlikes_displaysLiteral (by decide) hl
    · exact nomatch lookAlikes_displaysLiteral (by decide) hl

/-- The trees of a string and of a whole number with the same characters are the same, their texts are not. -/
theorem typeTree_confuses_lookAlikes :
    lookAlikes.InRange ∧ lookAlikes.IsAcyclic ⟨7⟩ ∧ lookAlikes.IsAcyclic ⟨8⟩ ∧
      (∃ j, lookAlikes.typeTree true ⟨7⟩ = .ok j ∧ lookAlikes.typeTree true ⟨8⟩ = .ok j) ∧
      typeText lookAlikes ⟨7⟩ = .ok "\"12\"" ∧ typeText lookAlikes ⟨8⟩ = .ok "12n" := by
  have hacyclic := Graph.isAcyclic_of_displaysBackwards (g := lookAlikes) (by decide)
  exact ⟨by decide, hacyclic _, hacyclic _, ⟨_, rfl, rfl⟩, by decide +kernel, by decide +kernel⟩

end ApiDoc
