import ApiDoc.Proofs.Render.Trees

/-!
# Hidden members in trees

Unless hidden members are asked for, no list in the tree of a project holds one, whichever list it is
(`Project.InRange.tree_hides`).  A member with a place of its own is not looked at in this way: the constructor,
index signature and construct signature of a class and the companion of a method are written even if they are
hidden (`tree_shows_hiddenConstructor`).  Where no such place holds a hidden member, the tree holds none at all.
-/

namespace ApiDoc

namespace Json

/-- A value in another is the whole of it, an item of a list in it or the value of a field in it. -/
theorem Within.cases_outer {inner outer : Json} (h : inner.Within outer) :
    inner = outer ∨ (∃ j : Json, j.Within outer ∧ inner ∈ j.items) ∨
      ∃ j : Json, j.Within outer ∧ ∃ key, (key, inner) ∈ j.fields := by
  induction h with
  | self => exact .inl rfl
  | @item outer item hitem _ ih =>
    rcases ih with rfl | ⟨j, hj, hmem⟩ | ⟨j, hj, hmem⟩
    · exact .inr (.inl ⟨outer, .self, hitem⟩)
    · exact .inr (.inl ⟨j, .item hitem hj, hmem⟩)
    · exact .inr (.inr ⟨j, .item hitem hj, hmem⟩)
  | @field outer field hfield _ ih =>
    rcases ih with heq | ⟨j, hj, hmem⟩ | ⟨j, hj, hmem⟩
    · exact .inr (.inr ⟨outer, .self, field.1, heq ▸ hfield⟩)
    · exact .inr (.inl ⟨j, .field hfield hj, hmem⟩)
    · exact .inr (.inr ⟨j, .field hfield hj, hmem⟩)

end Json

/-- **Hidden members are left out of every list.**  If they are not asked for, a hidden member in the tree of a
project is the constructor, indexer, construct signature or companion of a member; and there is none at all
unless some member of the project has a hidden one in such a place. -/
theorem Project.InRange.tree_hides {p : Project} (hp : p.InRange) {config : Config}
    (hconfig : config.includeHidden = false) {tree : Json} (htree : p.tree config = .ok tree) :
    (∀ j : Json, j.Within tree → j.IsHiddenMember →
      ∃ outer : Json, outer.Within tree ∧ outer.IsMember ∧ ∃ key ∈ placedKeys, (key, j) ∈ outer.fields) ∧
    (∀ j : Json, j.Within tree → ∀ item ∈ j.items, ¬ item.IsHiddenMember) ∧
    (¬ p.graph.PlacesHidden → ∀ j : Json, j.Within tree → ¬ j.IsHiddenMember) := by
  have hproper : Proper p.graph false tree := by
    have hmeets := hp.meets_tree config
    rwa [htree, hconfig] at hmeets
  have hleak {j : Json} (hj : j.IsHiddenMember) : j.Leaks false := ⟨rfl, hj⟩
  have hplaced {j : Json} (hj : j.Within tree) (hhidden : j.IsHiddenMember) :
      ∃ outer : Json, outer.Within tree ∧ outer.IsMember ∧ p.graph.PlacesHidden ∧
        ∃ key ∈ placedKeys, (key, j) ∈ outer.fields := by
    rcases hj.cases_outer with rfl | ⟨outer, houter, hitem⟩ | ⟨outer, houter, key, hfield⟩
    · exact absurd (hleak hhidden) hproper.silent
    · exact absurd (hleak hhidden) ((hproper.discreet outer houter).1 j hitem)
    · obtain ⟨hkey, hmember, hkept⟩ := (hproper.discreet outer houter).2 _ hfield (hleak hhidden)
      exact ⟨outer, houter, hmember, hkept, key, hkey, hfield⟩
  refine ⟨fun j hj hhidden => ?_, fun j hj item hitem hhidden => ?_, fun hnone j hj hhidden => ?_⟩
  · obtain ⟨outer, houter, hmember, -, hkey⟩ := hplaced hj hhidden
    exact ⟨outer, houter, hmember, hkey⟩
  · exact (hproper.discreet j hj).1 item hitem (hleak hhidden)
  · obtain ⟨-, -, -, hkept, -⟩ := hplaced hj hhidden
    exact hnone hkept

/-- A file with a hidden and a plain namespace. -/
def hiddenNamespace : Project where
  files := [{ fileName := "a.ts", members := [⟨0⟩, ⟨1⟩] }]
  graph := { members := ⟨#[{ name := "kept", body := .namespaceLike [] },
    { name := "left", doc := { hidden := true }, body := .namespaceLike [] }]⟩ }

theorem tree_hides_hiddenNamespace :
    ∃ tree, hiddenNamespace.tree {} = .ok tree ∧ ∀ j : Json, j.Within tree → ¬ j.IsHiddenMember := by
  have hnone : ¬ hiddenNamespace.graph.PlacesHidden := by
    rintro ⟨m, hm, r, hr, -⟩
    have hempty : ∀ m ∈ hiddenNamespace.graph.members.toList, m.body.placed = [] := by decide
    rw [hempty m hm] at hr
    exact List.not_mem_nil hr
  obtain ⟨tree, htree⟩ := exists_of_isOk (x := hiddenNamespace.tree {}) rfl
  obtain ⟨-, -, hhides⟩ := Project.InRange.tree_hides (p := hiddenNamespace) (by decide) rfl htree
  exact ⟨tree, htree, hhides hnone⟩

/-- A class with a hidden constructor. -/
def hiddenConstructor : Project where
  files := [{ fileName := "a.ts", members := [⟨0⟩] }]
  graph := { members := ⟨#[{ name := "K", body := .classLike { kind := .concrete, constructor := some ⟨1⟩ } },
    { name := "make", doc := { hidden := true }, body := .namespaceLike [] }]⟩ }

/-- A hidden member with a place of its own is written all the same. -/
theorem tree_shows_hiddenConstructor :
    hiddenConstructor.InRange ∧ ∃ tree, hiddenConstructor.tree {} = .ok tree ∧
      ∃ j : Json, j.Within tree ∧ j.IsHiddenMember := by
  -- the constructor of the first member of the first file
  have hpath : ∀ tree, hiddenConstructor.tree {} = .ok tree →
      ∃ j : Json, j.Within tree ∧ j.IsHiddenMember := by
    rintro _ ⟨⟩
    exact ⟨_, .field (List.mem_of_getElem? (i := 0) rfl) <| .item (List.mem_of_getElem? (i := 0) rfl) <|
      .field (List.mem_of_getElem? (i := 5) rfl) <| .item (List.mem_of_getElem? (i := 0) rfl) <|
      .field (List.mem_of_getElem? (i := 14) rfl) .self,
      ⟨_, List.mem_of_getElem? (i := 0) rfl⟩, List.mem_of_getElem? (i := 3) rfl⟩
  obtain ⟨tree, htree⟩ := exists_of_isOk (x := hiddenConstructor.tree {}) rfl
  exact ⟨by decide, tree, htree, hpath tree htree⟩

end ApiDoc
