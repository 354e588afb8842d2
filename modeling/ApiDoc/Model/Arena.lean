/-!
# Arenas

Items that refer to each other are kept in one growing table and refer to each other by number.  A
number is handed out when its item is added and stays good; the item behind it may be replaced.
-/

namespace ApiDoc

/-- A growing table of items. -/
structure Arena (α : Type) where
  /-- The items, by number. -/
  items : Array α := #[]

namespace Arena

variable {α : Type}

instance : Inhabited (Arena α) := ⟨{}⟩

/-- How many items there are. -/
def size (a : Arena α) : Nat := a.items.size

/-- The item of a number. -/
def get? (a : Arena α) (i : Nat) : Option α := a.items[i]?

/-- The table with one more item, whose number is the old size. -/
def push (a : Arena α) (item : α) : Arena α := ⟨a.items.push item⟩

/-- The table with the item of a number changed; a number without an item changes nothing. -/
def modify (a : Arena α) (i : Nat) (f : α → α) : Arena α := ⟨a.items.modify i f⟩

/-- The table with another item under a number; a number without an item changes nothing. -/
def replace (a : Arena α) (i : Nat) (item : α) : Arena α := a.modify i fun _ => item

/-- The items in order. -/
def toList (a : Arena α) : List α := a.items.toList

@[simp]
theorem size_push (a : Arena α) (item : α) : (a.push item).size = a.size + 1 := by
  simp [size, push]

@[simp]
theorem size_modify (a : Arena α) (i : Nat) (f : α → α) : (a.modify i f).size = a.size := by
  simp [size, modify]

@[simp]
theorem size_replace (a : Arena α) (i : Nat) (item : α) : (a.replace i item).size = a.size := by
  simp [replace]

theorem get?_eq_none_iff {a : Arena α} {i : Nat} : a.get? i = none ↔ a.size ≤ i := by
  simp [get?, size]

theorem get?_push (a : Arena α) (item : α) (i : Nat) :
    (a.push item).get? i = if i = a.size then some item else a.get? i := by
  simp only [get?, push, size, Array.getElem?_push]
  congr

theorem get?_modify (a : Arena α) (i j : Nat) (f : α → α) :
    (a.modify i f).get? j = if i = j then (a.get? j).map f else a.get? j := by
  simp [get?, modify, Array.getElem?_modify]

theorem get?_replace (a : Arena α) (i j : Nat) (item : α) :
    (a.replace i item).get? j = if i = j then (a.get? j).map fun _ => item else a.get? j :=
  get?_modify a i j _

theorem ext_get? {a b : Arena α} (h : ∀ i, a.get? i = b.get? i) : a = b := by
  cases a
  cases b
  exact congrArg mk (Array.ext_getElem? h)

theorem modify_modify (a : Arena α) (i : Nat) (f g : α → α) :
    (a.modify i f).modify i g = a.modify i fun x => g (f x) := by
  refine ext_get? fun j => ?_
  simp only [get?_modify]
  split <;> simp [Option.map_map, Function.comp_def]

/-- Changes that do not depend on each other can be made in either order. -/
theorem modify_comm (a : Arena α) (i j : Nat) {f g : α → α} (h : ∀ x, f (g x) = g (f x)) :
    (a.modify i f).modify j g = (a.modify j g).modify i f := by
  refine ext_get? fun n => ?_
  simp only [get?_modify]
  split <;> split <;> simp [Option.map_map, Function.comp_def, h]

/-- A new item that is changed at once. -/
theorem modify_push (a : Arena α) (item : α) (f : α → α) : (a.push item).modify a.size f = a.push (f item) := by
  refine ext_get? fun i => ?_
  simp only [get?_modify, get?_push, eq_comm]
  split <;> simp

/-- The number of an item was handed out before. -/
theorem ne_size {a : Arena α} {i : Nat} {item : α} (h : a.get? i = some item) : i ≠ a.size := by
  rintro rfl
  simp [get?_eq_none_iff.2 (Nat.le_refl a.size)] at h

/-- An item stays where it is as the table grows. -/
theorem get?_push_of_eq_some {a : Arena α} {i : Nat} {item : α} (h : a.get? i = some item) (new : α) :
    (a.push new).get? i = some item := by
  rw [get?_push, if_neg (ne_size h), h]

/-- An item stays where it is, unchanged or changed. -/
theorem exists_get?_modify {a : Arena α} {i : Nat} {item : α} (h : a.get? i = some item) (j : Nat) (f : α → α) :
    ∃ item', (a.modify j f).get? i = some item' ∧ (item' = item ∨ item' = f item) := by
  rw [get?_modify, h]
  split
  · exact ⟨_, rfl, .inr rfl⟩
  · exact ⟨_, rfl, .inl rfl⟩

end Arena

end ApiDoc
