import ApiDoc.Json.Decode

/-!
# Texts by name

A dictionary from names to texts that keeps its names in the order in which they first came.  Every
change goes through `NamedTexts.update`, which touches one name and never moves another.
-/

namespace ApiDoc

/-- Texts by name, each name once, in the order of first occurrence. -/
structure NamedTexts where
  /-- The names with their texts. -/
  entries : List (String × String)
  /-- No name comes twice. -/
  nodup : (entries.map Prod.fst).Nodup
  deriving DecidableEq

namespace NamedTexts

/-- The names, in order. -/
def names (t : NamedTexts) : List String := t.entries.map Prod.fst

/-- No texts. -/
def empty : NamedTexts := ⟨[], List.nodup_nil⟩

instance : Inhabited NamedTexts := ⟨empty⟩

/-- The text of a name. -/
def get? (t : NamedTexts) (name : String) : Option String := t.entries.lookup name

/-- Whether there is no name. -/
def isEmpty (t : NamedTexts) : Bool := t.entries.isEmpty

/-- The entries with the text of `name` changed by `f`, or put last when the name is new. -/
def updateEntries (name : String) (f : Option String → String) :
    List (String × String) → List (String × String)
  | [] => [(name, f none)]
  | entry :: rest =>
    if entry.1 = name then (name, f (some entry.2)) :: rest
    else entry :: updateEntries name f rest

theorem names_updateEntries (name : String) (f : Option String → String)
    (entries : List (String × String)) :
    (updateEntries name f entries).map Prod.fst =
      if name ∈ entries.map Prod.fst then entries.map Prod.fst
      else entries.map Prod.fst ++ [name] := by
  induction entries with
  | nil => simp [updateEntries]
  | cons entry rest ih =>
    by_cases h : entry.1 = name
    · simp [updateEntries, h]
    · have h' : ¬name = entry.1 := fun e => h e.symm
      simp only [updateEntries, if_neg h, List.map_cons, ih, List.mem_cons, h', false_or]
      split <;> simp

/-- The dictionary with the text of `name` changed by `f`, or put last when the name is new. -/
def update (t : NamedTexts) (name : String) (f : Option String → String) : NamedTexts where
  entries := updateEntries name f t.entries
  nodup := by
    rw [names_updateEntries]
    split
    · exact t.nodup
    · next h =>
      rw [List.nodup_append]
      refine ⟨t.nodup, by simp, ?_⟩
      intro a ha b hb
      obtain rfl : b = name := by simpa using hb
      exact fun e => h (e ▸ ha)

theorem lookup_entry (name : String) (entry : String × String) (rest : List (String × String)) :
    (entry :: rest).lookup name = if name = entry.1 then some entry.2 else rest.lookup name := by
  obtain ⟨key, text⟩ := entry
  by_cases h : name = key
  · simp [h]
  · have hb : (name == key) = false := beq_eq_false_iff_ne.mpr h
    rw [List.lookup_cons, hb, if_neg h]

theorem lookup_updateEntries (name other : String) (f : Option String → String)
    (entries : List (String × String)) :
    (updateEntries name f entries).lookup other =
      if other = name then some (f (entries.lookup name)) else entries.lookup other := by
  induction entries with
  | nil => simp only [updateEntries, lookup_entry, List.lookup_nil]
  | cons entry rest ih =>
    by_cases hk : entry.1 = name
    · simp only [updateEntries, hk, if_true, lookup_entry]
      by_cases ho : other = name <;> simp [ho]
    · have hn : ¬name = entry.1 := fun e => hk e.symm
      simp only [updateEntries, hk, if_false, lookup_entry, ih, hn]
      by_cases ho : other = name
      · simp [ho, hn]
      · simp [ho]

/-- A change touches one name only. -/
theorem get?_update (t : NamedTexts) (name other : String) (f : Option String → String) :
    (t.update name f).get? other = if other = name then some (f (t.get? name)) else t.get? other :=
  lookup_updateEntries name other f t.entries

/-- A change keeps the order of the names and puts a new one last. -/
theorem names_update (t : NamedTexts) (name : String) (f : Option String → String) :
    (t.update name f).names = if name ∈ t.names then t.names else t.names ++ [name] :=
  names_updateEntries name f t.entries

/-- Sets the text of a name. -/
def insert (t : NamedTexts) (name text : String) : NamedTexts := t.update name fun _ => text

/-- Sets the text of a name that has none yet. -/
def insertNew (t : NamedTexts) (name text : String) : NamedTexts :=
  t.update name fun old => old.getD text

/-- A text put on a new line behind what is there; an empty text adds no line, and nothing is kept
of an empty one. -/
def joinText (old : Option String) (text : String) : String :=
  match old with
  | some before =>
    if before.isEmpty then text else if text.isEmpty then before else before ++ "\n" ++ text
  | none => text

/-- Puts a text on a new line behind what the name has. -/
def append (t : NamedTexts) (name text : String) : NamedTexts :=
  t.update name fun old => joinText old text

/-- Adds the names of another dictionary that are new here, in its order. -/
def inherit (own base : NamedTexts) : NamedTexts :=
  base.entries.foldl (fun t entry => t.insertNew entry.1 entry.2) own

/-- The dictionary of a list of pairs, the last text of a name winning. -/
def ofList (pairs : List (String × String)) : NamedTexts :=
  pairs.foldl (fun t (pair : String × String) => t.insert pair.1 pair.2) empty

/-- The dictionary as a JSON object. -/
def toJson (t : NamedTexts) : Json :=
  .object (t.entries.map fun entry => (entry.1, .text entry.2))

/-- The dictionary a JSON object of strings stands for. -/
def ofJson? : Json → Option NamedTexts
  | .object fields =>
    (fields.mapM fun (field : String × Json) =>
      field.2.asText?.map fun text => (field.1, text)).map ofList
  | _ => none

end NamedTexts

end ApiDoc
