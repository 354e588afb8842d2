import ApiDoc.Proofs.References
import ApiDoc.Proofs.Run.Answers
import ApiDoc.Render.Tree

/-!
# What a tree gives away

A tree leaks a member if the member is hidden, hidden members are not asked for, and the tree describes
it all the same (`Json.Leaks`).  Lists leave hidden members out, but a member with a place of its own is
written whatever its documentation says, so a tree is only *discreet* (`Discreet`): no list in it holds a leak,
and a field that holds one belongs to a member and is one of the places in `placedKeys`.

`Proper` values can stand anywhere in a discreet tree; `SoundFields` are the fields of an object in one.
-/

namespace ApiDoc

/-! ### Values in values -/

namespace Json

/-- The items of a list. -/
def items : Json → List Json
  | list items => items
  | _ => []

/-- The fields of an object. -/
def fields : Json → List (String × Json)
  | object fields => fields
  | _ => []

/-- One value is another, or stands somewhere in it. -/
inductive Within (inner : Json) : Json → Prop where
  /-- The value itself. -/
  | self : Within inner inner
  /-- In an item of a list. -/
  | item {outer item : Json} : item ∈ outer.items → Within inner item → Within inner outer
  /-- In a field of an object. -/
  | field {outer : Json} {field : String × Json} : field ∈ outer.fields → Within inner field.2 →
      Within inner outer

/-- A value that describes a member. -/
def IsMember (j : Json) : Prop := ∃ kind, ("memberType", kind) ∈ j.fields

/-- A value that describes a hidden member. -/
def IsHiddenMember (j : Json) : Prop := j.IsMember ∧ ("hidden", .bool true) ∈ j.fields

/-- A value that describes a member which was to be left out. -/
def Leaks (includeHidden : Bool) (j : Json) : Prop := includeHidden = false ∧ j.IsHiddenMember

end Json

/-- The fields of a member that hold one other member each. -/
def placedKeys : List String := ["constructor", "indexer", "newSignature", "class"]

/-- Some member has a place of its own for a hidden one. -/
def Graph.PlacesHidden (g : Graph) : Prop :=
  ∃ m ∈ g.members.toList, ∃ r ∈ m.body.placed, ∃ inner, g.member r = .ok inner ∧ inner.doc.hidden = true

/-- Leaks are found where a member has a place for them only. -/
def Discreet (g : Graph) (includeHidden : Bool) (tree : Json) : Prop :=
  ∀ j : Json, j.Within tree →
    (∀ item ∈ j.items, ¬ item.Leaks includeHidden) ∧
    ∀ field ∈ j.fields, field.2.Leaks includeHidden →
      field.1 ∈ placedKeys ∧ j.IsMember ∧ g.PlacesHidden

/-- A discreet value that is no leak itself. -/
structure Proper (g : Graph) (includeHidden : Bool) (j : Json) : Prop where
  discreet : Discreet g includeHidden j
  silent : ¬ j.Leaks includeHidden

/-- Fields of an object in a discreet tree: they tell that it is hidden only if `told` holds, and hold
leaks only if `kept` does. -/
def SoundFields (g : Graph) (includeHidden : Bool) (told kept : Prop) (fields : List (String × Json)) :
    Prop :=
  ∀ field ∈ fields, (field.1 = "hidden" → told) ∧ Discreet g includeHidden field.2 ∧
    (field.2.Leaks includeHidden → field.1 ∈ placedKeys ∧ kept)

section

variable {g : Graph} {includeHidden : Bool} {told kept : Prop}

theorem Discreet.of_parts {j : Json} (hitems : ∀ item ∈ j.items, Proper g includeHidden item)
    (hfields : ∀ field ∈ j.fields, Discreet g includeHidden field.2 ∧
      (field.2.Leaks includeHidden → field.1 ∈ placedKeys ∧ j.IsMember ∧ g.PlacesHidden)) :
    Discreet g includeHidden j := by
  intro inner hinner
  cases hinner with
  | self => exact ⟨fun item hitem => (hitems item hitem).silent, fun field hfield => (hfields field hfield).2⟩
  | item hitem hinner => exact (hitems _ hitem).discreet inner hinner
  | field hfield hinner => exact (hfields _ hfield).1 inner hinner

/-! ### Proper values -/

namespace Proper

/-- Values without parts. -/
theorem plain {j : Json} (hitems : j.items = []) (hfields : j.fields = []) : Proper g includeHidden j where
  discreet := .of_parts (by simp [hitems]) (by simp [hfields])
  silent := by
    rintro ⟨-, -, h⟩
    simp [hfields] at h

theorem text (s : String) : Proper g includeHidden (.text s) := plain rfl rfl

theorem bool (b : Bool) : Proper g includeHidden (.bool b) := plain rfl rfl

theorem list {items : List Json} (h : ∀ item ∈ items, Proper g includeHidden item) :
    Proper g includeHidden (.list items) where
  discreet := .of_parts h (by simp [Json.fields])
  silent := by
    rintro ⟨-, -, h⟩
    simp [Json.fields] at h

/-- An object of proper values that has no truth value. -/
theorem record {fields : List (String × Json)} (h : ∀ field ∈ fields, Proper g includeHidden field.2)
    (hhidden : ("hidden", .bool true) ∉ fields) : Proper g includeHidden (.object fields) where
  discreet := .of_parts (by simp [Json.items]) fun field hfield =>
    ⟨(h field hfield).discreet, fun hleak => absurd hleak (h field hfield).silent⟩
  silent := fun hleak => hhidden hleak.2.2

/-- An object that does not describe a member. -/
theorem object {fields : List (String × Json)} (h : SoundFields g includeHidden False False fields) :
    Proper g includeHidden (.object fields) where
  discreet := .of_parts (by simp [Json.items]) fun field hfield =>
    ⟨(h field hfield).2.1, fun hleak => ((h field hfield).2.2 hleak).2.elim⟩
  silent := by
    rintro ⟨-, -, hhidden⟩
    exact (h _ hhidden).1 rfl

theorem texts (items : List String) : Proper g includeHidden (.ofList .text items) := by
  refine list fun item hitem => ?_
  obtain ⟨s, -, rfl⟩ := List.mem_map.1 hitem
  exact text s

end Proper

/-! ### Fields -/

namespace SoundFields

theorem nil : SoundFields g includeHidden told kept [] := by simp [SoundFields]

theorem cons {key : String} {value : Json} {fields : List (String × Json)}
    (hkey : key = "hidden" → told) (hvalue : Proper g includeHidden value)
    (h : SoundFields g includeHidden told kept fields) :
    SoundFields g includeHidden told kept ((key, value) :: fields) := by
  rintro field (_ | ⟨_, hfield⟩)
  · exact ⟨hkey, hvalue.discreet, fun hleak => absurd hleak hvalue.silent⟩
  · exact h field hfield

theorem append {fields rest : List (String × Json)} (h : SoundFields g includeHidden told kept fields)
    (hrest : SoundFields g includeHidden told kept rest) :
    SoundFields g includeHidden told kept (fields ++ rest) := by
  intro field hfield
  exact (List.mem_append.1 hfield).elim (h field) (hrest field)

theorem mono {told' kept' : Prop} {fields : List (String × Json)}
    (h : SoundFields g includeHidden told kept fields) (htold : told → told') (hkept : kept → kept') :
    SoundFields g includeHidden told' kept' fields :=
  fun field hfield => ⟨fun hkey => htold ((h field hfield).1 hkey), (h field hfield).2.1,
    fun hleak => ((h field hfield).2.2 hleak).imp_right hkept⟩

theorem textField {key : String} (hkey : key = "hidden" → told) (s : String) :
    SoundFields g includeHidden told kept (Json.textField key s) := by
  unfold Json.textField
  split
  · exact nil
  · exact cons hkey (.text s) nil

theorem optionalText {key : String} (hkey : key = "hidden" → told) (s : Option String) :
    SoundFields g includeHidden told kept (Json.optionalField key .text s) := by
  cases s with
  | none => exact nil
  | some s => exact cons hkey (.text s) nil

theorem flagField {key : String} {value : Bool} (hkey : key = "hidden" → value = true → told) :
    SoundFields g includeHidden told kept (Documentation.flagField key value) := by
  unfold Documentation.flagField
  split
  · exact cons (fun h => hkey h ‹_›) (.bool true) nil
  · exact nil

theorem listField {key : String} (hkey : key = "hidden" → told) (items : List String) :
    SoundFields g includeHidden told kept (Documentation.listField key items) := by
  unfold Documentation.listField
  split
  · exact nil
  · exact cons hkey (.texts items) nil

theorem customTags (tags : NamedTexts) : SoundFields g includeHidden told kept
    (if tags.isEmpty then [] else [("customTags", tags.toJson)]) := by
  split
  · exact nil
  · refine cons (by simp) (.record (fun field hfield => ?_) ?_) nil
    · obtain ⟨entry, -, rfl⟩ := List.mem_map.1 hfield
      exact .text entry.2
    · simp

end SoundFields

theorem Location.toJson_proper (l : Location) : Proper g includeHidden l.toJson :=
  .object <| .cons (by simp) (.text _) <| .cons (by simp) (.plain rfl rfl) <|
    .cons (by simp) (.plain rfl rfl) <| .cons (by simp) (.plain rfl rfl) <|
    .cons (by simp) (.plain rfl rfl) .nil

theorem Import.toJson_proper (i : Import) : Proper g includeHidden i.toJson :=
  .object <| ((SoundFields.cons (by simp) (.text _) .nil).append <|
    .optionalText (by simp) _).append (.optionalText (by simp) _) |>.append <|
    .cons (by simp) (.bool _) <| .cons (by simp) (.bool _) .nil

theorem LiteralValue.toJson_proper (value : LiteralValue) : Proper g includeHidden value.toJson := by
  cases value <;> exact .plain rfl rfl

theorem EnumValue.toJson_proper (value : EnumValue) : Proper g includeHidden value.toJson := by
  cases value <;> exact .plain rfl rfl

/-- The documentation tells that a member is hidden only if it is. -/
theorem Documentation.fields_sound (doc : Documentation) :
    SoundFields g includeHidden (doc.hidden = true) kept doc.fields := by
  unfold Documentation.fields
  repeat' apply SoundFields.append
  · exact .cons (by simp) (.text _) .nil
  · exact .optionalText (by simp) _
  · exact .listField (by simp) _
  · exact .listField (by simp) _
  · exact .customTags _
  iterate 6 exact .optionalText (by simp) _
  · exact .flagField fun _ h => h
  · exact .flagField (by simp)

end

end ApiDoc
