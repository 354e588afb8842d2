import ApiDoc.Model.Project
import ApiDoc.Proofs.Doc.Dictionaries
import ApiDoc.Proofs.Json.RoundTrip

/-!
# Records read back from their fields

A record is written as the fields of those of its slots that have a value (`Json.filled`), and read from the values of
the slots it names.  Where the names of the slots differ, each gets its value back (`Json.record?_filled`), so what is
left is that each kind of field reads what it writes: an absent field is read as what it was left out for.
-/

namespace ApiDoc

namespace Json

/-- The fields of a record that have a value. -/
def filled (slots : List (String × Option Json)) : List (String × Json) :=
  slots.filterMap fun slot => slot.2.map (slot.1, ·)

variable {α : Type} {slots : List (String × Option Json)}

theorem filled_cons (name : String) (value : Option Json) (slots : List (String × Option Json)) :
    filled ((name, value) :: slots) = (value.map (name, ·)).toList ++ filled slots := by
  cases value <;> rfl

theorem filled_append (slots more : List (String × Option Json)) :
    filled (slots ++ more) = filled slots ++ filled more := List.filterMap_append

theorem names_filled (slots : List (String × Option Json)) :
    ((filled slots).map Prod.fst).Sublist (slots.map Prod.fst) := by
  induction slots with
  | nil => exact .slnil
  | cons slot slots ih =>
    obtain ⟨name, _ | value⟩ := slot
    · exact .cons _ ih
    · exact .cons_cons _ ih

theorem lookup_of_not_mem {key : String} {fields : List (String × Json)} (h : key ∉ fields.map Prod.fst) :
    fields.lookup key = none := by
  rw [List.lookup_eq_none_iff]
  intro field hfield
  exact bne_iff_ne.2 fun heq => h (heq ▸ List.mem_map_of_mem hfield)

theorem lookup_filled (h : (slots.map Prod.fst).Nodup) {slot : String × Option Json} (hslot : slot ∈ slots) :
    (filled slots).lookup slot.1 = slot.2 := by
  induction slots with
  | nil => exact nomatch hslot
  | cons first slots ih =>
    obtain ⟨name, value⟩ := first
    obtain ⟨hnew, hrest⟩ := List.nodup_cons.1 h
    have hnone : (filled slots).lookup name = none :=
      lookup_of_not_mem fun hmem => hnew ((names_filled slots).subset hmem)
    rcases List.mem_cons.1 hslot with rfl | hmem
    · cases value with
      | none => exact hnone
      | some value => simp [filled_cons]
    · have hne : slot.1 ≠ name := fun heq => hnew (heq ▸ List.mem_map.2 ⟨slot, hmem, rfl⟩)
      rw [filled_cons, List.lookup_append, ih hrest hmem]
      cases value with
      | none => rfl
      | some value => simp [List.lookup_cons, beq_false_of_ne hne]

/-- The slots of a record are found by their names. -/
theorem record?_filled (h : (slots.map Prod.fst).Nodup) :
    (object (filled slots)).record? (slots.map Prod.fst) = some (slots.map Prod.snd) := by
  rw [record?, List.map_map]
  exact congrArg some (List.map_congr_left fun slot hslot => lookup_filled h hslot)

theorem isPlain_filled (h : (slots.map Prod.fst).Nodup) (hplain : ∀ slot ∈ slots, ∀ value ∈ slot.2, IsPlain value) :
    IsPlain (object (filled slots)) := by
  refine .object (h.sublist (names_filled slots)) fun field hfield => ?_
  obtain ⟨slot, hslot, hvalue⟩ := List.mem_filterMap.1 hfield
  obtain ⟨value, hsome, rfl⟩ := Option.map_eq_some_iff.1 hvalue
  exact hplain slot hslot value hsome

/-! ### Parts of records -/

theorem optionalField_eq (name : String) (encode : α → Json) (value : Option α) :
    optionalField name encode value = filled [(name, value.map encode)] := by
  cases value <;> rfl

theorem optional_text (value : Option String) : optional asText? (value.map text) = some value := by
  cases value <;> rfl

theorem asList?_ofList (texts : List String) : asList? asText? (ofList text texts) = some texts := by
  induction texts with
  | nil => rfl
  | cons text texts ih =>
    rw [ofList, asList?] at ih
    rw [ofList, asList?, List.map_cons, List.mapM_cons, ih]
    rfl

theorem required_nat {n : Nat} (h : n < UInt64.size) : required asWord? (some (nat n)) = some n := by
  have hword : (0 ≤ (n : Int) && (n : Int) < wordEnd) = true := by
    rw [Bool.and_eq_true, decide_eq_true_iff, decide_eq_true_iff]
    exact ⟨Int.natCast_nonneg n, Int.ofNat_lt.2 h⟩
  rw [required, nat, asWord?, if_pos hword, Int.toNat_natCast]

theorem isPlain_ofList (texts : List String) : IsPlain (ofList text texts) := by
  refine .list fun item hitem => ?_
  obtain ⟨t, -, rfl⟩ := List.mem_map.1 hitem
  exact .text t

theorem isPlain_nat {n : Nat} (h : n < UInt64.size) : IsPlain (nat n) := by
  refine .integer ?_
  rw [fitsWord, Bool.and_eq_true, decide_eq_true_iff, decide_eq_true_iff]
  exact ⟨by omega, Int.ofNat_lt.2 h⟩

theorem isPlain_map_text (value : Option String) : ∀ j ∈ value.map text, IsPlain j := by
  intro j hj
  obtain ⟨t, -, rfl⟩ := Option.map_eq_some_iff.1 hj
  exact .text t

end Json

namespace NamedTexts

/-- Entries with new names are put behind those there are. -/
theorem entries_foldl_insert {entries : List (String × String)} {t : NamedTexts}
    (h : (t.names ++ entries.map Prod.fst).Nodup) :
    (entries.foldl (fun t (entry : String × String) => t.insert entry.1 entry.2) t).entries = t.entries ++ entries := by
  induction entries generalizing t with
  | nil => exact (List.append_nil _).symm
  | cons entry entries ih =>
    have hnew : entry.1 ∉ t.entries.map Prod.fst := fun hmem =>
      (List.nodup_cons.1 (List.nodup_middle.1 h)).1 (List.mem_append_left _ hmem)
    have hentries : (t.insert entry.1 entry.2).entries = t.entries ++ [entry] := updateEntries_of_not_mem hnew _
    have hnames : (t.insert entry.1 entry.2).names ++ entries.map Prod.fst =
        t.names ++ (entry :: entries).map Prod.fst := by
      rw [names, hentries, names]
      simp
    rw [List.foldl_cons, ih (hnames ▸ h), hentries, List.append_assoc]
    rfl

/-- A dictionary is the dictionary of its entries. -/
theorem ofList_entries (t : NamedTexts) : ofList t.entries = t :=
  ext (entries_foldl_insert t.nodup)

theorem ofJson?_toJson (t : NamedTexts) : ofJson? t.toJson = some t := by
  have hentries (entries : List (String × String)) :
      (entries.map fun entry => (entry.1, Json.text entry.2)).mapM
        (fun (field : String × Json) => field.2.asText?.map fun text => (field.1, text)) = some entries := by
    induction entries with
    | nil => rfl
    | cons entry entries ih =>
      rw [List.map_cons, List.mapM_cons, ih]
      rfl
  rw [toJson, ofJson?, hentries, Option.map_some, ofList_entries]

theorem isPlain_toJson (t : NamedTexts) : t.toJson.IsPlain := by
  refine .object (by simpa [List.map_map, Function.comp_def] using t.nodup) fun field hfield => ?_
  obtain ⟨entry, -, rfl⟩ := List.mem_map.1 hfield
  exact .text entry.2

end NamedTexts

namespace Documentation

/-- The fields of a documentation with their values, as far as they have one. -/
def slots (doc : Documentation) : List (String × Option Json) :=
  [("summary", some (.text doc.summary)),
   ("description", doc.description.map .text),
   ("examples", if doc.examples.isEmpty then none else some (.ofList .text doc.examples)),
   ("sees", if doc.sees.isEmpty then none else some (.ofList .text doc.sees)),
   ("customTags", if doc.customTags.isEmpty then none else some doc.customTags.toJson),
   ("deprecated", doc.deprecated.map .text),
   ("since", doc.since.map .text),
   ("category", doc.category.map .text),
   ("defaultValue", doc.defaultValue.map .text),
   ("author", doc.author.map .text),
   ("version", doc.version.map .text),
   ("hidden", if doc.hidden then some (.bool true) else none),
   ("virtual", if doc.isVirtual then some (.bool true) else none)]

theorem fields_eq (doc : Documentation) : doc.fields = Json.filled doc.slots := by
  have hlist (name : String) (texts : List String) : listField name texts =
      Json.filled [(name, if texts.isEmpty then none else some (.ofList .text texts))] := by
    rw [listField]
    split <;> rfl
  have hflag (name : String) (value : Bool) : flagField name value =
      Json.filled [(name, if value then some (.bool true) else none)] := by
    rw [flagField]
    split <;> rfl
  have htags : (if doc.customTags.isEmpty then [] else [("customTags", doc.customTags.toJson)]) =
      Json.filled [("customTags", if doc.customTags.isEmpty then none else some doc.customTags.toJson)] := by
    split <;> rfl
  have hsummary : [("summary", Json.text doc.summary)] = Json.filled [("summary", some (.text doc.summary))] := rfl
  simp only [fields, hsummary, Json.optionalField_eq, hlist, hflag, htags, ← Json.filled_append]
  rfl

theorem names_slots (doc : Documentation) : doc.slots.map Prod.fst = fieldNames := rfl

theorem names_fields (doc : Documentation) : (doc.fields.map Prod.fst).Sublist fieldNames := by
  rw [fields_eq, ← names_slots doc]
  exact Json.names_filled doc.slots

theorem ofFields?_slots (doc : Documentation) : ofFields? (doc.slots.map Prod.snd) = some doc := by
  have hlist (texts : List String) : Json.withDefault [] (Json.asList? Json.asText?)
      (if texts.isEmpty then none else some (.ofList .text texts)) = some texts := by
    cases texts with
    | nil => rfl
    | cons text texts => exact Json.asList?_ofList _
  have htags : Json.withDefault .empty NamedTexts.ofJson?
      (if doc.customTags.isEmpty then none else some doc.customTags.toJson) = some doc.customTags := by
    split
    · next h => exact congrArg some (NamedTexts.ext (List.isEmpty_iff.1 h).symm)
    · exact NamedTexts.ofJson?_toJson _
  have hflag (value : Bool) :
      Json.withDefault false Json.asBool? (if value then some (.bool true) else none) = some value := by
    cases value <;> rfl
  have hsummary : Json.withDefault "" Json.asText? (some (.text doc.summary)) = some doc.summary := rfl
  simp only [slots, List.map_cons, List.map_nil, ofFields?, hsummary, Json.optional_text, hlist, htags, hflag]
  rfl

theorem ofJson?_toJson (doc : Documentation) : ofJson? doc.toJson = some doc := by
  rw [ofJson?, toJson, fields_eq, ← names_slots doc, Json.record?_filled (by rw [names_slots]; decide),
    Option.bind_some, ofFields?_slots]

theorem isPlain_toJson (doc : Documentation) : doc.toJson.IsPlain := by
  rw [toJson, fields_eq]
  have hunless {empty : Bool} {value : Json} (h : value.IsPlain) :
      ∀ j ∈ (if empty then none else some value), j.IsPlain := by
    split
    · nofun
    · rintro j ⟨⟩
      exact h
  have hflag (value : Bool) : ∀ j ∈ (if value then some (Json.bool true) else none), j.IsPlain := by
    split
    · rintro j ⟨⟩
      exact .bool true
    · nofun
  have hsummary : ∀ j ∈ some (Json.text doc.summary), j.IsPlain := by
    rintro j ⟨⟩
    exact .text doc.summary
  refine Json.isPlain_filled (by rw [names_slots]; decide) ?_
  simp only [slots, List.forall_mem_cons]
  exact ⟨hsummary, Json.isPlain_map_text _, hunless (Json.isPlain_ofList _), hunless (Json.isPlain_ofList _),
    hunless doc.customTags.isPlain_toJson, Json.isPlain_map_text _, Json.isPlain_map_text _, Json.isPlain_map_text _,
    Json.isPlain_map_text _, Json.isPlain_map_text _, Json.isPlain_map_text _, hflag _, hflag _, nofun⟩

end Documentation

namespace Import

/-- The fields of an import with their values, as far as they have one. -/
def slots (i : Import) : List (String × Option Json) :=
  [("name", some (.text i.name)), ("resolvedName", i.resolvedName.map .text), ("path", i.path.map .text),
   ("external", some (.bool i.external)), ("reference", some (.bool i.reference))]

theorem toJson_eq (i : Import) : i.toJson = .object (Json.filled i.slots) := by
  obtain ⟨name, resolvedName, path, external, reference⟩ := i
  cases resolvedName <;> cases path <;> rfl

theorem nodup_slots (i : Import) : (i.slots.map Prod.fst).Nodup := by
  have hnames : i.slots.map Prod.fst = ["name", "resolvedName", "path", "external", "reference"] := rfl
  rw [hnames]
  decide

theorem ofJson?_toJson (i : Import) : ofJson? i.toJson = some i := by
  have hrecord : i.toJson.record? ["name", "resolvedName", "path", "external", "reference"] =
      some (i.slots.map Prod.snd) :=
    i.toJson_eq ▸ Json.record?_filled i.nodup_slots
  rw [ofJson?, hrecord]
  simp only [slots, List.map_cons, List.map_nil, Json.optional_text]
  rfl

theorem isPlain_toJson (i : Import) : i.toJson.IsPlain := by
  have hplain {value : Json} (h : value.IsPlain) : ∀ j ∈ some value, j.IsPlain := by
    rintro j ⟨⟩
    exact h
  rw [toJson_eq]
  refine Json.isPlain_filled i.nodup_slots ?_
  simp only [slots, List.forall_mem_cons]
  exact ⟨hplain (.text _), Json.isPlain_map_text _, Json.isPlain_map_text _, hplain (.bool _), hplain (.bool _), nofun⟩

end Import

namespace Location

variable {l : Location}

/-- The numbers of a place fit a word. -/
structure FitsWords (l : Location) : Prop where
  line : l.line < UInt64.size
  col : l.col < UInt64.size
  endLine : l.endLine < UInt64.size
  endCol : l.endCol < UInt64.size

theorem ofJson?_toJson (h : l.FitsWords) : ofJson? l.toJson = some l := by
  have hrecord : l.toJson.record? ["file", "line", "col", "endLine", "endCol"] =
      some [some (.text l.file), some (.nat l.line), some (.nat l.col), some (.nat l.endLine), some (.nat l.endCol)] :=
    rfl
  rw [ofJson?, hrecord]
  simp only [Json.required_nat h.line, Json.required_nat h.col, Json.required_nat h.endLine, Json.required_nat h.endCol]
  rfl

theorem isPlain_toJson (h : l.FitsWords) : l.toJson.IsPlain := by
  refine .object ?_ ?_
  · simp
  · simp only [List.forall_mem_cons]
    exact ⟨.text _, Json.isPlain_nat h.line, Json.isPlain_nat h.col, Json.isPlain_nat h.endLine,
      Json.isPlain_nat h.endCol, nofun⟩

end Location

end ApiDoc
