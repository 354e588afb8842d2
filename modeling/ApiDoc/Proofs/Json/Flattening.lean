import ApiDoc.Proofs.Json.Records
import ApiDoc.Proofs.Render.TreeText

/-!
# Documentation among the fields of a member

The object of a member has the fields of its documentation between its own.  No name is there twice, whatever the kind
of the member (`Member.nodup_keys`), so that no field overwrites another and the documentation is read back from the
object (`Member.Flattens`).  With the round trips of the single records this is `records_read_back`.
-/

namespace ApiDoc

namespace Json

variable {fields : List (String × Json)}

/-- Fields put in one by one. -/
def putAll (fields : List (String × Json)) : List (String × Json) :=
  fields.foldl (fun object field => putField field.1 field.2 object) []

theorem foldl_putField {before : List (String × Json)} (h : ((before ++ fields).map Prod.fst).Nodup) :
    fields.foldl (fun object field => putField field.1 field.2 object) before = before ++ fields := by
  induction fields generalizing before with
  | nil => exact (List.append_nil _).symm
  | cons field fields ih =>
    rw [List.foldl_cons, putField_of_not_mem (not_mem_of_nodup h), ih (by simpa using h), List.append_assoc]
    rfl

/-- Fields with different names are all there in the end, as they were put in. -/
theorem putAll_of_nodup (h : (fields.map Prod.fst).Nodup) : putAll fields = fields := foldl_putField h

theorem names_optionalField {α : Type} (name : String) (encode : α → Json) (value : Option α) :
    ((optionalField name encode value).map Prod.fst).Sublist [name] := by
  cases value with
  | none => exact List.nil_sublist _
  | some a => exact .refl _

theorem names_textField (name value : String) : ((textField name value).map Prod.fst).Sublist [name] := by
  rw [textField]
  split
  · exact List.nil_sublist _
  · exact .refl _

end Json

/-- The names of the fields that belong to the kind of a member. -/
def MemberBody.keys : MemberBody → List String
  | .field _ => ["declKind", "type", "optional", "readOnly", "const", "default"]
  | .method _ =>
    ["declKind", "typeParameters", "parameters", "returnType", "thisType", "returnSummary", "async", "generator",
     "overloads", "class"]
  | .classLike _ =>
    ["typeParameters", "extends", "implements", "members", "instanceMembers", "extendedMembers", "constructor",
     "indexer", "newSignature"]
  | .enumeration _ => ["const", "members", "namespaceMembers"]
  | .namespaceLike _ => ["members"]
  | .alias .. => ["type", "typeParameters"]

namespace Member

/-- The names of the fields before the documentation. -/
def keysBefore : List String := ["memberType", "name", "exportName"]

/-- The names of the fields behind the documentation. -/
def keysAfter (m : Member) : List String :=
  ["location", "visibility", "static", "abstract", "override", "parent", "overrides"] ++ m.body.keys

/-- **No two fields of a member have the same name**, those of its documentation among them, and none has the name that
the value of an enum member goes by. -/
theorem nodup_keys (m : Member) :
    ((keysBefore ++ (Documentation.fieldNames ++ m.keysAfter)) ++ ["value"]).Nodup := by
  cases hbody : m.body <;> rw [keysAfter, hbody, MemberBody.keys] <;> decide

end Member

namespace TreeWriter

variable {v : TreeWriter (Except Error)} {g : Graph} {includeHidden : Bool} {fields own : List (String × Json)}
  {name : String}

theorem names_typeField {r : Option TypeRef} (h : v.typeField name r = .ok fields) :
    (fields.map Prod.fst).Sublist [name] := by
  obtain ⟨-, rfl⟩ | ⟨a, j, -, -, rfl⟩ := typeField_eq_ok h
  · exact List.nil_sublist _
  · exact .refl _

theorem names_memberField {r : Option MemberRef} (h : v.memberField name r = .ok fields) :
    (fields.map Prod.fst).Sublist [name] := by
  obtain rfl | ⟨j, rfl⟩ := memberField_eq_ok h
  · exact List.nil_sublist _
  · exact .refl _

theorem names_overriddenField {r : Option MemberRef} (h : overriddenField g r = .ok fields) :
    (fields.map Prod.fst).Sublist ["overrides"] := by
  obtain rfl | ⟨j, rfl⟩ := overriddenField_eq_ok h
  · exact List.nil_sublist _
  · exact .refl _

theorem names_kindFields {body : MemberBody} (h : v.kindFields g includeHidden body = .ok own) :
    (own.map Prod.fst).Sublist body.keys := by
  cases body with
  | field f =>
    obtain ⟨type, -, rfl⟩ := map_eq_ok_iff.1 h
    rw [List.map_append]
    exact .append (.refl _) (Json.names_optionalField ..)
  | method m =>
    obtain ⟨signature, hsignature, h⟩ := bind_eq_ok_iff.1 h
    obtain ⟨overloads, -, h⟩ := bind_eq_ok_iff.1 h
    obtain ⟨companion, hcompanion, rfl⟩ := map_eq_ok_iff.1 h
    obtain ⟨_, _, _, receiver, -, -, -, hreceiver, rfl⟩ := signature_eq_ok hsignature
    simp only [List.map_append]
    exact (((List.Sublist.refl ["declKind"]).append
      ((List.Sublist.refl ["typeParameters", "parameters", "returnType"]).append (names_typeField hreceiver))).append
      (Json.names_textField ..)).append (.refl ["async", "generator", "overloads"])
        |>.append (names_memberField hcompanion)
  | classLike c =>
    obtain ⟨typeParameters, -, h⟩ := bind_eq_ok_iff.1 h
    obtain ⟨bases, -, h⟩ := bind_eq_ok_iff.1 h
    obtain ⟨implements, -, h⟩ := bind_eq_ok_iff.1 h
    obtain ⟨members, -, h⟩ := bind_eq_ok_iff.1 h
    obtain ⟨instanceMembers, -, h⟩ := bind_eq_ok_iff.1 h
    obtain ⟨extendedMembers, -, h⟩ := bind_eq_ok_iff.1 h
    obtain ⟨constructor, hconstructor, h⟩ := bind_eq_ok_iff.1 h
    obtain ⟨indexer, hindexer, h⟩ := bind_eq_ok_iff.1 h
    obtain ⟨newSignature, hnewSignature, rfl⟩ := map_eq_ok_iff.1 h
    simp only [List.map_append]
    exact (((List.Sublist.refl
      ["typeParameters", "extends", "implements", "members", "instanceMembers", "extendedMembers"]).append
      (names_memberField hconstructor)).append (names_memberField hindexer)).append (names_memberField hnewSignature)
  | enumeration e =>
    obtain ⟨shown, -, h⟩ := bind_eq_ok_iff.1 h
    obtain ⟨entries, -, h⟩ := bind_eq_ok_iff.1 h
    obtain ⟨members, -, rfl⟩ := map_eq_ok_iff.1 h
    exact .refl _
  | namespaceLike rs =>
    obtain ⟨members, -, rfl⟩ := map_eq_ok_iff.1 h
    exact .refl _
  | «alias» type params =>
    obtain ⟨type, -, h⟩ := bind_eq_ok_iff.1 h
    obtain ⟨typeParameters, -, rfl⟩ := map_eq_ok_iff.1 h
    exact .refl _

/-- The fields of a member, with its documentation among them. -/
theorem memberBody_eq_append {m : Member} (h : v.memberBody g includeHidden m = .ok fields) :
    ∃ before after, fields = before ++ (m.doc.fields ++ after) ∧ (before.map Prod.fst).Sublist Member.keysBefore ∧
      (after.map Prod.fst).Sublist m.keysAfter := by
  obtain ⟨overridden, hoverridden, h⟩ := bind_eq_ok_iff.1 h
  obtain ⟨parent, hparent, h⟩ := bind_eq_ok_iff.1 h
  obtain ⟨own, hown, rfl⟩ := map_eq_ok_iff.1 h
  refine ⟨[("memberType", .text m.kind), ("name", .text m.name)] ++ Json.optionalField "exportName" .text m.exportName,
    [("location", m.location.toJson), ("visibility", m.visibility.toJson), ("static", .bool m.isStatic),
      ("abstract", .bool m.isAbstract), ("override", .bool m.isOverride)] ++ (parent ++ (overridden ++ own)),
    by simp only [List.append_assoc], ?_, ?_⟩
  · rw [List.map_append]
    exact (List.Sublist.refl ["memberType", "name"]).append (Json.names_optionalField ..)
  · simp only [List.map_append]
    exact (List.Sublist.refl ["location", "visibility", "static", "abstract", "override"]).append
      ((names_typeField hparent).append ((names_overriddenField hoverridden).append (names_kindFields hown)))

end TreeWriter

namespace Documentation

variable {doc : Documentation} {before after : List (String × Json)}

/-- A documentation is read from an object that has its fields among fields of other names. -/
theorem ofJson?_among (hbefore : ∀ key ∈ fieldNames, key ∉ before.map Prod.fst)
    (hafter : ∀ key ∈ fieldNames, key ∉ after.map Prod.fst) :
    ofJson? (.object (before ++ (doc.fields ++ after))) = some doc := by
  have hlookup : fieldNames.map (fun key => (before ++ (doc.fields ++ after)).lookup key) =
      fieldNames.map fun key => doc.fields.lookup key := by
    refine List.map_congr_left fun key hkey => ?_
    rw [List.lookup_append, List.lookup_append, Json.lookup_of_not_mem (hbefore key hkey),
      Json.lookup_of_not_mem (hafter key hkey), Option.none_or, Option.or_none]
  have hread := doc.ofJson?_toJson
  rw [toJson, ofJson?, Json.record?] at hread
  rw [ofJson?, Json.record?, hlookup, hread]

end Documentation

/-- How a documentation stands among the fields of its member: no name is there twice, so that nothing is overwritten
when the fields are put in one by one, and the documentation is read back from the object, also after a value was put
into it. -/
structure Member.Flattens (m : Member) (fields : List (String × Json)) : Prop where
  apart : ∃ before after, fields = before ++ (m.doc.fields ++ after) ∧
    ∀ key ∈ Documentation.fieldNames, key ∉ before.map Prod.fst ∧ key ∉ after.map Prod.fst
  nodup : (fields.map Prod.fst).Nodup
  kept : Json.putAll fields = fields
  read : Documentation.ofJson? (.object fields) = some m.doc
  put (value : Json) : (Json.object fields).put "value" value = .object (fields ++ [("value", value)]) ∧
    Documentation.ofJson? ((Json.object fields).put "value" value) = some m.doc

/-- **A member has its documentation among its fields, and loses nothing of either.** -/
theorem TreeWriter.memberBody_flattens {v : TreeWriter (Except Error)} {g : Graph} {includeHidden : Bool} {m : Member}
    {fields : List (String × Json)} (h : v.memberBody g includeHidden m = .ok fields) : m.Flattens fields := by
  obtain ⟨before, after, rfl, hbefore, hafter⟩ := memberBody_eq_append h
  have hnames : ((before ++ (m.doc.fields ++ after)).map Prod.fst ++ ["value"]).Nodup := by
    refine m.nodup_keys.sublist (List.Sublist.append ?_ (.refl _))
    simp only [List.map_append]
    exact hbefore.append (m.doc.names_fields.append hafter)
  obtain ⟨hnodup, -, hvalue⟩ := List.nodup_append.1 hnames
  have hapart : ∀ key ∈ Documentation.fieldNames, key ∉ Member.keysBefore ∧ key ∉ m.keysAfter ++ ["value"] := by
    intro key hkey
    have hkeys := m.nodup_keys
    rw [List.append_assoc, List.append_assoc] at hkeys
    obtain ⟨-, hrest, hdisjoint⟩ := List.nodup_append.1 hkeys
    exact ⟨fun hmem => hdisjoint key hmem key (List.mem_append_left _ hkey) rfl,
      fun hmem => (List.nodup_append.1 hrest).2.2 key hkey key hmem rfl⟩
  have hbefore' : ∀ key ∈ Documentation.fieldNames, key ∉ before.map Prod.fst := fun key hkey hmem =>
    (hapart key hkey).1 (hbefore.subset hmem)
  have hafter' : ∀ key ∈ Documentation.fieldNames, key ∉ after.map Prod.fst := fun key hkey hmem =>
    (hapart key hkey).2 (List.mem_append_left _ (hafter.subset hmem))
  have hput (value : Json) : (Json.object (before ++ (m.doc.fields ++ after))).put "value" value =
      .object (before ++ (m.doc.fields ++ after) ++ [("value", value)]) :=
    congrArg Json.object (Json.putField_of_not_mem (fun hmem => hvalue "value" hmem "value" (by simp) rfl) value)
  refine ⟨⟨before, after, rfl, fun key hkey => ⟨hbefore' key hkey, hafter' key hkey⟩⟩, hnodup,
    Json.putAll_of_nodup hnodup, Documentation.ofJson?_among hbefore' hafter', fun value => ⟨hput value, ?_⟩⟩
  rw [hput, List.append_assoc, List.append_assoc]
  refine Documentation.ofJson?_among hbefore' fun key hkey hmem => ?_
  rw [List.map_append] at hmem
  exact (hapart key hkey).2 ((hafter.append (.refl _)).subset hmem)

/-- **Records are read back from their texts**, on one line or spread over lines: a documentation with all its tags in
order, an import, and a place whose numbers fit a word.  A documentation keeps to itself among the fields of its member,
and is read back from the object of the member. -/
theorem records_read_back :
    (∀ (doc : Documentation) (spread : Bool) (depth : Nat),
      (Json.parse? (doc.toJson.write spread depth)).bind Documentation.ofJson? = some doc) ∧
    (∀ (i : Import) (spread : Bool) (depth : Nat),
      (Json.parse? (i.toJson.write spread depth)).bind Import.ofJson? = some i) ∧
    (∀ l : Location, l.FitsWords → ∀ (spread : Bool) (depth : Nat),
      (Json.parse? (l.toJson.write spread depth)).bind Location.ofJson? = some l) ∧
    (∀ (v : TreeWriter (Except Error)) (g : Graph) (includeHidden : Bool) (m : Member) (fields : List (String × Json)),
      v.memberBody g includeHidden m = .ok fields → m.Flattens fields) ∧
    ∀ (g : Graph) (includeHidden : Bool) (n : Nat) (s : OpenNodes) (r : MemberRef) (tree : Json), r ∉ s.members →
      ((views g includeHidden n).member r).result s = .ok tree →
      ∃ m fields, g.member r = .ok m ∧ m.Flattens fields ∧ tree = .object fields := by
  refine ⟨fun doc spread depth => ?_, fun i spread depth => ?_, fun l hl spread depth => ?_,
    fun v g includeHidden m fields h => TreeWriter.memberBody_flattens h, ?_⟩
  · rw [doc.isPlain_toJson.parse?, Option.bind_some, doc.ofJson?_toJson]
  · rw [i.isPlain_toJson.parse?, Option.bind_some, i.ofJson?_toJson]
  · rw [(Location.isPlain_toJson hl).parse?, Option.bind_some, Location.ofJson?_toJson hl]
  · intro g includeHidden n s r tree hr htree
    obtain ⟨n, m, fields, rfl, hm, hfields, rfl⟩ := Graph.views_member_eq_ok hr htree
    exact ⟨m, fields, hm, TreeWriter.memberBody_flattens hfields, rfl⟩

/-- A description that is there but empty is no absent one, and the tags keep their order. -/
example :
    let doc : Documentation := { description := some "", customTags := .ofList [("z", "a \"b\"\n"), ("a", "é")] }
    (Json.parse? doc.toJson.compact).bind Documentation.ofJson? = some doc := by decide +kernel

end ApiDoc
