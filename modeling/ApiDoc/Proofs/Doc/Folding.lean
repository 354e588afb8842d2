import ApiDoc.Doc.TagFacts
import ApiDoc.Proofs.Doc.Dictionaries

/-!
# What the tags of a block say together

The tags of a block are taken one after the other, but what comes of them can be said at once, for each fact on its own
(`TagFacts.gathered`): some facts are the last text of their group, some are all its texts, one to a line, and tags
that belong to no group are kept by name.  `TagFacts.tags_fold_by_group` says that the two agree; so tags may change
places as long as those about the same thing stay in order, and only the names of custom tags may then come in another
order.
-/

namespace ApiDoc

open Comment

/-! ### Groups of names -/

namespace TagGroup

/-- The groups that names belong to. -/
def named : List TagGroup :=
  [examples, sees, description, summary, displayName, package, owner, derived, access, hidden, isVirtual, isAbstract,
    isOverride, category, since, deprecated, author, version, defaultValue, param, typeParam, returns]

/-- The names of a group; a custom tag is one whose name is in none. -/
def names : TagGroup → List String
  | examples => ["example", "sample", "demo"]
  | sees => ["see", "seeAlso", "seealso"]
  | description => ["desc", "description", "remark"]
  | summary => ["summary"]
  | displayName => ["name", "member", "method", "property", "field", "getter", "setter"]
  | package => ["internal", "package"]
  | owner => ["private"]
  | derived => ["protected"]
  | access => ["access"]
  | hidden => ["hidden"]
  | isVirtual => ["virtual"]
  | isAbstract => ["abstract"]
  | isOverride => ["override"]
  | category => ["category"]
  | since => ["since"]
  | deprecated => ["deprecated"]
  | author => ["author"]
  | version => ["version"]
  | defaultValue => ["default"]
  | param => ["param", "arg", "argument"]
  | typeParam => ["template", "typeparam", "typeParam"]
  | returns => ["returns", "return"]
  | custom => []

theorem getD_find?_cons (p : TagGroup → Bool) (group : TagGroup) (groups : List TagGroup) :
    ((group :: groups).find? p).getD custom = if p group then group else (groups.find? p).getD custom := by
  cases h : p group <;> simp [h]

theorem ofName_eq (name : String) :
    ofName name = (named.find? fun group => group.names.contains name).getD custom := by
  simp only [ofName, named, getD_find?_cons, names, List.find?_nil, Option.getD_none, List.contains_cons,
    List.contains_nil, Bool.or_false, beq_iff_eq]

/-- A name belongs to the group that has it, and to no other. -/
theorem mem_names_iff {name : String} {group : TagGroup} (h : group ≠ custom) :
    name ∈ group.names ↔ ofName name = group := by
  constructor
  · have hall : ∀ name ∈ group.names, ofName name = group := by cases group <;> decide +kernel
    exact hall name
  · intro hfound
    rw [ofName_eq] at hfound
    cases hfind : named.find? (fun group => group.names.contains name) with
    | none =>
      rw [hfind] at hfound
      exact absurd hfound.symm h
    | some group' =>
      rw [hfind] at hfound
      obtain rfl : group' = group := hfound
      simpa using List.find?_some hfind

theorem forall_not_mem_names_iff {name : String} : (∀ group ∈ named, name ∉ group.names) ↔ ofName name = custom := by
  constructor
  · intro h
    have hnone : named.find? (fun group => group.names.contains name) = none := by simpa using h
    rw [ofName_eq, hnone, Option.getD_none]
  · rintro hcustom group - hname
    have hne : group ≠ custom := by
      rintro rfl
      simp [names] at hname
    exact hne (((mem_names_iff hne).1 hname).symm.trans hcustom)

end TagGroup

/-! ### The texts of a group -/

namespace Comment

/-- The texts of the tags of a group, in order. -/
def textsOf (group : TagGroup) (tags : List Tag) : List String :=
  (tags.filter fun tag => group.names.contains tag.name).map Tag.text

/-- Whether one of the tags is of a group. -/
def mentions (group : TagGroup) (tags : List Tag) : Bool := tags.any fun tag => group.names.contains tag.name

/-- The tags that belong to no group, in order. -/
def customTags (tags : List Tag) : List Tag :=
  tags.filter fun tag => TagGroup.named.all fun group => !group.names.contains tag.name

/-- The visibility that a tag asks for, if it is about that. -/
def Tag.visibility? (tag : Tag) : Option Visibility :=
  if TagGroup.package.names.contains tag.name then some .package
  else if TagGroup.owner.names.contains tag.name then some .owner
  else if TagGroup.derived.names.contains tag.name then some .derived
  else if TagGroup.access.names.contains tag.name then some (.ofAccess tag.text)
  else none

/-- What tags say about parameters: pairs of a name and a summary. -/
def summaries (group : TagGroup) (tags : List Tag) : List (String × String) :=
  (textsOf group tags).filterMap ParamTag.split?

end Comment

/-- The texts that say something, one to a line. -/
def oneToALine (texts : List String) : String := "\n".intercalate (texts.filter (· ≠ ""))

/-- The texts that say something, one to a line; none if there are no texts. -/
def oneToALine? (texts : List String) : Option String := if texts.isEmpty then none else some (oneToALine texts)

namespace TagFacts

/-- Everything that a block says, fact by fact. -/
def gathered (seed : Visibility) (block : Block) : TagFacts where
  doc := {
    summary := (textsOf .summary block.tags).getLast?.getD block.summary
    description := oneToALine? (textsOf .description block.tags)
    examples := textsOf .examples block.tags
    sees := textsOf .sees block.tags
    customTags := .tabulate ((customTags block.tags).map Tag.name) fun name =>
      oneToALine (((customTags block.tags).filter fun tag => tag.name = name).map Tag.text)
    deprecated := oneToALine? (textsOf .deprecated block.tags)
    since := oneToALine? (textsOf .since block.tags)
    category := oneToALine? (textsOf .category block.tags)
    defaultValue := (textsOf .defaultValue block.tags).getLast?
    author := oneToALine? (textsOf .author block.tags)
    version := oneToALine? (textsOf .version block.tags)
    hidden := mentions .hidden block.tags
    isVirtual := mentions .isVirtual block.tags }
  visibility := (block.tags.filterMap Tag.visibility?).getLast?.getD seed
  name := (textsOf .displayName block.tags).getLast?
  params := .tabulate ((summaries .param block.tags).map Prod.fst) fun name =>
    (((summaries .param block.tags).filter fun pair => pair.1 = name).getLast?.map Prod.snd).getD ""
  typeParams := .tabulate ((summaries .typeParam block.tags).map Prod.fst) fun name =>
    (((summaries .typeParam block.tags).filter fun pair => pair.1 = name).getLast?.map Prod.snd).getD ""
  returns := oneToALine? (textsOf .returns block.tags)
  isAbstract := mentions .isAbstract block.tags
  isOverride := mentions .isOverride block.tags

end TagFacts

/-! ### Texts one to a line -/

theorem oneToALine_eq_empty_iff {texts : List String} : oneToALine texts = "" ↔ texts.filter (· ≠ "") = [] := by
  constructor
  · intro h
    cases hsaid : texts.filter (· ≠ "") with
    | nil => rfl
    | cons text rest =>
      have hne : text ≠ "" := by
        have hmem : text ∈ texts.filter (· ≠ "") := by
          rw [hsaid]
          exact List.mem_cons_self
        simpa using (List.mem_filter.1 hmem).2
      rw [oneToALine, hsaid] at h
      cases rest with
      | nil => simp [hne] at h
      | cons next rest => simp [hne] at h
  · intro h
    rw [oneToALine, h, String.intercalate_nil]

/-- One more text is put on a line of its own if it says something. -/
theorem oneToALine?_append_singleton (texts : List String) (text : String) :
    oneToALine? (texts ++ [text]) = appendText (oneToALine? texts) text := by
  have hsome : oneToALine? (texts ++ [text]) = some (oneToALine (texts ++ [text])) := by simp [oneToALine?]
  rw [hsome, appendText]
  refine congrArg some ?_
  rcases texts.eq_nil_or_concat' with rfl | ⟨before, last, rfl⟩
  · by_cases htext : text = "" <;> simp [oneToALine?, oneToALine, NamedTexts.joinText, htext]
  · generalize hall : before ++ [last] = all
    have hne : all ≠ [] := by simp [← hall]
    rw [oneToALine?, if_neg (by simpa using hne), NamedTexts.joinText]
    by_cases hsaid : oneToALine all = ""
    · have hnone := oneToALine_eq_empty_iff.1 hsaid
      rw [if_pos (by simp [hsaid]), oneToALine, List.filter_append, hnone]
      by_cases htext : text = "" <;> simp [htext]
    · rw [if_neg (by simp [String.isEmpty_iff, hsaid])]
      by_cases htext : text = ""
      · simp [htext, oneToALine]
      · have hfilter : [text].filter (· ≠ "") = [text] := by simp [htext]
        rw [if_neg (by simp [String.isEmpty_iff, htext]), oneToALine, List.filter_append, hfilter,
          String.intercalate_append_of_ne_nil (fun h => hsaid (oneToALine_eq_empty_iff.2 h)) (by simp),
          String.intercalate_singleton]
        rfl

/-- What is put behind the texts of names, one pair after the other. -/
theorem foldl_append_eq_tabulate (tags : List Tag) :
    tags.foldl (fun (t : NamedTexts) tag => t.append tag.name tag.text) .empty =
      .tabulate (tags.map Tag.name) fun name => oneToALine ((tags.filter fun tag => tag.name = name).map Tag.text) := by
  have hafter (tags : List Tag) : NamedTexts.textAfter (fun (tag : Tag) old => NamedTexts.joinText old tag.text) tags =
      oneToALine? (tags.map Tag.text) := by
    induction tags using List.reverseRecOn with
    | nil => rfl
    | append_singleton tags tag ih =>
      rw [NamedTexts.textAfter_append_singleton, ih, List.map_append, List.map_singleton, oneToALine?_append_singleton]
      rfl
  have hgetD (texts : List String) : (oneToALine? texts).getD "" = oneToALine texts := by
    cases texts with
    | nil => rfl
    | cons text texts => rfl
  refine (NamedTexts.foldl_update Tag.name (fun (tag : Tag) old => NamedTexts.joinText old tag.text) tags).trans ?_
  simp only [hafter, hgetD]

/-! ### One more tag -/

namespace Comment

variable {group : TagGroup} (tags : List Tag) (tag : Tag)

theorem contains_names (h : group ≠ .custom) (name : String) :
    group.names.contains name = decide (TagGroup.ofName name = group) := by
  rw [Bool.eq_iff_iff, List.contains_iff_mem, decide_eq_true_iff]
  exact TagGroup.mem_names_iff h

theorem textsOf_append_singleton (h : group ≠ .custom) : textsOf group (tags ++ [tag]) =
    textsOf group tags ++ if TagGroup.ofName tag.name = group then [tag.text] else [] := by
  by_cases hname : TagGroup.ofName tag.name = group <;> simp [textsOf, contains_names h, hname, -List.contains_eq_mem]

theorem mentions_append_singleton (h : group ≠ .custom) :
    mentions group (tags ++ [tag]) = (mentions group tags || decide (TagGroup.ofName tag.name = group)) := by
  simp only [mentions, List.any_append, List.any_cons, List.any_nil, Bool.or_false, contains_names h]

theorem customTags_append_singleton : customTags (tags ++ [tag]) =
    customTags tags ++ if TagGroup.ofName tag.name = .custom then [tag] else [] := by
  rw [customTags, customTags, List.filter_append]
  congr 1
  by_cases hname : TagGroup.ofName tag.name = .custom
  · have hnone := TagGroup.forall_not_mem_names_iff.2 hname
    simpa [hname] using hnone
  · have hnone : ¬∀ group ∈ TagGroup.named, tag.name ∉ group.names := fun h =>
      hname (TagGroup.forall_not_mem_names_iff.1 h)
    simpa [hname] using hnone

theorem summaries_append_singleton (h : group ≠ .custom) : summaries group (tags ++ [tag]) =
    summaries group tags ++ if TagGroup.ofName tag.name = group then (ParamTag.split? tag.text).toList else [] := by
  rw [summaries, textsOf_append_singleton tags tag h, List.filterMap_append, summaries]
  congr 1
  split
  · cases hsplit : ParamTag.split? tag.text <;> simp [hsplit]
  · rfl

theorem Tag.visibility?_eq : tag.visibility? = match TagGroup.ofName tag.name with
    | .package => some .package
    | .owner => some .owner
    | .derived => some .derived
    | .access => some (.ofAccess tag.text)
    | _ => none := by
  have hgroup (group : TagGroup) (h : group ≠ .custom) := contains_names h tag.name
  unfold Tag.visibility?
  rw [hgroup .package (by decide), hgroup .owner (by decide), hgroup .derived (by decide), hgroup .access (by decide)]
  cases TagGroup.ofName tag.name <;> rfl

end Comment

namespace TagFacts

/-- A tag that does not name a parameter is as good as none. -/
theorem addParam_ofList (pairs : List (String × String)) (text : String) :
    addParam (.ofList pairs) text = .ofList (pairs ++ (ParamTag.split? text).toList) := by
  unfold addParam
  cases ParamTag.split? text with
  | none => rw [Option.toList_none, List.append_nil]
  | some pair => simp only [NamedTexts.ofList, Option.toList_some, List.foldl_append, List.foldl_cons, List.foldl_nil]

/-- One more tag changes what was gathered as it changes what was added up. -/
theorem gathered_append_singleton (seed : Visibility) (summary : String) (tags : List Tag) (tag : Tag) :
    gathered seed ⟨summary, tags ++ [tag]⟩ = (gathered seed ⟨summary, tags⟩).add tag := by
  unfold gathered add
  simp only [← foldl_append_eq_tabulate, ← NamedTexts.ofList_eq]
  cases hgroup : TagGroup.ofName tag.name <;>
    simp [hgroup, textsOf_append_singleton, mentions_append_singleton, customTags_append_singleton,
      summaries_append_singleton, oneToALine?_append_singleton, Tag.visibility?_eq, addParam_ofList]

theorem ofBlock_eq_gathered (block : Option Block) (seed : Visibility) :
    ofBlock block seed = gathered seed (block.getD {}) := by
  cases block with
  | none => rfl
  | some block =>
    obtain ⟨summary, tags⟩ := block
    rw [Option.getD_some]
    -- the fold comes to the last tag last, so the tags are taken apart at their end
    induction tags using List.reverseRecOn with
    | nil => rfl
    | append_singleton tags tag ih =>
      rw [gathered_append_singleton, ← ih]
      simp only [ofBlock, List.foldl_append, List.foldl_cons, List.foldl_nil]

end TagFacts

/-! ### Tags in another order -/

namespace Comment

/-- What a tag is about: the tags that decide the visibility are about one thing, and custom tags are about the same
thing if they have the same name. -/
def Tag.topic (tag : Tag) : TagGroup × String :=
  match TagGroup.ofName tag.name with
  | .package | .owner | .derived | .access => (.access, "")
  | .custom => (.custom, tag.name)
  | group => (group, "")

/-- The same tags in an order that may differ between tags that are not about the same thing. -/
def SameTopics (tags tags' : List Tag) : Prop :=
  ∀ topic, tags.filter (fun tag => tag.topic = topic) = tags'.filter fun tag => tag.topic = topic

namespace SameTopics

variable {tags tags' : List Tag}

/-- Two tags next to each other may change places unless they are about the same thing. -/
theorem swap (before after : List Tag) {tag tag' : Tag} (h : tag.topic ≠ tag'.topic) :
    SameTopics (before ++ tag :: tag' :: after) (before ++ tag' :: tag :: after) := by
  intro topic
  simp only [List.filter_append, List.filter_cons]
  by_cases htopic : tag.topic = topic
  · have hother : ¬tag'.topic = topic := fun h' => h (htopic.trans h'.symm)
    simp [hother]
  · simp [htopic]

/-- What only looks at the tags about one thing finds the same. -/
theorem filter_eq (h : SameTopics tags tags') (topic : TagGroup × String) {p : Tag → Bool}
    (hp : ∀ tag, p tag → tag.topic = topic) : tags.filter p = tags'.filter p := by
  have hnarrow (tags : List Tag) : tags.filter p = (tags.filter fun tag => tag.topic = topic).filter p := by
    rw [List.filter_filter]
    refine List.filter_congr fun tag _ => ?_
    by_cases htag : p tag <;> simp [htag, hp]
  rw [hnarrow tags, h topic, ← hnarrow tags']

theorem mem_iff (h : SameTopics tags tags') (tag : Tag) : tag ∈ tags ↔ tag ∈ tags' := by
  have hmem (tags : List Tag) : tag ∈ tags ↔ tag ∈ tags.filter fun t => t.topic = tag.topic := by simp
  rw [hmem tags, h tag.topic, ← hmem tags']

theorem textsOf_eq (h : SameTopics tags tags') {group : TagGroup}
    (hgroup : group ∉ [.package, .owner, .derived, .access, .custom]) : textsOf group tags = textsOf group tags' := by
  refine congrArg (List.map Tag.text) (h.filter_eq (group, "") fun tag htag => ?_)
  rw [contains_names (by rintro rfl; simp at hgroup), decide_eq_true_iff] at htag
  subst htag
  unfold Tag.topic
  split <;> simp_all

theorem mentions_eq (h : SameTopics tags tags') (group : TagGroup) : mentions group tags = mentions group tags' := by
  rw [mentions, mentions, Bool.eq_iff_iff, List.any_eq_true, List.any_eq_true]
  simp only [h.mem_iff]

theorem filterMap_visibility? (h : SameTopics tags tags') :
    tags.filterMap Tag.visibility? = tags'.filterMap Tag.visibility? := by
  have hnarrow (tags : List Tag) : tags.filterMap Tag.visibility? =
      (tags.filter fun tag => tag.visibility?.isSome).filterMap Tag.visibility? := by
    rw [List.filterMap_filter]
    refine List.filterMap_congr fun tag _ => ?_
    cases tag.visibility? <;> rfl
  rw [hnarrow tags, hnarrow tags', h.filter_eq (.access, "") fun tag htag => ?_]
  rw [Tag.visibility?_eq] at htag
  unfold Tag.topic
  split <;> simp_all

theorem filter_customTags (h : SameTopics tags tags') (name : String) :
    (customTags tags).filter (fun tag => tag.name = name) = (customTags tags').filter fun tag => tag.name = name := by
  rw [customTags, customTags, List.filter_filter, List.filter_filter]
  refine h.filter_eq (.custom, name) fun tag htag => ?_
  obtain ⟨rfl, hnone⟩ : tag.name = name ∧ ∀ group ∈ TagGroup.named, tag.name ∉ group.names := by simpa using htag
  have hcustom : TagGroup.ofName tag.name = .custom := TagGroup.forall_not_mem_names_iff.1 hnone
  rw [Tag.topic, hcustom]

theorem mem_customTags_iff (h : SameTopics tags tags') (tag : Tag) :
    tag ∈ customTags tags ↔ tag ∈ customTags tags' := by
  rw [customTags, customTags, List.mem_filter, List.mem_filter, h.mem_iff]

end SameTopics

end Comment

namespace TagFacts

/-- Tags about different things may change places: only the names of custom tags may then come in another order. -/
theorem gathered_reorder (seed : Visibility) (summary : String) {tags tags' : List Tag} (h : SameTopics tags tags') :
    ∃ dictionary : NamedTexts,
      gathered seed ⟨summary, tags'⟩ =
        { gathered seed ⟨summary, tags⟩ with doc.customTags := dictionary } ∧
      dictionary.entries.Perm (gathered seed ⟨summary, tags⟩).doc.customTags.entries ∧
      (customTags tags = customTags tags' → dictionary = (gathered seed ⟨summary, tags⟩).doc.customTags) := by
  refine ⟨(gathered seed ⟨summary, tags'⟩).doc.customTags, ?_, ?_, ?_⟩
  · simp [gathered, summaries, h.textsOf_eq, h.mentions_eq, h.filterMap_visibility?]
  · simp only [gathered, h.filter_customTags]
    refine NamedTexts.perm_tabulate (fun name => ?_) _
    simp only [List.mem_map, h.mem_customTags_iff]
  · intro hcustom
    simp only [gathered, hcustom]

/-- **Tags fold by group**: what a block says is fact by fact what the tags of one group say, so the order of tags
matters only among those about the same thing, and for the order of the names of custom tags. -/
theorem tags_fold_by_group (seed : Visibility) :
    (∀ block : Option Block, ofBlock block seed = gathered seed (block.getD {})) ∧
    ∀ (summary : String) (tags tags' : List Tag), SameTopics tags tags' →
      ∃ dictionary : NamedTexts,
        ofBlock (some ⟨summary, tags'⟩) seed =
          { ofBlock (some ⟨summary, tags⟩) seed with doc.customTags := dictionary } ∧
        dictionary.entries.Perm (ofBlock (some ⟨summary, tags⟩) seed).doc.customTags.entries ∧
        (customTags tags = customTags tags' →
          dictionary = (ofBlock (some ⟨summary, tags⟩) seed).doc.customTags) := by
  refine ⟨fun block => ofBlock_eq_gathered block seed, fun summary tags tags' h => ?_⟩
  rw [ofBlock_eq_gathered, ofBlock_eq_gathered]
  exact gathered_reorder seed summary h

/-- Where custom tags change places, so do their names and nothing else. -/
theorem tags_fold_by_group_custom_swapped :
    SameTopics [⟨"alpha", "x"⟩, ⟨"beta", "y"⟩] [⟨"beta", "y"⟩, ⟨"alpha", "x"⟩] ∧
    ∃ dictionary : NamedTexts,
      ofBlock (some ⟨"Sums.", [⟨"beta", "y"⟩, ⟨"alpha", "x"⟩]⟩) .owner =
        { ofBlock (some ⟨"Sums.", [⟨"alpha", "x"⟩, ⟨"beta", "y"⟩]⟩) .owner with doc.customTags := dictionary } ∧
      dictionary.entries.Perm [("alpha", "x"), ("beta", "y")] := by
  have hswap : SameTopics [⟨"alpha", "x"⟩, ⟨"beta", "y"⟩] [⟨"beta", "y"⟩, ⟨"alpha", "x"⟩] :=
    SameTopics.swap [] [] (by decide +kernel)
  obtain ⟨dictionary, heq, hperm, -⟩ := (tags_fold_by_group .owner).2 "Sums." _ _ hswap
  have hentries : (ofBlock (some ⟨"Sums.", [⟨"alpha", "x"⟩, ⟨"beta", "y"⟩]⟩) .owner).doc.customTags.entries =
      [("alpha", "x"), ("beta", "y")] := by decide +kernel
  exact ⟨hswap, dictionary, heq, hentries ▸ hperm⟩

end TagFacts

end ApiDoc
