import ApiDoc.Proofs.Gaps
import Mathlib.Data.List.Basic
import Mathlib.Data.List.Induction

/-!
# Dictionaries in closed form

A dictionary is told by its names, in order, and the text of each (`NamedTexts.ext_get?`).  So what a run of changes
makes of the empty dictionary can be said at once: the names come in the order of their first occurrence, and the text
of a name is what the changes of that name alone make of it (`NamedTexts.foldl_update`).  Taking over the names of
another dictionary puts those that are new behind the others (`NamedTexts.entries_inherit`), so it is associative.
-/

namespace ApiDoc

namespace NamedTexts

/-! ### Names and their texts -/

theorem ext {t u : NamedTexts} (h : t.entries = u.entries) : t = u := by
  cases t
  cases u
  simpa using h

/-- The text of a name is the one that stands beside it. -/
theorem entries_eq (t : NamedTexts) : t.entries = t.names.map fun name => (name, (t.get? name).getD "") := by
  obtain ⟨entries, hnodup⟩ := t
  unfold names get?
  dsimp only
  induction entries with
  | nil => rfl
  | cons entry rest ih =>
    have hnew : entry.1 ∉ rest.map Prod.fst := (List.nodup_cons.1 hnodup).1
    have hrest := ih (List.nodup_cons.1 hnodup).2
    rw [List.map_cons, List.map_cons, lookup_entry, if_pos rfl]
    refine congrArg (entry :: ·) (hrest.trans (List.map_congr_left fun name hname => ?_))
    have hother : name ≠ entry.1 := by
      rintro rfl
      exact hnew hname
    rw [lookup_entry, if_neg hother]

/-- Two dictionaries with the same names, in order, and the same texts are the same. -/
theorem ext_get? {t u : NamedTexts} (hnames : t.names = u.names) (h : ∀ name, t.get? name = u.get? name) : t = u := by
  apply ext
  rw [t.entries_eq, u.entries_eq, hnames]
  exact List.map_congr_left fun name _ => by rw [h]

/-! ### Names in the order of first occurrence -/

theorem nodup_eraseDups (names : List String) : names.eraseDups.Nodup := by
  induction names using List.reverseRecOn with
  | nil => simp
  | append_singleton names name ih =>
    rw [List.eraseDups_append]
    by_cases h : name ∈ names
    · simpa [List.removeAll, h] using ih
    · refine List.nodup_append.2 ⟨ih, by simp [List.removeAll, h, List.eraseDups_cons], ?_⟩
      rintro other hother _ hname rfl
      obtain rfl : other = name := by simpa [List.removeAll, h, List.eraseDups_cons] using hname
      exact h (List.mem_eraseDups.1 hother)

theorem eraseDups_append_singleton (names : List String) (name : String) :
    (names ++ [name]).eraseDups = if name ∈ names.eraseDups then names.eraseDups else names.eraseDups ++ [name] := by
  rw [List.eraseDups_append]
  by_cases h : name ∈ names <;> simp [List.removeAll, h, List.eraseDups_cons]

/-- The dictionary that gives each of some names, in the order of first occurrence, its text. -/
def tabulate (names : List String) (text : String → String) : NamedTexts where
  entries := names.eraseDups.map fun name => (name, text name)
  nodup := by simpa [Function.comp_def] using nodup_eraseDups names

@[simp]
theorem names_tabulate (names : List String) (text : String → String) :
    (tabulate names text).names = names.eraseDups := by
  simp [tabulate, NamedTexts.names, Function.comp_def]

@[simp]
theorem get?_tabulate (names : List String) (text : String → String) (name : String) :
    (tabulate names text).get? name = if name ∈ names then some (text name) else none := by
  have hlookup (keys : List String) : (keys.map fun key => (key, text key)).lookup name =
      if name ∈ keys then some (text name) else none := by
    induction keys with
    | nil => rfl
    | cons key keys ih =>
      rw [List.map_cons, lookup_entry, ih]
      by_cases h : name = key <;> simp [h]
  rw [get?, tabulate, hlookup, if_congr List.mem_eraseDups rfl rfl]

/-- The same names with the same texts make the same dictionary, up to the order of the names. -/
theorem perm_tabulate {names names' : List String} (h : ∀ name, name ∈ names ↔ name ∈ names')
    (text : String → String) : (tabulate names text).entries.Perm (tabulate names' text).entries := by
  have hperm : names.eraseDups.Perm names'.eraseDups :=
    (List.perm_ext_iff_of_nodup (nodup_eraseDups names) (nodup_eraseDups names')).2 fun name => by
      rw [List.mem_eraseDups, List.mem_eraseDups, h]
  exact hperm.map _

/-! ### Runs of changes -/

/-- What the changes of one name make of its text. -/
def textAfter {α : Type} (f : α → Option String → String) (xs : List α) : Option String :=
  xs.foldl (fun old x => some (f x old)) none

theorem textAfter_append_singleton {α : Type} (f : α → Option String → String) (xs : List α) (x : α) :
    textAfter f (xs ++ [x]) = some (f x (textAfter f xs)) := by
  simp [textAfter]

/-- Only the changes of a name matter to its text. -/
theorem get?_foldl_update {α : Type} (key : α → String) (f : α → Option String → String) (xs : List α) (name : String) :
    (xs.foldl (fun t x => t.update (key x) (f x)) empty).get? name =
      textAfter f (xs.filter fun x => key x = name) := by
  induction xs using List.reverseRecOn with
  | nil => rfl
  | append_singleton xs x ih =>
    rw [List.foldl_append, List.foldl_cons, List.foldl_nil, get?_update, List.filter_append]
    by_cases h : key x = name
    · subst h
      simp [textAfter_append_singleton, ih]
    · simp [h, Ne.symm h, ih]

/-- Names come in the order of their first change. -/
theorem names_foldl_update {α : Type} (key : α → String) (f : α → Option String → String) (xs : List α) :
    (xs.foldl (fun t x => t.update (key x) (f x)) empty).names = (xs.map key).eraseDups := by
  induction xs using List.reverseRecOn with
  | nil => rfl
  | append_singleton xs x ih =>
    rw [List.foldl_append, List.foldl_cons, List.foldl_nil, names_update, ih, List.map_append, List.map_singleton,
      eraseDups_append_singleton]

/-- **Changes in closed form**: the names in the order of their first change, each with what its own changes make of
it. -/
theorem foldl_update {α : Type} (key : α → String) (f : α → Option String → String) (xs : List α) :
    xs.foldl (fun t x => t.update (key x) (f x)) empty =
      tabulate (xs.map key) fun name => (textAfter f (xs.filter fun x => key x = name)).getD "" := by
  apply ext_get?
  · rw [names_foldl_update, names_tabulate]
  · intro name
    rw [get?_foldl_update, get?_tabulate]
    split
    · next hmem =>
      obtain ⟨x, hx, rfl⟩ := List.mem_map.1 hmem
      obtain ⟨before, last, hlast⟩ : ∃ before last, xs.filter (fun y => key y = key x) = before ++ [last] :=
        (List.eq_nil_or_concat' _).resolve_left fun hnil => by
          have hmem' : x ∈ xs.filter fun y => key y = key x := by simp [hx]
          simp [hnil] at hmem'
      rw [hlast, textAfter_append_singleton, Option.getD_some]
    · next hnot =>
      have hnil : xs.filter (fun x => key x = name) = [] :=
        List.filter_eq_nil_iff.2 fun x hx hname => hnot (List.mem_map.2 ⟨x, hx, of_decide_eq_true hname⟩)
      simp [hnil, textAfter]

/-- Of the texts that are set for a name the last one stays. -/
theorem ofList_eq (pairs : List (String × String)) :
    ofList pairs = tabulate (pairs.map Prod.fst) fun name =>
      ((pairs.filter fun pair => pair.1 = name).getLast?.map Prod.snd).getD "" := by
  have hlast (xs : List (String × String)) : textAfter (fun (pair : String × String) _ => pair.2) xs =
      xs.getLast?.map Prod.snd := by
    rcases xs.eq_nil_or_concat' with rfl | ⟨before, last, rfl⟩
    · rfl
    · simp [textAfter_append_singleton]
  refine (foldl_update Prod.fst (fun (pair : String × String) _ => pair.2) pairs).trans ?_
  simp only [hlast]

/-! ### Taking over -/

/-- A new name is put last. -/
theorem updateEntries_of_not_mem {name : String} {entries : List (String × String)}
    (h : name ∉ entries.map Prod.fst) (f : Option String → String) :
    updateEntries name f entries = entries ++ [(name, f none)] := by
  induction entries with
  | nil => rfl
  | cons entry rest ih =>
    rw [List.map_cons, List.mem_cons, not_or] at h
    rw [updateEntries, if_neg (Ne.symm h.1), ih h.2, List.cons_append]

/-- The names that are new are put behind those there are. -/
theorem entries_inherit (own base : NamedTexts) :
    (own.inherit base).entries = own.entries ++ base.entries.filter fun entry => entry.1 ∉ own.names := by
  obtain ⟨entries, hnodup⟩ := base
  unfold inherit
  dsimp only
  induction entries generalizing own with
  | nil => simp
  | cons entry rest ih =>
    obtain ⟨hfirst, hrest⟩ := List.nodup_cons.1 hnodup
    rw [List.foldl_cons]
    by_cases hold : entry.1 ∈ own.names
    · rw [insertNew_of_mem hold, ih own hrest]
      simp [hold]
    · have hentries : (own.insertNew entry.1 entry.2).entries = own.entries ++ [entry] :=
        updateEntries_of_not_mem hold _
      have hnames : (own.insertNew entry.1 entry.2).names = own.names ++ [entry.1] := by
        simp [names, hentries]
      -- none of the other names is the one that was put in just now
      have hsame : rest.filter (fun e => e.1 ∉ own.names ++ [entry.1]) = rest.filter fun e => e.1 ∉ own.names := by
        refine List.filter_congr fun e he => ?_
        have hother : e.1 ≠ entry.1 := fun heq => hfirst (heq ▸ List.mem_map_of_mem he)
        simp [hother]
      rw [ih _ hrest, hentries, hnames, hsame]
      simp [hold]

theorem mem_names_inherit {own base : NamedTexts} {name : String} :
    name ∈ (own.inherit base).names ↔ name ∈ own.names ∨ name ∈ base.names := by
  unfold inherit
  exact mem_names_foldl

@[simp]
theorem inherit_empty (own : NamedTexts) : own.inherit empty = own := rfl

@[simp]
theorem empty_inherit (base : NamedTexts) : empty.inherit base = base := by
  apply ext
  rw [entries_inherit]
  simp [empty, names]

/-- It does not matter whether the middle one of three dictionaries is taken over first or takes over first. -/
theorem inherit_assoc (own mid base : NamedTexts) :
    (own.inherit mid).inherit base = own.inherit (mid.inherit base) := by
  apply ext
  simp only [entries_inherit, mem_names_inherit, List.filter_append, List.filter_filter, List.append_assoc]
  congr 2
  refine List.filter_congr fun entry _ => ?_
  simp only [not_or, Bool.decide_and]

end NamedTexts

end ApiDoc
