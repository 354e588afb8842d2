import ApiDoc.Program.Tables
import ApiDoc.Proofs.Gaps
import ApiDoc.Proofs.Run.Exec
import Mathlib.Data.List.Forall2

/-!
# What overloads share

The declarations of a function fill each other's gaps in two passes: first the main one takes what it lacks from the
others, the first that has something to say winning, and then each of the others takes what it still lacks from the
main one.  Here the outcome is said in one go, for each text on its own: `Method.retold` is a method with other texts
at its positions, `Method.fillFrom_eq` and `Method.foldl_fillFrom_eq` say which texts each pass leaves behind, and
`Environment.shared_summaries` says what becomes of an overload set and of the session around it.
-/

namespace ApiDoc

/-! ### The first text that says something -/

namespace Text

/-- The first text that says something, or nothing. -/
def first (texts : List String) : String := (texts.find? (· ≠ "")).getD ""

@[simp]
theorem first_nil : first [] = "" := rfl

@[simp]
theorem first_cons (text : String) (texts : List String) : first (text :: texts) = fill text (first texts) := by
  by_cases hempty : text = "" <;> simp [first, fill, String.isEmpty_iff, hempty]

theorem fill_ne_empty_iff {own base : String} : fill own base ≠ "" ↔ own ≠ "" ∨ base ≠ "" := by
  by_cases hempty : own = "" <;> simp [fill, String.isEmpty_iff, hempty]

theorem first_ne_empty_iff {texts : List String} : first texts ≠ "" ↔ ∃ text ∈ texts, text ≠ "" := by
  induction texts with
  | nil => simp
  | cons text texts ih =>
    rw [first_cons, fill_ne_empty_iff, ih]
    simp

end Text

open Text

/-! ### Methods with other texts -/

namespace Method

/-- What a method says of the parameter at a position, if it has one there. -/
def summaryAt (f : Method) (i : Nat) : Option String := f.signature.parameters[i]?.map Parameter.summary

/-- The method with other texts: of each parameter, by its position and what was said of it before, and of the
result. -/
def retold (f : Method) (texts : Nat → String → String) (result : String) : Method :=
  { f with
    signature.parameters := f.signature.parameters.mapIdx fun i p => { p with summary := texts i p.summary }
    returnSummary := result }

@[simp]
theorem returnSummary_retold (f : Method) (texts : Nat → String → String) (result : String) :
    (f.retold texts result).returnSummary = result := rfl

@[simp]
theorem summaryAt_retold (f : Method) (texts : Nat → String → String) (result : String) (i : Nat) :
    (f.retold texts result).summaryAt i = (f.summaryAt i).map (texts i) := by
  simp [summaryAt, retold, Function.comp_def]

/-- Of texts that are told twice the latter stay. -/
theorem retold_retold (f : Method) (texts texts' : Nat → String → String) (result result' : String) :
    (f.retold texts result).retold texts' result' = f.retold (fun i text => texts' i (texts i text)) result' := by
  simp [retold, List.mapIdx_mapIdx, Function.comp_def]

theorem mapIdx_told_self (ps : List Parameter) : ps.mapIdx (fun _ p => { p with summary := p.summary }) = ps := by
  refine List.ext_getElem? fun i => ?_
  rw [List.getElem?_mapIdx]
  exact Option.map_id'

/-- What is told as it was is the same. -/
theorem retold_self (f : Method) : f.retold (fun _ text => text) f.returnSummary = f := by
  rw [retold, mapIdx_told_self]

theorem backfillParameters_eq (ps bs : List Parameter) :
    backfillParameters ps bs =
      ps.mapIdx fun i p => { p with summary := fill p.summary ((bs[i]?.map Parameter.summary).getD "") } := by
  induction ps, bs using backfillParameters.induct with
  | case1 own ps base bs ih => simp [backfillParameters, ih, List.mapIdx_cons]
  | case2 ps =>
    have hnone : backfillParameters ps [] = ps := by cases ps <;> rfl
    simpa [hnone] using (mapIdx_told_self ps).symm
  | case3 bs _ => simp [backfillParameters]

/-- A text stays or, if it says nothing, becomes that of the other method at the same place. -/
theorem fillFrom_eq (own base : Method) : own.fillFrom base =
    own.retold (fun i text => fill text ((base.summaryAt i).getD "")) (fill own.returnSummary base.returnSummary) := by
  simp [fillFrom, retold, summaryAt, backfillParameters_eq]

/-- Of several methods the first that says something at a place wins. -/
theorem foldl_fillFrom_eq (own : Method) (others : List Method) : others.foldl fillFrom own =
    own.retold (fun i text => first (text :: others.filterMap (·.summaryAt i)))
      (first (own.returnSummary :: others.map Method.returnSummary)) := by
  induction others generalizing own with
  | nil => simpa using (retold_self own).symm
  | cons other rest ih =>
    rw [List.foldl_cons, ih, fillFrom_eq, retold_retold]
    congr 1
    · funext i text
      cases hat : other.summaryAt i <;> simp [hat, fill_assoc]
    · simp [fill_assoc]

theorem fillFrom_fillFrom (own base : Method) : (own.fillFrom base).fillFrom base = own.fillFrom base := by
  simp [fillFrom_eq, retold_retold]

/-- The first text at a place says something iff one of the methods says something there. -/
theorem first_summaryAt_ne_empty_iff {p : Method} {fs : List Method} {i : Nat} {own : String}
    (hown : p.summaryAt i = some own) :
    first (own :: fs.filterMap (·.summaryAt i)) ≠ "" ↔ ∃ f ∈ p :: fs, ∃ text, f.summaryAt i = some text ∧ text ≠ "" := by
  rw [first_ne_empty_iff]
  constructor
  · rintro ⟨text, htext, hne⟩
    rcases List.mem_cons.1 htext with rfl | htext
    · exact ⟨p, by simp, text, hown, hne⟩
    · obtain ⟨f, hf, hat⟩ := List.mem_filterMap.1 htext
      exact ⟨f, by simp [hf], text, hat, hne⟩
  · rintro ⟨f, hf, text, hat, hne⟩
    rcases List.mem_cons.1 hf with rfl | hf
    · obtain rfl : own = text := Option.some.inj (hown.symm.trans hat)
      exact ⟨own, by simp, hne⟩
    · exact ⟨text, List.mem_cons_of_mem _ (List.mem_filterMap.2 ⟨f, hf, hat⟩), hne⟩

/-- What the other method has no parameter for stays as it is. -/
theorem fillFrom_eq_ite (own base : Method) : own.fillFrom base = own.retold
    (fun i text => if i < base.signature.parameters.length then fill text ((base.summaryAt i).getD "") else text)
    (fill own.returnSummary base.returnSummary) := by
  rw [fillFrom_eq]
  congr 1
  funext i text
  split
  · rfl
  · next hbeyond =>
    have hnone : base.signature.parameters[i]? = none := List.getElem?_eq_none (Nat.le_of_not_lt hbeyond)
    simp [summaryAt, hnone]

/-- A method that has taken over what it lacks, and those that have taken over from it what they lack. -/
structure Shares (p : Method) (fs : List Method) (p' : Method) (fs' : List Method) : Prop where
  main : p' = p.retold (fun i text => first (text :: fs.filterMap (·.summaryAt i)))
    (first (p.returnSummary :: fs.map returnSummary))
  others : fs' = fs.map (·.fillFrom p')

namespace Shares

variable {p p' : Method} {fs fs' : List Method}

/-- Where the main method has a parameter, all methods that have one say something there iff one of them did before. -/
theorem summaryAt_ne_empty_iff (h : p.Shares fs p' fs') {i : Nat} (hi : i < p.signature.parameters.length) :
    (∀ f ∈ p' :: fs', ∀ text, f.summaryAt i = some text → text ≠ "") ↔
      ∃ f ∈ p :: fs, ∃ text, f.summaryAt i = some text ∧ text ≠ "" := by
  obtain ⟨hmain, rfl⟩ := h
  obtain ⟨own, hown⟩ : ∃ own, p.summaryAt i = some own := by simp [summaryAt, hi]
  have hfirst : p'.summaryAt i = some (first (own :: fs.filterMap (·.summaryAt i))) := by
    rw [hmain, summaryAt_retold, hown]
    rfl
  rw [← first_summaryAt_ne_empty_iff hown]
  constructor
  · exact fun hall => hall p' (by simp) _ hfirst
  · rintro hne f hf text hat
    rcases List.mem_cons.1 hf with rfl | hf
    · obtain rfl := Option.some.inj (hfirst.symm.trans hat)
      exact hne
    · obtain ⟨f, -, rfl⟩ := List.mem_map.1 hf
      rw [fillFrom_eq, summaryAt_retold] at hat
      obtain ⟨before, -, rfl⟩ := Option.map_eq_some_iff.1 hat
      rw [hfirst]
      exact fill_ne_empty_iff.2 (.inr hne)

/-- All methods say something of their results iff one of them did before. -/
theorem returnSummary_ne_empty_iff (h : p.Shares fs p' fs') :
    (∀ f ∈ p' :: fs', f.returnSummary ≠ "") ↔ ∃ f ∈ p :: fs, f.returnSummary ≠ "" := by
  obtain ⟨hmain, rfl⟩ := h
  have hfirst : p'.returnSummary ≠ "" ↔ ∃ f ∈ p :: fs, f.returnSummary ≠ "" := by
    rw [hmain, returnSummary_retold, ← List.map_cons, first_ne_empty_iff]
    simp
  rw [← hfirst]
  constructor
  · exact fun hall => hall p' (by simp)
  · rintro hne f hf
    rcases List.mem_cons.1 hf with rfl | hf
    · exact hne
    · obtain ⟨f, -, rfl⟩ := List.mem_map.1 hf
      exact fill_ne_empty_iff.2 (.inr hne)

end Shares

end Method

/-! ### Members -/

namespace Member

theorem fillFrom_method {own base : Member} {f g : Method} (hf : own.body = .method f) (hg : base.body = .method g) :
    own.fillFrom base = { own with body := .method (f.fillFrom g) } := by
  simp [fillFrom, hf, hg]

theorem fillFrom_fillFrom (own base : Member) : (own.fillFrom base).fillFrom base = own.fillFrom base := by
  cases hf : own.body with
  | method f =>
    cases hg : base.body with
    | method g =>
      rw [fillFrom_method hf hg, fillFrom_method (f := f.fillFrom g) rfl hg, Method.fillFrom_fillFrom]
    | _ => simp [fillFrom, hf, hg]
  | _ => simp [fillFrom, hf]

theorem firstSummary_eq (members : List Member) : firstSummary members = first (members.map (·.doc.summary)) := by
  induction members with
  | nil => rfl
  | cons member rest ih => simp [firstSummary, ih]

/-- The main declaration of a function, filled from the others: each text is the first at its place that says
something, its own coming before all others. -/
theorem fillFromOverloads_method {primary : Member} {p : Method} (hp : primary.body = .method p)
    {overloads : List Member} {fs : List Method}
    (hfs : List.Forall₂ (fun (m : Member) f => m.body = .method f) overloads fs) :
    primary.fillFromOverloads overloads =
      { primary with
        doc.summary := first (primary.doc.summary :: overloads.map (·.doc.summary))
        body := .method (p.retold (fun i text => first (text :: fs.filterMap (·.summaryAt i)))
          (first (p.returnSummary :: fs.map Method.returnSummary))) } := by
  have hfold (own : Member) (f : Method) : own.body = .method f →
      overloads.foldl fillFrom own = { own with body := .method (fs.foldl Method.fillFrom f) } := by
    clear hp
    induction hfs generalizing own f with
    | nil =>
      intro hown
      simp [← hown]
    | @cons m g _ _ hg _ ih =>
      intro hown
      rw [List.foldl_cons, List.foldl_cons, ih (own.fillFrom m) (f.fillFrom g)]
      · simp [fillFrom_method hown hg]
      · simp [fillFrom_method hown hg]
  rw [fillFromOverloads, hfold _ p (by exact hp), Method.foldl_fillFrom_eq, firstSummary_eq, ← first_cons]

end Member

/-! ### The session around an overload set -/

/-- What is between the elements of two lists, as a list. -/
theorem exists_between_forall₂ {α β γ : Type} {R : α → γ → Prop} {S : β → γ → Prop} {as : List α} {bs : List β}
    (h : List.Forall₂ (fun a b => ∃ c, R a c ∧ S b c) as bs) :
    ∃ cs, List.Forall₂ R as cs ∧ List.Forall₂ S bs cs := by
  induction h with
  | nil => exact ⟨[], .nil, .nil⟩
  | cons hc _ ih =>
    obtain ⟨c, hR, hS⟩ := hc
    obtain ⟨cs, hRs, hSs⟩ := ih
    exact ⟨c :: cs, .cons hR hRs, .cons hS hSs⟩

namespace Session

/-- Sessions that differ in some members at most. -/
structure DiffersAt (s : Session) (os : List MemberRef) (s' : Session) : Prop where
  types : s'.graph.types = s.graph.types
  size : s'.graph.members.size = s.graph.members.size
  typeMemo : s'.typeMemo = s.typeMemo
  memberMemo : s'.memberMemo = s.memberMemo
  typeParamOwners : s'.typeParamOwners = s.typeParamOwners
  memberAt {o} : o ∉ os → s'.memberAt? o = s.memberAt? o

theorem differsAt_putMember (s : Session) (o : MemberRef) (member : Member) :
    s.DiffersAt [o] (s.putMember o member) where
  types := rfl
  size := by simp
  typeMemo := rfl
  memberMemo := rfl
  typeParamOwners := rfl
  memberAt {o'} ho' := by
    have hne : o ≠ o' := by simpa [eq_comm] using ho'
    rw [memberAt?_putMember, if_neg hne]

/-- Members that are there are read in order. -/
theorem readMembers_run {s : Session} {os : List MemberRef} {members : List Member}
    (h : List.Forall₂ (fun o m => s.memberAt? o = some m) os members) :
    (os.mapM Resolve.getMember).run.run s = (.ok members, s) := by
  induction h with
  | nil => rfl
  | cons hm _ ih =>
    rw [List.mapM_cons, Environment.Exec.run_bind, getMember_run hm]
    dsimp only
    rw [Environment.Exec.run_bind, ih]
    rfl

/-- Each of some members is filled from another, however often it is met. -/
theorem fillEach_run {s : Session} (filled : Member) {os : List MemberRef}
    (hos : ∀ o ∈ os, o.index < s.graph.members.size) :
    ∃ s', (os.forM fun o => do Resolve.setMember o ((← Resolve.getMember o).fillFrom filled)).run.run s = (.ok (), s') ∧
      s.DiffersAt os s' ∧ ∀ o ∈ os, s'.memberAt? o = (s.memberAt? o).map (·.fillFrom filled) := by
  induction os generalizing s with
  | nil => exact ⟨s, rfl, by constructor <;> simp, by simp⟩
  | cons o os ih =>
    obtain ⟨member, hmember⟩ := exists_memberAt? (hos o (by simp))
    have hself : (s.putMember o (member.fillFrom filled)).memberAt? o = some (member.fillFrom filled) :=
      memberAt?_putMember_self (hos o (by simp)) _
    obtain ⟨s', hrun, hsame, hfilled⟩ := ih (s := s.putMember o (member.fillFrom filled)) fun o' ho' => by
      simpa using hos o' (by simp [ho'])
    have hother {o' : MemberRef} (hne : o ≠ o') :
        (s.putMember o (member.fillFrom filled)).memberAt? o' = s.memberAt? o' :=
      (differsAt_putMember s o _).memberAt (by simpa [eq_comm] using hne)
    refine ⟨s', ?_, ⟨hsame.types, by simpa using hsame.size, hsame.typeMemo, hsame.memberMemo, hsame.typeParamOwners,
      fun {o'} ho' => ?_⟩, fun o' ho' => ?_⟩
    · refine (Environment.Exec.run_bind _ _ s).trans ?_
      rw [Environment.Exec.run_bind, getMember_run hmember]
      exact hrun
    · simp only [List.mem_cons, not_or] at ho'
      rw [hsame.memberAt ho'.2, hother (Ne.symm ho'.1)]
    · -- a member that is met again is filled twice, which is filling it once
      by_cases hmem : o' ∈ os
      · rw [hfilled o' hmem]
        by_cases heq : o = o'
        · subst heq
          simp [hself, hmember, Member.fillFrom_fillFrom]
        · rw [hother heq]
      · obtain rfl : o' = o := (List.mem_cons.1 ho').resolve_right hmem
        rw [hsame.memberAt hmem, hself, hmember]
        rfl

end Session

namespace Environment

variable {env : Environment} {s : Session}

/-- Sharing summaries, as one step: the main declaration is filled from the others, and each of them from it. -/
theorem sharedPrimary_run (hbackfill : env.config.backfillOverloads = true) (primary : Member) {os : List MemberRef}
    {overloads : List Member} (hos : List.Forall₂ (fun o m => s.memberAt? o = some m) os overloads) :
    ∃ s', (env.sharedPrimary primary os).run.run s = (.ok (primary.fillFromOverloads overloads), s') ∧
      s.DiffersAt os s' ∧
      List.Forall₂ (fun o m => s'.memberAt? o = some (m.fillFrom (primary.fillFromOverloads overloads)))
        os overloads := by
  have hrange : ∀ o ∈ os, o.index < s.graph.members.size := by
    intro o ho
    obtain ⟨m, -, hm⟩ := exists_of_forall₂ hos ho
    exact Session.memberAt?_eq_some_lt hm
  obtain ⟨s', hrun, hsame, hfilled⟩ := Session.fillEach_run (primary.fillFromOverloads overloads) hrange
  refine ⟨s', ?_, hsame, ?_⟩
  · rw [sharedPrimary, if_pos hbackfill, shareSummaries, Exec.run_bind, Session.readMembers_run hos]
    dsimp only
    rw [Exec.run_bind, hrun]
    rfl
  · refine ((List.forall₂_and_left _ _).2 ⟨hfilled, hos⟩).imp fun o m ⟨hm', hm⟩ => ?_
    rw [hm', hm]
    rfl

/-- Methods that were filled from a method have bodies that were. -/
theorem filled_methods {base : Member} {p : Method} (hbase : base.body = .method p) {os : List MemberRef}
    {overloads : List Member} {fs : List Method}
    (hfs : List.Forall₂ (fun (m : Member) f => m.body = .method f) overloads fs)
    (hfilled : List.Forall₂ (fun o m => s.memberAt? o = some (m.fillFrom base)) os overloads) :
    List.Forall₂ (fun o (entry : Member × Method) => s.memberAt? o = some { entry.1 with body := .method entry.2 })
      os (overloads.zip (fs.map (·.fillFrom p))) := by
  induction hfs generalizing os with
  | nil =>
    cases hfilled
    exact .nil
  | @cons m f _ _ hf _ ih =>
    obtain ⟨o, os, hm, hrest, rfl⟩ := List.forall₂_cons_right_iff.1 hfilled
    refine .cons ?_ (ih hrest)
    rw [hm, Member.fillFrom_method hf hbase]

/-- **What overloads share**, for any number of them, of whatever arities.  The main declaration says at each place
what it did or else what the first of the others does that says something there; each of the others says what it did
or else what the main one says in the end, where that one has a parameter at all.  Nothing else changes, in them or in
the session; and where the main declaration has a parameter, every declaration that has one is documented there iff
one of them was before. -/
theorem shared_summaries (hbackfill : env.config.backfillOverloads = true) {primary : Member} {p : Method}
    (hp : primary.body = .method p) {os : List MemberRef} {overloads : List Member} {fs : List Method}
    (hos : List.Forall₂ (fun o m => s.memberAt? o = some m) os overloads)
    (hfs : List.Forall₂ (fun (m : Member) f => m.body = .method f) overloads fs) :
    ∃ (p' : Method) (fs' : List Method) (s' : Session),
      (env.sharedPrimary primary os).run.run s = (.ok { primary with
        doc.summary := first (primary.doc.summary :: overloads.map (·.doc.summary))
        body := .method p' }, s') ∧
      p' = p.retold (fun i text => first (text :: fs.filterMap (·.summaryAt i)))
        (first (p.returnSummary :: fs.map Method.returnSummary)) ∧
      fs' = fs.map (fun f => f.retold
        (fun i text => if i < p.signature.parameters.length then fill text ((p'.summaryAt i).getD "") else text)
        (fill f.returnSummary p'.returnSummary)) ∧
      List.Forall₂ (fun o (entry : Member × Method) =>
        s'.memberAt? o = some { entry.1 with body := .method entry.2 }) os (overloads.zip fs') ∧
      s.DiffersAt os s' ∧
      (∀ i < p.signature.parameters.length,
        (∀ f ∈ p' :: fs', ∀ text, f.summaryAt i = some text → text ≠ "") ↔
          ∃ f ∈ p :: fs, ∃ text, f.summaryAt i = some text ∧ text ≠ "") ∧
      ((∀ f ∈ p' :: fs', f.returnSummary ≠ "") ↔ ∃ f ∈ p :: fs, f.returnSummary ≠ "") := by
  obtain ⟨s', hrun, hsame, hfilled⟩ := sharedPrimary_run hbackfill primary hos
  rw [Member.fillFromOverloads_method hp hfs] at hrun hfilled
  generalize hp' : p.retold (fun i text => first (text :: fs.filterMap (·.summaryAt i)))
    (first (p.returnSummary :: fs.map Method.returnSummary)) = p' at hrun hfilled
  have hshares : p.Shares fs p' (fs.map (·.fillFrom p')) := ⟨hp'.symm, rfl⟩
  have harity : p'.signature.parameters.length = p.signature.parameters.length := by simp [← hp', Method.retold]
  refine ⟨p', _, s', hrun, rfl, ?_, filled_methods rfl hfs hfilled, hsame, fun i hi => ?_, ?_⟩
  · exact List.map_congr_left fun f _ => harity ▸ f.fillFrom_eq_ite p'
  · exact hshares.summaryAt_ne_empty_iff hi
  · exact hshares.returnSummary_ne_empty_iff

/-! ### Three declarations -/

/-- A declaration of a function that says something of itself, of its parameters and of its result. -/
def told (summary : String) (texts : List String) (result : String) : Member where
  name := "f"
  doc.summary := summary
  body := .method {
    kind := .function
    signature := { parameters := texts.map fun text => { name := "x", type := ⟨0⟩, summary := text }, returnType := ⟨0⟩ }
    returnSummary := result }

/-- The main declaration takes over what it lacks, the first overload only the text of the result, and the parameter
that only the second one has stays without a text. -/
theorem shared_summaries_threeDeclarations :
    ∃ s', (sharedPrimary { checker := Program.checker {} } (told "" ["", "b"] "") [⟨0⟩, ⟨1⟩]).run.run
        { graph.members := ⟨#[told "one" ["a"] "", told "two" ["c", "", ""] "result"]⟩ } =
        (.ok (told "one" ["a", "b"] "result"), s') ∧
      s'.memberAt? ⟨0⟩ = some (told "one" ["a"] "result") ∧
      s'.memberAt? ⟨1⟩ = some (told "two" ["c", "b", ""] "result") := by
  obtain ⟨p', fs', s', hrun, rfl, rfl, hfilled, -⟩ := @shared_summaries { checker := Program.checker {} }
    { graph.members := ⟨#[told "one" ["a"] "", told "two" ["c", "", ""] "result"]⟩ } rfl (told "" ["", "b"] "") _ rfl
    [⟨0⟩, ⟨1⟩] _ _ (.cons rfl (.cons rfl .nil)) (.cons rfl (.cons rfl .nil))
  simp only [List.map_cons, List.map_nil, List.zip_cons_cons, List.forall₂_cons] at hfilled
  exact ⟨s', hrun, hfilled.1, hfilled.2.1⟩

end Environment

end ApiDoc
