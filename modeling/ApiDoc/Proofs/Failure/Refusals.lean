import ApiDoc.Proofs.Failure.Members
import ApiDoc.Proofs.Run.Requests
import ApiDoc.Proofs.Termination

/-!
# Why a project cannot be put together

Putting a project together is an inquiry, and a checker that knows its handles leaves only two reasons for its failure:
a refusal and an endless search (`Environment.fail_of_assemble_eq_error`).  The inquiry cannot tell for which reason the
queries that it does not make would be refused.  So if all that it makes are answered it cannot fail by itself, and
otherwise its outcome is the first refusal (`Environment.assemble_fails_by_refusal`).
-/

namespace ApiDoc

namespace Environment

variable {env : Environment} {D : Domain} {fail : Error → Prop} {replies : Replies} {files : List FileId}

/-- Nothing needs to be measured where a resolution may go too deep. -/
def unboundedGauge (env : Environment) (D : Domain) (hdeep : fail .tooDeep) : env.Gauge D fail where
  ready _ _ _ := True
  zero _ _ := hdeep
  succ _ := trivial
  mono _ _ := trivial
  newType _ _ _ _ _ := trivial
  newMember _ _ _ _ _ := trivial
  substitution _ _ _ _ := trivial
  belowType _ _ := trivial
  belowMember _ _ := trivial
  nested _ _ _ _ := trivial

/-- The same for searches along the nodes around a node. -/
def unboundedClimb (env : Environment) (D : Domain) (hdeep : fail .tooDeep) : env.Climb D fail where
  enough _ _ := True
  start _ := trivial
  zero _ _ := hdeep
  step _ _ _ := trivial

/-- Whatever a project fails with is the reason of some refusal, unless a search does not end. -/
theorem fail_of_assemble_eq_error (hknows : env.Knows D) (hreplies : replies.Name D fail) (hdeep : fail .tooDeep)
    (hfiles : ∀ f ∈ files, D.file f) {e : Error} (herror : (env.answering replies).assemble files = .error e) :
    fail e := by
  have hcovers : (env.answering replies).Covers D fail := hknows.covers hreplies (unboundedClimb env D hdeep)
  have hexec := exec_resolveFiles hcovers (g := unboundedGauge _ D hdeep) (fun _ => trivial) hfiles not_worksOn_nil
    (s := {})
  rcases hrun : (files.mapM (env.answering replies).resolveFile).run.run {} with ⟨e' | resolved, s⟩
  · unfold assemble at herror
    rw [hrun] at herror
    obtain rfl : e' = e := Except.error.inj herror
    exact (hexec.of_error .start hrun).1
  · unfold assemble at herror
    rw [hrun] at herror
    cases herror

/-- An inquiry in which every query is answered does not fail by itself. -/
theorem Describes.exists_ok {run : Inquiry Project} (hrun : env.Describes files run) (hknows : env.Knows D)
    (hfiles : ∀ f ∈ files, D.file f) (hreplies : replies.Name D fun _ => True)
    (hend : run.outcome replies ≠ .error .tooDeep)
    (hall : ∀ q ∈ run.asked replies, ∃ a, replies q = .ok a) : ∃ project, run.outcome replies = .ok project := by
  cases houtcome : run.outcome replies with
  | ok project => exact ⟨project, rfl⟩
  | error e =>
    -- the same error would come of it if all refusals were for another reason
    have hblamed (e' : Error) : e = e' ∨ e = .tooDeep := by
      have hblaming : (replies.blaming e').Name D fun e => e = e' ∨ e = .tooDeep := hreplies.blaming (.inl rfl)
      have herror : (env.answering (replies.blaming e')).assemble files = .error e := by
        rw [hrun, Inquiry.outcome_blaming hall, houtcome]
      exact fail_of_assemble_eq_error hknows hblaming (.inr rfl) hfiles herror
    rcases hblamed .unreadable with rfl | rfl
    · rcases hblamed .undecodable with h | h <;> cases h
    · exact absurd houtcome hend

/-- **A project fails by refusal only.**  One inquiry describes how a project is put together, whatever is replied to
the queries that may be refused; it makes exactly those queries whose refusal, for whatever reason, comes out of it.
If the resolution ends, then the project is there if every query that is made is answered, and otherwise the error is,
unchanged, that of the first query that is refused. -/
theorem assemble_fails_by_refusal (hknows : env.Knows D) (hfiles : ∀ f ∈ files, D.file f) :
    ∃ run : Inquiry Project, ∀ replies : Replies,
      (env.answering replies).assemble files = run.outcome replies ∧
      (∀ q, q ∈ run.asked replies ↔ ∀ e, (env.answering (replies.refuse q e)).assemble files = .error e) ∧
      (replies.Name D (fun _ => True) → (env.answering replies).assemble files ≠ .error .tooDeep →
        ((∀ q ∈ run.asked replies, ∃ a, replies q = .ok a) →
          ∃ project, (env.answering replies).assemble files = .ok project) ∧
        ∀ e, (env.answering replies).assemble files = .error e →
          ∃ before q, run.asked replies = before ++ [q] ∧ (∀ q' ∈ before, ∃ a, replies q' = .ok a) ∧
            replies q = .error e) := by
  obtain ⟨run, hrun⟩ := env.exists_describes files
  refine ⟨run, fun replies => ⟨hrun replies, fun q => ?_, fun hreplies hend => ?_⟩⟩
  · simp only [hrun _]
    exact Inquiry.mem_asked_iff
  · rw [hrun] at hend ⊢
    refine ⟨hrun.exists_ok hknows hfiles hreplies hend, fun e he => ?_⟩
    rcases run.answered_or_refused replies with hall | ⟨before, q, e', hasked, hbefore, hrefused, herror⟩
    · obtain ⟨project, hok⟩ := hrun.exists_ok hknows hfiles hreplies hend hall
      rw [hok] at he
      cases he
    · obtain rfl : e' = e := Except.error.inj (herror.symm.trans he)
      exact ⟨before, q, hasked, hbefore, hrefused⟩

end Environment

/-- The error that there is in place of an answer. -/
def refusal? {α : Type} : Answer α → Option Error
  | .ok _ => none
  | .error e => some e

theorem eq_error_of_refusal? {α : Type} {x : Answer α} {e : Error} (h : refusal? x = some e) : x = .error e := by
  cases x with
  | ok a => cases h
  | error e' => rw [Option.some.inj h]

namespace Program

/-- The replies about three classes in a circle, except that the type of the second class is withheld. -/
def withheldType : Replies :=
  circularClasses.checker.replies.refuse (.declaredTypeOfSymbol ⟨1⟩) (.checker "no type")

/-- Three classes in a circle are a project, and without the type of one of them that is what the project fails for. -/
theorem assemble_fails_by_refusal_circularClasses :
    ∃ run : Inquiry Project,
      (∃ project, circularClasses.assemble [⟨0⟩] = .ok project) ∧
      (∀ q ∈ run.asked circularClasses.checker.replies, ∃ a, circularClasses.checker.replies q = .ok a) ∧
      (circularClasses.answering withheldType).assemble [⟨0⟩] = .error (.checker "no type") ∧
      ∃ before q, run.asked withheldType = before ++ [q] ∧ (∀ q' ∈ before, ∃ a, withheldType q' = .ok a) ∧
        withheldType q = .error (.checker "no type") := by
  have hp : (threeClasses ⟨2⟩ (.of [])).WellFormed := wellFormed_threeClasses (by decide) _
  have hknows : circularClasses.Knows (threeClasses ⟨2⟩ (.of [])).domain :=
    knows hp (chainsEnd_threeClasses _ _).bases {}
  have hname : circularClasses.checker.replies.Name (threeClasses ⟨2⟩ (.of [])).domain fun _ => True :=
    (name_replies hp).weaken fun _ _ => trivial
  have hfiles : ∀ f ∈ [(⟨0⟩ : FileId)], (threeClasses ⟨2⟩ (.of [])).domain.file f := by
    simp [threeClasses, domain, Arena.size]
  obtain ⟨run, hrun⟩ := Environment.assemble_fails_by_refusal hknows hfiles
  obtain ⟨project, hproject⟩ := exists_circularClasses
  have herror : (circularClasses.answering withheldType).assemble [⟨0⟩] = .error (.checker "no type") :=
    eq_error_of_refusal? (by decide +kernel)
  refine ⟨run, ⟨project, hproject⟩, ?_, herror, ?_⟩
  · rcases run.answered_or_refused circularClasses.checker.replies with hall | ⟨_, _, e, -, -, -, hrefused⟩
    · exact hall
    · -- a refusal would have been the outcome
      have houtcome := (hrun circularClasses.checker.replies).1
      rw [Environment.answering_replies, hproject, hrefused] at houtcome
      cases houtcome
  · exact ((hrun withheldType).2.2 (hname.refuse _ trivial) (by simp [herror])).2 _ herror

end Program

end ApiDoc
