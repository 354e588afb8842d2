import ApiDoc.Proofs.Contents.Members
import ApiDoc.Proofs.Program.WellFormed
import ApiDoc.Proofs.Run.Requests

/-!
# Finished projects

Once a project is put together no place holds a placeholder any more.  Every symbol that was met is documented
as what its flags say, and containers and files list the members of what they contain, in the order of the
checker and with nothing but markers left out (`Environment.assemble_finishes`).
-/

namespace ApiDoc

namespace Environment

variable {env : Environment} {files : List FileId} {project : Project}

/-- Nothing is pending in the session of a project, and its files list their members. -/
theorem tidy_assembly (h : env.assemble files = .ok project) :
    env.Tidy .closed (env.assembly files) ∧
      List.Forall₂ (env.ListsMembers (env.assembly files)) files project.files := by
  obtain ⟨resolved, hrun, rfl⟩ := assemble_eq_ok h
  obtain ⟨ht, -, hfiles⟩ := (safe_resolveFiles files).of_ok .empty hrun
  exact ⟨ht, hfiles⟩

/-- **Every member is finished.**  Where a key has a place, the member there is what the key is documented as,
and every file lists the members of its symbols. -/
theorem assemble_finishes (h : env.assemble files = .ok project) :
    (∀ key r, (env.assembly files).memberOf? key = some (some r) →
      ∃ member, project.graph.member r = .ok member ∧ env.Finished (env.assembly files) key member) ∧
    List.Forall₂ (env.ListsMembers (env.assembly files)) files project.files := by
  obtain ⟨ht, hfiles⟩ := tidy_assembly h
  refine ⟨fun key r hr => ?_, hfiles⟩
  obtain ⟨member, hat, hfinished | ⟨hpending, -⟩⟩ := ht.finished hr
  · refine ⟨member, ?_, hfinished⟩
    rw [assemble_graph h]
    exact Graph.member_eq_ok_iff.2 hat
  · exact hpending.elim

section ThreeClasses

open Program

/-- The second class is documented as a class, although other members were met while it was worked on, and the
file lists all three classes. -/
theorem assemble_finishes_plainClasses :
    ∃ project member, plainClasses.assemble [⟨0⟩] = .ok project ∧
      (plainClasses.assembly [⟨0⟩]).memberOf? (.symbol ⟨1⟩) = some (some ⟨2⟩) ∧
      project.graph.member ⟨2⟩ = .ok member ∧ (∃ c, member.body = .classLike c) ∧
      ∃ file, project.files = [file] ∧
        plainClasses.HoldsMembers (plainClasses.assembly [⟨0⟩]) [⟨0⟩, ⟨1⟩, ⟨2⟩] file.members := by
  obtain ⟨project, h⟩ := exists_plainClasses
  have hkey : (plainClasses.assembly [⟨0⟩]).memberOf? (.symbol ⟨1⟩) = some (some ⟨2⟩) := by
    decide +kernel
  obtain ⟨hfinished, hfiles⟩ := assemble_finishes h
  obtain ⟨member, hat, ⟨flags, hflags, hshows⟩, -⟩ := hfinished _ _ hkey
  obtain rfl : .of [.classSymbol] = flags := Except.ok.inj hflags
  rw [show SymbolClass.of (.of [.classSymbol]) = .classLike by decide] at hshows
  obtain ⟨c, -, hbody, -⟩ := hshows
  obtain ⟨file, _, ⟨ms, hms, hmembers⟩, hrest, hproject⟩ := List.forall₂_cons_left_iff.1 hfiles
  obtain rfl := List.forall₂_nil_left_iff.1 hrest
  refine ⟨project, member, h, hkey, hat, ⟨c, hbody⟩, file, hproject, ?_⟩
  -- the file is a script
  obtain ⟨hmodule, -⟩ | ⟨-, hlocals⟩ := hms
  · cases hmodule
  · obtain rfl : [⟨0⟩, ⟨1⟩, ⟨2⟩] = ms := Except.ok.inj hlocals
    exact hmembers

end ThreeClasses

end Environment

end ApiDoc
