import ApiDoc.Program.Step
import ApiDoc.Proofs.Program.Written

/-!
# Building steps with known handles

Whoever builds a program names what is there by the handles that earlier steps gave (`BuildStep.areThreaded`).  Then no
step fails, and each adds the declarations of `BuildStep.written`: the symbols it gives back, with the code written for
each of them.
-/

namespace ApiDoc

/-! ### Handles -/

/-- A handle that a step takes or gives. -/
inductive Handle where
  | file (f : FileId)
  | symbol (m : SymbolId)
  | type (t : TypeId)
  | signature (sig : SignatureId)
  deriving DecidableEq, Repr

/-- The handle is of something that is there. -/
def Handle.IsKnown (b : Builder) : Handle → Prop
  | .file f => b.program.domain.file f
  | .symbol m => b.Hosts m
  | .type t => b.program.domain.type t
  | .signature sig => b.program.domain.signature sig

/-- What a scope is of. -/
def Scope.handle : Scope → Handle
  | .file f => .file f
  | .exportsOf owner | .membersOf owner => .symbol owner

/-- The types of a signature. -/
def SignatureSpec.handles (spec : SignatureSpec) : List Handle :=
  spec.typeParameters.map .type ++ spec.params.map (fun p => .type p.type) ++ spec.thisType.toList.map .type ++
    [.type spec.returnType]

/-- The handles that a step gives. -/
def Added.handles : Added → List Handle
  | nothing => []
  | file f => [.file f]
  | symbol m => [.symbol m]
  | symbols ms => ms.map .symbol
  | type t => [.type t]
  | signature sig => [.signature sig]

/-- Symbols are declared, each at its code, or one of them at each code. -/
def Added.declaring (codes : List String) : Added → List (SymbolId × String)
  | symbol m => codes.map fun code => (m, code)
  | symbols ms => codes.zipIdx.map fun d => (ms.getD d.2 default, d.1)
  | _ => []

namespace BuildStep

/-- The handles that a step takes. -/
def handles : BuildStep → List Handle
  | addModule _ | addScript _ | intrinsic _ | literal _ | booleanLiteral _ | typeParameter _ | thisType | uniqueSymbol
  | templateLiteral | objectType => []
  | fileComment f _ | setModuleName f _ | importModule f _ _ _ | referencePath f _ | failFile f => [.file f]
  | union ts | intersection ts | tuple ts => ts.map .type
  | array t | keyof t | substitution t => [.type t]
  | typeReference target arguments => .type target :: arguments.map .type
  | indexedAccess t u | constrain t u | defaultType t u => [.type t, .type u]
  | conditional root => [.type root.check, .type root.bound, .type root.whenTrue, .type root.whenFalse]
  | typeofSymbol m | declaredType m | setModifiers m _ | setConstantValue m _ | mergeNamespace m _
  | failDeclarations m => [.symbol m]
  | typeProperty f object _ _ t => [.file f, .type object, .type t]
  | functionType sig => [.signature sig]
  | signature f spec => .file f :: spec.handles
  | setReturnType sig t => [.signature sig, .type t]
  | addVariable scope _ _ _ t _ | typeAlias scope _ _ t => [scope.handle, .type t]
  | destructuredConst scope _ bindings _ => scope.handle :: bindings.map fun binding => .type binding.2
  | function scope _ declarations => scope.handle :: declarations.flatMap fun d => d.2.1.handles
  | addClass scope _ _ | interface scope _ _ | enumeration scope _ _ _ | addNamespace scope _ _
  | bareSymbol scope _ _ => [scope.handle]
  | extend m t | implement m t | property m _ _ t | optionalProperty m _ _ t | staticProperty m _ _ t
  | accessor m _ t _ _ => [.symbol m, .type t]
  | setTypeParameters m ts => .symbol m :: ts.map .type
  | method m _ declarations => .symbol m :: declarations.flatMap fun d => d.2.handles
  | addConstructor m _ spec | constructSignature m _ spec | callSignature m _ spec => .symbol m :: spec.handles
  | indexSignature m _ key t => [.symbol m, .type key.type, .type t]
  | enumMember m _ _ _ => [.symbol m]

/-- The code of each declaration that a step writes: for a variable its name and initialiser, for a part of a pattern
its name. -/
def codes (p : Program) : BuildStep → List String
  | typeProperty _ _ _ name _ | property _ _ name _ | optionalProperty _ _ name _ | staticProperty _ _ name _ =>
    [propertyCode name]
  | addVariable _ _ _ name _ initializer => [variableCode name initializer]
  | destructuredConst _ _ bindings _ => bindings.map Prod.fst
  | function _ name declarations => declarations.map fun d => methodCode ("function " ++ name) d.2.1 d.2.2
  | addClass _ _ name => [containerCode "class" name]
  | interface _ _ name => [containerCode "interface" name]
  | method owner name declarations => declarations.zipIdx.map fun d =>
    methodCode name d.1.2 (!p.isContract owner && d.2 + 1 == declarations.length)
  | addConstructor _ _ spec => ["constructor" ++ spec.code ++ ";"]
  | indexSignature _ _ key _ => ["[" ++ key.name ++ ": K]: T;"]
  | constructSignature _ _ spec => ["new" ++ spec.code ++ ";"]
  | callSignature _ _ spec => [spec.code ++ ";"]
  | accessor _ name _ _ setterDoc => accessorCodes name setterDoc.isSome
  | enumeration _ _ name isConst => [containerCode (if isConst then "const enum" else "enum") name]
  | enumMember _ _ name initializer => [variableCode name initializer ++ ","]
  | addNamespace _ _ name => [containerCode "namespace" name]
  | mergeNamespace m _ => [containerCode "namespace" (p.symbolData m).name]
  | typeAlias _ _ name _ => [aliasCode name]
  | _ => []

/-- What a step declares: what it gives back, or the symbol that it merges a namespace into. -/
def written (p : Program) (step : BuildStep) (added : Added) : List (SymbolId × String) :=
  match step with
  | mergeNamespace m _ => (Added.symbol m).declaring (step.codes p)
  | _ => added.declaring (step.codes p)

/-- Steps that take only handles that are known or that the steps before them gave. -/
def areThreaded (known : List Handle) (b : Builder) : List BuildStep → Bool
  | [] => true
  | step :: steps =>
    step.handles.all known.contains && match step.run.run b with
      | .ok r => areThreaded (r.1.handles ++ known) r.2 steps
      | .error _ => true

/-- What steps declare one after the other. -/
def writtenBy (b : Builder) : List BuildStep → List (SymbolId × String)
  | [] => []
  | step :: steps =>
    match step.run.run b with
    | .ok r => step.written b.program r.1 ++ writtenBy r.2 steps
    | .error _ => []

end BuildStep

/-! ### Known handles -/

section

variable {b b' : Builder}

theorem Handle.IsKnown.mono {handle : Handle} (h : handle.IsKnown b) (hstays : b.program.StaysIn b'.program) :
    handle.IsKnown b' := by
  cases handle with
  | file f => exact hstays.file h
  | symbol m => exact Builder.Hosts.mono h hstays
  | type t => exact hstays.type h
  | signature sig => exact hstays.signature h

theorem Scope.IsKnown.of_handle {scope : Scope} (h : scope.handle.IsKnown b) : scope.IsKnown b := by
  cases scope <;> exact h

theorem SignatureSpec.IsKnown.of_handles {spec : SignatureSpec} (h : ∀ handle ∈ spec.handles, handle.IsKnown b) :
    spec.IsKnown b where
  params p hp := h (.type p.type) (by
    simp only [handles, List.mem_append, List.mem_map]
    exact .inl (.inl (.inr ⟨p, hp, rfl⟩)))
  thisType t ht := h (.type t) (by
    simp only [handles, List.mem_append, List.mem_map, Option.mem_toList]
    exact .inl (.inr ⟨t, ht, rfl⟩))

end

namespace BuildStep

open Build

variable {α : Type} {b : Builder} {step : BuildStep} {steps : List BuildStep} {known : List Handle}

theorem zip_eq_declaring {ms : List SymbolId} {codes : List String} (h : ms.length = codes.length) :
    ms.zip codes = (Added.symbols ms).declaring codes := by
  refine List.ext_getElem (by simp [Added.declaring, h]) fun i hi _ => ?_
  have hlt : i < ms.length := (List.lt_length_left_of_zip hi)
  simp [Added.declaring, hlt]

/-- A step that gives a symbol. -/
theorem makes_symbol {x : Build SymbolId} {codes : List String}
    (hx : Makes b x fun m b' => b.Extends b' (codes.map fun code => (m, code)) ∧ b'.Hosts m) :
    Makes b (do return Added.symbol (← x)) fun added b' =>
      b.Extends b' (added.declaring codes) ∧ ∀ handle ∈ added.handles, handle.IsKnown b' :=
  hx.bind fun _ _ h => .pure ⟨h.1, fun _ hhandle => List.mem_singleton.1 hhandle ▸ h.2⟩

/-- A step that gives a type. -/
theorem makes_type {x : Build TypeId} {codes : List String}
    (hx : Makes b x fun t b' => b.Extends b' [] ∧ b'.program.domain.type t) :
    Makes b (do return Added.type (← x)) fun added b' =>
      b.Extends b' (added.declaring codes) ∧ ∀ handle ∈ added.handles, handle.IsKnown b' :=
  hx.bind fun _ _ h => .pure ⟨h.1, fun _ hhandle => List.mem_singleton.1 hhandle ▸ h.2⟩

/-- A step that gives nothing and declares nothing. -/
theorem makes_nothing {x : Build Unit} {codes : List String} (hx : Makes b x fun _ b' => b.Extends b' []) :
    Makes b (do x; return Added.nothing) fun added b' =>
      b.Extends b' (added.declaring codes) ∧ ∀ handle ∈ added.handles, handle.IsKnown b' :=
  hx.bind fun _ _ h => .pure ⟨h, fun _ hhandle => nomatch hhandle⟩

/-- **A step with known handles succeeds, and writes what it declares.** -/
theorem makes_run (hb : b.Sound) (h : ∀ handle ∈ step.handles, handle.IsKnown b) :
    Makes b step.run fun added b' =>
      b.Extends b' (step.written b.program added) ∧ ∀ handle ∈ added.handles, handle.IsKnown b' := by
  cases step with
  | addModule name | addScript name =>
    exact (makes_addFile hb name _).bind fun f b' hf =>
      .pure ⟨hf.1, fun _ hhandle => List.mem_singleton.1 hhandle ▸ hf.2⟩
  | fileComment f text => exact makes_nothing (makes_fileComment hb (h (.file f) (by simp [handles])) text)
  | setModuleName f | importModule f | referencePath f =>
    exact makes_nothing (makes_modifyFile hb (h (.file f) (by simp [handles])) (fun _ => by exact ⟨rfl, rfl⟩)
      fun _ => by rfl)
  | intrinsic name => exact makes_type (makes_intrinsic hb name)
  | literal _ | booleanLiteral _ | union _ | intersection _ | array _ | keyof _ | indexedAccess _ _ | conditional _
  | substitution _ | uniqueSymbol | templateLiteral => exact makes_type (makes_addType hb (by simp))
  | tuple elements => exact makes_type (makes_tuple hb elements)
  | typeReference target arguments =>
    exact makes_type (makes_typeReference hb (h (.type target) (by simp [handles])) arguments)
  | typeParameter _ | thisType | objectType | functionType _ => exact makes_type (makes_symbolType hb _ _ fun _ => rfl)
  | constrain t | defaultType t =>
    exact makes_nothing (makes_modifyType hb (h (.type t) (by simp [handles])) fun _ h => by exact h)
  | typeofSymbol m =>
    exact makes_type (makes_addTypeOf hb (Builder.Hosts.symbol (h (.symbol m) (by simp [handles]))) rfl)
  | typeProperty f object doc name t =>
    exact makes_symbol (makes_typeProperty hb (h (.file f) (by simp [handles])) (h (.type object) (by simp [handles]))
      (h (.type t) (by simp [handles])) doc name)
  | signature f spec =>
    have hspec : spec.IsKnown b := .of_handles fun handle hhandle => h handle (by simp [handles, hhandle])
    exact (makes_signature hb (h (.file f) (by simp [handles])) hspec).bind fun sig b' hsig =>
      .pure ⟨hsig.1, fun _ hhandle => List.mem_singleton.1 hhandle ▸ hsig.2.1⟩
  | setReturnType sig t =>
    exact makes_nothing ((makes_modifySignature hb (h (.signature sig) (by simp [handles])) _).mono fun _ _ h => h.1)
  | declaredType m =>
    refine (reads_declaredType hb (Builder.Hosts.symbol (h (.symbol m) (by simp [handles])))).bind
      fun declared hdeclared => ?_
    split
    · next t => exact .pure ⟨.refl hb, fun _ hhandle => List.mem_singleton.1 hhandle ▸ hdeclared t rfl⟩
    · exact .pure ⟨.refl hb, fun _ hhandle => nomatch hhandle⟩
  | addVariable scope doc keyword name t initializer =>
    exact makes_symbol (makes_addVariable hb (.of_handle (h scope.handle (by simp [handles])))
      (h (.type t) (by simp [handles])) doc keyword name initializer)
  | destructuredConst scope doc bindings initializer =>
    have htypes : ∀ binding ∈ bindings, b.program.domain.type binding.2 := fun binding hbinding =>
      h (.type binding.2) (List.mem_cons_of_mem _ (List.mem_map.2 ⟨binding, hbinding, rfl⟩))
    refine (makes_destructuredConst hb (.of_handle (h scope.handle (by simp [handles]))) doc htypes initializer).bind
      fun ms b' ⟨hwritten, hlength, hms⟩ => .pure ⟨?_, fun handle hhandle => ?_⟩
    · rwa [zip_eq_declaring (hlength.trans (List.length_map _).symm)] at hwritten
    · obtain ⟨m, hm, rfl⟩ := List.mem_map.1 hhandle
      exact hms m hm
  | function scope name declarations =>
    have hspecs : ∀ d ∈ declarations, d.2.1.IsKnown b := fun d hd => .of_handles fun handle hhandle =>
      h handle (List.mem_cons_of_mem _ (List.mem_flatMap.2 ⟨d, hd, hhandle⟩))
    have hmade := makes_overloadedFunction hb (.of_handle (h scope.handle (by simp [handles]))) name hspecs
    exact makes_symbol (hmade.mono fun _ _ h' => by simpa only [codes, List.map_map, Function.comp_def] using h')
  | addClass scope doc name =>
    exact makes_symbol (makes_addClass hb (.of_handle (h scope.handle (by simp [handles]))) doc name)
  | interface scope doc name =>
    exact makes_symbol (makes_classLike hb (.of_handle (h scope.handle (by simp [handles]))) doc name false)
  | extend m base =>
    exact makes_nothing (makes_extend hb (Builder.Hosts.symbol (h (.symbol m) (by simp [handles]))) base)
  | implement m type =>
    exact makes_nothing (makes_implement hb (Builder.Hosts.symbol (h (.symbol m) (by simp [handles]))) type)
  | setTypeParameters m =>
    exact makes_nothing (makes_mark hb (Builder.Hosts.symbol (h (.symbol m) (by simp [handles])))
      fun _ => by exact ⟨rfl, rfl, rfl, rfl, rfl⟩)
  | property m doc name t =>
    exact makes_symbol (makes_property hb (h (.symbol m) (by simp [handles])) (h (.type t) (by simp [handles]))
      doc name)
  | optionalProperty m doc name t =>
    exact makes_symbol (makes_optionalProperty hb (h (.symbol m) (by simp [handles])) (h (.type t) (by simp [handles]))
      doc name)
  | staticProperty m doc name t =>
    exact makes_symbol (makes_staticProperty hb (h (.symbol m) (by simp [handles])) (h (.type t) (by simp [handles]))
      doc name)
  | method m name declarations =>
    have hspecs : ∀ d ∈ declarations, d.2.IsKnown b := fun d hd => .of_handles fun handle hhandle =>
      h handle (List.mem_cons_of_mem _ (List.mem_flatMap.2 ⟨d, hd, hhandle⟩))
    have hmade := makes_overloadedMethod hb (h (.symbol m) (by simp [handles])) name hspecs
    exact makes_symbol (hmade.mono fun _ _ h' => by simpa only [codes, List.map_map, Function.comp_def] using h')
  | addConstructor m doc spec | constructSignature m doc spec | callSignature m doc spec =>
    have hspec : spec.IsKnown b := .of_handles fun handle hhandle => h handle (by simp [handles, hhandle])
    exact makes_symbol (makes_signatureMember hb (h (.symbol m) (by simp [handles])) (by decide) hspec _ _ doc _)
  | indexSignature m doc key t =>
    have hspec : SignatureSpec.IsKnown b { params := [key], returnType := t } := by
      refine ⟨fun p hp => ?_, fun _ ht => nomatch ht⟩
      obtain rfl := List.mem_singleton.1 hp
      exact h (.type p.type) (by simp [handles])
    exact makes_symbol (makes_signatureMember hb (h (.symbol m) (by simp [handles])) (by decide) hspec _ _ doc _)
  | accessor m name t getterDoc setterDoc =>
    exact makes_symbol (makes_accessor hb (h (.symbol m) (by simp [handles])) (h (.type t) (by simp [handles])) name
      getterDoc setterDoc)
  | setModifiers m modifiers =>
    exact makes_nothing (makes_setModifiers hb (Builder.Hosts.symbol (h (.symbol m) (by simp [handles]))) modifiers)
  | enumeration scope doc name isConst =>
    exact makes_symbol (makes_enumeration hb (.of_handle (h scope.handle (by simp [handles]))) doc name isConst)
  | enumMember m doc name initializer =>
    exact makes_symbol (makes_enumMember hb (h (.symbol m) (by simp [handles])) doc name initializer)
  | setConstantValue m value =>
    exact makes_nothing (makes_setConstantValue hb (Builder.Hosts.symbol (h (.symbol m) (by simp [handles]))) value)
  | addNamespace scope doc name =>
    exact makes_symbol (makes_addNamespace hb (.of_handle (h scope.handle (by simp [handles]))) doc name)
  | mergeNamespace m doc =>
    exact (makes_mergeNamespace hb (h (.symbol m) (by simp [handles])) doc).bind fun _ b' h' =>
      .pure ⟨h', fun _ hhandle => nomatch hhandle⟩
  | typeAlias scope doc name t =>
    exact makes_symbol (makes_typeAlias hb (.of_handle (h scope.handle (by simp [handles])))
      (h (.type t) (by simp [handles])) doc name)
  | bareSymbol scope name flags =>
    exact makes_symbol (makes_bareSymbol hb (.of_handle (h scope.handle (by simp [handles]))) name flags)
  | failDeclarations m =>
    exact makes_nothing (makes_failDeclarations hb (Builder.Hosts.symbol (h (.symbol m) (by simp [handles]))))
  | failFile f => exact makes_nothing (makes_failFile hb (h (.file f) (by simp [handles])))

/-- **Steps with handles that are known, or that the steps before them gave, succeed one after the other**, up to any
step, and those that follow have handles that are known then. -/
theorem makes_runAll {before after : List BuildStep} (hb : b.Sound) (hknown : ∀ handle ∈ known, handle.IsKnown b)
    (h : areThreaded known b (before ++ after) = true) :
    Makes b (runAll before) fun _ b' => b.Extends b' (writtenBy b before) ∧
      ∃ known', (∀ handle ∈ known', handle.IsKnown b') ∧ areThreaded known' b' after = true := by
  induction before generalizing known b with
  | nil => exact .pure ⟨.refl hb, known, hknown, h⟩
  | cons step before ih =>
    obtain ⟨hhandles, hrest⟩ := Bool.and_eq_true_iff.1 h
    have htaken : ∀ handle ∈ step.handles, handle.IsKnown b := fun handle hhandle =>
      hknown handle (List.contains_iff_mem.1 (List.all_eq_true.1 hhandles handle hhandle))
    obtain ⟨⟨added, b₁⟩, hrun, h₁, hadded⟩ := Meets.exists_ok (makes_run hb htaken)
    rw [hrun] at hrest
    have hknown₁ : ∀ handle ∈ added.handles ++ known, handle.IsKnown b₁ := fun handle hhandle =>
      (List.mem_append.1 hhandle).elim (hadded handle) fun hhandle => (hknown handle hhandle).mono h₁.stays
    have hwritten : writtenBy b (step :: before) = step.written b.program added ++ writtenBy b₁ before := by
      rw [writtenBy, hrun]
    rw [hwritten, runAll, List.mapM_cons]
    refine Makes.of_run hrun ?_
    exact (ih h₁.sound hknown₁ hrest).bind fun _ _ ⟨h₂, hafter⟩ => .pure ⟨h₁.trans h₂, hafter⟩

end BuildStep

end ApiDoc
