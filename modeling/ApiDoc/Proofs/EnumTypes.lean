import ApiDoc.Proofs.EnumValues
import ApiDoc.Proofs.Failure.Leftovers
import ApiDoc.Proofs.Program.Enums

/-!
# The types of enum members

The members of an enum are numbered twice: while the program is built, for their types, and again when the enum is
resolved, for their values.  What the checker computed for an initialiser is told of a member that has been added
already, and the numbering that gave it its type has gone on by then.  So the two stay abreast up to a computed number
only (`Numbering.Abreast`): the members that are counted on from it (`WrittenMember.countsFromComputed`) have numbers for
values and their own names for types, and all others have the types of their values
(`Environment.literal_types_tell_values`).
-/

namespace ApiDoc

/-- The literal of the value of an enum member. -/
def EnumValue.literal : EnumValue → LiteralValue
  | .number x => .number x
  | .text s => .text s

/-- The literal that the type of a field is, if it is one. -/
def Session.literalAt? (s : Session) (r : MemberRef) : Option LiteralValue :=
  match (s.memberAt? r).map Member.body with
  | some (.field f) =>
    match s.nodeAt? f.type with
    | some (.literal value) => some value
    | _ => none
  | _ => none

/-- The values of an enum's members, each with the literal in its type. -/
def Session.typedValues (s : Session) (e : EnumBody) : List (EnumValue × Option LiteralValue) :=
  e.members.map fun entry => (entry.value, s.literalAt? entry.member)

theorem Session.literalAt?_eq_some {s : Session} {r : MemberRef} {value : LiteralValue}
    (h : s.literalAt? r = some value) : ∃ member f, s.memberAt? r = some member ∧ member.body = .field f ∧
      s.nodeAt? f.type = some (.literal value) := by
  unfold literalAt? at h
  split at h
  · next f hfield =>
    obtain ⟨member, hat, hbody⟩ := Option.map_eq_some_iff.1 hfield
    split at h
    · next value' hnode =>
      obtain rfl := Option.some.inj h
      exact ⟨member, f, hat, hbody, hnode⟩
    · exact nomatch h
  · exact nomatch h

/-! ### Two numberings -/

namespace WrittenMember

/-- The value that members are numbered on from when an enum is resolved: an initialiser that is no literal has the
value that the checker computed. -/
def own (w : WrittenMember) : Option EnumValue :=
  w.initializer.map fun text =>
    (EnumValue.parse? text).getD ((w.constant.map ConstantValue.enumValue).getD (.text text))

/-- Whether the checker computed a number for an initialiser that is no literal. -/
def isComputedNumber (w : WrittenMember) : Bool :=
  w.isComputed && match w.constant with
    | some (.number _) => true
    | _ => false

/-- Whether the last initialiser among some members is a computed number. -/
def endWithComputedNumber (ws : List WrittenMember) : Bool :=
  (ws.filter (·.initializer.isSome)).getLast?.any isComputedNumber

/-- Whether a member behind others is counted on from a computed number. -/
def countsFromComputed (before : List WrittenMember) (w : WrittenMember) : Bool :=
  w.initializer.isNone && endWithComputedNumber before

/-- Where a numbering of members stands behind them. -/
def numbering (value : WrittenMember → Option EnumValue) (ws : List WrittenMember) : Numbering :=
  ws.foldl (fun n w => (n.assign w.name (value w)).2) {}

theorem numbering_concat (value : WrittenMember → Option EnumValue) (ws : List WrittenMember) (w : WrittenMember) :
    numbering value (ws ++ [w]) = ((numbering value ws).assign w.name (value w)).2 := by
  simp [numbering]

theorem endWithComputedNumber_concat (ws : List WrittenMember) (w : WrittenMember) :
    endWithComputedNumber (ws ++ [w]) = if w.initializer.isSome then w.isComputedNumber
      else endWithComputedNumber ws := by
  unfold endWithComputedNumber
  split <;> simp_all [List.filter_append]

variable {w : WrittenMember} {text : String} {value : EnumValue}

theorem isComputed_eq (h : w.initializer = some text) : w.isComputed = (EnumValue.parse? text).isNone := by
  simp [isComputed, h]

theorem own_eq_of_parse? (h : w.initializer = some text) (hparse : EnumValue.parse? text = some value) :
    w.own = some value := by
  simp [own, h, hparse]

/-- For members without an initialiser and for literals both numberings are the same. -/
theorem own_eq_counted (h : w.isComputed = false) : w.own = w.counted := by
  cases htext : w.initializer with
  | none => simp [own, counted, htext]
  | some text =>
    rw [isComputed_eq htext, Option.isNone_eq_false_iff] at h
    obtain ⟨value, hvalue⟩ := Option.isSome_iff_exists.1 h
    rw [own_eq_of_parse? htext hvalue]
    simp [counted, htext, hvalue]

end WrittenMember

/-- Where the numbering for types and the one for values stand when they have come past the same members: at the same
number, or else behind a computed number, which counts as a text for types. -/
inductive Numbering.Abreast : Bool → Numbering → Numbering → Prop
  | level (n : Numbering) : Abreast false n n
  | behind (x : Binary64) : Abreast true ⟨none⟩ ⟨some x⟩

namespace Numbering.Abreast

variable {n n' : Numbering} {w : WrittenMember}

theorem eq (h : Abreast false n n') : n' = n := by
  cases h
  rfl

theorem exists_number (h : Abreast true n n') : n = ⟨none⟩ ∧ ∃ x, n' = ⟨some x⟩ := by
  cases h with
  | behind x => exact ⟨rfl, x, rfl⟩

/-- A member that is not initialised leaves them as they stand. -/
theorem bare {behind : Bool} (h : Abreast behind n n') (name : String) :
    Abreast behind (n.assign name none).2 (n'.assign name none).2 := by
  cases h with
  | level => exact .level _
  | behind x => exact .behind x.plusOne

/-- A literal brings them together. -/
theorem literal {value : EnumValue} (n n' : Numbering) (name : String) :
    Abreast false (n.assign name (some value)).2 (n'.assign name (some value)).2 := .level _

/-- What was computed brings them together unless it is a number. -/
theorem computed {text : String} (h : w.initializer = some text) (hparse : EnumValue.parse? text = none)
    (n n' : Numbering) :
    Abreast w.isComputedNumber (n.assign w.name w.counted).2 (n'.assign w.name w.own).2 := by
  simp only [WrittenMember.isComputedNumber, WrittenMember.isComputed_eq h, hparse, WrittenMember.counted,
    WrittenMember.own, h, Option.map_some, Option.getD_none, Option.isNone_none, Bool.true_and]
  cases w.constant with
  | none => exact .level _
  | some c =>
    cases c with
    | number x => exact .behind x.plusOne
    | text s => exact .level _

/-- **One member further.** -/
theorem step {behind : Bool} (h : Abreast behind n n') (w : WrittenMember) :
    Abreast (if w.initializer.isSome then w.isComputedNumber else behind) (n.assign w.name w.counted).2
      (n'.assign w.name w.own).2 := by
  cases htext : w.initializer with
  | none => simpa [WrittenMember.counted, WrittenMember.own, htext] using h.bare w.name
  | some text =>
    rw [Option.isSome_some, if_pos rfl]
    cases hparse : EnumValue.parse? text with
    | none => exact .computed htext hparse n n'
    | some value =>
      have hliteral : w.isComputed = false := by rw [WrittenMember.isComputed_eq htext, hparse, Option.isNone_some]
      rw [← WrittenMember.own_eq_counted hliteral, WrittenMember.own_eq_of_parse? htext hparse,
        WrittenMember.isComputedNumber, hliteral]
      exact .literal n n' w.name

end Numbering.Abreast

/-- **The two numberings of an enum.** -/
theorem WrittenMember.numbering_abreast (ws : List WrittenMember) :
    Numbering.Abreast (endWithComputedNumber ws) (numbering counted ws) (numbering own ws) := by
  induction ws using List.reverseRecOn with
  | nil => exact .level {}
  | append_singleton ws w ih =>
    rw [endWithComputedNumber_concat, numbering_concat, numbering_concat]
    exact ih.step w

/-- Members have the values that their numbering gives them behind those before. -/
theorem Numbering.Follows.value_eq (before : List WrittenMember) {ws : List WrittenMember} {entries : List EnumEntry}
    (h : (WrittenMember.numbering WrittenMember.own before).Follows (ws.map WrittenMember.own) entries)
    (hnames : entries.map EnumEntry.name = ws.map WrittenMember.name) {i : Nat} {w : WrittenMember} {entry : EnumEntry}
    (hw : ws[i]? = some w) (hi : entries[i]? = some entry) :
    entry.value = (WrittenMember.numbering WrittenMember.own (before ++ ws.take i)).valueOf w.name w.own := by
  induction ws generalizing before entries i with
  | nil => exact nomatch hw
  | cons first ws ih =>
    cases h with
    | cons _ _ name member hrest =>
      obtain ⟨rfl, hnames'⟩ : name = first.name ∧ _ = ws.map WrittenMember.name := List.cons.inj hnames
      cases i with
      | zero =>
        obtain rfl := Option.some.inj hw
        obtain rfl := Option.some.inj hi
        simp [assign]
      | succ i =>
        rw [← WrittenMember.numbering_concat] at hrest
        simpa using ih _ hrest hnames' hw hi

/-- How the literal in the type of a member compares to its value. -/
structure WrittenMember.TellsValue (before : List WrittenMember) (w : WrittenMember) (literal : LiteralValue)
    (value : EnumValue) : Prop where
  /-- What is told of a member is in its type. -/
  told {c : ConstantValue} (hc : w.constant = some c) : literal = c.enumValue.literal
  /-- If nothing is told of it, or if that was computed, its type tells its value unless it is counted on from a computed
  number. -/
  agrees (h : w.constant.isSome = true → w.isComputed = true) :
    literal = value.literal ↔ countsFromComputed before w = false
  /-- If it is, and nothing is told of it, its type is its name. -/
  named (h : w.constant = none) (hcounts : countsFromComputed before w = true) :
    literal = .text w.name ∧ ∃ x, value = .number x

namespace WrittenMember

/-- The literal is that of the value which the type was made for; both numberings have come past the members before. -/
theorem tellsValue (before : List WrittenMember) (w : WrittenMember) {value : EnumValue}
    (h : w.typed (numbering counted before) = some value) :
    TellsValue before w value.literal ((numbering own before).valueOf w.name w.own) := by
  -- what is told of a member overrides what is written; else the two numberings differ only behind a computed number
  cases hconstant : w.constant with
  | some c =>
    obtain rfl : c.enumValue = value := by simpa [typed, hconstant] using h
    refine ⟨fun hc => ?_, fun hcomputed => ?_, fun hnone => nomatch hconstant.symm.trans hnone⟩
    · obtain rfl := Option.some.inj (hconstant.symm.trans hc)
      rfl
    · obtain ⟨text, htext, hparse⟩ : ∃ text, w.initializer = some text ∧ EnumValue.parse? text = none := by
        simpa [isComputed, Option.any_eq_true] using hcomputed (by simp [hconstant])
      simp [own, htext, hparse, hconstant, Numbering.valueOf, countsFromComputed]
  | none =>
    obtain ⟨hliteral, rfl⟩ : w.isComputed = false ∧ (numbering counted before).valueOf w.name w.counted = value := by
      simpa [typed, hconstant] using h
    rw [own_eq_counted hliteral]
    refine ⟨fun hc => (nomatch hconstant.symm.trans hc), fun _ => ?_, fun _ hcounts => ?_⟩
    · cases htext : w.initializer with
      | some text => simp [counted, htext, Numbering.valueOf, countsFromComputed]
      | none =>
        rw [counted, htext, countsFromComputed, htext]
        have habreast := numbering_abreast before
        cases hends : endWithComputedNumber before with
        | false => simp [(hends ▸ habreast).eq]
        | true =>
          obtain ⟨hn, x, hx⟩ := (hends ▸ habreast).exists_number
          simp [hn, hx, Numbering.valueOf, EnumValue.literal]
    · obtain ⟨hbare, hends⟩ : w.initializer = none ∧ endWithComputedNumber before = true := by
        simpa [countsFromComputed] using hcounts
      obtain ⟨hn, x, hx⟩ := (hends ▸ numbering_abreast before).exists_number
      rw [counted, hbare, hn, hx]
      exact ⟨rfl, x, rfl⟩

end WrittenMember

/-! ### What the checker says of members -/

namespace Environment

/-- What the checker says of a member of an enum. -/
structure HasMember (env : Environment) (m : SymbolId) (w : WrittenMember) : Prop where
  name : env.checker.symbolName m = .ok w.name
  declared : ∃ d, env.mainDeclaration? m = .ok (some d) ∧ env.checker.initializerText d = .ok w.initializer ∧
    env.checker.constantValue d = .ok w.constant

variable {env : Environment} {p : Program} {s : Session} {requests : List Request} {m : SymbolId} {w : WrittenMember}
  {value : Option EnumValue} {t : TypeId} {r : TypeRef} {node : TypeNode}

/-- A member is resolved with what is written. -/
theorem HasMember.initialisedWith (h : env.HasMember m w) : env.InitialisedWith m w.own := by
  obtain ⟨d, hd, htext, hconstant⟩ := h.declared
  cases hinitializer : w.initializer with
  | none =>
    rw [WrittenMember.own, hinitializer]
    exact .bare hd (hinitializer ▸ htext)
  | some text =>
    rw [hinitializer] at htext
    cases hparse : EnumValue.parse? text with
    | some value =>
      rw [WrittenMember.own_eq_of_parse? hinitializer hparse]
      exact .literal hd htext hparse
    | none =>
      rw [WrittenMember.own, hinitializer, Option.map_some, hparse]
      cases hc : w.constant with
      | some c => exact .computed hd htext hparse (hc ▸ hconstant)
      | none => exact .verbatim hd htext hparse (hc ▸ hconstant)

end Environment

namespace Program.Writes

variable {env : Environment} {p : Program} {m : SymbolId} {w : WrittenMember} {value : Option EnumValue}

theorem symbol_eq (h : p.Writes m w value) : p.symbol m = .ok (p.symbolData m) := by
  obtain ⟨n, -, hvalue, -⟩ := h.declared
  unfold symbolData at hvalue
  unfold Program.symbol symbolData
  cases hm : p.symbols.get? m.index with
  | some data => rfl
  | none =>
    rw [hm] at hvalue
    cases hvalue

theorem hasMember (h : p.Writes m w value) (henv : env.checker = p.checker) : env.HasMember m w := by
  obtain ⟨n, node, hvalue, -, hnode, hinitializer, hconstant⟩ := h.declared
  have hn : p.node n = .ok node := Error.orOutOfBounds_eq_ok_iff.2 hnode
  refine ⟨?_, n, ?_, ?_, ?_⟩
  · rw [henv]
    exact bind_eq_ok_iff.2 ⟨_, h.symbol_eq, congrArg Except.ok h.name⟩
  · unfold Environment.mainDeclaration?
    rw [henv]
    exact bind_eq_ok_iff.2 ⟨some n, bind_eq_ok_iff.2 ⟨_, h.symbol_eq, congrArg Except.ok hvalue⟩, rfl⟩
  · rw [henv]
    exact bind_eq_ok_iff.2 ⟨_, hn, congrArg Except.ok hinitializer⟩
  · rw [henv]
    exact bind_eq_ok_iff.2 ⟨_, hn, congrArg Except.ok hconstant⟩

/-- A member of an enum is documented as a field. -/
theorem symbolClass (h : p.Writes m w value) : SymbolClass.of (p.symbolData m).flags = .field := by
  have hfalse {f : SymbolFlag} (hf : f ∈ SymbolFlag.settled)
      (hother : (FlagSet.of [SymbolFlag.enumMember]).has f = false) : (p.symbolData m).flags.has f = false :=
    (h.flags hf).trans hother
  have hmember : (p.symbolData m).flags.has .enumMember = true := h.isEnumMember
  simp [SymbolClass.of, FlagSet.hasAny, hmember, hfalse (f := .prototype) (by decide) (by decide),
    hfalse (f := .function) (by decide) (by decide), hfalse (f := .method) (by decide) (by decide),
    hfalse (f := .constructor) (by decide) (by decide), hfalse (f := .signature) (by decide) (by decide)]

end Program.Writes

namespace Environment

variable {env : Environment} {p : Program} {s : Session} {requests : List Request} {m : SymbolId} {w : WrittenMember}
  {value : Option EnumValue} {t : TypeId} {r : TypeRef} {node : TypeNode}

/-- A node that says anything is finished. -/
theorem exists_depicts_after (hr : (env.after {} requests).typeOf? t = some r)
    (hnode : (env.after {} requests).nodeAt? r = some node) (hknown : node ≠ .mixed) :
    ∃ shape, TypeShape.of env.checker t = .ok shape ∧ env.Depicts (env.after {} requests) t r shape := by
  obtain ⟨⟨fs, hc⟩, -⟩ := env.after_reachable requests .start
  refine hc.sound.typesDone hr fun hopen => hknown ?_
  obtain ⟨-, r', -, hr', hmixed⟩ := hc.openPlaces.mixed hopen
  obtain rfl : r' = r := Option.some.inj (hr'.symm.trans hr)
  exact Option.some.inj (hnode.symm.trans hmixed)

/-- The shape of the type of a member, which is a literal if there is a value for it. -/
theorem shape_enumLiteral (hflags : env.checker.typeFlags t = .ok (Build.enumLiteral m value).flags)
    (hsymbol : env.checker.typeSymbol t = .ok (some m)) :
    TypeShape.of env.checker t = .ok (if value.isSome then .literal else .composite (.typeOf m)) := by
  unfold TypeShape.of TypeShape.ofFlags
  rw [hflags]
  match value with
  | none => simp +decide [Build.enumLiteral, hsymbol, bind, Except.bind, pure, Except.pure]
  | some (.number _) => simp +decide [Build.enumLiteral, bind, Except.bind, pure, Except.pure]
  | some (.text _) => simp +decide [Build.enumLiteral, bind, Except.bind, pure, Except.pure]

/-- The node of a literal type is what its value is. -/
theorem literalNode_enumLiteral {x : EnumValue}
    (hflags : env.checker.typeFlags t = .ok (Build.enumLiteral m (some x)).flags)
    (hliteral : env.checker.literalValue t = .ok (Build.enumLiteral m (some x)).literal) :
    env.literalNode t = .ok (.literal x.literal) := by
  unfold literalNode
  rw [hflags, hliteral]
  cases x <;> simp +decide [Build.enumLiteral, bind, Except.bind, pure, Except.pure, EnumValue.literal]

/-- The type of a member is a literal as far as its value is known. -/
theorem literal_of_depicts {type : TypeData} (henv : env.checker = p.checker) (htype : p.types.get? t.index = some type)
    (hsame : (Build.enumLiteral m value).SameLiteral type) {shape : TypeShape}
    (hshape : TypeShape.of env.checker t = .ok shape) (hdepicts : env.Depicts s t r shape) {v : LiteralValue}
    (hnode : s.nodeAt? r = some (.literal v)) : ∃ x, value = some x ∧ v = x.literal := by
  have hdata : p.type t = .ok type := Error.orOutOfBounds_eq_ok_iff.2 htype
  have hflags : env.checker.typeFlags t = .ok (Build.enumLiteral m value).flags := by
    rw [henv]
    exact bind_eq_ok_iff.2 ⟨_, hdata, congrArg Except.ok hsame.flags⟩
  have hliteral : env.checker.literalValue t = .ok (Build.enumLiteral m value).literal := by
    rw [henv]
    exact bind_eq_ok_iff.2 ⟨_, hdata, congrArg Except.ok hsame.literal⟩
  have hsymbol : env.checker.typeSymbol t = .ok (some m) := by
    rw [henv]
    exact bind_eq_ok_iff.2 ⟨_, hdata, congrArg Except.ok (hsame.symbol.trans (Build.enumLiteral_symbol m value))⟩
  obtain rfl := Except.ok.inj (hshape.symm.trans (shape_enumLiteral hflags hsymbol))
  cases value with
  | none =>
    obtain ⟨node, hnode', v', -, rfl⟩ := hdepicts
    cases hnode.symm.trans hnode'
  | some x =>
    obtain ⟨node, hnode', hleaf⟩ := hdepicts
    obtain rfl := Option.some.inj (hnode.symm.trans hnode')
    have hvalue := Except.ok.inj (hleaf.symm.trans (literalNode_enumLiteral hflags hliteral))
    exact ⟨x, rfl, TypeNode.literal.inj hvalue⟩

/-- A symbol has one type, wherever it is asked for. -/
theorem typeOfSymbol_eq {t' : TypeId} {d : NodeId} (htype : (p.symbolData m).type = some t')
    (ht : p.checker.typeOfSymbolAtLocation m d = .ok t) : t' = t := by
  obtain ⟨-, -, ht⟩ := bind_eq_ok_iff.1 ht
  obtain ⟨data, hdata, ht⟩ := bind_eq_ok_iff.1 ht
  have hget := Program.meets_knownSymbol (p := p) m
  rw [hdata] at hget
  rw [Program.symbolData_eq hget] at htype
  rw [htype] at ht
  exact Except.ok.inj ht

/-- **What the type of a documented member tells** is the value that its type was made for. -/
theorem literal_of_writes (henv : env.checker = p.checker) (hw : p.Writes m w value) {r : MemberRef}
    (hr : (env.after {} requests).memberOf? (.symbol m) = some (some r)) {v : LiteralValue}
    (hv : (env.after {} requests).literalAt? r = some v) : ∃ x, value = some x ∧ v = x.literal := by
  obtain ⟨member, f, hat, hbody, hnode⟩ := Session.literalAt?_eq_some hv
  obtain ⟨built, hbuilt, hretells⟩ := exists_built_after hr hat (by simp [hbody])
  have hflags : env.checker.symbolFlags m = .ok (p.symbolData m).flags := by
    rw [henv]
    exact bind_eq_ok_iff.2 ⟨_, hw.symbol_eq, rfl⟩
  obtain ⟨f', hf', hdepicts⟩ := hbuilt.field hflags hw.symbolClass
  obtain rfl : f = f' := MemberBody.field.inj (hbody.symm.trans (hretells.field hf'))
  rcases hdepicts _ (.refl _) (env.single_after requests) with ⟨d, t, -, ht, htype⟩ | ⟨-, hfresh⟩
  · obtain ⟨t', type, ht', hget, hsame⟩ := hw.typed
    obtain rfl : t' = t := by
      rw [henv] at ht
      exact typeOfSymbol_eq ht' ht
    obtain ⟨shape, hshape, hdepicts⟩ := exists_depicts_after htype hnode (by simp [TypeNode.mixed])
    exact literal_of_depicts henv hget hsame hshape hdepicts hnode
  · cases hnode.symm.trans hfresh.1

end Environment

/-! ### The members of an enum -/

theorem Program.isFlagged_eq_has (p : Program) (f : SymbolFlag) (m : SymbolId) :
    p.checker.isFlagged [f] m = (p.symbolData m).flags.has f := by
  cases hm : p.symbols.get? m.index with
  | some data =>
    have hflags : p.checker.symbolFlags m = .ok (p.symbolData m).flags := by
      rw [symbolData_eq hm]
      exact bind_eq_ok_iff.2 ⟨data, Error.orOutOfBounds_eq_ok_iff.2 hm, rfl⟩
    simp [Checker.isFlagged_eq hflags, FlagSet.hasAny]
  | none =>
    have hflags : (p.symbolData m).flags.has f = false := by
      rw [symbolData, hm]
      exact Nat.zero_testBit _
    have hunknown : p.checker.symbolFlags m = .error .outOfBounds := by
      simp [checker, symbol, hm, Error.orOutOfBounds, bind, Except.bind]
    rw [hflags, Checker.isFlagged, hunknown]
    rfl

/-- The members of an enum are written one after the other, with the types that their numbering gives them. -/
theorem Program.Numbers.exists_written {p : Program} {n n' : Numbering} {ms : List SymbolId} (h : p.Numbers n ms n')
    (before : List WrittenMember) (hn : n = WrittenMember.numbering WrittenMember.counted before) :
    ∃ ws, List.Forall₂ (fun m w => ∃ value, p.Writes m w value) ms ws ∧ ∀ (i : Nat) m w, ms[i]? = some m →
      ws[i]? = some w →
      p.Writes m w (w.typed (WrittenMember.numbering WrittenMember.counted (before ++ ws.take i))) := by
  induction h generalizing before with
  | nil => exact ⟨[], .nil, fun i m w hm => nomatch hm⟩
  | @cons n n' m ms w hm _ ih =>
    subst hn
    obtain ⟨ws, hws, hwrites⟩ := ih _ (WrittenMember.numbering_concat WrittenMember.counted before w).symm
    refine ⟨w :: ws, .cons ⟨_, hm⟩ hws, fun i m' w' hm' hw' => ?_⟩
    cases i with
    | zero =>
      obtain rfl := Option.some.inj hm'
      obtain rfl := Option.some.inj hw'
      simpa using hm
    | succ i => simpa using hwrites i m' w' hm' hw'

namespace Environment

variable {env : Environment} {p : Program} {steps : List BuildStep} {requests : List Request} {m : SymbolId}
  {ms : List SymbolId} {e : EnumBody}

/-- The members of an enum that was built are those that are documented. -/
theorem enumMembers_eq (henv : env.checker = p.checker) (hms : env.checker.exportsOf m = .ok ms)
    (hwrites : ∀ k ∈ p.enumMembers m, ∃ w value, p.Writes k w value) : env.enumMembers ms = p.enumMembers m := by
  obtain rfl : (p.symbolData m).exportsOf = ms := by
    rw [henv] at hms
    obtain ⟨data, hdata, hms⟩ := bind_eq_ok_iff.1 hms
    rw [Program.symbolData_eq (Error.orOutOfBounds_eq_ok_iff.1 hdata)]
    exact Except.ok.inj hms
  refine List.filter_congr fun k hk => ?_
  rw [henv, p.isFlagged_eq_has, p.isFlagged_eq_has]
  cases hmember : p.isEnumMember k with
  | false => rw [show (p.symbolData k).flags.has .enumMember = false from hmember, Bool.false_and]
  | true =>
    obtain ⟨w, value, hw⟩ := hwrites k (List.mem_filter.2 ⟨hk, hmember⟩)
    rw [show (p.symbolData k).flags.has .enumMember = true from hmember, hw.flags (by decide)]
    decide

/-- In the enums that are resolved, the types of members tell their values unless these are counted on from computed
numbers. -/
def TypesTellValues (env : Environment) (s : Session) : Prop :=
  ∀ m e, s.enumOf? m = some e → ∃ ms ws, env.checker.exportsOf m = .ok ms ∧
    List.Forall₂ env.HasMember (env.enumMembers ms) ws ∧ e.members.map EnumEntry.name = ws.map WrittenMember.name ∧
    ∀ (i : Nat) w entry v, ws[i]? = some w → e.members[i]? = some entry → s.literalAt? entry.member = some v →
      WrittenMember.TellsValue (ws.take i) w v entry.value

theorem typesTellValues_after (hbuild : Program.build steps = .ok p) (hproper : BuildStep.areProper {} steps = true)
    (henv : env.checker = p.checker) (requests : List Request) : env.TypesTellValues (env.after {} requests) := by
  intro m e he
  obtain ⟨ms, written, hms, hentries, hwritten, hfollows⟩ := exists_follows_after he
  obtain ⟨n, hnumbers⟩ := Program.build_numbers hbuild hproper m
  obtain ⟨ws, hws, hwrites⟩ := hnumbers.exists_written [] rfl
  have hsame : env.enumMembers ms = p.enumMembers m := enumMembers_eq henv hms fun k hk => by
    obtain ⟨w, -, hw⟩ := exists_of_forall₂ hws hk
    exact ⟨w, hw⟩
  rw [← hsame] at hws hwrites
  have hmembers : List.Forall₂ env.HasMember (env.enumMembers ms) ws := hws.imp fun _ _ ⟨_, h⟩ => h.hasMember henv
  have hown : written = ws.map WrittenMember.own := by
    have hunique : Relator.RightUnique env.InitialisedWith := fun m own own' h h' =>
      Except.ok.inj ((initialisedWith_iff.1 h).symm.trans (initialisedWith_iff.1 h'))
    exact hunique.forall₂ hwritten (List.forall₂_map_right_iff.2 (hmembers.imp fun _ _ h => h.initialisedWith))
  have hnames : e.members.map EnumEntry.name = ws.map WrittenMember.name := by
    have hunique : Relator.RightUnique fun m name => env.checker.symbolName m = .ok name := fun m name name' h h' =>
      Except.ok.inj (h.symm.trans h')
    exact hunique.forall₂ (List.forall₂_map_right_iff.2 (hentries.imp fun _ _ h => h.1))
      (List.forall₂_map_right_iff.2 (hmembers.imp fun _ _ h => h.name))
  subst hown
  refine ⟨ms, ws, hms, hmembers, hnames, fun i w entry v hw hi hv => ?_⟩
  obtain ⟨a, ha, -⟩ := exists_getElem?_of_forall₂ hmembers.flip hw
  obtain ⟨entry', hi', -, hr⟩ := exists_getElem?_of_forall₂ hentries ha
  obtain rfl := Option.some.inj (hi.symm.trans hi')
  obtain ⟨x, hx, rfl⟩ := literal_of_writes henv (hwrites i a w ha hw) hr hv
  rw [hfollows.value_eq [] hnames hw hi]
  exact WrittenMember.tellsValue _ w hx

/-- **The types of enum members tell their values**, whatever was asked before and in every project, unless members are
counted on from computed numbers: those have their names for types. -/
theorem literal_types_tell_values (hbuild : Program.build steps = .ok p) (hproper : BuildStep.areProper {} steps = true)
    (henv : env.checker = p.checker) :
    (∀ requests, env.TypesTellValues (env.after {} requests)) ∧
    ∀ files project, env.assemble files = .ok project →
      project.graph = (env.assembly files).graph ∧ env.TypesTellValues (env.assembly files) := by
  refine ⟨typesTellValues_after hbuild hproper henv, fun files project h => ⟨assemble_graph h, ?_⟩⟩
  obtain ⟨requests, hsession⟩ := exists_after_assembly h
  rw [hsession]
  exact typesTellValues_after hbuild hproper henv requests

/-! ### A computed number -/

/-- An enum that goes on behind a computed number, and from a literal again. -/
def shiftedEnum : List BuildStep := [
  .addModule "a.ts",
  .enumeration (.file ⟨0⟩) "" "Flags" false,
  .enumMember ⟨1⟩ "" "shifted" (some "1 << 2"),
  .setConstantValue ⟨2⟩ (.number (.ofInt 4)),
  .enumMember ⟨1⟩ "" "next" none,
  .enumMember ⟨1⟩ "" "seven" (some "7"),
  .enumMember ⟨1⟩ "" "eight" none]

/-- What is documented of it: the values of its members beside their types. -/
theorem exists_shiftedEnum : ∃ p project e, Program.build shiftedEnum = .ok p ∧
    (p.environment {}).assemble [⟨0⟩] = .ok project ∧ ((p.environment {}).assembly [⟨0⟩]).enumOf? ⟨1⟩ = some e ∧
    ((p.environment {}).assembly [⟨0⟩]).typedValues e = [
      (.number (.ofInt 4), some (.number (.ofInt 4))),
      (.number (.ofInt 5), some (.text "next")),
      (.number (.ofInt 7), some (.number (.ofInt 7))),
      (.number (.ofInt 8), some (.number (.ofInt 8)))] := by
  have hrun : (do
      let p ← Program.build shiftedEnum
      let _ ← (p.environment {}).assemble [⟨0⟩]
      let s := (p.environment {}).assembly [⟨0⟩]
      return (s.enumOf? ⟨1⟩).map s.typedValues) = .ok (some [
        (.number (.ofInt 4), some (.number (.ofInt 4))),
        (.number (.ofInt 5), some (.text "next")),
        (.number (.ofInt 7), some (.number (.ofInt 7))),
        (.number (.ofInt 8), some (.number (.ofInt 8)))]) := by decide +kernel
  obtain ⟨p, hbuild, hrun⟩ := bind_eq_ok_iff.1 hrun
  obtain ⟨project, h, hrun⟩ := bind_eq_ok_iff.1 hrun
  obtain ⟨e, he, hvalues⟩ := Option.map_eq_some_iff.1 (Except.ok.inj hrun)
  exact ⟨p, project, e, hbuild, h, he, hvalues⟩

/-- All members but the one that is counted on from the computed number have the types of their values. -/
theorem literal_types_tell_values_shifted : ∃ p project e, Program.build shiftedEnum = .ok p ∧
    (p.environment {}).assemble [⟨0⟩] = .ok project ∧
    (p.environment {}).TypesTellValues ((p.environment {}).assembly [⟨0⟩]) ∧
    ((p.environment {}).assembly [⟨0⟩]).enumOf? ⟨1⟩ = some e ∧
    (((p.environment {}).assembly [⟨0⟩]).typedValues e).map (fun entry => decide (entry.2 = some entry.1.literal)) =
      [true, false, true, true] := by
  obtain ⟨p, project, e, hbuild, h, he, hvalues⟩ := exists_shiftedEnum
  have henv : (p.environment {}).checker = p.checker := rfl
  obtain ⟨-, hproject⟩ := literal_types_tell_values hbuild (by decide +kernel) henv
  exact ⟨p, project, e, hbuild, h, (hproject _ _ h).2, he, by rw [hvalues]; decide +kernel⟩

/-- The types of members do not always tell their values, even if values are told of computed initialisers only. -/
theorem literal_type_unlike_value : EnumValue.parse? "1 << 2" = none ∧ ∃ p project e entry v,
    Program.build shiftedEnum = .ok p ∧ (p.environment {}).assemble [⟨0⟩] = .ok project ∧
    ((p.environment {}).assembly [⟨0⟩]).enumOf? ⟨1⟩ = some e ∧ entry ∈ e.members ∧
    ((p.environment {}).assembly [⟨0⟩]).literalAt? entry.member = some v ∧ v ≠ entry.value.literal := by
  refine ⟨by decide +kernel, ?_⟩
  obtain ⟨p, project, e, hbuild, h, he, hvalues⟩ := exists_shiftedEnum
  obtain ⟨entry, hentry, hsame⟩ := List.mem_map.1 (hvalues ▸ List.mem_cons_of_mem _ List.mem_cons_self)
  obtain ⟨hvalue, hliteral⟩ := Prod.mk.inj hsame
  refine ⟨p, project, e, entry, _, hbuild, h, he, hentry, hliteral, ?_⟩
  rw [hvalue]
  exact nofun

end Environment

end ApiDoc
