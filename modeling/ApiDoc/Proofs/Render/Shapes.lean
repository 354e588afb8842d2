import Mathlib.Logic.Relation
import ApiDoc.Proofs.Render.Texts

/-!
# Types that are finite trees

The text of a type is made of the texts of the types that its node displays (`Graph.Displays`).  A `Shape` is
a type without references: built-in types, type parameters by name, and what is made of them by arrays,
tuples, `keyof`, indexed accesses, conditional types, unions and intersections of two or more.

A type of a graph that unfolds to a shape (`Graph.HasShape`) does not lie inside itself, and its text is that
of the shape (`Graph.HasShape.typeText`).
-/

namespace ApiDoc

open Relation

/-! ### What a text is made of -/

/-- The types that the text of a type parameter is made of. -/
def TypeParameter.displayed (p : TypeParameter) : List TypeRef := p.constraint.toList ++ p.default.toList

/-- The types that the text of a signature is made of. -/
def Signature.displayed (s : Signature) : List TypeRef :=
  s.typeParameters.flatMap TypeParameter.displayed ++ s.thisType.toList ++ s.parameters.map Parameter.type ++
    [s.returnType]

/-- The types that the text of a member of an object type is made of. -/
def Member.displayed (m : Member) : List TypeRef :=
  match m.body with
  | .field f => [f.type]
  | .method m => m.signature.displayed
  | _ => []

/-- The types that the text of a node is made of. -/
def TypeNode.displayed (g : Graph) : TypeNode → List TypeRef
  | .function s => s.displayed
  | .object members => members.flatMap fun r =>
    match g.member r with
    | .ok m => m.displayed
    | .error _ => []
  | node => node.children

namespace Graph

variable {g : Graph}

/-- The text of one type is made of that of the other, among others. -/
def Displays (g : Graph) (r a : TypeRef) : Prop := ∃ node, g.type r = .ok node ∧ a ∈ node.displayed g

/-- None of the types that the text of `r` is made of, down to the leaves, lies inside itself. -/
def IsAcyclic (g : Graph) (r : TypeRef) : Prop :=
  ∀ a, ReflTransGen g.Displays r a → ¬ TransGen g.Displays a a

/-- The types of `path` are around `r`. -/
def Encloses (g : Graph) (path : List TypeRef) (r : TypeRef) : Prop := ∀ p ∈ path, TransGen g.Displays p r

theorem Encloses.nil (r : TypeRef) : g.Encloses [] r := by simp [Encloses]

theorem Encloses.cons {path : List TypeRef} {r a : TypeRef} (h : g.Encloses path r) (ha : g.Displays r a) :
    g.Encloses (r :: path) a := by
  rintro p (_ | ⟨_, hp⟩)
  · exact .single ha
  · exact (h p hp).tail ha

theorem Encloses.not_mem {path : List TypeRef} {r : TypeRef} (h : g.Encloses path r)
    (hr : ¬ TransGen g.Displays r r) : r ∉ path :=
  fun hmem => hr (h r hmem)

theorem IsAcyclic.self {r : TypeRef} (h : g.IsAcyclic r) : ¬ TransGen g.Displays r r := h r .refl

theorem IsAcyclic.of_displays {r a : TypeRef} (h : g.IsAcyclic r) (ha : g.Displays r a) : g.IsAcyclic a :=
  fun b hb => h b (.head ha hb)

theorem HasType.of_type_eq_ok {r : TypeRef} {node : TypeNode} (h : g.type r = .ok node) : g.HasType r := by
  have hget := type_eq_ok_iff.1 h
  by_contra hr
  rw [Arena.get?_eq_none_iff.2 (Nat.le_of_not_lt hr)] at hget
  exact nomatch hget

theorem HasMember.of_member_eq_ok {r : MemberRef} {m : Member} (h : g.member r = .ok m) : g.HasMember r := by
  have hget := member_eq_ok_iff.1 h
  by_contra hr
  rw [Arena.get?_eq_none_iff.2 (Nat.le_of_not_lt hr)] at hget
  exact nomatch hget

end Graph

/-- What is written of a type that is not open: its node, with its parts written inside it. -/
theorem guardedText_of_not_mem {g : Graph} {fuel : Nat} {path : List TypeRef} {r : TypeRef} {node : TypeNode}
    (hr : r ∉ path) (hnode : g.type r = .ok node) :
    (guardedText g (fuel + 1) r).result path = ((typeParts g fuel).within (r :: path)).nodeText g node := by
  rw [guardedText_succ, if_neg (by simpa using hr), hnode]
  rfl

/-- What is written of an operand that is not open: the type, in parentheses if its node is loose. -/
theorem operandText_of_not_mem {g : Graph} {fuel : Nat} {path : List TypeRef} {r : TypeRef} {node : TypeNode}
    (hr : r ∉ path) (hnode : g.type r = .ok node) :
    ((typeParts g fuel).within path).operand r =
      if node.isLoose then return "(" ++ (← (guardedText g fuel r).result path) ++ ")"
      else (guardedText g fuel r).result path := by
  show (operandText g (guardedText g fuel) r).result path = _
  rw [(operandText_gives (fun r => (typeParts_steady g fuel path).type r) r).result, hnode]
  simp [bind, Except.bind, hr]

/-! ### Shapes -/

/-- Whether a character stands between the names of a text. -/
def isMark (c : Char) : Bool := " []()|&?:,".toList.contains c

/-- A name without any of the characters that stand between names, and which is no keyword of a built-in
type.  Every identifier but those keywords is one. -/
structure PlainName where
  /-- The name. -/
  text : String
  /-- There is a name. -/
  nonempty : text ≠ ""
  /-- It ends where a mark stands. -/
  unmarked : ∀ c ∈ text.toList, isMark c = false
  /-- It is no keyword. -/
  free : NativeType.ofName? text = none

/-- A type without references. -/
inductive Shape where
  /-- A built-in type. -/
  | native (type : NativeType)
  /-- A type parameter. -/
  | parameter (name : PlainName)
  /-- An array. -/
  | array (element : Shape)
  /-- A tuple. -/
  | tuple (elements : List Shape)
  /-- The names of a type's properties. -/
  | keyOf (operand : Shape)
  /-- The type of a property, by the type of its name. -/
  | indexedAccess (operand argument : Shape)
  /-- A choice between two types by a test on a third. -/
  | conditional (check bound whenTrue whenFalse : Shape)
  /-- A union of two or more types. -/
  | union (first second : Shape) (others : List Shape)
  /-- An intersection of two or more types. -/
  | intersection (first second : Shape) (others : List Shape)

namespace Shape

/-- Whether a shape stands in parentheses as an operand. -/
def isLoose : Shape → Bool
  | union .. | intersection .. | conditional .. => true
  | _ => false

/-- A text in parentheses if need be. -/
def enclose (loose : Bool) (text : List Char) : List Char := if loose then '(' :: text ++ [')'] else text

mutual

/-- The text of a shape. -/
def letters : Shape → List Char
  | native t => t.name.toList
  | parameter name => name.text.toList
  | array element => enclose element.isLoose element.letters ++ "[]".toList
  | tuple elements => '[' :: ", ".toList.intercalate (eachLetters elements) ++ [']']
  | keyOf operand => "keyof ".toList ++ enclose operand.isLoose operand.letters
  | indexedAccess operand argument =>
    enclose operand.isLoose operand.letters ++ '[' :: argument.letters ++ [']']
  | conditional check bound whenTrue whenFalse =>
    enclose check.isLoose check.letters ++ " extends ".toList ++ enclose bound.isLoose bound.letters ++
      " ? ".toList ++ whenTrue.letters ++ " : ".toList ++ whenFalse.letters
  | union first second others =>
    " | ".toList.intercalate (enclose first.isLoose first.letters ::
      enclose second.isLoose second.letters :: eachOperand others)
  | intersection first second others =>
    " & ".toList.intercalate (enclose first.isLoose first.letters ::
      enclose second.isLoose second.letters :: eachOperand others)

/-- The texts of shapes. -/
def eachLetters : List Shape → List (List Char)
  | [] => []
  | s :: shapes => s.letters :: eachLetters shapes

/-- The texts of shapes as operands. -/
def eachOperand : List Shape → List (List Char)
  | [] => []
  | s :: shapes => enclose s.isLoose s.letters :: eachOperand shapes

end

theorem lt_indexedAccess {operand argument : Shape} :
    sizeOf operand < sizeOf (indexedAccess operand argument) ∧
      sizeOf argument < sizeOf (indexedAccess operand argument) := by
  rw [indexedAccess.sizeOf_spec]
  omega

theorem lt_conditional {check bound whenTrue whenFalse : Shape} :
    sizeOf check < sizeOf (conditional check bound whenTrue whenFalse) ∧
      sizeOf bound < sizeOf (conditional check bound whenTrue whenFalse) ∧
      sizeOf whenTrue < sizeOf (conditional check bound whenTrue whenFalse) ∧
      sizeOf whenFalse < sizeOf (conditional check bound whenTrue whenFalse) := by
  rw [conditional.sizeOf_spec]
  omega

/-- The text of a shape as the operand of another. -/
def operandLetters (s : Shape) : List Char := enclose s.isLoose s.letters

/-! The text of a shape by its parts.  Making the equations of `letters` spells out the keywords letter by letter, which
takes long. -/

theorem letters_array (element : Shape) : (array element).letters = element.operandLetters ++ "[]".toList := rfl

theorem letters_tuple (elements : List Shape) :
    (tuple elements).letters = '[' :: ", ".toList.intercalate (eachLetters elements) ++ [']'] := rfl

theorem letters_keyOf (operand : Shape) : (keyOf operand).letters = "keyof ".toList ++ operand.operandLetters := by
  rw [operandLetters]
  delta letters
  rfl

theorem letters_indexedAccess (operand argument : Shape) :
    (indexedAccess operand argument).letters = operand.operandLetters ++ '[' :: argument.letters ++ [']'] := rfl

theorem letters_conditional (check bound whenTrue whenFalse : Shape) :
    (conditional check bound whenTrue whenFalse).letters =
      check.operandLetters ++ " extends ".toList ++ bound.operandLetters ++ " ? ".toList ++ whenTrue.letters ++
        " : ".toList ++ whenFalse.letters := rfl

theorem letters_union (first second : Shape) (others : List Shape) :
    (union first second others).letters =
      " | ".toList.intercalate (eachOperand (first :: second :: others)) := rfl

theorem letters_intersection (first second : Shape) (others : List Shape) :
    (intersection first second others).letters =
      " & ".toList.intercalate (eachOperand (first :: second :: others)) := rfl

theorem eachLetters_eq_map (shapes : List Shape) : eachLetters shapes = shapes.map letters := by
  induction shapes with
  | nil => rfl
  | cons s shapes ih => simp [eachLetters, ih]

theorem eachOperand_eq_map (shapes : List Shape) : eachOperand shapes = shapes.map operandLetters := by
  induction shapes with
  | nil => rfl
  | cons s shapes ih => simp [eachOperand, operandLetters, ih]

end Shape

/-! ### Shapes of the types of a graph -/

namespace Graph

mutual

/-- A type of a graph unfolds to a shape. -/
def HasShape (g : Graph) (r : TypeRef) : Shape → Prop
  | .native t => g.type r = .ok (.native t)
  | .parameter name => ∃ owner, g.type r = .ok (.parameter name.text owner)
  | .array element => ∃ e, g.type r = .ok (.array e) ∧ HasShape g e element
  | .tuple elements => ∃ es, g.type r = .ok (.tuple es) ∧ HaveShapes g es elements
  | .keyOf operand => ∃ o, g.type r = .ok (.unary .keyOf o) ∧ HasShape g o operand
  | .indexedAccess operand argument =>
    ∃ o a, g.type r = .ok (.indexedAccess o a) ∧ HasShape g o operand ∧ HasShape g a argument
  | .conditional check bound whenTrue whenFalse =>
    ∃ c b t f, g.type r = .ok (.conditional c b t f) ∧ HasShape g c check ∧ HasShape g b bound ∧
      HasShape g t whenTrue ∧ HasShape g f whenFalse
  | .union first second others =>
    ∃ a b rs, g.type r = .ok (.union (a :: b :: rs)) ∧ HasShape g a first ∧ HasShape g b second ∧
      HaveShapes g rs others
  | .intersection first second others =>
    ∃ a b rs, g.type r = .ok (.intersection (a :: b :: rs)) ∧ HasShape g a first ∧ HasShape g b second ∧
      HaveShapes g rs others

/-- Types of a graph unfold to shapes, one by one. -/
def HaveShapes (g : Graph) : List TypeRef → List Shape → Prop
  | rs, [] => rs = []
  | rs, s :: shapes => ∃ a as, rs = a :: as ∧ HasShape g a s ∧ HaveShapes g as shapes

end

variable {g : Graph}

theorem HaveShapes.exists_of_mem {rs : List TypeRef} {shapes : List Shape} (h : g.HaveShapes rs shapes)
    {a : TypeRef} (ha : a ∈ rs) : ∃ s ∈ shapes, g.HasShape a s := by
  induction shapes generalizing rs with
  | nil =>
    obtain rfl : rs = [] := by simpa [HaveShapes] using h
    exact nomatch ha
  | cons s shapes ih =>
    obtain ⟨b, rs, rfl, hb, hrs⟩ : ∃ b bs, rs = b :: bs ∧ g.HasShape b s ∧ g.HaveShapes bs shapes := by
      simpa [HaveShapes] using h
    rcases List.mem_cons.1 ha with rfl | ha
    · exact ⟨s, by simp, hb⟩
    · obtain ⟨s', hs', h'⟩ := ih hrs ha
      exact ⟨s', by simp [hs'], h'⟩

/-- What a type with a shape displays has a smaller one. -/
theorem HasShape.of_displays {r a : TypeRef} {s : Shape} (h : g.HasShape r s) (ha : g.Displays r a) :
    ∃ s', g.HasShape a s' ∧ sizeOf s' < sizeOf s := by
  obtain ⟨node, hnode, hmem⟩ := ha
  cases s with
  | native t =>
    obtain rfl : node = .native t := by simpa [HasShape, hnode] using h
    exact nomatch hmem
  | parameter name =>
    obtain ⟨owner, rfl⟩ : ∃ owner, node = .parameter name.text owner := by simpa [HasShape, hnode] using h
    exact nomatch hmem
  | array element =>
    obtain ⟨e, rfl, he⟩ : ∃ e, node = .array e ∧ g.HasShape e element := by simpa [HasShape, hnode] using h
    obtain rfl : a = e := by simpa [TypeNode.displayed, TypeNode.children] using hmem
    exact ⟨element, he, by simp⟩
  | tuple elements =>
    obtain ⟨es, rfl, hes⟩ : ∃ es, node = .tuple es ∧ g.HaveShapes es elements := by
      simpa [HasShape, hnode] using h
    obtain ⟨s', hs', h'⟩ := hes.exists_of_mem hmem
    have := List.sizeOf_lt_of_mem hs'
    exact ⟨s', h', by simp; omega⟩
  | keyOf operand =>
    obtain ⟨o, rfl, ho⟩ : ∃ o, node = .unary .keyOf o ∧ g.HasShape o operand := by
      simpa [HasShape, hnode] using h
    obtain rfl : a = o := by simpa [TypeNode.displayed, TypeNode.children] using hmem
    exact ⟨operand, ho, by simp⟩
  | indexedAccess operand argument =>
    obtain ⟨o, i, hnode', ho, hi⟩ := h
    obtain rfl : node = .indexedAccess o i := by simpa [hnode] using hnode'
    obtain rfl | rfl : a = o ∨ a = i := by simpa [TypeNode.displayed, TypeNode.children] using hmem
    · exact ⟨operand, ho, Shape.lt_indexedAccess.1⟩
    · exact ⟨argument, hi, Shape.lt_indexedAccess.2⟩
  | conditional check bound whenTrue whenFalse =>
    obtain ⟨c, b, t, f, hnode', hc, hb, ht, hf⟩ := h
    obtain rfl : node = .conditional c b t f := by simpa [hnode] using hnode'
    obtain rfl | rfl | rfl | rfl : a = c ∨ a = b ∨ a = t ∨ a = f := by
      simpa [TypeNode.displayed, TypeNode.children] using hmem
    · exact ⟨check, hc, Shape.lt_conditional.1⟩
    · exact ⟨bound, hb, Shape.lt_conditional.2.1⟩
    · exact ⟨whenTrue, ht, Shape.lt_conditional.2.2.1⟩
    · exact ⟨whenFalse, hf, Shape.lt_conditional.2.2.2⟩
  | union first second others | intersection first second others =>
    obtain ⟨b, c, rs, hnode', hb, hc, hrs⟩ := h
    obtain rfl : node = _ := by simpa [hnode] using hnode'
    obtain rfl | rfl | hmem : a = b ∨ a = c ∨ a ∈ rs := by
      simpa [TypeNode.displayed, TypeNode.children] using hmem
    · exact ⟨first, hb, by simp; omega⟩
    · exact ⟨second, hc, by simp; omega⟩
    · obtain ⟨s', hs', h'⟩ := hrs.exists_of_mem hmem
      have := List.sizeOf_lt_of_mem hs'
      exact ⟨s', h', by simp; omega⟩

theorem HasShape.of_inside {r a : TypeRef} {s : Shape} (h : g.HasShape r s) (ha : TransGen g.Displays r a) :
    ∃ s', g.HasShape a s' ∧ sizeOf s' < sizeOf s := by
  induction ha with
  | single ha => exact h.of_displays ha
  | tail _ ha ih =>
    obtain ⟨s', hs', hlt⟩ := ih
    obtain ⟨s'', hs'', hlt'⟩ := hs'.of_displays ha
    exact ⟨s'', hs'', hlt'.trans hlt⟩

/-- A type with a shape does not lie inside itself. -/
theorem HasShape.not_inside {r : TypeRef} {s : Shape} (h : g.HasShape r s) : ¬ TransGen g.Displays r r := by
  intro hr
  obtain ⟨s', hs', hlt⟩ := h.of_inside hr
  exact hs'.not_inside hr
termination_by sizeOf s

theorem HasShape.exists_type {r : TypeRef} {s : Shape} (h : g.HasShape r s) :
    ∃ node, g.type r = .ok node ∧ node.isLoose = s.isLoose := by
  cases s with
  | native t => exact ⟨_, h, rfl⟩
  | parameter _ | array _ | tuple _ | keyOf _ =>
    obtain ⟨_, hnode⟩ := h
    first | exact ⟨_, hnode, rfl⟩ | exact ⟨_, hnode.1, rfl⟩
  | indexedAccess _ _ =>
    obtain ⟨_, _, hnode, -⟩ := h
    exact ⟨_, hnode, rfl⟩
  | conditional _ _ _ _ =>
    obtain ⟨_, _, _, _, hnode, -⟩ := h
    exact ⟨_, hnode, rfl⟩
  | union _ _ _ | intersection _ _ _ =>
    obtain ⟨_, _, _, hnode, -⟩ := h
    exact ⟨_, hnode, rfl⟩

/-- Texts of types with shapes, one by one. -/
theorem HaveShapes.mapM {rs : List TypeRef} {shapes : List Shape} (h : g.HaveShapes rs shapes)
    {write : TypeRef → Except Error String} {letters : Shape → List Char}
    (hwrite : ∀ a s, a ∈ rs → s ∈ shapes → g.HasShape a s →
      Meets (fun _ => False) (write a) (·.toList = letters s)) :
    Meets (fun _ => False) (rs.mapM write) (·.map String.toList = shapes.map letters) := by
  induction shapes generalizing rs with
  | nil =>
    obtain rfl : rs = [] := by simpa [HaveShapes] using h
    exact .pure rfl
  | cons s shapes ih =>
    obtain ⟨a, as, rfl, ha, has⟩ : ∃ a as, rs = a :: as ∧ g.HasShape a s ∧ g.HaveShapes as shapes := by
      simpa [HaveShapes] using h
    rw [List.mapM_cons]
    refine (hwrite a s (by simp) (by simp) ha).bind fun text _ htext => ?_
    refine (ih has fun b t hb ht => hwrite b t (by simp [hb]) (by simp [ht])).map fun texts _ htexts => ?_
    simp [htext, htexts]

/-- An operand is written like the type, in parentheses if its shape is loose. -/
theorem HasShape.operand {fuel : Nat} {path : List TypeRef} {r : TypeRef} {s : Shape} (h : g.HasShape r s)
    (hr : r ∉ path)
    (htype : Meets (fun _ => False) (((typeParts g fuel).within path).type r) (·.toList = s.letters)) :
    Meets (fun _ => False) (((typeParts g fuel).within path).operand r) (·.toList = s.operandLetters) := by
  obtain ⟨node, hnode, hloose⟩ := h.exists_type
  rw [operandText_of_not_mem hr hnode, hloose]
  refine .ite (fun hs => htype.map fun text _ htext => ?_) fun hs => htype.mono fun text _ htext => ?_
  · simp [Shape.operandLetters, Shape.enclose, hs, htext]
  · simp [Shape.operandLetters, Shape.enclose, hs, htext]

/-- A node is written as its shape if its parts are. -/
theorem HasShape.nodeText {w : TypeWriter (Except Error)} {r : TypeRef} {node : TypeNode} {s : Shape}
    (h : g.HasShape r s) (hnode : g.type r = .ok node)
    (htype : ∀ a s', g.Displays r a → g.HasShape a s' → sizeOf s' < sizeOf s →
      Meets (fun _ => False) (w.type a) (·.toList = s'.letters))
    (hoperand : ∀ a s', g.Displays r a → g.HasShape a s' → sizeOf s' < sizeOf s →
      Meets (fun _ => False) (w.operand a) (·.toList = s'.operandLetters)) :
    Meets (fun _ => False) (w.nodeText g node) (·.toList = s.letters) := by
  have displays {a : TypeRef} (ha : a ∈ node.displayed g) : g.Displays r a := ⟨node, hnode, ha⟩
  cases s with
  | native t =>
    obtain rfl : node = .native t := by simpa [HasShape, hnode] using h
    exact .pure rfl
  | parameter name =>
    obtain ⟨owner, rfl⟩ : ∃ owner, node = .parameter name.text owner := by simpa [HasShape, hnode] using h
    exact .pure rfl
  | array element =>
    obtain ⟨e, rfl, he⟩ : ∃ e, node = .array e ∧ g.HasShape e element := by simpa [HasShape, hnode] using h
    refine (hoperand e element (displays ?_) he (by simp)).map fun text _ htext => ?_
    · simp [TypeNode.displayed, TypeNode.children]
    · simp [Shape.letters_array, htext]
  | tuple elements =>
    obtain ⟨es, rfl, hes⟩ : ∃ es, node = .tuple es ∧ g.HaveShapes es elements := by
      simpa [HasShape, hnode] using h
    have heach (a : TypeRef) (s' : Shape) (ha : a ∈ es) (hs' : s' ∈ elements) (h' : g.HasShape a s') :=
      htype a s' (displays ha) h' (by
        have := List.sizeOf_lt_of_mem hs'
        simp
        omega)
    refine (hes.mapM heach).map fun texts _ htexts => ?_
    simp [Shape.letters_tuple, TypeWriter.join, htexts, Shape.eachLetters_eq_map]
  | keyOf operand =>
    obtain ⟨o, rfl, ho⟩ : ∃ o, node = .unary .keyOf o ∧ g.HasShape o operand := by
      simpa [HasShape, hnode] using h
    refine (hoperand o operand (displays ?_) ho (by simp)).map fun text _ htext => ?_
    · simp [TypeNode.displayed, TypeNode.children]
    · simp [Shape.letters_keyOf, htext, TypeOperator.keyword]
  | indexedAccess operand argument =>
    obtain ⟨o, i, hnode', ho, hi⟩ := h
    obtain rfl : node = .indexedAccess o i := by simpa [hnode] using hnode'
    have hmem {a : TypeRef} (ha : a ∈ [o, i]) : g.Displays r a := displays ha
    refine (hoperand o operand (hmem (by simp)) ho Shape.lt_indexedAccess.1).bind fun text _ htext => ?_
    refine (htype i argument (hmem (by simp)) hi Shape.lt_indexedAccess.2).map fun text' _ htext' => ?_
    simp [Shape.letters_indexedAccess, htext, htext']
  | conditional check bound whenTrue whenFalse =>
    obtain ⟨c, b, t, f, hnode', hc, hb, ht, hf⟩ := h
    obtain rfl : node = .conditional c b t f := by simpa [hnode] using hnode'
    have hmem {a : TypeRef} (ha : a ∈ [c, b, t, f]) : g.Displays r a := displays ha
    refine (hoperand c check (hmem (by simp)) hc Shape.lt_conditional.1).bind fun textC _ hC => ?_
    refine (hoperand b bound (hmem (by simp)) hb Shape.lt_conditional.2.1).bind fun textB _ hB => ?_
    refine (htype t whenTrue (hmem (by simp)) ht Shape.lt_conditional.2.2.1).bind fun textT _ hT => ?_
    refine (htype f whenFalse (hmem (by simp)) hf Shape.lt_conditional.2.2.2).map fun textF _ hF => ?_
    simp [Shape.letters_conditional, hC, hB, hT, hF]
  | union first second others | intersection first second others =>
    obtain ⟨a, b, rs, hnode', ha, hb, hrs⟩ := h
    obtain rfl : node = _ := by simpa [hnode] using hnode'
    have hmem {c : TypeRef} (hc : c ∈ a :: b :: rs) : g.Displays r c := displays hc
    have hshapes : g.HaveShapes (a :: b :: rs) (first :: second :: others) := by
      simp [HaveShapes, ha, hb, hrs]
    have heach (c : TypeRef) (s' : Shape) (hc : c ∈ a :: b :: rs) (hs' : s' ∈ first :: second :: others)
        (h' : g.HasShape c s') := hoperand c s' (hmem hc) h' (by
      obtain rfl | rfl | hs' : s' = first ∨ s' = second ∨ s' ∈ others := by simpa using hs'
      · simp; omega
      · simp; omega
      · have := List.sizeOf_lt_of_mem hs'
        simp
        omega)
    refine (hshapes.mapM heach).map fun texts _ htexts => ?_
    simp [Shape.letters_union, Shape.letters_intersection, TypeWriter.join, htexts, Shape.eachOperand_eq_map]

/-- With any enclosing types open, and enough depth for those that are not, the text of a type with a shape
is that of the shape. -/
theorem HasShape.guardedText {fuel : Nat} {path : List TypeRef} {r : TypeRef} {s : Shape} (h : g.HasShape r s)
    (hpath : g.Encloses path r) (hfuel : g.typesLeft path < fuel) :
    Meets (fun _ => False) ((guardedText g fuel r).result path) (·.toList = s.letters) := by
  obtain ⟨node, hnode, -⟩ := h.exists_type
  have hr := hpath.not_mem h.not_inside
  have hlt := typesLeft_lt (.of_type_eq_ok hnode) hr
  cases fuel with
  | zero => exact absurd hfuel (Nat.not_lt_zero _)
  | succ fuel =>
    rw [guardedText_of_not_mem hr hnode]
    have htype (a : TypeRef) (s' : Shape) (ha : g.Displays r a) (hs' : g.HasShape a s')
        (hsize : sizeOf s' < sizeOf s) :
        Meets (fun _ => False) ((ApiDoc.guardedText g fuel a).result (r :: path)) (·.toList = s'.letters) :=
      hs'.guardedText (hpath.cons ha) (by omega)
    refine h.nodeText hnode htype fun a s' ha hs' hsize => ?_
    exact hs'.operand ((hpath.cons ha).not_mem hs'.not_inside) (htype a s' ha hs' hsize)
termination_by sizeOf s

/-- The text of a type with a shape is that of the shape. -/
theorem HasShape.typeText {r : TypeRef} {s : Shape} (h : g.HasShape r s) :
    ApiDoc.typeText g r = .ok (String.ofList s.letters) := by
  have hfuel : g.typesLeft [] < g.types.size + 2 := by
    have := g.typesLeft_le []
    omega
  obtain ⟨text, htext, hletters⟩ := (h.guardedText (Encloses.nil r) hfuel).exists_ok
  rw [← hletters, String.ofList_toList]
  exact htext

end Graph

end ApiDoc
