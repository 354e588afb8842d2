import ApiDoc.Proofs.Render.Shapes

/-!
# Operators out of operands

An operator that is the operand of an array or of an indexed access is written without parentheses, so
`keyof T[]` is written both of the names of the properties of an array and of an array of such names.
`Shape.settled` moves each such operator in front of the whole.  The text stays the same
(`Shape.letters_settled`), and a shape without such operators is settled (`Shape.settled_of_isClear`).
-/

namespace ApiDoc

namespace Shape

/-- A shape with something done to it beneath the operators in front of it. -/
def beneath (f : Shape → Shape) : Shape → Shape
  | keyOf operand => keyOf (operand.beneath f)
  | s => f s

mutual

/-- A shape with no operator directly in the operand of an array or of an indexed access: each of them is
moved in front of the whole. -/
def settled : Shape → Shape
  | native t => native t
  | parameter name => parameter name
  | array element => element.settled.beneath array
  | tuple elements => tuple (eachSettled elements)
  | keyOf operand => keyOf operand.settled
  | indexedAccess operand argument => operand.settled.beneath (indexedAccess · argument.settled)
  | conditional check bound whenTrue whenFalse =>
    conditional check.settled bound.settled whenTrue.settled whenFalse.settled
  | union first second others => union first.settled second.settled (eachSettled others)
  | intersection first second others => intersection first.settled second.settled (eachSettled others)

/-- Shapes, settled one by one. -/
def eachSettled : List Shape → List Shape
  | [] => []
  | s :: shapes => s.settled :: eachSettled shapes

end

/-- Whether a shape is an operator with its operand. -/
def isKeyOf : Shape → Bool
  | keyOf _ => true
  | _ => false

mutual

/-- Whether no operator is directly the operand of an array or of an indexed access. -/
def isClear : Shape → Bool
  | native _ | parameter _ => true
  | array element => !element.isKeyOf && element.isClear
  | tuple elements => areClear elements
  | keyOf operand => operand.isClear
  | indexedAccess operand argument => !operand.isKeyOf && operand.isClear && argument.isClear
  | conditional check bound whenTrue whenFalse =>
    check.isClear && bound.isClear && whenTrue.isClear && whenFalse.isClear
  | union first second others | intersection first second others =>
    first.isClear && second.isClear && areClear others

/-- Whether all of the shapes are clear. -/
def areClear : List Shape → Bool
  | [] => true
  | s :: shapes => s.isClear && areClear shapes

end

theorem beneath_of_isKeyOf_eq_false {f : Shape → Shape} {s : Shape} (h : s.isKeyOf = false) :
    s.beneath f = f s := by
  cases s <;> simp_all [isKeyOf, beneath]

mutual

/-- A clear shape is settled. -/
theorem settled_of_isClear : ∀ {s : Shape}, s.isClear = true → s.settled = s
  | native _, _ | parameter _, _ => rfl
  | array element, h => by
    simp only [isClear, Bool.and_eq_true, Bool.not_eq_true'] at h
    rw [settled, settled_of_isClear h.2, beneath_of_isKeyOf_eq_false h.1]
  | tuple elements, h => by rw [settled, eachSettled_of_areClear h]
  | keyOf operand, h => congrArg keyOf (settled_of_isClear (s := operand) h)
  | indexedAccess operand argument, h => by
    simp only [isClear, Bool.and_eq_true, Bool.not_eq_true'] at h
    rw [settled, settled_of_isClear h.1.2, settled_of_isClear h.2, beneath_of_isKeyOf_eq_false h.1.1]
  | conditional check bound whenTrue whenFalse, h => by
    simp only [isClear, Bool.and_eq_true] at h
    rw [settled, settled_of_isClear h.1.1.1, settled_of_isClear h.1.1.2, settled_of_isClear h.1.2,
      settled_of_isClear h.2]
  | union first second others, h | intersection first second others, h => by
    simp only [isClear, Bool.and_eq_true] at h
    rw [settled, settled_of_isClear h.1.1, settled_of_isClear h.1.2, eachSettled_of_areClear h.2]

theorem eachSettled_of_areClear : ∀ {shapes : List Shape}, areClear shapes = true → eachSettled shapes = shapes
  | [], _ => rfl
  | s :: shapes, h => by
    simp only [areClear, Bool.and_eq_true] at h
    rw [eachSettled, settled_of_isClear h.1, eachSettled_of_areClear h.2]

end

theorem isLoose_beneath {f : Shape → Shape} (hf : ∀ s, (f s).isLoose = false) (s : Shape) :
    (s.beneath f).isLoose = false := by
  cases s with
  | keyOf operand => rfl
  | _ => exact hf _

theorem isLoose_settled (s : Shape) : s.settled.isLoose = s.isLoose := by
  cases s <;> simp only [settled] <;> first | rfl | exact isLoose_beneath (fun _ => rfl) _

theorem operandLetters_settled {s : Shape} (h : s.settled.letters = s.letters) :
    s.settled.operandLetters = s.operandLetters := by
  rw [operandLetters, isLoose_settled, h, ← operandLetters]

theorem operandLetters_of_isLoose_eq_false {s : Shape} (h : s.isLoose = false) :
    s.operandLetters = s.letters := by
  simp [operandLetters, enclose, h]

/-- What is written behind an operand may as well be written behind what the operators in front of it are
applied to. -/
theorem letters_beneath {f : Shape → Shape} (suffix : List Char) (hloose : ∀ s, (f s).isLoose = false)
    (hf : ∀ s, (f s).letters = s.operandLetters ++ suffix) (s : Shape) :
    (s.beneath f).letters = s.operandLetters ++ suffix := by
  fun_induction beneath f s with
  | case1 operand ih =>
    have htight := operandLetters_of_isLoose_eq_false (isLoose_beneath hloose operand)
    rw [letters_keyOf, htight, ih, operandLetters_of_isLoose_eq_false (s := keyOf operand) rfl, letters_keyOf,
      List.append_assoc]
  | case2 s _ => exact hf s

mutual

/-- Moving operators out of operands changes nothing in the text. -/
theorem letters_settled : ∀ s : Shape, s.settled.letters = s.letters
  | native _ | parameter _ => rfl
  | array element => by
    rw [settled, letters_beneath "[]".toList (fun _ => rfl) letters_array, letters_array,
      operandLetters_settled (letters_settled element)]
  | tuple elements => by rw [settled, letters_tuple, letters_tuple, eachLetters_settled elements]
  | keyOf operand => by rw [settled, letters_keyOf, letters_keyOf, operandLetters_settled (letters_settled operand)]
  | indexedAccess operand argument => by
    rw [settled, letters_beneath _ (fun _ => rfl) (fun s => by rw [letters_indexedAccess, List.append_assoc]),
      letters_indexedAccess, operandLetters_settled (letters_settled operand), letters_settled argument,
      List.append_assoc]
  | conditional check bound whenTrue whenFalse => by
    rw [settled, letters_conditional, letters_conditional, operandLetters_settled (letters_settled check),
      operandLetters_settled (letters_settled bound), letters_settled whenTrue, letters_settled whenFalse]
  | union first second others => by
    simp only [settled, letters_union, eachOperand, isLoose_settled, letters_settled, eachOperand_settled]
  | intersection first second others => by
    simp only [settled, letters_intersection, eachOperand, isLoose_settled, letters_settled, eachOperand_settled]

theorem eachLetters_settled : ∀ shapes : List Shape, eachLetters (eachSettled shapes) = eachLetters shapes
  | [] => rfl
  | s :: shapes => by rw [eachSettled, eachLetters, letters_settled s, eachLetters_settled shapes, eachLetters]

theorem eachOperand_settled : ∀ shapes : List Shape, eachOperand (eachSettled shapes) = eachOperand shapes
  | [] => rfl
  | s :: shapes => by
    rw [eachSettled, eachOperand, isLoose_settled, letters_settled s, eachOperand_settled shapes, eachOperand]

end

end Shape

end ApiDoc
