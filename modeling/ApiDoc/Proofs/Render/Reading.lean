import ApiDoc.Proofs.Render.Settled
import Mathlib.Order.Filter.AtTopBot.Basic

/-!
# Types read back from their texts

`readType` reads a type from the beginning of a text, down to a depth.  At any depth that is enough, what it reads
from the text of a shape is the shape, settled (`reads_readType_letters`).  A keyword that is also a name is told
apart by what follows it: `FollowsOperand` and `FollowsType` say what may stand behind an operand and behind a type.

So the texts of two types are the same exactly if their shapes are the same once settled
(`Graph.typeText_eq_iff`).
-/

namespace ApiDoc

/-! ### A reader of texts -/

/-- What is left of a text behind some characters that it begins with. -/
def expect : List Char → List Char → Option (List Char)
  | [], cs => some cs
  | c :: mark, d :: cs => if c = d then expect mark cs else none
  | _ :: _, [] => none

theorem expect_eq_some_iff {mark cs rest : List Char} : expect mark cs = some rest ↔ cs = mark ++ rest := by
  fun_induction expect mark cs <;> grind

@[simp]
theorem expect_append (mark cs : List Char) : expect mark (mark ++ cs) = some cs := expect_eq_some_iff.2 rfl

/-- The characters before the first mark. -/
def word (cs : List Char) : List Char := cs.takeWhile fun c => !isMark c

/-- What is left behind the characters before the first mark. -/
def afterWord (cs : List Char) : List Char := cs.dropWhile fun c => !isMark c

/-- What stands behind a word and a blank, if a text begins with them. -/
def behind? (keyword : String) (cs : List Char) : Option (List Char) :=
  if word cs = keyword.toList then expect [' '] (afterWord cs) else none

/-- Whether a text begins like an operand. -/
def opens : List Char → Bool
  | [] => false
  | c :: _ => !isMark c || c = '(' || c = '['

/-- Whether a text begins like an operand, but not with the word `extends` and something such that `p`
behind it. -/
def opensUnless (p : List Char → Bool) (cs : List Char) : Bool := opens cs && !(behind? "extends" cs).any p

/-- Whether behind `extends` a text goes on with the bound of a conditional type, so that `extends` is no
name. -/
def opensBound (cs : List Char) : Bool := opensUnless opens cs

/-- Whether behind `keyof` a text goes on with an operand, so that `keyof` is no name. -/
def opensOperand (cs : List Char) : Bool := opensUnless opensBound cs

/-- The operand of the operator that a text begins with, and all that follows. -/
def operator? (cs : List Char) : Option (List Char) := (behind? "keyof" cs).filter opensOperand

/-- The type parameter of a name. -/
def readName (name : List Char) : Option Shape :=
  let text := String.ofList name
  -- so that it is decided for the characters of the name, and not for all there are
  letI := List.decidableBAll (fun c => isMark c = false) text.toList
  if h : text ≠ "" ∧ (∀ c ∈ text.toList, isMark c = false) ∧ NativeType.ofName? text = none then
    some (.parameter ⟨text, h.1, h.2.1, h.2.2⟩)
  else none

/-- A built-in type or a type parameter by its name. -/
def readWord (cs : List Char) : Option (Shape × List Char) := do
  match (behind? "unique" cs).bind (expect "symbol".toList) with
  | some rest => return (.native .uniqueSymbol, rest)
  | none =>
    match NativeType.ofName? (String.ofList (word cs)) with
    | some t => return (.native t, afterWord cs)
    | none => return (← readName (word cs), afterWord cs)

mutual

/-- The type at the beginning of a text, where nothing can be mistaken, and what is left behind it. -/
def readType : Nat → List Char → Option (Shape × List Char)
  | 0, _ => none
  | depth + 1, cs => do
    let (first, rest) ← readOperand depth cs
    match rest with
    | ' ' :: '|' :: _ => do
      let (operands, rest) ← readOperands depth '|' rest
      match operands with
      | second :: others => return (.union first second others, rest)
      | [] => none
    | ' ' :: '&' :: _ => do
      let (operands, rest) ← readOperands depth '&' rest
      match operands with
      | second :: others => return (.intersection first second others, rest)
      | [] => none
    | ' ' :: more =>
      match behind? "extends" more with
      | none => return (first, rest)
      | some rest => do
        let (bound, rest) ← readOperand depth rest
        let rest ← expect " ? ".toList rest
        let (whenTrue, rest) ← readType depth rest
        let rest ← expect " : ".toList rest
        let (whenFalse, rest) ← readType depth rest
        return (.conditional first bound whenTrue whenFalse, rest)
    | _ => return (first, rest)

/-- The operand at the beginning of a text. -/
def readOperand : Nat → List Char → Option (Shape × List Char)
  | 0, _ => none
  | depth + 1, cs =>
    match operator? cs with
    | some rest => do
      let (operand, rest) ← readOperand depth rest
      return (.keyOf operand, rest)
    | none => do
      let (s, rest) ← readAtom depth cs
      readSuffixes depth s rest

/-- The operand at the beginning of a text, without operators and what may follow it between brackets. -/
def readAtom : Nat → List Char → Option (Shape × List Char)
  | 0, _ => none
  | depth + 1, cs =>
    match cs with
    | '(' :: rest => do
      let (s, rest) ← readType depth rest
      return (s, ← expect [')'] rest)
    | '[' :: ']' :: rest => return (.tuple [], rest)
    | '[' :: rest => do
      let (first, rest) ← readType depth rest
      let (others, rest) ← readTypes depth rest
      return (.tuple (first :: others), ← expect [']'] rest)
    | _ => readWord cs

/-- What follows an operand between brackets, applied to it. -/
def readSuffixes : Nat → Shape → List Char → Option (Shape × List Char)
  | 0, _, _ => none
  | depth + 1, s, cs =>
    match cs with
    | '[' :: ']' :: rest => readSuffixes depth (.array s) rest
    | '[' :: rest => do
      let (argument, rest) ← readType depth rest
      let rest ← expect [']'] rest
      readSuffixes depth (.indexedAccess s argument) rest
    | _ => return (s, cs)

/-- Types with a comma and a blank before each. -/
def readTypes : Nat → List Char → Option (List Shape × List Char)
  | 0, _ => none
  | depth + 1, cs =>
    match cs with
    | ',' :: ' ' :: rest => do
      let (s, rest) ← readType depth rest
      let (shapes, rest) ← readTypes depth rest
      return (s :: shapes, rest)
    | _ => return ([], cs)

/-- Operands with a sign before each. -/
def readOperands : Nat → Char → List Char → Option (List Shape × List Char)
  | 0, _, _ => none
  | depth + 1, sign, cs =>
    match expect [' ', sign, ' '] cs with
    | some rest => do
      let (s, rest) ← readOperand depth rest
      let (shapes, rest) ← readOperands depth sign rest
      return (s :: shapes, rest)
    | none => return ([], cs)

end

/-- At any depth that is enough something is read. -/
def Reads {α : Type} (reader : Nat → Option α) (a : α) : Prop := ∀ᶠ depth in Filter.atTop, reader depth = some a

namespace Reads

variable {α : Type} {reader : Nat → Option α} {a b : α}

theorem of_succ (h : ∀ᶠ depth in Filter.atTop, reader (depth + 1) = some a) : Reads reader a := by
  obtain ⟨n, hn⟩ := Filter.eventually_atTop.1 h
  refine Filter.eventually_atTop.2 ⟨n + 1, fun depth hdepth => ?_⟩
  obtain ⟨depth, rfl⟩ := Nat.exists_eq_add_one_of_ne_zero (Nat.ne_zero_of_lt hdepth)
  exact hn depth (by omega)

theorem of_forall (h : ∀ depth, reader (depth + 1) = some a) : Reads reader a := of_succ (.of_forall h)

/-- What is read does not depend on the depth. -/
theorem unique (ha : Reads reader a) (hb : Reads reader b) : a = b := by
  obtain ⟨depth, ha, hb⟩ := (ha.and hb).exists
  exact Option.some.inj (ha.symm.trans hb)

end Reads

/-! ### What may follow -/

/-- What may stand behind an operand. -/
inductive FollowsOperand : List Char → Prop where
  /-- Nothing. -/
  | nothing : FollowsOperand []
  /-- A bracket or a comma. -/
  | mark {c : Char} {cs : List Char} : c ∈ "[]),".toList → FollowsOperand (c :: cs)
  /-- A blank and a sign. -/
  | sign {c : Char} {cs : List Char} : c ∈ "|&?:".toList → FollowsOperand (' ' :: c :: cs)
  /-- The bound of a conditional type. -/
  | bound {cs : List Char} : opensBound cs = true → FollowsOperand (' ' :: ("extends ".toList ++ cs))

/-- What may stand behind a type where nothing can be mistaken. -/
inductive FollowsType : List Char → Prop where
  /-- Nothing. -/
  | nothing : FollowsType []
  /-- A closing bracket or a comma. -/
  | mark {c : Char} {cs : List Char} : c ∈ "]),".toList → FollowsType (c :: cs)
  /-- A blank and a colon. -/
  | colon {cs : List Char} : FollowsType (' ' :: ':' :: cs)

section

variable {cs x : List Char}

theorem FollowsType.followsOperand (h : FollowsType x) : FollowsOperand x := by
  cases h with
  | nothing => exact .nothing
  | mark hc => exact .mark (by simp at hc ⊢; tauto)
  | colon => exact .sign (by decide)

/-- A name ends where something may follow. -/
theorem FollowsOperand.isMark_head (h : FollowsOperand x) {c : Char} (hc : x.head? = some c) : isMark c = true := by
  cases h with
  | nothing => exact nomatch hc
  | mark hmem =>
    obtain rfl : _ = c := by simpa using hc
    simp only [isMark, List.contains_iff_mem]
    simp at hmem ⊢
    tauto
  | sign _ | bound _ =>
    obtain rfl : ' ' = c := by simpa using hc
    rfl

/-- Up to a mark or the end all characters belong to a word. -/
theorem word_append (hname : ∀ c ∈ cs, isMark c = false) (hx : FollowsOperand x) :
    word (cs ++ x) = cs ∧ afterWord (cs ++ x) = x := by
  have hall : ∀ c ∈ cs, (fun c => !isMark c) c = true := by simpa using hname
  rw [word, afterWord, List.takeWhile_append_of_pos hall, List.dropWhile_append_of_pos hall]
  cases x with
  | nil => simp
  | cons c x => simp [hx.isMark_head rfl]

theorem behind?_append (keyword : String) (hname : ∀ c ∈ cs, isMark c = false) (hx : FollowsOperand x) :
    behind? keyword (cs ++ x) = if cs = keyword.toList then expect [' '] x else none := by
  rw [behind?, (word_append hname hx).1, (word_append hname hx).2]

/-- A text that begins with a mark does not begin with a word. -/
theorem behind?_of_isMark {keyword : String} (hkeyword : keyword ≠ "") {c : Char} (hc : isMark c = true) :
    behind? keyword (c :: cs) = none := by
  simp [behind?, word, hc, eq_comm (a := ([] : List Char)), hkeyword]

theorem behind?_extends (cs : List Char) : behind? "extends" ("extends ".toList ++ cs) = some cs := rfl

theorem opens_of_opensUnless {p : List Char → Bool} (h : opensUnless p cs = true) : opens cs = true :=
  (Bool.and_eq_true _ _ ▸ h).1

theorem FollowsOperand.of_blank (h : FollowsOperand (' ' :: x)) :
    (∃ c cs, c ∈ "|&?:".toList ∧ x = c :: cs) ∨ ∃ cs, opensBound cs = true ∧ x = "extends ".toList ++ cs := by
  generalize hcs : ' ' :: x = cs at h
  cases h with
  | nothing => exact nomatch hcs
  | mark hc =>
    obtain ⟨rfl, rfl⟩ := List.cons.inj hcs
    simp at hc
  | sign hc =>
    obtain ⟨-, rfl⟩ := List.cons.inj hcs
    exact .inl ⟨_, _, hc, rfl⟩
  | bound hbound =>
    obtain ⟨-, rfl⟩ := List.cons.inj hcs
    exact .inr ⟨_, hbound, rfl⟩

/-- What follows an operand behind a blank is neither the operand of an operator nor a bound. -/
theorem FollowsOperand.not_opens (h : FollowsOperand (' ' :: x)) :
    opensOperand x = false ∧ opensBound x = false := by
  obtain ⟨c, cs, hc, rfl⟩ | ⟨cs, hbound, rfl⟩ := h.of_blank
  · have hopens : opens (c :: cs) = false := by
      obtain rfl | rfl | rfl | rfl : c = '|' ∨ c = '&' ∨ c = '?' ∨ c = ':' := by simpa using hc
      all_goals rfl
    simp [opensOperand, opensBound, opensUnless, hopens]
  · have hcs : opens cs = true := opens_of_opensUnless hbound
    constructor
    · rw [opensOperand, opensUnless, behind?_extends, Option.any_some, hbound]
      exact Bool.and_false _
    · rw [opensBound, opensUnless, behind?_extends, Option.any_some, hcs]
      exact Bool.and_false _

theorem FollowsOperand.expect_symbol (h : FollowsOperand (' ' :: x)) : expect "symbol".toList x = none := by
  obtain ⟨c, cs, hc, rfl⟩ | ⟨cs, -, rfl⟩ := h.of_blank
  · obtain rfl | rfl | rfl | rfl : c = '|' ∨ c = '&' ∨ c = '?' ∨ c = ':' := by simpa using hc
    all_goals rfl
  · simp [expect]

end

/-! ### How texts of shapes begin -/

theorem PlainName.exists_head (name : PlainName) : ∃ c cs, name.text.toList = c :: cs ∧ isMark c = false := by
  cases hname : name.text.toList with
  | nil => exact absurd (String.toList_eq_nil_iff.1 hname) name.nonempty
  | cons c cs => exact ⟨c, cs, rfl, name.unmarked c (by simp [hname])⟩

theorem NativeType.exists_head (t : NativeType) : ∃ c cs, t.name.toList = c :: cs ∧ isMark c = false := by
  cases t <;> simp [name, isMark]

theorem NativeType.isMark_name {t : NativeType} (ht : t ≠ uniqueSymbol) : ∀ c ∈ t.name.toList, isMark c = false := by
  cases t <;> first | exact absurd rfl ht | simp [name, isMark]

namespace Shape

variable {x : List Char}

theorem operandLetters_of_isLoose {s : Shape} (h : s.isLoose = true) :
    s.operandLetters = '(' :: s.letters ++ [')'] := by
  simp [operandLetters, enclose, h]

theorem operandLetters_native (t : NativeType) : (native t).operandLetters = t.name.toList := rfl

theorem operandLetters_parameter (name : PlainName) : (parameter name).operandLetters = name.text.toList := rfl

theorem operandLetters_tuple (elements : List Shape) (x : List Char) :
    (tuple elements).operandLetters ++ x =
      '[' :: (", ".toList.intercalate (eachLetters elements) ++ ']' :: x) := by
  simp [operandLetters_of_isLoose_eq_false (s := tuple elements) rfl, letters_tuple]

theorem operandLetters_array (element : Shape) (x : List Char) :
    (array element).operandLetters ++ x = element.operandLetters ++ '[' :: ']' :: x :=
  List.append_assoc ..

theorem operandLetters_indexedAccess (operand argument : Shape) (x : List Char) :
    (indexedAccess operand argument).operandLetters ++ x =
      operand.operandLetters ++ '[' :: (argument.letters ++ ']' :: x) := by
  simp [operandLetters_of_isLoose_eq_false (s := indexedAccess operand argument) rfl, letters_indexedAccess]

theorem operandLetters_keyOf (operand : Shape) (x : List Char) :
    (keyOf operand).operandLetters ++ x = "keyof ".toList ++ (operand.operandLetters ++ x) :=
  List.append_assoc ..

/-- The text of an operand begins with the word `extends` and a blank only if that is a name, with the blank
behind it. -/
theorem behind?_extends_operandLetters {s : Shape} {x rest : List Char} (hx : FollowsOperand x)
    (h : behind? "extends" (s.operandLetters ++ x) = some rest) : x = ' ' :: rest := by
  cases s with
  | native t =>
    by_cases ht : t = .uniqueSymbol
    · subst ht
      simp [operandLetters_native, NativeType.name, behind?, word, isMark] at h
    · rw [operandLetters_native, behind?_append _ (NativeType.isMark_name ht) hx, if_neg (by cases t <;> decide)] at h
      cases h
  | parameter name =>
    rw [operandLetters_parameter, behind?_append _ name.unmarked hx] at h
    split at h
    · exact expect_eq_some_iff.1 h
    · cases h
  | array element =>
    rw [operandLetters_array] at h
    have hblank := behind?_extends_operandLetters (.mark (by simp)) h
    simp at hblank
  | tuple elements =>
    rw [operandLetters_tuple, behind?_of_isMark (by decide) (by decide)] at h
    cases h
  | keyOf operand => simp [operandLetters_keyOf, behind?, word, isMark] at h
  | indexedAccess operand argument =>
    rw [operandLetters_indexedAccess] at h
    have hblank := behind?_extends_operandLetters (.mark (by simp)) h
    simp at hblank
  | conditional | union | intersection =>
    rw [operandLetters_of_isLoose rfl, List.cons_append, List.cons_append,
      behind?_of_isMark (by decide) (by decide)] at h
    cases h

/-- The text of an operand begins like one. -/
theorem opens_operandLetters : ∀ (s : Shape) (x : List Char), opens (s.operandLetters ++ x) = true
  | native t, x => by
    obtain ⟨c, cs, hname, hc⟩ := t.exists_head
    simp [operandLetters_native, hname, opens, hc]
  | parameter name, x => by
    obtain ⟨c, cs, hname, hc⟩ := name.exists_head
    simp [operandLetters_parameter, hname, opens, hc]
  | array element, x => by
    rw [operandLetters_array]
    exact opens_operandLetters element _
  | tuple elements, x => by rw [operandLetters_tuple]; rfl
  | keyOf operand, x => by simp [operandLetters_keyOf, opens, isMark]
  | indexedAccess operand argument, x => by
    rw [operandLetters_indexedAccess]
    exact opens_operandLetters operand _
  | conditional .., x | union .., x | intersection .., x => by rw [operandLetters_of_isLoose rfl]; rfl

/-- Behind `keyof` the text of an operand is not taken for what follows a name. -/
theorem opensOperand_operandLetters (s : Shape) (hx : FollowsOperand x) :
    opensOperand (s.operandLetters ++ x) = true := by
  rw [opensOperand, opensUnless, opens_operandLetters, Bool.true_and, Bool.not_eq_true', Option.any_eq_false]
  intro rest hrest
  obtain rfl := behind?_extends_operandLetters hx hrest
  simp [hx.not_opens.2]

/-- Behind `extends` the text of a bound is not taken for what follows a name. -/
theorem opensBound_operandLetters (s : Shape) (x : List Char) :
    opensBound (s.operandLetters ++ ' ' :: '?' :: x) = true := by
  rw [opensBound, opensUnless, opens_operandLetters, Bool.true_and, Bool.not_eq_true', Option.any_eq_false]
  intro rest hrest
  have hrest := behind?_extends_operandLetters (.sign (by simp)) hrest
  obtain rfl : '?' :: x = rest := (List.cons.inj hrest).2
  simp [opens, isMark]

/-- The text of a type begins like an operand. -/
theorem opens_letters (s : Shape) (x : List Char) : opens (s.letters ++ x) = true := by
  cases s with
  | conditional check _ _ _ =>
    simp only [letters_conditional, List.append_assoc]
    exact opens_operandLetters check _
  | union first _ _ | intersection first _ _ =>
    simp only [letters_union, letters_intersection, eachOperand, List.intercalate_cons_cons, List.append_assoc]
    exact opens_operandLetters first _
  | _ =>
    rw [← operandLetters_of_isLoose_eq_false rfl]
    exact opens_operandLetters _ x

end Shape

/-! ### Reading shapes back -/

section

variable {cs x : List Char}

/-- A word is not taken for the first half of `unique symbol`. -/
theorem unique_symbol_eq_none (hname : ∀ c ∈ cs, isMark c = false) (hx : FollowsOperand x) :
    (behind? "unique" (cs ++ x)).bind (expect "symbol".toList) = none := by
  rw [behind?_append _ hname hx, Option.bind_eq_none_iff]
  intro rest hrest
  split at hrest
  · obtain rfl := expect_eq_some_iff.1 hrest
    exact hx.expect_symbol
  · exact nomatch hrest

theorem readName_plainName (name : PlainName) : readName name.text.toList = some (.parameter name) := by
  simp only [readName, String.ofList_toList]
  rw [dif_pos ⟨name.nonempty, name.unmarked, name.free⟩]

/-- A name is read back, whatever follows. -/
theorem readWord_name (name : PlainName) (hx : FollowsOperand x) :
    readWord (name.text.toList ++ x) = some (.parameter name, x) := by
  rw [readWord, unique_symbol_eq_none name.unmarked hx]
  simp [(word_append name.unmarked hx).1, (word_append name.unmarked hx).2, name.free, readName_plainName]

/-- The keyword of a built-in type is read back, whatever follows. -/
theorem readWord_native (t : NativeType) (hx : FollowsOperand x) :
    readWord (t.name.toList ++ x) = some (.native t, x) := by
  by_cases ht : t = .uniqueSymbol
  · subst ht
    simp [readWord, NativeType.name, behind?, word, afterWord, isMark, expect]
  · rw [readWord, unique_symbol_eq_none (NativeType.isMark_name ht) hx]
    simp [(word_append (NativeType.isMark_name ht) hx).1, (word_append (NativeType.isMark_name ht) hx).2]

/-- What comes of a shape that is followed by brackets, the operators in front of it kept in front. -/
def readEnd (depth : Nat) : Shape → List Char → Option (Shape × List Char)
  | .keyOf operand, cs => (readEnd depth operand cs).map fun (s, rest) => (.keyOf s, rest)
  | s, cs => readSuffixes depth s cs

theorem readEnd_of_isKeyOf_eq_false {s : Shape} (h : s.isKeyOf = false) (depth : Nat) (cs : List Char) :
    readEnd depth s cs = readSuffixes depth s cs := by
  cases s <;> first | rfl | exact nomatch h

variable {s t : Shape} {rest : List Char}

theorem reads_readEnd_keyOf : Reads (readEnd · (.keyOf s) cs) (t, rest) ↔
    ∃ operand, t = .keyOf operand ∧ Reads (readEnd · s cs) (operand, rest) := by
  constructor
  · intro h
    obtain ⟨depth, hdepth⟩ := h.exists
    obtain ⟨⟨operand, rest'⟩, hend, heq⟩ := Option.map_eq_some_iff.1 hdepth
    obtain ⟨rfl, rfl⟩ := Prod.mk.inj heq
    refine ⟨operand, rfl, h.mono fun depth hdepth => ?_⟩
    obtain ⟨⟨operand', rest''⟩, hend', heq⟩ := Option.map_eq_some_iff.1 hdepth
    obtain ⟨hkey, rfl⟩ := Prod.mk.inj heq
    obtain rfl := Shape.keyOf.inj hkey
    exact hend'
  · rintro ⟨operand, rfl, h⟩
    filter_upwards [h] with depth hend
    rw [readEnd, hend]
    rfl

theorem reads_readSuffixes_array (h : Reads (readSuffixes · (.array s) cs) (t, rest)) :
    Reads (readSuffixes · s ('[' :: ']' :: cs)) (t, rest) := by
  refine .of_succ ?_
  filter_upwards [h] with depth h
  rwa [readSuffixes]

theorem reads_readSuffixes_indexedAccess {argument : Shape}
    (hargument : Reads (readType · (cs ++ ']' :: x)) (argument, ']' :: x)) (hcs : opens (cs ++ ']' :: x) = true)
    (h : Reads (readSuffixes · (.indexedAccess s argument) x) (t, rest)) :
    Reads (readSuffixes · s ('[' :: (cs ++ ']' :: x))) (t, rest) := by
  generalize hy : cs ++ ']' :: x = y at hargument hcs
  refine .of_succ ?_
  filter_upwards [hargument, h] with depth hargument h
  rw [readSuffixes]
  · simp [hargument, expect, h]
  · rintro rest rfl
    exact nomatch hcs

theorem reads_readSuffixes_of_head?_ne (s : Shape) (h : cs.head? ≠ some '[') : Reads (readSuffixes · s cs) (s, cs) := by
  refine .of_forall fun depth => ?_
  rw [readSuffixes]
  · rfl
  · rintro rest rfl
    exact h rfl
  · rintro rest rfl
    exact h rfl

/-- What stands between brackets behind an operand is read as if it stood behind what the operators in front
of it are applied to. -/
theorem reads_readEnd_beneath {f : Shape → Shape} {y : List Char} (hkey : ∀ s, (f s).isKeyOf = false)
    (hf : ∀ s t rest, Reads (readSuffixes · (f s) x) (t, rest) → Reads (readSuffixes · s y) (t, rest))
    (h : Reads (readEnd · (s.beneath f) x) (t, rest)) : Reads (readEnd · s y) (t, rest) := by
  fun_induction Shape.beneath f s generalizing t with
  | case1 operand ih =>
    obtain ⟨operand', rfl, hoperand⟩ := reads_readEnd_keyOf.1 h
    exact reads_readEnd_keyOf.2 ⟨operand', rfl, ih hoperand⟩
  | case2 s hs =>
    have hs : s.isKeyOf = false := by cases s <;> first | rfl | exact absurd rfl (hs _)
    simp only [readEnd_of_isKeyOf_eq_false hs, readEnd_of_isKeyOf_eq_false (hkey s)] at h ⊢
    exact hf s t rest h

theorem reads_readEnd_of_head?_ne (h : cs.head? ≠ some '[') : ∀ s : Shape, Reads (readEnd · s cs) (s, cs)
  | .keyOf operand => reads_readEnd_keyOf.2 ⟨operand, rfl, reads_readEnd_of_head?_ne h operand⟩
  | .native _ | .parameter _ | .array _ | .tuple _ | .indexedAccess .. | .conditional .. | .union .. |
    .intersection .. => reads_readSuffixes_of_head?_ne _ h

end

/-- The text of a shape is read back, wherever it may stand: as a type, and as an operand together with what
follows it. -/
structure ReadsBack (s : Shape) : Prop where
  type {x : List Char} : FollowsType x → Reads (readType · (s.letters ++ x)) (s.settled, x)
  operand {x : List Char} {t : Shape} {rest : List Char} : FollowsOperand x →
    Reads (readEnd · s.settled x) (t, rest) → Reads (readOperand · (s.operandLetters ++ x)) (t, rest)

section

variable {cs x : List Char}

theorem operator?_word (hname : ∀ c ∈ cs, isMark c = false) (hx : FollowsOperand x) :
    operator? (cs ++ x) = none := by
  rw [operator?, behind?_append _ hname hx]
  split
  · cases hrest : expect [' '] x with
    | none => rfl
    | some rest =>
      obtain rfl := expect_eq_some_iff.1 hrest
      rw [Option.filter_some, (show FollowsOperand (' ' :: rest) from hx).not_opens.1]
      rfl
  · rfl

theorem operator?_of_isMark {c : Char} (hc : isMark c = true) : operator? (c :: cs) = none := by
  rw [operator?, behind?_of_isMark (by decide) hc]
  rfl

theorem operator?_keyof (h : opensOperand cs = true) : operator? ("keyof ".toList ++ cs) = some cs := by
  have hbehind : behind? "keyof" ("keyof ".toList ++ cs) = some cs := rfl
  rw [operator?, hbehind, Option.filter_some, if_pos h]

theorem reads_readOperand_of_atom {s t : Shape} {rest : List Char} (hoperator : operator? cs = none)
    (hatom : Reads (readAtom · cs) (s, x)) (h : Reads (readSuffixes · s x) (t, rest)) :
    Reads (readOperand · cs) (t, rest) := by
  refine .of_succ ?_
  filter_upwards [hatom, h] with depth hatom h
  rw [readOperand, hoperator]
  simp [hatom, h]

theorem readAtom_word {name : List Char} (hname : ∃ c cs, name = c :: cs ∧ isMark c = false) (depth : Nat)
    (x : List Char) : readAtom (depth + 1) (name ++ x) = readWord (name ++ x) := by
  obtain ⟨c, cs, rfl, hc⟩ := hname
  rw [readAtom] <;>
  · rintro rest hrest
    obtain rfl := (List.cons.inj hrest).1
    exact nomatch hc

theorem FollowsType.head?_ne (h : FollowsType x) : x.head? ≠ some '[' := by
  cases h with
  | nothing => simp
  | mark hc => rintro h; simp_all
  | colon => simp

/-- Behind a type there is nothing more to read of it. -/
theorem reads_readType_of_operand {s : Shape} (h : Reads (readOperand · cs) (s, x)) (hx : FollowsType x) :
    Reads (readType · cs) (s, x) := by
  refine .of_succ ?_
  filter_upwards [h] with depth h
  rw [readType, h]
  cases hx with
  | nothing => rfl
  | @mark c cs hc =>
    obtain rfl | rfl | rfl : c = ']' ∨ c = ')' ∨ c = ',' := by simpa using hc
    all_goals rfl
  | colon => rfl

theorem reads_readType_union {first second : Shape} {others : List Shape} {rest : List Char}
    (hfirst : Reads (readOperand · cs) (first, ' ' :: '|' :: rest))
    (hothers : Reads (readOperands · '|' (' ' :: '|' :: rest)) (second :: others, x)) :
    Reads (readType · cs) (.union first second others, x) := by
  refine .of_succ ?_
  filter_upwards [hfirst, hothers] with depth hfirst hothers
  rw [readType, hfirst]
  simp [hothers]

theorem reads_readType_intersection {first second : Shape} {others : List Shape} {rest : List Char}
    (hfirst : Reads (readOperand · cs) (first, ' ' :: '&' :: rest))
    (hothers : Reads (readOperands · '&' (' ' :: '&' :: rest)) (second :: others, x)) :
    Reads (readType · cs) (.intersection first second others, x) := by
  refine .of_succ ?_
  filter_upwards [hfirst, hothers] with depth hfirst hothers
  rw [readType, hfirst]
  simp [hothers]

theorem reads_readType_conditional {check bound whenTrue whenFalse : Shape}
    {afterCheck afterBound afterTrue : List Char}
    (hcheck : Reads (readOperand · cs) (check, ' ' :: ("extends ".toList ++ afterCheck)))
    (hbound : Reads (readOperand · afterCheck) (bound, ' ' :: '?' :: ' ' :: afterBound))
    (htrue : Reads (readType · afterBound) (whenTrue, ' ' :: ':' :: ' ' :: afterTrue))
    (hfalse : Reads (readType · afterTrue) (whenFalse, x)) :
    Reads (readType · cs) (.conditional check bound whenTrue whenFalse, x) := by
  have hextends := behind?_extends afterCheck
  refine .of_succ ?_
  filter_upwards [hcheck, hbound, htrue, hfalse] with depth hcheck hbound htrue hfalse
  simp only [String.reduceToList, List.cons_append, List.nil_append] at *
  rw [readType, hcheck]
  simp [hextends, hbound, htrue, hfalse, expect]

end

namespace ReadsBack

open Shape

/-- A type that stands without parentheses is read like an operand. -/
theorem of_operand {s : Shape} (hs : s.isLoose = false)
    (h : ∀ {x rest : List Char} {t : Shape}, FollowsOperand x → Reads (readEnd · s.settled x) (t, rest) →
      Reads (readOperand · (s.operandLetters ++ x)) (t, rest)) :
    ReadsBack s where
  operand := h
  type {x} hx := by
    have hoperand := h hx.followsOperand (reads_readEnd_of_head?_ne hx.head?_ne s.settled)
    rw [operandLetters_of_isLoose_eq_false hs] at hoperand
    exact reads_readType_of_operand hoperand hx

/-- An operand in parentheses is read like the type. -/
theorem of_type {s : Shape} (hs : s.isLoose = true)
    (h : ∀ {x : List Char}, FollowsType x → Reads (readType · (s.letters ++ x)) (s.settled, x)) :
    ReadsBack s where
  type := h
  operand {x t rest} hx hend := by
    have htype := h (x := ')' :: x) (.mark (by simp))
    have hatom : Reads (readAtom · ('(' :: (s.letters ++ ')' :: x))) (s.settled, x) := by
      refine .of_succ ?_
      filter_upwards [htype] with depth htype
      rw [readAtom]
      simp [htype, expect]
    have hkey : s.settled.isKeyOf = false := by cases s <;> first | rfl | exact nomatch hs
    simp only [readEnd_of_isKeyOf_eq_false hkey] at hend
    rw [operandLetters_of_isLoose hs, List.cons_append, List.cons_append, List.append_assoc]
    exact reads_readOperand_of_atom (operator?_of_isMark (by decide)) hatom hend

theorem native (t : NativeType) : ReadsBack (native t) := by
  refine of_operand rfl fun {x rest s} hx hend => ?_
  have hatom : Reads (readAtom · (t.name.toList ++ x)) (Shape.native t, x) :=
    .of_forall fun depth => by rw [readAtom_word t.exists_head, readWord_native t hx]
  refine reads_readOperand_of_atom ?_ hatom hend
  by_cases ht : t = .uniqueSymbol
  · subst ht
    simp [operandLetters_native, NativeType.name, operator?, behind?, word, isMark]
  · exact operator?_word (NativeType.isMark_name ht) hx

theorem parameter (name : PlainName) : ReadsBack (parameter name) := by
  refine of_operand rfl fun {x rest s} hx hend => ?_
  refine reads_readOperand_of_atom (operator?_word name.unmarked hx) (.of_forall fun depth => ?_) hend
  rw [operandLetters_parameter, readAtom_word name.exists_head, readWord_name name hx, settled]

theorem array {element : Shape} (h : ReadsBack element) : ReadsBack (array element) := by
  refine of_operand rfl fun {x rest t} hx hend => ?_
  rw [operandLetters_array]
  refine h.operand (.mark (by simp)) ?_
  exact reads_readEnd_beneath (fun _ => rfl) (fun _ _ _ => reads_readSuffixes_array) hend

theorem keyOf {operand : Shape} (h : ReadsBack operand) : ReadsBack (keyOf operand) := by
  refine of_operand rfl fun {x rest t} hx hend => ?_
  rw [settled, reads_readEnd_keyOf] at hend
  obtain ⟨t, rfl, hend⟩ := hend
  refine .of_succ ?_
  filter_upwards [h.operand hx hend] with depth hoperand
  rw [operandLetters_keyOf, readOperand, operator?_keyof (opensOperand_operandLetters operand hx)]
  simp [hoperand]

theorem indexedAccess {operand argument : Shape} (ho : ReadsBack operand) (ha : ReadsBack argument) :
    ReadsBack (indexedAccess operand argument) := by
  refine of_operand rfl fun {x rest t} hx hend => ?_
  have hargument := ha.type (x := ']' :: x) (.mark (by simp))
  rw [operandLetters_indexedAccess]
  refine ho.operand (.mark (by simp)) ?_
  exact reads_readEnd_beneath (fun _ => rfl)
    (fun _ _ _ => reads_readSuffixes_indexedAccess hargument (opens_letters argument _)) hend

/-- An operand without brackets behind it. -/
theorem alone {s : Shape} (h : ReadsBack s) {x : List Char} (hx : FollowsOperand x) (hhead : x.head? ≠ some '[') :
    Reads (readOperand · (s.operandLetters ++ x)) (s.settled, x) :=
  h.operand hx (reads_readEnd_of_head?_ne hhead s.settled)

/-! ### Lists -/

/-- Texts with a separator before each. -/
def separated (separator : List Char) (texts : List (List Char)) : List Char := texts.flatMap (separator ++ ·)

theorem intercalate_cons (separator text : List Char) (texts : List (List Char)) :
    separator.intercalate (text :: texts) = text ++ separated separator texts := by
  induction texts generalizing text with
  | nil => simp [separated]
  | cons t texts ih => rw [List.intercalate_cons_cons, ih, separated, separated, List.flatMap_cons]; simp

theorem separated_cons (separator text : List Char) (texts : List (List Char)) (x : List Char) :
    separated separator (text :: texts) ++ x = separator ++ (text ++ (separated separator texts ++ x)) := by
  simp [separated]

theorem followsType_separated (shapes : List Shape) (x : List Char) :
    FollowsType (separated [',', ' '] (eachLetters shapes) ++ ']' :: x) := by
  cases shapes with
  | nil => exact .mark (by simp)
  | cons s shapes =>
    rw [eachLetters, separated_cons]
    exact .mark (by simp)

theorem reads_readTypes_separated (shapes : List Shape) (h : ∀ s ∈ shapes, ReadsBack s) (x : List Char) :
    Reads (readTypes · (separated [',', ' '] (eachLetters shapes) ++ ']' :: x)) (eachSettled shapes, ']' :: x) := by
  induction shapes with
  | nil =>
    refine .of_forall fun depth => ?_
    show readTypes (depth + 1) (']' :: x) = _
    rw [readTypes]
    · rfl
    · exact fun rest hrest => nomatch hrest
  | cons s shapes ih =>
    have hs := (h s (by simp)).type (followsType_separated shapes x)
    have hshapes := ih fun s' hs' => h s' (by simp [hs'])
    refine .of_succ ?_
    filter_upwards [hs, hshapes] with depth hs hshapes
    rw [eachLetters, separated_cons]
    show readTypes (depth + 1) (',' :: ' ' :: _) = _
    rw [readTypes]
    simp [hs, hshapes, eachSettled]

theorem reads_readOperands_separated (shapes : List Shape) (h : ∀ s ∈ shapes, ReadsBack s) (sign : Char)
    (hsign : sign ∈ "|&".toList) {x : List Char} (hx : FollowsType x) :
    Reads (readOperands · sign (separated [' ', sign, ' '] (eachOperand shapes) ++ x)) (eachSettled shapes, x) := by
  induction shapes with
  | nil =>
    have hnone : expect [' ', sign, ' '] x = none := by
      cases hx with
      | nothing => rfl
      | mark hc => exact if_neg fun h => by simp [← h] at hc
      | colon =>
        obtain rfl | rfl : sign = '|' ∨ sign = '&' := by simpa using hsign
        all_goals rfl
    refine .of_forall fun depth => ?_
    show readOperands (depth + 1) sign x = _
    rw [readOperands, hnone]
    rfl
  | cons s shapes ih =>
    -- behind each operand stands the sign of the next one, or what follows the type
    have hrest : FollowsOperand (separated [' ', sign, ' '] (eachOperand shapes) ++ x) ∧
        (separated [' ', sign, ' '] (eachOperand shapes) ++ x).head? ≠ some '[' := by
      cases shapes with
      | nil => exact ⟨hx.followsOperand, hx.head?_ne⟩
      | cons s' shapes =>
        rw [eachOperand, separated_cons]
        exact ⟨.sign (by simp at hsign ⊢; tauto), by simp⟩
    have hs := (h s (by simp)).alone hrest.1 hrest.2
    have hshapes := ih fun s' hs' => h s' (by simp [hs'])
    refine .of_succ ?_
    filter_upwards [hs, hshapes] with depth hs hshapes
    rw [operandLetters] at hs
    rw [eachOperand, separated_cons, readOperands, expect_append]
    simp [hs, hshapes, eachSettled]

theorem tuple {elements : List Shape} (h : ∀ s ∈ elements, ReadsBack s) : ReadsBack (tuple elements) := by
  refine of_operand rfl fun {x rest t} hx hend => ?_
  have hatom : Reads (readAtom · ((Shape.tuple elements).operandLetters ++ x))
      ((Shape.tuple elements).settled, x) := by
    rw [operandLetters_tuple]
    cases elements with
    | nil =>
      refine .of_forall fun depth => ?_
      show readAtom (depth + 1) ('[' :: ']' :: x) = _
      rw [readAtom]
      rfl
    | cons s shapes =>
      have hs := (h s (by simp)).type (followsType_separated shapes x)
      have hshapes := reads_readTypes_separated shapes (fun s' hs' => h s' (by simp [hs'])) x
      have hopens := opens_letters s (separated [',', ' '] (eachLetters shapes) ++ ']' :: x)
      rw [eachLetters, intercalate_cons, List.append_assoc, show ", ".toList = [',', ' '] by simp]
      generalize s.letters ++ _ = y at hs hopens
      refine .of_succ ?_
      filter_upwards [hs, hshapes] with depth hs hshapes
      rw [readAtom]
      · simp [hs, hshapes, expect, settled, eachSettled]
      · rintro rest rfl
        exact nomatch hopens
  refine reads_readOperand_of_atom ?_ hatom hend
  rw [operandLetters_tuple]
  exact operator?_of_isMark (by decide)

theorem conditional {check bound whenTrue whenFalse : Shape} (hc : ReadsBack check) (hb : ReadsBack bound)
    (ht : ReadsBack whenTrue) (hf : ReadsBack whenFalse) :
    ReadsBack (conditional check bound whenTrue whenFalse) := by
  refine of_type rfl fun {x} hx => ?_
  have htrue := ht.type (x := ' ' :: ':' :: ' ' :: (whenFalse.letters ++ x)) .colon
  have hbound := hb.alone (x := ' ' :: '?' :: ' ' :: (whenTrue.letters ++ ' ' :: ':' :: ' ' :: (whenFalse.letters ++ x)))
    (.sign (by simp)) (by simp)
  have hcheck := hc.alone (.bound (opensBound_operandLetters bound
    (' ' :: (whenTrue.letters ++ ' ' :: ':' :: ' ' :: (whenFalse.letters ++ x))))) (by simp)
  have htext : (Shape.conditional check bound whenTrue whenFalse).letters ++ x = check.operandLetters ++
      ' ' :: ("extends ".toList ++ (bound.operandLetters ++
        ' ' :: '?' :: ' ' :: (whenTrue.letters ++ ' ' :: ':' :: ' ' :: (whenFalse.letters ++ x)))) := by
    simp [letters_conditional]
  rw [htext]
  exact reads_readType_conditional hcheck hbound htrue (hf.type hx)

/-- What stands behind the first operand of a list with signs. -/
theorem followsOperand_separated (sign : Char) (hsign : sign ∈ "|&".toList) (s : Shape) (shapes : List Shape)
    (x : List Char) : FollowsOperand (separated [' ', sign, ' '] (eachOperand (s :: shapes)) ++ x) ∧
      (separated [' ', sign, ' '] (eachOperand (s :: shapes)) ++ x).head? ≠ some '[' := by
  rw [eachOperand, separated_cons]
  exact ⟨.sign (by simp at hsign ⊢; tauto), by simp⟩

theorem union {first second : Shape} {others : List Shape} (hfirst : ReadsBack first) (hsecond : ReadsBack second)
    (hothers : ∀ s ∈ others, ReadsBack s) : ReadsBack (union first second others) := by
  refine of_type rfl fun {x} hx => ?_
  have hoperands := reads_readOperands_separated (second :: others) (List.forall_mem_cons.2 ⟨hsecond, hothers⟩) '|'
    (by simp) hx
  have hfollows := followsOperand_separated '|' (by simp) second others x
  have htext : (Shape.union first second others).letters ++ x = first.operandLetters ++
      (separated [' ', '|', ' '] (eachOperand (second :: others)) ++ x) := by
    rw [letters_union, eachOperand, intercalate_cons, List.append_assoc, show " | ".toList = [' ', '|', ' '] by simp]
    rfl
  refine reads_readType_union ?_ hoperands
  rw [htext]
  exact hfirst.alone hfollows.1 hfollows.2

theorem intersection {first second : Shape} {others : List Shape} (hfirst : ReadsBack first)
    (hsecond : ReadsBack second) (hothers : ∀ s ∈ others, ReadsBack s) :
    ReadsBack (intersection first second others) := by
  refine of_type rfl fun {x} hx => ?_
  have hoperands := reads_readOperands_separated (second :: others) (List.forall_mem_cons.2 ⟨hsecond, hothers⟩) '&'
    (by simp) hx
  have hfollows := followsOperand_separated '&' (by simp) second others x
  have htext : (Shape.intersection first second others).letters ++ x = first.operandLetters ++
      (separated [' ', '&', ' '] (eachOperand (second :: others)) ++ x) := by
    rw [letters_intersection, eachOperand, intercalate_cons, List.append_assoc,
      show " & ".toList = [' ', '&', ' '] by simp]
    rfl
  refine reads_readType_intersection ?_ hoperands
  rw [htext]
  exact hfirst.alone hfollows.1 hfollows.2

end ReadsBack

/-- The text of every shape is read back. -/
theorem readsBack (s : Shape) : ReadsBack s := by
  cases s with
  | native t => exact .native t
  | parameter name => exact .parameter name
  | array element => exact .array (readsBack element)
  | tuple elements => exact .tuple fun s _ => readsBack s
  | keyOf operand => exact .keyOf (readsBack operand)
  | indexedAccess operand argument => exact .indexedAccess (readsBack operand) (readsBack argument)
  | conditional check bound whenTrue whenFalse =>
    exact .conditional (readsBack check) (readsBack bound) (readsBack whenTrue) (readsBack whenFalse)
  | union first second others => exact .union (readsBack first) (readsBack second) fun s _ => readsBack s
  | intersection first second others =>
    exact .intersection (readsBack first) (readsBack second) fun s _ => readsBack s

theorem reads_readType_letters (s : Shape) : Reads (readType · s.letters) (s.settled, []) := by
  simpa using (readsBack s).type .nothing

/-- Shapes have the same text exactly if they are the same once settled. -/
theorem Shape.letters_eq_iff {a b : Shape} : a.letters = b.letters ↔ a.settled = b.settled := by
  constructor
  · intro h
    have hread := reads_readType_letters a
    rw [h] at hread
    exact (Prod.mk.inj (hread.unique (reads_readType_letters b))).1
  · intro h
    rw [← letters_settled a, h, letters_settled b]

/-- **Two types that unfold to shapes have the same text exactly if the shapes are the same once settled**, that
is, up to operators that are the operand of an array or of an indexed access.  Without such operators the text
determines the type. -/
theorem Graph.typeText_eq_iff {g g' : Graph} {r r' : TypeRef} {a b : Shape} (ha : g.HasShape r a)
    (hb : g'.HasShape r' b) :
    ∃ text text', typeText g r = .ok text ∧ typeText g' r' = .ok text' ∧
      (text = text' ↔ a.settled = b.settled) ∧
      (a.isClear = true → b.isClear = true → text = text' → a = b) := by
  refine ⟨_, _, ha.typeText, hb.typeText, ?_, fun hclear hclear' h => ?_⟩
  · rw [String.ofList_inj, Shape.letters_eq_iff]
  · rw [String.ofList_inj, Shape.letters_eq_iff] at h
    rwa [Shape.settled_of_isClear hclear, Shape.settled_of_isClear hclear'] at h

/-- An identifier. -/
def plainT : PlainName := ⟨"T", by decide, by simp [isMark], by decide⟩

/-- The keys of an array and an array of keys, an array of unions and a union with an array. -/
def keysAndArrays : Graph where
  types := ⟨#[.parameter "T" none, .unary .keyOf ⟨0⟩, .array ⟨1⟩, .array ⟨0⟩, .unary .keyOf ⟨3⟩,
    .native .string, .union [⟨5⟩, ⟨0⟩], .array ⟨6⟩, .union [⟨5⟩, ⟨3⟩]]⟩

theorem typeText_eq_iff_keysAndArrays :
    keysAndArrays.HasShape ⟨7⟩ (.array (.union (.native .string) (.parameter plainT) [])) ∧
    keysAndArrays.HasShape ⟨8⟩ (.union (.native .string) (.array (.parameter plainT)) []) ∧
    ∃ text text', typeText keysAndArrays ⟨7⟩ = .ok text ∧ typeText keysAndArrays ⟨8⟩ = .ok text' ∧
      text ≠ text' := by
  have hT : keysAndArrays.HasShape ⟨0⟩ (.parameter plainT) := ⟨none, rfl⟩
  have hunion : keysAndArrays.HasShape ⟨6⟩ (.union (.native .string) (.parameter plainT) []) :=
    ⟨⟨5⟩, ⟨0⟩, [], rfl, rfl, hT, rfl⟩
  have ha : keysAndArrays.HasShape ⟨7⟩ (.array (.union (.native .string) (.parameter plainT) [])) :=
    ⟨⟨6⟩, rfl, hunion⟩
  have hb : keysAndArrays.HasShape ⟨8⟩ (.union (.native .string) (.array (.parameter plainT)) []) :=
    ⟨⟨5⟩, ⟨3⟩, [], rfl, rfl, ⟨⟨0⟩, rfl, hT⟩, rfl⟩
  obtain ⟨text, text', htext, htext', -, hclear⟩ := Graph.typeText_eq_iff ha hb
  exact ⟨ha, hb, text, text', htext, htext', fun h => nomatch hclear rfl rfl h⟩

/-- An array of the names of the properties of `T` and the names of the properties of an array of `T` are written
the same. -/
theorem typeText_confuses_keysAndArrays :
    keysAndArrays.HasShape ⟨2⟩ (.array (.keyOf (.parameter plainT))) ∧
    keysAndArrays.HasShape ⟨4⟩ (.keyOf (.array (.parameter plainT))) ∧
    typeText keysAndArrays ⟨2⟩ = .ok "keyof T[]" ∧ typeText keysAndArrays ⟨4⟩ = .ok "keyof T[]" := by
  have hT : keysAndArrays.HasShape ⟨0⟩ (.parameter plainT) := ⟨none, rfl⟩
  exact ⟨⟨⟨1⟩, rfl, ⟨0⟩, rfl, hT⟩, ⟨⟨3⟩, rfl, ⟨0⟩, rfl, hT⟩, by decide +kernel, by decide +kernel⟩

end ApiDoc
