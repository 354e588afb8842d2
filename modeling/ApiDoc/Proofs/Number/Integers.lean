import ApiDoc.Number.Binary64
import Mathlib.Algebra.Order.Ring.Int
import Mathlib.Tactic.Ring

/-!
# Integers among the doubles

An integer of less than 53 bits is a double (`Binary64.toInt?_ofInt`), and one more than a double that is an integer is
the double nearest to the next integer (`Binary64.plusOne_eq_ofInt`).  So counting on from an integer is exact as long
as it stays below 2 ^ 53 (`Binary64.iterate_plusOne`).
-/

namespace ApiDoc.Binary64

/-! ### Rounding depends on the quotient alone -/

theorem roundQuotient_mul_right (num den : Nat) {c : Nat} (hc : 0 < c) :
    roundQuotient (num * c) (den * c) = roundQuotient num den := by
  have hleft : 2 * (num % den * c) = 2 * (num % den) * c := (Nat.mul_assoc _ _ _).symm
  simp only [roundQuotient, Nat.mul_div_mul_right num den hc, Nat.mul_mod_mul_right, hleft, Nat.mul_lt_mul_right hc]

theorem scaleBy_mul_right (num den c : Nat) (e : Int) :
    scaleBy (num * c) (den * c) e = ((scaleBy num den e).1 * c, (scaleBy num den e).2 * c) := by
  unfold scaleBy
  split
  · rw [Nat.shiftLeft_eq, Nat.shiftLeft_eq, Nat.mul_right_comm]
  · rw [Nat.shiftLeft_eq, Nat.shiftLeft_eq, Nat.mul_right_comm]

theorem log2_mul_two_pow {num : Nat} (hnum : num ≠ 0) (j : Nat) : (num * 2 ^ j).log2 = num.log2 + j := by
  rw [Nat.log2_eq_iff (Nat.mul_ne_zero hnum (Nat.two_pow_pos j).ne')]
  constructor
  · rw [Nat.pow_add]
    exact Nat.mul_le_mul_right _ (Nat.log2_self_le hnum)
  · rw [Nat.add_right_comm, Nat.pow_add]
    exact Nat.mul_lt_mul_of_pos_right Nat.lt_log2_self (Nat.two_pow_pos j)

theorem scaleOf_mul_two_pow {num : Nat} (hnum : num ≠ 0) (j : Nat) :
    scaleOf (num * 2 ^ j) (1 * 2 ^ j) = scaleOf num 1 := by
  have hguess : ((num * 2 ^ j).log2 : Int) - (1 * 2 ^ j).log2 - 53 = (num.log2 : Int) - (1 : Nat).log2 - 53 := by
    rw [log2_mul_two_pow hnum, log2_mul_two_pow Nat.one_ne_zero]
    omega
  unfold scaleOf
  simp only [hguess, scaleBy_mul_right, Nat.mul_div_mul_right _ _ (Nat.two_pow_pos j)]

/-- A power of two that both parts of a fraction have in common makes no difference. -/
theorem round_mul_two_pow (negative : Bool) (num j : Nat) :
    round negative (num * 2 ^ j) (1 * 2 ^ j) = round negative num 1 := by
  by_cases hnum : num = 0
  · simp [round, hnum]
  · have hne : num * 2 ^ j ≠ 0 := Nat.mul_ne_zero hnum (Nat.two_pow_pos j).ne'
    unfold round
    rw [if_neg hnum, if_neg hne, scaleOf_mul_two_pow hnum]
    simp only [scaleBy_mul_right, roundQuotient_mul_right _ _ (Nat.two_pow_pos j)]

/-- An integer over a power of two, and the same power under it. -/
theorem round_int_mul_two_pow (v : Int) (j : Nat) :
    round (v * 2 ^ j < 0) (v * 2 ^ j).natAbs (1 * 2 ^ j) = ofInt v := by
  have hpos : (0 : Int) < 2 ^ j := Int.pow_pos (by decide)
  have hneg : v * 2 ^ j < 0 ↔ v < 0 := by
    constructor
    · exact fun h => Int.neg_of_mul_neg_left h hpos
    · exact fun h => Int.mul_neg_of_neg_of_pos h hpos
  have habs : (v * 2 ^ j).natAbs = v.natAbs * 2 ^ j := by
    rw [Int.natAbs_mul, Int.natAbs_pow]
    rfl
  simp only [hneg, habs, round_mul_two_pow, ofInt]

/-! ### One more -/

/-- An integer with a sign of its own. -/
def signed (negative : Bool) (k : Nat) : Int := if negative then -k else k

theorem toInt?_finite (negative : Bool) (m : Nat) (e : Int) : (finite negative m e).toInt? =
    if 0 ≤ e then some (signed negative (m * 2 ^ e.toNat))
    else if m % 2 ^ (-e).toNat = 0 then some (signed negative (m / 2 ^ (-e).toNat)) else none := by
  cases negative <;> simp [toInt?, signed, Nat.shiftLeft_eq, Nat.shiftRight_eq_div_pow]

/-- A shift up that the power of two takes back. -/
theorem toInt?_shifted (negative : Bool) (k j : Nat) :
    (finite negative (k * 2 ^ j) (-(j : Int))).toInt? = some (signed negative k) := by
  rw [toInt?_finite]
  cases j with
  | zero => simp
  | succ j =>
    rw [if_neg (by omega), Int.neg_neg, Int.toNat_natCast, if_pos (Nat.mul_mod_left _ _),
      Nat.mul_div_cancel _ (Nat.two_pow_pos _)]

/-- One more than an integer is the double nearest to the next one. -/
theorem plusOne_eq_ofInt {x : Binary64} {v : Int} (h : x.toInt? = some v) : x.plusOne = ofInt (v + 1) := by
  cases x with
  | nan | infinite => exact nomatch h
  | finite negative m e =>
    rw [toInt?_finite] at h
    by_cases he : 0 ≤ e
    · rw [if_pos he] at h
      obtain rfl := Option.some.inj h
      simp only [plusOne, if_pos he, Nat.shiftLeft_eq]
      rfl
    · rw [if_neg he] at h
      generalize hj : (-e).toNat = j at h
      obtain ⟨hmod, rfl⟩ : m % 2 ^ j = 0 ∧ signed negative (m / 2 ^ j) = v := by simpa using h
      obtain ⟨k, rfl⟩ := Nat.dvd_of_mod_eq_zero hmod
      -- the numerator of the sum is the next integer times the denominator
      have hsum : (if negative then -((2 ^ j * k : Nat) : Int) else (2 ^ j * k : Nat)) + (1 * 2 ^ j : Nat) =
          (signed negative k + 1) * 2 ^ j := by
        cases negative <;> push_cast [signed] <;> simp <;> ring
      rw [Nat.mul_div_cancel_left _ (Nat.two_pow_pos j), ← round_int_mul_two_pow, ← hsum]
      simp only [plusOne, if_neg he, hj, Nat.shiftLeft_eq]

/-! ### Integers of less than 53 bits -/

theorem scaleOf_one_of_lt {k : Nat} (hk : k ≠ 0) (h : k < 2 ^ 53) : scaleOf k 1 = k.log2 - 52 := by
  have hlog : k.log2 ≤ 52 := Nat.le_of_lt_succ ((Nat.log2_lt hk).2 h)
  -- at the first guess the significand has one bit too many
  have hguess : ((k.log2 : Int) - (1 : Nat).log2 - 53) = -((53 - k.log2 : Nat) : Int) := by
    have hone : (1 : Nat).log2 = 0 := by decide
    omega
  have hlong : significandEnd ≤ k * 2 ^ (53 - k.log2) := calc
    significandEnd = 2 ^ k.log2 * 2 ^ (53 - k.log2) := by
      rw [← Nat.pow_add, Nat.add_sub_cancel' (by omega)]
      rfl
    _ ≤ k * 2 ^ (53 - k.log2) := Nat.mul_le_mul_right _ (Nat.log2_self_le hk)
  have hneg : ¬(0 : Int) ≤ -((53 - k.log2 : Nat) : Int) := by omega
  simp only [scaleOf, hguess, scaleBy, if_neg hneg, Int.neg_neg, Int.toNat_natCast, Nat.shiftLeft_eq, Nat.div_one,
    if_pos hlong, leastExponent]
  omega

/-- An integer of less than 53 bits is shifted up until it has all of them, and nothing is lost. -/
theorem round_of_lt (negative : Bool) {k : Nat} (hk : k ≠ 0) (h : k < 2 ^ 53) :
    round negative k 1 = finite negative (k * 2 ^ (52 - k.log2)) (-((52 - k.log2 : Nat) : Int)) := by
  have hlog : k.log2 ≤ 52 := Nat.le_of_lt_succ ((Nat.log2_lt hk).2 h)
  have hexponent : (k.log2 : Int) - 52 = -((52 - k.log2 : Nat) : Int) := by omega
  have hfits : k * 2 ^ (52 - k.log2) < significandEnd := calc
    k * 2 ^ (52 - k.log2) < 2 ^ (k.log2 + 1) * 2 ^ (52 - k.log2) :=
      Nat.mul_lt_mul_of_pos_right Nat.lt_log2_self (Nat.two_pow_pos _)
    _ = significandEnd := by
      rw [← Nat.pow_add, show k.log2 + 1 + (52 - k.log2) = 53 by omega]
      rfl
  have hwhole (n : Nat) : roundQuotient n 1 = n := by simp [roundQuotient, Nat.mod_one]
  have hscale : scaleBy k 1 (-((52 - k.log2 : Nat) : Int)) = (k * 2 ^ (52 - k.log2), 1) := by
    generalize 52 - k.log2 = j
    cases j with
    | zero => simp [scaleBy]
    | succ j => rw [scaleBy, if_neg (by omega), Int.neg_neg, Int.toNat_natCast, Nat.shiftLeft_eq]
  have hfinite : ¬greatestExponent < -((52 - k.log2 : Nat) : Int) := by
    unfold greatestExponent
    omega
  simp only [round, if_neg hk, scaleOf_one_of_lt hk h, hexponent, hscale, hwhole, if_neg hfits.ne, ofParts,
    if_neg hfinite]

theorem toInt?_ofInt {v : Int} (h : v.natAbs < 2 ^ 53) : (ofInt v).toInt? = some v := by
  by_cases hv : v = 0
  · subst hv
    decide
  · have hvalue : signed (v < 0) v.natAbs = v := by
      by_cases hneg : v < 0
      · rw [signed, if_pos (decide_eq_true hneg)]
        omega
      · rw [signed, if_neg (by simpa using hneg)]
        omega
    rw [ofInt, round_of_lt _ (Int.natAbs_ne_zero.2 hv) h, toInt?_shifted, hvalue]

/-! ### The opposite sign -/

theorem negate_round (negative : Bool) (num den : Nat) :
    (round negative num den).negate = round (!negative) num den := by
  have hparts (m : Nat) (e : Int) : (ofParts negative m e).negate = ofParts (!negative) m e := by
    unfold ofParts
    split <;> rfl
  by_cases hnum : num = 0
  · simp only [round, if_pos hnum]
    rfl
  · simp only [round, if_neg hnum]
    split <;> exact hparts _ _

/-- Only zero has two signs. -/
theorem negate_ofInt {i : Int} (hi : i ≠ 0) : (ofInt i).negate = ofInt (-i) := by
  have hsign : (!decide (i < 0)) = decide (-i < 0) := by
    rw [Bool.eq_iff_iff]
    simp
    omega
  rw [ofInt, negate_round, hsign, ofInt, Int.natAbs_neg]

theorem toInt?_negate {x : Binary64} {i : Int} (h : x.toInt? = some i) : x.negate.toInt? = some (-i) := by
  have hsigned (negative : Bool) (k : Nat) : signed (!negative) k = -signed negative k := by
    cases negative <;> simp [signed]
  cases x with
  | nan | infinite => exact nomatch h
  | finite negative m e =>
    rw [negate, toInt?_finite]
    rw [toInt?_finite] at h
    by_cases he : 0 ≤ e
    · simpa [he, hsigned] using h
    · simpa [he, hsigned] using h

/-- Counting on from an integer. -/
theorem iterate_plusOne {x : Binary64} {v : Int} (hx : x.toInt? = some v) (hv : v.natAbs < 2 ^ 53) (n : Nat)
    (hn : (v + (n + 1 : Nat)).natAbs < 2 ^ 53) : plusOne^[n + 1] x = ofInt (v + (n + 1 : Nat)) := by
  induction n with
  | zero => simpa using plusOne_eq_ofInt hx
  | succ n ih =>
    have hbefore : (v + (n + 1 : Nat)).natAbs < 2 ^ 53 := by omega
    rw [Function.iterate_succ_apply', ih hbefore, plusOne_eq_ofInt (toInt?_ofInt hbefore)]
    congr 1
    push_cast
    ring

/-- Beyond that counting stands still. -/
example : (ofInt (2 ^ 53)).plusOne = ofInt (2 ^ 53) := by decide +kernel

end ApiDoc.Binary64
