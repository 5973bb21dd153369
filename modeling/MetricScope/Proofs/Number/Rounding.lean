import Mathlib.Algebra.Order.Field.Power
import Mathlib.Data.Rat.Cast.Order
import Mathlib.Tactic.FieldSimp
import Mathlib.Tactic.Linarith
import Mathlib.Tactic.NormNum
import Mathlib.Tactic.Positivity
import Mathlib.Tactic.Ring
import MetricScope.Number.Binary64

/-!
# Rounding to the nearest number

A quotient is rounded to the number whose interval it lies in. The interval of a number
reaches half way to its neighbours, of which the one below is nearer when the mantissa is
the least one with all bits; its ends belong to the number when the mantissa is even.
-/

set_option autoImplicit false

namespace MetricScope.Binary64

theorem divideToEven_cases (num : Nat) {den : Nat} (hden : 0 < den) :
    ∃ q rest, num = q * den + rest ∧ rest < den ∧
      divideToEven num den =
        if 2 * rest < den then q else if den < 2 * rest then q + 1 else q + q % 2 :=
  ⟨num / den, num % den, by rw [Nat.mul_comm, Nat.div_add_mod], Nat.mod_lt num hden, rfl⟩

/-- The natural number that is nearest to the quotient, of two the even one. -/
theorem divideToEven_eq {num den r : Nat} (hden : 0 < den)
    (hlow : 2 * r * den ≤ 2 * num + den) (hhigh : 2 * num ≤ 2 * r * den + den)
    (heven : 2 * r * den = 2 * num + den ∨ 2 * num = 2 * r * den + den → r % 2 = 0) :
    divideToEven num den = r := by
  obtain ⟨q, rest, rfl, hrest, heq⟩ := divideToEven_cases num hden
  have hr : r = q ∨ r = q + 1 := by
    have h₁ : r < q + 2 := by
      by_contra h
      have := Nat.mul_le_mul_right den (Nat.le_of_not_lt h)
      nlinarith
    have h₂ : q ≤ r := by
      by_contra h
      have : (r + 1) * den ≤ q * den := Nat.mul_le_mul_right den (Nat.lt_of_not_le h)
      nlinarith
    omega
  rw [heq]
  rcases hr with rfl | rfl
  · split
    · rfl
    · split
      · nlinarith
      · rw [heven (.inr (by nlinarith))]
        rfl
  · split
    · nlinarith
    · split
      · rfl
      · have := heven (.inl (by nlinarith))
        omega

theorem two_mul_divideToEven (num : Nat) {den : Nat} (hden : 0 < den) :
    2 * divideToEven num den * den ≤ 2 * num + den ∧
      2 * num ≤ 2 * divideToEven num den * den + den := by
  obtain ⟨q, rest, rfl, hrest, heq⟩ := divideToEven_cases num hden
  rw [heq]
  split
  · constructor <;> nlinarith
  · split
    · constructor <;> nlinarith
    · rcases Nat.mod_two_eq_zero_or_one q with h | h <;> rw [h] <;>
        constructor <;> nlinarith

/-- The nearest natural number, in terms of the exact quotient. -/
theorem divideToEven_eq_of_near {num den r : Nat} (hden : 0 < den)
    (hlow : (r : ℚ) - 1 / 2 ≤ num / den) (hhigh : (num : ℚ) / den ≤ r + 1 / 2)
    (heven : (r : ℚ) - 1 / 2 = num / den ∨ (num : ℚ) / den = r + 1 / 2 → r % 2 = 0) :
    divideToEven num den = r := by
  have hd : (0 : ℚ) < den := by exact_mod_cast hden
  rw [le_div_iff₀ hd] at hlow
  rw [div_le_iff₀ hd] at hhigh
  rw [eq_div_iff hd.ne', div_eq_iff hd.ne'] at heven
  refine divideToEven_eq hden ?_ ?_ fun htie => heven ?_
  · have : (2 * r * den : ℚ) ≤ 2 * num + den := by linarith
    exact_mod_cast this
  · have : (2 * num : ℚ) ≤ 2 * r * den + den := by linarith
    exact_mod_cast this
  · rcases htie with htie | htie
    · have : (2 * r * den : ℚ) = 2 * num + den := by exact_mod_cast htie
      exact .inl (by linarith)
    · have : (2 * num : ℚ) = 2 * r * den + den := by exact_mod_cast htie
      exact .inr (by linarith)

/-- The nearest natural number is at most a half away. -/
theorem divideToEven_near (num : Nat) {den : Nat} (hden : 0 < den) :
    (divideToEven num den : ℚ) - 1 / 2 ≤ num / den ∧
      (num : ℚ) / den ≤ divideToEven num den + 1 / 2 := by
  have hd : (0 : ℚ) < den := by exact_mod_cast hden
  obtain ⟨hlow, hhigh⟩ := two_mul_divideToEven num hden
  rw [le_div_iff₀ hd, div_le_iff₀ hd]
  constructor
  · have : (2 * divideToEven num den * den : ℚ) ≤ 2 * num + den := by exact_mod_cast hlow
    linarith
  · have : (2 * num : ℚ) ≤ 2 * divideToEven num den * den + den := by exact_mod_cast hhigh
    linarith

theorem cast_natPow (b k : Nat) : ((Nat.pow b k : Nat) : ℚ) = (b : ℚ) ^ k :=
  Nat.cast_pow b k

theorem zpow_toNat_neg {e : Int} (h : ¬e ≥ 0) : (2 : ℚ) ^ (-e).toNat = 2 ^ (-e) := by
  rw [← zpow_natCast, Int.toNat_of_nonneg (by omega)]

theorem zpow_toNat {e : Int} (h : e ≥ 0) : (2 : ℚ) ^ e.toNat = 2 ^ e := by
  rw [← zpow_natCast, Int.toNat_of_nonneg h]

theorem scaledQuotient_pos (num : Nat) {den : Nat} (hden : 0 < den) (e : Int) :
    0 < (scaledQuotient num den e).2 := by
  rw [scaledQuotient]
  split
  · exact Nat.mul_pos hden (Nat.pow_pos (by decide))
  · exact hden

/-- The scaled quotient is the quotient in units of a power of two. -/
theorem scaledQuotient_eq {num den : Nat} (e : Int) :
    ((scaledQuotient num den e).1 : ℚ) / (scaledQuotient num den e).2 =
      num / den / 2 ^ e := by
  rw [scaledQuotient]
  split
  next he =>
    have hp : ((Nat.pow 2 e.toNat : Nat) : ℚ) = 2 ^ e := by
      rw [← zpow_toNat he, cast_natPow, Nat.cast_ofNat]
    rw [Nat.cast_mul, hp, div_div]
  next he =>
    have hp : ((Nat.pow 2 (-e).toNat : Nat) : ℚ) = 2 ^ (-e) := by
      rw [← zpow_toNat_neg he, cast_natPow, Nat.cast_ofNat]
    rw [Nat.cast_mul, hp, zpow_neg]
    field_simp

theorem scaledQuotient_lt_iff {num den : Nat} (hden : 0 < den) (e : Int) :
    (scaledQuotient num den e).1 < (scaledQuotient num den e).2 * Nat.pow 2 53 ↔
      (num : ℚ) / den < 2 ^ 53 * 2 ^ e := by
  have hp : (0 : ℚ) < 2 ^ e := by positivity
  have hs : (0 : ℚ) < (scaledQuotient num den e).2 := by
    exact_mod_cast scaledQuotient_pos num hden e
  rw [← div_lt_iff₀ hp, ← scaledQuotient_eq, div_lt_iff₀ hs, mul_comm ((2 : ℚ) ^ 53)]
  norm_cast

structure IsExponentOf (v : ℚ) (e : Int) : Prop where
  low : 2 ^ 52 * 2 ^ e ≤ v
  high : v < 2 ^ 53 * 2 ^ e

theorem IsExponentOf.unique {v : ℚ} {e f : Int} (he : IsExponentOf v e)
    (hf : IsExponentOf v f) : e = f := by
  have hlt : ∀ {e f : Int}, IsExponentOf v e → IsExponentOf v f → e ≤ f := by
    intro e f he hf
    have h := lt_of_le_of_lt he.low hf.high
    have hpow : (2 : ℚ) ^ (52 + e) < 2 ^ (53 + f) := by
      rw [zpow_add₀ (by norm_num), zpow_add₀ (by norm_num)]
      exact_mod_cast h
    have := (zpow_lt_zpow_iff_right₀ (by norm_num : (1 : ℚ) < 2)).mp hpow
    omega
  exact le_antisymm (hlt he hf) (hlt hf he)

theorem log2_bounds {n : Nat} (h : 0 < n) :
    (2 : ℚ) ^ (Nat.log2 n : Int) ≤ n ∧ (n : ℚ) < 2 * 2 ^ (Nat.log2 n : Int) := by
  rw [zpow_natCast]
  constructor
  · exact_mod_cast Nat.log2_self_le (Nat.ne_of_gt h)
  · have := Nat.lt_log2_self (n := n)
    rw [Nat.pow_succ, Nat.mul_comm] at this
    exact_mod_cast this

theorem isExponentOf_exponentFor {num den : Nat} (hnum : 0 < num) (hden : 0 < den) :
    IsExponentOf ((num : ℚ) / den) (exponentFor num den) := by
  have hd : (0 : ℚ) < den := by exact_mod_cast hden
  obtain ⟨hnlow, hnhigh⟩ := log2_bounds hnum
  obtain ⟨hdlow, hdhigh⟩ := log2_bounds hden
  obtain ⟨guess, hguess⟩ :
      ∃ guess : Int, guess = (Nat.log2 num : Int) - (Nat.log2 den : Int) - 53 := ⟨_, rfl⟩
  have hp : (0 : ℚ) < 2 ^ guess := by positivity
  have hl : (0 : ℚ) < 2 ^ (Nat.log2 den : Int) := by positivity
  have hpow : (2 : ℚ) ^ (Nat.log2 num : Int) =
      2 ^ 53 * 2 ^ guess * 2 ^ (Nat.log2 den : Int) := by
    have : (Nat.log2 num : Int) = 53 + guess + (Nat.log2 den : Int) := by omega
    rw [this, zpow_add₀ (by norm_num), zpow_add₀ (by norm_num)]
    norm_num
  have hlow : 2 ^ 52 * 2 ^ guess ≤ (num : ℚ) / den := by
    rw [le_div_iff₀ hd]
    nlinarith
  have hhigh : (num : ℚ) / den < 2 ^ 54 * 2 ^ guess := by
    rw [div_lt_iff₀ hd]
    nlinarith
  rw [exponentFor, ← hguess]
  dsimp only
  split
  next hlt =>
    exact ⟨hlow, (scaledQuotient_lt_iff hden guess).mp hlt⟩
  next hlt =>
    rw [scaledQuotient_lt_iff hden guess, not_lt] at hlt
    have hstep : (2 : ℚ) ^ (guess + 1) = 2 ^ guess * 2 := by
      rw [zpow_add₀ (by norm_num), zpow_one]
    constructor <;> rw [hstep] <;> linarith

/-- A number in the one form that it has. -/
def Canonical : Binary64 → Prop
  | .finite _ mantissa exponent =>
      mantissa < 2 ^ 53 ∧ leastExponent ≤ exponent ∧ exponent ≤ greatestExponent ∧
        (2 ^ 52 ≤ mantissa ∨ exponent = leastExponent)
  | _ => True

def narrow (mantissa : Nat) (exponent : Int) : Bool :=
  mantissa == 2 ^ 52 && decide (exponent > leastExponent)

/-- The value lies in the interval of the number that is rounded to it. -/
structure RoundsTo (v : ℚ) (mantissa : Nat) (exponent : Int) : Prop where
  low : ((mantissa : ℚ) - if narrow mantissa exponent then 1 / 4 else 1 / 2) * 2 ^ exponent ≤ v
  high : v ≤ ((mantissa : ℚ) + 1 / 2) * 2 ^ exponent
  strict : mantissa % 2 = 1 →
    ((mantissa : ℚ) - 1 / 2) * 2 ^ exponent < v ∧ v < ((mantissa : ℚ) + 1 / 2) * 2 ^ exponent

def bounded (negative : Bool) (mantissa : Nat) (exponent : Int) : Binary64 :=
  if exponent > greatestExponent then .infinite negative
  else .finite negative mantissa exponent

theorem ofQuotient_eq_bounded {negative : Bool} {num den : Nat} (hnum : 0 < num)
    {exponent : Int} (he : max leastExponent (exponentFor num den) = exponent)
    {mantissa : Nat}
    (hm : divideToEven (scaledQuotient num den exponent).1
      (scaledQuotient num den exponent).2 = mantissa) :
    ofQuotient negative num den =
      if mantissa = 2 ^ 53 then bounded negative (2 ^ 52) (exponent + 1)
      else bounded negative mantissa exponent := by
  rw [ofQuotient, if_neg (Nat.ne_of_gt hnum), he]
  dsimp only
  rw [hm]
  by_cases h : mantissa = 2 ^ 53
  · have h' : mantissa = Nat.pow 2 53 := h
    rw [if_pos h', if_pos h]
    rfl
  · have h' : ¬mantissa = Nat.pow 2 53 := h
    rw [if_neg h', if_neg h]
    rfl

theorem exponentFor_le_of_lt {num den : Nat} (hnum : 0 < num) (hden : 0 < den) {e : Int}
    (h : (num : ℚ) / den < 2 ^ 53 * 2 ^ e) : exponentFor num den ≤ e := by
  have hlow := (isExponentOf_exponentFor hnum hden).low
  have hpow : (2 : ℚ) ^ (52 + exponentFor num den) < 2 ^ (53 + e) := by
    rw [zpow_add₀ (by norm_num), zpow_add₀ (by norm_num)]
    exact_mod_cast lt_of_le_of_lt hlow h
  have := (zpow_lt_zpow_iff_right₀ (by norm_num : (1 : ℚ) < 2)).mp hpow
  omega

section

variable {num den m : Nat} {e : Int}

theorem RoundsTo.scaled (h : RoundsTo ((num : ℚ) / den) m e) :
    (m : ℚ) - (if narrow m e then 1 / 4 else 1 / 2) ≤ (num : ℚ) / den / 2 ^ e ∧
      (num : ℚ) / den / 2 ^ e ≤ m + 1 / 2 := by
  have hp : (0 : ℚ) < 2 ^ e := by positivity
  rw [le_div_iff₀ hp, div_le_iff₀ hp]
  exact ⟨h.low, h.high⟩

theorem RoundsTo.half_le (h : RoundsTo ((num : ℚ) / den) m e) :
    (m : ℚ) - 1 / 2 ≤ (num : ℚ) / den / 2 ^ e := by
  have := h.scaled.1
  split at this <;> linarith

theorem RoundsTo.num_pos (h : RoundsTo ((num : ℚ) / den) m e) (hm : 0 < m) : 0 < num := by
  rcases Nat.eq_zero_or_pos num with rfl | hnum
  · have hhalf := h.half_le
    have hm' : (1 : ℚ) ≤ m := by exact_mod_cast hm
    norm_num at hhalf
    linarith
  · exact hnum

/-- The mantissa is the quotient in units of the last bit, rounded. -/
theorem RoundsTo.mantissa (h : RoundsTo ((num : ℚ) / den) m e) (hden : 0 < den) :
    divideToEven (scaledQuotient num den e).1 (scaledQuotient num den e).2 = m := by
  have hp : (0 : ℚ) < 2 ^ e := by positivity
  refine divideToEven_eq_of_near (scaledQuotient_pos num hden e) ?_ ?_ ?_
  · rw [scaledQuotient_eq]
    exact h.half_le
  · rw [scaledQuotient_eq]
    exact h.scaled.2
  · rw [scaledQuotient_eq]
    intro htie
    by_contra hodd
    obtain ⟨hlow, hhigh⟩ := h.strict (by omega)
    rw [← lt_div_iff₀ hp] at hlow
    rw [← div_lt_iff₀ hp] at hhigh
    rcases htie with htie | htie <;> linarith

end

/-- A quotient just below a power of two is rounded to it, from the exponent below. -/
theorem ofQuotient_eq_of_below {negative : Bool} {num den : Nat} {e : Int} (hden : 0 < den)
    (hnum : 0 < num) (hleast : leastExponent < e) (hgreatest : e ≤ greatestExponent)
    (hlow : (2 : ℚ) ^ 52 - 1 / 4 ≤ num / den / 2 ^ e)
    (hhigh : (num : ℚ) / den / 2 ^ e < 2 ^ 52) :
    ofQuotient negative num den = .finite negative (2 ^ 52) e := by
  have hp : (0 : ℚ) < 2 ^ e := by positivity
  have hq : (0 : ℚ) < 2 ^ (e - 1) := by positivity
  have hstep : (2 : ℚ) ^ e = 2 ^ (e - 1) * 2 := by
    rw [← zpow_add_one₀ (by norm_num), sub_add_cancel]
  have hdouble : (num : ℚ) / den / 2 ^ (e - 1) = 2 * (num / den / 2 ^ e) := by
    rw [hstep]
    field_simp
  have hexp : IsExponentOf ((num : ℚ) / den) (e - 1) := by
    constructor
    · rw [← le_div_iff₀ hq, hdouble]
      linarith
    · rw [← div_lt_iff₀ hq, hdouble]
      linarith
  have he := (isExponentOf_exponentFor hnum hden).unique hexp
  have hmantissa : divideToEven (scaledQuotient num den (e - 1)).1
      (scaledQuotient num den (e - 1)).2 = 2 ^ 53 := by
    refine divideToEven_eq_of_near (scaledQuotient_pos num hden _) ?_ ?_ fun _ => by norm_num
    all_goals
      rw [scaledQuotient_eq, hdouble]
      push_cast
      linarith
  rw [ofQuotient_eq_bounded hnum (by omega : max leastExponent _ = e - 1) hmantissa,
    if_pos rfl, bounded, if_neg (by omega), sub_add_cancel]

/-- A quotient in the interval of a number is rounded to the number. -/
theorem ofQuotient_eq {negative : Bool} {num den m : Nat} {e : Int} (hden : 0 < den)
    (hm : 0 < m) (hc : (finite false m e).Canonical) (h : RoundsTo ((num : ℚ) / den) m e) :
    ofQuotient negative num den = .finite negative m e := by
  obtain ⟨hbits, hleast, hgreatest, hfull⟩ := hc
  have hp : (0 : ℚ) < 2 ^ e := by positivity
  have hnum := h.num_pos hm
  have hbits' : (m : ℚ) ≤ 2 ^ 53 - 1 := by
    have : (m : ℚ) + 1 ≤ 2 ^ 53 := by exact_mod_cast hbits
    linarith
  have hhigh : (num : ℚ) / den < 2 ^ 53 * 2 ^ e := by
    rw [← div_lt_iff₀ hp]
    linarith [h.scaled.2]
  have hle := exponentFor_le_of_lt hnum hden hhigh
  have hwhole : max leastExponent (exponentFor num den) = e →
      ofQuotient negative num den = .finite negative m e := by
    intro he
    rw [ofQuotient_eq_bounded hnum he (h.mantissa hden), if_neg (by omega), bounded,
      if_neg (by omega)]
  by_cases he : e = leastExponent
  · exact hwhole (by omega)
  · have hm52 : (2 : ℚ) ^ 52 ≤ m := by
      exact_mod_cast hfull.resolve_right he
    by_cases hfull52 : (2 : ℚ) ^ 52 ≤ num / den / 2 ^ e
    · refine hwhole ?_
      have hexp : IsExponentOf ((num : ℚ) / den) e := ⟨by rwa [le_div_iff₀ hp] at hfull52, hhigh⟩
      have := (isExponentOf_exponentFor hnum hden).unique hexp
      omega
    · have hm' : m = 2 ^ 52 := by
        have hlt : (m : ℚ) < 2 ^ 52 + 1 := by linarith [h.half_le]
        have hlt' : m < 2 ^ 52 + 1 := by exact_mod_cast hlt
        have hge : 2 ^ 52 ≤ m := hfull.resolve_right he
        omega
      subst hm'
      have hnarrow : narrow (2 ^ 52) e = true := by
        have hlt : e > leastExponent := by omega
        simp [narrow, hlt]
      have hlow := h.scaled.1
      rw [hnarrow, if_pos rfl, Nat.cast_pow, Nat.cast_ofNat] at hlow
      exact ofQuotient_eq_of_below hden hnum (by omega) hgreatest hlow (not_le.mp hfull52)

theorem canonical_bounded {negative : Bool} {mantissa : Nat} {exponent : Int}
    (hbits : mantissa < 2 ^ 53) (hleast : leastExponent ≤ exponent)
    (hfull : 2 ^ 52 ≤ mantissa ∨ exponent = leastExponent) :
    (bounded negative mantissa exponent).Canonical := by
  rw [bounded]
  split
  · trivial
  · exact ⟨hbits, hleast, by omega, hfull⟩

theorem canonical_ofQuotient (negative : Bool) (num : Nat) {den : Nat} (hden : 0 < den) :
    (ofQuotient negative num den).Canonical := by
  rcases Nat.eq_zero_or_pos num with rfl | hnum
  · rw [ofQuotient, if_pos rfl]
    exact ⟨by norm_num, le_refl _, by decide, .inr rfl⟩
  · obtain ⟨e, he⟩ : ∃ e, max leastExponent (exponentFor num den) = e := ⟨_, rfl⟩
    obtain ⟨m, hm⟩ : ∃ m, divideToEven (scaledQuotient num den e).1
      (scaledQuotient num den e).2 = m := ⟨_, rfl⟩
    have hp : (0 : ℚ) < 2 ^ e := by positivity
    have hexp := isExponentOf_exponentFor hnum hden
    have hnear := divideToEven_near (scaledQuotient num den e).1
      (scaledQuotient_pos num hden e)
    rw [hm, scaledQuotient_eq] at hnear
    have hle : exponentFor num den ≤ e := by omega
    have hpow : (2 : ℚ) ^ exponentFor num den ≤ 2 ^ e :=
      zpow_le_zpow_right₀ (by norm_num) hle
    have hhigh : (num : ℚ) / den / 2 ^ e < 2 ^ 53 := by
      rw [div_lt_iff₀ hp]
      linarith [hexp.high]
    have hm53 : m ≤ 2 ^ 53 := by
      have hlt : (m : ℚ) < 2 ^ 53 + 1 := by linarith
      have hlt' : m < 2 ^ 53 + 1 := by exact_mod_cast hlt
      omega
    rw [ofQuotient_eq_bounded hnum he hm]
    split
    · exact canonical_bounded (by norm_num) (by omega) (.inl le_rfl)
    · refine canonical_bounded (by omega) (by omega) ?_
      by_cases hleast : e = leastExponent
      · exact .inr hleast
      · have heq : e = exponentFor num den := by omega
        have hlow : (2 : ℚ) ^ 52 ≤ num / den / 2 ^ e := by
          rw [le_div_iff₀ hp, heq]
          exact hexp.low
        have hlt : (2 : ℚ) ^ 52 < m + 1 := by linarith
        have hlt' : 2 ^ 52 < m + 1 := by exact_mod_cast hlt
        exact .inl (by omega)

theorem isNegative_ofQuotient (negative : Bool) (num den : Nat) :
    (ofQuotient negative num den).isNegative = negative := by
  have hbounded : ∀ mantissa exponent,
      (bounded negative mantissa exponent).isNegative = negative := by
    intro mantissa exponent
    rw [bounded]
    split <;> rfl
  rcases Nat.eq_zero_or_pos num with rfl | hnum
  · rfl
  · rw [ofQuotient_eq_bounded hnum rfl rfl]
    split <;> exact hbounded _ _

section

variable {num den k : Nat}

theorem divideToEven_mul_right (hk : 0 < k) :
    divideToEven (num * k) (den * k) = divideToEven num den := by
  rw [divideToEven, divideToEven, Nat.mul_div_mul_right _ _ hk, Nat.mul_mod_mul_right,
    ← Nat.mul_assoc]
  simp only [Nat.mul_lt_mul_right hk]

theorem scaledQuotient_mul_right (e : Int) :
    scaledQuotient (num * k) (den * k) e =
      ((scaledQuotient num den e).1 * k, (scaledQuotient num den e).2 * k) := by
  rw [scaledQuotient, scaledQuotient]
  split
  · rw [Nat.mul_right_comm]
  · rw [Nat.mul_right_comm]

theorem exponentFor_mul_right (hnum : 0 < num) (hden : 0 < den) (hk : 0 < k) :
    exponentFor (num * k) (den * k) = exponentFor num den := by
  have hexp := isExponentOf_exponentFor (Nat.mul_pos hnum hk) (Nat.mul_pos hden hk)
  have hk' : (k : ℚ) ≠ 0 := by exact_mod_cast Nat.ne_of_gt hk
  rw [Nat.cast_mul, Nat.cast_mul, mul_div_mul_right _ _ hk'] at hexp
  exact hexp.unique (isExponentOf_exponentFor hnum hden)

theorem ofQuotient_mul_right (negative : Bool) (num : Nat) (hden : 0 < den) (hk : 0 < k) :
    ofQuotient negative (num * k) (den * k) = ofQuotient negative num den := by
  rcases Nat.eq_zero_or_pos num with rfl | hnum
  · rw [Nat.zero_mul, ofQuotient, if_pos rfl, ofQuotient, if_pos rfl]
  · obtain ⟨e, he⟩ : ∃ e, max leastExponent (exponentFor num den) = e := ⟨_, rfl⟩
    obtain ⟨m, hm⟩ : ∃ m, divideToEven (scaledQuotient num den e).1
      (scaledQuotient num den e).2 = m := ⟨_, rfl⟩
    have he' : max leastExponent (exponentFor (num * k) (den * k)) = e := by
      rw [exponentFor_mul_right hnum hden hk, he]
    have hm' : divideToEven (scaledQuotient (num * k) (den * k) e).1
        (scaledQuotient (num * k) (den * k) e).2 = m := by
      rw [scaledQuotient_mul_right, divideToEven_mul_right hk, hm]
    rw [ofQuotient_eq_bounded hnum he hm,
      ofQuotient_eq_bounded (Nat.mul_pos hnum hk) he' hm']

end

def value : Binary64 → ℚ
  | .finite _ mantissa exponent => mantissa * 2 ^ exponent
  | _ => 0

theorem toQuotient_eq (negative : Bool) (m : Nat) (e : Int) :
    ∃ n d : Nat, (finite negative m e).toQuotient = some (n, d) ∧ 0 < d ∧
      (n : ℚ) / d = (finite negative m e).value := by
  rw [toQuotient]
  split
  next he =>
    refine ⟨_, _, rfl, Nat.one_pos, ?_⟩
    rw [Nat.cast_mul, cast_natPow, Nat.cast_ofNat, zpow_toNat he, Nat.cast_one, div_one]
    rfl
  next he =>
    refine ⟨_, _, rfl, Nat.pow_pos (by decide), ?_⟩
    rw [cast_natPow, Nat.cast_ofNat, zpow_toNat_neg he, zpow_neg, div_inv_eq_mul]
    rfl

structure Near (x v : ℚ) : Prop where
  low : v - v / 2 ^ 53 ≤ x
  high : x ≤ v + v / 2 ^ 53

theorem ofQuotient_near (negative : Bool) {num den : Nat} (hden : 0 < den)
    (hlow : num = 0 ∨ (2 : ℚ) ^ (-1000 : Int) ≤ num / den)
    (hhigh : (num : ℚ) / den ≤ 2 ^ (900 : Int)) :
    ∃ m e, ofQuotient negative num den = .finite negative m e ∧
      Near (finite negative m e).value (num / den) := by
  rcases Nat.eq_zero_or_pos num with rfl | hnum
  · exact ⟨0, leastExponent, rfl, by simp [value], by simp [value]⟩
  · replace hlow := hlow.resolve_left (Nat.ne_of_gt hnum)
    have hexp := isExponentOf_exponentFor hnum hden
    obtain ⟨e, he⟩ : ∃ e, exponentFor num den = e := ⟨_, rfl⟩
    rw [he] at hexp
    have hp : (0 : ℚ) < 2 ^ e := by positivity
    have hleast : leastExponent ≤ e := by
      have hlt : (2 : ℚ) ^ (-1000 : Int) < 2 ^ (53 + e) := by
        rw [zpow_add₀ (by norm_num)]
        exact lt_of_le_of_lt hlow (by exact_mod_cast hexp.high)
      have := (zpow_lt_zpow_iff_right₀ (by norm_num : (1 : ℚ) < 2)).mp hlt
      have hdef : leastExponent = -1074 := rfl
      omega
    have hgreatest : e + 1 ≤ greatestExponent := by
      have hle : (2 : ℚ) ^ (52 + e) ≤ 2 ^ (900 : Int) := by
        rw [zpow_add₀ (by norm_num)]
        exact le_trans (by exact_mod_cast hexp.low) hhigh
      have := (zpow_le_zpow_iff_right₀ (by norm_num : (1 : ℚ) < 2)).mp hle
      have hdef : greatestExponent = 971 := rfl
      omega
    obtain ⟨m, hm⟩ : ∃ m, divideToEven (scaledQuotient num den e).1
      (scaledQuotient num den e).2 = m := ⟨_, rfl⟩
    have hnear := divideToEven_near (scaledQuotient num den e).1
      (scaledQuotient_pos num hden e)
    rw [hm, scaledQuotient_eq, le_div_iff₀ hp, div_le_iff₀ hp] at hnear
    have hunit : (2 : ℚ) ^ e / 2 ≤ num / den / 2 ^ 53 := by
      rw [div_le_div_iff₀ (by norm_num) (by norm_num)]
      linarith [hexp.low]
    have hwithin : Near ((m : ℚ) * 2 ^ e) (num / den) := by
      constructor <;> linarith
    rw [ofQuotient_eq_bounded hnum (by omega : max leastExponent _ = e) hm]
    split
    next hfull =>
      refine ⟨2 ^ 52, e + 1, by rw [bounded, if_neg (by omega)], ?_⟩
      have hvalue : (finite negative (2 ^ 52) (e + 1)).value = (m : ℚ) * 2 ^ e := by
        rw [value, hfull, zpow_add_one₀ (by norm_num)]
        push_cast
        ring
      rw [hvalue]
      exact hwithin
    · exact ⟨m, e, by rw [bounded, if_neg (by omega)], hwithin⟩

end MetricScope.Binary64
