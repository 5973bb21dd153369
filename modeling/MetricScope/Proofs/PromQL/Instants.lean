import MetricScope.Proofs.PromQL.Numbers
import MetricScope.Proofs.TemplateVariable.Encoding

/-!
# Times read back

A time is written as seconds with three digits after the point, and the number that is
read from them is rounded before its milliseconds are counted. Times that can be told
apart at all are read back; the text of others may be that of another time.
-/

set_option autoImplicit false

namespace MetricScope

open PromQL

namespace Binary64

def secondsText (n : Nat) : List Char :=
  Nat.toDigits 10 (n / 1000) ++ '.' :: paddedDigits 3 (n % 1000)

theorem fixedPlaces_three (n d : Nat) :
    fixedPlaces 3 n d = secondsText (divideToEven (n * 1000) d) := rfl

theorem length_milliseconds (n : Nat) : (paddedDigits 3 (n % 1000)).length = 3 :=
  length_padded (by decide) (Nat.mod_lt n (by decide))

theorem secondsText_eq (n : Nat) :
    secondsText n = decimalText (Nat.toDigits 10 (n / 1000)) (paddedDigits 3 (n % 1000)) := by
  rw [decimalText, if_neg]
  · rfl
  · intro hempty
    have hlength := length_milliseconds n
    rw [List.isEmpty_iff.mp hempty] at hlength
    exact absurd hlength (by decide)

theorem read?_secondsText (n : Nat) : read? (secondsText n) = some (ofDecimal n (-3)) := by
  rw [secondsText_eq, read?_decimalText (isDigits_toDigits _) Nat.toDigits_ne_nil
    (isDigits_padded _ _), length_milliseconds, digitsValue_append, digitsValue_toDigits,
    digitsValue_padded, length_milliseconds, Nat.mul_comm]
  have hn : 10 ^ 3 * (n / 1000) + n % 1000 = n := Nat.div_add_mod n 1000
  rw [hn]
  rfl

theorem read?_toDigits (n : Nat) : read? (Nat.toDigits 10 n) = some (ofDecimal n 0) := by
  have h := read?_decimalText (isDigits_toDigits n) Nat.toDigits_ne_nil isDigits_nil
  rw [List.append_nil, digitsValue_toDigits] at h
  exact h

theorem ofDecimal_out_of_reach (digits places : Nat) (h : 10 ^ (reach + places) ≤ digits) :
    ofDecimal digits (-(places : Int)) = .infinite false := by
  have hreach : reach = 400 := rfl
  have hten : 0 < 10 ^ (reach + places) := Nat.pow_pos (by decide)
  have hlength : ¬(Nat.toDigits 10 digits).length ≤ reach + places := by
    rw [Nat.length_toDigits_le_iff (by decide) (by omega)]
    exact Nat.not_lt_of_le h
  rw [ofDecimal, if_neg (Nat.ne_of_gt (Nat.lt_of_lt_of_le hten h)), if_pos (by omega)]

/-- Zeros after the point do not change the number that is read. -/
theorem ofDecimal_thousand (n : Nat) : ofDecimal (n * 1000) (-3) = ofDecimal n 0 := by
  rcases Nat.eq_zero_or_pos n with rfl | hn
  · rfl
  · have hpower : (10 : Nat) ^ (reach + 3) = 10 ^ reach * 1000 := by
      rw [Nat.pow_add]
    have hten : 0 < 10 ^ reach := Nat.pow_pos (by decide)
    by_cases hlt : n < 10 ^ reach
    · have hthree : InReach (n * 1000) 3 := by
        refine ⟨by omega, ?_, by rw [hpower]; omega⟩
        nlinarith
      have hzero : InReach n 0 := ⟨hn, by nlinarith, by rwa [Nat.add_zero]⟩
      have hround := ofQuotient_mul_right false n Nat.one_pos (k := 1000) (by decide)
      have h₁ := ofDecimal_of_inReach hthree
      have h₂ := ofDecimal_of_inReach hzero
      exact h₁.trans (hround.trans h₂.symm)
    · have h₁ := ofDecimal_out_of_reach (n * 1000) 3 (by rw [hpower]; omega)
      have h₂ := ofDecimal_out_of_reach n 0 (by rw [Nat.add_zero]; exact not_lt.mp hlt)
      exact h₁.trans h₂.symm

end Binary64

namespace PromQL

open Binary64 (secondsText)

theorem Literal.number_secondsText (n : Nat) :
    Literal.number (String.ofList (secondsText n)) = .ok (Binary64.ofDecimal n (-3)) := by
  have hread := Binary64.read?_secondsText n
  rw [Binary64.secondsText_eq] at hread ⊢
  exact Literal.number_decimalText (Binary64.isDigits_padded _ _) hread

theorem Literal.number_toDigits (n : Nat) :
    Literal.number (String.ofList (Nat.toDigits 10 n)) = .ok (Binary64.ofDecimal n 0) :=
  Literal.number_decimalText Binary64.isDigits_nil
    (Binary64.read?_toDigits n)

theorem Duration.seconds_eq {d : Duration} {w f : Nat × Nat}
    (hw : (Binary64.ofNat (d.nanoseconds / perSecond)).toQuotient = some w)
    (hf : (Binary64.ofQuotient false (d.nanoseconds % perSecond) perSecond).toQuotient =
      some f) : d.seconds = Binary64.addQuotients w f := by
  rw [Duration.seconds]
  simp only [hw, hf]

namespace Instant

def thousandths (before : Bool) (milliseconds : Nat) : Nat :=
  if before then 0
  else
    match (Duration.ofMilliseconds milliseconds).seconds.toQuotient with
    | some (n, d) => Binary64.divideToEven (n * 1000) d
    | none => 0

theorem epochChars_eq (before : Bool) (milliseconds : Nat) :
    epochChars before milliseconds = secondsText (thousandths before milliseconds) := by
  have hzero : "0.000".toList = secondsText 0 := by decide
  rw [epochChars, text, thousandths]
  cases before with
  | true => simpa using hzero
  | false =>
    simp only [Bool.false_eq_true, if_false]
    cases (Duration.ofMilliseconds milliseconds).seconds.toQuotient with
    | none => exact hzero
    | some q => rw [String.toList_ofList, Binary64.fixedPlaces_three]

def ofThousandths (n : Nat) : Checked Instant :=
  ofSeconds false (Binary64.ofDecimal n (-3))

def canon : Instant → Instant
  | epoch before milliseconds =>
    match ofThousandths (thousandths before milliseconds) with
    | .ok i => i
    | .error _ => epoch before milliseconds
  | i => i

/-- A time whose text is read as a time of the same text. -/
def IsLegible : Instant → Prop
  | epoch before milliseconds =>
      ∃ i, ofThousandths (thousandths before milliseconds) = .ok i ∧
        i.text = (epoch before milliseconds).text
  | _ => True

theorem text_canon {i : Instant} (h : i.IsLegible) : i.canon.text = i.text := by
  cases i with
  | start | finish => rfl
  | epoch before milliseconds =>
    obtain ⟨i, hi, htext⟩ := h
    rw [canon, hi]
    exact htext

/-- Seconds are read as the number that they stand for, with or without zeros after the
point. -/
theorem isWritten_secondsText {n : Nat} {i : Instant} (h : ofThousandths n = .ok i) :
    i.IsWritten (secondsText n) where
  scans := by
    rw [Binary64.secondsText_eq]
    exact Lexer.readNumber_decimalText (Binary64.isDigits_padded _ _)
  literal := ⟨_, Literal.number_secondsText n, h⟩

theorem isWritten_wholeSeconds {n : Nat} {i : Instant} (h : ofThousandths (n * 1000) = .ok i) :
    i.IsWritten (Nat.toDigits 10 n) where
  scans := Lexer.readNumber_decimalText Binary64.isDigits_nil
  literal := by
    refine ⟨_, Literal.number_toDigits n, ?_⟩
    rw [← Binary64.ofDecimal_thousand]
    exact h

theorem zeros_of_padded {n : Nat} (h : Binary64.paddedDigits 3 n = ['0', '0', '0']) : n = 0 := by
  have hvalue := Binary64.digitsValue_padded 3 n
  rw [h] at hvalue
  exact hvalue.symm

open TemplateVariable (undotted)

/-- A time is read from its text also where the text loses its zeros to a variable. -/
theorem isWritten_undotted (vars : List TemplateVariable) {n : Nat} {i : Instant}
    (h : ofThousandths n = .ok i) : i.IsWritten (undotted vars (secondsText n)) := by
  have hpoint : ∀ {digits : List Char}, Binary64.IsDigits digits → '.' ∉ digits := by
    intro digits hd hmem
    exact absurd (hd _ hmem) (by decide)
  rcases TemplateVariable.undotted_fixed vars (hpoint (Binary64.isDigits_toDigits (n / 1000)))
    (hpoint (Binary64.isDigits_padded 3 (n % 1000))) (Binary64.length_milliseconds n)
    with hsame | ⟨hzeros, hwhole⟩
  · rw [secondsText, hsame]
    exact isWritten_secondsText h
  · rw [secondsText, hwhole]
    have hrest := zeros_of_padded hzeros
    have hn : n / 1000 * 1000 = n := by omega
    exact isWritten_wholeSeconds (hn.symm ▸ h)

theorem exists_epoch_of_ofThousandths {n : Nat} {i : Instant} (h : ofThousandths n = .ok i) :
    ∃ milliseconds, i = .epoch false milliseconds := by
  rw [ofThousandths, ofSeconds] at h
  split at h
  · exact absurd h (by simp)
  · split at h
    · exact absurd h (by simp)
    · split at h
      · exact ⟨_, (Except.ok.inj h).symm⟩
      · exact ⟨_, (Except.ok.inj h).symm⟩

/-- The time that a legible time is read as is written so that it is read again. -/
theorem IsLegible.isWritten (vars : List TemplateVariable) {i : Instant} (h : i.IsLegible) :
    (Leaf.instant i.canon).IsWritten fun before milliseconds =>
      undotted vars (epochChars before milliseconds) := by
  cases i with
  | start | finish => trivial
  | epoch before milliseconds =>
    obtain ⟨i, hi, htext⟩ := h
    obtain ⟨again, rfl⟩ := exists_epoch_of_ofThousandths hi
    have hchars : epochChars false again =
        secondsText (thousandths before milliseconds) := by
      rw [← epochChars_eq]
      exact congrArg String.toList htext
    rw [canon, hi]
    change (epoch false again).IsWritten (undotted vars (epochChars false again))
    rw [hchars]
    exact isWritten_undotted vars hi

/-- Half of a unit upwards gives the number that is less than a half away. -/
theorem divideHalfUp_eq {num den n : Nat} (hden : 0 < den) (hlow : (n : ℚ) - 1 / 2 ≤ num / den)
    (hhigh : (num : ℚ) / den < n + 1 / 2) : Binary64.divideHalfUp num den = n := by
  have hd : (0 : ℚ) < den := by exact_mod_cast hden
  rw [le_div_iff₀ hd] at hlow
  rw [div_lt_iff₀ hd] at hhigh
  have hle : n * (2 * den) ≤ 2 * num + den := by
    have : (n * (2 * den) : ℚ) ≤ 2 * num + den := by linarith
    exact_mod_cast this
  have hlt : 2 * num + den < (n + 1) * (2 * den) := by
    have : (2 * num + den : ℚ) < (n + 1) * (2 * den) := by linarith
    exact_mod_cast this
  exact Nat.div_eq_of_lt_le hle hlt

theorem two_zpow_neg_le : (2 : ℚ) ^ (-1000 : Int) ≤ 1 / 2 ^ 20 := by
  have hle : (2 : ℚ) ^ (-1000 : Int) ≤ 2 ^ (-20 : Int) :=
    zpow_le_zpow_right₀ (by norm_num) (by norm_num)
  refine le_trans hle ?_
  norm_num

theorem le_two_zpow : (2 : ℚ) ^ 60 ≤ 2 ^ (900 : Int) := by
  have hle : (2 : ℚ) ^ (60 : Int) ≤ 2 ^ (900 : Int) :=
    zpow_le_zpow_right₀ (by norm_num) (by norm_num)
  exact_mod_cast hle

open Binary64 in
/-- Rounding of a quotient in a range that is far from both ends. -/
theorem ofQuotient_near_of_range (num den : Nat) (hden : 0 < den)
    (hlow : num = 0 ∨ 1 / 2 ^ 20 ≤ (num : ℚ) / den) (hhigh : (num : ℚ) / den ≤ 2 ^ 60) :
    ∃ m e, ofQuotient false num den = .finite false m e ∧
      Near (finite false m e).value (num / den) :=
  ofQuotient_near false hden (hlow.imp id fun h => le_trans two_zpow_neg_le h)
    (le_trans hhigh le_two_zpow)

open Binary64 in
theorem ofDecimal_near {n : Nat} (hn : n < 2 ^ 50) :
    ∃ m e, ofDecimal n (-3) = .finite false m e ∧
      Near (finite false m e).value ((n : ℚ) / 1000) := by
  rcases Nat.eq_zero_or_pos n with rfl | hpos
  · exact ⟨0, leastExponent, rfl, by simp [value], by simp [value]⟩
  · have hone : (1 : ℚ) ≤ n := by exact_mod_cast hpos
    have hlt : (n : ℚ) + 1 ≤ 2 ^ 50 := by exact_mod_cast hn
    have hten : 10 ^ 3 ≤ 10 ^ reach := Nat.pow_le_pow_right (by decide) (by
      rw [reach]
      decide)
    have hfifty : 2 ^ 50 ≤ 10 ^ (reach + 3) :=
      Nat.le_trans (by norm_num : 2 ^ 50 ≤ 10 ^ 50) (Nat.pow_le_pow_right (by decide) (by
        rw [reach]
        decide))
    have hreach : InReach n 3 := ⟨hpos, by nlinarith, Nat.lt_of_lt_of_le hn hfifty⟩
    obtain ⟨m, e, hx, hnear⟩ := ofQuotient_near_of_range n (10 ^ 3) (by decide)
      (.inr (by push_cast; linarith)) (by push_cast; linarith)
    refine ⟨m, e, (ofDecimal_of_inReach hreach).trans hx, ?_⟩
    have hden : ((10 ^ 3 : Nat) : ℚ) = 1000 := by norm_num
    rwa [hden] at hnear

open Binary64 in
/-- Counting milliseconds after rounding twice gives those that were written. -/
theorem exists_scaled_near {m : Nat} {e : Int} {n : Nat} (hn : n < 2 ^ 50)
    (h : Near (finite false m e).value ((n : ℚ) / 1000)) :
    ∃ c d, ((finite false m e).scale 1000).toQuotient = some (c, d) ∧
      divideHalfUp c d = n := by
  obtain ⟨a, b, hquotient, hb, hvalue⟩ := toQuotient_eq false m e
  have hlow := h.low
  have hhigh := h.high
  rw [← hvalue] at hlow hhigh
  have hlt : (n : ℚ) + 1 ≤ 2 ^ 50 := by exact_mod_cast hn
  have hscaled : ((a * 1000 : Nat) : ℚ) / b = 1000 * ((a : ℚ) / b) := by
    push_cast
    ring
  have hzero : a * 1000 = 0 ∨ (1 : ℚ) / 2 ^ 20 ≤ (a * 1000 : Nat) / b := by
    rw [hscaled]
    rcases Nat.eq_zero_or_pos n with rfl | hpos
    · left
      have hb' : (0 : ℚ) < b := by exact_mod_cast hb
      rw [div_le_iff₀ hb'] at hhigh
      norm_num at hhigh
      rw [hhigh, Nat.zero_mul]
    · right
      have hone : (1 : ℚ) ≤ n := by exact_mod_cast hpos
      linarith
  obtain ⟨m', e', hy, hnear⟩ := ofQuotient_near_of_range (a * 1000) b hb
    hzero (by rw [hscaled]; linarith)
  obtain ⟨c, d, hquotient', hd, hvalue'⟩ := toQuotient_eq false m' e'
  have hlow' := hnear.low
  have hhigh' := hnear.high
  rw [← hvalue', hscaled] at hlow' hhigh'
  refine ⟨c, d, ?_, divideHalfUp_eq hd (by linarith) (by linarith)⟩
  rw [scale, hquotient]
  dsimp only
  rw [hy, hquotient']

open Binary64 in
theorem not_isGreatest_of_near {m : Nat} {e : Int} {n : Nat} (hn : n < 2 ^ 50)
    (h : Near (finite false m e).value ((n : ℚ) / 1000)) :
    (finite false m e).isGreatest = false := by
  have hlt : (n : ℚ) + 1 ≤ 2 ^ 50 := by exact_mod_cast hn
  rw [isGreatest, Bool.and_eq_false_iff]
  by_contra hboth
  simp only [not_or, Bool.not_eq_false, beq_iff_eq] at hboth
  obtain ⟨rfl, rfl⟩ := hboth
  have hhigh := h.high
  have hpow : (2 : ℚ) ^ 60 ≤ 2 ^ greatestExponent :=
    le_trans le_two_zpow (zpow_le_zpow_right₀ (by norm_num) (by decide))
  have hmantissa : (1 : ℚ) ≤ (Nat.pow 2 53 - 1 : Nat) := by norm_num
  rw [value] at hhigh
  nlinarith

theorem ofThousandths_of_lt {n : Nat} (hn : n < 2 ^ 50) :
    ofThousandths n = .ok (.epoch false n) := by
  obtain ⟨m, e, hx, hnear⟩ := ofDecimal_near hn
  obtain ⟨a, b, hquotient, -, -⟩ :=
    Binary64.toQuotient_eq false m e
  obtain ⟨c, d, hquotient', hhalf⟩ := exists_scaled_near hn hnear
  have hsmall : (Binary64.finite false m e).isGreatest = false := not_isGreatest_of_near hn hnear
  rw [ofThousandths, hx, ofSeconds, hsmall]
  simp only [Bool.false_eq_true, if_false, hquotient, hquotient', hhalf]
  have hle : n ≤ greatest := Nat.le_trans (Nat.le_of_lt hn) (by decide)
  rw [Nat.min_eq_left hle]

open Binary64 in
/-- Seconds are the sum of whole seconds and of a fraction, each rounded. -/
theorem exists_seconds_near {n : Nat} (hn : n < 2 ^ 50) :
    ∃ a b, 0 < b ∧ (Duration.ofMilliseconds n).seconds = ofQuotient false a b ∧
      Near ((a : ℚ) / b) ((n : ℚ) / 1000) ∧ (n = 0 → a = 0) := by
  have hlt : (n : ℚ) + 1 ≤ 2 ^ 50 := by exact_mod_cast hn
  have hsplit := Nat.div_add_mod n 1000
  have hrest := Nat.mod_lt n (show 0 < 1000 by decide)
  have hunit : Duration.perSecond = 1000 * Duration.perMillisecond := rfl
  have hpositive : 0 < Duration.perMillisecond := by decide
  have hwhole : n * Duration.perMillisecond / Duration.perSecond = n / 1000 := by
    rw [hunit, Nat.mul_div_mul_right n 1000 hpositive]
  have hfraction : ofQuotient false (n * Duration.perMillisecond % Duration.perSecond)
      Duration.perSecond = ofQuotient false (n % 1000) 1000 := by
    rw [hunit, Nat.mul_mod_mul_right,
      ofQuotient_mul_right false (n % 1000) (by decide) hpositive]
  generalize n / 1000 = whole at hsplit hwhole
  generalize n % 1000 = rest at hsplit hrest hfraction
  have hn' : (n : ℚ) = 1000 * whole + rest := by exact_mod_cast hsplit.symm
  have hwhole' : (0 : ℚ) ≤ whole := by positivity
  have hrest' : (0 : ℚ) ≤ rest := by positivity
  have hpos : ∀ k : Nat, k = 0 ∨ (1 : ℚ) ≤ k := by
    intro k
    rcases Nat.eq_zero_or_pos k with hk | hk
    · exact .inl hk
    · exact .inr (by exact_mod_cast hk)
  obtain ⟨m₁, e₁, hx₁, hnear₁⟩ := ofQuotient_near_of_range whole 1
    Nat.one_pos ((hpos whole).imp id fun h => by push_cast; linarith) (by push_cast; linarith)
  obtain ⟨m₂, e₂, hx₂, hnear₂⟩ := ofQuotient_near_of_range rest 1000
    (by decide) ((hpos rest).imp id fun h => by push_cast; linarith) (by push_cast; linarith)
  obtain ⟨a₁, b₁, hq₁, hb₁, hv₁⟩ := toQuotient_eq false m₁ e₁
  obtain ⟨a₂, b₂, hq₂, hb₂, hv₂⟩ := toQuotient_eq false m₂ e₂
  have hb₁' : (0 : ℚ) < b₁ := by exact_mod_cast hb₁
  have hb₂' : (0 : ℚ) < b₂ := by exact_mod_cast hb₂
  have hlow₁ := hnear₁.low
  have hhigh₁ := hnear₁.high
  have hlow₂ := hnear₂.low
  have hhigh₂ := hnear₂.high
  rw [← hv₁] at hlow₁ hhigh₁
  rw [← hv₂] at hlow₂ hhigh₂
  push_cast at hlow₁ hhigh₁ hlow₂ hhigh₂
  refine ⟨a₁ * b₂ + a₂ * b₁, b₁ * b₂, Nat.mul_pos hb₁ hb₂, ?_, ?_, ?_⟩
  · have hw : (ofNat ((Duration.ofMilliseconds n).nanoseconds /
        Duration.perSecond)).toQuotient = some (a₁, b₁) := by
      rw [Duration.ofMilliseconds, hwhole, ofNat, hx₁, hq₁]
    have hf : (ofQuotient false ((Duration.ofMilliseconds n).nanoseconds % Duration.perSecond)
        Duration.perSecond).toQuotient = some (a₂, b₂) := by
      rw [Duration.ofMilliseconds, hfraction, hx₂, hq₂]
    exact Duration.seconds_eq hw hf
  · have hsum : ((a₁ * b₂ + a₂ * b₁ : Nat) : ℚ) / (b₁ * b₂ : Nat) = a₁ / b₁ + a₂ / b₂ := by
      push_cast
      field_simp
    rw [hsum, hn']
    constructor <;> linarith
  · intro hzero
    obtain ⟨rfl, rfl⟩ : whole = 0 ∧ rest = 0 := by omega
    norm_num at hhigh₁ hhigh₂
    rw [div_le_iff₀ hb₁'] at hhigh₁
    rw [div_le_iff₀ hb₂'] at hhigh₂
    norm_num at hhigh₁ hhigh₂
    simp [hhigh₁, hhigh₂]

open Binary64 in
theorem thousandths_of_lt {n : Nat} (hn : n < 2 ^ 50) : thousandths false n = n := by
  obtain ⟨a, b, hb, hseconds, hnear, hzero⟩ := exists_seconds_near hn
  have hlt : (n : ℚ) + 1 ≤ 2 ^ 50 := by exact_mod_cast hn
  have hlow := hnear.low
  have hhigh := hnear.high
  have hrange : a = 0 ∨ (1 : ℚ) / 2 ^ 20 ≤ a / b := by
    rcases Nat.eq_zero_or_pos n with hn0 | hpos
    · exact .inl (hzero hn0)
    · have hone : (1 : ℚ) ≤ n := by exact_mod_cast hpos
      exact .inr (by linarith)
  obtain ⟨m, e, hx, hnear'⟩ := ofQuotient_near_of_range a b hb hrange (by linarith)
  obtain ⟨c, d, hq, hd, hv⟩ := toQuotient_eq false m e
  have hlow' := hnear'.low
  have hhigh' := hnear'.high
  rw [← hv] at hlow' hhigh'
  rw [thousandths, hseconds, hx, if_neg (by simp)]
  simp only [hq]
  have hscaled : ((c * 1000 : Nat) : ℚ) / d = 1000 * ((c : ℚ) / d) := by
    push_cast
    ring
  refine divideToEven_eq_of_near hd ?_ ?_ fun htie => ?_
  · rw [hscaled]
    linarith
  · rw [hscaled]
    linarith
  · rw [hscaled] at htie
    rcases htie with htie | htie <;> linarith

/-- All times of the next thirty thousand years are legible, and all that lie before the
epoch. -/
theorem isLegible_of_lt {before : Bool} {milliseconds : Nat}
    (h : before = true ∨ milliseconds < 2 ^ 50) : (epoch before milliseconds).IsLegible := by
  cases before with
  | true =>
    refine ⟨.epoch false 0, ofThousandths_of_lt (n := 0) (by decide), ?_⟩
    rw [← String.toList_inj]
    change epochChars false 0 = epochChars true milliseconds
    rw [epochChars_eq, epochChars_eq, thousandths_of_lt (by decide)]
    rfl
  | false =>
    have hlt := h.resolve_left (by simp)
    exact ⟨_, by rw [thousandths_of_lt hlt, ofThousandths_of_lt hlt], rfl⟩

end Instant

end PromQL

end MetricScope
