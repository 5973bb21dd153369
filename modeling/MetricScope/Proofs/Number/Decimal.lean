import MetricScope.Number.Decimal
import MetricScope.Proofs.Number.Rounding

/-!
# Decimal text reads back

A number is written with digits that lie in its interval, so the number that is nearest to
the digits is the number itself. A text is described by its digits before and after the
point; the value of the text is that of all digits, divided by a power of ten.
-/

set_option autoImplicit false

namespace MetricScope.Binary64

def IsDigits (text : List Char) : Prop :=
  ∀ c ∈ text, c.isDigit = true

theorem isDigits_nil : IsDigits [] :=
  fun _ h => absurd h List.not_mem_nil

theorem isDigits_append {a b : List Char} (ha : IsDigits a) (hb : IsDigits b) :
    IsDigits (a ++ b) := by
  intro c hc
  rcases List.mem_append.mp hc with hc | hc
  · exact ha c hc
  · exact hb c hc

theorem isDigits_toDigits (n : Nat) : IsDigits (Nat.toDigits 10 n) :=
  fun _ hc => Nat.isDigit_of_mem_toDigits (by decide) (by decide) hc

theorem isDigits_replicate (k : Nat) : IsDigits (List.replicate k '0') := by
  intro c hc
  rw [List.eq_of_mem_replicate hc]
  rfl

theorem digitsValue_eq (text : List Char) : digitsValue text = Nat.ofDigitChars 10 text 0 := by
  rw [digitsValue, Nat.ofDigitChars_eq_foldl]
  simp only [Nat.mul_comm]

theorem digitsValue_append (a b : List Char) :
    digitsValue (a ++ b) = digitsValue a * 10 ^ b.length + digitsValue b := by
  rw [digitsValue_eq, digitsValue_eq, digitsValue_eq, Nat.ofDigitChars_append,
    Nat.ofDigitChars_eq_ofDigitChars_zero, Nat.mul_comm]

theorem digitsValue_replicate (k : Nat) : digitsValue (List.replicate k '0') = 0 := by
  rw [digitsValue_eq, Nat.ofDigitChars_replicate_zero, Nat.mul_zero]

@[simp] theorem digitsValue_toDigits (n : Nat) : digitsValue (Nat.toDigits 10 n) = n := by
  rw [digitsValue_eq, Nat.ofDigitChars_ten_toDigits]

theorem digitsValue_padded (width n : Nat) : digitsValue (paddedDigits width n) = n := by
  rw [paddedDigits, digitsValue_append, digitsValue_replicate, digitsValue_toDigits,
    Nat.zero_mul, Nat.zero_add]

theorem isDigits_padded (width n : Nat) : IsDigits (paddedDigits width n) :=
  isDigits_append (isDigits_replicate _) (isDigits_toDigits n)

theorem length_padded {width n : Nat} (hw : 0 < width) (hn : n < 10 ^ width) :
    (paddedDigits width n).length = width := by
  have hle := (Nat.length_toDigits_le_iff (by decide) hw).mpr hn
  rw [paddedDigits, List.length_append, List.length_replicate]
  omega

theorem exists_dropTrailingZeros (digits : List Char) :
    ∃ k, digits = dropTrailingZeros digits ++ List.replicate k '0' := by
  obtain ⟨k, hk⟩ : ∃ k, digits.reverse.takeWhile (· == '0') = List.replicate k '0' := by
    refine ⟨_, List.eq_replicate_of_mem fun c hc => ?_⟩
    simpa using List.all_eq_true.mp List.all_takeWhile c hc
  refine ⟨k, ?_⟩
  have hsplit := List.takeWhile_append_dropWhile (p := (· == '0')) (l := digits.reverse)
  rw [hk] at hsplit
  have hreverse := congrArg List.reverse hsplit
  rw [List.reverse_append, List.reverse_reverse, List.reverse_replicate] at hreverse
  exact hreverse.symm

/-- The first digit of a number is not zero, unless the number is. -/
theorem head?_toDigits_ne_zero {n : Nat} (h : 0 < n) : (Nat.toDigits 10 n).head? ≠ some '0' := by
  induction n using Nat.strongRecOn with
  | ind n ih =>
    rw [Nat.toDigits_eq_if (by decide)]
    split
    next hlt =>
      have hall : ∀ k, k < 10 → 0 < k → k.digitChar ≠ '0' := by decide
      simpa using hall n hlt h
    · rw [List.head?_append_of_ne_nil _ Nat.toDigits_ne_nil]
      exact ih (n / 10) (by omega) (by omega)

def decimalText (whole fraction : List Char) : List Char :=
  if fraction.isEmpty then whole else whole ++ '.' :: fraction

theorem takeWhile_isDigit {digits : List Char} (hd : IsDigits digits) (rest : List Char)
    (hr : ∀ c ∈ rest.head?, c.isDigit = false) :
    (digits ++ rest).takeWhile Char.isDigit = digits ∧
      (digits ++ rest).dropWhile Char.isDigit = rest := by
  have hrest : rest.takeWhile Char.isDigit = [] ∧ rest.dropWhile Char.isDigit = rest := by
    cases rest with
    | nil => exact ⟨rfl, rfl⟩
    | cons c rest =>
      have hc := hr c rfl
      exact ⟨by simp [hc], by simp [hc]⟩
  rw [List.takeWhile_append_of_pos hd, List.dropWhile_append_of_pos hd, hrest.1, hrest.2]
  exact ⟨List.append_nil _, rfl⟩

/-- A decimal text stands for the value of its digits and its point. -/
theorem read?_decimalText {whole fraction : List Char} (hw : IsDigits whole)
    (hne : whole ≠ []) (hf : IsDigits fraction) :
    read? (decimalText whole fraction) =
      some (ofDecimal (digitsValue (whole ++ fraction)) (-(fraction.length : Int))) := by
  obtain ⟨c, rest, rfl⟩ := List.exists_cons_of_ne_nil hne
  have hc := hw c List.mem_cons_self
  have hinf : ∀ text, c :: text ≠ ['i', 'n', 'f'] ∧ c :: text ≠ ['n', 'a', 'n'] := by
    intro text
    constructor <;> rintro ⟨⟩ <;> exact absurd hc (by decide)
  have htext : ∃ text, decimalText (c :: rest) fraction = c :: text := by
    rw [decimalText]
    split
    · exact ⟨_, rfl⟩
    · exact ⟨_, rfl⟩
  obtain ⟨text, htext⟩ := htext
  rw [read?, if_neg (htext ▸ (hinf text).1), if_neg (htext ▸ (hinf text).2), decimalText]
  split
  next hempty =>
    obtain rfl := List.isEmpty_iff.mp hempty
    obtain ⟨htake, hdrop⟩ := takeWhile_isDigit hw [] (by simp)
    rw [List.append_nil] at htake hdrop
    rw [htake, hdrop]
    simp
  · obtain ⟨htake, hdrop⟩ := takeWhile_isDigit hw ('.' :: fraction) (by simp)
    obtain ⟨hfraction, hend⟩ := takeWhile_isDigit hf [] (by simp)
    rw [List.append_nil] at hfraction hend
    rw [htake, hdrop]
    simp [hfraction, hend]

def reach : Nat := 400

structure InReach (digits places : Nat) : Prop where
  pos : 0 < digits
  low : 10 ^ places ≤ digits * 10 ^ reach
  high : digits < 10 ^ (reach + places)

theorem ofDecimal_of_inReach {digits places : Nat} (h : InReach digits places) :
    ofDecimal digits (-(places : Int)) = ofQuotient false digits (10 ^ places) := by
  obtain ⟨size, hsize⟩ : ∃ size, (Nat.toDigits 10 digits).length = size := ⟨_, rfl⟩
  have hreach : reach = 400 := rfl
  have hle : size ≤ reach + places :=
    hsize ▸ (Nat.length_toDigits_le_iff (by decide) (by omega)).mpr h.high
  have hge : places ≤ size + reach := by
    have hsizepos : 0 < size := hsize ▸ Nat.length_toDigits_pos
    have hlt := (Nat.length_toDigits_le_iff (n := digits) (b := 10) (by decide) hsizepos).mp
      (Nat.le_of_eq hsize)
    have hpow : 10 ^ places < 10 ^ (size + reach) := by
      rw [Nat.pow_add]
      have := Nat.mul_lt_mul_of_pos_right hlt (Nat.pow_pos (n := reach) (by decide : 0 < 10))
      exact Nat.lt_of_le_of_lt h.low this
    exact Nat.le_of_lt ((Nat.pow_lt_pow_iff_right (by decide)).mp hpow)
  rw [ofDecimal, hsize, if_neg (Nat.ne_of_gt h.pos), if_neg (by omega), if_neg (by omega)]
  split
  · obtain rfl : places = 0 := by omega
    simp
  · rw [Int.neg_neg, Int.toNat_natCast]
    rfl

theorem pow_le_reach {base bits k l : Nat} (hl : k * l = reach)
    (h : base ^ bits ≤ 10 ^ k) : (base : ℚ) ^ (bits * l) ≤ 10 ^ reach := by
  rw [← hl, pow_mul, pow_mul]
  exact pow_le_pow_left₀ (by positivity) (by exact_mod_cast h) l

theorem RoundsTo.inReach {digits places m : Nat} {e : Int} (hm : 0 < m)
    (hc : (finite false m e).Canonical)
    (h : RoundsTo ((digits : ℚ) / (10 ^ places : Nat)) m e) : InReach digits places := by
  obtain ⟨hbits, hleast, hgreatest, hfull⟩ := hc
  have hten : (0 : ℚ) < (10 ^ places : Nat) := by positivity
  have hp : (0 : ℚ) < 2 ^ e := by positivity
  have hhalf := h.half_le
  have hhigh := h.scaled.2
  rw [le_div_iff₀ hp] at hhalf
  rw [div_le_iff₀ hp] at hhigh
  have hm' : (1 : ℚ) ≤ m := by exact_mod_cast hm
  have hbits' : (m : ℚ) + 1 ≤ 2 ^ 53 := by exact_mod_cast hbits
  have hlow : (2 : ℚ) ^ (-1075 : Int) ≤ 2 ^ (e - 1) :=
    zpow_le_zpow_right₀ (by norm_num) (by
      have : leastExponent = -1074 := rfl
      omega)
  have htop : (2 : ℚ) ^ (53 : Nat) * 2 ^ e ≤ 2 ^ (1024 : Nat) := by
    rw [← zpow_natCast, ← zpow_natCast, ← zpow_add₀ (by norm_num)]
    refine zpow_le_zpow_right₀ (by norm_num) ?_
    have : greatestExponent = 971 := rfl
    push_cast
    omega
  have hdouble : (2 : ℚ) ^ e = 2 ^ (e - 1) * 2 := by
    rw [← zpow_add_one₀ (by norm_num), sub_add_cancel]
  refine ⟨h.num_pos hm, ?_, ?_⟩
  · have hbound : (2 : ℚ) ^ (43 * 25) ≤ 10 ^ reach := pow_le_reach (k := 16) rfl (by norm_num)
    have hunit : (2 : ℚ) ^ (-1075 : Int) * 2 ^ (43 * 25) = 1 := by
      rw [← zpow_natCast, ← zpow_add₀ (by norm_num)]
      rfl
    have hone : 1 ≤ 2 ^ (e - 1) * (10 : ℚ) ^ reach := by
      rw [← hunit]
      exact mul_le_mul hlow hbound (by positivity) (by positivity)
    have hten' : (0 : ℚ) < 10 ^ reach := by positivity
    have hsmall : 2 ^ (e - 1) ≤ (digits : ℚ) / (10 ^ places : Nat) := by nlinarith
    rw [le_div_iff₀ hten] at hsmall
    have hle : ((10 ^ places : Nat) : ℚ) ≤ digits * 10 ^ reach := by
      calc ((10 ^ places : Nat) : ℚ) ≤ 2 ^ (e - 1) * 10 ^ reach * (10 ^ places : Nat) := by
            nlinarith
        _ = 2 ^ (e - 1) * (10 ^ places : Nat) * 10 ^ reach := by ring
        _ ≤ digits * 10 ^ reach := by
            exact mul_le_mul_of_nonneg_right hsmall hten'.le
    exact_mod_cast hle
  · have hbound : (2 : ℚ) ^ (64 * 16) ≤ 10 ^ reach := pow_le_reach (k := 25) rfl (by norm_num)
    have hlarge : (digits : ℚ) / (10 ^ places : Nat) < 10 ^ reach := by
      refine lt_of_lt_of_le ?_ hbound
      refine lt_of_lt_of_le ?_ htop
      nlinarith
    rw [div_lt_iff₀ hten] at hlarge
    rw [Nat.pow_add]
    exact_mod_cast hlarge

/-- Digits in the interval of a number are read as the number. -/
theorem ofDecimal_eq {digits places m : Nat} {e : Int} (hm : 0 < m)
    (hc : (finite false m e).Canonical)
    (h : RoundsTo ((digits : ℚ) / (10 ^ places : Nat)) m e) :
    ofDecimal digits (-(places : Int)) = .finite false m e := by
  rw [ofDecimal_of_inReach (h.inReach hm hc)]
  exact ofQuotient_eq (Nat.pow_pos (by decide)) hm hc h

theorem positional_eq (n places : Nat) :
    ∃ fraction, IsDigits fraction ∧
      positional n places = decimalText (Nat.toDigits 10 (n / 10 ^ places)) fraction ∧
      digitsValue (Nat.toDigits 10 (n / 10 ^ places) ++ fraction) * 10 ^ places =
        n * 10 ^ fraction.length := by
  rcases Nat.eq_zero_or_pos places with rfl | hplaces
  · refine ⟨[], isDigits_nil, ?_, ?_⟩
    · simp [positional, decimalText]
    · simp
  · obtain ⟨padded, hpadded⟩ :
        ∃ padded, paddedDigits places (n % 10 ^ places) = padded := ⟨_, rfl⟩
    have hlength : padded.length = places :=
      hpadded ▸ length_padded hplaces (Nat.mod_lt n (Nat.pow_pos (by decide)))
    have hvalue : digitsValue padded = n % 10 ^ places := hpadded ▸ digitsValue_padded _ _
    have hdigits : IsDigits padded := hpadded ▸ isDigits_padded _ _
    obtain ⟨k, hk⟩ := exists_dropTrailingZeros padded
    refine ⟨dropTrailingZeros padded, ?_, ?_, ?_⟩
    · intro c hc
      exact hdigits c (hk ▸ List.mem_append_left _ hc)
    · have hzero : (places = 0) = False := by simp; omega
      rw [← hpadded, positional, decimalText]
      simp [hzero]
    · have hsplit : digitsValue padded = digitsValue (dropTrailingZeros padded) * 10 ^ k := by
        conv_lhs => rw [hk]
        rw [digitsValue_append, digitsValue_replicate, List.length_replicate, Nat.add_zero]
      have hpower : 10 ^ places = 10 ^ (dropTrailingZeros padded).length * 10 ^ k := by
        rw [← Nat.pow_add, ← hlength]
        congr 1
        conv_lhs => rw [hk]
        rw [List.length_append, List.length_replicate]
      have hn := Nat.div_add_mod n (10 ^ places)
      rw [← hvalue, hsplit] at hn
      rw [digitsValue_append, digitsValue_toDigits]
      generalize n / 10 ^ places = whole at hn ⊢
      generalize digitsValue (dropTrailingZeros padded) = value at hn ⊢
      rw [← hn]
      rw [hpower]
      ring

def gridUnit (e : Int) : Nat :=
  if e - 2 ≥ 0 then Nat.pow 2 (e - 2).toNat else Nat.pow 5 (-(e - 2)).toNat

theorem gridUnit_pos (e : Int) : 0 < gridUnit e := by
  rw [gridUnit]
  split <;> exact Nat.pow_pos (by decide)

theorem cast_gridUnit (e : Int) :
    (gridUnit e : ℚ) = 2 ^ (e - 2) * 10 ^ (-(e - 2)).toNat := by
  rw [gridUnit]
  split
  next h =>
    have hzero : (-(e - 2)).toNat = 0 := by omega
    rw [hzero, cast_natPow, Nat.cast_ofNat, zpow_toNat h, pow_zero, mul_one]
  next h =>
    rw [cast_natPow, Nat.cast_ofNat, show (10 : ℚ) = 2 * 5 by norm_num, mul_pow,
      zpow_toNat_neg h, ← mul_assoc, ← zpow_add₀ (by norm_num)]
    simp

section

variable {m : Nat} {e : Int}

theorem low_neighbourhood :
    (neighbourhood m e).low = (4 * m - if narrow m e then 1 else 2) * gridUnit e := rfl

theorem middle_neighbourhood : (neighbourhood m e).middle = 4 * m * gridUnit e := rfl

theorem high_neighbourhood : (neighbourhood m e).high = (4 * m + 2) * gridUnit e := rfl

theorem places_neighbourhood : (neighbourhood m e).places = (-(e - 2)).toNat := rfl

theorem closed_neighbourhood : (neighbourhood m e).closed = (m % 2 == 0) := rfl

theorem candidate?_admits {n : Neighbourhood} {unit candidate : Nat}
    (h : n.candidate? unit = some candidate) : n.admits candidate = true := by
  rw [Neighbourhood.candidate?] at h
  split at h
  · obtain rfl := Option.some.inj h
    split <;> assumption
  · obtain rfl := Option.some.inj h
    assumption
  · obtain rfl := Option.some.inj h
    assumption
  · exact absurd h (by simp)

theorem admits_middle (hm : 0 < m) :
    (neighbourhood m e).admits (neighbourhood m e).middle = true := by
  have hunit := gridUnit_pos e
  have hlow : (neighbourhood m e).low < (neighbourhood m e).middle := by
    rw [low_neighbourhood, middle_neighbourhood]
    refine Nat.mul_lt_mul_of_pos_right ?_ hunit
    split <;> omega
  have hhigh : (neighbourhood m e).middle < (neighbourhood m e).high := by
    rw [middle_neighbourhood, high_neighbourhood]
    exact Nat.mul_lt_mul_of_pos_right (by omega) hunit
  rw [Neighbourhood.admits]
  split <;> simp <;> omega

theorem shortest_admits (hm : 0 < m) :
    (neighbourhood m e).admits (neighbourhood m e).shortest = true := by
  rw [Neighbourhood.shortest]
  cases h : (List.range (Nat.toDigits 10 (neighbourhood m e).middle).length).findSome? fun k =>
      (neighbourhood m e).candidate?
        (Nat.pow 10 ((Nat.toDigits 10 (neighbourhood m e).middle).length - 1 - k)) with
  | none => exact admits_middle hm
  | some candidate =>
    obtain ⟨k, _, hk⟩ := List.exists_of_findSome?_eq_some h
    exact candidate?_admits hk

/-- A number on the grid that is admitted lies in the interval. -/
theorem roundsTo_of_admits (hm : 0 < m) {candidate : Nat}
    (h : (neighbourhood m e).admits candidate = true) :
    RoundsTo ((candidate : ℚ) / (10 ^ (neighbourhood m e).places : Nat)) m e := by
  have hp : (0 : ℚ) < 2 ^ (e - 2) := by positivity
  have hstep : (2 : ℚ) ^ e = 4 * 2 ^ (e - 2) := by
    rw [show e = 2 + (e - 2) by omega, zpow_add₀ (by norm_num)]
    norm_num
  have hten : (0 : ℚ) < (10 ^ (neighbourhood m e).places : Nat) := by positivity
  have hunit : (gridUnit e : ℚ) = 2 ^ (e - 2) * (10 ^ (neighbourhood m e).places : Nat) := by
    rw [cast_gridUnit, places_neighbourhood]
    push_cast
    rfl
  have hlow : ((neighbourhood m e).low : ℚ) =
      (m - if narrow m e then 1 / 4 else 1 / 2) * 2 ^ e *
        (10 ^ (neighbourhood m e).places : Nat) := by
    rw [low_neighbourhood, Nat.cast_mul, hunit, hstep]
    have hsub : 2 ≤ 4 * m := by omega
    split <;> rw [Nat.cast_sub (by omega)] <;> push_cast <;> ring
  have hhigh : ((neighbourhood m e).high : ℚ) =
      (m + 1 / 2) * 2 ^ e * (10 ^ (neighbourhood m e).places : Nat) := by
    rw [high_neighbourhood, Nat.cast_mul, hunit, hstep]
    push_cast
    ring
  have hbetween : (neighbourhood m e).low ≤ candidate ∧
      candidate ≤ (neighbourhood m e).high := by
    rw [Neighbourhood.admits] at h
    split at h <;> simp at h <;> omega
  have hlow' : ((neighbourhood m e).low : ℚ) ≤ candidate := by exact_mod_cast hbetween.1
  have hhigh' : (candidate : ℚ) ≤ (neighbourhood m e).high := by exact_mod_cast hbetween.2
  refine ⟨?_, ?_, fun hodd => ?_⟩
  · rw [le_div_iff₀ hten, ← hlow]
    exact hlow'
  · rw [div_le_iff₀ hten, ← hhigh]
    exact hhigh'
  · have hopen : (neighbourhood m e).closed = false := by
      rw [closed_neighbourhood, hodd]
      rfl
    have hnarrow : narrow m e = false := by
      have hne : m ≠ 2 ^ 52 := by
        rintro rfl
        exact absurd hodd (by norm_num)
      rw [narrow, beq_eq_false_iff_ne.mpr hne, Bool.false_and]
    rw [Neighbourhood.admits, hopen] at h
    simp only [Bool.false_eq_true, if_false, Bool.and_eq_true, decide_eq_true_eq] at h
    have hlt : ((neighbourhood m e).low : ℚ) < candidate := by exact_mod_cast h.1
    have hgt : (candidate : ℚ) < (neighbourhood m e).high := by exact_mod_cast h.2
    rw [hlow, hnarrow] at hlt
    rw [hhigh] at hgt
    rw [lt_div_iff₀ hten, div_lt_iff₀ hten]
    exact ⟨by simpa using hlt, hgt⟩

end

/-- The digits of a number that is not negative are a decimal text that is read as the
number. -/
theorem read?_digits {m : Nat} {e : Int} (hc : (finite false m e).Canonical) :
    ∃ n fraction, IsDigits fraction ∧
      (finite false m e).digits = decimalText (Nat.toDigits 10 n) fraction ∧
      read? (decimalText (Nat.toDigits 10 n) fraction) = some (finite false m e) := by
  rcases Nat.eq_zero_or_pos m with rfl | hm
  · obtain ⟨-, hleast, -, hfull⟩ := hc
    obtain rfl : e = leastExponent := hfull.resolve_left (by norm_num)
    exact ⟨0, [], isDigits_nil, rfl, rfl⟩
  · have hround := roundsTo_of_admits hm (shortest_admits (e := e) hm)
    obtain ⟨fraction, hf, htext, hvalue⟩ :=
      positional_eq (neighbourhood m e).shortest (neighbourhood m e).places
    generalize (neighbourhood m e).shortest / 10 ^ (neighbourhood m e).places = n
      at htext hvalue
    refine ⟨n, fraction, hf, ?_, ?_⟩
    · rw [digits, if_neg (Nat.ne_of_gt hm)]
      exact htext
    · rw [read?_decimalText (isDigits_toDigits n) Nat.toDigits_ne_nil hf]
      congr 1
      have hsame : (digitsValue (Nat.toDigits 10 n ++ fraction) : ℚ) /
          (10 ^ fraction.length : Nat) =
          (neighbourhood m e).shortest / (10 ^ (neighbourhood m e).places : Nat) := by
        rw [div_eq_div_iff (by positivity) (by positivity)]
        exact_mod_cast hvalue
      exact ofDecimal_eq hm hc (hsame ▸ hround)

end MetricScope.Binary64
