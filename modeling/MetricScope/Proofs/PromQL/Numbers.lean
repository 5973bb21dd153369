import MetricScope.Proofs.Number.Decimal
import MetricScope.Proofs.PromQL.Grammar

/-!
# Number literals read back

Every literal stands for a number that is not negative, and the text that is written for
such a number is a decimal text, never an octal one, that is read as the number.
-/

set_option autoImplicit false

namespace MetricScope

open PromQL

namespace Binary64

structure IsLiteral (x : Binary64) : Prop where
  canonical : x.Canonical
  positive : x.isNegative = false

theorem isLiteral_ofQuotient (num : Nat) {den : Nat} (hden : 0 < den) :
    (ofQuotient false num den).IsLiteral :=
  ⟨canonical_ofQuotient false num hden, isNegative_ofQuotient false num den⟩

theorem isLiteral_ofNat (n : Nat) : (ofNat n).IsLiteral :=
  isLiteral_ofQuotient n Nat.one_pos

theorem isLiteral_ofDecimal (digits : Nat) (power : Int) : (ofDecimal digits power).IsLiteral := by
  rw [ofDecimal]
  split
  · exact isLiteral_ofQuotient 0 Nat.one_pos
  · split
    · exact ⟨trivial, rfl⟩
    · split
      · exact isLiteral_ofQuotient 0 Nat.one_pos
      · split
        · exact isLiteral_ofQuotient _ Nat.one_pos
        · exact isLiteral_ofQuotient _ (Nat.pow_pos (by decide))

theorem isLiteral_read? {text : List Char} {x : Binary64} (h : read? text = some x) :
    x.IsLiteral := by
  rw [read?] at h
  split at h
  · obtain rfl := Option.some.inj h
    exact ⟨trivial, rfl⟩
  · split at h
    · obtain rfl := Option.some.inj h
      exact ⟨trivial, rfl⟩
    · dsimp only at h
      split at h
      all_goals
        split at h
        · exact absurd h (by simp)
        · obtain ⟨power, _, rfl⟩ := Option.map_eq_some_iff.mp h
          exact isLiteral_ofDecimal _ _

theorem toQuotient_pos {x : Binary64} {n d : Nat} (h : x.toQuotient = some (n, d)) : 0 < d := by
  cases x with
  | nan | infinite _ => exact absurd h (by simp [toQuotient])
  | finite negative m e =>
    rw [toQuotient] at h
    split at h
    · obtain ⟨-, rfl⟩ := Prod.mk.inj (Option.some.inj h)
      exact Nat.one_pos
    · obtain ⟨-, rfl⟩ := Prod.mk.inj (Option.some.inj h)
      exact Nat.pow_pos (by decide)

end Binary64

namespace PromQL

theorem Duration.isLiteral_seconds (d : Duration) : d.seconds.IsLiteral := by
  rw [Duration.seconds]
  split
  next w f hw hf =>
    exact Binary64.isLiteral_ofQuotient _
      (Nat.mul_pos (Binary64.toQuotient_pos hw) (Binary64.toQuotient_pos hf))
  · exact Binary64.isLiteral_ofNat _

theorem Literal.isLiteral_number {text : String} {x : Binary64}
    (h : Literal.number text = .ok x) : x.IsLiteral := by
  have hinteger : ∀ {base digits} {x : Binary64},
      Literal.integer? base digits = some x → x.IsLiteral := by
    intro base digits x h
    rw [Literal.integer?] at h
    split at h
    · exact absurd h (by simp)
    · split at h
      · split at h
        · obtain rfl := Option.some.inj h
          exact Binary64.isLiteral_ofNat _
        · exact absurd h (by simp)
      · exact absurd h (by simp)
  rw [Literal.number] at h
  split at h
  · split at h
    next hx =>
      obtain rfl := Except.ok.inj h
      exact hinteger hx
    · exact absurd h (by simp)
  · split at h
    · split at h
      next hx =>
        obtain rfl := Except.ok.inj h
        exact hinteger hx
      · exact absurd h (by simp)
    · split at h
      next hx =>
        obtain rfl := Except.ok.inj h
        exact Binary64.isLiteral_read? hx
      · exact absurd h (by simp)

theorem Literal.isLiteral_durationSeconds {text : String} {x : Binary64}
    (h : Literal.durationSeconds text = .ok x) : x.IsLiteral := by
  rw [Literal.durationSeconds] at h
  split at h
  next d _ =>
    obtain rfl := Except.ok.inj h
    exact d.isLiteral_seconds
  · exact absurd h (by simp)

open Binary64 (IsDigits decimalText)

theorem mem_decimalText {whole fraction : List Char} {c : Char}
    (h : c ∈ decimalText whole fraction) : c ∈ whole ∨ c = '.' ∨ c ∈ fraction := by
  rw [decimalText] at h
  split at h
  · exact .inl h
  · simpa using h

theorem map_toLower_decimalText {whole fraction : List Char} (hw : IsDigits whole)
    (hf : IsDigits fraction) :
    (decimalText whole fraction).map Char.toLower = decimalText whole fraction := by
  refine (List.map_congr_left fun c hc => ?_).trans (List.map_id _)
  have hdigit : ∀ c : Char, c.isDigit = true → c.toLower = c := by
    intro c hc
    have hle : c.val ≤ '9'.val := (Char.isDigit_iff_toNat.mp hc).2
    have hupper : ¬('A'.val ≤ c.val ∧ c.val ≤ 'Z'.val) := by
      rintro ⟨hge, -⟩
      exact absurd (UInt32.le_trans hge hle) (by decide)
    exact dif_neg hupper
  rcases mem_decimalText hc with hc | rfl | hc
  · exact hdigit c (hw c hc)
  · rfl
  · exact hdigit c (hf c hc)

theorem not_isOctal_decimalText {n : Nat} {fraction : List Char} :
    Literal.isOctal (decimalText (Nat.toDigits 10 n) fraction) = false := by
  rw [decimalText]
  split
  · rcases Nat.eq_zero_or_pos n with rfl | hn
    · rfl
    · have hhead := Binary64.head?_toDigits_ne_zero hn
      rw [Literal.isOctal, beq_eq_false_iff_ne.mpr hhead]
      rfl
  · simp [Literal.isOctal]

/-- A decimal text is read as the number that its digits stand for. -/
theorem Literal.number_decimalText {n : Nat} {fraction : List Char} (hf : IsDigits fraction)
    {x : Binary64} (h : Binary64.read? (decimalText (Nat.toDigits 10 n) fraction) = some x) :
    Literal.number (String.ofList (decimalText (Nat.toDigits 10 n) fraction)) = .ok x := by
  have hlower := map_toLower_decimalText (Binary64.isDigits_toDigits n) hf
  have hx : (decimalText (Nat.toDigits 10 n) fraction).contains 'x' = false := by
    rw [List.contains_eq_mem, decide_eq_false_iff_not]
    intro hmem
    rcases mem_decimalText hmem with hmem | hmem | hmem
    · exact absurd (Binary64.isDigits_toDigits n _ hmem) (by decide)
    · exact absurd hmem (by decide)
    · exact absurd (hf _ hmem) (by decide)
  rw [Literal.number, String.toList_ofList]
  simp only [hlower, hx, not_isOctal_decimalText, h]
  rfl

namespace Lexer

theorem read_digits {phase : NumberPhase}
    (hstep : ∀ c : Char, c.isDigit = true → phase.step c = .extend phase)
    {text : List Char} (ht : IsDigits text) : phase.read text = some phase := by
  induction text with
  | nil => rfl
  | cons c text ih =>
    rw [NumberPhase.read, hstep c (ht c List.mem_cons_self)]
    exact ih fun d hd => ht d (List.mem_cons_of_mem c hd)

theorem readNumber_decimalText {n : Nat} {fraction : List Char} (hf : IsDigits fraction) :
    ∃ phase, readNumber (decimalText (Nat.toDigits 10 n) fraction) = some phase ∧
      phase.endsDecimal = true := by
  have hfraction : ∀ {phase : NumberPhase}, phase.step '.' = .extend .fraction →
      phase.endsDecimal = true → ∃ last, phase.read (if fraction.isEmpty then []
        else '.' :: fraction) = some last ∧ last.endsDecimal = true := by
    intro phase hpoint hphase
    split
    · exact ⟨phase, rfl, hphase⟩
    · refine ⟨.fraction, ?_, rfl⟩
      rw [NumberPhase.read, hpoint]
      exact read_digits (fun c hc => by simp [NumberPhase.step, hc]) hf
  obtain ⟨c, rest, hdigits⟩ :=
    List.exists_cons_of_ne_nil (Nat.toDigits_ne_nil (n := n) (b := 10))
  have hall := Binary64.isDigits_toDigits n
  rw [hdigits] at hall ⊢
  have htext : decimalText (c :: rest) fraction =
      c :: (rest ++ if fraction.isEmpty then [] else '.' :: fraction) := by
    rw [decimalText]
    split <;> simp
  have hc : c.isDigit = true := hall c List.mem_cons_self
  rw [htext, readNumber, if_pos hc]
  by_cases hzero : c = '0'
  · subst hzero
    have hn : n = 0 := by
      by_contra hne
      have hhead := Binary64.head?_toDigits_ne_zero (Nat.pos_of_ne_zero hne)
      rw [hdigits] at hhead
      exact hhead rfl
    subst hn
    obtain rfl : rest = [] := by
      rw [Nat.toDigits_zero] at hdigits
      exact (List.cons.inj hdigits).2.symm
    exact hfraction rfl rfl
  · rw [if_neg (by simpa using hzero), NumberPhase.read_append,
      read_digits (fun d hd => by simp [NumberPhase.step, hd])
        fun d hd => hall d (List.mem_cons_of_mem c hd)]
    exact hfraction rfl rfl

end Lexer

/-- A literal's number is written so that it is read as the number. -/
theorem numberReadsBack {x : Binary64} (h : x.IsLiteral) : NumberReadsBack x := by
  cases x with
  | nan => exact ⟨Lexer.scans_word rfl, rfl⟩
  | infinite negative =>
    obtain rfl : negative = false := h.positive
    exact ⟨Lexer.scans_word rfl, rfl⟩
  | finite negative m e =>
    obtain rfl : negative = false := h.positive
    obtain ⟨n, fraction, hf, htext, hread⟩ := Binary64.read?_digits h.canonical
    have hnumber : numberText (.finite false m e) =
        String.ofList (decimalText (Nat.toDigits 10 n) fraction) := by
      rw [← htext]
      rfl
    obtain ⟨phase, hphase, hend⟩ := Lexer.readNumber_decimalText (n := n) hf
    constructor
    · rw [hnumber, String.toList_ofList]
      exact Lexer.scans_number hphase hend
    · rw [hnumber]
      exact Literal.number_decimalText hf hread

end PromQL

end MetricScope
