import MetricScope.Proofs.PromQL.Numbers

/-!
# Durations read back

A duration is written as counts of units, so it is read back when every count is small
enough to be read at all. Less than a millisecond is never written.
-/

set_option autoImplicit false

namespace MetricScope.PromQL

open Binary64 (IsDigits)

theorem isAlphanum_of_isDigit {c : Char} (h : c.isDigit = true) : c.isAlphanum = true := by
  simp [Char.isAlphanum, h]

namespace Duration

def counts : List TimeUnit → Nat → List (Nat × TimeUnit)
  | [], _ => []
  | unit :: units, ms =>
      if unit.wholeOnly && ms % unit.milliseconds != 0 then counts units ms
      else if ms / unit.milliseconds = 0 then counts units (ms % unit.milliseconds)
      else (ms / unit.milliseconds, unit) :: counts units (ms % unit.milliseconds)

def countText (c : Nat × TimeUnit) : List Char :=
  Nat.toDigits 10 c.1 ++ c.2.letters

theorem writeUnits_eq (units : List TimeUnit) (ms : Nat) :
    writeUnits units ms = (counts units ms).flatMap countText := by
  induction units generalizing ms with
  | nil => rfl
  | cons unit units ih =>
    rw [writeUnits, counts]
    split
    · exact ih ms
    · dsimp only
      split
      · rw [ih, List.nil_append]
      · rw [ih, List.flatMap_cons]
        rfl

theorem isAlphanum_of_mem_text {d : Duration} {c : Char} (h : c ∈ d.text.toList) :
    c.isAlphanum = true := by
  rw [Duration.text] at h
  split at h
  · have hzero : "0s".toList.all Char.isAlphanum = true := by decide
    exact List.all_eq_true.mp hzero c h
  · rw [String.toList_ofList, writeUnits_eq] at h
    obtain ⟨count, -, hc⟩ := List.mem_flatMap.mp h
    rcases List.mem_append.mp hc with hc | hc
    · exact isAlphanum_of_isDigit (Binary64.isDigits_toDigits count.1 c hc)
    · have hletters : ∀ unit : TimeUnit, unit.letters.all Char.isAlphanum = true := by
        intro unit
        cases unit <;> decide
      exact List.all_eq_true.mp (hletters count.2) c hc

theorem counts_pos {units : List TimeUnit} {ms : Nat} {c : Nat × TimeUnit}
    (h : c ∈ counts units ms) : 0 < c.1 := by
  induction units generalizing ms with
  | nil => exact absurd h (by simp [counts])
  | cons unit units ih =>
    rw [counts] at h
    split at h
    · exact ih h
    · split at h
      · exact ih h
      next hpos =>
        rcases List.mem_cons.mp h with rfl | h
        · exact Nat.pos_of_ne_zero hpos
        · exact ih h

theorem counts_sublist (units : List TimeUnit) (ms : Nat) :
    ((counts units ms).map Prod.snd).Sublist units := by
  induction units generalizing ms with
  | nil => exact List.Sublist.refl _
  | cons unit units ih =>
    rw [counts]
    split
    · exact (ih ms).cons unit
    · split
      · exact (ih _).cons unit
      · exact (ih _).cons_cons unit

def countsValue (cs : List (Nat × TimeUnit)) : Nat :=
  (cs.map fun c => c.1 * c.2.milliseconds).sum

theorem countsValue_counts (units : List TimeUnit)
    (h : units.getLast? = some .millisecond) (ms : Nat) : countsValue (counts units ms) = ms := by
  induction units generalizing ms with
  | nil => exact absurd h (by simp)
  | cons unit units ih =>
    have hdiv := Nat.div_add_mod ms unit.milliseconds
    have hrest : countsValue (counts units (ms % unit.milliseconds)) =
        ms % unit.milliseconds := by
      cases units with
      | nil =>
        obtain rfl : unit = .millisecond := by simpa using h
        simp [counts, countsValue, TimeUnit.milliseconds, Nat.mod_one]
      | cons next units => exact ih (by simpa using h) _
    rw [counts]
    split
    next hskip =>
      cases units with
      | nil =>
        obtain rfl : unit = .millisecond := by simpa using h
        exact absurd hskip (by simp [TimeUnit.wholeOnly])
      | cons next units => exact ih (by simpa using h) ms
    · split
      next hzero =>
        rw [hrest]
        rw [hzero] at hdiv
        omega
      · rw [countsValue, List.map_cons, List.sum_cons, ← countsValue, hrest, Nat.mul_comm]
        exact hdiv

theorem components_digits {ds : List Char} (h : IsDigits ds) (digits text : List Char) :
    components digits [] (ds ++ text) = components (digits ++ ds) [] text := by
  induction ds generalizing digits with
  | nil => simp
  | cons c ds ih =>
    rw [List.cons_append, components, if_pos (h c List.mem_cons_self)]
    simp only [List.isEmpty_nil, if_true]
    rw [ih fun d hd => h d (List.mem_cons_of_mem c hd), List.append_assoc]
    rfl

theorem components_letters (unit : TimeUnit) (digits text : List Char) :
    components digits [] (unit.letters ++ text) = components digits unit.letters text := by
  cases unit <;> rfl

theorem letters_ne_nil (unit : TimeUnit) : unit.letters ≠ [] := by
  cases unit <;> simp [TimeUnit.letters]

def component (c : Nat × TimeUnit) : List Char × List Char :=
  (Nat.toDigits 10 c.1, c.2.letters)

theorem components_count (c : Nat × TimeUnit) (text : List Char) :
    components [] [] (countText c ++ text) =
      components (Nat.toDigits 10 c.1) c.2.letters text := by
  rw [countText, List.append_assoc, components_digits (Binary64.isDigits_toDigits _),
    components_letters]
  rfl

theorem components_next {letters : List Char} (hl : letters ≠ []) (digits : List Char)
    (c : Nat × TimeUnit) (text : List Char) :
    components digits letters (countText c ++ text) =
      (digits, letters) :: components [] [] (countText c ++ text) := by
  obtain ⟨d, rest, hd⟩ :=
    List.exists_cons_of_ne_nil (Nat.toDigits_ne_nil (n := c.1) (b := 10))
  have hdigit : d.isDigit = true :=
    Binary64.isDigits_toDigits c.1 d (hd ▸ List.mem_cons_self)
  have htext : countText c ++ text = d :: (rest ++ (c.2.letters ++ text)) := by
    simp [countText, hd]
  have hempty : letters.isEmpty = false := by simpa using hl
  rw [htext, components, components]
  simp [hdigit, hempty]

theorem components_flatMap {c : Nat × TimeUnit} {cs : List (Nat × TimeUnit)} :
    components [] [] ((c :: cs).flatMap countText) = (c :: cs).map component := by
  induction cs generalizing c with
  | nil =>
    rw [List.flatMap_cons, components_count]
    rfl
  | cons next cs ih =>
    rw [List.flatMap_cons, components_count, List.flatMap_cons,
      components_next (letters_ne_nil c.2), ← List.flatMap_cons, ih]
    rfl

theorem countValue_toDigits {n : Nat} (h : n < 2 ^ 32) : countValue (Nat.toDigits 10 n) = n := by
  rw [countValue, Binary64.digitsValue_toDigits]
  exact if_pos h

theorem letters_injective {u v : TimeUnit} (h : u.letters = v.letters) : u = v := by
  revert h
  cases u <;> cases v <;> decide

theorem total_component {units : List TimeUnit} (hn : units.Nodup)
    {cs : List (Nat × TimeUnit)} (hs : (cs.map Prod.snd).Sublist units)
    (hc : ∀ c ∈ cs, c.1 < 2 ^ 32) :
    total units (cs.map component) = some (countsValue cs) := by
  induction units generalizing cs with
  | nil =>
    obtain rfl : cs = [] := by simpa using hs
    rfl
  | cons unit units ih =>
    obtain ⟨hunit, hn⟩ := List.nodup_cons.mp hn
    cases cs with
    | nil => rfl
    | cons c cs =>
      rw [List.map_cons, component, total]
      split
      next hl =>
        have hcunit : c.2 = unit := letters_injective hl
        rw [List.map_cons, hcunit, List.cons_sublist_cons] at hs
        rw [ih hn hs fun d hd => hc d (List.mem_cons_of_mem c hd),
          countValue_toDigits (hc c List.mem_cons_self), ← hcunit]
        rfl
      next hl =>
        have hs' : ((c :: cs).map Prod.snd).Sublist units := by
          cases hs with
          | cons _ hs => exact hs
          | cons_cons _ hs => exact absurd rfl hl
        exact ih hn hs' hc

theorem nodup_all : TimeUnit.all.Nodup := by decide

def CountsFit (ms : Nat) : Prop :=
  ∀ c ∈ counts TimeUnit.all ms, c.1 < 2 ^ 32

theorem ofLiteral_writeUnits {ms : Nat} (hpos : 0 < ms) (h : CountsFit ms) :
    ofLiteral (writeUnits TimeUnit.all ms) = some (ofMilliseconds ms) := by
  have hvalue := countsValue_counts TimeUnit.all rfl ms
  have hs := counts_sublist TimeUnit.all ms
  rw [writeUnits_eq, ofLiteral]
  rw [CountsFit] at h
  generalize counts TimeUnit.all ms = cs at h hs hvalue ⊢
  cases cs with
  | nil => exact absurd hvalue.symm (Nat.ne_of_gt hpos)
  | cons c cs =>
    rw [components_flatMap, total_component nodup_all hs h, hvalue]
    rfl

open Lexer (NumberPhase)

theorem read_letters (unit : TimeUnit) :
    ∃ last, NumberPhase.digits.read unit.letters = some last ∧ last.endsDuration = true := by
  cases unit <;> exact ⟨_, rfl, rfl⟩

theorem read_laterLetters {unit : TimeUnit} (h : unit ≠ .year) :
    ∃ last, NumberPhase.count.read unit.letters = some last ∧ last.endsDuration = true := by
  cases unit <;> first | exact absurd rfl h | exact ⟨_, rfl, rfl⟩

theorem read_laterCount {phase : NumberPhase} (hphase : phase.endsDuration = true)
    {c : Nat × TimeUnit} (hc : c.2 ≠ .year) :
    ∃ last, phase.read (countText c) = some last ∧ last.endsDuration = true := by
  obtain ⟨d, rest, hd⟩ :=
    List.exists_cons_of_ne_nil (Nat.toDigits_ne_nil (n := c.1) (b := 10))
  have hall := Binary64.isDigits_toDigits c.1
  rw [hd] at hall
  have hdigit : d.isDigit = true := hall d List.mem_cons_self
  have hstep : phase.step d = .extend .count := by
    have hs : (d == 's') = false := by
      rw [beq_eq_false_iff_ne]
      rintro rfl
      exact absurd hdigit (by decide)
    cases phase with
    | unit => simp [NumberPhase.step, Lexer.afterUnit, hdigit, hs]
    | unitEnd => simp [NumberPhase.step, Lexer.afterUnit, hdigit]
    | _ => exact absurd hphase (by simp [NumberPhase.endsDuration])
  obtain ⟨last, hlast, hend⟩ := read_laterLetters hc
  refine ⟨last, ?_, hend⟩
  rw [countText, hd, List.cons_append, NumberPhase.read, hstep]
  dsimp only
  rw [NumberPhase.read_append,
    Lexer.read_digits (fun e he => by simp [NumberPhase.step, he])
      fun e he => hall e (List.mem_cons_of_mem d he)]
  exact hlast

theorem read_laterCounts {phase : NumberPhase} (hphase : phase.endsDuration = true)
    {cs : List (Nat × TimeUnit)} (hcs : ∀ c ∈ cs, c.2 ≠ .year) :
    ∃ last, phase.read (cs.flatMap countText) = some last ∧ last.endsDuration = true := by
  induction cs generalizing phase with
  | nil => exact ⟨phase, rfl, hphase⟩
  | cons c cs ih =>
    obtain ⟨next, hnext, hend⟩ := read_laterCount hphase (hcs c List.mem_cons_self)
    obtain ⟨last, hlast, hlastEnd⟩ := ih hend fun d hd => hcs d (List.mem_cons_of_mem c hd)
    refine ⟨last, ?_, hlastEnd⟩
    rw [List.flatMap_cons, NumberPhase.read_append, hnext]
    exact hlast

/-- Years are the first unit if they are written at all. -/
theorem ne_year_of_sublist {units : List TimeUnit} {unit : TimeUnit}
    (h : (unit :: units).Sublist TimeUnit.all) : ∀ u ∈ units, u ≠ .year := by
  have hall : TimeUnit.all.Pairwise fun _ v => v ≠ .year := by decide
  exact (List.pairwise_cons.mp (hall.sublist h)).1

theorem readNumber_writeUnits {ms : Nat} (hpos : 0 < ms) :
    ∃ phase, Lexer.readNumber (writeUnits TimeUnit.all ms) = some phase ∧
      phase.endsDuration = true := by
  have hvalue := countsValue_counts TimeUnit.all rfl ms
  have hs := counts_sublist TimeUnit.all ms
  have hp : ∀ c ∈ counts TimeUnit.all ms, 0 < c.1 := fun c hc => counts_pos hc
  rw [writeUnits_eq]
  generalize counts TimeUnit.all ms = cs at hp hs hvalue ⊢
  cases cs with
  | nil => exact absurd hvalue.symm (Nat.ne_of_gt hpos)
  | cons c cs =>
    obtain ⟨d, rest, hd⟩ :=
      List.exists_cons_of_ne_nil (Nat.toDigits_ne_nil (n := c.1) (b := 10))
    have hall := Binary64.isDigits_toDigits c.1
    have hhead := Binary64.head?_toDigits_ne_zero (hp c List.mem_cons_self)
    rw [hd] at hall hhead
    have hzero : (d == '0') = false := by simpa using hhead
    obtain ⟨first, hfirst, hend⟩ := read_letters c.2
    have hlater : ∀ e ∈ cs, e.2 ≠ .year := fun e he =>
      ne_year_of_sublist hs e.2 (List.mem_map_of_mem he)
    obtain ⟨last, hlast, hlastEnd⟩ := read_laterCounts hend hlater
    refine ⟨last, ?_, hlastEnd⟩
    rw [List.flatMap_cons, countText, hd, List.append_assoc, List.cons_append,
      Lexer.readNumber, if_pos (hall d List.mem_cons_self), hzero, if_neg (by simp),
      NumberPhase.read_append,
      Lexer.read_digits (fun e he => by simp [NumberPhase.step, he])
        fun e he => hall e (List.mem_cons_of_mem d he)]
    rw [Option.bind_some, NumberPhase.read_append, hfirst]
    exact hlast

def wholeMilliseconds (d : Duration) : Nat := d.nanoseconds / perMillisecond

def canon (d : Duration) : Duration := ofMilliseconds d.wholeMilliseconds

structure IsLegible (d : Duration) : Prop where
  positive : 0 < d.wholeMilliseconds
  counts : CountsFit d.wholeMilliseconds

theorem wholeMilliseconds_canon (d : Duration) :
    d.canon.wholeMilliseconds = d.wholeMilliseconds :=
  Nat.mul_div_cancel _ (by decide)

theorem text_eq {d : Duration} (h : 0 < d.wholeMilliseconds) :
    d.text = String.ofList (writeUnits TimeUnit.all d.wholeMilliseconds) := by
  rw [text, if_neg]
  · rfl
  · intro hzero
    rw [wholeMilliseconds, hzero] at h
    exact absurd h (by decide)

theorem text_canon {d : Duration} (h : 0 < d.wholeMilliseconds) : d.canon.text = d.text := by
  rw [text_eq h, text_eq (by rwa [wholeMilliseconds_canon]), wholeMilliseconds_canon]

/-- A legible duration is read from its text, up to what is less than a millisecond. -/
theorem IsLegible.isWritten {d : Duration} (h : d.IsLegible) : d.canon.IsWritten where
  scans := by
    rw [text_canon h.positive, text_eq h.positive, String.toList_ofList]
    exact readNumber_writeUnits h.positive
  literal := by
    rw [text_canon h.positive, text_eq h.positive, Literal.duration, String.toList_ofList,
      ofLiteral_writeUnits h.positive h.counts]
    have hne : (ofMilliseconds d.wholeMilliseconds).nanoseconds ≠ 0 :=
      Nat.ne_of_gt (Nat.mul_pos h.positive (by decide))
    dsimp only
    rw [if_neg hne]
    rfl

end Duration

end MetricScope.PromQL
