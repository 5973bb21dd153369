import MetricScope.Text.Replace

/-!
# Replacement in parts of a text

A replacement cuts its text into occurrences and single items. Proofs follow these
cuts. Two texts can be replaced in apart when no occurrence can reach from the one
into the other.
-/

set_option autoImplicit false

namespace MetricScope.Text

variable {α : Type} [DecidableEq α] {old : List α}

theorem occursIn_iff_isInfix {pattern text : List α} :
    occursIn pattern text = true ↔ pattern <:+: text := by
  induction text with
  | nil => simp [occursIn]
  | cons c rest ih =>
    rw [occursIn, Bool.or_eq_true, ih, List.isPrefixOf_iff_prefix, List.infix_cons_iff]

theorem replaceAll_cons_of_no_match {c : α} {rest : List α} (new : List α)
    (h : ¬ old <+: c :: rest) :
    replaceAll old new (c :: rest) = c :: replaceAll old new rest := by
  have hb : old.isPrefixOf (c :: rest) = false := by
    rw [← Bool.not_eq_true, List.isPrefixOf_iff_prefix]
    exact h
  rw [replaceAll, replaceAfter, hb]
  rfl

theorem replaceAll_cons_of_head {c : α} (hold : old ≠ []) (hc : old.head? ≠ some c)
    (new rest : List α) : replaceAll old new (c :: rest) = c :: replaceAll old new rest := by
  apply replaceAll_cons_of_no_match
  intro hp
  obtain ⟨d, tail, rfl⟩ := List.exists_cons_of_ne_nil hold
  exact hc (by rw [List.head?_cons, (List.cons_prefix_cons.mp hp).1])

theorem replaceAll_append_self (new rest : List α) (h : old ≠ []) :
    replaceAll old new (old ++ rest) = new ++ replaceAll old new rest := by
  obtain ⟨c, tail, rfl⟩ := List.exists_cons_of_ne_nil h
  have hb : (c :: tail).isPrefixOf (c :: (tail ++ rest)) = true :=
    List.isPrefixOf_iff_prefix.mpr (List.prefix_append (c :: tail) rest)
  rw [List.cons_append, replaceAll, replaceAfter, hb, if_pos rfl, replaceAfter_eq_drop]
  simp

/-- The cuts of a replacement: an occurrence, or an item at which none starts. -/
theorem cut_induction {motive : List α → Prop} (hold : old ≠ []) (nil : motive [])
    (occurrence : ∀ rest, motive rest → motive (old ++ rest))
    (item : ∀ c rest, ¬ old <+: c :: rest → motive rest → motive (c :: rest))
    (text : List α) : motive text := by
  have hpos : 0 < old.length := List.length_pos_iff.mpr hold
  generalize hn : text.length = n
  induction n using Nat.strongRecOn generalizing text with
  | ind n ih =>
    cases text with
    | nil => exact nil
    | cons c rest =>
      by_cases h : old <+: c :: rest
      · obtain ⟨tail, htail⟩ := h
        have hlen := congrArg List.length htail
        simp only [List.length_append, hn] at hlen
        rw [← htail]
        exact occurrence tail (ih tail.length (by omega) tail rfl)
      · have hlen : rest.length < n := by
          rw [← hn, List.length_cons]
          omega
        exact item c rest h (ih rest.length hlen rest rfl)

omit [DecidableEq α] in
theorem prefix_or_prefix_of_prefix_append {p x y : List α} (h : p <+: x ++ y) :
    p <+: x ∨ x <+: p :=
  List.prefix_or_prefix_of_prefix h (List.prefix_append x y)

def StartsNowhere (old : List α) : List α → List α → Prop
  | [], _ => True
  | c :: x, rest => ¬ old <+: c :: (x ++ rest) ∧ StartsNowhere old x rest

theorem replaceAll_append {x rest : List α} (new : List α)
    (h : StartsNowhere old x rest) :
    replaceAll old new (x ++ rest) = x ++ replaceAll old new rest := by
  induction x with
  | nil => rfl
  | cons c x ih =>
    rw [List.cons_append, replaceAll_cons_of_no_match new h.1, ih h.2, List.cons_append]

omit [DecidableEq α] in
theorem isInfix_of_isInfix_append {x rest : List α} (h : StartsNowhere old x rest)
    (hin : old <:+: x ++ rest) : old <:+: rest := by
  induction x with
  | nil => exact hin
  | cons c x ih =>
    rcases List.infix_cons_iff.mp hin with hp | hin
    · exact absurd hp h.1
    · exact ih h.2 hin

omit [DecidableEq α] in
theorem StartsNowhere.mono {longer x rest : List α} (h : StartsNowhere old x rest)
    (hp : old <+: longer) : StartsNowhere longer x rest := by
  induction x with
  | nil => trivial
  | cons c x ih => exact ⟨fun hlonger => h.1 (hp.trans hlonger), ih h.2⟩

def apart (old : List α) : List α → Bool
  | [] => true
  | c :: rest =>
      !old.isPrefixOf (c :: rest) && !(c :: rest).isPrefixOf old && apart old rest

theorem apart_cons_iff {c : α} {rest : List α} :
    apart old (c :: rest) = true ↔
      ¬ old <+: c :: rest ∧ ¬ c :: rest <+: old ∧ apart old rest = true := by
  rw [apart, Bool.and_eq_true, Bool.and_eq_true, Bool.not_eq_true', Bool.not_eq_true',
    ← Bool.not_eq_true, ← Bool.not_eq_true, List.isPrefixOf_iff_prefix,
    List.isPrefixOf_iff_prefix, and_assoc]

theorem apart_of_append {x y : List α} (h : apart old (x ++ y) = true) :
    apart old y = true := by
  induction x with
  | nil => exact h
  | cons c x ih => exact ih (apart_cons_iff.mp h).2.2

theorem startsNowhere_of_apart {x : List α} (rest : List α) (h : apart old x = true) :
    StartsNowhere old x rest := by
  induction x with
  | nil => trivial
  | cons c x ih =>
    have hc := apart_cons_iff.mp h
    refine ⟨fun hp => ?_, ih hc.2.2⟩
    rw [← List.cons_append] at hp
    rcases prefix_or_prefix_of_prefix_append hp with hp | hp
    · exact hc.1 hp
    · exact hc.2.1 hp

theorem not_isInfix_of_apart {text : List α} (hold : old ≠ []) (h : apart old text = true) :
    ¬ old <:+: text := by
  intro hin
  rw [← List.append_nil text] at hin
  have hnil := isInfix_of_isInfix_append (startsNowhere_of_apart [] h) hin
  exact hold (List.eq_nil_of_infix_nil hnil)

theorem apart_of_head_not_mem {a : α} {tail x : List α} (h : a ∉ x) :
    apart (a :: tail) x = true := by
  induction x with
  | nil => rfl
  | cons c rest ih =>
    have hne : a ≠ c := fun hac => h (hac ▸ List.mem_cons_self)
    have hrest : a ∉ rest := fun hmem => h (List.mem_cons_of_mem c hmem)
    refine apart_cons_iff.mpr ⟨?_, ?_, ih hrest⟩
    · rw [List.cons_prefix_cons]
      exact fun hp => hne hp.1
    · rw [List.cons_prefix_cons]
      exact fun hp => hne hp.1.symm

omit [DecidableEq α] in
/-- A prefix ends in front of an item that is not in it. -/
theorem prefix_of_prefix_append_cons {p x y : List α} {c : α} (hc : c ∉ p)
    (h : p <+: x ++ c :: y) : p <+: x := by
  rcases prefix_or_prefix_of_prefix_append h with hp | ⟨tail, rfl⟩
  · exact hp
  · cases tail with
    | nil => simp
    | cons d tail =>
      rw [List.prefix_append_right_inj, List.cons_prefix_cons] at h
      exact absurd (h.1 ▸ by simp) hc

/-- An item that is not in the pattern parts the text. -/
theorem replaceAll_append_cons {c : α} (hold : old ≠ []) (hc : c ∉ old) (new x y : List α) :
    replaceAll old new (x ++ c :: y) = replaceAll old new x ++ c :: replaceAll old new y := by
  induction x using cut_induction hold with
  | nil =>
    have hp : ¬ old <+: c :: y := fun hp => by
      obtain ⟨d, tail, rfl⟩ := List.exists_cons_of_ne_nil hold
      exact hc (by simp [(List.cons_prefix_cons.mp hp).1])
    rw [List.nil_append, replaceAll_cons_of_no_match new hp, replaceAll_nil,
      List.nil_append]
  | occurrence rest ih =>
    rw [List.append_assoc, replaceAll_append_self new _ hold,
      replaceAll_append_self new _ hold, ih, List.append_assoc]
  | item d rest hd ih =>
    have hp : ¬ old <+: d :: (rest ++ c :: y) := fun hp =>
      hd (prefix_of_prefix_append_cons hc hp)
    rw [List.cons_append, replaceAll_cons_of_no_match new hp,
      replaceAll_cons_of_no_match new hd, ih, List.cons_append]

/-- A replacement begins like its text as long as what is put in does not begin. -/
theorem prefix_of_prefix_replaceAll {new p text : List α} (hold : old ≠ [])
    (hnew : apart new p = true) (h : p <+: replaceAll old new text) : p <+: text := by
  induction text using cut_induction hold generalizing p with
  | nil => exact h
  | occurrence rest ih =>
    rw [replaceAll_append_self _ _ hold] at h
    cases p with
    | nil => exact List.nil_prefix
    | cons d p =>
      have hd := apart_cons_iff.mp hnew
      rcases prefix_or_prefix_of_prefix_append h with h | h
      · exact absurd h hd.2.1
      · exact absurd h hd.1
  | item c rest hc ih =>
    rw [replaceAll_cons_of_no_match _ hc] at h
    cases p with
    | nil => exact List.nil_prefix
    | cons d p =>
      rw [List.cons_prefix_cons] at h ⊢
      exact ⟨h.1, ih (apart_cons_iff.mp hnew).2.2 h.2⟩

/-- What keeps apart from the text that is put in is not made by the replacement. -/
theorem isInfix_of_isInfix_replaceAll {new p text : List α} (hold : old ≠ [])
    (hnew : apart new p = true) (hp : apart p new = true)
    (h : p <:+: replaceAll old new text) : p <:+: text := by
  induction text using cut_induction hold with
  | nil => exact h
  | occurrence rest ih =>
    rw [replaceAll_append_self _ _ hold] at h
    have hrest := isInfix_of_isInfix_append (startsNowhere_of_apart _ hp) h
    exact (ih hrest).trans (List.suffix_append old rest).isInfix
  | item c rest hc ih =>
    have hcons := replaceAll_cons_of_no_match new hc
    rw [hcons, List.infix_cons_iff, ← hcons] at h
    rcases h with h | h
    · exact (prefix_of_prefix_replaceAll hold hnew h).isInfix
    · exact List.infix_cons (ih h)

theorem not_isInfix_replaceAll {new : List α} (hold : old ≠ []) (hnew : apart new old = true)
    (hp : apart old new = true) (text : List α) : ¬ old <:+: replaceAll old new text := by
  intro h
  induction text using cut_induction hold with
  | nil => exact hold (List.eq_nil_of_infix_nil h)
  | occurrence rest ih =>
    rw [replaceAll_append_self _ _ hold] at h
    exact ih (isInfix_of_isInfix_append (startsNowhere_of_apart _ hp) h)
  | item c rest hc ih =>
    have hcons := replaceAll_cons_of_no_match new hc
    rw [hcons, List.infix_cons_iff, ← hcons] at h
    rcases h with h | h
    · exact hc (prefix_of_prefix_replaceAll hold hnew h)
    · exact ih h

end MetricScope.Text
