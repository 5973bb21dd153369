import MetricScope.Proofs.TemplateVariable.Encoding

/-!
# Tokens in one pass

A text is read from left to right. Where tokens start the longest of them is taken, and
every other character stands for itself. The marks that are found are those that encoding
finds, one variable after the other.
-/

set_option autoImplicit false

namespace MetricScope.TemplateVariable

open Text

def leading? (text : List Char) : Option TemplateVariable :=
  all.find? fun v => v.token.toList.isPrefixOf text

theorem all_longest_first :
    all.Pairwise fun v w => w.token.toList.length ≤ v.token.toList.length := by
  decide

theorem token_prefix_of_leading? {text : List Char} {v : TemplateVariable}
    (h : leading? text = some v) : v.token.toList <+: text := by
  have hv := List.find?_some h
  exact List.isPrefixOf_iff_prefix.mp hv

theorem length_le_of_leading? {text : List Char} {v w : TemplateVariable}
    (h : leading? text = some v) (hw : w.token.toList <+: text) :
    w.token.toList.length ≤ v.token.toList.length := by
  obtain ⟨-, before, after, hall, hbefore⟩ := List.find?_eq_some_iff_append.mp h
  have hlongest := all_longest_first
  have hmem := mem_all w
  rw [hall] at hlongest hmem
  rcases List.mem_append.mp hmem with hmem | hmem
  · have hno := hbefore w hmem
    simp [List.isPrefixOf_iff_prefix.mpr hw] at hno
  · rcases List.mem_cons.mp hmem with rfl | hmem
    · exact Nat.le_refl _
    · exact (List.pairwise_cons.mp (List.pairwise_append.mp hlongest).2.1).1 w hmem

theorem leading?_eq_none_iff {text : List Char} :
    leading? text = none ↔ ∀ v : TemplateVariable, ¬ v.token.toList <+: text := by
  rw [leading?, List.find?_eq_none]
  constructor
  · intro h v hv
    exact h v (mem_all v) (List.isPrefixOf_iff_prefix.mpr hv)
  · intro h v _ hv
    exact h v (List.isPrefixOf_iff_prefix.mp hv)

/-- Of the tokens that a text starts with, the longest is the one that is read. -/
theorem leading?_eq_some_iff {text : List Char} {v : TemplateVariable} :
    leading? text = some v ↔ v.token.toList <+: text ∧
      ∀ w : TemplateVariable, w.token.toList <+: text →
        w.token.toList.length ≤ v.token.toList.length := by
  constructor
  · intro h
    exact ⟨token_prefix_of_leading? h, fun w hw => length_le_of_leading? h hw⟩
  · intro ⟨hv, hlongest⟩
    cases h : leading? text with
    | none => exact absurd hv (leading?_eq_none_iff.mp h v)
    | some w =>
      have hw := token_prefix_of_leading? h
      have hlength : w.token.toList.length = v.token.toList.length :=
        Nat.le_antisymm (hlongest w hw) (length_le_of_leading? h hv)
      have htoken : w.token.toList = v.token.toList :=
        (List.prefix_of_prefix_length_le hw hv (Nat.le_of_eq hlength)).eq_of_length hlength
      rw [token_injective htoken]

def scanAfter : Nat → List Char → List Mark
  | _, [] => []
  | skip + 1, _ :: rest => scanAfter skip rest
  | 0, c :: rest =>
    match leading? (c :: rest) with
    | some v => .var v false :: scanAfter (v.token.toList.length - 1) rest
    | none => .char c :: scanAfter 0 rest

/-- The marks of a text that is read in one pass. -/
def scan (text : List Char) : List Mark :=
  scanAfter 0 text

@[simp] theorem scan_nil : scan [] = [] := rfl

theorem scanAfter_eq_drop (n : Nat) (text : List Char) :
    scanAfter n text = scan (text.drop n) := by
  induction n generalizing text with
  | zero => rfl
  | succ n ih =>
    cases text with
    | nil => rfl
    | cons c rest => exact ih rest

theorem scan_cons {c : Char} {rest : List Char} (h : leading? (c :: rest) = none) :
    scan (c :: rest) = .char c :: scan rest := by
  rw [scan, scanAfter, h]
  rfl

theorem scan_token {v : TemplateVariable} {rest : List Char}
    (h : leading? (v.token.toList ++ rest) = some v) :
    scan (v.token.toList ++ rest) = .var v false :: scan rest := by
  have hlength : v.token.toList.length - 1 = v.word.length := by
    rw [token_eq]
    rfl
  rw [token_eq, List.cons_append] at h ⊢
  rw [scan, scanAfter, h]
  dsimp only
  rw [scanAfter_eq_drop, hlength, List.drop_left]

/-- The cuts of a text: a token that is read, or a character at which none starts. -/
theorem scan_induction {motive : List Char → Prop} (nil : motive [])
    (token : ∀ v rest, leading? (v.token.toList ++ rest) = some v → motive rest →
      motive (v.token.toList ++ rest))
    (item : ∀ c rest, leading? (c :: rest) = none → motive rest → motive (c :: rest))
    (text : List Char) : motive text := by
  generalize hn : text.length = n
  induction n using Nat.strongRecOn generalizing text with
  | ind n ih =>
    cases text with
    | nil => exact nil
    | cons c rest =>
      cases h : leading? (c :: rest) with
      | none =>
        rw [List.length_cons] at hn
        exact item c rest h (ih rest.length (by omega) rest rfl)
      | some v =>
        obtain ⟨tail, htail⟩ := token_prefix_of_leading? h
        have hpos : 0 < v.token.toList.length := by
          rw [token_eq]
          exact Nat.succ_pos _
        rw [← htail] at h hn ⊢
        rw [List.length_append] at hn
        exact token v tail h (ih tail.length (by omega) tail rfl)

theorem spell_token_scan (text : List Char) : spell Mark.token (scan text) = text := by
  induction text using scan_induction with
  | nil => rfl
  | token v rest h ih => rw [scan_token h, spell_cons, ih, Mark.token]
  | item c rest h ih => rw [scan_cons h, spell_cons, ih, Mark.token, List.singleton_append]

/-- Characters that are marked one after the other stand so in the text. -/
theorem prefix_of_map_char_scan {p text : List Char} (h : p.map Mark.char <+: scan text) :
    p <+: text := by
  obtain ⟨after, hafter⟩ := h
  refine ⟨spell Mark.token after, ?_⟩
  rw [← spell_token_scan text, ← hafter, spell_append, spell_chars (fun c => rfl)]

theorem infix_of_map_char_scan {p text : List Char} (h : p.map Mark.char <:+: scan text) :
    p <:+: text := by
  have hspell := spell_isInfix (f := Mark.token) h
  rwa [spell_chars (fun c => rfl), spell_token_scan] at hspell

/-- No token and no rest of a longer token is left between the marks. -/
theorem clean_scan (text : List Char) : Clean (scan text) where
  no_token v hin := by
    induction text using scan_induction with
    | nil => simp [token_eq] at hin
    | token w rest hw ih =>
      rw [scan_token hw] at hin
      rcases List.infix_cons_iff.mp hin with hp | hin
      · rw [token_eq, List.map_cons, List.cons_prefix_cons] at hp
        exact absurd hp.1 (by simp)
      · exact ih hin
    | item c rest hc ih =>
      have hin' := hin
      rw [scan_cons hc] at hin
      rcases List.infix_cons_iff.mp hin with hp | hin
      · rw [← scan_cons hc] at hp
        exact leading?_eq_none_iff.mp hc v (prefix_of_map_char_scan hp)
      · exact ih hin
  no_extension {v w d rest} hne he hin := by
    induction text using scan_induction with
    | nil => simp at hin
    | token u tail hu ih =>
      rw [scan_token hu] at hin
      rcases List.infix_cons_iff.mp hin with hp | hin
      · rw [List.cons_prefix_cons] at hp
        obtain ⟨rfl, -⟩ := Mark.var.inj hp.1
        have hv : v.token.toList <+: w.token.toList ++ tail := by
          rw [he, List.prefix_append_right_inj]
          exact prefix_of_map_char_scan hp.2
        have hlength := length_le_of_leading? hu hv
        rw [he, List.length_append] at hlength
        have hrest : rest = [] := List.length_eq_zero_iff.mp (by omega)
        exact hne (token_injective (by rw [he, hrest, List.append_nil]))
      · exact ih hin
    | item c tail hc ih =>
      rw [scan_cons hc] at hin
      rcases List.infix_cons_iff.mp hin with hp | hin
      · rw [List.cons_prefix_cons] at hp
        exact absurd hp.1 (by simp)
      · exact ih hin

theorem not_token_isInfix_plain {ms : List Mark} (h : Clean ms) (v : TemplateVariable) :
    ¬ v.token.toList <:+: spell (Mark.partly []) ms := by
  induction ms with
  | nil => simp [token_eq]
  | cons m ms ih =>
    intro hin
    refine ih h.tail (isInfix_of_isInfix_append ?_ hin)
    cases m with
    | char c =>
      refine ⟨fun hp => h.no_token v ?_, trivial⟩
      rw [token_eq, List.nil_append, List.cons_prefix_cons] at hp
      have hword := prefix_of_map_char (fun c => rfl) (Mark.partly_apart_word [] v) hp.2
      rw [token_eq, List.map_cons, hp.1]
      exact ((List.prefix_cons_inj _).mpr hword).isInfix
    | var w d =>
      rw [Mark.partly, if_neg List.not_mem_nil, token_eq]
      exact startsNowhere_of_apart _ (apart_of_head_not_mem w.dollar_not_mem_standIn)

/-- Encoding one variable after the other puts the stand-ins where one pass reads tokens. -/
theorem encodeChars_eq_scan (text : List Char) :
    encodeChars text = ⟨spell Mark.plain (scan text), all.filter (marked (scan text))⟩ := by
  have h := encodeEach_spell_partly all_pairwise (clean_scan text)
  rwa [spell_partly_all, spell_token_scan] at h

end MetricScope.TemplateVariable
