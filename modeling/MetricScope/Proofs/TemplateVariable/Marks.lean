import MetricScope.Proofs.Sorting
import MetricScope.Proofs.Text.Replace
import MetricScope.TemplateVariable

/-!
# Where the template variables stand

Decoding puts one variable after the other back into a text. What it does is told by
a list of marks: characters of the text and the places of variables. The text, the
decoded text and the text that encoding makes of it are three spellings of one list.
-/

set_option autoImplicit false

namespace MetricScope.TemplateVariable

open Text

/-- A character, or the place of a variable. The stand-in of a variable is `dotted` when
it was written with three more digits. -/
inductive Mark where
  | char (c : Char)
  | var (v : TemplateVariable) (dotted : Bool)
  deriving DecidableEq

namespace Mark

def written : Mark → List Char
  | char c => [c]
  | var v dotted => v.standIn.toList ++ if dotted then ".000".toList else []

def plain : Mark → List Char
  | char c => [c]
  | var v _ => v.standIn.toList

def token : Mark → List Char
  | char c => [c]
  | var v _ => v.token.toList

end Mark

def spell (f : Mark → List Char) (marks : List Mark) : List Char :=
  marks.flatMap f

@[simp] theorem spell_nil (f : Mark → List Char) : spell f [] = [] := rfl

@[simp] theorem spell_cons (f : Mark → List Char) (m : Mark) (marks : List Mark) :
    spell f (m :: marks) = f m ++ spell f marks := rfl

@[simp] theorem spell_append (f : Mark → List Char) (a b : List Mark) :
    spell f (a ++ b) = spell f a ++ spell f b := by
  simp [spell]

theorem spell_chars {f : Mark → List Char} (hf : ∀ c, f (.char c) = [c])
    (text : List Char) : spell f (text.map .char) = text := by
  induction text with
  | nil => rfl
  | cons c rest ih => rw [List.map_cons, spell_cons, hf, ih, List.singleton_append]

/-- A spelling and its marks begin alike when no text of a variable can start in the
beginning. -/
theorem prefix_of_map_char {f : Mark → List Char} (hf : ∀ c, f (.char c) = [c])
    {p : List Char} (hp : ∀ v d, apart (f (.var v d)) p = true) {marks : List Mark}
    (h : p <+: spell f marks) : p.map .char <+: marks := by
  induction p generalizing marks with
  | nil => simp
  | cons c p ih =>
    cases marks with
    | nil => simp at h
    | cons m marks =>
      rw [spell_cons] at h
      cases m with
      | char d =>
        rw [hf, List.singleton_append, List.cons_prefix_cons] at h
        rw [List.map_cons, List.cons_prefix_cons, h.1]
        exact ⟨rfl, ih (fun v d => (apart_cons_iff.mp (hp v d)).2.2) h.2⟩
      | var v d =>
        have hv := apart_cons_iff.mp (hp v d)
        rcases prefix_or_prefix_of_prefix_append h with h | h
        · exact absurd h hv.2.1
        · exact absurd h hv.1

theorem spell_isInfix {f : Mark → List Char} {a marks : List Mark} (h : a <:+: marks) :
    spell f a <:+: spell f marks := by
  obtain ⟨x, y, rfl⟩ := h
  exact ⟨spell f x, spell f y, by simp⟩

/-- A spelling does not change when a text is marked as what it is spelled. -/
theorem spell_replaceAll {f : Mark → List Char} (hf : ∀ c, f (.char c) = [c])
    {p : List Char} (hp : p ≠ []) {m : Mark} (hm : f m = p) (marks : List Mark) :
    spell f (replaceAll (p.map .char) [m] marks) = spell f marks := by
  have hne : p.map Mark.char ≠ [] := by simpa using hp
  induction marks using cut_induction hne with
  | nil => rfl
  | occurrence rest ih =>
    rw [replaceAll_append_self _ _ hne, spell_append, spell_append, ih, spell_chars hf,
      spell_cons, hm, spell_nil, List.append_nil]
  | item m rest hm ih =>
    rw [replaceAll_cons_of_no_match _ hm, spell_cons, spell_cons, ih]

/-- Marking a text and putting the token for it are the same. -/
theorem spell_token_replaceAll {p : List Char} (hp : p ≠ [])
    (hpart : ∀ v : TemplateVariable, apart v.token.toList p = true)
    (hstart : ∀ v : TemplateVariable, apart p v.token.toList = true)
    (v : TemplateVariable) (d : Bool) (marks : List Mark) :
    spell Mark.token (replaceAll (p.map .char) [.var v d] marks) =
      replaceAll p v.token.toList (spell Mark.token marks) := by
  have hne : p.map Mark.char ≠ [] := by simpa using hp
  induction marks using cut_induction hne with
  | nil => rfl
  | occurrence rest ih =>
    rw [replaceAll_append_self _ _ hne, spell_append, ih, spell_append,
      spell_chars (fun c => rfl), replaceAll_append_self _ _ hp]
    simp [Mark.token]
  | item m rest hm ih =>
    rw [replaceAll_cons_of_no_match _ hm, spell_cons, ih, spell_cons]
    cases m with
    | char c =>
      have hc : ¬ p <+: spell Mark.token (.char c :: rest) := fun h =>
        hm (prefix_of_map_char (fun c => rfl) (fun v _ => hpart v) h)
      exact (replaceAll_cons_of_no_match _ hc).symm
    | var w d => exact (replaceAll_append _ (startsNowhere_of_apart _ (hstart w))).symm

def dottedStandIn (v : TemplateVariable) : List Char :=
  (v.standIn ++ ".000").toList

theorem dottedStandIn_eq (v : TemplateVariable) :
    v.dottedStandIn = v.standIn.toList ++ ".000".toList := by
  rw [dottedStandIn, String.toList_append]

theorem written_dotted (v : TemplateVariable) :
    Mark.written (.var v true) = v.dottedStandIn := by
  simp [Mark.written, dottedStandIn]

theorem written_undotted (v : TemplateVariable) :
    Mark.written (.var v false) = v.standIn.toList := by
  simp [Mark.written]

theorem standIn_ne_nil (v : TemplateVariable) : v.standIn.toList ≠ [] := by
  cases v <;> decide

theorem dottedStandIn_ne_nil (v : TemplateVariable) : v.dottedStandIn ≠ [] := by
  cases v <;> decide

theorem dollar_not_mem_standIn (v : TemplateVariable) : '$' ∉ v.standIn.toList := by
  cases v <;> decide

theorem dollar_not_mem_dottedStandIn (v : TemplateVariable) : '$' ∉ v.dottedStandIn := by
  rw [dottedStandIn_eq, List.mem_append, not_or]
  exact ⟨v.dollar_not_mem_standIn, by decide⟩

theorem token_apart_of_not_mem (v : TemplateVariable) {text : List Char} (h : '$' ∉ text) :
    apart v.token.toList text = true := by
  have hhead : v.token.toList.head? = some '$' := by
    cases v <;> decide
  obtain ⟨tail, htail⟩ := List.head?_eq_some_iff.mp hhead
  rw [htail]
  exact apart_of_head_not_mem h

theorem token_apart_standIn (v w : TemplateVariable) :
    apart v.token.toList w.standIn.toList = true :=
  v.token_apart_of_not_mem w.dollar_not_mem_standIn

theorem standIn_apart_token (v w : TemplateVariable) :
    apart v.standIn.toList w.token.toList = true := by
  have h : ∀ v ∈ all, ∀ w ∈ all, apart v.standIn.toList w.token.toList = true := by
    decide +kernel
  exact h v (mem_all v) w (mem_all w)

theorem token_apart_dottedStandIn (v w : TemplateVariable) :
    apart v.token.toList w.dottedStandIn = true :=
  v.token_apart_of_not_mem w.dollar_not_mem_dottedStandIn

theorem dottedStandIn_apart_token (v w : TemplateVariable) :
    apart v.dottedStandIn w.token.toList = true := by
  have h : ∀ v ∈ all, ∀ w ∈ all, apart v.dottedStandIn w.token.toList = true := by
    decide +kernel
  exact h v (mem_all v) w (mem_all w)

def markStep (marks : List Mark) (v : TemplateVariable) : List Mark :=
  let marks :=
    if v.kind = .timestamp then replaceAll (v.dottedStandIn.map .char) [.var v true] marks
    else marks
  replaceAll (v.standIn.toList.map .char) [.var v false] marks

def marks (vars : List TemplateVariable) (text : List Char) : List Mark :=
  (decodingOrder vars).foldl markStep (text.map .char)

theorem spell_written_markStep (marks : List Mark) (v : TemplateVariable) :
    spell Mark.written (markStep marks v) = spell Mark.written marks := by
  rw [markStep, spell_replaceAll (fun c => rfl) v.standIn_ne_nil v.written_undotted]
  split
  · exact spell_replaceAll (fun c => rfl) v.dottedStandIn_ne_nil v.written_dotted marks
  · rfl

theorem spell_token_markStep (marks : List Mark) (v : TemplateVariable) :
    spell Mark.token (markStep marks v) = decodeStep (spell Mark.token marks) v := by
  rw [markStep, spell_token_replaceAll v.standIn_ne_nil (fun w => token_apart_standIn w v)
    (fun w => standIn_apart_token v w), decodeStep]
  split
  · rw [spell_token_replaceAll v.dottedStandIn_ne_nil
      (fun w => token_apart_dottedStandIn w v) (fun w => dottedStandIn_apart_token v w)]
    rfl
  · rfl

theorem spell_written_marks (vars : List TemplateVariable) (text : List Char) :
    spell Mark.written (marks vars text) = text := by
  suffices h : ∀ (l : List TemplateVariable) (ms : List Mark),
      spell Mark.written (l.foldl markStep ms) = spell Mark.written ms by
    rw [marks, h, spell_chars (fun c => rfl)]
  intro l
  induction l with
  | nil => intro ms; rfl
  | cons v l ih => intro ms; rw [List.foldl_cons, ih, spell_written_markStep]

/-- Decoding spells the marks with the tokens of their variables. -/
theorem spell_token_marks (vars : List TemplateVariable) (text : List Char) :
    spell Mark.token (marks vars text) = decodeChars vars text := by
  suffices h : ∀ (l : List TemplateVariable) (ms : List Mark),
      spell Mark.token (l.foldl markStep ms) = l.foldl decodeStep (spell Mark.token ms) by
    rw [marks, h, spell_chars (fun c => rfl), decodeChars]
  intro l
  induction l with
  | nil => intro ms; rfl
  | cons v l ih =>
    intro ms
    rw [List.foldl_cons, ih, spell_token_markStep, List.foldl_cons]

def marked (marks : List Mark) (v : TemplateVariable) : Bool :=
  decide (.var v true ∈ marks ∨ .var v false ∈ marks)

theorem marked_iff {marks : List Mark} {v : TemplateVariable} :
    marked marks v = true ↔ ∃ d, .var v d ∈ marks := by
  rw [marked, decide_eq_true_eq, Bool.exists_bool, or_comm]

theorem mem_or_mem_of_mem_replaceAll {old new marks : List Mark} {m : Mark}
    (hold : old ≠ []) (h : m ∈ replaceAll old new marks) : m ∈ new ∨ m ∈ marks := by
  induction marks using cut_induction hold with
  | nil => exact .inr h
  | occurrence rest ih =>
    rw [replaceAll_append_self _ _ hold] at h
    rcases List.mem_append.mp h with h | h
    · exact .inl h
    · exact (ih h).imp_right (List.mem_append_right old)
  | item n rest hn ih =>
    rw [replaceAll_cons_of_no_match _ hn] at h
    rcases List.mem_cons.mp h with rfl | h
    · exact .inr List.mem_cons_self
    · exact (ih h).imp_right (List.mem_cons_of_mem n)

theorem mem_replaceAll_of_mem {old new marks : List Mark} {m : Mark}
    (hold : old ≠ []) (hm : m ∉ old) (h : m ∈ marks) : m ∈ replaceAll old new marks := by
  induction marks using cut_induction hold with
  | nil => exact h
  | occurrence rest ih =>
    rw [replaceAll_append_self _ _ hold]
    exact List.mem_append_right new (ih ((List.mem_append.mp h).resolve_left hm))
  | item n rest hn ih =>
    rw [replaceAll_cons_of_no_match _ hn]
    rcases List.mem_cons.mp h with rfl | h
    · exact List.mem_cons_self
    · exact List.mem_cons_of_mem n (ih h)

theorem replaceAll_of_not_mem {old marks : List Mark} {m : Mark} (hold : old ≠ [])
    (h : m ∉ replaceAll old [m] marks) : replaceAll old [m] marks = marks := by
  induction marks using cut_induction hold with
  | nil => rfl
  | occurrence rest ih =>
    rw [replaceAll_append_self _ _ hold] at h
    exact absurd List.mem_cons_self h
  | item n rest hn ih =>
    rw [replaceAll_cons_of_no_match _ hn] at h ⊢
    rw [ih fun hm => h (List.mem_cons_of_mem n hm)]

theorem standIn_marks_ne_nil (v : TemplateVariable) :
    v.standIn.toList.map Mark.char ≠ [] := by
  simpa using v.standIn_ne_nil

theorem dottedStandIn_marks_ne_nil (v : TemplateVariable) :
    v.dottedStandIn.map Mark.char ≠ [] := by
  simpa using v.dottedStandIn_ne_nil

theorem var_not_mem_chars (v : TemplateVariable) (d : Bool) (text : List Char) :
    Mark.var v d ∉ text.map Mark.char := by
  simp

theorem mem_markStep_of_mem {marks : List Mark} {v w : TemplateVariable} {d : Bool}
    (h : .var v d ∈ marks) : .var v d ∈ markStep marks w := by
  rw [markStep]
  refine mem_replaceAll_of_mem w.standIn_marks_ne_nil (var_not_mem_chars v d _) ?_
  split
  · exact mem_replaceAll_of_mem w.dottedStandIn_marks_ne_nil (var_not_mem_chars v d _) h
  · exact h

theorem mem_markStep {marks : List Mark} {v w : TemplateVariable} {d : Bool}
    (h : .var v d ∈ markStep marks w) :
    (v = w ∧ (d = true → v.kind = .timestamp)) ∨ .var v d ∈ marks := by
  rw [markStep] at h
  rcases mem_or_mem_of_mem_replaceAll w.standIn_marks_ne_nil h with h | h
  · simp only [List.mem_singleton, Mark.var.injEq] at h
    simp [h]
  · split at h
    next hw =>
      rcases mem_or_mem_of_mem_replaceAll w.dottedStandIn_marks_ne_nil h with h | h
      · simp only [List.mem_singleton, Mark.var.injEq] at h
        simp [h, hw]
      · exact .inr h
    · exact .inr h

/-- A step that leaves no mark of its variable leaves everything. -/
theorem markStep_of_not_marked {marks : List Mark} {v : TemplateVariable}
    (h : marked (markStep marks v) v = false) : markStep marks v = marks := by
  have hno : ∀ d, .var v d ∉ markStep marks v := fun d hd =>
    absurd (marked_iff.mpr ⟨d, hd⟩) (by simp [h])
  rw [markStep] at hno ⊢
  rw [replaceAll_of_not_mem v.standIn_marks_ne_nil (hno false)]
  split
  next hv =>
    refine replaceAll_of_not_mem v.dottedStandIn_marks_ne_nil fun hd => hno true ?_
    rw [if_pos hv]
    exact mem_replaceAll_of_mem v.standIn_marks_ne_nil (var_not_mem_chars v true _) hd
  · rfl

theorem mem_foldl_markStep_of_mem {l : List TemplateVariable} {marks : List Mark}
    {v : TemplateVariable} {d : Bool} (h : .var v d ∈ marks) :
    .var v d ∈ l.foldl markStep marks := by
  induction l generalizing marks with
  | nil => exact h
  | cons w l ih => exact ih (mem_markStep_of_mem h)

theorem mem_foldl_markStep {l : List TemplateVariable} {marks : List Mark}
    {v : TemplateVariable} {d : Bool} (h : .var v d ∈ l.foldl markStep marks) :
    (v ∈ l ∧ (d = true → v.kind = .timestamp)) ∨ .var v d ∈ marks := by
  induction l generalizing marks with
  | nil => exact .inr h
  | cons w l ih =>
    rcases ih h with h | h
    · exact .inl ⟨List.mem_cons_of_mem w h.1, h.2⟩
    · rcases mem_markStep h with ⟨rfl, hd⟩ | h
      · exact .inl ⟨List.mem_cons_self, hd⟩
      · exact .inr h

/-- Steps of variables without a mark in the end can be left out. -/
theorem foldl_markStep_filter {p : TemplateVariable → Bool} {l : List TemplateVariable}
    {ms : List Mark} (hp : ∀ v, marked (l.foldl markStep ms) v = true → p v = true) :
    (l.filter p).foldl markStep ms = l.foldl markStep ms := by
  induction l generalizing ms with
  | nil => rfl
  | cons v l ih =>
    rw [List.foldl_cons] at hp
    rw [List.foldl_cons, List.filter_cons]
    split
    · rw [List.foldl_cons, ih hp]
    next hv =>
      have hstep : marked (markStep ms v) v = false := by
        rw [← Bool.not_eq_true, marked_iff]
        rintro ⟨d, hd⟩
        exact hv (hp v (marked_iff.mpr ⟨d, mem_foldl_markStep_of_mem hd⟩))
      have hms := markStep_of_not_marked hstep
      rw [hms] at hp
      rw [hms, ih hp]

def AtLeastAsLong (v w : TemplateVariable) : Prop :=
  w.standIn.length ≤ v.standIn.length

instance : DecidableRel AtLeastAsLong := fun v w =>
  inferInstanceAs (Decidable (w.standIn.length ≤ v.standIn.length))

instance : Std.Total AtLeastAsLong :=
  ⟨fun v w => Nat.le_total w.standIn.length v.standIn.length⟩

instance : IsTrans TemplateVariable AtLeastAsLong :=
  ⟨fun _ _ _ hvw hwx => Nat.le_trans hwx hvw⟩

theorem decodingOrder_eq (vars : List TemplateVariable) :
    decodingOrder vars = vars.insertionSort AtLeastAsLong :=
  sortBy_eq_insertionSort AtLeastAsLong vars

theorem mem_decodingOrder {vars : List TemplateVariable} {v : TemplateVariable} :
    v ∈ decodingOrder vars ↔ v ∈ vars := by
  rw [decodingOrder_eq, List.mem_insertionSort]

theorem decodingOrder_filter (q : TemplateVariable → Bool) (vars : List TemplateVariable) :
    decodingOrder (vars.filter q) = (decodingOrder vars).filter q := by
  rw [decodingOrder_eq, decodingOrder_eq, insertionSort_filter]

theorem mem_vars_of_mem_marks {vars : List TemplateVariable} {text : List Char}
    {v : TemplateVariable} {d : Bool} (h : .var v d ∈ marks vars text) :
    v ∈ vars ∧ (d = true → v.kind = .timestamp) := by
  rcases mem_foldl_markStep h with h | h
  · exact ⟨mem_decodingOrder.mp h.1, h.2⟩
  · exact absurd h (var_not_mem_chars v d text)

theorem decodeChars_filter {vars : List TemplateVariable} {text : List Char}
    {p : TemplateVariable → Bool} (hp : ∀ v, marked (marks vars text) v = true → p v = true) :
    decodeChars (vars.filter p) text = decodeChars vars text := by
  rw [← spell_token_marks, ← spell_token_marks]
  congr 1
  rw [marks, decodingOrder_filter]
  exact foldl_markStep_filter hp

end MetricScope.TemplateVariable
