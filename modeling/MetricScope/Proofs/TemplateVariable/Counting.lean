import MetricScope.Proofs.PromQL.Traces
import MetricScope.Proofs.TemplateVariable.Decoding

/-!
# Counting tokens

How often the token of a variable occurs in a text is told by one pass over the text. In a
decoded text it is the number of places that decoding finds for the variable, and in a text
whose tokens stand alone it is the number of places in the encoded text.
-/

set_option autoImplicit false

namespace MetricScope.TemplateVariable

open Text

/-- How often the token of a variable is read, from left to right and the longest first. -/
def tokenCount (v : TemplateVariable) (text : List Char) : Nat :=
  (scan text).count (.var v false)

def Mark.undot : Mark → Mark
  | char c => .char c
  | var v _ => .var v false

/-- Scanning finds the marks of a text that is spelled with tokens. -/
theorem scan_spell_token {ms : List Mark} (h : Clean ms) :
    scan (spell Mark.token ms) = ms.map Mark.undot := by
  induction ms with
  | nil => rfl
  | cons m ms ih =>
    have ih := ih h.tail
    rw [spell_cons, List.map_cons, ← ih]
    cases m with
    | char c =>
      apply scan_cons
      rw [leading?_eq_none_iff]
      intro v hv
      rw [token_eq, List.cons_prefix_cons] at hv
      have hword := prefix_of_map_char (fun c => rfl) (fun w _ => token_apart_word w v) hv.2
      apply h.no_token v
      rw [token_eq, List.map_cons, hv.1]
      exact ((List.prefix_cons_inj _).mpr hword).isInfix
    | var w d =>
      apply scan_token
      rw [leading?_eq_some_iff]
      refine ⟨List.prefix_append _ _, fun v hv => ?_⟩
      rcases prefix_or_prefix_of_prefix_append hv with hprefix | ⟨tail, htail⟩
      · exact hprefix.length_le
      · rw [← htail, List.prefix_append_right_inj] at hv
        have hapart : ∀ (u : TemplateVariable) (_ : Bool), apart u.token.toList tail = true := by
          intro u _
          have htail' : v.word = w.word ++ tail := by
            rw [v.token_eq, w.token_eq, List.cons_append] at htail
            exact (List.cons.inj htail).2.symm
          exact apart_of_append (htail' ▸ token_apart_word u v)
        have hmarks := prefix_of_map_char (fun c => rfl) hapart hv
        by_cases hvw : v = w
        · exact hvw ▸ Nat.le_refl _
        · exact absurd ((List.prefix_cons_inj _).mpr hmarks).isInfix
            (h.no_extension hvw htail.symm)

/-- Decoding puts a token at each place of its variable, and makes no other one. -/
theorem tokenCount_decodeChars {vars : List TemplateVariable} {text : List Char}
    (h : Unmixed vars text) (v : TemplateVariable) :
    tokenCount v (decodeChars vars text) = places vars v text := by
  rw [tokenCount, ← spell_token_marks, scan_spell_token (clean_marks h), places, List.count,
    List.countP_map]
  congr 1
  funext m
  rw [Bool.eq_iff_iff]
  cases m with
  | char c => simp [Mark.undot]
  | var w d => cases d <;> simp [Mark.undot]

section

variable {v w : TemplateVariable} {rest : List Char}

/-- No stand-in starts inside one that goes on like a longer token. -/
theorem standIn_apart_extension (hne : v ≠ w) (h : v.token.toList = w.token.toList ++ rest)
    (u : TemplateVariable) :
    apart u.standIn.toList (w.standIn.toList.tail ++ rest) = true ∧
      apart u.standIn.toList rest = true := by
  rcases extension_eq hne h with ⟨rfl, rfl⟩ | ⟨rfl, rfl | rfl⟩ <;> cases u <;>
    exact ⟨by decide, by decide⟩

/-- A stand-in that goes on like a longer token starts in no stand-in but its own. -/
theorem extension_apart_standIn (hne : v ≠ w) (h : v.token.toList = w.token.toList ++ rest)
    (u : TemplateVariable) :
    apart (w.standIn.toList ++ rest) u.standIn.toList.tail = true ∧
      (u ≠ w → apart (w.standIn.toList ++ rest) u.standIn.toList = true) := by
  rcases extension_eq hne h with ⟨rfl, rfl⟩ | ⟨rfl, rfl | rfl⟩ <;> cases u <;>
    exact ⟨by decide, by decide⟩

/-- Behind a stand-in nothing goes on like a longer token. -/
theorem not_extension_isInfix_plain {ms : List Mark} (hms : Clean ms)
    (hno : ¬ w.standIn.toList.map Mark.char <:+: ms) (hne : v ≠ w)
    (h : v.token.toList = w.token.toList ++ rest) :
    ¬ w.standIn.toList ++ rest <:+: spell (Mark.partly []) ms := by
  obtain ⟨c, tail, hcons⟩ := List.exists_cons_of_ne_nil w.standIn_ne_nil
  induction ms with
  | nil => simp [hcons]
  | cons m ms ih =>
    intro hin
    refine ih hms.tail (fun h => hno (List.infix_cons h)) (isInfix_of_isInfix_append ?_ hin)
    cases m with
    | char e =>
      refine ⟨fun hp => hno ?_, trivial⟩
      rw [hcons, List.cons_append, List.nil_append, List.cons_prefix_cons] at hp
      have hmarks := prefix_of_map_char (fun c => rfl)
        (fun u d => by
          have hu := (standIn_apart_extension hne h u).1
          rwa [hcons, List.tail_cons] at hu)
        hp.2
      rw [hcons, List.map_cons, hp.1]
      rw [List.map_append] at hmarks
      exact ((List.prefix_cons_inj _).mpr ((List.prefix_append _ _).trans hmarks)).isInfix
    | var u d =>
      rw [Mark.partly, if_neg List.not_mem_nil]
      by_cases hu : u = w
      · subst hu
        have htail := startsNowhere_of_apart (spell (Mark.partly []) ms)
          (extension_apart_standIn hne h u).1
        rw [hcons, List.tail_cons] at htail
        rw [hcons]
        refine ⟨fun hp => ?_, htail⟩
        rw [← List.cons_append, List.prefix_append_right_inj] at hp
        have hmarks := prefix_of_map_char (fun c => rfl)
          (fun u d => (standIn_apart_extension hne h u).2) hp
        exact hms.no_extension hne h ((List.prefix_cons_inj _).mpr hmarks).isInfix
      · exact startsNowhere_of_apart _ ((extension_apart_standIn hne h u).2 hu)

end

section

variable {text : List Char}

/-- In the encoded text nothing looks like a token. -/
theorem unmixed_encodeChars {vars : List TemplateVariable}
    (hno : ∀ v ∈ vars, ¬ v.standIn.toList <:+: text) :
    Unmixed vars (encodeChars text).text := by
  rw [encodeChars_eq_scan, ← spell_partly_nil]
  have hclean := clean_scan text
  constructor
  · exact not_token_isInfix_plain hclean
  · intro v w rest hw hne heq
    exact not_extension_isInfix_plain hclean (fun hin => hno w hw (infix_of_map_char_scan hin))
      hne heq

/-- If decoding gives the text back, its tokens are counted where their stand-ins are found. -/
theorem tokenCount_eq_places {vars : List TemplateVariable}
    (hno : ∀ v ∈ vars, ¬ v.standIn.toList <:+: text)
    (hback : decodeChars vars (encodeChars text).text = text) (v : TemplateVariable) :
    tokenCount v text = places vars v (encodeChars text).text := by
  rw [← tokenCount_decodeChars (unmixed_encodeChars hno), hback]

/-- A character that is in no stand-in is in the encoded text only if it was in the text. -/
theorem not_mem_encodeChars {c : Char} (hc : joins c = false) (h : c ∉ text) :
    c ∉ (encodeChars text).text := by
  rw [encodeChars_eq_scan]
  intro hin
  obtain ⟨m, hm, hcm⟩ := List.mem_flatMap.mp hin
  cases m with
  | char d =>
    obtain rfl := List.mem_singleton.mp hcm
    apply h
    rw [← spell_token_scan text]
    exact List.mem_flatMap.mpr ⟨_, hm, List.mem_singleton_self c⟩
  | var v d => exact not_mem_standIn hc v hcm

end

theorem markStep_of_not_isInfix {v : TemplateVariable} {ms : List Mark}
    (h : ¬ v.standIn.toList.map Mark.char <:+: ms) : markStep ms v = ms := by
  have hplain : replaceAll (v.standIn.toList.map .char) [.var v false] ms = ms :=
    replaceAll_of_not_occurs _ (by rwa [← Bool.not_eq_true, occursIn_iff_isInfix])
  have hdotted : replaceAll (v.dottedStandIn.map .char) [.var v true] ms = ms := by
    apply replaceAll_of_not_occurs
    rw [← Bool.not_eq_true, occursIn_iff_isInfix, dottedStandIn_eq, List.map_append]
    exact fun hin => h ((List.prefix_append _ _).isInfix.trans hin)
  rw [markStep, hdotted, ite_self]
  exact hplain

section

variable {vars : List TemplateVariable} {w : TemplateVariable}

/-- A text that is the place of one variable and has no other stand-in in it. -/
theorem marks_eq_singleton {d : Bool} {text : List Char}
    (hothers : ∀ v, v ≠ w → ¬ v.standIn.toList <:+: text)
    (hown : markStep (text.map .char) w = [.var w d]) (hw : w ∈ vars) :
    marks vars text = [.var w d] := by
  have hrest : ∀ l : List TemplateVariable, l.foldl markStep [.var w d] = [.var w d] := by
    intro l
    induction l with
    | nil => rfl
    | cons v l ih =>
      rw [List.foldl_cons, markStep_of_not_isInfix, ih]
      intro hin
      obtain ⟨c, tail, hcons⟩ := List.exists_cons_of_ne_nil v.standIn_ne_nil
      have hmem := hin.subset (a := Mark.char c) (by simp [hcons])
      exact absurd (List.mem_singleton.mp hmem) (by simp)
  rw [marks]
  have hmem := mem_decodingOrder.mpr hw
  generalize decodingOrder vars = l at hmem
  induction l with
  | nil => exact absurd hmem List.not_mem_nil
  | cons v l ih =>
    rw [List.foldl_cons]
    by_cases hv : v = w
    · rw [hv, hown, hrest]
    · have hno : ¬ v.standIn.toList.map Mark.char <:+: text.map Mark.char := by
        intro hin
        have hspell := spell_isInfix (f := Mark.plain) hin
        rw [spell_chars (fun c => rfl), spell_chars (fun c => rfl)] at hspell
        exact hothers v hv hspell
      rw [markStep_of_not_isInfix hno, ih ((List.mem_cons.mp hmem).resolve_left (Ne.symm hv))]

theorem marks_standIn (hw : w ∈ vars) : marks vars w.standIn.toList = [.var w false] := by
  refine marks_eq_singleton (fun v hv hin => ?_) (by cases w <;> decide +kernel) hw
  obtain ⟨c, tail, hcons⟩ := List.exists_cons_of_ne_nil w.standIn_ne_nil
  rw [hcons, List.infix_cons_iff, ← hcons] at hin
  rcases hin with hin | hin
  · exact not_standIn_prefix_standIn hv hin
  · have htail := not_standIn_isInfix_tail v w
    rw [hcons] at htail
    exact htail hin

theorem marks_dottedStandIn (hw : w ∈ vars) (hkind : w.kind = .timestamp) :
    marks vars w.dottedStandIn = [.var w true] := by
  refine marks_eq_singleton (fun v => ?_) ?_ hw
  · revert hkind
    cases w <;> intro hkind <;> cases v <;> revert hkind <;> decide +kernel
  · revert hkind
    cases w <;> decide +kernel

theorem places_dottedStandIn (hw : w ∈ vars) (hkind : w.kind = .timestamp)
    (v : TemplateVariable) :
    places vars v w.dottedStandIn = places vars v w.standIn.toList := by
  rw [places, places, marks_standIn hw, marks_dottedStandIn hw hkind]
  simp

theorem places_standIn_self (hw : w ∈ vars) : places vars w w.standIn.toList = 1 := by
  rw [places, marks_standIn hw]
  simp

end

end MetricScope.TemplateVariable
