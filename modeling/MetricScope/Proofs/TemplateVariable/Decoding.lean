import MetricScope.Proofs.TemplateVariable.Scanning

/-!
# Decoding what was encoded

Decoding puts one variable after the other back. It gives the text that was encoded when
no stand-in was in it, and when what stands next to a token cannot be taken for a part of
its stand-in.
-/

set_option autoImplicit false

namespace MetricScope.TemplateVariable

open Text

/-- No token that is read has a letter, a digit, an underscore or a point next to it. -/
def StandsAlone (text : List Char) : Prop :=
  ∀ k < text.length, ∀ v ∈ leading? (text.drop k),
    (∀ c ∈ (text.take k).getLast?, joins c = false) ∧
      ∀ c ∈ (text.drop (k + v.token.toList.length)).head?, joins c = false

instance (text : List Char) : Decidable (StandsAlone text) :=
  decidable_of_iff (∀ k < text.length, ∀ v ∈ leading? (text.drop k),
      (text.take k).getLast?.any joins = false ∧
        (text.drop (k + v.token.toList.length)).head?.any joins = false)
    (by simp only [Option.any_eq_false, StandsAlone, Option.mem_def])

def Loose : Mark → Mark → Prop
  | .char _, .char _ => True
  | .char c, .var _ _ => joins c = false
  | .var _ _, .char c => joins c = false
  | .var _ _, .var _ _ => False

section

variable {text : List Char}

theorem StandsAlone.tail {c : Char} (h : StandsAlone (c :: text)) : StandsAlone text := by
  intro k hk v hv
  have hshift := h (k + 1) (Nat.succ_lt_succ hk) v hv
  constructor
  · intro d hd
    apply hshift.1
    cases hcut : text.take k with
    | nil => simp [hcut] at hd
    | cons e cut =>
      rw [List.take_succ_cons, hcut, List.getLast?_cons_cons]
      rwa [hcut] at hd
  · intro d hd
    apply hshift.2
    rwa [Nat.add_right_comm, List.drop_succ_cons]

theorem StandsAlone.drop (h : StandsAlone text) (n : Nat) : StandsAlone (text.drop n) := by
  induction n generalizing text with
  | zero => exact h
  | succ n ih =>
    cases text with
    | nil => exact h
    | cons c rest => exact ih h.tail

theorem leading?_of_scan {v : TemplateVariable} {d : Bool} {ms : List Mark}
    (h : scan text = .var v d :: ms) : leading? text = some v := by
  cases text with
  | nil => simp at h
  | cons c rest =>
    cases hlead : leading? (c :: rest) with
    | none =>
      rw [scan_cons hlead] at h
      simp at h
    | some w =>
      obtain ⟨tail, htail⟩ := token_prefix_of_leading? hlead
      rw [← htail] at h hlead
      rw [scan_token hlead] at h
      simp only [List.cons.injEq, Mark.var.injEq] at h
      rw [h.1.1]

theorem head?_of_scan {c : Char} {ms : List Mark} (h : scan text = .char c :: ms) :
    text.head? = some c := by
  have hspell := spell_token_scan text
  rw [h, spell_cons] at hspell
  rw [← hspell]
  rfl

theorem joins_of_getLast?_token (v : TemplateVariable) :
    ∀ c ∈ v.token.toList.getLast?, joins c = true := by
  have h : v.token.toList.getLast?.all joins = true := by
    cases v <;> decide
  exact fun c hc => (Option.all_eq_true _ _).mp h c hc

theorem isChain_loose_scan (h : StandsAlone text) : (scan text).IsChain Loose := by
  induction text using scan_induction with
  | nil => simp
  | token v rest hlead ih =>
    have hrest : StandsAlone rest := by
      have hdrop := h.drop v.token.toList.length
      rwa [List.drop_left] at hdrop
    have hpos : 0 < (v.token.toList ++ rest).length := by simp [token_eq]
    have hnext := (h 0 hpos v hlead).2
    rw [Nat.zero_add, List.drop_left] at hnext
    rw [scan_token hlead]
    cases hms : scan rest with
    | nil => simp
    | cons m ms =>
      rw [List.isChain_cons_cons, ← hms]
      refine ⟨?_, ih hrest⟩
      cases m with
      | char c => exact hnext c (head?_of_scan hms)
      | var w d =>
        have hlen : v.token.toList.length < (v.token.toList ++ rest).length := by
          cases rest with
          | nil => simp at hms
          | cons c rest => simp
        have hw : leading? ((v.token.toList ++ rest).drop v.token.toList.length) = some w := by
          rw [List.drop_left]
          exact leading?_of_scan hms
        have hlast := (h _ hlen w hw).1
        rw [List.take_left] at hlast
        have hne : v.token.toList ≠ [] := by rw [token_eq]; exact List.cons_ne_nil _ _
        obtain ⟨c, hc⟩ := Option.ne_none_iff_exists'.mp
          (mt List.getLast?_eq_none_iff.mp hne)
        have hjoins := joins_of_getLast?_token v c hc
        simp [hlast c hc] at hjoins
  | item c rest hlead ih =>
    rw [scan_cons hlead]
    cases hms : scan rest with
    | nil => simp
    | cons m ms =>
      rw [List.isChain_cons_cons, ← hms]
      refine ⟨?_, ih h.tail⟩
      cases m with
      | char d => trivial
      | var w d =>
        have hw := leading?_of_scan hms
        have hlen : 1 < (c :: rest).length := by
          cases rest with
          | nil => simp at hms
          | cons d rest => simp
        exact (h 1 hlen w hw).1 c rfl

end

theorem not_standIn_isInfix_tail (v w : TemplateVariable) :
    ¬ v.standIn.toList <:+: w.standIn.toList.tail := by
  have h : ∀ v ∈ all, ∀ w ∈ all, ¬ v.standIn.toList <:+: w.standIn.toList.tail := by
    decide +kernel
  exact h v (mem_all v) w (mem_all w)

theorem not_standIn_prefix_standIn {v w : TemplateVariable} (hne : v ≠ w) :
    ¬ v.standIn.toList <+: w.standIn.toList := by
  have h : ∀ v ∈ all, ∀ w ∈ all, v ≠ w → ¬ v.standIn.toList <+: w.standIn.toList := by
    decide +kernel
  exact h v (mem_all v) w (mem_all w) hne

section

variable {done : List TemplateVariable} {v w : TemplateVariable} {ms : List Mark}

/-- Marks that are spelled like the beginning of a stand-in are characters. -/
theorem map_char_prefix_of_loose {f : Mark → List Char} (hf : ∀ c, f (.char c) = [c])
    {c : Char} (hms : (Mark.char c :: ms).IsChain Loose) {p : List Char}
    (hp : ∀ c ∈ p, joins c = true) (h : p <+: spell f (.char c :: ms)) :
    p.map Mark.char <+: .char c :: ms := by
  induction p generalizing c ms with
  | nil => simp
  | cons d p ih =>
    rw [spell_cons, hf, List.singleton_append, List.cons_prefix_cons] at h
    obtain ⟨rfl, h⟩ := h
    rw [List.map_cons, List.cons_prefix_cons]
    refine ⟨rfl, ?_⟩
    cases ms with
    | nil =>
      rw [spell_nil, List.prefix_nil] at h
      simp [h]
    | cons m ms =>
      rw [List.isChain_cons_cons] at hms
      cases m with
      | char e => exact ih hms.2 (fun c hc => hp c (List.mem_cons_of_mem d hc)) h
      | var w e =>
        have hno : joins d = false := hms.1
        have hyes := hp d List.mem_cons_self
        simp [hno] at hyes

/-- What follows the place of a variable does not go on like a stand-in. -/
theorem eq_nil_of_prefix_of_loose {d : Bool} (hms : (Mark.var w d :: ms).IsChain Loose)
    {p : List Char} (hp : ∀ c ∈ p, joins c = true)
    (h : p <+: spell (Mark.partly done) ms) : p = [] := by
  cases p with
  | nil => rfl
  | cons c p =>
    have hc := hp c List.mem_cons_self
    cases ms with
    | nil => simp at h
    | cons m ms =>
      rw [List.isChain_cons_cons] at hms
      cases m with
      | char e =>
        have he : joins e = false := hms.1
        rw [spell_cons, Mark.partly, List.singleton_append, List.cons_prefix_cons] at h
        rw [h.1, he] at hc
        simp at hc
      | var u e => exact absurd hms.1 id

/-- No stand-in starts inside another one that has a place. -/
theorem startsNowhere_standIn_tail (done : List TemplateVariable) (v : TemplateVariable)
    {d : Bool} (hms : (Mark.var w d :: ms).IsChain Loose) :
    StartsNowhere v.standIn.toList w.standIn.toList.tail (spell (Mark.partly done) ms) := by
  suffices h : ∀ part, part <:+ w.standIn.toList.tail →
      StartsNowhere v.standIn.toList part (spell (Mark.partly done) ms) from
    h _ List.suffix_rfl
  intro part
  induction part with
  | nil => intro _; trivial
  | cons c part ih =>
    intro hpart
    refine ⟨fun hp => ?_, ih ((List.suffix_cons c part).trans hpart)⟩
    have hin : v.standIn.toList <+: c :: part := by
      rw [← List.cons_append] at hp
      rcases prefix_or_prefix_of_prefix_append hp with hin | ⟨lack, hlack⟩
      · exact hin
      · rw [← hlack, List.prefix_append_right_inj] at hp
        have hnil := eq_nil_of_prefix_of_loose hms
          (fun c hc => joins_of_mem_standIn (hlack ▸ List.mem_append_right _ hc)) hp
        have hwhole : v.standIn.toList = c :: part := by
          rw [← hlack, hnil, List.append_nil]
        exact hwhole ▸ List.prefix_rfl
    exact not_standIn_isInfix_tail v w (hin.isInfix.trans hpart.isInfix)

/-- A stand-in starts only where its variable has a place that is still to be decoded. -/
theorem startsNowhere_standIn {m : Mark} (hms : (m :: ms).IsChain Loose)
    (hno : ¬ v.standIn.toList.map Mark.char <:+: m :: ms)
    (hm : ∀ d, m = .var v d → v ∈ done) :
    StartsNowhere v.standIn.toList (Mark.partly done m) (spell (Mark.partly done) ms) := by
  cases m with
  | char c =>
    refine ⟨fun hp => hno ?_, trivial⟩
    have hp : v.standIn.toList <+: spell (Mark.partly done) (.char c :: ms) := hp
    exact (map_char_prefix_of_loose (fun c => rfl) hms
      (fun c hc => joins_of_mem_standIn hc) hp).isInfix
  | var w d =>
    rw [Mark.partly]
    split
    · exact startsNowhere_of_apart _ (standIn_apart_token v w)
    next hw =>
      have hne : v ≠ w := fun hvw => hw (hvw ▸ hm d (hvw ▸ rfl))
      have htail := startsNowhere_standIn_tail done v hms
      obtain ⟨c, tail, hcons⟩ := List.exists_cons_of_ne_nil w.standIn_ne_nil
      rw [hcons, List.tail_cons] at htail
      rw [hcons]
      refine ⟨fun hp => ?_, htail⟩
      rw [← List.cons_append, ← hcons] at hp
      rcases prefix_or_prefix_of_prefix_append hp with hp | hp
      · exact not_standIn_prefix_standIn hne hp
      · exact not_standIn_prefix_standIn hne.symm hp

theorem startsNowhere_dottedStandIn {m : Mark} (hms : (m :: ms).IsChain Loose)
    (hno : ¬ v.standIn.toList.map Mark.char <:+: m :: ms) :
    StartsNowhere v.dottedStandIn (Mark.partly done m) (spell (Mark.partly done) ms) := by
  have hbegin : v.standIn.toList <+: v.dottedStandIn := ⟨_, v.dottedStandIn_eq.symm⟩
  by_cases hm : ∀ d, m = .var v d → v ∈ done
  · exact (startsNowhere_standIn hms hno hm).mono hbegin
  · push Not at hm
    obtain ⟨d, rfl, hdone⟩ := hm
    have htail := (startsNowhere_standIn_tail done v hms).mono hbegin
    obtain ⟨c, tail, hcons⟩ := List.exists_cons_of_ne_nil v.standIn_ne_nil
    rw [Mark.partly, if_neg hdone, hcons]
    rw [hcons, List.tail_cons] at htail
    refine ⟨fun hp => ?_, htail⟩
    rw [← List.cons_append, ← hcons, dottedStandIn_eq, List.prefix_append_right_inj] at hp
    have hdigits : ∀ c ∈ ".000".toList, joins c = true :=
      List.all_eq_true.mp (by decide)
    simpa using eq_nil_of_prefix_of_loose hms hdigits hp

/-- No stand-in is followed by the digits that a timestamp has after an at sign. -/
theorem not_dottedStandIn_isInfix (hms : ms.IsChain Loose)
    (hno : ¬ v.standIn.toList.map Mark.char <:+: ms) :
    ¬ v.dottedStandIn <:+: spell (Mark.partly done) ms := by
  induction ms with
  | nil => simp [dottedStandIn_ne_nil]
  | cons m ms ih =>
    intro hin
    have hrest := isInfix_of_isInfix_append (startsNowhere_dottedStandIn hms hno) hin
    exact ih hms.of_cons (fun h => hno (List.infix_cons h)) hrest

theorem replaceAll_standIn (hms : ms.IsChain Loose)
    (hno : ¬ v.standIn.toList.map Mark.char <:+: ms) :
    replaceAll v.standIn.toList v.token.toList (spell (Mark.partly done) ms) =
      spell (Mark.partly (v :: done)) ms := by
  induction ms with
  | nil => rfl
  | cons m ms ih =>
    have ih := ih hms.of_cons fun h => hno (List.infix_cons h)
    rw [spell_cons, spell_cons, ← ih]
    by_cases hm : ∀ d, m = .var v d → v ∈ done
    · rw [replaceAll_append _ (startsNowhere_standIn hms hno hm)]
      congr 1
      cases m with
      | char c => rfl
      | var w d =>
        by_cases hwv : w = v
        · subst hwv
          simp [Mark.partly, hm d rfl]
        · simp [Mark.partly, hwv]
    · push Not at hm
      obtain ⟨d, rfl, hdone⟩ := hm
      have hopen : Mark.partly done (.var v d) = v.standIn.toList := if_neg hdone
      have hdone : Mark.partly (v :: done) (.var v d) = v.token.toList :=
        if_pos List.mem_cons_self
      rw [hopen, replaceAll_append_self _ _ v.standIn_ne_nil, hdone]

/-- One step of decoding puts the token at all places of its variable. -/
theorem decodeStep_spell_partly (hms : ms.IsChain Loose)
    (hno : ¬ v.standIn.toList.map Mark.char <:+: ms) :
    decodeStep (spell (Mark.partly done) ms) v = spell (Mark.partly (v :: done)) ms := by
  have hdotted : occursIn v.dottedStandIn (spell (Mark.partly done) ms) = false := by
    rw [← Bool.not_eq_true, occursIn_iff_isInfix]
    exact not_dottedStandIn_isInfix hms hno
  have hnone : replaceAll (v.standIn ++ ".000").toList v.token.toList
      (spell (Mark.partly done) ms) = spell (Mark.partly done) ms :=
    replaceAll_of_not_occurs _ hdotted
  rw [decodeStep, hnone, ite_self]
  exact replaceAll_standIn hms hno

theorem foldl_decodeStep_spell_partly (done : List TemplateVariable)
    (hms : ms.IsChain Loose) {l : List TemplateVariable}
    (hno : ∀ v ∈ l, ¬ v.standIn.toList.map Mark.char <:+: ms) :
    l.foldl decodeStep (spell (Mark.partly done) ms) =
      spell (Mark.partly (l.reverse ++ done)) ms := by
  induction l generalizing done with
  | nil => rfl
  | cons v l ih =>
    rw [List.foldl_cons, decodeStep_spell_partly hms (hno v List.mem_cons_self),
      ih (v :: done) fun w hw => hno w (List.mem_cons_of_mem v hw)]
    simp

end

theorem spell_partly_congr {a b : List TemplateVariable} {ms : List Mark}
    (h : ∀ v d, .var v d ∈ ms → (v ∈ a ↔ v ∈ b)) :
    spell (Mark.partly a) ms = spell (Mark.partly b) ms := by
  induction ms with
  | nil => rfl
  | cons m ms ih =>
    rw [spell_cons, spell_cons, ih fun v d hv => h v d (List.mem_cons_of_mem m hv)]
    cases m with
    | char c => rfl
    | var v d => simp only [Mark.partly, h v d List.mem_cons_self]

/-- Decoding with variables that cover those of a text gives the text back. -/
theorem decodeChars_encodeChars {text : List Char} (h : StandsAlone text)
    {vars : List TemplateVariable} (hvars : ∀ v ∈ (encodeChars text).vars, v ∈ vars)
    (hno : ∀ v ∈ vars, ¬ v.standIn.toList <:+: text) :
    decodeChars vars (encodeChars text).text = text := by
  have hsteps := foldl_decodeStep_spell_partly [] (isChain_loose_scan h)
    (l := decodingOrder vars) fun v hv hin =>
      hno v (mem_decodingOrder.mp hv) (infix_of_map_char_scan hin)
  have hcover : ∀ v d, .var v d ∈ scan text →
      (v ∈ (decodingOrder vars).reverse ++ [] ↔ v ∈ all) := by
    intro v d hv
    have hmem : v ∈ (encodeChars text).vars := by
      rw [encodeChars_eq_scan]
      exact List.mem_filter.mpr ⟨mem_all v, marked_iff.mpr ⟨d, hv⟩⟩
    simp [mem_decodingOrder, hvars v hmem, mem_all v]
  rw [spell_partly_nil, spell_partly_congr hcover, spell_partly_all, spell_token_scan] at hsteps
  rw [encodeChars_eq_scan]
  exact hsteps

/-- Decoding undoes encoding. The tokens of the text must stand alone, and the stand-ins that
are decoded must not be in the text. -/
theorem decode_encode (query : String) (halone : StandsAlone query.toList)
    (hno : ∀ v ∈ (encode query).2, ¬ v.standIn.toList <:+: query.toList) :
    decode (encode query).2 (encode query).1 = query ∧
      ((∀ v : TemplateVariable, ¬ v.standIn.toList <:+: query.toList) →
        decodeAll (encode query).1 = query) := by
  constructor
  · rw [decode, encode, String.toList_ofList, decodeChars_encodeChars halone (fun v hv => hv) hno,
      String.ofList_toList]
  · intro hnone
    rw [decodeAll, decode, encode, String.toList_ofList,
      decodeChars_encodeChars halone (fun v _ => mem_all v) (fun v _ => hnone v),
      String.ofList_toList]

/-- Tokens that start alike, and one whose stand-in has two forms. -/
theorem decode_encode_rate :
    ∃ query, query = "m[$__range] @ $__to / $__range_s" ∧
      decode (encode query).2 (encode query).1 = query ∧
      decodeAll (encode query).1 = query := by
  have hnone : ∀ v : TemplateVariable,
      ¬ v.standIn.toList <:+: "m[$__range] @ $__to / $__range_s".toList := by
    intro v
    rw [← occursIn_iff_isInfix]
    cases v <;> decide +kernel
  have h := decode_encode "m[$__range] @ $__to / $__range_s" (by decide +kernel)
    fun v _ => hnone v
  exact ⟨_, rfl, h.1, h.2 hnone⟩

end MetricScope.TemplateVariable
