import MetricScope.Proofs.PromQL.Amounts
import MetricScope.Proofs.PromQL.Readings
import MetricScope.Proofs.PromQL.WordMeasures
import MetricScope.Proofs.RoundTrip
import MetricScope.Proofs.TemplateVariable.Counting

/-!
# Variables survive reading and writing

No token is lost and none is made when a query is read and written back, if every literal
survives in its place: a stand-in is read where it is written back as it was, other numbers and
durations have nothing to do with stand-ins, and the escapes of strings neither make nor break
them. Parser and printer may still drop parentheses, sort matchers and change the text of all
other literals.
-/

set_option autoImplicit false

namespace MetricScope

open PromQL

namespace TemplateVariable

def Kind.standsAt : Kind → Place → Bool
  | duration _, .length => true
  | number, .scalar => true
  | timestamp, .scalar | timestamp, .instant false => true
  | _, _ => false

def Absent (vars : List TemplateVariable) (text : String) : Prop :=
  ∀ v ∈ vars, ¬ v.standIn.toList <:+: text.toList

instance (vars : List TemplateVariable) (text : String) : Decidable (Absent vars text) :=
  inferInstanceAs (Decidable (∀ v ∈ vars, _))

theorem standIn_injective {v w : TemplateVariable} (h : v.standIn = w.standIn) : v = w := by
  by_contra hne
  exact not_standIn_prefix_standIn hne (h ▸ List.prefix_rfl)

theorem point_not_mem_token (v : TemplateVariable) : '.' ∉ v.token.toList := by
  cases v <;> decide

theorem Absent.places_eq_zero {vars : List TemplateVariable} {text : String}
    (h : Absent vars text) (v : TemplateVariable) : places vars v text.toList = 0 := by
  apply Nat.eq_zero_of_not_pos
  rw [places_pos_iff, marked_iff]
  rintro ⟨d, hd⟩
  exact h v (mem_vars_of_mem_marks hd).1 (standIn_isInfix_of_mem_marks hd)

end TemplateVariable

namespace PromQL

open TemplateVariable

/-- A number or duration that is a stand-in. -/
def Reading.IsStandIn (vars : List TemplateVariable) (r : Reading) : Prop :=
  r.token.isAmount = true ∧ ∃ v ∈ vars, r.token.text = v.standIn

/-- What is not a stand-in neither gains nor loses one when it is written, and does not become
what looks like a token. -/
def Reading.IsApart (vars : List TemplateVariable) (r : Reading) : Prop :=
  r.IsStandIn vars ∨
    ∀ written, r.token.writtenAt r.place = .ok written →
      written = r.token.text ∨
        (∀ v, places vars v written.toList = places vars v r.token.text.toList) ∧
          Unmixed vars written.toList

/-- The token of a variable is lost where its stand-in is read as a number or a duration in a
place of another kind. -/
structure Reading.Loses (vars : List TemplateVariable) (v : TemplateVariable) (r : Reading) :
    Prop where
  mem : v ∈ vars
  isAmount : r.token.isAmount = true
  text : r.token.text = v.standIn
  misplaced : v.kind.standsAt r.place = false

instance (vars : List TemplateVariable) (v : TemplateVariable) (r : Reading) :
    Decidable (r.Loses vars v) :=
  decidable_of_iff
    (v ∈ vars ∧ r.token.isAmount = true ∧ r.token.text = v.standIn ∧
      v.kind.standsAt r.place = false)
    ⟨fun ⟨mem, amount, text, misplaced⟩ => ⟨mem, amount, text, misplaced⟩,
      fun h => ⟨h.mem, h.isAmount, h.text, h.misplaced⟩⟩

section

variable {v : TemplateVariable} {place : Place} {t : Token}
  (ht : t = .number v.standIn ∨ t = .duration v.standIn) {written : String}
  (hwritten : t.writtenAt place = .ok written)

include ht hwritten

theorem Token.writtenAt_standIn (hplace : v.kind.standsAt place = true) :
    written.toList = v.standIn.toList ∨
      v.kind = .timestamp ∧ written.toList = v.dottedStandIn := by
  have hall : (t.writtenAt place).toOption.all (fun written =>
      decide (written.toList = v.standIn.toList ∨
        v.kind = .timestamp ∧ written.toList = v.dottedStandIn)) = true := by
    revert hplace
    rcases ht with rfl | rfl <;> rcases place with _ | _ | (_ | _) <;> cases v <;>
      decide +kernel
  rw [hwritten] at hall
  exact of_decide_eq_true hall

/-- In a place of another kind no stand-in is written for one. -/
theorem Token.writtenAt_misplaced (hplace : v.kind.standsAt place = false) :
    Absent TemplateVariable.all written := by
  have hall : (t.writtenAt place).toOption.all (fun written =>
      TemplateVariable.all.all fun u => !Text.occursIn u.standIn.toList written.toList) = true := by
    simp only [TemplateVariable.all, List.all_cons, List.all_nil, standIn]
    -- The characters of the stand-ins, for each is looked for in many texts.
    repeat rw [String.toList_ofList]
    revert hplace
    rcases ht with rfl | rfl <;> rcases place with _ | _ | (_ | _) <;> cases v <;>
      decide +kernel
  rw [hwritten] at hall
  intro u hu hin
  have hout := List.all_eq_true.mp hall u hu
  rw [Text.occursIn_iff_isInfix.mpr hin] at hout
  exact absurd hout (by simp)

end

section

variable {vars : List TemplateVariable} {r : Reading}

theorem Reading.isApart_of_writtenAt (h : r.token.writtenAt r.place = .ok r.token.text) :
    r.IsApart vars :=
  .inr fun _ hwritten => .inl (Except.ok.inj (hwritten.symm.trans h))

/-- A literal without stand-ins keeps apart if none is written for it. -/
theorem Reading.isApart_of_absent (ht : r.token.isAmount = true)
    (h : Absent vars r.token.text)
    (hwritten : ∀ text, r.token.writtenAt r.place = .ok text → Absent vars text) :
    r.IsApart vars := by
  refine .inr fun _ hw => .inr ⟨fun v => ?_, unmixed_of_not_mem vars ?_ ?_⟩
  · rw [h.places_eq_zero, (hwritten _ hw).places_eq_zero]
  · exact fun hc => absurd (Token.isNumeric_of_mem_writtenAt ht hw hc) (by decide)
  · exact fun hc => absurd (Token.isNumeric_of_mem_writtenAt ht hw hc) (by decide)

/-- What is written for a stand-in has it once in it, unless it is lost. -/
theorem Reading.IsStandIn.places_eq (h : r.IsStandIn vars) {written : String}
    (hwritten : r.token.writtenAt r.place = .ok written) (v : TemplateVariable) :
    places vars v written.toList =
      if r.Loses vars v then 0 else places vars v r.token.text.toList := by
  obtain ⟨ht, w, hw, htext⟩ := h
  have htoken : r.token = .number w.standIn ∨ r.token = .duration w.standIn := by
    obtain ⟨place, t⟩ := r
    cases t with
    | number text => exact .inl (congrArg _ htext)
    | duration text => exact .inr (congrArg _ htext)
    | _ => exact absurd ht (by simp [Token.isAmount])
  by_cases hplace : w.kind.standsAt r.place = true
  · have hkept : ¬ r.Loses vars v := by
      intro hlost
      have hmisplaced := hlost.misplaced
      rw [standIn_injective (hlost.text.symm.trans htext), hplace] at hmisplaced
      exact absurd hmisplaced (by simp)
    rw [if_neg hkept, htext]
    rcases Token.writtenAt_standIn htoken hwritten hplace with hsame | ⟨htime, hdotted⟩
    · rw [hsame]
    · rw [hdotted, places_dottedStandIn hw htime]
  · have hmisplaced := Bool.not_eq_true _ ▸ hplace
    rw [places_eq_zero (Token.writtenAt_misplaced htoken hwritten hmisplaced v (mem_all v))]
    by_cases hv : v = w
    · subst hv
      rw [if_pos ⟨hw, ht, htext, hmisplaced⟩]
    · rw [htext, places, marks_standIn hw]
      simp [Ne.symm hv]

theorem Reading.IsApart.share_eq (h : r.IsApart vars) (v : TemplateVariable)
    (hfinite : r.share (places vars v) ≠ ⊤) :
    r.share (places vars v) =
      ((if r.Loses vars v then 0 else places vars v r.token.text.toList : Nat) : ℕ∞) := by
  cases hwritten : r.token.writtenAt r.place with
  | error cause => exact absurd (by rw [share, Token.share, hwritten, tally_error]) hfinite
  | ok written =>
    rw [share, Token.share, hwritten, tally_ok, textWeight]
    congr 1
    by_cases hown : r.IsStandIn vars
    · exact hown.places_eq hwritten v
    · have hkept : ¬ r.Loses vars v := fun hlost =>
        hown ⟨hlost.isAmount, v, hlost.mem, hlost.text⟩
      rw [if_neg hkept]
      rcases h.resolve_left hown written hwritten with hsame | ⟨hsame, -⟩
      · rw [hsame]
      · exact hsame v

theorem Reading.Loses.places_eq_one {v : TemplateVariable} (h : r.Loses vars v) :
    places vars v r.token.text.toList = 1 := by
  rw [h.text, places_standIn_self h.mem]

end

/-- All places of a variable are in what is read, and those that are not lost in what is
written. -/
theorem sum_places_eq (vars : List TemplateVariable) (v : TemplateVariable) (l : List Reading) :
    (l.map fun r => places vars v r.token.text.toList).sum =
      (l.map fun r => if r.Loses vars v then 0 else places vars v r.token.text.toList).sum +
        l.countP fun r => decide (r.Loses vars v) := by
  induction l with
  | nil => rfl
  | cons r l ih =>
    rw [List.map_cons, List.sum_cons, List.map_cons, List.sum_cons, List.countP_cons, ih]
    by_cases h : r.Loses vars v
    · simp only [h, h.places_eq_one, if_true, decide_true]
      omega
    · simp only [h, if_false, decide_false]
      simp [Nat.add_assoc]

structure Foreign (vars : List TemplateVariable) (p : List Char) : Prop where
  measure : WordMeasure (Text.occurrences p)
  label : textWeight (Text.occurrences p) Selector.metricLabel = 0
  not_numeric : ∃ c ∈ p, isNumeric c = false
  absent : ∀ text, Unmixed vars text → ¬ p <:+: text

theorem Foreign.occurrences_eq_zero_iff {vars : List TemplateVariable} {p text : List Char}
    (hp : Foreign vars p) : Text.occurrences p text = 0 ↔ ¬ p <:+: text := by
  obtain ⟨c, hc, -⟩ := hp.not_numeric
  exact Text.occurrences_eq_zero_iff (List.ne_nil_of_mem hc)

theorem Reading.IsApart.share_foreign {vars : List TemplateVariable} {p : List Char}
    (hp : Foreign vars p) {r : Reading} (h : r.IsApart vars)
    (htext : ¬ p <:+: r.token.text.toList) (hfinite : r.share (Text.occurrences p) ≠ ⊤) :
    r.share (Text.occurrences p) = 0 := by
  cases hw : r.token.writtenAt r.place with
  | error cause => exact absurd (by rw [share, Token.share, hw, tally_error]) hfinite
  | ok written =>
    suffices hwritten : ¬ p <:+: written.toList by
      rw [share, Token.share, hw, tally_ok, textWeight, hp.occurrences_eq_zero_iff.mpr hwritten]
      rfl
    rcases h with hown | hother
    · intro hin
      obtain ⟨c, hc, hno⟩ := hp.not_numeric
      have hyes := Token.isNumeric_of_mem_writtenAt hown.1 hw (hin.subset hc)
      rw [hno] at hyes
      exact absurd hyes (by simp)
    · rcases hother written hw with hsame | ⟨-, hunmixed⟩
      · exact hsame ▸ htext
      · exact hp.absent _ hunmixed

/-- Nothing foreign is in the text of a tree if it is not in the text it was read from. -/
theorem Foreign.not_isInfix_text {vars : List TemplateVariable} {p : List Char}
    (hp : Foreign vars p) {text : String} (hcomment : '#' ∉ text.toList)
    (hapart : ∀ r ∈ readings text, r.IsApart vars) {e : Expr} (h : Expr.parse text = .ok e)
    (hno : ¬ p <:+: text.toList) : ¬ p <:+: e.text.toList := by
  obtain ⟨hread, hwritten⟩ := weigh_readings hp.measure hp.label hcomment h
  rw [hp.occurrences_eq_zero_iff.mpr hno] at hread
  have hzero : ∀ r ∈ readings text, ¬ p <:+: r.token.text.toList := by
    intro r hr
    have hall := List.sum_eq_zero_iff.mp hread.symm
    exact hp.occurrences_eq_zero_iff.mp (hall _ (List.mem_map_of_mem hr))
  have hsum := sum_share_eq (g := fun _ => 0)
    (fun r hr hfinite => (hapart r hr).share_foreign hp (hzero r hr) hfinite) hwritten
  have hweight : e.weight (Text.occurrences p) = 0 := by
    rw [← hsum]
    simp
  exact hp.occurrences_eq_zero_iff.mp
    ((hp.measure.text (Expr.grammatical_of_parse h)).trans hweight)

theorem dollar_mem_token (v : TemplateVariable) : '$' ∈ v.token.toList := by
  simp [token_eq]

theorem dollar_not_mem_keyword : ∀ word ∈ keywordTexts, '$' ∉ word.toList := by
  decide +kernel

theorem foreign_token (vars : List TemplateVariable) (v : TemplateVariable) :
    Foreign vars v.token.toList where
  measure := (stretch_token v).wordMeasure (map_toLower_token v) (point_not_mem_token v)
    fun word hword hin => dollar_not_mem_keyword word hword (hin.subset (dollar_mem_token v))
  label := (Text.occurrences_eq_zero_iff (stretch_token v).ne_nil).mpr fun hin =>
    absurd (hin.subset (dollar_mem_token v)) (by decide)
  not_numeric := ⟨'$', dollar_mem_token v, rfl⟩
  absent _ h := h.no_token v

theorem standIn_not_isInfix_metricLabel (v : TemplateVariable) :
    ¬ v.standIn.toList <:+: Selector.metricLabel.toList := by
  cases v <;> decide +kernel

/-- A token that goes on as a longer one has no point in its stand-in. -/
theorem point_not_mem_of_token_eq {v w : TemplateVariable} {rest : List Char} (hne : v ≠ w)
    (h : v.token.toList = w.token.toList ++ rest) : '.' ∉ w.standIn.toList := by
  rcases extension_eq hne h with ⟨rfl, -⟩ | ⟨rfl, -⟩ <;> decide

theorem foreign_extension {vars : List TemplateVariable} {v w : TemplateVariable}
    {rest : List Char} (hw : w ∈ vars) (hne : v ≠ w)
    (h : v.token.toList = w.token.toList ++ rest) : Foreign vars (w.standIn.toList ++ rest) := by
  have hrest : ∀ c ∈ rest, c ∈ v.token.toList := fun c hc => h ▸ List.mem_append_right _ hc
  have hstretch : Stretch (w.standIn.toList ++ rest) :=
    stretch_standIn_append w fun c hc => (stretch_token v).unseparated c (hrest c hc)
  have hbegin : w.standIn.toList <:+: w.standIn.toList ++ rest := (List.prefix_append _ _).isInfix
  have hlower : (w.standIn.toList ++ rest).map Char.toLower = w.standIn.toList ++ rest := by
    have htoken := map_toLower_token v
    rw [h, List.map_append, map_toLower_token, List.append_cancel_left_eq] at htoken
    rw [List.map_append, map_toLower_standIn, htoken]
  have hpoint : '.' ∉ w.standIn.toList ++ rest := by
    rw [List.mem_append, not_or]
    exact ⟨point_not_mem_of_token_eq hne h, fun hc => point_not_mem_token v (hrest _ hc)⟩
  exact {
    measure := hstretch.wordMeasure hlower hpoint fun word hword hin =>
      standIn_not_in_keyword w word hword (hbegin.trans hin)
    label := (Text.occurrences_eq_zero_iff hstretch.ne_nil).mpr fun hin =>
      standIn_not_isInfix_metricLabel w (hbegin.trans hin)
    not_numeric := ⟨'_', List.mem_append_right _ (underscore_mem_of_token_eq hne h), rfl⟩
    absent := fun _ hunmixed => hunmixed.no_extension hw hne h }

section

variable {vars : List TemplateVariable} {text : String} (hcomment : '#' ∉ text.toList)
  (hapart : ∀ r ∈ readings text, r.IsApart vars) {e : Expr} (h : Expr.parse text = .ok e)

include hcomment hapart h

theorem unmixed_text_of_isApart (hunmixed : Unmixed vars text.toList) :
    Unmixed vars e.text.toList where
  no_token v :=
    (foreign_token vars v).not_isInfix_text hcomment hapart h (hunmixed.no_token v)
  no_extension hw hne heq :=
    (foreign_extension hw hne heq).not_isInfix_text hcomment hapart h
      (hunmixed.no_extension hw hne heq)

/-- Reading and writing keep the places of a variable that are not lost. -/
theorem places_text_add_lost (v : TemplateVariable) :
    places vars v e.text.toList + (readings text).countP (fun r => decide (r.Loses vars v)) =
      places vars v text.toList := by
  have hmeasure := wordMeasure_places vars v
  obtain ⟨hread, hwritten⟩ := weigh_readings hmeasure
    (places_eq_zero (standIn_not_isInfix_metricLabel v)) hcomment h
  have hkept := sum_share_eq (fun r hr hfinite => (hapart r hr).share_eq v hfinite) hwritten
  rw [hread, sum_places_eq, hkept, hmeasure.text (Expr.grammatical_of_parse h)]
  rfl

end

end PromQL

namespace Query

open TemplateVariable

/-- A rewrite without filters makes no token, and loses only those whose stand-ins are read in
a place of another kind. Nothing else may be or become a stand-in, and the codec must give the
query back. -/
theorem tokenCount_narrow {query text : String} (hcomment : '#' ∉ query.toList)
    (hno : ∀ v ∈ (encode query).2, ¬ v.standIn.toList <:+: query.toList)
    (hback : decode (encode query).2 (encode query).1 = query)
    (hapart : ∀ r ∈ readings (encode query).1, r.IsApart (encode query).2)
    (h : narrow query [] = .ok text) (v : TemplateVariable) :
    tokenCount v text.toList +
        (readings (encode query).1).countP (fun r => decide (r.Loses (encode query).2 v)) =
      tokenCount v query.toList := by
  obtain ⟨q, hq⟩ : ∃ q, parse query = .ok q := by
    cases hq : parse query with
    | ok q => exact ⟨q, rfl⟩
    | error cause => exact absurd h (by simp [narrow, hq])
  rw [narrow_nil hq] at h
  obtain rfl := Except.ok.inj h
  obtain ⟨hexpr, hvars⟩ := parse_encode hq
  have hencoded : (encode query).1.toList = (encodeChars query.toList).text := by
    rw [encode, String.toList_ofList]
  have hmark : '#' ∉ (encode query).1.toList := by
    rw [hencoded]
    exact not_mem_encodeChars rfl hcomment
  have hunmixed : Unmixed (encode query).2 (encode query).1.toList := by
    rw [hencoded]
    exact unmixed_encodeChars hno
  have hdecoded : decodeChars (encode query).2 (encodeChars query.toList).text = query.toList := by
    rw [← hencoded, ← congrArg String.toList hback, decode, String.toList_ofList]
  rw [Query.text, decode, String.toList_ofList, hvars,
    tokenCount_decodeChars (unmixed_text_of_isApart hmark hapart hexpr hunmixed),
    places_text_add_lost hmark hapart hexpr, hencoded, ← tokenCount_eq_places hno hdecoded]

/-- Two tokens in their places, one that is lost, and a number that is written otherwise. -/
theorem tokenCount_narrow_range :
    ∃ query text, query = "rate(m[$__range] @ $__to) > 1e3 - $__interval" ∧
      narrow query [] = .ok text ∧
      ∀ v, tokenCount v text.toList +
          (readings (encode query).1).countP (fun r => decide (r.Loses (encode query).2 v)) =
        tokenCount v query.toList := by
  have hvars : (encode "rate(m[$__range] @ $__to) > 1e3 - $__interval").2 =
      [.interval, .range, .rangeTo] := by
    decide +kernel
  have hreadings : ∀ r ∈ readings (encode "rate(m[$__range] @ $__to) > 1e3 - $__interval").1,
      (r.token.isAmount = true ∧ ∃ v ∈ [.interval, .range, .rangeTo], r.token.text = standIn v) ∨
        r.token.writtenAt r.place = .ok r.token.text ∨ r = ⟨.scalar, .number "1e3"⟩ := by
    decide +kernel
  refine ⟨_, "rate(m[$__range] @ $__to) > 1000 - 335348", rfl, by decide +kernel,
    fun v => tokenCount_narrow (by decide) ?_ (by decide +kernel) ?_ (by decide +kernel) v⟩
  · rw [hvars]
    decide +kernel
  · rw [hvars]
    intro r hr
    rcases hreadings r hr with hown | hsame | rfl
    · exact .inl hown
    · exact Reading.isApart_of_writtenAt hsame
    · refine Reading.isApart_of_absent rfl (by decide +kernel) fun text htext => ?_
      obtain rfl : "1000" = text := Except.ok.inj htext
      decide +kernel

/-- Each text breaks one condition or has a stand-in in a place of another kind, and does not
keep the number of a token. -/
theorem not_tokenCount_narrow :
    [("m / $__interval", "m / 335348", TemplateVariable.interval),
      ("m * 8468972.2755 / $__range_s", "m * $__range_s / $__range_s", .rangeS),
      ("m\x7ba=\"$__projectplaceholder_dashboard__$__dashboard\"\x7d",
        "m\x7ba=\"__placeholder_project$__dashboard$__dashboard\"\x7d", .project),
      ("m / 1.468035791246e12 - $__to", "m / $__to - $__to", .rangeTo),
      ("\"\\x24__from\"", "\"$__from\"", .rangeFrom),
      ("\"\\063d21h9m8s $__interval\"", "\"$__interval $__interval\"", .interval)].Forall
      fun (query, text, v) => narrow query [] = .ok text ∧
        tokenCount v text.toList ≠ tokenCount v query.toList := by
  decide +kernel

end Query

end MetricScope
