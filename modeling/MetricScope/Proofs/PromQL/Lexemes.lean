import MetricScope.Proofs.PromQL.Adjacency
import MetricScope.Proofs.PromQL.Shares
import MetricScope.Proofs.PromQL.TokenOrder

/-!
# The tokens of a text

Reading a text into tokens loses nothing: what is counted in the text is counted in the texts
of its tokens. Lexemes end in front of separators, with one exception: a point may follow a
word or a duration and starts a number then. The parser refuses such neighbours unless the word
is a keyword.
-/

set_option autoImplicit false

namespace MetricScope.PromQL

def keywordTexts : List String :=
  Aggregator.all.map Aggregator.name ++
    ["and", "or", "unless", "atan2", "offset", "by", "without", "on", "ignoring", "group_left",
      "group_right", "bool", "start", "end", "limitk", "limit_ratio", "smoothed", "anchored"]

theorem mem_keywordTexts_of_ofWord? {word : String} {keyword : Keyword}
    (h : Keyword.ofWord? word = some keyword) : word ∈ keywordTexts := by
  unfold Keyword.ofWord? at h
  split at h
  all_goals try decide
  -- no fixed word: the name of an aggregation
  obtain ⟨op, hop, -⟩ := Option.map_eq_some_iff.mp h
  have hname : op.name = word := by simpa using List.find?_some hop
  rw [← hname]
  exact List.mem_append_left _ (List.mem_map_of_mem op.mem_all)

def IsKeywordText (text : List Char) : Prop :=
  String.ofList (text.map Char.toLower) ∈ keywordTexts

/-- A measure that words of the language do not count for. -/
structure WordMeasure (f : List Char → Nat) : Prop extends Measure f where
  keyword {text : List Char} : IsKeywordText text → f text = 0
  keyword_point {text : List Char} : IsKeywordText text → ∀ rest,
    f (text ++ '.' :: rest) = f ('.' :: rest)

namespace Lexer

def Activity.pending : Activity → List Char
  | word read | number _ read | string _ read | escape _ read => read.reverse
  | dot => ['.']
  | _ => []

/-- What is read is no comment, and a string stands between quotes. -/
def Activity.Speaks : Activity → Prop
  | comment => False
  | string quote _ | escape quote _ => isQuote quote = true
  | _ => True

/-- A character after what was pending is counted in the tokens that it completes and in what
is pending then. -/
structure Covers (f : List Char → Nat) (before : List Char) (c : Char) (tokens : List Token)
    (next : Lexer) : Prop where
  silent : ∀ t ∈ tokens, t.Silent f
  count : ∀ rest, f (before ++ c :: rest) =
    weigh f (tokens.map Token.text) + f (next.activity.pending ++ rest)
  speaks : next.activity.Speaks

theorem ne_keyword_of_isSymbol {t : Token} (h : t.isSymbol = true) (word : Keyword)
    (text : String) : t ≠ .keyword word text := by
  rintro rfl
  exact absurd h (by simp [Token.isSymbol])

theorem text_of_isSymbol {t : Token} (h : t.isSymbol = true) : t.text = "" := by
  cases t <;> first | rfl | exact absurd h (by simp [Token.isSymbol])

theorem silent_of_ne_keyword {f : List Char → Nat} {t : Token}
    (h : ∀ word text, t ≠ .keyword word text) : t.Silent f :=
  fun word text hkeyword => absurd hkeyword (h word text)

theorem separates_of_isBlank {c : Char} (h : isBlank c = true) : separates c = true := by
  simp only [isBlank, Bool.or_eq_true, beq_iff_eq] at h
  rcases h with (((rfl | rfl) | rfl) | rfl) | rfl <;> decide

theorem separates_of_isQuote {c : Char} (h : isQuote c = true) : separates c = true := by
  simp only [isQuote, Bool.or_eq_true, beq_iff_eq] at h
  rcases h with (rfl | rfl) | rfl <;> decide

section

variable {s next : Lexer} {c : Char} {tokens : List Token}

theorem starts_point (h : Starts s '.' tokens next) : tokens = [] ∧ next.activity = .dot := by
  cases h with
  | point => exact ⟨rfl, rfl⟩
  | comment hc | blank hc | number hc | word hc | quote hc | sign hc | symbol hc
  | openBrace hc | closeBrace hc => exact absurd hc (by decide)

theorem starts_ne_dollar (h : Starts s c tokens next) : c ≠ '$' := by
  rintro rfl
  cases h with
  | comment hc | blank hc | number hc | point hc | word hc | quote hc | sign hc | symbol hc
  | openBrace hc | closeBrace hc => exact absurd hc (by decide)

def Collides (tokens : List Token) (next : Lexer) : Prop :=
  ∃ t, tokens = [t] ∧ t.closes = true ∧ next.activity = .dot

theorem collides_of_emitThen {t : Token} (ht : t.closes = true)
    (h : s.emitThen t '.' = .ok (tokens, next)) : Collides tokens next := by
  obtain ⟨more, rfl, hstart⟩ := exists_of_emitThen h
  obtain ⟨rfl, hdot⟩ := starts_point hstart
  exact ⟨t, rfl, ht, hdot⟩

theorem text_wordToken (word : String) : (wordToken word).text = word := by
  rw [wordToken]
  split
  · rfl
  · split
    · rfl
    · split <;> rfl

/-- A word closes, or it is a word of the language. -/
theorem closes_or_isKeywordText (word : String) :
    (wordToken word).closes = true ∨ IsKeywordText word.toList := by
  rw [wordToken]
  split
  · exact .inl rfl
  · split
    next hkeyword =>
      exact .inr (mem_keywordTexts_of_ofWord? hkeyword)
    · split <;> exact .inl rfl

theorem isKeywordText_of_wordToken {word text : String} {keyword : Keyword}
    (h : wordToken word = .keyword keyword text) : IsKeywordText text.toList := by
  rw [wordToken] at h
  split at h
  · exact absurd h (by simp)
  · split at h
    next hkeyword =>
      obtain ⟨-, rfl⟩ := Token.keyword.inj h
      exact mem_keywordTexts_of_ofWord? hkeyword
    · split at h <;> exact absurd h (by simp)

theorem isKeywordText_of_isAlternative {read : List Char} (h : isAlternative read = true) :
    IsKeywordText read.reverse := by
  have hread : read.map Char.toLower = ['r', 'o'] := by simpa [isAlternative] using h
  rw [IsKeywordText, List.map_reverse, hread]
  decide

theorem not_joins {c : Char} (hdigit : c.isDigit = false) (halpha : isAlpha c = false)
    (hpoint : c ≠ '.') : TemplateVariable.joins c = false := by
  simp only [isAlpha, Bool.or_eq_false_iff] at halpha
  simp [TemplateVariable.joins, Char.isAlphanum, hdigit, halpha.1, halpha.2, hpoint]

theorem isDigit_sixteen {c : Char} (h : Text.isDigit 16 c = false) : c.isDigit = false := by
  rw [← Bool.not_eq_true] at h ⊢
  intro hc
  apply h
  have hnine : '9'.toNat = 57 := rfl
  have hlt := Char.isDigit_iff_toNat.mp hc
  have hsmall : c.toNat - 48 < 16 := by omega
  simp [Text.isDigit, Text.digit?, Text.digitValue?, hc, Option.filter, hsmall]

theorem afterNumber_ends {c : Char} (h : afterNumber c = .endNumber) :
    isAlpha c = false ∧ c ≠ '.' := by
  rw [afterNumber] at h
  split at h
  · split at h <;> exact absurd h (by simp)
  next hc =>
    simpa using hc

theorem afterNumber_ne_endDuration (c : Char) : afterNumber c ≠ .endDuration := by
  rw [afterNumber]
  split
  · split <;> simp
  · simp

theorem afterUnit_ends {c : Char} (h : afterUnit c = .endDuration) :
    isAlpha c = false ∧ c.isDigit = false := by
  rw [afterUnit] at h
  split at h
  · exact absurd h (by simp)
  · split at h
    · exact absurd h (by simp)
    next hdigit halpha =>
      exact ⟨by simpa using halpha, by simpa using hdigit⟩

theorem afterUnit_ne_endNumber (c : Char) : afterUnit c ≠ .endNumber := by
  rw [afterUnit]
  split
  · simp
  · split <;> simp

theorem not_joins_of_endNumber {phase : NumberPhase} {c : Char}
    (h : phase.step c = .endNumber) : TemplateVariable.joins c = false := by
  have hends (hdigit : ¬ c.isDigit = true) (hafter : afterNumber c = .endNumber) :
      TemplateVariable.joins c = false := by
    obtain ⟨halpha, hpoint⟩ := afterNumber_ends hafter
    exact not_joins (by simpa using hdigit) halpha hpoint
  have hhex (hdigit : ¬ Text.isDigit 16 c = true) : ¬ c.isDigit = true := by
    rw [isDigit_sixteen (by simpa using hdigit)]
    simp
  have hunit := afterUnit_ne_endNumber c
  cases phase with
  | unit | unitEnd | count =>
    simp only [NumberPhase.step] at h
    repeat' split at h
    all_goals exact absurd h (by simp [hunit])
  | hexDigits | hexFraction =>
    simp only [NumberPhase.step] at h
    repeat' split at h
    all_goals first
      | exact absurd h (by simp)
      | exact hends (hhex ‹¬ Text.isDigit 16 c = true›) h
  | exponentStart =>
    rw [NumberPhase.step] at h
    split at h
    · exact absurd h (by simp)
    next hc =>
      simp only [Bool.or_eq_true, not_or] at hc
      exact hends hc.2 h
  | zero | digits | fraction | exponent =>
    simp only [NumberPhase.step] at h
    repeat' split at h
    all_goals first
      | exact absurd h (by simp)
      | exact hends ‹¬ c.isDigit = true› h

theorem of_endDuration {phase : NumberPhase} {c : Char} (h : phase.step c = .endDuration) :
    isAlpha c = false ∧ c.isDigit = false := by
  have hnumber := afterNumber_ne_endDuration c
  cases phase with
  | unit =>
    rw [NumberPhase.step] at h
    split at h
    · exact absurd h (by simp)
    · exact afterUnit_ends h
  | unitEnd => exact afterUnit_ends h
  | _ =>
    simp only [NumberPhase.step] at h
    repeat' split at h
    all_goals exact absurd h (by simp [hnumber])

end

section

variable {f : List Char → Nat} (hf : WordMeasure f) {before : List Char} {c : Char}
  {tokens : List Token} {next : Lexer}

theorem covers_keep (ha : next.activity.pending = before ++ [c])
    (hspeaks : next.activity.Speaks) : Covers f before c [] next :=
  ⟨by simp, fun rest => by simp [ha], hspeaks⟩

theorem covers_continueWith {s : Lexer} {activity : Activity}
    (h : s.continueWith activity = .ok (tokens, next))
    (ha : activity.pending = before ++ [c]) (hspeaks : activity.Speaks) :
    Covers f before c tokens next := by
  obtain ⟨rfl, rfl⟩ := of_continueWith h
  exact covers_keep ha hspeaks

include hf

theorem covers_skip (hc : separates c = true) (ha : next.activity.pending = [])
    (hspeaks : next.activity.Speaks) : Covers f [] c [] next :=
  ⟨by simp, fun rest => by simp [ha, hf.cons hc], hspeaks⟩

theorem covers_token {t : Token} (hc : separates c = true) (hnext : next.activity = .idle)
    (ht : ∀ word text, t ≠ .keyword word text) (htext : textWeight f t.text = f before) :
    Covers f before c [t] next := by
  refine ⟨?_, fun rest => ?_, by rw [hnext]; trivial⟩
  · intro u hu
    obtain rfl := List.mem_singleton.mp hu
    exact silent_of_ne_keyword ht
  · rw [hf.append_cons hc, ← htext, hnext]
    simp [textWeight, Activity.pending]

theorem covers_symbol {t : Token} (hc : separates c = true) (hnext : next.activity = .idle)
    (ht : t.isSymbol = true) (hbefore : f before = 0) : Covers f before c [t] next := by
  refine covers_token hf hc hnext (ne_keyword_of_isSymbol ht) ?_
  rw [text_of_isSymbol ht, hbefore]
  exact hf.nil

theorem covers_emit {s : Lexer} {t : Token} (hc : separates c = true)
    (h : s.emit t = .ok (tokens, next)) (ht : t.isSymbol = true) (hbefore : f before = 0) :
    Covers f before c tokens next := by
  obtain ⟨rfl, rfl⟩ := of_emit h
  exact covers_symbol hf hc rfl ht hbefore

theorem Covers.emitThen {t : Token} (h : Covers f [] c tokens next) (hc : separates c = true)
    (ht : t.Silent f) (htext : textWeight f t.text = f before) :
    Covers f before c (t :: tokens) next := by
  refine ⟨List.forall_mem_cons.mpr ⟨ht, h.silent⟩, fun rest => ?_, h.speaks⟩
  have hrest := h.count rest
  rw [List.nil_append, hf.cons hc] at hrest
  rw [hf.append_cons hc, hrest, List.map_cons, weigh_cons, ← htext, textWeight, Nat.add_assoc]

/-- The first character of a lexeme; a point is the only one that is no separator and starts
something else than a word or a number. -/
theorem covers_start {s : Lexer} (hc : c ≠ '#') (h : Starts s c tokens next) :
    Covers f [] c tokens next := by
  cases h with
  | comment hcomment => exact absurd hcomment hc
  | blank hblank => exact covers_skip hf (separates_of_isBlank hblank) rfl trivial
  | number | word => exact covers_keep rfl trivial
  | point hpoint =>
    subst hpoint
    exact covers_keep rfl trivial
  | quote hquote => exact covers_skip hf (separates_of_isQuote hquote) rfl hquote
  | @sign activity hsep ha =>
    cases activity with
    | equals | bang | less | greater => exact covers_skip hf hsep rfl trivial
    | _ => exact absurd ha (by simp [Activity.isSign])
  | symbol hsep ht => exact covers_symbol hf hsep rfl ht hf.nil
  | openBrace hsep | closeBrace hsep => exact covers_symbol hf hsep rfl rfl hf.nil

/-- A lexeme ends in front of a character that could not be in it. -/
theorem covers_emitThen {s : Lexer} {t : Token} (hc : c ≠ '#')
    (hjoins : TemplateVariable.joins c = false) (ht : t.Silent f)
    (htext : textWeight f t.text = f before) (h : s.emitThen t c = .ok (tokens, next)) :
    Covers f before c tokens next := by
  obtain ⟨more, rfl, hstart⟩ := exists_of_emitThen h
  have hsep : separates c = true := by simp [separates, hjoins, starts_ne_dollar hstart]
  exact (covers_start hf hc hstart).emitThen hf hsep ht htext

theorem covers_symbolThen {s : Lexer} {t : Token} {more : List Token} (hc : c ≠ '#')
    (ht : t.isSymbol = true) (h : Starts s c more next) : Covers f [] c (t :: more) next := by
  have hcovers := covers_start hf hc h
  have hzero : f t.text.toList = 0 := by
    rw [text_of_isSymbol ht]
    exact hf.nil
  refine ⟨List.forall_mem_cons.mpr ⟨silent_of_ne_keyword (ne_keyword_of_isSymbol ht),
    hcovers.silent⟩, fun rest => ?_, hcovers.speaks⟩
  rw [hcovers.count, List.map_cons, weigh_cons, hzero, Nat.zero_add]

theorem silent_wordToken (word : String) : (wordToken word).Silent f := by
  intro keyword text h
  exact hf.keyword (isKeywordText_of_wordToken h)

omit hf in
theorem textWeight_lexeme (read : List Char) : textWeight f (lexeme read) = f read.reverse := by
  rw [textWeight, lexeme, String.toList_ofList]

/-- A word outside braces, in front of a character that is not in it. -/
theorem covers_endWord {s : Lexer} {read : List Char} (hc : c ≠ '#')
    (hword : ¬ (isAlphanumeric c || c == ':') = true)
    (h : s.emitThen (wordToken (lexeme read)) c = .ok (tokens, next)) :
    Covers f read.reverse c tokens next ∨ Collides tokens next := by
  have hsilent := silent_wordToken hf (lexeme read)
  have htext : textWeight f (wordToken (lexeme read)).text = f read.reverse := by
    rw [text_wordToken, textWeight_lexeme]
  by_cases hpoint : c = '.'
  · subst hpoint
    rcases closes_or_isKeywordText (lexeme read) with hcloses | hkeyword
    · exact .inr (collides_of_emitThen hcloses h)
    · left
      rw [lexeme, String.toList_ofList] at hkeyword
      obtain ⟨more, rfl, hstart⟩ := exists_of_emitThen h
      obtain ⟨rfl, hdot⟩ := starts_point hstart
      refine ⟨by simpa using hsilent, fun rest => ?_, by rw [hdot]; trivial⟩
      rw [hf.keyword_point hkeyword, List.map_singleton, weigh_cons, weigh_nil, hdot]
      have hzero : f (wordToken (lexeme read)).text.toList = 0 :=
        htext.trans (hf.keyword hkeyword)
      rw [hzero, Nat.zero_add]
      rfl
  · left
    have hjoins : TemplateVariable.joins c = false := by
      simp only [isAlphanumeric, Bool.or_eq_true, not_or, Bool.not_eq_true] at hword
      exact not_joins hword.1.2 hword.1.1 hpoint
    exact covers_emitThen hf hc hjoins hsilent htext h

theorem covers_inWord {s : Lexer} {read : List Char} (hc : c ≠ '#')
    (h : s.inWord read c = .ok (tokens, next)) :
    Covers f read.reverse c tokens next ∨ Collides tokens next := by
  unfold inWord at h
  cases hregion : s.region with
  | braces =>
    left
    simp only [hregion] at h
    split_ifs at h with hword hor
    · exact covers_continueWith h (by simp [Activity.pending]) trivial
    · simp only [Bool.and_eq_true, beq_iff_eq] at hor
      obtain ⟨rfl, hor⟩ := hor
      exact covers_emit hf (by decide) h rfl (hf.keyword (isKeywordText_of_isAlternative hor))
    · have hpoint : c ≠ '.' := by
        rintro rfl
        exact absurd h (by
          simp [emitThen, start, hregion, startInBraces, isBlank, isAlpha, isQuote])
      have hjoins : TemplateVariable.joins c = false := by
        simp only [isAlphanumeric, Bool.or_eq_true, not_or, Bool.not_eq_true] at hword
        exact not_joins hword.2 hword.1 hpoint
      have hsilent : (Token.identifier (lexeme read)).Silent f := silent_of_ne_keyword (by simp)
      exact covers_emitThen hf hc hjoins hsilent (textWeight_lexeme read) h
  | outside | brackets fresh colon =>
    simp only [hregion] at h
    split_ifs at h with hword
    · exact .inl (covers_continueWith h (by simp [Activity.pending]) trivial)
    · exact covers_endWord hf hc hword h

theorem covers_inNumber {s : Lexer} {phase : NumberPhase} {read : List Char} (hc : c ≠ '#')
    (h : s.inNumber phase read c = .ok (tokens, next)) :
    Covers f read.reverse c tokens next ∨ Collides tokens next := by
  unfold inNumber at h
  cases hphase : phase.step c with
  | extend next =>
    rw [hphase] at h
    exact .inl (covers_continueWith h (by simp [Activity.pending]) trivial)
  | endNumber =>
    rw [hphase] at h
    have hsilent : (Token.number (lexeme read)).Silent f := silent_of_ne_keyword (by simp)
    exact .inl (covers_emitThen hf hc (not_joins_of_endNumber hphase) hsilent
      (textWeight_lexeme read) h)
  | endDuration =>
    rw [hphase] at h
    obtain ⟨halpha, hdigit⟩ := of_endDuration hphase
    by_cases hpoint : c = '.'
    · subst hpoint
      exact .inr (collides_of_emitThen rfl h)
    · have hsilent : (Token.duration (lexeme read)).Silent f := silent_of_ne_keyword (by simp)
      exact .inl (covers_emitThen hf hc (not_joins hdigit halpha hpoint) hsilent
        (textWeight_lexeme read) h)
  | fail =>
    rw [hphase] at h
    cases h

/-- One character is counted in what it completes and in what it leaves pending, or the parser
will refuse what is read. -/
theorem covers_step {s : Lexer} (hs : s.activity.Speaks) (hc : c ≠ '#')
    (h : s.step c = .ok (tokens, next)) :
    Covers f s.activity.pending c tokens next ∨ Collides tokens next := by
  have hstep := h
  unfold step at h
  generalize hactivity : s.activity = activity at hs h ⊢
  cases activity with
  | idle => exact .inl (covers_start hf hc (starts_of_start h))
  | comment => exact absurd hs id
  | word read => exact covers_inWord hf hc h
  | number phase read => exact covers_inNumber hf hc h
  | string quote read =>
    left
    simp only [inString] at h
    split_ifs at h with hquote
    · obtain rfl : c = quote := by simpa using hquote
      obtain ⟨rfl, rfl⟩ := of_emit h
      exact covers_token hf (separates_of_isQuote hs) rfl (by simp) (textWeight_lexeme read)
    · exact covers_continueWith h (by simp [Activity.pending]) hs
    · exact covers_continueWith h (by simp [Activity.pending]) hs
  | escape quote read =>
    simp only [inEscape] at h
    split_ifs at h
    exact .inl (covers_continueWith h (by simp [Activity.pending]) hs)
  | equals | bang | less | greater =>
    left
    cases endsSign_of_step (by rw [hactivity]; rfl) hstep with
    | joined hsep ht => exact covers_symbol hf hsep rfl ht hf.nil
    | apart ht _ _ hstart => exact covers_symbolThen hf hc ht hstart
  | dot =>
    simp only [afterDot] at h
    split_ifs at h
    exact .inl (covers_continueWith h (by simp [Activity.pending]) trivial)

end

/-- Behind a point or inside a number, a number or a duration comes first. -/
theorem exists_amount_of_run {s : Lexer} {text : List Char} {tokens : List Token}
    (hs : s.activity = .dot ∨ ∃ phase read, s.activity = .number phase read)
    (h : s.run text = .ok tokens) : ∃ u more, tokens = u :: more ∧ u.isAmount = true := by
  induction text generalizing s tokens with
  | nil =>
    obtain ⟨-, hlast⟩ := of_run_nil h
    rcases hs with hs | ⟨phase, read, hs⟩
    · simp [finishLexeme, hs] at hlast
    · simp only [finishLexeme, hs] at hlast
      cases phase with
      | count => cases hlast
      | _ => exact ⟨_, _, (Except.ok.inj hlast).symm, rfl⟩
  | cons c text ih =>
    obtain ⟨first, next, more, hstep, hmore, rfl⟩ := exists_of_run_cons h
    have hcontinue : ∀ activity, s.continueWith activity = .ok (first, next) →
        (∃ phase read, activity = .number phase read) →
        ∃ u rest, first ++ more = u :: rest ∧ u.isAmount = true := by
      rintro activity hactivity ⟨phase, read, rfl⟩
      obtain ⟨rfl, rfl⟩ := of_continueWith hactivity
      exact ih (.inr ⟨phase, read, rfl⟩) hmore
    have hemit : ∀ t : Token, t.isAmount = true → s.emitThen t c = .ok (first, next) →
        ∃ u rest, first ++ more = u :: rest ∧ u.isAmount = true := by
      intro t ht hthen
      obtain ⟨_, rfl, -⟩ := exists_of_emitThen hthen
      exact ⟨t, _, rfl, ht⟩
    rcases hs with hs | ⟨phase, read, hs⟩
    · simp only [step, hs, afterDot] at hstep
      split_ifs at hstep
      exact hcontinue _ hstep ⟨_, _, rfl⟩
    · simp only [step, hs, inNumber] at hstep
      cases hphase : phase.step c with
      | extend phase =>
        rw [hphase] at hstep
        exact hcontinue _ hstep ⟨_, _, rfl⟩
      | endNumber | endDuration =>
        rw [hphase] at hstep
        exact hemit _ rfl hstep
      | fail =>
        rw [hphase] at hstep
        cases hstep

section

variable {f : List Char → Nat} (hf : WordMeasure f)

include hf

theorem weigh_finishLexeme {s : Lexer} {tokens : List Token} (h : s.finishLexeme = .ok tokens) :
    (∀ t ∈ tokens, t.Silent f) ∧
      f s.activity.pending = weigh f (tokens.map Token.text) := by
  have hsingle : ∀ {t : Token} {read : List Char}, t.Silent f →
      textWeight f t.text = f read.reverse →
      (∀ u ∈ [t], u.Silent f) ∧ f read.reverse = weigh f ([t].map Token.text) := by
    intro t read ht htext
    refine ⟨by simpa using ht, ?_⟩
    rw [← htext, List.map_singleton, weigh_cons, weigh_nil, Nat.add_zero, textWeight]
  have hsymbol : ∀ {t : Token}, t.isSymbol = true →
      (∀ u ∈ [t], u.Silent f) ∧ f [] = weigh f ([t].map Token.text) := by
    intro t ht
    refine ⟨by simpa using silent_of_ne_keyword (ne_keyword_of_isSymbol ht), ?_⟩
    rw [List.map_singleton, text_of_isSymbol ht, weigh_cons, weigh_nil, Nat.add_zero]
    rfl
  unfold finishLexeme at h
  generalize s.activity = activity at h ⊢
  cases activity with
  | idle | comment =>
    cases h
    exact ⟨by simp, hf.nil⟩
  | word read =>
    dsimp only at h
    cases hregion : s.region with
    | braces =>
      rw [hregion] at h
      cases h
      exact hsingle (silent_of_ne_keyword (by simp)) (textWeight_lexeme read)
    | outside | brackets fresh colon =>
      rw [hregion] at h
      cases h
      exact hsingle (silent_wordToken hf _) (by rw [text_wordToken, textWeight_lexeme])
  | number phase read =>
    cases phase with
    | count => cases h
    | _ =>
      cases h
      exact hsingle (silent_of_ne_keyword (by simp)) (textWeight_lexeme read)
  | equals | less | greater =>
    cases h
    exact hsymbol rfl
  | string quote read | escape quote read | bang | dot => cases h

/-- What is counted in a text without comments is counted in its tokens, if the parser may
read them one after the other. -/
theorem weigh_run {s : Lexer} {text : List Char} {tokens : List Token}
    (hs : s.activity.Speaks) (htext : '#' ∉ text) (h : s.run text = .ok tokens)
    (hchain : tokens.IsChain Token.MayPrecede) :
    (∀ t ∈ tokens, t.Silent f) ∧
      f (s.activity.pending ++ text) = weigh f (tokens.map Token.text) := by
  induction text generalizing s tokens with
  | nil =>
    obtain ⟨-, hlast⟩ := of_run_nil h
    rw [List.append_nil]
    exact weigh_finishLexeme hf hlast
  | cons c text ih =>
    rw [List.mem_cons, not_or] at htext
    obtain ⟨first, next, more, hstep, hmore, rfl⟩ := exists_of_run_cons h
    rcases covers_step hf hs (Ne.symm htext.1) hstep with hcovers | ⟨t, rfl, ht, hdot⟩
    · obtain ⟨hsilent, hcount⟩ :=
        ih hcovers.speaks htext.2 hmore (List.isChain_append.mp hchain).2.1
      refine ⟨fun t ht => (List.mem_append.mp ht).elim (hcovers.silent t) (hsilent t), ?_⟩
      rw [hcovers.count, hcount, List.map_append, weigh_append]
    · obtain ⟨u, rest, rfl, hu⟩ := exists_amount_of_run (.inl hdot) hmore
      rw [List.singleton_append, List.isChain_cons_cons] at hchain
      exact absurd (hchain.1 ht) (by simp [hu])

end

end Lexer

/-- What is counted in a text is counted in its tokens. -/
theorem WordMeasure.tokenize {f : List Char → Nat} (hf : WordMeasure f) {text : String}
    {tokens : List Token} (htext : '#' ∉ text.toList) (h : tokenize text = .ok tokens)
    (hchain : tokens.IsChain Token.MayPrecede) :
    (∀ t ∈ tokens, t.Silent f) ∧ f text.toList = weigh f (tokens.map Token.text) :=
  Lexer.weigh_run hf (s := .initial) trivial htext h hchain

end MetricScope.PromQL
