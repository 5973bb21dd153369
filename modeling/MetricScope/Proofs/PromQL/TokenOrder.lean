import MetricScope.Proofs.PromQL.Transitions

/-!
# The tokens that a text can have

Inside braces a word is a name whatever it says; everywhere else the token of a word
says what the word is. The braces in the list of tokens tell the two places apart.
-/

set_option autoImplicit false

namespace MetricScope.PromQL

namespace Token

def word? : Token → Option String
  | identifier name | metricIdentifier name | keyword _ name => some name
  | _ => none

def IsOutside (t : Token) : Prop :=
  ∀ name, t.word? = some name →
    Lexer.isWord name.toList = true ∧ Lexer.wordToken name = t

/-- Words outside braces are what their texts say, when the list starts outside or inside
braces. -/
def InOrder : Bool → List Token → Prop
  | _, [] => True
  | false, t :: rest => t.IsOutside ∧ InOrder (t == .openBrace) rest
  | true, t :: rest => InOrder (t != .closeBrace) rest

theorem isOutside_of_word?_eq_none {t : Token} (h : t.word? = none) : t.IsOutside := by
  intro name hname
  rw [h] at hname
  exact absurd hname (by simp)

theorem isOutside_of_isSymbol {t : Token} (h : t.isSymbol = true) : t.IsOutside :=
  isOutside_of_word?_eq_none (by cases t <;> first | rfl | exact absurd h (by simp [isSymbol]))

end Token

namespace Lexer

open Token

def WordsRead (s : Lexer) : Prop :=
  ∀ read, s.activity = .word read → s.inBraces = false → isWord read.reverse = true

structure Leads (s : Lexer) (tokens : List Token) (next : Lexer) : Prop where
  words : next.WordsRead
  order : ∀ rest, InOrder next.inBraces rest → InOrder s.inBraces (tokens ++ rest)

theorem wordsRead_of_not_word {s : Lexer} (h : ∀ read, s.activity ≠ .word read) :
    s.WordsRead := fun read hread => absurd hread (h read)

theorem leads_nil {s next : Lexer} (hw : next.WordsRead) (h : next.inBraces = s.inBraces) :
    Leads s [] next :=
  ⟨hw, fun _ hrest => h ▸ hrest⟩

theorem leads_token {s next : Lexer} {t : Token} (hw : next.WordsRead)
    (h : next.inBraces = s.inBraces) (ht : s.inBraces = false → t.IsOutside)
    (hopen : t ≠ .openBrace) (hclose : t ≠ .closeBrace) : Leads s [t] next := by
  refine ⟨hw, fun rest hrest => ?_⟩
  rw [h] at hrest
  cases hs : s.inBraces with
  | false =>
    rw [hs] at hrest
    have hne : (t == Token.openBrace) = false := by simpa using hopen
    exact ⟨ht hs, hne ▸ hrest⟩
  | true =>
    rw [hs] at hrest
    have hne : (t != Token.closeBrace) = true := by simpa using hclose
    exact show InOrder (t != .closeBrace) rest from hne ▸ hrest

/-- A completed token in front of what the next character starts. -/
theorem Leads.emitThen {s next : Lexer} {t : Token} {tokens : List Token}
    (h : Leads s tokens next) (ht : s.inBraces = false → t.IsOutside)
    (hopen : t ≠ .openBrace) (hclose : t ≠ .closeBrace) : Leads s (t :: tokens) next := by
  have ht : Leads s [t] (between 0 s.region) :=
    leads_token (wordsRead_of_not_word fun read => by simp [between]) rfl ht hopen hclose
  exact ⟨h.words, fun rest hrest => ht.order _ (h.order rest hrest)⟩

theorem leads_emit {s next : Lexer} {t : Token} {tokens : List Token}
    (h : s.emit t = .ok (tokens, next)) (ht : t.word? = none)
    (hopen : t ≠ .openBrace) (hclose : t ≠ .closeBrace) : Leads s tokens next := by
  obtain ⟨rfl, rfl⟩ := of_emit h
  exact leads_token (wordsRead_of_not_word (by simp)) rfl
    (fun _ => isOutside_of_word?_eq_none ht) hopen hclose

theorem leads_continueWith {s next : Lexer} {activity : Activity} {tokens : List Token}
    (h : s.continueWith activity = .ok (tokens, next))
    (ha : ∀ read, activity = .word read → s.inBraces = false → isWord read.reverse = true) :
    Leads s tokens next := by
  obtain ⟨rfl, rfl⟩ := of_continueWith h
  exact leads_nil ha rfl

theorem isWord_singleton {c : Char} (h : startsWord c = true) : isWord [c] = true := by
  rw [isWord, h]
  rfl

theorem leads_start {s next : Lexer} {c : Char} {tokens : List Token}
    (h : Starts s c tokens next) : Leads s tokens next := by
  cases h with
  | comment | point | quote => exact leads_nil (wordsRead_of_not_word (by simp)) rfl
  | blank _ hregion => exact leads_nil (wordsRead_of_not_word (by simp)) hregion
  | number _ hregion => exact leads_nil (wordsRead_of_not_word (by simp [startNumber])) hregion
  | word hc =>
    refine leads_nil (fun read hread _ => ?_) rfl
    obtain rfl := Activity.word.inj hread
    exact isWord_singleton hc
  | @sign activity _ ha =>
    refine leads_nil (wordsRead_of_not_word fun read hread => ?_) rfl
    obtain rfl : activity = .word read := hread
    exact absurd ha (by simp [Activity.isSign])
  | symbol _ ht hopen hclose hregion =>
    exact leads_token (wordsRead_of_not_word (by simp)) hregion
      (fun _ => isOutside_of_isSymbol ht) hopen hclose
  | openBrace _ hs =>
    refine ⟨wordsRead_of_not_word (by simp), fun rest hrest => ?_⟩
    rw [hs]
    exact ⟨isOutside_of_isSymbol rfl, hrest⟩
  | closeBrace _ hs =>
    refine ⟨wordsRead_of_not_word (by simp), fun rest hrest => ?_⟩
    rw [hs]
    exact hrest

theorem leads_emitThen {s next : Lexer} {t : Token} {c : Char} {tokens : List Token}
    (h : s.emitThen t c = .ok (tokens, next)) (ht : s.inBraces = false → t.IsOutside)
    (hopen : t ≠ .openBrace) (hclose : t ≠ .closeBrace) : Leads s tokens next := by
  obtain ⟨more, rfl, hstart⟩ := exists_of_emitThen h
  exact (leads_start hstart).emitThen ht hopen hclose

theorem word?_wordToken {text name : String} (h : (wordToken text).word? = some name) :
    name = text := by
  rw [wordToken] at h
  split at h
  · simp [word?] at h
  · split at h
    · simpa [word?, eq_comm] using h
    · split at h <;> simpa [word?, eq_comm] using h

theorem wordToken_ne_brace (text : String) :
    wordToken text ≠ .openBrace ∧ wordToken text ≠ .closeBrace := by
  rw [wordToken]
  split
  · simp
  · split
    · simp
    · split <;> simp

theorem isOutside_wordToken {read : List Char} (h : isWord read.reverse = true) :
    (wordToken (lexeme read)).IsOutside := by
  intro name hname
  obtain rfl := word?_wordToken hname
  refine ⟨?_, rfl⟩
  rw [lexeme, String.toList_ofList]
  exact h

theorem isWord_append {w : List Char} {c : Char} (h : isWord w = true)
    (hc : inWords c = true) : isWord (w ++ [c]) = true := by
  cases w with
  | nil => exact absurd h (by decide)
  | cons d w =>
    rw [isWord, Bool.and_eq_true] at h
    rw [List.cons_append, isWord, Bool.and_eq_true, List.all_append, Bool.and_eq_true]
    exact ⟨h.1, h.2, by simp [hc]⟩

theorem leads_inWord {s next : Lexer} {read : List Char} {c : Char} {tokens : List Token}
    (hs : s.WordsRead) (hread : s.activity = .word read)
    (h : s.inWord read c = .ok (tokens, next)) : Leads s tokens next := by
  have hword := hs read hread
  have houtside : ∀ {s : Lexer}, s.inBraces = false → isWord read.reverse = true →
      (if isAlphanumeric c || c == ':' then s.continueWith (.word (c :: read))
        else s.emitThen (wordToken (lexeme read)) c) = .ok (tokens, next) →
      Leads s tokens next := by
    intro s hout hword h
    split at h
    next hc =>
      refine leads_continueWith h fun more hmore _ => ?_
      obtain rfl := Activity.word.inj hmore
      rw [List.reverse_cons]
      exact isWord_append hword hc
    · exact leads_emitThen h (fun _ => isOutside_wordToken hword) (wordToken_ne_brace _).1
        (wordToken_ne_brace _).2
  unfold inWord at h
  cases hregion : s.region with
  | braces =>
    simp only [hregion] at h
    have hin : s.inBraces = true := by simp [inBraces, hregion]
    split_ifs at h
    · exact leads_continueWith h (by simp [hin])
    · exact leads_emit h rfl (by simp) (by simp)
    · exact leads_emitThen h (by simp [hin]) (by simp) (by simp)
  | outside | brackets fresh colon =>
    simp only [hregion] at h
    have hout : s.inBraces = false := by simp [inBraces, hregion]
    exact houtside hout (hword hout) h

theorem leads_step {s next : Lexer} {c : Char} {tokens : List Token} (hs : s.WordsRead)
    (h : s.step c = .ok (tokens, next)) : Leads s tokens next := by
  have hstep := h
  unfold step at h
  cases hactivity : s.activity with
  | idle =>
    rw [hactivity] at h
    exact leads_start (starts_of_start h)
  | comment =>
    rw [hactivity] at h
    refine leads_continueWith h fun read hread _ => ?_
    split at hread <;> exact absurd hread (by simp)
  | word read =>
    rw [hactivity] at h
    exact leads_inWord hs hactivity h
  | number phase read =>
    simp only [hactivity, inNumber] at h
    cases hphase : phase.step c with
    | extend next =>
      rw [hphase] at h
      exact leads_continueWith h (by simp)
    | endNumber | endDuration =>
      rw [hphase] at h
      exact leads_emitThen h (fun _ => isOutside_of_word?_eq_none rfl) (by simp) (by simp)
    | fail =>
      rw [hphase] at h
      exact absurd h (by simp)
  | string quote read =>
    simp only [hactivity, inString] at h
    split_ifs at h
    · exact leads_emit h rfl (by simp) (by simp)
    · exact leads_continueWith h (by simp)
    · exact leads_continueWith h (by simp)
  | escape quote read =>
    simp only [hactivity, inEscape] at h
    split_ifs at h
    exact leads_continueWith h (by simp)
  | equals | bang | less | greater =>
    cases endsSign_of_step (by rw [hactivity]; rfl) hstep with
    | joined _ ht hopen hclose =>
      exact leads_token (wordsRead_of_not_word (by simp)) rfl
        (fun _ => isOutside_of_isSymbol ht) hopen hclose
    | apart ht hopen hclose hstart =>
      exact (leads_start hstart).emitThen (fun _ => isOutside_of_isSymbol ht) hopen hclose
  | dot =>
    simp only [hactivity, afterDot] at h
    split_ifs at h
    exact leads_continueWith h (by simp)

theorem inOrder_finishLexeme {s : Lexer} {tokens : List Token} (hs : s.WordsRead)
    (hout : s.inBraces = false) (h : s.finishLexeme = .ok tokens) :
    InOrder false tokens := by
  have hsingle : ∀ {t : Token}, t.IsOutside → InOrder false [t] := by
    intro t ht
    refine ⟨ht, ?_⟩
    cases t == .openBrace <;> trivial
  unfold finishLexeme at h
  cases hactivity : s.activity with
  | idle | comment =>
    rw [hactivity] at h
    cases h
    trivial
  | word read =>
    simp only [hactivity] at h
    cases hregion : s.region with
    | braces => exact absurd hout (by simp [inBraces, hregion])
    | outside | brackets fresh colon =>
      rw [hregion] at h
      cases h
      exact hsingle (isOutside_wordToken (hs read hactivity hout))
  | number phase read =>
    simp only [hactivity] at h
    cases phase with
    | count => cases h
    | _ =>
      cases h
      exact hsingle (isOutside_of_word?_eq_none rfl)
  | equals | less | greater =>
    rw [hactivity] at h
    cases h
    exact hsingle (isOutside_of_isSymbol rfl)
  | string quote read | escape quote read | bang | dot =>
    rw [hactivity] at h
    cases h

/-- A text has its tokens in order. -/
theorem inOrder_run {s : Lexer} {text : List Char} {tokens : List Token} (hs : s.WordsRead)
    (h : run s text = .ok tokens) : InOrder s.inBraces tokens := by
  induction text generalizing s tokens with
  | nil =>
    obtain ⟨hregion, hlast⟩ := of_run_nil h
    have hout : s.inBraces = false := by simp [inBraces, hregion]
    rw [hout]
    exact inOrder_finishLexeme hs hout hlast
  | cons c text ih =>
    obtain ⟨first, next, more, hstep, hmore, rfl⟩ := exists_of_run_cons h
    have hleads := leads_step hs hstep
    exact hleads.order more (ih hleads.words hmore)

theorem inOrder_tokenize {text : String} {tokens : List Token}
    (h : tokenize text = .ok tokens) : InOrder false tokens :=
  inOrder_run (wordsRead_of_not_word (by simp [initial])) h

end Lexer

end MetricScope.PromQL
