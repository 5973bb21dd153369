import MetricScope.Proofs.PromQL.Shares

/-!
# What one character does to the lexer

The arms of the lexer are told apart by the character, so that each of its properties would
need all of them again. They are gone through once here: the character that starts a lexeme
makes one of ten transitions, whichever the region is.
-/

set_option autoImplicit false

namespace MetricScope.PromQL.Lexer

theorem error_ne_ok {ε α : Type} (cause : ε) (a : α) :
    (Except.error cause : Except ε α) ≠ .ok a := by
  simp

def inBraces (s : Lexer) : Bool := s.region == .braces

def Activity.isSign : Activity → Bool
  | equals | bang | less | greater => true
  | _ => false

/-- What the first character of a lexeme completes and where it leads. -/
inductive Starts (s : Lexer) (c : Char) : List Token → Lexer → Prop
  | comment (hc : c = '#') : Starts s c [] { s with activity := .comment }
  | blank {region : Region} (hc : isBlank c = true)
      (hregion : (region == .braces) = s.inBraces) : Starts s c [] ⟨s.depth, region, .idle⟩
  | number {region : Region} (hc : c.isDigit = true)
      (hregion : (region == .braces) = s.inBraces) :
      Starts s c [] ⟨s.depth, region, startNumber c⟩
  | point (hc : c = '.') : Starts s c [] { s with activity := .dot }
  | word (hc : startsWord c = true) : Starts s c [] { s with activity := .word [c] }
  | quote (hc : isQuote c = true) : Starts s c [] { s with activity := .string c [] }
  | sign {activity : Activity} (hc : separates c = true) (ha : activity.isSign = true) :
      Starts s c [] { s with activity := activity }
  | symbol {t : Token} {depth : Nat} {region : Region} (hc : separates c = true)
      (ht : t.isSymbol = true) (hopen : t ≠ .openBrace) (hclose : t ≠ .closeBrace)
      (hregion : (region == .braces) = s.inBraces) : Starts s c [t] ⟨depth, region, .idle⟩
  | openBrace (hc : separates c = true) (hs : s.inBraces = false) :
      Starts s c [.openBrace] ⟨s.depth, .braces, .idle⟩
  | closeBrace (hc : separates c = true) (hs : s.inBraces = true) :
      Starts s c [.closeBrace] ⟨s.depth, .outside, .idle⟩

variable {s next : Lexer} {c : Char} {tokens : List Token}

theorem starts_of_startOutside (hs : s.region = .outside)
    (h : s.startOutside c = .ok (tokens, next)) : Starts s c tokens next := by
  have hout : s.inBraces = false := by rw [inBraces, hs]; rfl
  have hregion : (s.region == .braces) = s.inBraces := rfl
  unfold startOutside at h
  dsimp only at h
  split at h
  -- all arms but those of a closing parenthesis and of no symbol fail or make one transition
  all_goals first
    | exact absurd h (error_ne_ok _ _)
    | (cases h
       first
         | exact .comment rfl
         | exact .point rfl
         | exact .sign (by decide) rfl
         | exact .openBrace (by decide) hout
         | exact .symbol (by decide) rfl (by simp) (by simp) hregion
         | exact .symbol (by decide) rfl (by simp) (by simp) hout.symm)
    | skip
  · split at h
    · cases h
    · cases h
      exact .symbol (by decide) rfl (by simp) (by simp) hregion
  · split_ifs at h with hblank hdigit hword hquote
    · cases h
      exact .blank hblank hregion
    · cases h
      exact .number hdigit hregion
    · cases h
      exact .word hword
    · cases h
      exact .quote hquote

theorem starts_of_startInBraces (hs : s.region = .braces)
    (h : s.startInBraces c = .ok (tokens, next)) : Starts s c tokens next := by
  have hin : s.inBraces = true := by rw [inBraces, hs]; rfl
  have hregion : (s.region == .braces) = s.inBraces := rfl
  unfold startInBraces at h
  dsimp only at h
  split at h
  all_goals first
    | exact absurd h (error_ne_ok _ _)
    | (cases h
       first
         | exact .comment rfl
         | exact .sign (by decide) rfl
         | exact .closeBrace (by decide) hin
         | exact .symbol (by decide) rfl (by simp) (by simp) hregion)
    | skip
  split_ifs at h with hblank hword hquote
  · cases h
    exact .blank hblank hregion
  · cases h
    exact .word (by rw [startsWord, hword, Bool.true_or])
  · cases h
    exact .quote hquote

theorem starts_of_startInBrackets {fresh colon : Bool} (hs : s.region = .brackets fresh colon)
    (h : s.startInBrackets fresh colon c = .ok (tokens, next)) : Starts s c tokens next := by
  have hout : s.inBraces = false := by rw [inBraces, hs]; rfl
  unfold startInBrackets at h
  dsimp only at h
  split at h
  · split_ifs at h
    cases h
    exact .symbol (by decide) rfl (by simp) (by simp) hout.symm
  · cases h
    exact .symbol (by decide) rfl (by simp) (by simp) hout.symm
  · cases h
  · split_ifs at h with hblank hdigit
    · cases h
      exact .blank hblank hout.symm
    · cases h
      exact .number hdigit hout.symm

theorem starts_of_start (h : s.start c = .ok (tokens, next)) : Starts s c tokens next := by
  unfold start at h
  cases hregion : s.region with
  | outside =>
    rw [hregion] at h
    exact starts_of_startOutside hregion h
  | braces =>
    rw [hregion] at h
    exact starts_of_startInBraces hregion h
  | brackets fresh colon =>
    rw [hregion] at h
    exact starts_of_startInBrackets hregion h

theorem of_continueWith {activity : Activity}
    (h : s.continueWith activity = .ok (tokens, next)) :
    tokens = [] ∧ next = { s with activity := activity } := by
  cases h
  exact ⟨rfl, rfl⟩

theorem of_emit {t : Token} (h : s.emit t = .ok (tokens, next)) :
    tokens = [t] ∧ next = { s with activity := .idle } := by
  cases h
  exact ⟨rfl, rfl⟩

/-- A token that ends in front of the character stands before what the character starts. -/
theorem exists_of_emitThen {t : Token} (h : s.emitThen t c = .ok (tokens, next)) :
    ∃ more, tokens = t :: more ∧ Starts s c more next := by
  unfold emitThen at h
  cases hstart : s.start c with
  | error cause =>
    rw [hstart] at h
    cases h
  | ok result =>
    rw [hstart] at h
    cases h
    exact ⟨_, rfl, starts_of_start hstart⟩

/-- A sign makes a symbol together with the next character, or in front of it. -/
inductive EndsSign (s : Lexer) (c : Char) : List Token → Lexer → Prop
  | joined {t : Token} (hc : separates c = true) (ht : t.isSymbol = true)
      (hopen : t ≠ .openBrace) (hclose : t ≠ .closeBrace) :
      EndsSign s c [t] { s with activity := .idle }
  | apart {t : Token} {more : List Token} {next : Lexer} (ht : t.isSymbol = true)
      (hopen : t ≠ .openBrace) (hclose : t ≠ .closeBrace) (h : Starts s c more next) :
      EndsSign s c (t :: more) next

theorem endsSign_of_step (hs : s.activity.isSign = true)
    (h : s.step c = .ok (tokens, next)) : EndsSign s c tokens next := by
  have hjoined : ∀ {t : Token} {d : Char}, (c == d) = true → separates d = true →
      t.isSymbol = true → t ≠ .openBrace → t ≠ .closeBrace →
      s.emit t = .ok (tokens, next) → EndsSign s c tokens next := by
    intro t d hc hd ht hopen hclose h
    obtain rfl := beq_iff_eq.mp hc
    obtain ⟨rfl, rfl⟩ := of_emit h
    exact .joined hd ht hopen hclose
  have hapart : ∀ {t : Token}, t.isSymbol = true → t ≠ .openBrace → t ≠ .closeBrace →
      s.emitThen t c = .ok (tokens, next) → EndsSign s c tokens next := by
    intro t ht hopen hclose h
    obtain ⟨more, rfl, hstart⟩ := exists_of_emitThen h
    exact .apart ht hopen hclose hstart
  unfold step at h
  cases hactivity : s.activity with
  | equals =>
    simp only [hactivity, afterEquals] at h
    cases hregion : s.region with
    | braces =>
      simp only [hregion] at h
      split_ifs at h with htilde
      · exact hjoined htilde (by decide) rfl (by simp) (by simp) h
      · exact hapart rfl (by simp) (by simp) h
    | outside | brackets fresh colon =>
      simp only [hregion] at h
      split_ifs at h with hequal
      · exact hjoined hequal (by decide) rfl (by simp) (by simp) h
      · exact hapart rfl (by simp) (by simp) h
  | bang =>
    simp only [hactivity, afterBang] at h
    cases hregion : s.region with
    | braces =>
      simp only [hregion] at h
      split_ifs at h with hequal htilde
      · exact hjoined hequal (by decide) rfl (by simp) (by simp) h
      · exact hjoined htilde (by decide) rfl (by simp) (by simp) h
    | outside | brackets fresh colon =>
      simp only [hregion] at h
      split_ifs at h with hequal
      exact hjoined hequal (by decide) rfl (by simp) (by simp) h
  | less | greater =>
    simp only [hactivity] at h
    split_ifs at h with hequal
    · exact hjoined hequal (by decide) rfl (by simp) (by simp) h
    · exact hapart rfl (by simp) (by simp) h
  | _ => exact absurd hs (by simp [hactivity, Activity.isSign])

theorem of_run_nil (h : s.run [] = .ok tokens) :
    s.region = .outside ∧ s.finishLexeme = .ok tokens := by
  rw [run, finish] at h
  cases hlast : s.finishLexeme with
  | error cause =>
    rw [hlast] at h
    cases h
  | ok last =>
    simp only [hlast] at h
    cases hregion : s.region with
    | outside =>
      simp only [hregion] at h
      split_ifs at h
      exact ⟨rfl, h⟩
    | braces | brackets fresh colon =>
      rw [hregion] at h
      cases h

/-- The first character, and the rest of the text from where it leads. -/
theorem exists_of_run_cons {text : List Char} (h : s.run (c :: text) = .ok tokens) :
    ∃ first next more, s.step c = .ok (first, next) ∧ next.run text = .ok more ∧
      tokens = first ++ more := by
  rw [run] at h
  cases hstep : s.step c with
  | error cause =>
    rw [hstep] at h
    cases h
  | ok result =>
    obtain ⟨first, next⟩ := result
    simp only [hstep] at h
    cases hmore : next.run text with
    | error cause =>
      rw [hmore] at h
      cases h
    | ok more =>
      rw [hmore] at h
      cases h
      exact ⟨first, next, more, rfl, hmore, rfl⟩

end MetricScope.PromQL.Lexer
