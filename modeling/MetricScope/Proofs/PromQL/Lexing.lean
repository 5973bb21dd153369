import MetricScope.PromQL.Lexer

/-!
# The tokens of a text in parts

The parts of a written query end where a blank, a comma or a bracket follows, so the
tokens of the whole are the tokens of its parts. Each kind of lexeme is read by itself,
in front of any rest that stops it.
-/

set_option autoImplicit false

namespace MetricScope.PromQL.Lexer

def after (tokens : List Token) (rest : Except LexicalError (List Token)) :
    Except LexicalError (List Token) :=
  rest.map (tokens ++ ·)

@[simp] theorem after_nil (rest : Except LexicalError (List Token)) :
    after [] rest = rest := by
  cases rest <;> rfl

@[simp] theorem after_after (a b : List Token) (rest : Except LexicalError (List Token)) :
    after a (after b rest) = after (a ++ b) rest := by
  cases rest <;> simp [after, Except.map]

theorem run_cons {s next : Lexer} {c : Char} {tokens : List Token} (rest : List Char)
    (h : s.step c = .ok (tokens, next)) :
    run s (c :: rest) = after tokens (run next rest) := by
  rw [run, h]
  dsimp only
  cases run next rest <;> rfl

def between (depth : Nat) (region : Region) : Lexer := ⟨depth, region, .idle⟩

def inside (depth : Nat) (region : Region) (activity : Activity) : Lexer :=
  ⟨depth, region, activity⟩

def breaks (c : Char) : Bool :=
  c == ' ' || c == '(' || c == ')' || c == ',' || c == '[' || c == '\x7b'

def stops : List Char → Bool
  | [] => true
  | c :: _ => breaks c

theorem stops_append {a b : List Char} (ha : stops a = true) (hb : stops b = true) :
    stops (a ++ b) = true := by
  cases a with
  | nil => exact hb
  | cons c a => exact ha

/-- What follows the text does not matter if it stops a lexeme. -/
def Scans (text : List Char) (tokens : List Token) : Prop :=
  ∀ (depth : Nat) (rest : List Char), stops rest = true →
    run (between depth .outside) (text ++ rest) =
      after tokens (run (between depth .outside) rest)

/-- The text ends by itself, whatever follows it. -/
def ScansAlone (text : List Char) (tokens : List Token) : Prop :=
  ∀ (depth : Nat) (rest : List Char),
    run (between depth .outside) (text ++ rest) =
      after tokens (run (between depth .outside) rest)

theorem scansAlone_nil : ScansAlone [] [] := by
  intro depth rest
  rw [List.nil_append, after_nil]

theorem ScansAlone.scans {text : List Char} {tokens : List Token}
    (h : ScansAlone text tokens) : Scans text tokens :=
  fun depth rest _ => h depth rest

theorem scans_nil : Scans [] [] :=
  scansAlone_nil.scans

theorem Scans.append {a b : List Char} {s t : List Token} (ha : Scans a s)
    (hb : Scans b t) (hstop : stops b = true) : Scans (a ++ b) (s ++ t) := by
  intro depth rest hrest
  rw [List.append_assoc, ha depth _ (stops_append hstop hrest), hb depth rest hrest,
    after_after]

theorem ScansAlone.append {a b : List Char} {s t : List Token} (ha : ScansAlone a s)
    (hb : Scans b t) : Scans (a ++ b) (s ++ t) := by
  intro depth rest hrest
  rw [List.append_assoc, ha depth, hb depth rest hrest, after_after]

theorem ScansAlone.appendAlone {a b : List Char} {s t : List Token}
    (ha : ScansAlone a s) (hb : ScansAlone b t) : ScansAlone (a ++ b) (s ++ t) := by
  intro depth rest
  rw [List.append_assoc, ha depth, hb depth, after_after]

theorem Scans.run_initial {text : List Char} {tokens : List Token}
    (h : Scans text tokens) : initial.run text = .ok tokens := by
  have hrun := h 0 [] rfl
  rw [List.append_nil] at hrun
  exact hrun.trans (by simp [run, between, finish, finishLexeme, after, Except.map])

/-- The activity does not matter for the first character of what follows. -/
theorem start_inside (depth : Nat) (region : Region) (activity : Activity) (c : Char) :
    start (inside depth region activity) c = start (between depth region) c := by
  cases region <;> rfl

theorem run_cons_of_emitThen {depth : Nat} {region : Region} {activity : Activity}
    {token : Token} {c : Char} (rest : List Char)
    (h : (inside depth region activity).step c =
      (inside depth region activity).emitThen token c) :
    run (inside depth region activity) (c :: rest) =
      after [token] (run (between depth region) (c :: rest)) := by
  have hstart : (between depth region).step c = start (between depth region) c := rfl
  rw [run, run, h, emitThen, start_inside, hstart]
  cases start (between depth region) c with
  | error cause => rfl
  | ok answer =>
    obtain ⟨tokens, next⟩ := answer
    dsimp only
    cases run next rest <;> rfl

theorem run_of_emitThen {depth : Nat} {activity : Activity} {token : Token}
    (hstep : ∀ c, breaks c = true → (inside depth .outside activity).step c =
      (inside depth .outside activity).emitThen token c)
    (hfinish : (inside depth .outside activity).finishLexeme = .ok [token])
    (rest : List Char) (hrest : stops rest = true) :
    run (inside depth .outside activity) rest =
      after [token] (run (between depth .outside) rest) := by
  cases rest with
  | nil =>
    rw [run, run, finish, finish, hfinish]
    by_cases hd : depth = 0 <;> simp [inside, between, finishLexeme, hd, after, Except.map]
  | cons c rest => exact run_cons_of_emitThen rest (hstep c hrest)

def startsWord (c : Char) : Bool :=
  isAlpha c || c == ':'

def inWords (c : Char) : Bool :=
  isAlphanumeric c || c == ':'

def isWord : List Char → Bool
  | [] => false
  | c :: rest => startsWord c && rest.all inWords

theorem not_inWords_of_breaks {c : Char} (h : breaks c = true) : inWords c = false := by
  simp only [breaks, Bool.or_eq_true, beq_iff_eq] at h
  rcases h with ((((rfl | rfl) | rfl) | rfl) | rfl) | rfl <;> decide

theorem not_isDigit_of_isAlpha {c : Char} (h : isAlpha c = true) : c.isDigit = false := by
  simp only [isAlpha, Bool.or_eq_true, beq_iff_eq] at h
  rcases h with rfl | h
  · decide
  · rw [← Bool.not_eq_true]
    intro hd
    have hdigit := Char.isDigit_iff_toNat.mp hd
    have hletter : (c.isUpper || c.isLower) = true := h
    rw [Bool.or_eq_true] at hletter
    rcases hletter with hupper | hlower
    · have hrange : 'A'.val ≤ c.val ∧ c.val ≤ 'Z'.val := of_decide_eq_true hupper
      have hlow := UInt32.le_iff_toNat_le.mp hrange.1
      exact absurd (Nat.le_trans hlow hdigit.2) (by decide)
    · have hrange : (decide ('a'.val ≤ c.val) && decide (c.val ≤ 'z'.val)) = true := hlower
      rw [Bool.and_eq_true, decide_eq_true_eq] at hrange
      have hlow := UInt32.le_iff_toNat_le.mp hrange.1
      exact absurd (Nat.le_trans hlow hdigit.2) (by decide)

theorem not_isBlank_of_isAlphanumeric {c : Char} (h : isAlphanumeric c = true) :
    isBlank c = false := by
  rw [← Bool.not_eq_true]
  intro hb
  simp only [isBlank, Bool.or_eq_true, beq_iff_eq] at hb
  rcases hb with (((rfl | rfl) | rfl) | rfl) | rfl <;> revert h <;> decide

theorem isAlphanumeric_of_isAlpha {c : Char} (h : isAlpha c = true) :
    isAlphanumeric c = true := by
  rw [isAlphanumeric, h, Bool.true_or]

theorem isAlphanumeric_of_isDigit {c : Char} (h : c.isDigit = true) :
    isAlphanumeric c = true := by
  rw [isAlphanumeric, h, Bool.or_true]

theorem startOutside_word (s : Lexer) {c : Char} (h : startsWord c = true) :
    s.startOutside c = .ok ([], { s with activity := .word [c] }) := by
  unfold startOutside
  split
  all_goals first
    | (exfalso; revert h; decide)
    | skip
  have hblank : isBlank c = false := by
    rw [startsWord, Bool.or_eq_true, beq_iff_eq] at h
    rcases h with h | rfl
    · exact not_isBlank_of_isAlphanumeric (isAlphanumeric_of_isAlpha h)
    · decide
  have hdigit : c.isDigit = false := by
    rw [startsWord, Bool.or_eq_true, beq_iff_eq] at h
    rcases h with h | rfl
    · exact not_isDigit_of_isAlpha h
    · decide
  rw [startsWord] at h
  simp [hblank, hdigit, h]

theorem run_word (depth : Nat) (read w rest : List Char) (h : w.all inWords = true) :
    run (inside depth .outside (.word read)) (w ++ rest) =
      run (inside depth .outside (.word (w.reverse ++ read))) rest := by
  induction w generalizing read with
  | nil => rfl
  | cons c w ih =>
    rw [List.all_cons, Bool.and_eq_true] at h
    have hstep : (inside depth .outside (.word read)).step c =
        .ok ([], inside depth .outside (.word (c :: read))) := by
      simp only [inWords] at h
      simp [inside, step, inWord, h.1, continueWith]
    rw [List.cons_append, run_cons _ hstep, after_nil, ih (c :: read) h.2]
    simp

theorem lexeme_reverse (w : List Char) : lexeme w.reverse = String.ofList w := by
  rw [lexeme, List.reverse_reverse]

theorem scans_word {w : List Char} (h : isWord w = true) :
    Scans w [wordToken (String.ofList w)] := by
  cases w with
  | nil => exact absurd h (by decide)
  | cons c w =>
    rw [isWord, Bool.and_eq_true] at h
    intro depth rest hrest
    have hstep : (between depth .outside).step c =
        .ok ([], inside depth .outside (.word [c])) := startOutside_word _ h.1
    rw [List.cons_append, run_cons _ hstep, after_nil, run_word depth [c] w rest h.2,
      ← List.reverse_cons, ← lexeme_reverse]
    generalize (c :: w).reverse = read
    refine run_of_emitThen (fun d hd => ?_) rfl rest hrest
    have hd := not_inWords_of_breaks hd
    rw [inWords] at hd
    simp [inside, step, inWord, hd]

def isPlain (c : Char) : Bool :=
  c != '"' && c != '\\' && c != '\n'

theorem run_string (depth : Nat) (region : Region) (read w rest : List Char)
    (h : w.all isPlain = true) :
    run (inside depth region (.string '"' read)) (w ++ '"' :: rest) =
      after [.string '"' (String.ofList (read.reverse ++ w))]
        (run (between depth region) rest) := by
  induction w generalizing read with
  | nil =>
    have hstep : (inside depth region (.string '"' read)).step '"' =
        .ok ([.string '"' (lexeme read)], between depth region) := by
      simp [inside, step, inString, emit, between]
    rw [List.nil_append, run_cons _ hstep, lexeme, List.append_nil]
  | cons c w ih =>
    rw [List.all_cons, Bool.and_eq_true] at h
    have hc := h.1
    simp only [isPlain, Bool.and_eq_true, bne_iff_ne] at hc
    have hstep : (inside depth region (.string '"' read)).step c =
        .ok ([], inside depth region (.string '"' (c :: read))) := by
      simp [inside, step, inString, continueWith, hc]
    rw [List.cons_append, run_cons _ hstep, after_nil, ih (c :: read) h.2]
    simp

theorem scansAlone_string {w : List Char} (h : w.all isPlain = true) :
    ScansAlone ('"' :: w ++ ['"']) [.string '"' (String.ofList w)] := by
  intro depth rest
  have hstep : (between depth .outside).step '"' =
      .ok ([], inside depth .outside (.string '"' [])) := by
    simp [between, step, start, startOutside, inside, isBlank, isAlpha, isQuote]
  have hassoc : '"' :: w ++ ['"'] ++ rest = '"' :: (w ++ '"' :: rest) := by simp
  rw [hassoc, run_cons _ hstep, after_nil, run_string depth .outside [] w rest h]
  rfl

theorem scansAlone_blank : ScansAlone [' '] [] := by
  intro depth rest
  have hstep : (between depth .outside).step ' ' = .ok ([], between depth .outside) := rfl
  exact run_cons rest hstep

theorem scansAlone_comma : ScansAlone [','] [.comma] := by
  intro depth rest
  have hstep : (between depth .outside).step ',' =
      .ok ([.comma], between depth .outside) := rfl
  exact run_cons rest hstep

theorem scansAlone_at : ScansAlone ['@'] [.at] := by
  intro depth rest
  have hstep : (between depth .outside).step '@' = .ok ([.at], between depth .outside) := rfl
  exact run_cons rest hstep

theorem scansAlone_minus : ScansAlone ['-'] [.operator .sub] := by
  intro depth rest
  have hstep : (between depth .outside).step '-' =
      .ok ([.operator .sub], between depth .outside) := rfl
  exact run_cons rest hstep

theorem scansAlone_parentheses {text : List Char} {tokens : List Token}
    (h : Scans text tokens) :
    ScansAlone ('(' :: text ++ [')']) (.openParen :: tokens ++ [.closeParen]) := by
  intro depth rest
  have hopen : (between depth .outside).step '(' =
      .ok ([.openParen], between (depth + 1) .outside) := rfl
  have hclose : (between (depth + 1) .outside).step ')' =
      .ok ([.closeParen], between depth .outside) := by
    simp [between, step, start, startOutside]
  have hassoc : '(' :: text ++ [')'] ++ rest = '(' :: (text ++ ')' :: rest) := by simp
  rw [hassoc, run_cons _ hopen, h (depth + 1) (')' :: rest) rfl, run_cons rest hclose,
    after_after, after_after]
  simp

def operatorToken (op : Operator) : Token :=
  match Keyword.ofWord? op.text with
  | some word => .keyword word op.text
  | none => .operator op

theorem scansAlone_of_step {c : Char} {token : Token}
    (h : ∀ depth, (between depth .outside).step c = .ok ([token], between depth .outside)) :
    ScansAlone [c] [token] :=
  fun depth rest => run_cons rest (h depth)

theorem scansAlone_of_steps {c d : Char} {activity : Activity} {token : Token}
    (hc : ∀ depth, (between depth .outside).step c =
      .ok ([], inside depth .outside activity))
    (hd : ∀ depth, (inside depth .outside activity).step d =
      .ok ([token], between depth .outside)) : ScansAlone [c, d] [token] := by
  intro depth rest
  rw [List.cons_append, run_cons _ (hc depth), after_nil]
  exact run_cons rest (hd depth)

/-- An operator that a second character could make longer ends in front of what stops it. -/
theorem scans_of_emitThen {c : Char} {activity : Activity} {token : Token}
    (hc : ∀ depth, (between depth .outside).step c =
      .ok ([], inside depth .outside activity))
    (hend : ∀ depth d, breaks d = true → (inside depth .outside activity).step d =
      (inside depth .outside activity).emitThen token d)
    (hfinish : ∀ depth, (inside depth .outside activity).finishLexeme = .ok [token]) :
    Scans [c] [token] := by
  intro depth rest hrest
  rw [List.cons_append, run_cons _ (hc depth), after_nil]
  exact run_of_emitThen (hend depth) (hfinish depth) rest hrest

theorem ne_equals_of_breaks {c : Char} (h : breaks c = true) : c ≠ '=' := by
  rintro rfl
  exact absurd h (by decide)

theorem scans_less : Scans ['<'] [.operator .lt] :=
  scans_of_emitThen (fun _ => rfl)
    (fun _ _ hd => by simp [inside, step, ne_equals_of_breaks hd]) fun _ => rfl

theorem scans_greater : Scans ['>'] [.operator .gt] :=
  scans_of_emitThen (fun _ => rfl)
    (fun _ _ hd => by simp [inside, step, ne_equals_of_breaks hd]) fun _ => rfl

theorem scans_operator (op : Operator) : Scans op.text.toList [operatorToken op] := by
  cases op with
  | add | sub | mul | div | mod | pow => exact (scansAlone_of_step fun _ => rfl).scans
  | eq => exact (scansAlone_of_steps (fun _ => rfl) (fun _ => rfl)).scans
  | ne => exact (scansAlone_of_steps (fun _ => rfl) (fun _ => rfl)).scans
  | le => exact (scansAlone_of_steps (fun _ => rfl) (fun _ => rfl)).scans
  | ge => exact (scansAlone_of_steps (fun _ => rfl) (fun _ => rfl)).scans
  | lt => exact scans_less
  | gt => exact scans_greater
  | intersection => exact scans_word rfl
  | union => exact scans_word rfl
  | complement => exact scans_word rfl
  | atan2 => exact scans_word rfl

def NumberPhase.read (phase : NumberPhase) : List Char → Option NumberPhase
  | [] => some phase
  | c :: rest =>
    match phase.step c with
    | .extend next => next.read rest
    | _ => none

theorem NumberPhase.read_append (phase : NumberPhase) (a b : List Char) :
    phase.read (a ++ b) = (phase.read a).bind fun next => next.read b := by
  induction a generalizing phase with
  | nil => rfl
  | cons c a ih =>
    rw [List.cons_append, read, read]
    cases phase.step c with
    | extend next => exact ih next
    | _ => rfl

def readNumber : List Char → Option NumberPhase
  | [] => none
  | c :: rest =>
    if c.isDigit then (if c == '0' then NumberPhase.zero else .digits).read rest else none

def endsNumber (c : Char) : Bool :=
  !isAlphanumeric c && c != '.'

theorem endsNumber_of_breaks {c : Char} (h : breaks c = true) : endsNumber c = true := by
  simp only [breaks, Bool.or_eq_true, beq_iff_eq] at h
  rcases h with ((((rfl | rfl) | rfl) | rfl) | rfl) | rfl <;> decide

namespace NumberPhase

def endsDecimal : NumberPhase → Bool
  | zero | digits | fraction => true
  | _ => false

def endsDuration : NumberPhase → Bool
  | unit | unitEnd => true
  | _ => false

theorem not_isAlphanumeric {c : Char} (h : endsNumber c = true) :
    isAlpha c = false ∧ c.isDigit = false ∧ c ≠ '.' := by
  simpa [endsNumber, isAlphanumeric, and_assoc] using h

theorem ne_of_endsNumber {c : Char} (d : Char) (h : endsNumber c = true)
    (hd : endsNumber d = false) : (c == d) = false := by
  rw [beq_eq_false_iff_ne]
  rintro rfl
  rw [h] at hd
  exact absurd hd (by decide)

theorem step_eq_endNumber {phase : NumberPhase} (hp : phase.endsDecimal = true) {c : Char}
    (h : endsNumber c = true) : phase.step c = .endNumber := by
  obtain ⟨halpha, hdigit, hpoint⟩ := not_isAlphanumeric h
  cases phase with
  | zero | digits | fraction =>
    simp [step, afterNumber, halpha, hdigit, hpoint, ne_of_endsNumber 'x' h rfl,
      ne_of_endsNumber 'X' h rfl, ne_of_endsNumber 'e' h rfl, ne_of_endsNumber 'E' h rfl]
  | _ => exact absurd hp (by decide)

theorem step_eq_endDuration {phase : NumberPhase} (hp : phase.endsDuration = true)
    {c : Char} (h : endsNumber c = true) : phase.step c = .endDuration := by
  obtain ⟨halpha, hdigit, hpoint⟩ := not_isAlphanumeric h
  cases phase with
  | unit | unitEnd =>
    simp [step, afterUnit, halpha, hdigit, ne_of_endsNumber 's' h rfl]
  | _ => exact absurd hp (by decide)

end NumberPhase

theorem run_number (depth : Nat) (region : Region) {phase next : NumberPhase}
    (read w rest : List Char) (h : phase.read w = some next) :
    run (inside depth region (.number phase read)) (w ++ rest) =
      run (inside depth region (.number next (w.reverse ++ read))) rest := by
  induction w generalizing phase read with
  | nil =>
    rw [NumberPhase.read, Option.some.injEq] at h
    rw [h]
    rfl
  | cons c w ih =>
    rw [NumberPhase.read] at h
    cases hc : phase.step c with
    | extend middle =>
      rw [hc] at h
      have hstep : (inside depth region (.number phase read)).step c =
          .ok ([], inside depth region (.number middle (c :: read))) := by
        simp [inside, step, inNumber, hc, continueWith]
      rw [List.cons_append, run_cons _ hstep, after_nil, ih (c :: read) h]
      simp
    | _ => simp [hc] at h

theorem startOutside_digit (s : Lexer) {c : Char} (h : c.isDigit = true) :
    s.startOutside c = .ok ([], { s with activity := startNumber c }) := by
  unfold startOutside
  split
  all_goals first
    | (exfalso; revert h; decide)
    | skip
  simp [not_isBlank_of_isAlphanumeric (isAlphanumeric_of_isDigit h), h]

theorem startInBrackets_digit (s : Lexer) (fresh colon : Bool) {c : Char}
    (h : c.isDigit = true) : s.startInBrackets fresh colon c =
      .ok ([], { s with region := .brackets false colon, activity := startNumber c }) := by
  unfold startInBrackets
  split
  all_goals first
    | (exfalso; revert h; decide)
    | skip
  simp [not_isBlank_of_isAlphanumeric (isAlphanumeric_of_isDigit h), h]

theorem scans_of_readNumber {w : List Char} {phase : NumberPhase} {token : Token}
    (hw : readNumber w = some phase)
    (hstep : ∀ depth c, endsNumber c = true →
      (inside depth .outside (.number phase w.reverse)).step c =
        (inside depth .outside (.number phase w.reverse)).emitThen token c)
    (hfinish : ∀ depth,
      (inside depth .outside (.number phase w.reverse)).finishLexeme = .ok [token]) :
    Scans w [token] := by
  cases w with
  | nil => simp [readNumber] at hw
  | cons c w =>
    rw [readNumber] at hw
    split at hw
    next hc =>
      intro depth rest hrest
      have hstart : (between depth .outside).step c =
          .ok ([], inside depth .outside (startNumber c)) := startOutside_digit _ hc
      rw [List.cons_append, run_cons _ hstart, after_nil, startNumber,
        run_number depth .outside [c] w rest hw, ← List.reverse_cons]
      exact run_of_emitThen (fun d hd => hstep depth d (endsNumber_of_breaks hd))
        (hfinish depth) rest hrest
    · simp at hw

theorem scans_number {w : List Char} {phase : NumberPhase} (hw : readNumber w = some phase)
    (hp : phase.endsDecimal = true) : Scans w [.number (String.ofList w)] := by
  refine scans_of_readNumber hw (fun depth c hc => ?_) (fun depth => ?_)
  · simp [inside, step, inNumber, NumberPhase.step_eq_endNumber hp hc, lexeme_reverse]
  · cases phase <;> simp_all [NumberPhase.endsDecimal, inside, finishLexeme, lexeme_reverse]

theorem scans_duration {w : List Char} {phase : NumberPhase}
    (hw : readNumber w = some phase) (hp : phase.endsDuration = true) :
    Scans w [.duration (String.ofList w)] := by
  refine scans_of_readNumber hw (fun depth c hc => ?_) (fun depth => ?_)
  · simp [inside, step, inNumber, NumberPhase.step_eq_endDuration hp hc, lexeme_reverse]
  · cases phase <;> simp_all [NumberPhase.endsDuration, inside, finishLexeme, lexeme_reverse]

/-- A duration inside brackets, in front of a colon or the closing bracket. -/
theorem run_durationInBrackets (depth : Nat) (fresh colon : Bool) {w : List Char}
    {phase : NumberPhase} (hw : readNumber w = some phase)
    (hp : phase.endsDuration = true) {c : Char} (hc : endsNumber c = true)
    (rest : List Char) :
    run (between depth (.brackets fresh colon)) (w ++ c :: rest) =
      after [.duration (String.ofList w)]
        (run (between depth (.brackets false colon)) (c :: rest)) := by
  cases w with
  | nil => simp [readNumber] at hw
  | cons d w =>
    rw [readNumber] at hw
    split at hw
    next hd =>
      have hstart : (between depth (.brackets fresh colon)).step d =
          .ok ([], inside depth (.brackets false colon) (startNumber d)) :=
        startInBrackets_digit _ fresh colon hd
      rw [List.cons_append, run_cons _ hstart, after_nil, startNumber,
        run_number depth _ [d] w _ hw, ← List.reverse_cons]
      refine run_cons_of_emitThen rest ?_
      simp only [inside, step, inNumber, NumberPhase.step_eq_endDuration hp hc]
      rw [lexeme_reverse]
    · simp at hw

theorem closeBracket_step (depth : Nat) (fresh colon : Bool) :
    (between depth (.brackets fresh colon)).step ']' =
      .ok ([.closeBracket], between depth .outside) := rfl

theorem openBracket_step (depth : Nat) :
    (between depth .outside).step '[' =
      .ok ([.openBracket], between depth (.brackets true false)) := rfl

theorem colon_step (depth : Nat) :
    (between depth (.brackets false false)).step ':' =
      .ok ([.colon], between depth (.brackets false true)) := rfl

theorem scansAlone_range {w : List Char} {phase : NumberPhase}
    (hw : readNumber w = some phase) (hp : phase.endsDuration = true) :
    ScansAlone ('[' :: w ++ [']'])
      [.openBracket, .duration (String.ofList w), .closeBracket] := by
  intro depth rest
  have hassoc : '[' :: w ++ [']'] ++ rest = '[' :: (w ++ ']' :: rest) := by simp
  rw [hassoc, run_cons _ (openBracket_step depth),
    run_durationInBrackets depth true false hw hp rfl rest,
    run_cons rest (closeBracket_step depth false false), after_after, after_after]
  rfl

theorem scansAlone_length {w : List Char} {phase : NumberPhase}
    (hw : readNumber w = some phase) (hp : phase.endsDuration = true) :
    ScansAlone ('[' :: w ++ [':', ']'])
      [.openBracket, .duration (String.ofList w), .colon, .closeBracket] := by
  intro depth rest
  have hassoc : '[' :: w ++ [':', ']'] ++ rest = '[' :: (w ++ ':' :: ']' :: rest) := by simp
  rw [hassoc, run_cons _ (openBracket_step depth),
    run_durationInBrackets depth true false hw hp rfl (']' :: rest),
    run_cons _ (colon_step depth), run_cons rest (closeBracket_step depth false true),
    after_after, after_after, after_after]
  rfl

theorem scansAlone_lengthStep {v w : List Char} {first second : NumberPhase}
    (hv : readNumber v = some first) (hfirst : first.endsDuration = true)
    (hw : readNumber w = some second) (hsecond : second.endsDuration = true) :
    ScansAlone ('[' :: v ++ ':' :: w ++ [']'])
      [.openBracket, .duration (String.ofList v), .colon, .duration (String.ofList w),
        .closeBracket] := by
  intro depth rest
  have hassoc : '[' :: v ++ ':' :: w ++ [']'] ++ rest =
      '[' :: (v ++ ':' :: (w ++ ']' :: rest)) := by simp
  rw [hassoc, run_cons _ (openBracket_step depth),
    run_durationInBrackets depth true false hv hfirst rfl (w ++ ']' :: rest),
    run_cons _ (colon_step depth), run_durationInBrackets depth false true hw hsecond rfl rest,
    run_cons rest (closeBracket_step depth false true), after_after, after_after, after_after,
    after_after]
  rfl

def ScansInBraces (text : List Char) (tokens : List Token) : Prop :=
  ∀ (depth : Nat) (rest : List Char),
    run (between depth .braces) (text ++ rest) =
      after tokens (run (between depth .braces) rest)

theorem ScansInBraces.append {a b : List Char} {s t : List Token} (ha : ScansInBraces a s)
    (hb : ScansInBraces b t) : ScansInBraces (a ++ b) (s ++ t) := by
  intro depth rest
  rw [List.append_assoc, ha, hb, after_after]

theorem scansInBraces_nil : ScansInBraces [] [] := by
  intro depth rest
  rw [List.nil_append, after_nil]

def isName : List Char → Bool
  | [] => false
  | c :: rest => isAlpha c && rest.all isAlphanumeric

theorem startInBraces_word (s : Lexer) {c : Char} (h : isAlpha c = true) :
    s.startInBraces c = .ok ([], { s with activity := .word [c] }) := by
  unfold startInBraces
  split
  all_goals first
    | (exfalso; revert h; decide)
    | skip
  simp [not_isBlank_of_isAlphanumeric (isAlphanumeric_of_isAlpha h), h]

theorem run_wordInBraces (depth : Nat) (read w rest : List Char)
    (h : w.all isAlphanumeric = true) :
    run (inside depth .braces (.word read)) (w ++ rest) =
      run (inside depth .braces (.word (w.reverse ++ read))) rest := by
  induction w generalizing read with
  | nil => rfl
  | cons c w ih =>
    rw [List.all_cons, Bool.and_eq_true] at h
    have hstep : (inside depth .braces (.word read)).step c =
        .ok ([], inside depth .braces (.word (c :: read))) := by
      simp [inside, step, inWord, h.1, continueWith]
    rw [List.cons_append, run_cons _ hstep, after_nil, ih (c :: read) h.2]
    simp

theorem run_nameInBraces (depth : Nat) {w : List Char} (hw : isName w = true) {c : Char}
    (hc : c = '=' ∨ c = '!') (rest : List Char) :
    run (between depth .braces) (w ++ c :: rest) =
      after [.identifier (String.ofList w)] (run (between depth .braces) (c :: rest)) := by
  cases w with
  | nil => exact absurd hw (by decide)
  | cons d w =>
    rw [isName, Bool.and_eq_true] at hw
    have hstart : (between depth .braces).step d =
        .ok ([], inside depth .braces (.word [d])) := startInBraces_word _ hw.1
    rw [List.cons_append, run_cons _ hstart, after_nil, run_wordInBraces depth [d] w _ hw.2,
      ← List.reverse_cons, ← lexeme_reverse]
    refine run_cons_of_emitThen rest ?_
    rcases hc with rfl | rfl <;> rfl

theorem scansInBraces_string {w : List Char} (h : w.all isPlain = true) :
    ScansInBraces ('"' :: w ++ ['"']) [.string '"' (String.ofList w)] := by
  intro depth rest
  have hstep : (between depth .braces).step '"' =
      .ok ([], inside depth .braces (.string '"' [])) := by
    simp [between, step, start, startInBraces, inside, isBlank, isAlpha, isQuote]
  have hassoc : '"' :: w ++ ['"'] ++ rest = '"' :: (w ++ '"' :: rest) := by simp
  rw [hassoc, run_cons _ hstep, after_nil, run_string depth .braces [] w rest h]
  rfl

theorem run_symbolInBraces (depth : Nat) (symbol : MatchSymbol) (rest : List Char) :
    run (between depth .braces) (symbol.text.toList ++ '"' :: rest) =
      after [.matching symbol] (run (between depth .braces) ('"' :: rest)) := by
  have hequals : (between depth .braces).step '=' =
      .ok ([], inside depth .braces .equals) := rfl
  have hbang : (between depth .braces).step '!' = .ok ([], inside depth .braces .bang) := rfl
  cases symbol with
  | equal =>
    refine (run_cons _ hequals).trans ?_
    rw [after_nil]
    exact run_cons_of_emitThen rest rfl
  | notEqual =>
    refine (run_cons _ hbang).trans ?_
    rw [after_nil]
    have hend : (inside depth .braces .bang).step '=' =
        .ok ([.matching .notEqual], between depth .braces) := rfl
    exact run_cons _ hend
  | regexMatch =>
    refine (run_cons _ hequals).trans ?_
    rw [after_nil]
    have hend : (inside depth .braces .equals).step '~' =
        .ok ([.matching .regexMatch], between depth .braces) := rfl
    exact run_cons _ hend
  | regexNotMatch =>
    refine (run_cons _ hbang).trans ?_
    rw [after_nil]
    have hend : (inside depth .braces .bang).step '~' =
        .ok ([.matching .regexNotMatch], between depth .braces) := rfl
    exact run_cons _ hend

theorem scansInBraces_comma : ScansInBraces [','] [.comma] := by
  intro depth rest
  have hstep : (between depth .braces).step ',' = .ok ([.comma], between depth .braces) := rfl
  exact run_cons rest hstep

theorem scansInBraces_blank : ScansInBraces [' '] [] := by
  intro depth rest
  have hstep : (between depth .braces).step ' ' = .ok ([], between depth .braces) := rfl
  exact run_cons rest hstep

/-- The word between two alternatives needs the blank behind it. -/
theorem scansInBraces_alternative : ScansInBraces [' ', 'o', 'r', ' '] [.alternative] := by
  intro depth rest
  have hblank : (between depth .braces).step ' ' = .ok ([], between depth .braces) := rfl
  have hfirst : (between depth .braces).step 'o' =
      .ok ([], inside depth .braces (.word ['o'])) := rfl
  have hsecond : (inside depth .braces (.word ['o'])).step 'r' =
      .ok ([], inside depth .braces (.word ['r', 'o'])) := rfl
  have hend : (inside depth .braces (.word ['r', 'o'])).step ' ' =
      .ok ([.alternative], between depth .braces) := rfl
  refine (run_cons _ hblank).trans ?_
  rw [after_nil]
  refine (run_cons _ hfirst).trans ?_
  rw [after_nil]
  refine (run_cons _ hsecond).trans ?_
  rw [after_nil]
  exact run_cons rest hend

theorem scansAlone_braces {text : List Char} {tokens : List Token}
    (h : ScansInBraces text tokens) :
    ScansAlone ('\x7b' :: text ++ ['\x7d']) (.openBrace :: tokens ++ [.closeBrace]) := by
  intro depth rest
  have hopen : (between depth .outside).step '\x7b' =
      .ok ([.openBrace], between depth .braces) := rfl
  have hclose : (between depth .braces).step '\x7d' =
      .ok ([.closeBrace], between depth .outside) := rfl
  have hassoc : '\x7b' :: text ++ ['\x7d'] ++ rest = '\x7b' :: (text ++ '\x7d' :: rest) := by
    simp
  rw [hassoc, run_cons _ hopen, h depth ('\x7d' :: rest), run_cons rest hclose, after_after,
    after_after]
  simp

end MetricScope.PromQL.Lexer
