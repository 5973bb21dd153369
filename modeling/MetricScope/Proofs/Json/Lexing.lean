import MetricScope.Json.Token
import MetricScope.Json.Value

/-!
# The tokens of written JSON

Both forms in which a value is written have the same tokens. A string and a bracket end
where they end; a word or a number ends in front of a blank, a comma or a bracket, and one
of these follows every value that is written.
-/

set_option autoImplicit false

namespace MetricScope.Json

open Activity

section

variable {a next : Activity} {c : Char} {rest : List Char} {token : Token}

theorem run_cons_of_step (h : a.step c = some ([], next)) : a.run (c :: rest) = next.run rest := by
  rw [run, h]
  simp

theorem run_cons_of_token (h : a.step c = some ([token], next)) :
    a.run (c :: rest) = (next.run rest).map (token :: ·) := by
  rw [run, h]
  simp

def endsToken : List Char → Bool
  | [] => true
  | c :: _ => isBlank c || c == ',' || c == ']' || c == '\x7d'

/-- An activity that the next character completes gives its token in front of the rest. -/
theorem run_of_complete (hfinish : a.finish = some [token])
    (hstep : ∀ c rest, endsToken (c :: rest) = true → a.step c = emitThen token c)
    (h : endsToken rest = true) : a.run rest = (idle.run rest).map (token :: ·) := by
  cases rest with
  | nil => rw [run, hfinish, run, finish]; rfl
  | cons c rest =>
    rw [run, run, hstep c rest h, emitThen, step]
    cases start c with
    | none => rfl
    | some result => simp [Function.comp_def]

theorem not_isAlpha_of_endsToken (h : endsToken (c :: rest) = true) : c.isAlpha = false := by
  simp only [endsToken, isBlank, Bool.or_eq_true, beq_iff_eq, or_assoc] at h
  rcases h with rfl | rfl | rfl | rfl | rfl | rfl | rfl <;> rfl

theorem zero_step_of_endsToken (h : endsToken (c :: rest) = true) :
    NumberPhase.zero.step c = none := by
  simp only [endsToken, isBlank, Bool.or_eq_true, beq_iff_eq, or_assoc] at h
  rcases h with rfl | rfl | rfl | rfl | rfl | rfl | rfl <;> rfl

theorem run_word {read : List Char} (hword : wordToken? read = some token)
    (h : endsToken rest = true) :
    (word read).run rest = (idle.run rest).map (token :: ·) := by
  apply run_of_complete _ _ h
  · rw [finish, hword]
    rfl
  · intro c rest hc
    rw [step, not_isAlpha_of_endsToken hc, hword]
    rfl

theorem run_zero (h : endsToken rest = true) :
    (number .zero).run rest = (idle.run rest).map (Token.number :: ·) := by
  apply run_of_complete rfl _ h
  intro c rest hc
  rw [step, zero_step_of_endsToken hc]
  rfl

end

theorem digit?_digitChar {n : Nat} (h : n < 16) :
    Text.digit? 16 (Nat.digitChar n) = some n := by
  have hall : ∀ n < 16, Text.digit? 16 (Nat.digitChar n) = some n := by decide
  exact hall n h

def StringContent.ofRead (read : List Char) : StringContent := ⟨read, none, true⟩

theorem run_simpleEscape {c d : Char} (hu : d ≠ 'u') (h : simpleEscape? d = some c)
    (read rest : List Char) :
    (string (.ofRead read)).run ('\\' :: d :: rest) = (string (.ofRead (c :: read))).run rest := by
  have hstep : (escape (.ofRead read)).step d = some ([], string (.ofRead (c :: read))) := by
    rw [step, if_neg (by simpa using hu), h]
    rfl
  exact (run_cons_of_step rfl).trans (run_cons_of_step hstep)

/-- A control character is written as a unit of four digits, of which two are zero. -/
theorem run_unit {c : Char} (h : c.toNat < 0x20) (read rest : List Char) :
    (string (.ofRead read)).run ('\\' :: 'u' :: '0' :: '0' :: Nat.digitChar (c.toNat / 16) ::
        Nat.digitChar (c.toNat % 16) :: rest) =
      (string (.ofRead (c :: read))).run rest := by
  have hhigh : (unit (.ofRead read) 2 0).step (Nat.digitChar (c.toNat / 16)) =
      some ([], unit (.ofRead read) 1 (c.toNat / 16)) := by
    rw [step, digit?_digitChar (by omega)]
    simp
  have hlow : (unit (.ofRead read) 1 (c.toNat / 16)).step (Nat.digitChar (c.toNat % 16)) =
      some ([], string (.ofRead (c :: read))) := by
    have hvalue : c.toNat / 16 * 16 + c.toNat % 16 = c.toNat := by omega
    have hpush : (StringContent.ofRead read).pushUnit c.toNat = .ofRead (c :: read) := by
      rw [StringContent.pushUnit, if_neg (by simp; omega), if_neg (by simp; omega),
        Char.ofNat_toNat]
      rfl
    rw [step, digit?_digitChar (by omega)]
    simp [hvalue, hpush]
  have hescape : (string (.ofRead read)).step '\\' = some ([], escape (.ofRead read)) := rfl
  have hunit : (escape (.ofRead read)).step 'u' = some ([], unit (.ofRead read) 4 0) := rfl
  have hfirst : (unit (.ofRead read) 4 0).step '0' = some ([], unit (.ofRead read) 3 0) := rfl
  have hsecond : (unit (.ofRead read) 3 0).step '0' = some ([], unit (.ofRead read) 2 0) := rfl
  rw [run_cons_of_step hescape, run_cons_of_step hunit, run_cons_of_step hfirst,
    run_cons_of_step hsecond, run_cons_of_step hhigh, run_cons_of_step hlow]

theorem run_escapeChar (c : Char) (read rest : List Char) :
    (string (.ofRead read)).run (escapeChar c ++ rest) =
      (string (.ofRead (c :: read))).run rest := by
  unfold escapeChar
  split
  all_goals try exact run_simpleEscape (by decide) rfl read rest
  next hquote hslash _ _ _ _ _ =>
    split
    next hcontrol => exact run_unit hcontrol read rest
    next hcontrol =>
      have hstep : (string (.ofRead read)).step c = some ([], string (.ofRead (c :: read))) := by
        rw [step, if_neg (by simpa using hquote), if_neg (by simpa using hslash),
          if_neg hcontrol]
        rfl
      exact run_cons_of_step hstep

theorem run_escaped (text read rest : List Char) :
    (string (.ofRead read)).run (text.flatMap escapeChar ++ '"' :: rest) =
      (idle.run rest).map (Token.string (some (String.ofList (read.reverse ++ text))) :: ·) := by
  induction text generalizing read with
  | nil =>
    rw [List.flatMap_nil, List.nil_append, List.append_nil]
    exact run_cons_of_token rfl
  | cons c text ih =>
    rw [List.flatMap_cons, List.append_assoc, run_escapeChar, ih, List.reverse_cons,
      List.append_assoc, List.singleton_append]

namespace Value

mutual

def tokens : Value → List Token
  | null => [.null]
  | bool b => [.bool b]
  | number => [.number]
  | string text => [.string text]
  | array items => .openBracket :: ([.comma].intercalate (itemTokens items) ++ [.closeBracket])
  | object members =>
      .openBrace :: ([.comma].intercalate (memberTokens members) ++ [.closeBrace])

def itemTokens : List Value → List (List Token)
  | [] => []
  | v :: rest => v.tokens :: itemTokens rest

def memberTokens : List (Option String × Value) → List (List Token)
  | [] => []
  | (name, v) :: rest => (.string name :: .colon :: v.tokens) :: memberTokens rest

end

inductive IsTextual : Value → Prop where
  | null : IsTextual null
  | bool (b : Bool) : IsTextual (bool b)
  | number : IsTextual number
  | string (text : String) : IsTextual (string (some text))
  | array {items : List Value} (h : ∀ v ∈ items, IsTextual v) : IsTextual (array items)
  | object {members : List (Option String × Value)} (hname : ∀ m ∈ members, m.1.isSome)
      (h : ∀ m ∈ members, IsTextual m.2) : IsTextual (object members)

theorem itemTokens_eq_map (items : List Value) : itemTokens items = items.map tokens := by
  induction items with
  | nil => rfl
  | cons v rest ih => rw [itemTokens, ih, List.map_cons]

theorem memberTokens_eq_map (members : List (Option String × Value)) :
    memberTokens members =
      members.map fun m => .string m.1 :: .colon :: m.2.tokens := by
  induction members with
  | nil => rfl
  | cons m rest ih => rw [memberTokens, ih, List.map_cons]

theorem compactItems_eq_map (items : List Value) : compactItems items = items.map compact := by
  induction items with
  | nil => rfl
  | cons v rest ih => rw [compactItems, ih, List.map_cons]

theorem compactMembers_eq_map (members : List (Option String × Value)) :
    compactMembers members = members.map fun m => stringText m.1 ++ ":" ++ m.2.compact := by
  induction members with
  | nil => rfl
  | cons m rest ih => rw [compactMembers, ih, List.map_cons]

theorem prettyItems_eq_map (level : Nat) (items : List Value) :
    prettyItems level items = items.map (prettyAt level) := by
  induction items with
  | nil => rfl
  | cons v rest ih => rw [prettyItems, ih, List.map_cons]

theorem prettyMembers_eq_map (level : Nat) (members : List (Option String × Value)) :
    prettyMembers level members =
      members.map fun m => stringText m.1 ++ ": " ++ m.2.prettyAt level := by
  induction members with
  | nil => rfl
  | cons m rest ih => rw [prettyMembers, ih, List.map_cons]

end Value

/-- The text has the tokens in front of everything that may end a token. -/
def Lexes (text : String) (tokens : List Token) : Prop :=
  ∀ rest, endsToken rest = true →
    idle.run (text.toList ++ rest) = (idle.run rest).map (tokens ++ ·)

def LexesAlone (text : String) (tokens : List Token) : Prop :=
  ∀ rest, idle.run (text.toList ++ rest) = (idle.run rest).map (tokens ++ ·)

section

variable {text other : String} {tokens others : List Token}

theorem LexesAlone.lexes (h : LexesAlone text tokens) : Lexes text tokens :=
  fun rest _ => h rest

theorem LexesAlone.append (h : LexesAlone text tokens) (hother : LexesAlone other others) :
    LexesAlone (text ++ other) (tokens ++ others) := by
  intro rest
  rw [String.toList_append, List.append_assoc, h, hother, Option.map_map]
  simp [Function.comp_def]

theorem LexesAlone.appendLexes (h : LexesAlone text tokens) (hother : Lexes other others) :
    Lexes (text ++ other) (tokens ++ others) := by
  intro rest hrest
  rw [String.toList_append, List.append_assoc, h, hother rest hrest, Option.map_map]
  simp [Function.comp_def]

theorem Lexes.append (h : Lexes text tokens) (hother : LexesAlone other others)
    (hend : ∀ rest, endsToken (other.toList ++ rest) = true) :
    LexesAlone (text ++ other) (tokens ++ others) := by
  intro rest
  rw [String.toList_append, List.append_assoc, h _ (hend rest), hother, Option.map_map]
  simp [Function.comp_def]

theorem lexes_empty : LexesAlone "" [] := by
  intro rest
  simp

end

def IsGap (gap : String) : Prop := ∀ c ∈ gap.toList, isBlank c = true

theorem isGap_empty : IsGap "" := by
  intro c hc
  exact absurd hc (by simp)

theorem isGap_blank : IsGap " " := by
  intro c hc
  obtain rfl := List.mem_singleton.mp hc
  rfl

theorem isGap_indent (level : Nat) : IsGap (indent level) := by
  intro c hc
  simp only [indent, String.toList_append, String.toList_ofList, List.mem_append,
    List.mem_replicate] at hc
  rcases hc with hc | ⟨-, rfl⟩
  · rw [List.mem_singleton.mp hc]
    rfl
  · rfl

theorem IsGap.lexesAlone {gap : String} (h : IsGap gap) : LexesAlone gap [] := by
  intro rest
  rw [IsGap] at h
  generalize gap.toList = blanks at h
  induction blanks with
  | nil => simp
  | cons c blanks ih =>
    have hstep : idle.step c = some ([], idle) := by
      have hc := h c List.mem_cons_self
      simp only [isBlank, Bool.or_eq_true, beq_iff_eq, or_assoc] at hc
      rcases hc with rfl | rfl | rfl | rfl <;> rfl
    rw [List.cons_append, run_cons_of_step hstep, ih fun d hd => h d (List.mem_cons_of_mem c hd)]

theorem IsGap.endsToken_append {gap : String} (h : IsGap gap) {rest : List Char}
    (hrest : endsToken rest = true) : endsToken (gap.toList ++ rest) = true := by
  rw [IsGap] at h
  cases hgap : gap.toList with
  | nil => exact hrest
  | cons c blanks =>
    rw [List.cons_append, endsToken, h c (by simp [hgap])]
    rfl

theorem lexesAlone_of_step {text : String} {c : Char} {token : Token}
    (htext : text.toList = [c]) (hstep : idle.step c = some ([token], idle)) :
    LexesAlone text [token] := by
  intro rest
  rw [htext]
  exact run_cons_of_token hstep

theorem lexesAlone_quote (text : String) : LexesAlone (quote text) [.string (some text)] := by
  intro rest
  have hstart : idle.step '"' = some ([], string (.ofRead [])) := rfl
  have hescaped := run_escaped text.toList [] rest
  rw [List.reverse_nil, List.nil_append, String.ofList_toList] at hescaped
  rw [quote, String.toList_ofList, List.cons_append, run_cons_of_step hstart, List.append_assoc]
  exact hescaped

theorem lexes_join {α : Type} {text : α → String} {tokens : α → List Token} {gap : String}
    (hgap : IsGap gap) {items : List α} (h : ∀ a ∈ items, Lexes (text a) (tokens a)) :
    Lexes (Text.join ("," ++ gap) (items.map text))
      ([Token.comma].intercalate (items.map tokens)) := by
  have hcomma : LexesAlone ("," ++ gap) [.comma] :=
    (lexesAlone_of_step rfl rfl).append hgap.lexesAlone
  induction items with
  | nil => exact lexes_empty.lexes
  | cons a rest ih =>
    have ha := h a List.mem_cons_self
    have hrest := ih fun b hb => h b (List.mem_cons_of_mem a hb)
    cases rest with
    | nil => simpa using ha
    | cons b rest =>
      have hfirst := ha.append hcomma fun rest => by simp [endsToken]
      simpa [Text.join] using hfirst.appendLexes hrest

structure IsPair (opening closing : String) (first last : Token) : Prop where
  opens : LexesAlone opening [first]
  closes : LexesAlone closing [last]
  ends (rest : List Char) : endsToken (closing.toList ++ rest) = true

theorem isPair_brackets : IsPair "[" "]" .openBracket .closeBracket where
  opens := lexesAlone_of_step rfl rfl
  closes := lexesAlone_of_step rfl rfl
  ends _ := rfl

theorem isPair_braces : IsPair "\x7b" "\x7d" .openBrace .closeBrace where
  opens := lexesAlone_of_step rfl rfl
  closes := lexesAlone_of_step rfl rfl
  ends _ := rfl

section

variable {opening closing : String} {first last : Token}

theorem IsPair.lexesAlone (hpair : IsPair opening closing first last) {before after inner : String}
    {tokens : List Token} (hbefore : IsGap before) (hafter : IsGap after)
    (h : Lexes inner tokens) :
    LexesAlone (opening ++ before ++ inner ++ after ++ closing)
      (first :: (tokens ++ [last])) := by
  have hopening := hpair.opens.append hbefore.lexesAlone
  have hclosing := hafter.lexesAlone.append hpair.closes
  have hend : ∀ rest, endsToken ((after ++ closing).toList ++ rest) = true := by
    intro rest
    rw [String.toList_append, List.append_assoc]
    exact hafter.endsToken_append (hpair.ends rest)
  have hall := (hopening.appendLexes h).append hclosing hend
  simpa [String.append_assoc] using hall

theorem IsPair.lexesAlone_block (hpair : IsPair opening closing first last) {α : Type}
    {text : α → String} {tokens : α → List Token} (level : Nat) {items : List α}
    (h : ∀ a ∈ items, Lexes (text a) (tokens a)) :
    LexesAlone (block level opening closing (items.map text))
      (first :: ([Token.comma].intercalate (items.map tokens) ++ [last])) := by
  cases items with
  | nil => exact hpair.opens.append hpair.closes
  | cons a rest =>
    exact hpair.lexesAlone (isGap_indent (level + 1)) (isGap_indent level)
      (lexes_join (isGap_indent (level + 1)) h)

end

theorem run_letters {letters : List Char} (h : ∀ c ∈ letters, c.isAlpha = true)
    (read rest : List Char) :
    (word read).run (letters ++ rest) = (word (letters.reverse ++ read)).run rest := by
  induction letters generalizing read with
  | nil => rfl
  | cons c letters ih =>
    have hstep : (word read).step c = some ([], word (c :: read)) := by
      rw [step, if_pos (h c List.mem_cons_self)]
    rw [List.cons_append, run_cons_of_step hstep, ih fun d hd => h d (List.mem_cons_of_mem c hd),
      List.reverse_cons, List.append_assoc, List.singleton_append]

theorem lexes_word {text : String} {c : Char} {letters : List Char} {token : Token}
    (htext : text.toList = c :: letters) (hstart : start c = some ([], word [c]))
    (hletters : letters.all Char.isAlpha = true)
    (hword : wordToken? (letters.reverse ++ [c]) = some token) : Lexes text [token] := by
  intro rest hrest
  have hstep : idle.step c = some ([], word [c]) := hstart
  rw [htext, List.cons_append, run_cons_of_step hstep,
    run_letters (List.all_eq_true.mp hletters), run_word hword hrest]
  rfl

theorem lexes_null : Lexes "null" [.null] :=
  lexes_word rfl rfl rfl rfl

theorem lexes_bool (b : Bool) : Lexes (if b then "true" else "false") [.bool b] := by
  cases b with
  | true => exact lexes_word rfl rfl rfl rfl
  | false => exact lexes_word rfl rfl rfl rfl

theorem lexes_zero : Lexes "0" [.number] := by
  intro rest hrest
  have hstep : idle.step '0' = some ([], number .zero) := rfl
  exact (run_cons_of_step hstep).trans (run_zero hrest)

/-- A name, a colon and a gap in front of a value. -/
theorem lexes_member {name : Option String} (hname : name.isSome) {gap text : String}
    (hgap : IsGap gap) {tokens : List Token} (h : Lexes text tokens) :
    Lexes (stringText name ++ (":" ++ gap) ++ text) (.string name :: .colon :: tokens) := by
  obtain ⟨name, rfl⟩ := Option.isSome_iff_exists.mp hname
  have hcolon : LexesAlone (":" ++ gap) [.colon] :=
    (lexesAlone_of_step rfl rfl).append hgap.lexesAlone
  exact ((lexesAlone_quote name).append hcolon).appendLexes h

namespace Value

theorem IsTextual.lexes_compact {v : Value} (h : v.IsTextual) : Lexes v.compact v.tokens := by
  induction h with
  | null => exact lexes_null
  | bool b => exact lexes_bool b
  | number => exact lexes_zero
  | string text => exact (lexesAlone_quote text).lexes
  | array h ih =>
    rw [compact, compactItems_eq_map, tokens, itemTokens_eq_map]
    have hitems := lexes_join isGap_empty ih
    simpa using (isPair_brackets.lexesAlone isGap_empty isGap_empty hitems).lexes
  | object hname h ih =>
    rw [compact, compactMembers_eq_map, tokens, memberTokens_eq_map]
    have hmembers := lexes_join isGap_empty fun m hm =>
      lexes_member (hname m hm) isGap_empty (ih m hm)
    simpa using (isPair_braces.lexesAlone isGap_empty isGap_empty hmembers).lexes

theorem IsTextual.lexes_prettyAt {v : Value} (h : v.IsTextual) (level : Nat) :
    Lexes (v.prettyAt level) v.tokens := by
  induction h generalizing level with
  | null => exact lexes_null
  | bool b => exact lexes_bool b
  | number => exact lexes_zero
  | string text => exact (lexesAlone_quote text).lexes
  | array h ih =>
    rw [prettyAt, prettyItems_eq_map, tokens, itemTokens_eq_map]
    exact (isPair_brackets.lexesAlone_block level fun v hv => ih v hv (level + 1)).lexes
  | object hname h ih =>
    rw [prettyAt, prettyMembers_eq_map, tokens, memberTokens_eq_map]
    exact (isPair_braces.lexesAlone_block level fun m hm =>
      lexes_member (hname m hm) isGap_blank (ih m hm (level + 1))).lexes

end Value

theorem Lexes.tokenize_eq {text : String} {tokens : List Token} (h : Lexes text tokens) :
    tokenize text = some tokens := by
  have hall := h [] rfl
  rw [List.append_nil] at hall
  rw [tokenize, hall, run, finish]
  simp

end MetricScope.Json
