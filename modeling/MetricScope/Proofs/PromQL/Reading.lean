import MetricScope.Proofs.PromQL.ListReading

/-!
# The tokens of a tree are read as the tree

While a tree is read the frames that wait around it do not change. What is on top of
them in the end is the part of the tree along its right edge, and everything there is
closed before the next token that does not bind more tightly.
-/

set_option autoImplicit false

namespace MetricScope.PromQL

def Selector.series (s : Selector) : Selector :=
  ⟨s.metric, s.groups, none, none⟩

namespace Parser

/-- The focus behaves as the complete operand `e` when a token follows that can follow an
operand, and at the end of the text. -/
structure Settles (focus : Focus) (e : Expr) : Prop where
  step : ∀ frames t, canFollow t = true →
    step ⟨frames, focus⟩ t = Parser.step ⟨frames, .complete (.ok e)⟩ t
  finish : ∀ frames, endOperand ⟨frames, focus⟩ = .ok (.ok e)

theorem settles_complete (e : Expr) : Settles (.complete (.ok e)) e where
  step _ _ _ := rfl
  finish _ := rfl

theorem settle_eq (focus : Focus) {e : Checked Expr} (h : operand? focus = some e)
    (frames : List Frame) (t : Token) :
    settle ⟨frames, focus⟩ t = Parser.step ⟨frames, .complete e⟩ t := by
  have hframes : afterOperand ⟨frames, focus⟩ e t = afterOperand ⟨frames, .complete e⟩ e t := by
    cases t <;> rfl
  rw [settle, h]
  exact hframes

theorem settles_name {focus : Focus} {name : String} {e : Expr}
    (hfocus : focus = .identifier name ∨ focus = .metric name ∨
      ∃ op, focus = .aggregator op name)
    (h : Expr.metric name = .ok e) : Settles focus e where
  step frames t ht := by
    rcases hfocus with rfl | rfl | ⟨op, rfl⟩
    · rw [← h, ← settle_eq (.identifier name) rfl]
      cases t <;> first | rfl | simp [canFollow, binaryOperator?] at ht
    · rw [← h, ← settle_eq (.metric name) rfl]
      cases t <;> first | rfl | simp [canFollow, binaryOperator?] at ht
    · rw [← h, ← settle_eq (.aggregator op name) rfl]
      cases t with
      | keyword word text =>
        cases word <;> first | rfl | simp [canFollow, binaryOperator?] at ht
      | _ => first | rfl | simp [canFollow, binaryOperator?] at ht
  finish frames := by
    rcases hfocus with rfl | rfl | ⟨op, rfl⟩ <;> simp [endOperand, operand?, h]

theorem settles_aggregated {op : Aggregator} {arguments : List Expr} {e : Expr}
    (h : Expr.aggregate? op (.ok none) (.ok arguments) = .ok e) :
    Settles (.aggregated op (.ok arguments)) e where
  step frames t ht := by
    rw [← h, ← settle_eq (.aggregated op (.ok arguments)) rfl]
    cases t with
    | keyword word text =>
      cases word <;> first | rfl | simp [canFollow, binaryOperator?] at ht
    | _ => rfl
  finish frames := by simp [endOperand, operand?, h]

theorem settles_offset {e e' : Expr} {negative : Bool} {d : Duration}
    (h : Expr.offset? (.ok e) negative (.ok d) = .ok e') :
    Settles (.offset (.ok e) (.complete negative (.ok d))) e' where
  step frames t ht := by
    rw [← h, ← settle_eq (.offset (.ok e) (.complete negative (.ok d))) rfl]
    rfl
  finish frames := by simp [endOperand, overflows, h]

def ReadsOperand (tokens : List Token) (e : Expr) : Prop :=
  ∀ frames, ∃ focus, run ⟨frames, .operand⟩ tokens = .ok ⟨frames, focus⟩ ∧ Settles focus e

theorem ReadsOperand.append {a b : List Token} {e e' : Expr} (ha : ReadsOperand a e)
    (hb : ∀ frames focus, Settles focus e → ∃ next,
      run ⟨frames, focus⟩ b = .ok ⟨frames, next⟩ ∧ Settles next e') :
    ReadsOperand (a ++ b) e' := by
  intro frames
  obtain ⟨focus, hrun, hfocus⟩ := ha frames
  obtain ⟨next, hnext, hsettles⟩ := hb frames focus hfocus
  exact ⟨next, run_append_run hrun hnext, hsettles⟩

variable {epochs : Bool → Nat → List Char}

theorem step_settled {focus : Focus} {e : Expr} (h : Settles focus e) {t : Token}
    (ht : canFollow t = true) (frames : List Frame) (rest : List Token) :
    run ⟨frames, focus⟩ (t :: rest) = run ⟨frames, .complete (.ok e)⟩ (t :: rest) := by
  rw [run, run, List.foldlM_cons, List.foldlM_cons, h.step frames t ht]

theorem run_instant (timed : Option Instant → Expr)
    (htimed : ∀ i, Expr.at? (.ok (timed none)) (.ok i) = .ok (timed (some i)))
    {at? : Option Instant} (h : ∀ l ∈ instantLeaves at?, l.IsWritten epochs)
    (frames : List Frame) (focus : Focus) (hfocus : Settles focus (timed none)) :
    ∃ next, run ⟨frames, focus⟩ (instantTokens epochs at?) = .ok ⟨frames, next⟩ ∧
      Settles next (timed at?) := by
  cases at? with
  | none => exact ⟨focus, rfl, hfocus⟩
  | some i =>
    refine ⟨.complete (.ok (timed (some i))), ?_, settles_complete _⟩
    rw [instantTokens, step_settled hfocus rfl, ← htimed i]
    cases i with
    | start => rfl
    | finish => rfl
    | epoch before milliseconds =>
      have hi := h (.instant (.epoch before milliseconds)) (by simp [instantLeaves])
      obtain ⟨x, hnumber, hx⟩ := hi.literal
      have hat : step ⟨frames, .complete (.ok (timed none))⟩ .at =
          .ok ⟨frames, .at (.ok (timed none)) .start⟩ := rfl
      have htime : step ⟨frames, .at (.ok (timed none)) .start⟩
          (.number (String.ofList (epochs before milliseconds))) =
            .ok ⟨frames, .complete
              (Expr.at? (.ok (timed none)) (.ok (.epoch before milliseconds)))⟩ := by
        rw [← hx]
        simp only [step, inAt, number?, hnumber, completed, withFocus]
        rfl
      exact (run_cons hat _).trans (run_singleton htime)

theorem run_offset (timed : Option Offset → Expr)
    (htimed : ∀ o, Expr.offset? (.ok (timed none)) o.negative (.ok o.duration) =
      .ok (timed (some o)))
    {offset : Option Offset} (h : ∀ l ∈ offsetLeaves offset, l.IsWritten epochs)
    (frames : List Frame) (focus : Focus) (hfocus : Settles focus (timed none)) :
    ∃ next, run ⟨frames, focus⟩ (offsetTokens offset) = .ok ⟨frames, next⟩ ∧
      Settles next (timed offset) := by
  cases offset with
  | none => exact ⟨focus, rfl, hfocus⟩
  | some o =>
    have ho : o.duration.IsWritten := h (.duration o.duration) (by simp [offsetLeaves])
    refine ⟨.offset (.ok (timed none)) (.complete o.negative (.ok o.duration)), ?_,
      settles_offset (htimed o)⟩
    have hword : step ⟨frames, .complete (.ok (timed none))⟩ (.keyword .offset "offset") =
        .ok ⟨frames, .offset (.ok (timed none)) .start⟩ := rfl
    rw [offsetTokens, List.cons_append, step_settled hfocus rfl, run_cons hword]
    cases hneg : o.negative with
    | true =>
      have hsign : step ⟨frames, .offset (.ok (timed none)) .start⟩ (.operator .sub) =
          .ok ⟨frames, .offset (.ok (timed none)) (.signed true)⟩ := rfl
      have hduration : step ⟨frames, .offset (.ok (timed none)) (.signed true)⟩
          (.duration o.duration.text) =
            .ok ⟨frames, .offset (.ok (timed none)) (.complete true (.ok o.duration))⟩ := by
        rw [← ho.literal]
        rfl
      exact (run_cons hsign _).trans (run_singleton hduration)
    | false =>
      have hduration : step ⟨frames, .offset (.ok (timed none)) .start⟩
          (.duration o.duration.text) =
          .ok ⟨frames, .offset (.ok (timed none)) (.complete false (.ok o.duration))⟩ := by
        rw [← ho.literal]
        rfl
      exact run_singleton hduration

/-- An operand keeps its time and its offset apart, so each is read behind it. -/
theorem ReadsOperand.timed {tokens : List Token} (timed : Option Instant → Option Offset → Expr)
    (hread : ReadsOperand tokens (timed none none))
    (hat : ∀ i, Expr.at? (.ok (timed none none)) (.ok i) = .ok (timed (some i) none))
    (hset : ∀ at? o, Expr.offset? (.ok (timed at? none)) o.negative (.ok o.duration) =
      .ok (timed at? (some o)))
    {at? : Option Instant} (hinstant : ∀ l ∈ instantLeaves at?, l.IsWritten epochs)
    {offset : Option Offset} (hoffset : ∀ l ∈ offsetLeaves offset, l.IsWritten epochs) :
    ReadsOperand (tokens ++ instantTokens epochs at? ++ offsetTokens offset)
      (timed at? offset) :=
  (hread.append (run_instant (fun at? => timed at? none) hat hinstant)).append
    (run_offset (timed at?) (hset at?) hoffset)

/-- A metric name may turn out to be the name of a function or an aggregator. -/
theorem exists_focus_of_isMetricName {name : String} (h : IsMetricName name) :
    ∃ focus, (focus = .identifier name ∨ focus = .metric name ∨
        ∃ op, focus = .aggregator op name) ∧
      ∀ frames, step ⟨frames, .operand⟩ (Lexer.wordToken name) = .ok ⟨frames, focus⟩ := by
  have hname := h.2
  revert hname
  rw [Lexer.wordToken]
  split
  · intro hname
    exact absurd hname (by simp [Token.namesMetric])
  · split
    next word _ =>
      intro hname
      cases word with
      | aggregator op => exact ⟨_, .inr (.inr ⟨op, rfl⟩), fun _ => rfl⟩
      | _ =>
        refine ⟨_, .inr (.inl rfl), fun frames => ?_⟩
        simp only [Token.namesMetric] at hname
        simp [step, startOperand, hname, withFocus]
    · split
      · intro _
        exact ⟨_, .inr (.inl rfl), fun _ => rfl⟩
      · intro _
        exact ⟨_, .inl rfl, fun _ => rfl⟩

theorem step_openBrace {focus : Focus} {name : String}
    (hfocus : focus = .identifier name ∨ focus = .metric name ∨
      ∃ op, focus = .aggregator op name) (frames : List Frame) :
    step ⟨frames, focus⟩ .openBrace = .ok (inMatchers frames (some name) .opened) := by
  rcases hfocus with rfl | rfl | ⟨op, rfl⟩ <;> rfl

theorem selector?_eq {s : Selector} (hs : s.IsRead) :
    Expr.selector? s.metric (.ok s.groups) = .ok (.selector s.series) := by
  have hcheck : (Expr.selector s.series).checked = .ok (.selector s.series) :=
    Expr.checked_eq_ok_iff.mpr ⟨hs.check, rfl⟩
  exact hcheck

theorem first_ne_nil_of_isRead {s : Selector} (hs : s.IsRead)
    (h : s.groups ≠ .empty) : s.groups.first ≠ [] := by
  intro hfirst
  have hothers : s.groups.others ≠ [] := by
    intro hothers
    obtain ⟨metric, ⟨first, others⟩, offset, at?⟩ := s
    simp only at hfirst hothers
    subst hfirst hothers
    exact h rfl
  exact hs.alternatives hothers s.groups.first List.mem_cons_self hfirst

theorem exists_metric_of_isRead {s : Selector} (hs : s.IsRead)
    (h : s.groups = .empty) : ∃ name, s.metric = some name := by
  cases hm : s.metric with
  | some name => exact ⟨name, rfl⟩
  | none =>
    have hcheck := hs.check
    rw [Selector.check, hm, h] at hcheck
    simp [MatcherGroups.empty, MatcherGroups.matchers, MatcherGroups.toList] at hcheck

theorem readsOperand_series {s : Selector} (hs : s.IsRead)
    (h : ∀ m ∈ s.groups.matchers, m.IsWritten) :
    ReadsOperand s.seriesTokens (.selector s.series) := by
  intro frames
  have hselector := selector?_eq hs
  by_cases hempty : s.groups = .empty
  · obtain ⟨name, hname⟩ := exists_metric_of_isRead hs hempty
    obtain ⟨focus, hfocus, hstep⟩ := exists_focus_of_isMetricName (hs.metric name hname)
    rw [hname, hempty] at hselector
    refine ⟨focus, ?_, settles_name hfocus hselector⟩
    rw [Selector.seriesTokens, hname, hempty]
    exact run_singleton (hstep frames)
  · have hfirst := first_ne_nil_of_isRead hs hempty
    have htokens : s.groups.tokens = .openBrace :: (s.groups.innerTokens ++ [.closeBrace]) := by
      rw [MatcherGroups.tokens, if_neg (by simp [hfirst])]
      rfl
    have hgroups := run_groups frames s.metric hfirst hs.alternatives hs.matchers h
    rw [hselector] at hgroups
    refine ⟨.complete (.ok (.selector s.series)), ?_, settles_complete _⟩
    rw [Selector.seriesTokens, htokens]
    cases hm : s.metric with
    | none =>
      have hopen : step ⟨frames, .operand⟩ .openBrace =
          .ok (inMatchers frames none .opened) := rfl
      rw [hm] at hgroups
      exact (run_cons hopen _).trans hgroups
    | some name =>
      obtain ⟨focus, hfocus, hstep⟩ := exists_focus_of_isMetricName (hs.metric name hm)
      rw [hm] at hgroups
      exact (run_cons (hstep frames) _).trans
        ((run_cons (step_openBrace hfocus frames) _).trans hgroups)

theorem readsOperand_selector {s : Selector} (hs : s.IsRead)
    (h : ∀ l ∈ s.leaves, l.IsWritten epochs) :
    ReadsOperand (s.seriesTokens ++ s.timeTokens epochs) (.selector s) := by
  have hseries := readsOperand_series hs (h (.groups s.groups) List.mem_cons_self)
  have hinstant : ∀ l ∈ instantLeaves s.at?, l.IsWritten epochs :=
    fun l hl => h l (by simp [Selector.leaves, hl])
  have hoffset : ∀ l ∈ offsetLeaves s.offset, l.IsWritten epochs :=
    fun l hl => h l (by simp [Selector.leaves, hl])
  rw [Selector.timeTokens, ← List.append_assoc]
  exact hseries.timed (fun at? offset => .selector ⟨s.metric, s.groups, offset, at?⟩)
    (fun _ => rfl) (fun _ _ => rfl) hinstant hoffset

theorem readsOperand_range {s : Selector} {length : Duration} (hs : s.IsRead)
    (hl : length.IsWritten) (h : ∀ l ∈ s.leaves, l.IsWritten epochs) :
    ReadsOperand (s.seriesTokens ++ [.openBracket, .duration length.text, .closeBracket] ++
      s.timeTokens epochs) (.range s length) := by
  have hseries := readsOperand_series hs (h (.groups s.groups) List.mem_cons_self)
  have hinstant : ∀ l ∈ instantLeaves s.at?, l.IsWritten epochs :=
    fun l hl => h l (by simp [Selector.leaves, hl])
  have hoffset : ∀ l ∈ offsetLeaves s.offset, l.IsWritten epochs :=
    fun l hl => h l (by simp [Selector.leaves, hl])
  have hbrackets : ReadsOperand
      (s.seriesTokens ++ [.openBracket, .duration length.text, .closeBracket])
      (.range s.series length) := by
    refine hseries.append fun frames focus hfocus => ⟨_, ?_, settles_complete _⟩
    have hopen : step ⟨frames, .complete (.ok (.selector s.series))⟩ .openBracket =
        .ok ⟨frames, .brackets (.ok (.selector s.series)) .start⟩ := rfl
    have hlength : step ⟨frames, .brackets (.ok (.selector s.series)) .start⟩
        (.duration length.text) =
          .ok ⟨frames, .brackets (.ok (.selector s.series)) (.length (.ok length))⟩ := by
      rw [← hl.literal]
      rfl
    rw [step_settled hfocus rfl, run_cons hopen, run_cons hlength]
    rfl
  rw [Selector.timeTokens, ← List.append_assoc]
  exact hbrackets.timed (fun at? offset => .range ⟨s.metric, s.groups, offset, at?⟩ length)
    (fun _ => rfl) (fun _ _ => rfl) hinstant hoffset

theorem readsOperand_subquery {e : Expr} {tokens : List Token}
    {length : Duration} {step? : Option Duration} {offset : Option Offset}
    {at? : Option Instant} (he : ReadsOperand tokens e) (ht : e.type = .vector)
    (hl : length.IsWritten) (hstep : ∀ d ∈ step?, d.IsWritten)
    (hinstant : ∀ l ∈ instantLeaves at?, l.IsWritten epochs)
    (hoffset : ∀ l ∈ offsetLeaves offset, l.IsWritten epochs) :
    ReadsOperand (tokens ++ lengthTokens length step? ++ instantTokens epochs at? ++
      offsetTokens offset) (.subquery e length step? offset at?) := by
  have hchecked : (Expr.subquery e length step? none none).checked =
      .ok (.subquery e length step? none none) :=
    Expr.checked_eq_ok_iff.mpr ⟨by simp [Expr.checkRoot, ht], rfl⟩
  have hsubquery : Expr.subquery? (.ok e) (.ok length) (.ok step?) =
      .ok (.subquery e length step? none none) := hchecked
  have hbrackets : ReadsOperand (tokens ++ lengthTokens length step?)
      (.subquery e length step? none none) := by
    refine he.append fun frames focus hfocus => ⟨_, ?_, settles_complete _⟩
    have hopen : step ⟨frames, .complete (.ok e)⟩ .openBracket =
        .ok ⟨frames, .brackets (.ok e) .start⟩ := rfl
    have hlength : step ⟨frames, .brackets (.ok e) .start⟩ (.duration length.text) =
        .ok ⟨frames, .brackets (.ok e) (.length (.ok length))⟩ := by
      rw [← hl.literal]
      rfl
    have hcolon : step ⟨frames, .brackets (.ok e) (.length (.ok length))⟩ .colon =
        .ok ⟨frames, .brackets (.ok e) (.stepStart (.ok length))⟩ := rfl
    rw [lengthTokens, List.append_assoc, List.cons_append, step_settled hfocus rfl,
      run_cons hopen, List.cons_append, run_cons hlength, List.cons_append, run_cons hcolon,
      ← hsubquery]
    cases step? with
    | none => rfl
    | some d =>
      have hd : step ⟨frames, .brackets (.ok e) (.stepStart (.ok length))⟩ (.duration d.text) =
          .ok ⟨frames, .brackets (.ok e) (.step (.ok length) (.ok d))⟩ := by
        rw [← (hstep d rfl).literal]
        rfl
      exact run_cons hd _
  exact hbrackets.timed (fun at? offset => .subquery e length step? offset at?)
    (fun _ => rfl) (fun _ _ => rfl) hinstant hoffset

/-- The tokens are read as the tree when the innermost frame leaves it to itself. The
frames on top of it in the end are closed when the tree is. -/
def Reads (tokens : List Token) (e : Expr) : Prop :=
  ∀ frames, Admits frames e.leftOperators → ∃ opened focus x,
    run ⟨frames, .operand⟩ tokens = .ok ⟨opened ++ frames, focus⟩ ∧ Settles focus x ∧
      ∀ next outer, e.ClosesBefore next →
        unwind next (opened ++ outer) (.ok x) = unwind next outer (.ok e)

theorem ReadsOperand.reads {tokens : List Token} {e : Expr} (h : ReadsOperand tokens e) :
    Reads tokens e := by
  intro frames _
  obtain ⟨focus, hrun, hfocus⟩ := h frames
  exact ⟨[], focus, e, hrun, hfocus, fun _ _ _ => rfl⟩

def startsOperand : Token → Bool
  | .closeParen | .comma | .keyword .bool _ | .keyword .onLabels _
  | .keyword .ignoringLabels _ | .keyword .groupLeft _ | .keyword .groupRight _ => false
  | _ => true

def Starts (tokens : List Token) : Prop :=
  ∃ t rest, tokens = t :: rest ∧ startsOperand t = true

theorem Starts.append {a : List Token} (h : Starts a) (b : List Token) :
    Starts (a ++ b) := by
  obtain ⟨t, rest, rfl, ht⟩ := h
  exact ⟨t, rest ++ b, rfl, ht⟩

theorem run_of_starts {tokens : List Token} (hs : Starts tokens) {p q : Parser}
    (h : ∀ t, startsOperand t = true → p.step t = q.step t) : p.run tokens = q.run tokens := by
  obtain ⟨t, rest, rfl, ht⟩ := hs
  rw [run, run, List.foldlM_cons, List.foldlM_cons, h t ht]

/-- What an operand amounts to in front of a token that ends it. -/
theorem run_operand {tokens : List Token} {e : Expr} (h : Reads tokens e) {f : Frame}
    (hf : f.binder? = none) {t : Token} (ht : t = .closeParen ∨ t = .comma)
    (frames : List Frame) (rest : List Token) :
    run ⟨f :: frames, .operand⟩ (tokens ++ t :: rest) =
      run ⟨f :: frames, .complete (.ok e)⟩ (t :: rest) := by
  have hadmits : Admits (f :: frames) e.leftOperators := by
    intro b hb
    rw [hf] at hb
    exact absurd hb (by simp)
  obtain ⟨opened, focus, x, hrun, hfocus, hunwind⟩ := h _ hadmits
  have hsame : unwind none (opened ++ f :: frames) (.ok x) =
      unwind none (f :: frames) (.ok e) := hunwind none _ e.closesBefore_none
  have hfollow : canFollow t = true := by rcases ht with rfl | rfl <;> rfl
  rw [run_append hrun, step_settled hfocus hfollow, run, run, List.foldlM_cons,
    List.foldlM_cons]
  congr 1
  rcases ht with rfl | rfl <;> simp only [step, afterOperand, hsame]

theorem reads_paren {tokens : List Token} {e : Expr} (h : Reads tokens e) :
    ReadsOperand (.openParen :: tokens ++ [.closeParen]) (.paren e) := by
  intro frames
  refine ⟨.complete (.ok (.paren e)), ?_, settles_complete _⟩
  have hopen : step ⟨frames, .operand⟩ .openParen = .ok ⟨.paren :: frames, .operand⟩ := rfl
  rw [List.cons_append, run_cons hopen, run_operand h rfl (.inl rfl)]
  rfl

theorem endArguments_frames (frames : List Frame) (focus : Focus) (callee : Callee)
    (arguments : Checked (List Expr)) :
    endArguments ⟨frames, focus⟩ callee arguments =
      endArguments ⟨frames, .operand⟩ callee arguments := by
  cases callee with
  | function name => rfl
  | aggregator op grouping => cases grouping <;> rfl

theorem run_moreArguments {tokens : Expr → List Token} (callee : Callee)
    {arguments : List Expr}
    (h : ∀ e ∈ arguments, Reads (tokens e) e ∧ Starts (tokens e)) (first : Expr)
    (hfirst : Reads (tokens first) first) (read : List Expr) (frames : List Frame) :
    run ⟨.arguments callee (.ok read) :: frames, .operand⟩
        ([Token.comma].intercalate (tokens first :: arguments.map tokens) ++ [.closeParen]) =
      endArguments ⟨frames, .operand⟩ callee (.ok (read ++ first :: arguments)) := by
  induction arguments generalizing first read with
  | nil =>
    rw [List.map_nil, List.intercalate_singleton, run_operand hfirst rfl (.inl rfl), run,
      List.foldlM_cons]
    have hend : step ⟨.arguments callee (.ok read) :: frames, .complete (.ok first)⟩
        .closeParen = endArguments ⟨frames, .operand⟩ callee (.ok (read ++ [first])) := rfl
    rw [hend]
    cases endArguments ⟨frames, .operand⟩ callee (.ok (read ++ [first])) <;> rfl
  | cons second rest ih =>
    obtain ⟨hreads, hstarts⟩ := h second List.mem_cons_self
    rw [List.map_cons, List.intercalate_cons_cons, List.append_assoc, List.append_assoc,
      List.singleton_append, run_operand hfirst rfl (.inr rfl)]
    have hcomma : step ⟨.arguments callee (.ok read) :: frames, .complete (.ok first)⟩ .comma =
        .ok ⟨frames, .nextArgument callee (.ok (read ++ [first]))⟩ := rfl
    have hnext : ∀ t, startsOperand t = true →
        step ⟨frames, .nextArgument callee (.ok (read ++ [first]))⟩ t =
          step ⟨.arguments callee (.ok (read ++ [first])) :: frames, .operand⟩ t := by
      intro t ht
      cases t <;> first | rfl | simp [startsOperand] at ht
    have hall := ih (fun e he => h e (List.mem_cons_of_mem second he)) second hreads
      (read ++ [first])
    rw [intercalate_cons] at hall ⊢
    rw [run_cons hcomma, run_of_starts ((hstarts.append _).append _) hnext, hall]
    simp

theorem run_arguments {tokens : Expr → List Token} {callee : Callee} {arguments : List Expr}
    (h : ∀ e ∈ arguments, Reads (tokens e) e ∧ Starts (tokens e)) (frames : List Frame) :
    run ⟨frames, .firstArgument callee⟩
        ([Token.comma].intercalate (arguments.map tokens) ++ [.closeParen]) =
      endArguments ⟨frames, .operand⟩ callee (.ok arguments) := by
  cases arguments with
  | nil =>
    have hend : step ⟨frames, .firstArgument callee⟩ .closeParen =
        endArguments ⟨frames, .operand⟩ callee (.ok []) := by
      rw [← endArguments_frames frames (.firstArgument callee)]
      rfl
    rw [List.map_nil, List.intercalate_nil, List.nil_append, run, List.foldlM_cons, hend]
    cases endArguments ⟨frames, .operand⟩ callee (.ok []) <;> rfl
  | cons first rest =>
    obtain ⟨hreads, hstarts⟩ := h first List.mem_cons_self
    have hfirst : ∀ t, startsOperand t = true → step ⟨frames, .firstArgument callee⟩ t =
        step ⟨.arguments callee (.ok []) :: frames, .operand⟩ t := by
      intro t ht
      cases t <;> first | rfl | simp [startsOperand] at ht
    have hall := run_moreArguments callee
      (fun e he => h e (List.mem_cons_of_mem first he)) first hreads [] frames
    rw [List.map_cons, intercalate_cons] at *
    rw [run_of_starts ((hstarts.append _).append _) hfirst]
    exact hall

theorem readsOperand_call {tokens : Expr → List Token} {f : Function}
    {arguments : List Expr} (hf : Function.find? f.name = some f)
    (hc : (Expr.call f arguments).checked = .ok (.call f arguments))
    (h : ∀ e ∈ arguments, Reads (tokens e) e ∧ Starts (tokens e)) :
    ReadsOperand (.identifier f.name ::
      (.openParen :: [Token.comma].intercalate (arguments.map tokens) ++ [.closeParen]))
      (.call f arguments) := by
  intro frames
  have hname : step ⟨frames, .operand⟩ (.identifier f.name) =
      .ok ⟨frames, .identifier f.name⟩ := rfl
  have hopen : step ⟨frames, .identifier f.name⟩ .openParen =
      .ok ⟨frames, .firstArgument (.function f.name)⟩ := rfl
  have hcall : Expr.call? f.name (.ok arguments) = .ok (.call f arguments) := by
    rw [Expr.call?, hf]
    exact hc
  refine ⟨.complete (.ok (.call f arguments)), ?_, settles_complete _⟩
  rw [run_cons hname, List.cons_append, run_cons hopen, run_arguments h, ← hcall]
  rfl

theorem aggregate?_eq {op : Aggregator} {grouping : Option Grouping}
    {parameter : Option Expr} {e : Expr} (hn : parameter.isSome = op.parameter?.isSome)
    (hc : (Expr.aggregate op grouping parameter e).checked =
      .ok (.aggregate op grouping parameter e)) :
    Expr.aggregate? op (.ok grouping) (.ok (parameter.toList ++ [e])) =
      .ok (.aggregate op grouping parameter e) := by
  have harity : op.arity = (parameter.toList ++ [e]).length := by
    rw [Aggregator.arity, ← hn]
    cases parameter <;> rfl
  have haggregate : Expr.aggregate? op (.ok grouping) (.ok (parameter.toList ++ [e])) =
      (Expr.aggregate op grouping parameter e).checked := by
    cases parameter with
    | none =>
      simp only [Option.toList_none, List.nil_append, List.length_singleton] at harity ⊢
      simp [Expr.aggregate?, harity, bind, Except.bind]
    | some p =>
      simp only [Option.toList_some, List.singleton_append, List.length_cons,
        List.length_nil] at harity ⊢
      simp [Expr.aggregate?, harity, bind, Except.bind]
  rw [haggregate, hc]

theorem run_grouping {op : Aggregator} {grouping : Option Grouping}
    (h : (Leaf.grouping grouping).IsWritten epochs) (frames : List Frame) :
    run ⟨frames, .aggregator op op.name⟩ (groupingTokens grouping ++ [.openParen]) =
      .ok ⟨frames, .firstArgument (.aggregator op (grouping.map .ok))⟩ := by
  cases grouping with
  | none => rfl
  | some g =>
    obtain ⟨hne, hlabels⟩ := h
    have hnames := hlabels g rfl
    have hexcluding : ∀ excluding : Bool,
        run ⟨frames, .aggregatorLabels op none excluding .unopened⟩
            (labelsTokens g.labels ++ [.openParen]) =
          .ok ⟨frames, .firstArgument (.aggregator op
            (some (Grouping.ofLabels excluding (.ok g.labels))))⟩ := by
      intro excluding
      have hopen : step ⟨frames, .aggregatorLabels op none excluding .unopened⟩ .openParen =
          .ok ⟨frames, .aggregatorLabels op none excluding .opened⟩ := rfl
      have hrun := run_labels
        (fun list => ⟨frames, .aggregatorLabels op none excluding list⟩)
        (fun labels => ⟨frames, .aggregatorLabelled op (Grouping.ofLabels excluding labels)⟩)
        (fun list t next hstep => by simp [step, hstep, withFocus])
        (fun list t names hstep => by simp [step, hstep, withFocus]) hopen hnames
      rw [run_append hrun]
      rfl
    cases g with
    | including labels =>
      cases labels with
      | nil => exact absurd rfl hne
      | cons name rest =>
        have hby : step ⟨frames, .aggregator op op.name⟩ (.keyword .byLabels "by") =
            .ok ⟨frames, .aggregatorLabels op none false .unopened⟩ := rfl
        exact (run_cons hby _).trans (hexcluding false)
    | excluding labels =>
      have hwithout : step ⟨frames, .aggregator op op.name⟩
          (.keyword .withoutLabels "without") =
            .ok ⟨frames, .aggregatorLabels op none true .unopened⟩ := rfl
      exact (run_cons hwithout _).trans (hexcluding true)

theorem readsOperand_aggregate {tokens : Expr → List Token} {op : Aggregator}
    {grouping : Option Grouping} {parameter : Option Expr} {e : Expr}
    (hg : (Leaf.grouping grouping).IsWritten epochs)
    (hn : parameter.isSome = op.parameter?.isSome)
    (hc : (Expr.aggregate op grouping parameter e).checked =
      .ok (.aggregate op grouping parameter e))
    (h : ∀ a ∈ parameter.toList ++ [e], Reads (tokens a) a ∧ Starts (tokens a)) :
    ReadsOperand (.keyword (.aggregator op) op.name :: groupingTokens grouping ++
      (.openParen :: [Token.comma].intercalate ((parameter.toList ++ [e]).map tokens) ++
        [.closeParen])) (.aggregate op grouping parameter e) := by
  intro frames
  have haggregate := aggregate?_eq hn hc
  have hname : step ⟨frames, .operand⟩ (.keyword (.aggregator op) op.name) =
      .ok ⟨frames, .aggregator op op.name⟩ := rfl
  have hassoc : groupingTokens grouping ++ (.openParen :: [Token.comma].intercalate
        ((parameter.toList ++ [e]).map tokens) ++ [.closeParen]) =
      (groupingTokens grouping ++ [.openParen]) ++
        ([Token.comma].intercalate ((parameter.toList ++ [e]).map tokens) ++ [.closeParen]) := by
    simp
  rw [List.cons_append, run_cons hname, hassoc, run_append (run_grouping hg frames),
    run_arguments h]
  cases grouping with
  | none =>
    refine ⟨.aggregated op (.ok (parameter.toList ++ [e])), rfl, settles_aggregated haggregate⟩
  | some g =>
    refine ⟨.complete (.ok (.aggregate op (some g) parameter e)), ?_, settles_complete _⟩
    rw [← haggregate]
    rfl

section

variable (frames : List Frame) (left : Checked Expr) (op : Operator)

def matchingPhase (phase : MatchingPhase) : Parser := ⟨frames, .matching left op phase⟩

theorem step_matchingPhase {phase next : MatchingPhase} {t : Token}
    (h : phase.step t = some next) :
    (matchingPhase frames left op phase).step t = .ok (matchingPhase frames left op next) := by
  simp [matchingPhase, step, h, withFocus]

def HoldsMatching (phase : MatchingPhase) (m : VectorMatching) : Prop :=
  phase.value? = some (.ok m) ∧ ∀ t, startsOperand t = true → phase.step t = none

theorem run_matchedLabels {phase : MatchingPhase} {t : Token} {returnBool excluding : Bool}
    (ht : phase.step t = some (.labels returnBool excluding .unopened)) {labels : List String}
    (h : ∀ name ∈ labels, IsLabel name) :
    (matchingPhase frames left op phase).run (t :: labelsTokens labels) =
      .ok (matchingPhase frames left op
        (.labelled returnBool (Grouping.ofLabels excluding (.ok labels)))) := by
  have hopen : (matchingPhase frames left op (.labels returnBool excluding .unopened)).step
      .openParen =
        .ok (matchingPhase frames left op (.labels returnBool excluding .opened)) := rfl
  rw [run_cons (step_matchingPhase frames left op ht)]
  exact run_labels
    (fun list => matchingPhase frames left op (.labels returnBool excluding list))
    (fun names => matchingPhase frames left op
      (.labelled returnBool (Grouping.ofLabels excluding names)))
    (fun list t next hstep => by simp [matchingPhase, step, MatchingPhase.step, hstep, withFocus])
    (fun list t names hstep => by simp [matchingPhase, step, MatchingPhase.step, hstep, withFocus])
    hopen h

theorem run_joinedLabels {t : Token} {returnBool toMany : Bool} {g : Grouping}
    (ht : MatchingPhase.step (.labelled returnBool (.ok g)) t =
      some (.group returnBool (.ok g) toMany)) {labels : List String}
    (h : ∀ name ∈ labels, IsLabel name) :
    (matchingPhase frames left op (.labelled returnBool (.ok g))).run
        (t :: labelsTokens labels) =
      .ok (matchingPhase frames left op
        (.complete (.ok ⟨returnBool, some g, joining toMany labels⟩))) := by
  have hopen : (matchingPhase frames left op (.group returnBool (.ok g) toMany)).step
      .openParen =
        .ok (matchingPhase frames left op (.groupLabels returnBool (.ok g) toMany .opened)) :=
    rfl
  rw [run_cons (step_matchingPhase frames left op ht)]
  exact run_labels
    (fun list => matchingPhase frames left op (.groupLabels returnBool (.ok g) toMany list))
    (fun names => matchingPhase frames left op (.complete do
      let names ← names
      pure ⟨returnBool, some g, joining toMany names⟩))
    (fun list t next hstep => by simp [matchingPhase, step, MatchingPhase.step, hstep, withFocus])
    (fun list t names hstep => by
      simp [matchingPhase, step, MatchingPhase.step, hstep, withFocus]; rfl)
    hopen h

def firstPhase (returnBool : Bool) : MatchingPhase :=
  if returnBool then .bool else .start

theorem run_bool (returnBool : Bool) :
    (matchingPhase frames left op .start).run
        (if returnBool then [.keyword .bool "bool"] else []) =
      .ok (matchingPhase frames left op (firstPhase returnBool)) := by
  cases returnBool <;> rfl

theorem holdsMatching_first (returnBool : Bool) :
    HoldsMatching (firstPhase returnBool) ⟨returnBool, none, .oneToOne⟩ := by
  cases returnBool with
  | false =>
    refine ⟨rfl, fun t ht => ?_⟩
    cases t with
    | keyword word text => cases word <;> first | rfl | simp [startsOperand] at ht
    | _ => rfl
  | true =>
    refine ⟨rfl, fun t ht => ?_⟩
    cases t with
    | keyword word text => cases word <;> first | rfl | simp [startsOperand] at ht
    | _ => rfl

theorem holdsMatching_labelled (returnBool : Bool) (g : Grouping) :
    HoldsMatching (.labelled returnBool (.ok g)) ⟨returnBool, some g, .oneToOne⟩ := by
  refine ⟨rfl, fun t ht => ?_⟩
  cases t with
  | keyword word text => cases word <;> first | rfl | simp [startsOperand] at ht
  | _ => rfl

theorem holdsMatching_complete (m : VectorMatching) :
    HoldsMatching (.complete (.ok m)) m :=
  ⟨rfl, fun _ _ => rfl⟩

theorem run_cardinality (returnBool : Bool) (g : Grouping) {cardinality : Cardinality}
    (h : ∀ labels ∈ cardinality.labels?, ∀ name ∈ labels, IsLabel name) :
    ∃ phase, (matchingPhase frames left op (.labelled returnBool (.ok g))).run
        cardinality.tokens = .ok (matchingPhase frames left op phase) ∧
      HoldsMatching phase ⟨returnBool, some g, cardinality⟩ := by
  cases cardinality with
  | oneToOne => exact ⟨_, rfl, holdsMatching_labelled returnBool g⟩
  | manyToOne labels =>
    exact ⟨_, run_joinedLabels frames left op rfl (h labels rfl), holdsMatching_complete _⟩
  | oneToMany labels =>
    exact ⟨_, run_joinedLabels frames left op rfl (h labels rfl), holdsMatching_complete _⟩

theorem run_matching {m : VectorMatching} (hm : m.IsRead)
    (h : (Leaf.matching m).IsWritten epochs) :
    ∃ phase, (matchingPhase frames left op .start).run m.tokens =
        .ok (matchingPhase frames left op phase) ∧ HoldsMatching phase m := by
  obtain ⟨returnBool, labels, cardinality⟩ := m
  obtain ⟨hne, hlabels, hgroup⟩ := h
  have hbool := run_bool frames left op returnBool
  rw [VectorMatching.tokens, List.append_assoc, run_append hbool]
  cases labels with
  | none =>
    cases cardinality with
    | oneToOne => exact ⟨_, rfl, holdsMatching_first returnBool⟩
    | manyToOne _ | oneToMany _ => exact absurd (hm (by simp)) (by simp)
  | some g =>
    obtain ⟨phase, hrun, hholds⟩ := run_cardinality frames left op returnBool g hgroup
    refine ⟨phase, ?_, hholds⟩
    have hnames := hlabels g rfl
    cases g with
    | including names =>
      have hon : (firstPhase returnBool).step (.keyword .onLabels "on") =
          some (.labels returnBool false .unopened) := by
        cases returnBool <;> rfl
      exact run_append_run (run_matchedLabels frames left op hon hnames) hrun
    | excluding names =>
      have hignoring : (firstPhase returnBool).step (.keyword .ignoringLabels "ignoring") =
          some (.labels returnBool true .unopened) := by
        cases returnBool <;> rfl
      cases names with
      | nil => exact absurd rfl hne
      | cons name rest =>
        exact run_append_run (run_matchedLabels frames left op hignoring hnames) hrun

end

theorem operatorToken_eq (op : Operator) :
    Lexer.operatorToken op = .operator op ∨
      Lexer.operatorToken op = .keyword (.operator op) op.text := by
  cases op <;> first | exact .inl rfl | exact .inr rfl

theorem reads_binary {op : Operator} {matching : VectorMatching} {left right : Expr}
    {leftTokens rightTokens : List Token} (hleft : Reads leftTokens left)
    (hright : Reads rightTokens right) (hstarts : Starts rightTokens)
    (hm : matching.IsRead) (hw : (Leaf.matching matching).IsWritten epochs)
    (hclose : left.ClosesBefore (some op))
    (hfits : ∀ o ∈ right.leftOperators, op.bindsBefore o = false)
    (hc : (Expr.binary op matching left right).checked = .ok (.binary op matching left right)) :
    Reads (leftTokens ++ (Lexer.operatorToken op :: matching.tokens) ++ rightTokens)
      (.binary op matching left right) := by
  intro frames hframes
  obtain ⟨hop, hframes⟩ := admits_cons.mp hframes
  obtain ⟨opened, focus, x, hrun, hfocus, hunwind⟩ := hleft frames hframes
  have hoperator : step ⟨opened ++ frames, focus⟩ (Lexer.operatorToken op) =
      .ok (matchingPhase frames (.ok left) op .start) := by
    have hsame : unwind (some op) (opened ++ frames) (.ok x) = (frames, .ok left) :=
      (hunwind (some op) frames hclose).trans (unwind_some_of_admits hop _)
    rcases operatorToken_eq op with hop | hop <;>
      rw [hop, hfocus.step _ _ rfl] <;>
      simp [step, afterOperand, binaryOperator?, hsame, matchingPhase]
  obtain ⟨phase, hwords, hvalue, htakes⟩ := run_matching frames (.ok left) op hm hw
  have hnext : ∀ t, startsOperand t = true → (matchingPhase frames (.ok left) op phase).step t =
      step ⟨.operand (.ok left) op (.ok matching) :: frames, .operand⟩ t := by
    intro t ht
    simp [matchingPhase, step, htakes t ht, hvalue]
  have hadmits : Admits (.operand (.ok left) op (.ok matching) :: frames)
      right.leftOperators := by
    intro b hb o ho
    obtain rfl : Binder.operator op = b := Option.some.inj hb
    exact hfits o ho
  obtain ⟨opened, focus, y, hrunRight, hfocusRight, hunwindRight⟩ := hright _ hadmits
  refine ⟨opened ++ [.operand (.ok left) op (.ok matching)], focus, y, ?_, hfocusRight, ?_⟩
  · rw [List.append_assoc, run_append hrun, List.cons_append, run_cons hoperator,
      run_append hwords, run_of_starts hstarts hnext, hrunRight]
    simp
  · intro next outer hnext
    have hown : Binder.Closes (.operator op) next := hnext _ List.mem_cons_self
    have hrest : right.ClosesBefore next := fun b hb => hnext b (List.mem_cons_of_mem _ hb)
    have hbinary : Frame.close (.operand (.ok left) op (.ok matching)) (.ok right) =
        .ok (.binary op matching left right) := hc
    rw [List.append_assoc, List.singleton_append, hunwindRight next _ hrest,
      unwind_cons_of_closes rfl hown, hbinary]

theorem reads_negated {e : Expr} {tokens : List Token} (h : Reads tokens e)
    (hfits : ∀ o ∈ e.leftOperators, Binder.sign.bindsBefore o = false)
    (ht : e.type = .scalar ∨ e.type = .vector) (hn : ∀ x, e ≠ .number x) :
    Reads (.operator .sub :: tokens) (.negated e) := by
  intro frames _
  have hsign : step ⟨frames, .operand⟩ (.operator .sub) =
      .ok ⟨.signed true :: frames, .operand⟩ := rfl
  have hadmits : Admits (.signed true :: frames) e.leftOperators := by
    intro b hb o ho
    obtain rfl : Binder.sign = b := Option.some.inj hb
    exact hfits o ho
  obtain ⟨opened, focus, x, hrun, hfocus, hunwind⟩ := h _ hadmits
  refine ⟨opened ++ [.signed true], focus, x, ?_, hfocus, ?_⟩
  · rw [run_cons hsign, hrun, List.append_assoc, List.singleton_append]
  · intro next outer hnext
    have hown : Binder.Closes .sign next := hnext _ List.mem_cons_self
    have hrest : e.ClosesBefore next := fun b hb => hnext b (List.mem_cons_of_mem _ hb)
    have hnegated : Frame.close (.signed true) (.ok e) = .ok (.negated e) := by
      have hchecked : (Expr.negated e).checked = .ok (.negated e) :=
        Expr.checked_eq_ok_iff.mpr ⟨by simp [Expr.checkRoot, ht], rfl⟩
      cases e with
      | number x => exact absurd rfl (hn x)
      | range | string => simp [Expr.type] at ht
      | _ => exact hchecked
    rw [List.append_assoc, List.singleton_append, hunwind next _ hrest,
      unwind_cons_of_closes rfl hown, hnegated]

theorem startsOperand_of_namesMetric {t : Token} (h : t.namesMetric = true) :
    startsOperand t = true := by
  cases t with
  | keyword word text =>
    cases word <;> first | rfl | simp [Token.namesMetric, Keyword.canNameMetric] at h
  | _ => first | rfl | simp [Token.namesMetric] at h

theorem starts_series {s : Selector} (hs : s.IsRead) : Starts s.seriesTokens := by
  rw [Selector.seriesTokens]
  cases hm : s.metric with
  | some name =>
    exact ⟨_, _, rfl, startsOperand_of_namesMetric (hs.metric name hm).2⟩
  | none =>
    have hempty : s.groups ≠ .empty := by
      intro hempty
      obtain ⟨name, hname⟩ := exists_metric_of_isRead hs hempty
      rw [hm] at hname
      exact absurd hname (by simp)
    have hfirst := first_ne_nil_of_isRead hs hempty
    rw [MatcherGroups.tokens, if_neg (by simp [hfirst])]
    exact ⟨_, _, rfl, rfl⟩

theorem starts_tokens {e : Expr} (h : e.Grammatical) : Starts (e.tokens epochs) := by
  induction h with
  | selector hs => exact (starts_series hs).append _
  | range hs =>
    rw [Expr.tokens, List.append_assoc]
    exact (starts_series hs).append _
  | subquery he ho ht ih =>
    rw [Expr.tokens, List.append_assoc, List.append_assoc]
    exact ih.append _
  | binary hleft hright hm hclose hfits hc ihl ihr =>
    rw [Expr.tokens, List.append_assoc]
    exact ihl.append _
  | number hx =>
    rw [Expr.tokens, numberTokens]
    split <;> exact ⟨_, _, rfl, rfl⟩
  | call | aggregate | negated | paren | string => exact ⟨_, _, rfl, rfl⟩

def ReadsTree (tokens : List Token) (e : Expr) : Prop :=
  Reads tokens e ∧ (e.IsOperand → ReadsOperand tokens e)

theorem ReadsOperand.tree {tokens : List Token} {e : Expr} (h : ReadsOperand tokens e) :
    ReadsTree tokens e :=
  ⟨h.reads, fun _ => h⟩

theorem readsOperand_number {x : Binary64} (h : NumberReadsBack x) :
    ReadsOperand [.number (numberText x)] (.number x) := by
  intro frames
  refine ⟨.complete (.ok (.number x)), run_singleton ?_, settles_complete _⟩
  simp only [step, startOperand, number?, completed, withFocus, h.literal]
  rfl

theorem readsTree_number {x : Binary64}
    (h : NumberReadsBack (if x.isNegative then x.neg else x)) :
    ReadsTree (numberTokens x) (.number x) := by
  rw [numberTokens]
  split at h
  next hneg =>
    rw [if_pos hneg]
    refine ⟨fun frames _ => ?_, fun ho => ?_⟩
    · have hsign : step ⟨frames, .operand⟩ (.operator .sub) =
          .ok ⟨.signed true :: frames, .operand⟩ := rfl
      obtain ⟨focus, hrun, hfocus⟩ := readsOperand_number h (.signed true :: frames)
      refine ⟨[.signed true], focus, .number x.neg, (run_cons hsign _).trans hrun, hfocus, ?_⟩
      intro next outer hnext
      have hown : Binder.Closes .sign next :=
        hnext _ (by simp [Expr.rightBinders, hneg])
      have hclose : Frame.close (.signed true) (.ok (.number x.neg)) =
          .ok (.number x.neg.neg) := rfl
      rw [List.singleton_append, unwind_cons_of_closes rfl hown, hclose, Binary64.neg_neg]
    · exact absurd ho.2 (by simp [Expr.rightBinders, hneg])
  next hneg =>
    rw [if_neg hneg]
    exact (readsOperand_number h).tree

/-- The tokens of a grammatical tree are read as the tree when its leaves are. -/
theorem readsTree_tokens {e : Expr} (h : e.Grammatical)
    (hl : ∀ l ∈ e.leaves, l.IsWritten epochs) : ReadsTree (e.tokens epochs) e := by
  induction h with
  | selector hs => exact (readsOperand_selector hs hl).tree
  | range hs =>
    exact (readsOperand_range hs (hl _ List.mem_cons_self)
      fun l hmem => hl l (List.mem_cons_of_mem _ hmem)).tree
  | @subquery e length step offset at? he ho ht ih =>
    simp only [Expr.leaves, List.mem_append, List.mem_cons] at hl
    have hbody := (ih fun l hmem => hl l (.inl hmem)).2 ho
    exact (readsOperand_subquery hbody ht (hl (.duration length) (by simp))
      (fun d hd => hl (.duration d) (by simp [Option.mem_def.mp hd]))
      (fun l hmem => hl l (by simp [hmem])) (fun l hmem => hl l (by simp [hmem]))).tree
  | @call f arguments hf ha hc ih =>
    rw [Expr.leaves, Expr.leavesList_eq_flatMap] at hl
    rw [Expr.tokens, Expr.tokensList_eq_map]
    have hchecked := (Expr.Grammatical.call hf ha hc).checked
    refine (readsOperand_call hf hchecked fun e he => ⟨(ih e he fun l hmem => ?_).1,
      starts_tokens (ha e he)⟩).tree
    exact hl l (List.mem_flatMap.mpr ⟨e, he, hmem⟩)
  | @aggregate op grouping parameter e hn hp he hc ihp ih =>
    rw [Expr.tokens, Expr.tokensOption_eq_map]
    have hchecked : (Expr.aggregate op grouping parameter e).checked = _ :=
      (Expr.Grammatical.aggregate hn hp he hc).checked
    have harguments : ∀ a ∈ parameter.toList ++ [e],
        Reads (a.tokens epochs) a ∧ Starts (a.tokens epochs) :=
      Expr.forall_mem_arguments hl
        (fun a ha hleaves => ⟨(ihp a ha hleaves).1, starts_tokens (hp a ha)⟩)
        fun hleaves => ⟨(ih hleaves).1, starts_tokens he⟩
    simpa using (readsOperand_aggregate (hl (.grouping grouping) List.mem_cons_self) hn
      hchecked harguments).tree
  | @binary op matching left right hleft hright hm hclose hfits hc ihl ihr =>
    rw [Expr.leaves] at hl
    have hchecked := (Expr.Grammatical.binary hleft hright hm hclose hfits hc).checked
    refine ⟨reads_binary (ihl fun l hmem => hl l (by simp [hmem])).1
      (ihr fun l hmem => hl l (by simp [hmem])).1 (starts_tokens hright) hm
      (hl (.matching matching) List.mem_cons_self) hclose hfits hchecked, fun ho => ?_⟩
    exact absurd ho.1 (by simp [Expr.leftOperators])
  | negated he hfits ht hn ih =>
    refine ⟨reads_negated (ih hl).1 hfits ht hn, fun ho => ?_⟩
    exact absurd ho.2 (by simp [Expr.rightBinders])
  | paren he ih => exact (reads_paren (ih hl).1).tree
  | number hx => exact readsTree_number hx
  | @string text =>
    have htext : Plain text := hl (.string text) (by simp [Expr.leaves])
    have hstring : ReadsOperand [.string '"' text] (.string text) := by
      intro frames
      refine ⟨.complete (.ok (.string text)), run_singleton ?_, settles_complete _⟩
      have hunquote := unquote_plain htext
      simp only [step, startOperand, completed, withFocus, hunquote]
      rfl
    exact hstring.tree

/-- A grammatical tree is what its tokens stand for. -/
theorem ofTokens_tokens {e : Expr} (h : e.Grammatical)
    (hl : ∀ l ∈ e.leaves, l.IsWritten epochs) :
    Expr.ofTokens (e.tokens epochs) = .ok e := by
  obtain ⟨opened, focus, x, hrun, hfocus, hunwind⟩ :=
    (readsTree_tokens h hl).1 [] trivial
  have hend := hunwind none [] e.closesBefore_none
  have hinitial : initial.run (e.tokens epochs) = .ok ⟨opened ++ [], focus⟩ := hrun
  rw [Expr.ofTokens, hinitial]
  simp only [bind, Except.bind, finish, hfocus.finish, hend, unwind]

end Parser

end MetricScope.PromQL
