import MetricScope.Regex.Pattern

/-!
# Patterns for one text

An escaped text between anchors is read as its characters one after the other, whatever
characters these are. Such a pattern is found in that text and in no other.
-/

set_option autoImplicit false

namespace MetricScope.Regex

namespace Parser

def escapeChars (text : List Char) : List Char :=
  text.flatMap fun c => if isMeta c then ['\\', c] else [c]

theorem escapeChars_cons (c : Char) (text : List Char) :
    escapeChars (c :: text) = (if isMeta c then ['\\', c] else [c]) ++ escapeChars text := rfl

namespace State

variable {s next : State} {c : Char} {rest rest' : List Char}

/-- Only characters with a meaning start anything else than themselves. -/
theorem step_of_not_isMeta (h : isMeta c = false) (s : State) (rest : List Char) :
    s.step c rest = some (s.literal c, rest) := by
  unfold step
  split
  all_goals first
    | exact absurd h (by decide)
    | rfl

theorem step_backslash (h : isMeta c = true) (s : State) (rest : List Char) :
    s.step '\\' (c :: rest) = some (s.literal c, rest) := by
  simp only [step, readEscape, h, if_true]
  rfl

theorem run_nil (s : State) (fuel : Nat) : s.run fuel [] = some s := by
  have hskip : skip s.level.flags [] = [] := by
    rw [skip]
    split <;> simp [skipVerbose]
  cases fuel <;> simp [run, hskip]

theorem run_cons (hflags : s.level.flags = .standard) (h : s.step c rest = some (next, rest'))
    (fuel : Nat) : s.run (fuel + 1) (c :: rest) = next.run fuel rest' := by
  have hskip : skip s.level.flags (c :: rest) = c :: rest := by
    rw [hflags]
    rfl
  rw [run, hskip]
  simp only [h]

/-- Every character of the text becomes a part of the pattern; backslashes leave steps over. -/
theorem run_escapeChars (text rest : List Char) (hflags : s.level.flags = .standard)
    (fuel : Nat) : ∃ more,
      s.run (fuel + (escapeChars text).length) (escapeChars text ++ rest) =
        (text.foldl literal s).run (fuel + more) rest := by
  induction text generalizing s fuel with
  | nil => exact ⟨0, rfl⟩
  | cons c text ih =>
    have hnext : (s.literal c).level.flags = .standard := hflags
    rw [escapeChars_cons, List.foldl_cons]
    cases hmeta : isMeta c with
    | true =>
      obtain ⟨more, hmore⟩ := ih hnext (fuel + 1)
      have hlength : fuel + (escapeChars text).length.succ.succ =
          fuel + 1 + (escapeChars text).length + 1 := by omega
      refine ⟨1 + more, ?_⟩
      rw [← Nat.add_assoc, ← hmore]
      simp only [if_true, List.cons_append, List.nil_append, List.length_cons]
      rw [hlength]
      exact run_cons hflags (step_backslash hmeta s _) _
    | false =>
      obtain ⟨more, hmore⟩ := ih hnext fuel
      refine ⟨more, ?_⟩
      rw [← hmore]
      exact run_cons hflags (step_of_not_isMeta hmeta s _) _

theorem foldl_literal (text : List Char) (hflags : s.level.flags = .standard) :
    text.foldl literal s = { s with
      level := { s.level with
        pieces := (text.map fun c => ⟨.literal c, 0, true⟩).reverse ++ s.level.pieces } } := by
  induction text generalizing s with
  | nil => rfl
  | cons c text ih =>
    have hliteral : s.literal c = s.push (.literal c) 0 := by
      rw [literal, hflags]
      rfl
    have hnext : (s.literal c).level.flags = .standard := hflags
    rw [List.foldl_cons, ih hnext, hliteral, List.map_cons, List.reverse_cons,
      List.append_assoc]
    rfl

end State

theorem Level.current_fst (level : Level) :
    level.current.1 = .sequence (level.pieces.reverse.map Piece.node) := by
  rw [Level.current]
  split
  next h =>
    rw [h]
    rfl
  next h =>
    rw [h]
    rfl
  · rfl

end Parser

open MetricScope.Regex.Parser

def Node.whole (text : List Char) : Node :=
  .sequence (.assertion .textStart :: (text.map literal ++ [.assertion .textEnd]))

theorem Parser.State.run_anchored (text : List Char) :
    State.initial.run ('^' :: (escapeChars text ++ ['$'])).length
        ('^' :: (escapeChars text ++ ['$'])) =
      some ⟨⟨[], ⟨.assertion .textEnd, 0, true⟩ ::
        ((text.map fun c => ⟨.literal c, 0, true⟩).reverse ++
          [⟨.assertion .textStart, 0, true⟩]), .standard⟩, [], []⟩ := by
  have hstart : State.initial.step '^' (escapeChars text ++ ['$']) =
      some (State.initial.push (.assertion .textStart) 0, escapeChars text ++ ['$']) := rfl
  have hflags : (State.initial.push (.assertion .textStart) 0).level.flags = .standard := rfl
  have hlength : ('^' :: (escapeChars text ++ ['$'])).length =
      1 + (escapeChars text).length + 1 := by
    simp only [List.length_cons, List.length_append, List.length_nil]
    omega
  obtain ⟨more, hmore⟩ := run_escapeChars text ['$'] hflags 1
  rw [hlength, run_cons rfl hstart, hmore, foldl_literal text hflags, Nat.add_comm 1 more,
    run_cons rfl rfl, run_nil]
  rfl

/-- An escaped text between anchors is read as that text. -/
theorem Node.eq_whole_of_ofPattern? {text : List Char} {node : Node}
    (h : Node.ofPattern? ('^' :: (escapeChars text ++ ['$'])) = some node) :
    node = .whole text := by
  rw [ofPattern?, State.run_anchored] at h
  simp only [Option.bind_eq_bind, Option.bind_some, Level.close, Level.current_fst,
    Option.ite_none_right_eq_some, Option.some.injEq] at h
  rw [← h.2, whole]
  congr 1
  simp [Function.comp_def]

namespace Node

theorem advance_sequence_cons (bound : Nat) (item : Node) {rest : List Node} (h : rest ≠ [])
    (ps : Positions) :
    (sequence (item :: rest)).advance bound ps =
      (sequence rest).advance bound (item.advance bound ps) := by
  cases rest with
  | nil => exact absurd rfl h
  | cons next rest => rfl

theorem advance_start (bound : Nat) (text : List Char) :
    (assertion .textStart).advance bound (Positions.all text) = [⟨0, none, text⟩] := by
  have hlater : ∀ (index : Nat) (c : Char) (text : List Char),
      ∀ p ∈ Position.allFrom index (some c) text, p.holds .textStart = false := by
    intro index c text
    induction text generalizing index c with
    | nil => simp [Position.allFrom, Position.holds]
    | cons d text ih =>
      intro p hp
      rcases List.mem_cons.mp hp with rfl | hp
      · rfl
      · exact ih _ _ p hp
  rw [advance, Positions.all, List.filter_reverse]
  cases text with
  | nil => rfl
  | cons c text =>
    have hnone : (Position.allFrom 1 (some c) text).filter (·.holds .textStart) = [] := by
      apply List.filter_eq_nil_iff.mpr
      intro p hp
      simp [hlater 1 c text p hp]
    rw [Position.allFrom, List.filter_cons_of_pos rfl, hnone]
    rfl

variable {bound : Nat}

theorem advance_literals_nil (text : List Char) :
    (sequence (text.map literal ++ [.assertion .textEnd])).advance bound [] = [] := by
  induction text with
  | nil => rfl
  | cons c text ih =>
    rw [List.map_cons, List.cons_append, advance_sequence_cons _ _ (by simp)]
    exact ih

/-- From one position the characters lead to the end of the text when they are all of it. -/
theorem advance_literals_ne_nil_iff (text : List Char) (p : Position) :
    (sequence (text.map literal ++ [.assertion .textEnd])).advance bound [p] ≠ [] ↔
      p.rest = text := by
  induction text generalizing p with
  | nil =>
    cases h : p.rest <;> simp [sequence, advance, Position.holds, h]
  | cons c text ih =>
    rw [List.map_cons, List.cons_append, advance_sequence_cons _ _ (by simp)]
    cases h : p.rest with
    | nil =>
      have hstep : (literal c).advance bound [p] = [] := by
        simp [literal, advance, Position.advance?, h]
      rw [hstep, advance_literals_nil]
      simp
    | cons d rest =>
      by_cases hd : d = c
      · have hstep : (literal c).advance bound [p] = [⟨p.index + 1, some d, rest⟩] := by
          simp [literal, advance, Position.advance?, h, hd]
        rw [hstep, ih]
        simp [hd]
      · have hstep : (literal c).advance bound [p] = [] := by
          simp [literal, advance, Position.advance?, h, hd]
        rw [hstep, advance_literals_nil]
        simp [hd]

theorem isMatch_whole_iff (text sample : List Char) :
    (whole text).isMatch sample = true ↔ sample = text := by
  rw [isMatch, whole, advance_sequence_cons _ _ (by simp), advance_start, Bool.not_eq_true',
    List.isEmpty_eq_false_iff]
  exact advance_literals_ne_nil_iff text _

end Node

/-- An escaped value between anchors is found in that value and in no other text. -/
theorem Pattern.isMatch_of_compile?_escape {value : String} {p : Pattern}
    (h : compile? ("^" ++ escape value ++ "$") = some p) (sample : String) :
    p.isMatch sample = true ↔ sample = value := by
  have hchars : ("^" ++ escape value ++ "$").toList =
      '^' :: (escapeChars value.toList ++ ['$']) := by
    simp [escape, escapeChars]
  have hnode := p.node_eq
  rw [compile?_source h, hchars] at hnode
  rw [isMatch, Node.eq_whole_of_ofPattern? hnode, Node.isMatch_whole_iff, String.toList_inj]

end MetricScope.Regex
