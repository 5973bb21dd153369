import MetricScope.Json.Reader
import MetricScope.Proofs.Json.Lexing

/-!
# Written JSON is read back

The reader collects the items and members of what is open in front of the value that it
reads, so the tokens of a value complete that value whatever is open. With the tokens of
both forms a value is read back from either text.
-/

set_option autoImplicit false

namespace MetricScope.Json

namespace Reader

theorem foldlM_cons_of_step {r next : Reader} {t : Token} (h : r.step t = some next)
    (rest : List Token) : (t :: rest).foldlM step r = rest.foldlM step next := by
  rw [List.foldlM_cons, h]
  rfl

/-- The tokens of the value complete it, whatever is open and whatever follows. -/
def Completes (v : Value) : Prop :=
  ∀ frames rest, (v.tokens ++ rest).foldlM step ⟨frames, .value⟩ =
    rest.foldlM step ⟨frames, .complete v⟩

theorem completes_of_step {v : Value} {t : Token} (htokens : v.tokens = [t])
    (h : ∀ frames, step ⟨frames, .value⟩ t = some ⟨frames, .complete v⟩) : Completes v := by
  intro frames rest
  rw [htokens]
  exact foldlM_cons_of_step (h frames) rest

theorem foldlM_items {items : List Value} (h : ∀ v ∈ items, Completes v) (hne : items ≠ [])
    (read : List Value) (frames : List Frame) (rest : List Token) :
    ([Token.comma].intercalate (items.map Value.tokens) ++ .closeBracket :: rest).foldlM step
        ⟨.array read :: frames, .value⟩ =
      rest.foldlM step ⟨frames, .complete (.array (read.reverse ++ items))⟩ := by
  induction items generalizing read with
  | nil => exact absurd rfl hne
  | cons v items ih =>
    have hv := h v List.mem_cons_self
    cases items with
    | nil =>
      have hclose : step ⟨.array read :: frames, .complete v⟩ .closeBracket =
          some ⟨frames, .complete (.array (v :: read).reverse)⟩ := rfl
      simp only [List.map_cons, List.map_nil, List.intercalate_singleton]
      rw [hv, foldlM_cons_of_step hclose, List.reverse_cons]
    | cons w items =>
      have hcomma : step ⟨.array read :: frames, .complete v⟩ .comma =
          some ⟨.array (v :: read) :: frames, .value⟩ := rfl
      have hrest := ih (fun u hu => h u (List.mem_cons_of_mem v hu)) (by simp) (v :: read)
      simp only [List.map_cons, List.intercalate_cons_cons, List.append_assoc,
        List.cons_append, List.nil_append] at hrest ⊢
      rw [hv, foldlM_cons_of_step hcomma, hrest]
      simp

theorem foldlM_member {v : Value} (h : Completes v) (name : Option String)
    (read : List (Option String × Value)) (frames : List Frame) (rest : List Token) :
    (.string name :: .colon :: v.tokens ++ rest).foldlM step ⟨frames, .name read⟩ =
      rest.foldlM step ⟨.object read name :: frames, .complete v⟩ := by
  have hname : step ⟨frames, .name read⟩ (.string name) = some ⟨frames, .colon read name⟩ := rfl
  have hcolon : step ⟨frames, .colon read name⟩ .colon =
      some ⟨.object read name :: frames, .value⟩ := rfl
  rw [List.cons_append, foldlM_cons_of_step hname, List.cons_append,
    foldlM_cons_of_step hcolon, h]

theorem foldlM_members {members : List (Option String × Value)}
    (h : ∀ m ∈ members, Completes m.2) (hne : members ≠ [])
    (read : List (Option String × Value)) (frames : List Frame) (rest : List Token) :
    ([Token.comma].intercalate (members.map fun m => .string m.1 :: .colon :: m.2.tokens) ++
        .closeBrace :: rest).foldlM step ⟨frames, .name read⟩ =
      rest.foldlM step ⟨frames, .complete (.object (read.reverse ++ members))⟩ := by
  induction members generalizing read with
  | nil => exact absurd rfl hne
  | cons m members ih =>
    have hm := foldlM_member (h m List.mem_cons_self) m.1 read frames
    cases members with
    | nil =>
      have hclose : step ⟨.object read m.1 :: frames, .complete m.2⟩ .closeBrace =
          some ⟨frames, .complete (.object (m :: read).reverse)⟩ := rfl
      simp only [List.map_cons, List.map_nil, List.intercalate_singleton]
      rw [hm, foldlM_cons_of_step hclose, List.reverse_cons]
    | cons n members =>
      have hcomma : step ⟨.object read m.1 :: frames, .complete m.2⟩ .comma =
          some ⟨frames, .name (m :: read)⟩ := rfl
      have hrest := ih (fun u hu => h u (List.mem_cons_of_mem m hu)) (by simp) (m :: read)
      rw [List.map_cons, List.map_cons, List.intercalate_cons_cons, List.append_assoc,
        List.append_assoc, hm, List.singleton_append, foldlM_cons_of_step hcomma]
      refine hrest.trans ?_
      simp

theorem exists_tokens_eq_cons (v : Value) :
    ∃ t rest, v.tokens = t :: rest ∧ t ≠ .closeBracket := by
  cases v <;> exact ⟨_, _, rfl, by simp⟩

theorem intercalate_cons_cons_eq (separator : List Token) (t : Token) (first : List Token)
    (others : List (List Token)) : separator.intercalate ((t :: first) :: others) =
      t :: separator.intercalate (first :: others) := by
  cases others with
  | nil => simp
  | cons second others => simp [List.intercalate_cons_cons]

/-- In front of anything but its end an array that is empty so far waits for a value. -/
theorem step_firstItem {t : Token} (h : t ≠ .closeBracket) (frames : List Frame) :
    step ⟨frames, .firstItem⟩ t = step ⟨.array [] :: frames, .value⟩ t := by
  cases t with
  | closeBracket => exact absurd rfl h
  | _ => rfl

theorem completes_array {items : List Value} (h : ∀ v ∈ items, Completes v) :
    Completes (.array items) := by
  intro frames rest
  have hopen : step ⟨frames, .value⟩ .openBracket = some ⟨frames, .firstItem⟩ := rfl
  rw [Value.tokens, Value.itemTokens_eq_map, List.cons_append, foldlM_cons_of_step hopen,
    List.append_assoc, List.singleton_append]
  cases items with
  | nil => rfl
  | cons v items =>
    have hitems := foldlM_items h (by simp) [] frames rest
    obtain ⟨t, tail, htokens, ht⟩ := exists_tokens_eq_cons v
    rw [List.map_cons, htokens, intercalate_cons_cons_eq, List.cons_append,
      List.foldlM_cons] at hitems ⊢
    rw [step_firstItem ht]
    exact hitems

theorem completes_object {members : List (Option String × Value)}
    (h : ∀ m ∈ members, Completes m.2) : Completes (.object members) := by
  intro frames rest
  have hopen : step ⟨frames, .value⟩ .openBrace = some ⟨frames, .firstName⟩ := rfl
  rw [Value.tokens, Value.memberTokens_eq_map, List.cons_append, foldlM_cons_of_step hopen,
    List.append_assoc, List.singleton_append]
  cases members with
  | nil => rfl
  | cons m members =>
    have hmembers := foldlM_members h (by simp) [] frames rest
    have hfirst : step ⟨frames, .firstName⟩ (.string m.1) =
        step ⟨frames, .name []⟩ (.string m.1) := rfl
    rw [List.map_cons, intercalate_cons_cons_eq, List.cons_append,
      List.foldlM_cons] at hmembers ⊢
    rw [hfirst]
    exact hmembers

theorem completes {v : Value} (h : v.IsTextual) : Completes v := by
  induction h with
  | null => exact completes_of_step rfl fun _ => rfl
  | bool b => exact completes_of_step rfl fun _ => rfl
  | number => exact completes_of_step rfl fun _ => rfl
  | string text => exact completes_of_step rfl fun _ => rfl
  | array h ih => exact completes_array ih
  | object hname h ih => exact completes_object ih

end Reader

namespace Value

theorem IsTextual.ofTokens?_tokens {v : Value} (h : v.IsTextual) :
    ofTokens? v.tokens = some v := by
  have hrun := Reader.completes h [] []
  rw [List.append_nil] at hrun
  rw [ofTokens?, Reader.initial, hrun]
  rfl

theorem read?_of_lexes {v : Value} (h : v.IsTextual) {text : String}
    (hlexes : Lexes text v.tokens) : read? text = some v := by
  rw [read?, hlexes.tokenize_eq]
  exact h.ofTokens?_tokens

/-- A value whose strings and names have texts is read back from both of its forms. -/
theorem IsTextual.read?_compact {v : Value} (h : v.IsTextual) : read? v.compact = some v :=
  read?_of_lexes h h.lexes_compact

theorem IsTextual.read?_pretty {v : Value} (h : v.IsTextual) : read? v.pretty = some v :=
  read?_of_lexes h (h.lexes_prettyAt 0)

end Value

end MetricScope.Json
