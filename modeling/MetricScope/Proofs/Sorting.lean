import Mathlib.Data.List.Sort
import MetricScope.Listing

/-!
# Insertion sort on parts of a list

Sorting is Mathlib's insertion sort. It keeps the order of items that may stand in either
order, and so items can be left out of a list before or after it is sorted.
-/

set_option autoImplicit false

namespace MetricScope

variable {α : Type} (r : α → α → Prop) [DecidableRel r]

theorem insertBy_eq_orderedInsert (a : α) (l : List α) :
    insertBy (fun a b => decide (r a b)) a l = l.orderedInsert r a := by
  induction l with
  | nil => rfl
  | cons b rest ih => simp only [insertBy, List.orderedInsert_cons, decide_eq_true_eq, ih]

theorem sortBy_eq_insertionSort (l : List α) :
    sortBy (fun a b => decide (r a b)) l = l.insertionSort r := by
  induction l with
  | nil => rfl
  | cons a rest ih => rw [sortBy, ih, insertBy_eq_orderedInsert, List.insertionSort_cons]

theorem sortBy_perm (l : List α) : (sortBy (fun a b => decide (r a b)) l).Perm l :=
  sortBy_eq_insertionSort r l ▸ List.perm_insertionSort r l

variable {r}

theorem orderedInsert_of_forall_rel {a : α} {l : List α} (h : ∀ b ∈ l, r a b) :
    l.orderedInsert r a = a :: l := by
  cases l with
  | nil => rfl
  | cons b rest => exact List.orderedInsert_cons_of_le r rest (h b List.mem_cons_self)

variable [IsTrans α r]

theorem filter_orderedInsert (q : α → Bool) (a : α) {l : List α} (h : l.Pairwise r) :
    (l.orderedInsert r a).filter q =
      if q a then (l.filter q).orderedInsert r a else l.filter q := by
  induction l with
  | nil => simp [List.filter_cons]
  | cons b rest ih =>
    obtain ⟨hb, hrest⟩ := List.pairwise_cons.mp h
    by_cases hab : r a b
    · have hall : ∀ c ∈ (b :: rest).filter q, r a c := by
        intro c hc
        rcases List.mem_cons.mp (List.mem_filter.mp hc).1 with rfl | hc
        · exact hab
        · exact IsTrans.trans _ _ _ hab (hb c hc)
      rw [List.orderedInsert_cons_of_le r rest hab, orderedInsert_of_forall_rel hall,
        List.filter_cons]
    · rw [List.orderedInsert_of_not_le r rest hab, List.filter_cons, ih hrest, List.filter_cons]
      cases q a <;> cases q b <;> simp [hab]

variable [Std.Total r]

/-- Items can be left out before or after the others are sorted. -/
theorem insertionSort_filter (q : α → Bool) (l : List α) :
    (l.filter q).insertionSort r = (l.insertionSort r).filter q := by
  induction l with
  | nil => rfl
  | cons a rest ih =>
    rw [List.insertionSort_cons, filter_orderedInsert q a (List.pairwise_insertionSort r rest),
      ← ih, List.filter_cons]
    split <;> rfl

variable [BEq α] [LawfulBEq α]

theorem eraseDups_orderedInsert (a : α) {l : List α} (h : l.Pairwise r) :
    (l.orderedInsert r a).eraseDups = (l.filter fun b => !b == a).eraseDups.orderedInsert r a := by
  generalize hn : l.length = n
  induction n using Nat.strongRecOn generalizing l with
  | ind n ih =>
    cases l with
    | nil => rfl
    | cons b rest =>
      obtain ⟨hb, hrest⟩ := List.pairwise_cons.mp h
      by_cases hab : r a b
      · have hall : ∀ c ∈ ((b :: rest).filter fun c => !c == a).eraseDups, r a c := by
          intro c hc
          rcases List.mem_cons.mp (List.mem_filter.mp (List.mem_eraseDups.mp hc)).1 with rfl | hc
          · exact hab
          · exact IsTrans.trans _ _ _ hab (hb c hc)
        rw [List.orderedInsert_cons_of_le r rest hab, orderedInsert_of_forall_rel hall,
          List.eraseDups_cons]
      · -- What stands in front of `a` is another item, so it is dropped behind it either way.
        have hne : b ≠ a := fun hba => hab (hba ▸ (Std.Total.total b b).elim id id)
        have hshort : (rest.filter fun c => !c == b).length < n := by
          rw [← hn, List.length_cons]
          exact Nat.lt_succ_of_le (List.length_filter_le _ rest)
        rw [List.orderedInsert_of_not_le r rest hab, List.eraseDups_cons,
          filter_orderedInsert _ a hrest, if_pos (by simpa using hne.symm),
          ih _ hshort (hrest.filter _) rfl, List.filter_cons, if_pos (by simpa using hne),
          List.eraseDups_cons, List.orderedInsert_of_not_le r _ hab, List.filter_filter,
          List.filter_filter]
        simp only [Bool.and_comm]

/-- Repeats can be left out before or after the others are sorted. -/
theorem insertionSort_eraseDups (l : List α) :
    l.eraseDups.insertionSort r = (l.insertionSort r).eraseDups := by
  generalize hn : l.length = n
  induction n using Nat.strongRecOn generalizing l with
  | ind n ih =>
    cases l with
    | nil => rfl
    | cons a rest =>
      have hshort : (rest.filter fun b => !b == a).length < n := by
        rw [← hn, List.length_cons]
        exact Nat.lt_succ_of_le (List.length_filter_le _ rest)
      rw [List.eraseDups_cons, List.insertionSort_cons, ih _ hshort _ rfl, insertionSort_filter,
        List.insertionSort_cons, eraseDups_orderedInsert a (List.pairwise_insertionSort r rest)]

end MetricScope
