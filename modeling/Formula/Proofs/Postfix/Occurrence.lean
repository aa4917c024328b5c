import Formula.Proofs.Postfix.Conservation
import Mathlib.Data.List.FinRange
import Mathlib.Data.List.Sort

/-! Equal tokens told apart by their places: which of them a postfix order takes, and when. -/

namespace Formula

/-- A literal stands at a place of a row. -/
def literalAt (tokens : List Token) (place : Fin tokens.length) : Bool :=
  tokens[place].kind == .literal

namespace Postfix

variable {respecting : Bool} {tokens ordered : List Token}

/-- An order takes each operand and operation once, and none before a literal on its left. -/
structure TakenFrom (tokens ordered : List Token) (places : List (Fin tokens.length)) : Prop where
  /-- The order is what is read at the places, one after the other. -/
  reads : places.map tokens.get = ordered
  /-- Each place is taken once, except for those of parentheses and commas. -/
  once : places.Perm (keptBy tokens.get (List.finRange tokens.length))
  /-- The literals are taken from left to right. -/
  literals : places.filter (literalAt tokens) =
    (List.finRange tokens.length).filter (literalAt tokens)
  /-- Whatever is kept on the right of a literal is taken after it. -/
  behind : ∀ earlier later : Fin tokens.length, earlier < later →
    tokens[earlier].kind = .literal → tokens[later].kind.isKept = true →
      [earlier, later].Sublist places

section Pairs

variable {α : Type} {first second : α} {items taken : List α}

/-- Without repetitions, two items stand in one order only. -/
theorem not_sublist_swapped (distinct : items.Nodup) (before : [first, second].Sublist items) :
    ¬ [second, first].Sublist items := by
  -- The item in front of the others would have to stand further behind as well.
  intro after
  induction items with
  | nil => cases before
  | cons item rest ih =>
    rw [List.nodup_cons] at distinct
    cases before with
    | cons _ before =>
      cases after with
      | cons _ after => exact ih distinct.2 before after
      | cons_cons _ _ => exact distinct.1 (before.mem (by simp))
    | cons_cons _ _ =>
      cases after with
      | cons _ after => exact distinct.1 (after.mem (by simp))
      | cons_cons _ after => exact distinct.1 (after.mem (by simp))

/-- The same items are in the same order if each two of them are. -/
theorem eq_of_pairs (distinct : items.Nodup) (perm : taken.Perm items)
    (pairs : ∀ {first second : α}, [first, second].Sublist items →
      [first, second].Sublist taken) : taken = items := by
  -- Both rows are sorted by which of two items is taken first.
  have distinctTaken : taken.Nodup := perm.nodup_iff.mpr distinct
  refine perm.eq_of_pairwise (fun first second _ _ before after => ?_)
    (List.pairwise_iff_forall_sublist.mpr fun {first second} before => before)
    (List.pairwise_iff_forall_sublist.mpr fun {first second} before => pairs before)
  -- Without repetitions, no two items can be taken both ways.
  exact absurd after (not_sublist_swapped distinctTaken before)

end Pairs

/-- Two places of a row are found in it from left to right. -/
theorem sublist_finRange {count : Nat} {earlier later : Fin count} (lt : earlier < later) :
    [earlier, later].Sublist (List.finRange count) := by
  -- Sorted rows without repetitions contain each other as sets do.
  have distinct : [earlier, later].Nodup := by simp [lt.ne]
  have sorted : [earlier, later].SortedLE := by
    rw [List.sortedLE_iff_pairwise]
    simp [lt.le]
  have subset : [earlier, later] ⊆ List.finRange count := fun place _ => List.mem_finRange place
  exact List.sublist_of_subperm_of_sortedLE (List.subperm_of_subset distinct subset) sorted
    (List.sortedLT_finRange count).sortedLE

/-- The second of two places that are found in a row is on the right of the first. -/
theorem lt_of_sublist_finRange {count : Nat} {earlier later : Fin count}
    (before : [earlier, later].Sublist (List.finRange count)) : earlier < later :=
  -- The row of all places is sorted, so that what is found in it is so pairwise.
  List.pairwise_iff_forall_sublist.mp (List.sortedLT_finRange count).pairwise before

/-- Literals of which none is overtaken are taken from left to right. -/
theorem filter_literalAt {places : List (Fin tokens.length)}
    (once : places.Perm (keptBy tokens.get (List.finRange tokens.length)))
    (behind : ∀ earlier later : Fin tokens.length, earlier < later →
      tokens[earlier].kind = .literal → tokens[later].kind.isKept = true →
        [earlier, later].Sublist places) :
    places.filter (literalAt tokens) =
      (List.finRange tokens.length).filter (literalAt tokens) := by
  have kind : ∀ {place : Fin tokens.length}, literalAt tokens place = true →
      tokens[place].kind = .literal := fun isLiteral => beq_iff_eq.mp isLiteral
  have isKept : ∀ {place : Fin tokens.length}, literalAt tokens place = true →
      tokens[place].kind.isKept = true := by
    intro place isLiteral
    rw [kind isLiteral]
    rfl
  -- Literals are kept, so the same ones are among the places as in the row.
  have same : (places.filter (literalAt tokens)).Perm
      ((List.finRange tokens.length).filter (literalAt tokens)) := by
    have chosen := once.filter (literalAt tokens)
    rw [keptBy, List.filter_filter] at chosen
    refine chosen.trans (List.Perm.of_eq (List.filter_congr fun place _ => ?_))
    exact Bool.and_eq_left_iff_imp.mpr isKept
  -- Each two of them are taken in their order.
  refine eq_of_pairs ((List.nodup_finRange _).filter _) same fun {earlier later} before => ?_
  -- The pair is among the literals of the row, from left to right.
  have chosen : ∀ place ∈ [earlier, later], literalAt tokens place = true := fun place member =>
    (List.mem_filter.mp (before.mem member)).2
  have lt : earlier < later := lt_of_sublist_finRange (before.trans List.filter_sublist)
  have taken := (behind earlier later lt (kind (chosen earlier (by simp)))
    (isKept (chosen later (by simp)))).filter (literalAt tokens)
  rwa [List.filter_eq_self.mpr chosen] at taken

/--
On the way to postfix order nothing is lost, nothing is taken twice, and no literal is overtaken.

Whatever the tokens are, if they have a postfix order then it is made of their literals, operators
and functions. Equal tokens are told apart by their places: each place is taken once, literals are
taken from left to right, and an operator or function is taken after all literals on its left.
-/
theorem exists_takenFrom_of_order (ran : order respecting tokens = .ok ordered) :
    ordered.Perm (kept tokens) ∧ ∃ places, TakenFrom tokens ordered places := by
  refine ⟨?_, ?_⟩
  · -- The conversion starts on an empty stack, which keeps nothing.
    have perm := perm_of_orderFrom (by simp [Waiting]) ran
    rwa [kept, kept, List.filter_nil, List.append_nil] at perm
  · -- The tokens are those at their places, and all of them are still to come.
    have placed : orderFrom respecting (List.map tokens.get [])
        ((List.finRange tokens.length).map tokens.get) = .ok ordered := by
      rw [List.map_get_finRange]
      exact ran
    obtain ⟨places, reads, once, pairs⟩ := exists_items_of_orderFrom (by simp [Waiting]) placed
    rw [keptBy, keptBy, List.filter_nil, List.append_nil, ← keptBy] at once
    have behind : ∀ earlier later : Fin tokens.length, earlier < later →
        tokens[earlier].kind = .literal → tokens[later].kind.isKept = true →
          [earlier, later].Sublist places := by
      intro earlier later lt literal isKept
      exact pairs (sublist_finRange lt) literal isKept
    exact ⟨places, reads, once, filter_literalAt once behind, behind⟩

/-- Nothing is lost from `2 ^ (2 - , f 2) ^`, in which numbers and operators come twice. -/
theorem exists_takenFrom_of_order_repeated :
    let tokens : List Token := [⟨"2", .literal⟩, ⟨"^", .operator⟩, ⟨"(", .leftParen⟩,
      ⟨"2", .literal⟩, ⟨"-", .operator⟩, ⟨",", .comma⟩, ⟨"f", .function⟩, ⟨"2", .literal⟩,
      ⟨")", .rightParen⟩, ⟨"^", .operator⟩]
    let ordered : List Token := [⟨"2", .literal⟩, ⟨"2", .literal⟩, ⟨"-", .operator⟩,
      ⟨"2", .literal⟩, ⟨"f", .function⟩, ⟨"^", .operator⟩, ⟨"^", .operator⟩]
    order true tokens = .ok ordered ∧
      ordered.Perm (kept tokens) ∧ ∃ places, TakenFrom tokens ordered places := by
  intro tokens ordered
  -- The comma splits nothing and only empties the stack down to its parenthesis.
  have ran : order true tokens = .ok ordered := by decide +kernel
  exact ⟨ran, exists_takenFrom_of_order ran⟩

end Postfix

end Formula
