import Formula.Proofs.Double.Sign
import Formula.Sampling

/-! The cells of a grid that are shown as brackets: over them, the values cross zero. -/

namespace Formula.Sampling

open Double (Vanishes mul_lt_zero_iff)

/-- Between two ends that are doubles, there is a grid of any number of points but none and one. -/
theorem grid_whole (settings : Settings) {start stop : Number} {first last : Float} {count : Int}
    (several : 2 ≤ count) (atStart : start.toFloat = .ok first) (atStop : stop.toFloat = .ok last) :
    grid settings start stop (some (.whole count)) = .ok (evenGrid first last count.toNat) := by
  -- A whole number of at least two passes the check, and is not truncated.
  have enough : (Number.whole count).isBelow (.whole 2) = false := by
    rw [Bool.eq_false_iff]
    intro few
    simp only [Number.isBelow, Number.compare?, beq_iff_eq, Option.some.injEq,
      Int.compare_eq_lt] at few
    omega
  simp [grid, pointCount, Number.truncate, Except.map, Except.mapError, atStart, atStop, enough,
    Setting.required, Number.whole?, bind, Except.bind, pure, Except.pure]

/-- Two values are finite, and zero is strictly between them. -/
def Crosses (before after : Float) : Prop :=
  before.isFinite = true ∧ after.isFinite = true ∧
    (before < 0 ∧ 0 < after ∨ 0 < before ∧ after < 0)

instance (before after : Float) : Decidable (Crosses before after) :=
  inferInstanceAs (Decidable (_ ∧ _ ∧ _))

/-- The samples on both sides of each cell of a grid: a point and its value, twice. -/
def cells (xs ys : List Float) : List ((Float × Float) × (Float × Float)) :=
  (xs.zip ys).zip (xs.zip ys).tail

/-- The ends of the cells whose values are in a relation, in the order of the grid. -/
def cellsWhere (related : Float → Float → Prop) [DecidableRel related] (xs ys : List Float) :
    List (Float × Float) :=
  ((cells xs ys).filter fun cell => related cell.1.2 cell.2.2).map fun cell =>
    (cell.1.1, cell.2.1)

/-- A cell lies between a place and the next one. -/
theorem getElem?_cells {xs ys : List Float} {place : Nat}
    {first second : Float × Float} :
    (cells xs ys)[place]? = some (first, second) ↔
      (xs[place]? = some first.1 ∧ ys[place]? = some first.2) ∧
        xs[place + 1]? = some second.1 ∧ ys[place + 1]? = some second.2 := by
  -- A cell pairs each sample with the one in the tail at the same place.
  simp only [cells, List.getElem?_zip_eq_some, List.getElem?_tail]

/-- Values of samples change sign when they cross zero, unless their product is rounded to zero. -/
theorem changesSign_iff {before after : Float} :
    changesSign before after = true ↔ Crosses before after ∧ ¬Vanishes before after := by
  -- The product is negative for opposite signs, unless it is too small for a double.
  simp only [changesSign, Crosses, Bool.and_eq_true, decide_eq_true_eq, mul_lt_zero_iff, and_assoc]

/-- The cells of a grid are its first cell, if that is wanted, and those after it. -/
theorem cellsWhere_cons (related : Float → Float → Prop) [DecidableRel related]
    (left right before after : Float) (xs ys : List Float) :
    cellsWhere related (left :: right :: xs) (before :: after :: ys) =
      if related before after then
        (left, right) :: cellsWhere related (right :: xs) (after :: ys)
      else cellsWhere related (right :: xs) (after :: ys) := by
  -- The first two samples make the first cell, and the second one begins the others.
  by_cases wanted : related before after <;> simp [cellsWhere, cells, wanted]

/-- The cells at whose ends the values change sign are shown in the order of the grid. -/
theorem signChanges_eq (xs ys : List Float) :
    signChanges xs ys =
      cellsWhere (fun before after => Crosses before after ∧ ¬Vanishes before after) xs ys := by
  -- The induction takes one cell of the grid at a time.
  fun_induction signChanges xs ys with
  | case1 left right xs before after ys later changes ih =>
    rw [cellsWhere_cons, if_pos (changesSign_iff.mp changes), ← ih]
  | case2 left right xs before after ys later same ih =>
    rw [cellsWhere_cons, if_neg (mt changesSign_iff.mpr same), ← ih]
  | case3 xs ys short =>
    -- With fewer than two samples there are no cells.
    have none : cells xs ys = [] := by
      rcases xs with _ | ⟨left, _ | ⟨right, xs⟩⟩
      · rfl
      · cases ys <;> rfl
      · rcases ys with _ | ⟨before, _ | ⟨after, ys⟩⟩
        · rfl
        · rfl
        · exact (short left right xs before after ys rfl rfl).elim
    rw [cellsWhere, none, List.filter_nil, List.map_nil]

/-- For as many values as points, the brackets are the cells that are not hidden by rounding. -/
theorem brackets_eq {xs ys : List Float} (paired : xs.length = ys.length) :
    brackets xs ys = .ok (cellsWhere
      (fun before after => Crosses before after ∧ ¬Vanishes before after) xs ys) := by
  -- With as many values as points, no sample is left alone.
  rw [brackets, if_pos paired, signChanges_eq]

/-- Of the cells that are wanted, a further condition leaves all exactly if it holds of each. -/
theorem cellsWhere_and_eq_iff {related further : Float → Float → Prop} [DecidableRel related]
    [DecidableRel further] {xs ys : List Float} :
    cellsWhere (fun before after => related before after ∧ further before after) xs ys =
        cellsWhere related xs ys ↔
      ∀ cell ∈ cells xs ys, related cell.1.2 cell.2.2 → further cell.1.2 cell.2.2 := by
  constructor
  · -- Cells that are left out are missing in the length.
    intro same
    have lengths := congrArg List.length same
    simp only [cellsWhere, List.length_map, Bool.decide_and] at lengths
    simp only [Bool.and_comm (decide (related _ _)), ← List.filter_filter,
      List.length_filter_eq_length_iff, List.mem_filter, decide_eq_true_eq] at lengths
    exact fun cell member wanted => lengths cell ⟨member, wanted⟩
  · -- With the further condition in each of them, the two filters agree.
    intro each
    unfold cellsWhere
    congr 1
    refine List.filter_congr fun cell member => ?_
    simpa using each cell member

/--
The brackets of a grid are the cells over which the values cross zero, unless a product vanishes.

For as many values as points, the brackets are given in the order of the grid: those of the cells
over which two finite values of opposite signs have a product that is not rounded to zero. All cells
over which values cross zero are among them exactly if there is no other such cell.
-/
theorem brackets_exact {xs ys : List Float} (paired : xs.length = ys.length) :
    brackets xs ys = .ok (cellsWhere
        (fun before after => Crosses before after ∧ ¬Vanishes before after) xs ys) ∧
      (brackets xs ys = .ok (cellsWhere Crosses xs ys) ↔
        ∀ place before after, ys[place]? = some before → ys[place + 1]? = some after →
          Crosses before after → ¬Vanishes before after) := by
  refine ⟨brackets_eq paired, ?_⟩
  rw [brackets_eq paired, Except.ok.injEq, cellsWhere_and_eq_iff]
  constructor
  · intro each place before after first second
    -- The values at a place and the next belong to points, which are the ends of a cell.
    have point {place : Nat} {value : Float} (found : ys[place]? = some value) :
        ∃ x, xs[place]? = some x := by
      obtain ⟨within, -⟩ := List.getElem?_eq_some_iff.mp found
      exact ⟨_, List.getElem?_eq_getElem (paired ▸ within)⟩
    obtain ⟨left, atLeft⟩ := point first
    obtain ⟨right, atRight⟩ := point second
    have found : (cells xs ys)[place]? = some ((left, before), right, after) :=
      getElem?_cells.mpr ⟨⟨atLeft, first⟩, atRight, second⟩
    have relates := each ((left, before), right, after) (List.mem_of_getElem? found)
    exact relates
  · -- Conversely, each cell is found at its place, with the two values there.
    rintro each ⟨first, second⟩ member
    obtain ⟨place, found⟩ := List.getElem?_of_mem member
    obtain ⟨⟨-, valueFirst⟩, -, valueSecond⟩ := getElem?_cells.mp found
    exact each place first.2 second.2 valueFirst valueSecond

/-- Where the signs of four values differ twice, both cells are brackets, however small. -/
theorem brackets_exact_four :
    [(0 : Float), 1, 2, 3].length = [(1e-100 : Float), -1e-200, -1, 1e-320].length ∧
      brackets [0, 1, 2, 3] [1e-100, -1e-200, -1, 1e-320] = .ok [(0, 1), (2, 3)] := by
  -- Small as the products are, none of them is below the least double.
  have paired : [(0 : Float), 1, 2, 3].length = [(1e-100 : Float), -1e-200, -1, 1e-320].length := by
    simp only [List.length_cons]
  refine ⟨paired, ?_⟩
  rw [(brackets_exact paired).1, cellsWhere_cons, if_pos (by decide +kernel), cellsWhere_cons,
    if_neg (by decide +kernel), cellsWhere_cons, if_pos (by decide +kernel)]
  simp only [cellsWhere, cells, List.zip_cons_cons, List.tail_cons, List.zip_nil_right,
    List.filter_nil, List.map_nil]

/-- Over a cell whose values are among the smallest doubles, a crossing of zero is not shown. -/
theorem brackets_crossing_unseen :
    brackets [0, 1] [-1e-200, 1e-200] = .ok [] ∧
      cellsWhere Crosses [0, 1] [-1e-200, 1e-200] = [(0, 1)] := by
  -- The product of both values is rounded to zero.
  have paired : [(0 : Float), 1].length = [(-1e-200 : Float), 1e-200].length := by
    simp only [List.length_cons]
  rw [brackets_eq paired, cellsWhere_cons, if_neg (by decide +kernel),
    cellsWhere_cons, if_pos (by decide +kernel)]
  exact ⟨rfl, rfl⟩

end Formula.Sampling
