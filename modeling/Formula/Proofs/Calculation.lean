import Formula.Calculation
import Formula.Operand
import Mathlib.Algebra.BigOperators.Group.List.Basic
import Mathlib.Tactic.SplitIfs

/-! Single operations on doubles come to the same as the steps of a calculation with operands. -/

namespace Formula

namespace Quantity

/-- A quantity of doubles as it is given to a single operation. -/
def given (q : Quantity Float) : Quantity Number :=
  ⟨q.arrangement, q.cells.map .real⟩

/-- It makes no difference to a quantity how its arrangement is written. -/
theorem mk_cast {arrangement other : Arrangement} (same : arrangement = other)
    (cells : Vector Float arrangement.size) :
    Quantity.mk other (cells.cast (congrArg Arrangement.size same)) = ⟨arrangement, cells⟩ := by
  -- Once the two arrangements are one, the cast is along an equality of a number with itself.
  subst same
  rfl

/-- What is done to a single number is done to the only cell of its rectangle. -/
theorem single_map {α β : Type} (f : α → β) (value : α) :
    single (f value) = ⟨.rectangle [], Vector.map f #v[value]⟩ := by
  have mapped : Vector.map f #v[value] = #v[f value] := by simp
  exact congrArg (Quantity.mk (.rectangle [])) mapped.symm

/-- A single double is given as a single number. -/
theorem given_single (value : Float) : (single value).given = single (.real value) :=
  -- Giving a quantity maps its cells, so that this is the previous lemma for `Number.real`.
  (single_map Number.real value).symm

/-- A rectangle without axes is a single number. -/
theorem exists_eq_single (cells : Vector Float (Arrangement.rectangle []).size) :
    ∃ value, Quantity.mk (.rectangle []) cells = single value := by
  refine ⟨cells[0], congrArg (Quantity.mk (.rectangle [])) ?_⟩
  ext place within
  -- Its only place is the first one.
  obtain rfl : place = 0 := Nat.lt_one_iff.mp within
  rfl

end Quantity

/-- The quantity that an operand of a calculation over an arrangement is. -/
def Operand.quantity (arrangement : Arrangement) : Operand arrangement.size → Quantity Float
  | single value => .single value
  | row cells => ⟨arrangement, cells⟩

/-- An arrangement has as many cells as its shape. -/
theorem Arrangement.size_eq_prod (arrangement : Arrangement) :
    arrangement.size = arrangement.shape.prod := by
  cases arrangement with
  | rectangle shape => rfl
  -- A series has a single axis, as long as it has labels.
  | series labels => exact List.prod_singleton.symm

namespace Shape

/-- Lengths agree with themselves along every axis. -/
theorem joinInward?_self (s : List Nat) : joinInward? s s = some s := by
  -- Along the rows, innermost first: every pair of lengths is equal, so none is refused.
  induction s with
  | nil => rfl
  | cons length rest ih => simp [joinInward?, joinLengths?, ih]

/-- A shape is joined with itself to itself. -/
theorem join?_self (s : Shape) : s.join? s = some s := by
  simp [join?, joinInward?_self]

/-- A single cell is repeated to any shape. -/
theorem join?_nil (s : Shape) : s.join? [] = some s := by
  rw [join?, List.reverse_nil]
  -- The rows are turned around for joining, and back again.
  cases reversed : s.reverse with
  | nil =>
    rw [List.reverse_eq_nil_iff.mp reversed]
    rfl
  | cons length rest => simp [joinInward?, ← reversed]

/-- The shape that comes after a single cell is the one that the cell is repeated to. -/
theorem nil_join? (s : Shape) : join? [] s = some s := by
  -- The empty shape runs out at once, and the rest of the other one is taken over as it is.
  simp [join?, joinInward?]

/-- All cells of a shape share a single number on the right. -/
theorem sharesSecond_nil (s : Shape) : s.sharesSecond [] s = true := by
  -- A single number has no innermost axis along which its cells could differ.
  cases s <;> simp [sharesSecond]

/-- The cells of a shape with axes do not share those on the right with a single number left. -/
theorem nil_sharesSecond {s : Shape} (axes : s ≠ []) : sharesSecond [] s s = false := by
  cases s with
  | nil => exact absurd rfl axes
  | cons length rest => rfl

/-- The cells of a shape with axes do not share those of the same shape on the right. -/
theorem sharesSecond_self {s : Shape} (axes : s ≠ []) : s.sharesSecond s s = false := by
  cases s with
  | nil => exact absurd rfl axes
  | cons length rest => simp [sharesSecond]

/-- Where nothing is repeated, each cell comes from its own place. -/
theorem sourcePlace_self (s : List Nat) : ∀ {place : Nat}, place < s.prod →
    sourcePlace s s place = place := by
  -- The places are read as digits, one for each axis, from the innermost axis outwards.
  induction s with
  | nil =>
    intro place within
    rw [List.prod_nil, Nat.lt_one_iff] at within
    exact within.symm
  | cons length rest ih =>
    intro place within
    rw [List.prod_cons] at within
    -- Without the innermost digit, the place is one of the other axes, to which `ih` applies.
    have quotient : place / length < rest.prod := Nat.div_lt_of_lt_mul within
    rw [sourcePlace, ih quotient]
    -- An axis with one place adds nothing, and its quotient is the place itself.
    split_ifs with alone
    · rw [alone, Nat.div_one, Nat.one_mul, Nat.zero_add]
    · exact Nat.mod_add_div place length

end Shape

/-- Labels are aligned with the same labels place by place. -/
theorem Alignment.exists_rows_self (labels : List Label) :
    ∃ found, rows labels labels = .ok found ∧ found.map AlignedRow.label = labels ∧
      ∀ place (within : place < found.length),
        found[place].left = some place ∧ found[place].right = some place := by
  -- Equal labels are never searched for: the rows are the labels with their own places.
  refine ⟨_, if_pos rfl, ?_, ?_⟩
  · rw [List.map_map]
    exact List.zipIdx_map_fst 0 labels
  · intro place within
    simp

namespace Cells

variable {n : Nat} (values others : Vector Float n)

/-- The doubles nearest to doubles are these themselves. -/
theorem map_nearest_real : (values.map Number.real).map Number.nearest = values := by
  -- Rounding undoes the embedding cell by cell, since a double is nearest to itself.
  rw [Vector.map_map]
  exact Vector.map_id values

/-- Doubles have no word to be kept in, if there are any. -/
theorem mapM_word_real {α : Type} {word? : Number → Option α}
    (refused : ∀ x, word? (.real x) = none) (filled : n ≠ 0) :
    (values.map Number.real).mapM word? = none := by
  have never : word? ∘ Number.real = fun _ => none := funext refused
  rw [Vector.mapM_map, never]
  -- Already the first of the doubles has none.
  by_contra found
  obtain ⟨words, found⟩ := Option.ne_none_iff_exists'.mp found
  -- Vectors have no equation for a first cell, so that the search is moved to lists.
  have rows : Vector.toArray <$> values.mapM (fun _ => none) =
      List.toArray <$> values.toList.mapM (fun _ => (none : Option α)) := by
    rw [Vector.toArray_mapM, ← List.mapM_toArray]
    rfl
  rw [found] at rows
  cases entries : values.toList with
  | nil => exact filled (by simpa using congrArg List.length entries)
  | cons first rest =>
    rw [entries, List.mapM_cons] at rows
    cases rows

/-- Neither kind of words holds doubles, if there are any. -/
theorem mapM_words_real (filled : n ≠ 0) :
    (values.map Number.real).mapM Number.signed? = none ∧
      (values.map Number.real).mapM Number.unsigned? = none :=
  ⟨mapM_word_real values (fun _ => rfl) filled, mapM_word_real values (fun _ => rfl) filled⟩

/-- What is said of whole numbers only is said of no double in a row. -/
theorem any_real {holds : Number → Bool} (never : ∀ x, holds (.real x) = false) :
    (values.map Number.real).any holds = false := by
  -- A vector satisfies nothing as soon as none of its cells does.
  rw [Vector.any_map]
  exact Vector.any_eq_false.mpr fun place within => by simp [never]

/-- Doubles that are given in a rectangle are kept as doubles. -/
theorem ofRectangle_real : ofRectangle (values.map .real) = double values := by
  -- No double is a boolean or too large, so that only the search for words is left.
  unfold ofRectangle
  rw [any_real values fun _ => rfl, map_nearest_real, if_neg Bool.false_ne_true]
  by_cases empty : n = 0
  · rw [if_pos empty]
  · obtain ⟨signed, unsigned⟩ := mapM_words_real values empty
    rw [if_neg empty, signed, unsigned]

/-- Doubles that are given in a series are kept as doubles, if there are any. -/
theorem ofSeries_real (filled : n ≠ 0) : ofSeries (values.map .real) = .ok (double values) := by
  obtain ⟨signed, unsigned⟩ := mapM_words_real values filled
  -- A double never outgrows the words that a series offers.
  have checked : checkOutgrown (values.map Number.real) = .ok () := by
    have none : (values.map Number.real).find? Number.outgrowsWords = none := by
      have whole (x : Float) : Number.outgrowsWords (.real x) = false := rfl
      simp [whole]
    rw [checkOutgrown, none]
  -- Exactness is asked for by large whole numbers only, and there are none.
  have exactly : needExactness (values.map Number.real) = false := by
    rw [needExactness, any_real values fun _ => rfl, any_real values fun _ => rfl]
    rfl
  unfold ofSeries
  rw [checked, exactly, signed, unsigned, map_nearest_real]
  simp [filled, bind, Except.bind, pure, Except.pure]

/-- An operation on one row of doubles acts on each of them. -/
theorem unary_double (operation : UnaryOperation) :
    (double values).unary operation = .ok (double (values.map operation.apply)) := by
  -- Every operation reads its cells through `nearest`, which gives these doubles back.
  have nearest : (double values).nearest = values := map_nearest_real values
  cases operation <;> simp only [unary, nearest]

/-- An operation on two rows of doubles acts on each pair of them. -/
theorem binary_double (operation : BinaryOperation) (shared : Bool) :
    binary operation shared (double values) (double others) =
      .ok (double (combineDoubles operation shared values others)) := by
  -- All operations convert both sides first, whatever they do with the results.
  have first : (double values).nearest = values := map_nearest_real values
  have second : (double others).nearest = others := map_nearest_real others
  cases operation <;> simp only [binary, first, second]

/-- It makes no difference to combined doubles how their number is written. -/
theorem combineDoubles_cast {m : Nat} (same : m = n) (operation : BinaryOperation) (shared : Bool)
    (row others : Vector Float m) :
    combineDoubles operation shared (row.cast same) (others.cast same) =
      (combineDoubles operation shared row others).cast same := by
  subst same
  rfl

/-- Nothing is repeated where a row is picked for its own shape. -/
theorem entriesAt_self (arrangement : Arrangement) (row : Vector Float arrangement.size) :
    entriesAt 0 (arrangement.shape.sourcePlaces arrangement.shape) row =
      row.cast arrangement.size_eq_prod := by
  ext place within
  -- Each cell of the shape comes from its own place in the row.
  have turned : place < arrangement.shape.reverse.prod := by
    rwa [List.prod_reverse]
  have inside : place < arrangement.size := by
    rwa [arrangement.size_eq_prod]
  simp [entriesAt, Shape.sourcePlaces, Shape.sourcePlace_self _ turned, inside]

/-- A single number is picked for every cell of a shape. -/
theorem entriesAt_nil (arrangement : Arrangement) (value : Float) :
    entriesAt 0 (Shape.sourcePlaces [] arrangement.shape) #v[value] =
      (Vector.replicate arrangement.size value).cast arrangement.size_eq_prod := by
  -- All places of the result lead to the first place of the source, the only one.
  ext place within
  simp [entriesAt, Shape.sourcePlaces, Shape.sourcePlace]

/-- A row that is aligned with its own places keeps its doubles. -/
theorem align_own {m : Nat} (same : m = n) {places : Vector (Option Nat) n}
    (own : ∀ place (within : place < n), places[place] = some place) (row : Vector Float m) :
    (double row).align places = double (row.cast same) := by
  -- Both numbers are the same, but only after the labels have been compared.
  subst same
  have present : places = (Vector.ofFn fun place : Fin m => place.val).map some := by
    ext1 place within
    rw [own place within, Vector.getElem_map, Vector.getElem_ofFn]
  -- No place is missing, so that the row is only picked from.
  have found : places.mapM id = some (Vector.ofFn fun place : Fin m => place.val) := by
    have each : id ∘ some = fun place : Nat => pure (id place) := rfl
    rw [present, Vector.mapM_map, each, Vector.mapM_pure, Vector.map_id]
    rfl
  -- Picking the places in their order gives the row back.
  have kept : entriesAt 0 (Vector.ofFn fun place : Fin m => place.val) row = row := by
    ext place within
    simp [entriesAt, within]
  simp only [align, found, pick, kept]
  rfl

/-- Doubles that stay in number are the same doubles. -/
theorem cast_double {m : Nat} (same : m = n) (row : Vector Float m) :
    (double row).cast same = double (row.cast same) := by
  subst same
  rfl

end Cells

namespace Block

/-- The block that a quantity of doubles is. -/
def doubles (q : Quantity Float) : Block :=
  ⟨q.arrangement, .double q.cells⟩

/-- A quantity of doubles is given as a block of doubles. -/
theorem ofQuantity_given (q : Quantity Float) (filled : q.arrangement.size ≠ 0) :
    ofQuantity q.given = .ok (doubles q) := by
  obtain ⟨arrangement, cells⟩ := q
  cases arrangement with
  | rectangle shape =>
    cases shape with
    | nil =>
      -- A single number is converted by itself.
      obtain ⟨value, same⟩ := Quantity.exists_eq_single cells
      rw [same, Quantity.given_single]
      rfl
    | cons length rest =>
      exact congrArg (fun kept => Except.ok (Block.mk _ kept)) (Cells.ofRectangle_real cells)
  -- A series of doubles has at least one cell here, so that its search for words ends.
  | series labels =>
    simp only [ofQuantity, Quantity.given, Cells.ofSeries_real cells filled]
    rfl

/-- The quantity of a block of doubles is the one that it was made of. -/
theorem toQuantity_doubles (q : Quantity Float) : (doubles q).toQuantity = .ok q := by
  -- Every cell is a double already, and its conversion cannot fail.
  have converted : (q.cells.map Number.real).mapM Number.toFloat = .ok q.cells := by
    have each : Number.toFloat ∘ Number.real = fun x => pure (id x) := rfl
    rw [Vector.mapM_map, each, Vector.mapM_pure, Vector.map_id]
    rfl
  simp only [toQuantity, doubles, Cells.numbers, Quantity.toDoubles, converted]
  rfl

/-- Doubles keep their labels when they are put into the shape of a series. -/
theorem withLabels_doubles (labels : List Label)
    (row : Vector Float (Arrangement.series labels).size) :
    withLabels labels (Arrangement.series labels).shape
      (.double (row.cast (Arrangement.series labels).size_eq_prod)) =
      .ok (doubles ⟨.series labels, row⟩) := by
  -- The cast to the shape and the one back to the labels cancel.
  have restored (same : (Arrangement.series labels).size = [labels.length].prod) :
      (Cells.double (row.cast same)).cast same.symm = .double row := by
    rw [Cells.cast_double]
    rfl
  simp only [Arrangement.shape, withLabels, dif_pos]
  exact congrArg (fun kept => Except.ok (Block.mk (.series labels) kept)) (restored _)

variable {operation : BinaryOperation} {arrangement : Arrangement}

/-- Two blocks of doubles are combined in the arrangement whose shape they are joined to. -/
theorem combineShapes_doubles {q r : Quantity Float} {row others : Vector Float arrangement.size}
    {shared : Bool} (joins : q.arrangement.shape.join? r.arrangement.shape = some arrangement.shape)
    (labels : ((doubles q).labels? <|> (doubles r).labels?) = (doubles ⟨arrangement, row⟩).labels?)
    (shares : q.arrangement.shape.sharesSecond r.arrangement.shape arrangement.shape = shared)
    (firsts : Cells.entriesAt 0 (q.arrangement.shape.sourcePlaces arrangement.shape) q.cells =
      row.cast arrangement.size_eq_prod)
    (seconds : Cells.entriesAt 0 (r.arrangement.shape.sourcePlaces arrangement.shape) r.cells =
      others.cast arrangement.size_eq_prod) :
    combineShapes operation (doubles q) (doubles r) =
      .ok (doubles ⟨arrangement, Cells.combineDoubles operation shared row others⟩) := by
  -- What the two shapes decide enters by the hypotheses; the cells are combined as doubles.
  unfold combineShapes
  rw [labels]
  simp only [doubles, joins, shares, firsts, seconds, Cells.pick, Cells.binary_double,
    Cells.combineDoubles_cast, Except.mapError, bind, Except.bind]
  -- A rectangle has no labels, and a series puts its own back.
  cases arrangement with
  | rectangle shape => rfl
  | series names =>
    simp only [labels?]
    rw [withLabels_doubles names]
    rfl

/-- Two series with the same labels are matched place by place. -/
theorem combineSeries_doubles (labels : List Label) (row others : Vector Float labels.length) :
    combineSeries operation labels labels (.double row) (.double others) =
      .ok (doubles ⟨.series labels, row.zipWith operation.applyCell others⟩) := by
  obtain ⟨rows, aligned, names, own⟩ := Alignment.exists_rows_self labels
  have counted : labels.length = (rows.map AlignedRow.label).length :=
    congrArg List.length names.symm
  unfold combineSeries
  simp only [aligned, Except.mapError, bind, Except.bind]
  rw [Cells.align_own counted (fun place within => by simp [own]) row,
    Cells.align_own counted (fun place within => by simp [own]) others, Cells.binary_double]
  -- The labels that come back are the same ones, so that only the numbers have to be compared.
  rw [Cells.combineDoubles_cast]
  exact congrArg (fun q => Except.ok (doubles q))
    (Quantity.mk_cast (congrArg Arrangement.series names).symm _)

/-- A single number on the right is combined with every cell, and all cells share it. -/
theorem combineShapes_row_single (row : Vector Float arrangement.size) (b : Float) :
    combineShapes operation (doubles ⟨arrangement, row⟩) (doubles (.single b)) =
      .ok (doubles ⟨arrangement, row.map fun a => operation.apply a b⟩) := by
  -- A single number brings no labels, so that those of the row remain.
  have labels : ((doubles ⟨arrangement, row⟩).labels? <|> (doubles (.single b)).labels?) =
      (doubles ⟨arrangement, row⟩).labels? := by
    cases arrangement <;> rfl
  -- The number stands in every cell of a row of its own, which all cells share.
  have each : row.map (fun a => operation.apply a b) =
      Cells.combineDoubles operation true row (.replicate _ b) := by
    ext place within
    simp [Cells.combineDoubles]
  rw [each]
  exact combineShapes_doubles (Shape.join?_nil _) labels (Shape.sharesSecond_nil _)
    (Cells.entriesAt_self _ row) (Cells.entriesAt_nil arrangement b)

/-- A single number on the left is combined with every cell for itself. -/
theorem combineShapes_single_row (axes : arrangement.shape ≠ []) (a : Float)
    (row : Vector Float arrangement.size) :
    combineShapes operation (doubles (.single a)) (doubles ⟨arrangement, row⟩) =
      .ok (doubles ⟨arrangement, row.map fun b => operation.applyCell a b⟩) := by
  -- On the left the repeated number is not shared: each cell is combined alone.
  have each : row.map (fun b => operation.applyCell a b) =
      Cells.combineDoubles operation false (.replicate _ a) row := by
    ext place within
    simp [Cells.combineDoubles]
  rw [each]
  exact combineShapes_doubles (Shape.nil_join? _) rfl (Shape.nil_sharesSecond axes)
    (Cells.entriesAt_nil arrangement a) (Cells.entriesAt_self _ row)

/-- Rows of one shape are combined cell by cell. -/
theorem combineShapes_rows (axes : arrangement.shape ≠ [])
    (row others : Vector Float arrangement.size) :
    combineShapes operation (doubles ⟨arrangement, row⟩) (doubles ⟨arrangement, others⟩) =
      .ok (doubles ⟨arrangement, row.zipWith operation.applyCell others⟩) := by
  -- Both blocks have the same labels, so that either of them may give them.
  have labels : ((doubles ⟨arrangement, row⟩).labels? <|> (doubles ⟨arrangement, others⟩).labels?) =
      (doubles ⟨arrangement, row⟩).labels? := by
    cases arrangement <;> rfl
  exact @combineShapes_doubles operation arrangement ⟨arrangement, row⟩ ⟨arrangement, others⟩ row
    others false (Shape.join?_self _) labels (Shape.sharesSecond_self axes)
    (Cells.entriesAt_self _ row) (Cells.entriesAt_self _ others)

/-- Two single numbers are combined to a single number. -/
theorem combineShapes_singles (a b : Float) :
    combineShapes operation (doubles (.single a)) (doubles (.single b)) =
      .ok (doubles (.single (operation.apply a b))) := by
  -- A single number is a row over the shape without axes.
  rw [Quantity.single_map (operation.apply · b) a]
  exact @combineShapes_row_single operation (.rectangle []) #v[a] b

/-- Operands over an arrangement with axes are combined as blocks are. -/
theorem binary_doubles (axes : arrangement.shape ≠ []) (x y : Operand arrangement.size) :
    (doubles (x.quantity arrangement)).binary operation (doubles (y.quantity arrangement)) =
      .ok (doubles ((x.binary operation y).quantity arrangement)) := by
  -- Each of the four pairs of operands is one of the ways in which shapes are joined.
  cases x with
  | single a =>
    cases y with
    | single b => exact combineShapes_singles a b
    | row others => exact combineShapes_single_row axes a others
  | row cells =>
    cases y with
    | single b =>
      -- The result of the operand is the row of the lemma, once its arrangement is known.
      have combined := @combineShapes_row_single operation arrangement cells b
      cases arrangement <;> exact combined
    | row others =>
      -- Series are matched by their labels, even if these are the same on both sides.
      cases arrangement with
      | rectangle shape => exact combineShapes_rows axes cells others
      | series labels => exact combineSeries_doubles labels cells others

/-- Beside doubles, a quantity of doubles is given as a block of doubles. -/
theorem following_given (q r : Quantity Float) (filled : r.arrangement.size ≠ 0) :
    (doubles q).following operation r.given = .ok (doubles r) := by
  have given := ofQuantity_given r filled
  obtain ⟨arrangement, cells⟩ := r
  cases arrangement with
  | series labels => exact given
  | rectangle shape =>
    cases shape with
    | cons length rest => exact given
    | nil =>
      -- No form of words is looked for, and the single number is converted as it is by itself.
      obtain ⟨value, same⟩ := Quantity.exists_eq_single cells
      rw [same, Quantity.given_single]
      cases operation <;> rfl

/-- An operation on an operand is the operation on the block that it is. -/
theorem unary_doubles (operation : UnaryOperation) (x : Operand arrangement.size) :
    (doubles (x.quantity arrangement)).unary operation =
      .ok (doubles ((x.unary operation).quantity arrangement)) := by
  -- On blocks the operation does not look at the arrangement at all.
  have mapped (q : Quantity Float) : (doubles q).unary operation =
      .ok (doubles ⟨q.arrangement, q.cells.map operation.apply⟩) := by
    rw [unary, doubles, Cells.unary_double]
    rfl
  rw [mapped]
  cases x with
  | single value =>
    rw [Operand.unary, Operand.quantity, Operand.quantity, Quantity.single_map]
    rfl
  | row cells => rfl

end Block

/-- A logarithm is the quotient of two natural logarithms, for every kind of operands. -/
theorem Operand.binary_log {n : Nat} (x y : Operand n) :
    x.binary .log y = (x.unary .ln).binary .div (y.unary .ln) := by
  -- Both sides are computed for each of the four pairs; the quotient is the one of doubles.
  have cellwise : BinaryOperation.log.applyCell = fun a b => a.log / b.log := rfl
  have quotient : BinaryOperation.div.applyCell = fun a b => a / b := rfl
  cases x <;> cases y <;> simp [binary, unary, cellwise, quotient, BinaryOperation.apply,
    UnaryOperation.apply]

/-- An operand over an arrangement that is not empty is not empty. -/
theorem Operand.size_quantity {arrangement : Arrangement} (filled : arrangement.size ≠ 0)
    (x : Operand arrangement.size) : (x.quantity arrangement).arrangement.size ≠ 0 := by
  cases x with
  -- A single number is one cell, whatever the arrangement is.
  | single value => exact Nat.one_ne_zero
  | row cells => exact filled

namespace Quantity

variable {arrangement : Arrangement} (filled : arrangement.size ≠ 0)
include filled

/-- An operation on a given quantity is the operation on the operand that it is. -/
theorem unary_given (operation : UnaryOperation) (x : Operand arrangement.size) :
    unary operation (x.quantity arrangement).given =
      .ok ((x.unary operation).quantity arrangement) := by
  -- The operand is given as a block, operated on as a block, and read back as a quantity.
  rw [unary, Block.ofQuantity_given _ (x.size_quantity filled)]
  simp only [bind, Except.bind, Block.unary_doubles, Block.toQuantity_doubles]
  rfl

/-- An operation on two given quantities is the operation on the operands that they are. -/
theorem binary_given (operation : BinaryOperation) (axes : arrangement.shape ≠ [])
    (x y : Operand arrangement.size) :
    binary operation (x.quantity arrangement).given (y.quantity arrangement).given =
      .ok ((x.binary operation y).quantity arrangement) := by
  have first := Block.ofQuantity_given _ (x.size_quantity filled)
  have second := Block.ofQuantity_given _ (y.size_quantity filled)
  -- Conversions and joining cannot fail on doubles, so that no error is to be renamed.
  have combined : combine operation (x.quantity arrangement).given (y.quantity arrangement).given =
      .ok (Block.doubles ((x.binary operation y).quantity arrangement)) := by
    by_cases logarithm : operation = .log
    · -- A logarithm divides the natural logarithms of the two operands.
      subst logarithm
      rw [x.binary_log, combine, if_pos rfl]
      simp only [Block.logarithm, first, second, bind, Except.bind, Except.mapError,
        Block.unary_doubles, Block.binary_doubles axes]
    · rw [combine, if_neg logarithm]
      simp only [first, Block.following_given _ _ (y.size_quantity filled), bind, Except.bind,
        Except.mapError, Block.binary_doubles axes]
  rw [binary, combined]
  simp only [bind, Except.bind, Block.toQuantity_doubles]
  rfl

end Quantity

end Formula
