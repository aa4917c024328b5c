import Formula.Proofs.Decimal.Rounding
import Formula.Proofs.Number
import Formula.Proofs.Root.Sweep
import Formula.Proofs.Sampling

/-! All roots that a grid shows: each of them once, in ascending order. -/

namespace Formula

open Double (Alike rank lt_iff_rank beq_iff_rank)

namespace Root

variable {parts roots : List Float}

/-- Of given numbers, those that are kept: all of them are, but no two equal ones. -/
structure Collects (parts roots : List Float) : Prop where
  distinct : roots.Pairwise fun x y => (x == y) = false
  complete : ∀ x ∈ parts, ∃ y ∈ roots, Alike y x
  sound : ∀ y ∈ roots, y ∈ parts
  short : roots.length ≤ parts.length

/-- A number that joins those before it is kept, unless an equal one is. -/
theorem Collects.join (collects : Collects parts roots) (root : Float) :
    Collects (parts ++ [root]) (insert roots root) := by
  obtain ⟨distinct, complete, sound, short⟩ := collects
  have room : roots.length + 1 ≤ (parts ++ [root]).length := by
    rw [List.length_append, List.length_singleton]
    omega
  unfold Root.insert
  split_ifs with present
  · -- An equal number stands for it.
    obtain ⟨other, member, equal⟩ := List.any_eq_true.mp present
    refine ⟨distinct, fun x listed => ?_, fun y listed => List.mem_append_left _ (sound y listed),
      by omega⟩
    rcases List.mem_append.mp listed with before | last
    · exact complete x before
    · rw [List.mem_singleton.mp last]
      exact ⟨other, member, .inl equal⟩
  · -- It comes last, and differs from all before it.
    have new : ∀ y ∈ roots, (y == root) = false := by simpa using present
    refine ⟨?_, fun x listed => ?_, fun y listed => ?_, by simpa using short⟩
    · refine List.pairwise_append.mpr ⟨distinct, List.pairwise_singleton .., ?_⟩
      intro y listed x last
      rw [List.mem_singleton.mp last]
      exact new y listed
    · rcases List.mem_append.mp listed with before | last
      · obtain ⟨y, member, equal⟩ := complete x before
        exact ⟨y, List.mem_append_left _ member, equal⟩
      · exact ⟨x, List.mem_append_right _ last, .refl x⟩
    · rcases List.mem_append.mp listed with before | last
      · exact List.mem_append_left _ (sound y before)
      · exact List.mem_append_right _ last

/-- Of numbers that join one after the other, all are kept but no two equal ones. -/
theorem Collects.foldl (collects : Collects parts roots) (more : List Float) :
    Collects (parts ++ more) (more.foldl insert roots) := by
  -- The induction is on the numbers still to come.
  induction more generalizing parts roots with
  | nil => rwa [List.append_nil]
  | cons root rest ih =>
    have joined := ih (collects.join root)
    rwa [List.append_assoc] at joined

/-- At the start nothing is kept. -/
theorem Collects.nil : Collects [] [] :=
  ⟨.nil, nofun, nofun, Nat.le_refl 0⟩

/-- Sorting keeps what there is. -/
theorem perm_ascending (roots : List Float) : (ascending roots).Perm roots :=
  List.mergeSort_perm ..

end Root

/-- Every result in a row belongs to some item. -/
theorem exists_of_mem_right {α β : Type} {related : α → β → Prop} {items : List α}
    {results : List β} (all : List.Forall₂ related items results) :
    ∀ result ∈ results, ∃ item ∈ items, related item result := by
  -- The two rows are gone through side by side.
  induction all with
  | nil =>
    intro result listed
    cases listed
  | @cons item result items results first others ih =>
    refine List.forall_mem_cons.mpr ⟨⟨item, .head _, first⟩, fun other listed => ?_⟩
    obtain ⟨source, member, found⟩ := ih other listed
    exact ⟨source, .tail _ member, found⟩

/-- Every item in a row has some result. -/
theorem exists_of_mem_left {α β : Type} {related : α → β → Prop} {items : List α}
    {results : List β} (all : List.Forall₂ related items results) :
    ∀ item ∈ items, ∃ result ∈ results, related item result :=
  exists_of_mem_right all.flip

/-- Rounding to places comes to a number, or else digits before the point are rounded up too far. -/
theorem roundToPlaces_cases (places : Int) (x : Float) :
    (∃ rounded, roundToPlaces places x = .ok rounded) ∨
      places < 0 ∧ roundToPlaces places x = .error .roundedTooLarge := by
  unfold roundToPlaces
  dsimp only
  split_ifs with beyond
  · -- Only a finite number can be taken beyond all doubles, and not after the point.
    rw [Bool.and_eq_true, Bool.not_eq_true'] at beyond
    refine .inr ⟨lt_of_not_ge fun nonneg => ?_, rfl⟩
    rw [Decimal.isFinite_round nonneg beyond.1] at beyond
    cases beyond.2
  · exact .inl ⟨_, rfl⟩

/-- Rounding to places after the point always comes to a number. -/
theorem exists_roundToPlaces {places : Int} (nonneg : 0 ≤ places) (x : Float) :
    ∃ rounded, roundToPlaces places x = .ok rounded :=
  -- The other case is one of places before the point.
  (roundToPlaces_cases places x).resolve_right fun failed => not_lt.mpr nonneg failed.1

/-- A setting that is a whole number says how many places there are. -/
theorem Setting.round_eq {setting : Setting} {places : Int}
    (whole : setting.whole? = some places) (x : Float) :
    setting.round x = (roundToPlaces places x).mapError Failure.number := by
  -- What is absent has no whole number, and all others are asked for it first.
  cases setting with
  | absent => cases whole
  | flag | number | text => simp only [Setting.round, whole, required, bind, Except.bind]

/-- Rounding by a whole number of places has a result if rounding to the places has. -/
theorem Setting.round_eq_ok_iff {setting : Setting} {places : Int}
    (whole : setting.whole? = some places) {x rounded : Float} :
    setting.round x = .ok rounded ↔ roundToPlaces places x = .ok rounded := by
  -- Failures of numbers are only wrapped.
  rw [Setting.round_eq whole]
  cases roundToPlaces places x with
  | error fault => simp [Except.mapError]
  | ok result => simp [Except.mapError]

/-- A row of steps succeeds exactly if each of them does. -/
theorem mapM_eq_ok_iff {ε α β : Type} {step : α → Except ε β} {items : List α} :
    ∀ {results : List β}, items.mapM step = .ok results ↔
      List.Forall₂ (fun item result => step item = .ok result) items results := by
  -- The induction is on the items, each of which is followed by those after it.
  induction items with
  | nil =>
    intro results
    rw [List.mapM_nil, List.forall₂_nil_left_iff]
    exact ⟨fun same => (Except.ok.inj same).symm, fun same => same ▸ rfl⟩
  | cons item rest ih =>
    intro results
    rw [List.mapM_cons, List.forall₂_cons_left_iff]
    constructor
    · -- A row that succeeds has a first result and further ones.
      intro ran
      obtain ⟨result, first, others⟩ := exists_of_bind_eq_ok ran
      obtain ⟨later, found, last⟩ := exists_of_bind_eq_ok others
      exact ⟨result, later, first, ih.mp found, (Except.ok.inj last).symm⟩
    · rintro ⟨result, later, first, others, rfl⟩
      rw [first, ih.mpr others]
      rfl

namespace Sweep

variable {settings : Settings} {options : SearchOptions} {e : Expression} {a b : Number}
  {points : Option Int}

/-- The root that a search on a bracket reports. -/
def rootWithin (settings : Settings) (options : SearchOptions) (e : Expression)
    (bracket : Float × Float) : Except Failure Float := do
  let run ← Root.find settings options e (.real bracket.1) (.real bracket.2)
  run.root

/-- The roots within a row of brackets join those found before. -/
theorem roots_overBrackets (brackets : List (Float × Float)) : ∀ roots : List Float,
    (overBrackets settings options e roots brackets).roots =
      (brackets.mapM (rootWithin settings options e)).map (·.foldl Root.insert roots) := by
  -- The induction is on the brackets; what the first one adds is there for all others.
  induction brackets with
  | nil => exact fun roots => rfl
  | cons bracket rest ih =>
    obtain ⟨left, right⟩ := bracket
    intro roots
    rw [overBrackets, List.mapM_cons, rootWithin]
    cases found : Root.find settings options e (.real left) (.real right) with
    | error failure => rfl
    -- A search that ends still has to be rounded before its root joins the others.
    | ok run =>
      cases rounded : run.root with
      | error failure => simp [rounded, bind, Except.bind, Except.map]
      | ok root =>
        simp only [rounded, ih, bind, Except.bind]
        cases rest.mapM (rootWithin settings options e) <;> rfl

/-- A search for all roots comes to those that its grid and its brackets show. -/
theorem roots_eq_ok_iff {roots : List Float} :
    (find settings options e a b points).roots = .ok roots ↔
      e.dependsOnX = true ∧ ∃ xs ys zeros found, gridFor settings a b points = .ok xs ∧
        e.evaluateAll xs = .ok ys ∧
        List.Forall₂ (fun sample root => (settings.decimalsFor options).round sample.1 = .ok root)
          ((xs.zip ys).filter fun sample => sample.2 == 0) zeros ∧
        List.Forall₂ (fun bracket root => rootWithin settings options e bracket = .ok root)
          (Sampling.signChanges xs ys) found ∧
        roots = Root.ascending ((zeros ++ found).foldl Root.insert []) := by
  by_cases depends : e.dependsOnX = true
  · rw [roots_find depends]
    constructor
    · intro reported
      obtain ⟨shown, surveyed, collected⟩ := exists_of_bind_eq_ok reported
      obtain ⟨xs, gridded, valued⟩ := exists_of_bind_eq_ok surveyed
      obtain ⟨ys, evaluated, rest⟩ := exists_of_bind_eq_ok valued
      obtain ⟨zeros, rounded, last⟩ := exists_of_bind_eq_ok rest
      cases last
      -- The roots within the brackets are put together with the zeros on the grid.
      rw [roots_overBrackets] at collected
      cases searched : (Sampling.signChanges xs ys).mapM (rootWithin settings options e) with
      | error failure =>
        rw [searched] at collected
        cases collected
      | ok found =>
        rw [searched] at collected
        refine ⟨depends, xs, ys, zeros, found, gridded, evaluated, mapM_eq_ok_iff.mp rounded,
          mapM_eq_ok_iff.mp searched, ?_⟩
        rw [List.foldl_append]
        exact (Except.ok.inj collected).symm
    · rintro ⟨-, xs, ys, zeros, found, gridded, evaluated, rounded, searched, rfl⟩
      -- The survey comes to the zeros and the brackets, and the brackets to their roots.
      have zeroed : gridZeros (settings.decimalsFor options) xs ys = .ok zeros :=
        mapM_eq_ok_iff.mpr rounded
      have surveyed : survey settings options e a b points =
          .ok (zeros, Sampling.signChanges xs ys) := by
        rw [survey, gridded]
        simp only [bind, Except.bind, evaluated, zeroed]
        rfl
      rw [surveyed, List.foldl_append]
      change Except.map _ (overBrackets _ _ _ _ _).roots = _
      rw [roots_overBrackets, mapM_eq_ok_iff.mpr searched]
      rfl
  · refine iff_of_false (fun reported => ?_) fun both => depends both.1
    rw [roots_find_of_constant depends] at reported
    cases reported

/-- The variable less itself: a curve that is zero everywhere. -/
def vanishing : Expression where
  source := "x-x"
  tokens := [⟨"x", .literal⟩, ⟨"-", .operator⟩, ⟨"x", .literal⟩]
  postfixTokens := [⟨"x", .literal⟩, ⟨"x", .literal⟩, ⟨"-", .operator⟩]

end Sweep

end Formula
