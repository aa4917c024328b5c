import Formula.Postfix.Conversion
import Mathlib.Data.List.TakeDrop

/-! Conversion to postfix order needs balanced parentheses, and keeps every other token. -/

namespace Formula

/-- The kinds of token that a postfix order is made of. -/
def Kind.isKept : Kind → Bool
  | literal | operator | function => true
  | _ => false

/-- By how much a token of a kind deepens what follows it. -/
def Kind.deepening : Kind → Int
  | leftParen => 1
  | rightParen => -1
  | _ => 0

/-- A token of a kind has to stand within parentheses. -/
def Kind.NeedsParen (kind : Kind) : Prop :=
  kind = .rightParen ∨ kind = .comma

namespace Postfix

variable {respecting : Bool}

/-- What one token does to the stack, kind by kind. -/
inductive Step (stack : List Token) (token : Token) : List Token → List Token → Prop where
  | literal (kind : token.kind = .literal) : Step stack token [token] stack
  | operator {above below : List Token} (kind : token.kind = .operator)
      (split : stack = above ++ below) (operators : ∀ top ∈ above, top.kind = .operator) :
      Step stack token above (token :: below)
  | pending (kind : token.kind = .leftParen ∨ token.kind = .function) :
      Step stack token [] (token :: stack)
  | close {above call below : List Token} {opening : Token} (kind : token.kind = .rightParen)
      (split : stack = above ++ opening :: (call ++ below))
      (inside : ∀ top ∈ above, top.kind ≠ .leftParen) (opens : opening.kind = .leftParen)
      (functions : ∀ top ∈ call, top.kind = .function) : Step stack token (above ++ call) below
  | comma {above below : List Token} {opening : Token} (kind : token.kind = .comma)
      (split : stack = above ++ opening :: below)
      (inside : ∀ top ∈ above, top.kind ≠ .leftParen) (opens : opening.kind = .leftParen) :
      Step stack token above (opening :: below)

/-- A stack is split at its nearest opening parenthesis, if it has one. -/
theorem splitAtParen_cases (stack : List Token) :
    splitAtParen stack = (stack, []) ∨ ∃ above opening below,
      splitAtParen stack = (above, opening :: below) ∧ stack = above ++ opening :: below ∧
        (∀ top ∈ above, top.kind ≠ .leftParen) ∧ opening.kind = .leftParen := by
  -- The walk down the stack stops at the parenthesis or at the bottom.
  have parts : (stack.takeWhile fun token => token.kind != .leftParen) ++
      (stack.dropWhile fun token => token.kind != .leftParen) = stack :=
    List.takeWhile_append_dropWhile
  have inside : ∀ top ∈ stack.takeWhile (fun token => token.kind != .leftParen),
      top.kind ≠ .leftParen := by
    intro top member
    simpa using List.all_eq_true.mp List.all_takeWhile top member
  rw [splitAtParen, List.span_eq_takeWhile_dropWhile]
  cases remaining : stack.dropWhile fun token => token.kind != .leftParen with
  | nil =>
    rw [remaining, List.append_nil] at parts
    exact .inl (by rw [parts])
  | cons opening below =>
    have opens : opening.kind = .leftParen := by
      have stopped := List.head?_dropWhile_not (fun token : Token => token.kind != .leftParen) stack
      simpa [remaining] using stopped
    rw [remaining] at parts
    exact .inr ⟨_, opening, below, rfl, parts.symm, inside, opens⟩

/-- Below a parenthesis that is closed, a function is taken from the stack if it is on top. -/
theorem closeCall_cases (stack : List Token) :
    ∃ call below, closeCall stack = (call, below) ∧ stack = call ++ below ∧
      ∀ top ∈ call, top.kind = .function := by
  -- At most one token is taken from the stack.
  cases stack with
  | nil => exact ⟨[], [], rfl, rfl, nofun⟩
  | cons top below =>
    by_cases kind : top.kind = .function
    · exact ⟨[top], below, by simp [closeCall, kind], rfl, by simpa using kind⟩
    · exact ⟨[], top :: below, by simp [closeCall, kind], rfl, nofun⟩

/-- A token that is accepted does what its kind says. -/
theorem step_eq_ok {stack emitted next : List Token} {token : Token}
    (stepped : step respecting stack token = .ok (emitted, next)) :
    Step stack token emitted next := by
  -- The kind of the token decides what is done, and tokens that fail do not step.
  unfold step at stepped
  cases kind : token.kind with
  | literal =>
    simp only [kind] at stepped
    cases stepped
    exact .literal kind
  | operator =>
    simp only [kind, List.span_eq_takeWhile_dropWhile] at stepped
    cases stepped
    refine .operator kind List.takeWhile_append_dropWhile.symm fun top member => ?_
    -- Only operators yield.
    have yielding := List.all_eq_true.mp List.all_takeWhile top member
    simp only [yields, Bool.and_eq_true, beq_iff_eq] at yielding
    exact yielding.1
  | leftParen =>
    simp only [kind] at stepped
    cases stepped
    exact .pending (.inl kind)
  | function =>
    simp only [kind] at stepped
    cases stepped
    exact .pending (.inr kind)
  | rightParen =>
    simp only [kind] at stepped
    rcases splitAtParen_cases stack with none | ⟨above, opening, below, found, split, inside, opens⟩
    · simp [none] at stepped
    · -- What is split off at the parenthesis is emitted, and a function below it too.
      obtain ⟨call, rest, closed, parts, functions⟩ := closeCall_cases below
      simp only [found, closed] at stepped
      cases stepped
      subst parts
      exact .close kind split inside opens functions
  | comma =>
    simp only [kind] at stepped
    rcases splitAtParen_cases stack with none | ⟨above, opening, below, found, split, inside, opens⟩
    · simp [none] at stepped
    · simp only [found] at stepped
      cases stepped
      exact .comma kind split inside opens

/-- How many parentheses on a stack are open. -/
def openCount (stack : List Token) : Nat :=
  stack.countP fun token => token.kind == .leftParen

/-- Tokens without an opening parenthesis among them leave none open. -/
theorem openCount_eq_zero {tokens : List Token} (none : ∀ token ∈ tokens, token.kind ≠ .leftParen) :
    openCount tokens = 0 := by
  -- There is nothing to be counted.
  rw [openCount, List.countP_eq_zero]
  intro token member
  simpa using none token member

/-- The open parentheses of two stacks add up. -/
@[simp] theorem openCount_append (above below : List Token) :
    openCount (above ++ below) = openCount above + openCount below :=
  -- Counting goes through the two stacks one after the other.
  List.countP_append

/-- Only an opening parenthesis on top adds to those that are open. -/
@[simp] theorem openCount_cons (top : Token) (below : List Token) :
    openCount (top :: below) = openCount below + if top.kind = .leftParen then 1 else 0 := by
  -- Only the top is looked at anew.
  simp [openCount, List.countP_cons]

/-- With so many parentheses open, each one is closed, and commas are within parentheses. -/
def Balanced (depth : Nat) : List Token → Prop
  | [] => depth = 0
  | token :: rest =>
    match token.kind with
    | .leftParen => Balanced (depth + 1) rest
    | .rightParen => 0 < depth ∧ Balanced (depth - 1) rest
    | .comma => 0 < depth ∧ Balanced depth rest
    | _ => Balanced depth rest

/-- A stack that is emitted at the end has no open parenthesis. -/
theorem finish_eq_ok {stack ordered : List Token} (finished : finish stack = .ok ordered) :
    ordered = stack ∧ openCount stack = 0 := by
  -- A stack with an open parenthesis is refused.
  unfold finish at finished
  split at finished
  · cases finished
  · rename_i noParen
    cases finished
    refine ⟨rfl, openCount_eq_zero fun token member kind => noParen ?_⟩
    exact List.any_eq_true.mpr ⟨token, member, by simp [kind]⟩

/-- After a known step, a run that succeeds goes on with the tokens that are left. -/
theorem orderFrom_of_step {stack emitted next ordered rest : List Token} {token : Token}
    (stepped : step respecting stack token = .ok (emitted, next))
    (ran : orderFrom respecting stack (token :: rest) = .ok ordered) :
    ∃ later, orderFrom respecting next rest = .ok later ∧ ordered = emitted ++ later := by
  -- What the step emits comes before all that the rest emits.
  rw [orderFrom, stepped] at ran
  cases remaining : orderFrom respecting next rest with
  | error fault => simp [remaining, Except.map] at ran
  | ok later =>
    simp only [remaining, Except.map, Except.ok.injEq] at ran
    exact ⟨later, rfl, ran.symm⟩

/-- A run that succeeds makes one step, and goes on with the tokens that are left. -/
theorem orderFrom_cons_eq_ok {stack ordered rest : List Token} {token : Token}
    (ran : orderFrom respecting stack (token :: rest) = .ok ordered) :
    ∃ emitted next later, Step stack token emitted next ∧
      orderFrom respecting next rest = .ok later ∧ ordered = emitted ++ later := by
  -- A step that fails would be the end of the run.
  cases stepped : step respecting stack token with
  | error fault => simp [orderFrom, stepped] at ran
  | ok result =>
    obtain ⟨emitted, next⟩ := result
    obtain ⟨later, remaining, joined⟩ := orderFrom_of_step stepped ran
    exact ⟨emitted, next, later, step_eq_ok stepped, remaining, joined⟩

/-- A step changes how many parentheses are open on the stack as its token does in the text. -/
theorem Step.openCount_eq {stack emitted next : List Token} {token : Token}
    (stepped : Step stack token emitted next) :
    (openCount next : Int) = openCount stack + token.kind.deepening ∧
      (token.kind.NeedsParen → 0 < openCount stack) := by
  -- What is emitted holds no parenthesis, so only the token itself changes the count.
  cases stepped with
  | literal kind => simp [kind, Kind.deepening, Kind.NeedsParen]
  | operator kind split operators =>
    have none : openCount emitted = 0 :=
      openCount_eq_zero fun top member => by simp [operators top member]
    simp [split, kind, none, Kind.deepening, Kind.NeedsParen]
  | pending kind => rcases kind with kind | kind <;> simp [kind, Kind.deepening, Kind.NeedsParen]
  | @close above call _ opening kind split inside opens functions =>
    have none : openCount above = 0 := openCount_eq_zero inside
    have noneCalled : openCount call = 0 :=
      openCount_eq_zero fun top member => by simp [functions top member]
    have count : openCount stack = openCount next + 1 := by
      simp [split, opens, none, noneCalled]
    rw [kind, count]
    refine ⟨?_, fun _ => Nat.succ_pos _⟩
    simp only [Kind.deepening]
    omega
  | comma kind split inside opens =>
    have none : openCount emitted = 0 := openCount_eq_zero inside
    simp [split, kind, opens, none, Kind.deepening]

/-- A step opens and closes parentheses for the tokens that come after it. -/
theorem Step.balanced {stack emitted next rest : List Token} {token : Token}
    (stepped : Step stack token emitted next) (balanced : Balanced (openCount next) rest) :
    Balanced (openCount stack) (token :: rest) := by
  -- Balance is defined by the first token, and so is what the step does to the count.
  obtain ⟨count, needs⟩ := stepped.openCount_eq
  rw [Balanced]
  cases kind : token.kind with
  | literal | operator | function =>
    have same : openCount stack = openCount next := by
      simp only [kind, Kind.deepening] at count
      omega
    simpa [same] using balanced
  | leftParen =>
    have more : openCount stack + 1 = openCount next := by
      simp only [kind, Kind.deepening] at count
      omega
    simpa [more] using balanced
  | rightParen =>
    have fewer : openCount stack = openCount next + 1 := by
      simp only [kind, Kind.deepening] at count
      omega
    simpa [fewer] using balanced
  -- Only here the parenthesis is needed, although it stays.
  | comma =>
    have same : openCount stack = openCount next := by
      simp only [kind, Kind.deepening] at count
      omega
    have some : 0 < openCount stack := needs (.inr kind)
    exact ⟨some, same ▸ balanced⟩

/-- Tokens that have a postfix order close exactly the parentheses that are open. -/
theorem balanced_of_orderFrom {tokens : List Token} :
    ∀ {stack ordered : List Token}, orderFrom respecting stack tokens = .ok ordered →
      Balanced (openCount stack) tokens := by
  -- The induction is on the tokens; the parentheses on the stack are those that are open.
  induction tokens with
  | nil =>
    intro stack ordered finished
    exact (finish_eq_ok finished).2
  | cons token rest ih =>
    intro stack ordered ran
    obtain ⟨emitted, next, later, stepped, remaining, -⟩ := orderFrom_cons_eq_ok ran
    -- The rest is balanced above the new stack, and the step leads back to the old one.
    exact stepped.balanced (ih remaining)

/-- The tokens of a row that are neither parentheses nor commas. -/
def kept (tokens : List Token) : List Token :=
  tokens.filter fun token => token.kind.isKept

/-- A stack on which nothing but kept tokens and opening parentheses wait. -/
def Waiting (stack : List Token) : Prop :=
  ∀ top ∈ stack, top.kind.isKept = true ∨ top.kind = .leftParen

/-- Nothing but opening parentheses and operations come to wait. -/
theorem Step.waiting {stack emitted next : List Token} {token : Token}
    (stepped : Step stack token emitted next) (waiting : Waiting stack) : Waiting next := by
  -- What stays on the stack was there before, except for the token itself.
  cases stepped with
  | literal kind => exact waiting
  | operator kind split operators =>
    subst split
    intro top member
    rcases List.mem_cons.mp member with rfl | below
    · exact .inl (kind ▸ rfl)
    · exact waiting top (List.mem_append_right emitted below)
  | pending kind =>
    intro top member
    rcases List.mem_cons.mp member with rfl | below
    · rcases kind with kind | kind
      · exact .inr kind
      · exact .inl (kind ▸ rfl)
    · exact waiting top below
  | close kind split inside opens functions =>
    subst split
    exact fun top member => waiting top (by simp [member])
  | comma kind split inside opens =>
    subst split
    exact fun top member => waiting top (List.mem_append_right emitted member)

/-- The items of a row whose tokens are neither parentheses nor commas. -/
def keptBy {α : Type} (mark : α → Token) (items : List α) : List α :=
  items.filter fun item => (mark item).kind.isKept

section Items

-- Each token is that of an item, so that equal tokens can be told apart.
variable {α : Type} {mark : α → Token}

/-- Rows of items are kept one after the other. -/
theorem keptBy_append (items others : List α) :
    keptBy mark (items ++ others) = keptBy mark items ++ keptBy mark others :=
  List.filter_append ..

/-- The first item of a row is kept or dropped by itself. -/
theorem keptBy_cons (item : α) (rest : List α) :
    keptBy mark (item :: rest) = keptBy mark [item] ++ keptBy mark rest :=
  keptBy_append [item] rest

/-- Items of kept tokens are all kept. -/
theorem keptBy_eq_self {items : List α} (all : ∀ item ∈ items, (mark item).kind.isKept = true) :
    keptBy mark items = items :=
  List.filter_eq_self.mpr all

/-- The item of a kept token is kept. -/
theorem keptBy_singleton {item : α} (isKept : (mark item).kind.isKept = true) :
    keptBy mark [item] = [item] :=
  -- A row with one item is the least case of a row that is kept.
  keptBy_eq_self (by simpa using isKept)

/-- The item of another token is dropped. -/
theorem keptBy_dropped {item : α} (dropped : (mark item).kind.isKept = false) :
    keptBy mark [item] = [] := by
  -- Nothing is left of a row whose only item is filtered out.
  simp [keptBy, dropped]

/-- The first token of a row is kept or dropped by itself. -/
theorem kept_cons (token : Token) (rest : List Token) :
    kept (token :: rest) = kept [token] ++ kept rest :=
  -- Tokens are their own items.
  @keptBy_cons _ id token rest

/-- A token of a kept kind is kept. -/
theorem kept_singleton {token : Token} (isKept : token.kind.isKept = true) :
    kept [token] = [token] :=
  @keptBy_singleton _ id token isKept

/-- A token of another kind is dropped. -/
theorem kept_dropped {token : Token} (dropped : token.kind.isKept = false) : kept [token] = [] :=
  @keptBy_dropped _ id token dropped

/-- Above the nearest opening parenthesis, all waiting items are kept. -/
theorem Waiting.keptBy_eq_self {above below : List α}
    (waiting : Waiting ((above ++ below).map mark))
    (inside : ∀ item ∈ above, (mark item).kind ≠ .leftParen) : keptBy mark above = above :=
  -- What waits is kept or a parenthesis, and there is none above the nearest one.
  Postfix.keptBy_eq_self fun item member =>
    (waiting (mark item) (List.mem_map_of_mem (List.mem_append_left below member))).resolve_right
      (inside item member)

/-- A step moves items: what it emits is what its item and the stack no longer hold afterwards. -/
theorem Step.exists_items {stack : List α} {item : α} {emitted next : List Token}
    (stepped : Step (stack.map mark) (mark item) emitted next)
    (waiting : Waiting (stack.map mark)) :
    ∃ taken left : List α, taken.map mark = emitted ∧ left.map mark = next ∧
      (taken ++ keptBy mark left).Perm (keptBy mark [item] ++ keptBy mark stack) ∧
        ((mark item).kind = .literal → taken = [item]) := by
  -- What is emitted was on the stack before, or is the item itself.
  cases stepped with
  | literal kind =>
    refine ⟨[item], stack, rfl, rfl, ?_, fun _ => rfl⟩
    rw [keptBy_singleton (kind ▸ rfl)]
  | operator kind split operators =>
    -- The item moves from above the operators that yield to it to below them.
    obtain ⟨above, below, rfl, rfl, rfl⟩ := List.map_eq_append_iff.mp split
    have yielded : keptBy mark above = above := Postfix.keptBy_eq_self fun top member =>
      operators (mark top) (List.mem_map_of_mem member) ▸ rfl
    refine ⟨above, item :: below, rfl, rfl, ?_, fun literal => ?_⟩
    · rw [keptBy_cons item below, keptBy_singleton (kind ▸ rfl), keptBy_append, yielded]
      exact List.perm_middle
    · rw [kind] at literal
      cases literal
  -- Nothing is emitted; the item waits, or it is a parenthesis and not kept.
  | pending kind =>
    refine ⟨[], item :: stack, rfl, rfl, ?_, fun literal => ?_⟩
    · rw [keptBy_cons item stack, List.nil_append]
    · rw [literal] at kind
      rcases kind with kind | kind <;> cases kind
  | close kind split inside opens functions =>
    -- The parenthesis is dropped, and the function is kept.
    obtain ⟨above, rest, rfl, rfl, opened⟩ := List.map_eq_append_iff.mp split
    obtain ⟨opening, others, rfl, rfl, under⟩ := List.map_eq_cons_iff.mp opened
    obtain ⟨call, below, rfl, rfl, rfl⟩ := List.map_eq_append_iff.mp under
    have closed : keptBy mark above = above := waiting.keptBy_eq_self fun top member =>
      inside (mark top) (List.mem_map_of_mem member)
    have called : keptBy mark call = call := Postfix.keptBy_eq_self fun top member =>
      functions (mark top) (List.mem_map_of_mem member) ▸ rfl
    refine ⟨above ++ call, below, List.map_append, rfl, ?_, fun literal => ?_⟩
    · rw [keptBy_dropped (kind ▸ rfl), List.nil_append, keptBy_append, keptBy_cons opening,
        keptBy_dropped (opens ▸ rfl), List.nil_append, closed, keptBy_append, called,
        List.append_assoc]
    · rw [kind] at literal
      cases literal
  | comma kind split inside opens =>
    obtain ⟨above, rest, rfl, rfl, opened⟩ := List.map_eq_append_iff.mp split
    have closed : keptBy mark above = above := waiting.keptBy_eq_self fun top member =>
      inside (mark top) (List.mem_map_of_mem member)
    refine ⟨above, rest, rfl, opened, ?_, fun literal => ?_⟩
    · rw [keptBy_dropped (kind ▸ rfl), List.nil_append, keptBy_append, closed]
    · rw [kind] at literal
      cases literal

/-- Every item but those of parentheses and commas is emitted once, and none overtakes a literal. -/
theorem exists_items_of_orderFrom {items : List α} :
    ∀ {stack : List α} {ordered : List Token}, Waiting (stack.map mark) →
      orderFrom respecting (stack.map mark) (items.map mark) = .ok ordered →
        ∃ taken : List α, taken.map mark = ordered ∧
          taken.Perm (keptBy mark items ++ keptBy mark stack) ∧
            ∀ {first second : α}, [first, second].Sublist items →
              (mark first).kind = .literal → (mark second).kind.isKept = true →
                [first, second].Sublist taken := by
  -- What is still to come and what waits make up what is still to be emitted.
  induction items with
  | nil =>
    intro stack ordered waiting finished
    obtain ⟨rfl, closed⟩ := finish_eq_ok finished
    -- At the end no parenthesis is open, so that the stack holds kept items only.
    have inside : ∀ item ∈ stack, (mark item).kind ≠ .leftParen := by
      intro item member opens
      rw [openCount, List.countP_eq_zero] at closed
      exact closed (mark item) (List.mem_map_of_mem member) (by simp [opens])
    have all : keptBy mark stack = stack := by
      rw [← List.append_nil stack] at waiting
      exact waiting.keptBy_eq_self inside
    refine ⟨stack, rfl, ?_, fun before => ?_⟩
    · rw [all]
      exact List.Perm.refl _
    · cases List.sublist_nil.mp before
  | cons item rest ih =>
    intro stack ordered waiting ran
    obtain ⟨emitted, next, later, stepped, remaining, rfl⟩ := orderFrom_cons_eq_ok ran
    obtain ⟨taken, left, rfl, rfl, moved, alone⟩ := stepped.exists_items waiting
    obtain ⟨takenLater, rfl, perm, before⟩ := ih (stepped.waiting waiting) remaining
    refine ⟨taken ++ takenLater, List.map_append, ?_, fun pair literal isKept => ?_⟩
    · -- The item moves over the rest, and what it leaves on the stack comes back at the end.
      rw [keptBy_cons item rest, List.append_assoc]
      calc List.Perm (taken ++ takenLater) (taken ++ (keptBy mark rest ++ keptBy mark left)) :=
            perm.append_left taken
        List.Perm _ (keptBy mark rest ++ (taken ++ keptBy mark left)) :=
            List.perm_append_comm_assoc ..
        List.Perm _ (keptBy mark rest ++ (keptBy mark [item] ++ keptBy mark stack)) :=
            moved.append_left (keptBy mark rest)
        List.Perm _ (keptBy mark [item] ++ (keptBy mark rest ++ keptBy mark stack)) :=
            List.perm_append_comm_assoc ..
    · -- A literal is emitted at once, before all that is still to come.
      cases pair with
      | cons _ pair =>
        exact (before pair literal isKept).trans (List.sublist_append_right taken takenLater)
      | cons_cons _ single =>
        rw [alone literal]
        refine List.Sublist.cons_cons _ (List.singleton_sublist.mpr (perm.mem_iff.mpr ?_))
        exact List.mem_append_left _
          (List.mem_filter.mpr ⟨List.singleton_sublist.mp single, isKept⟩)

end Items

/-- Every token but parentheses and commas is part of the postfix order, exactly once. -/
theorem perm_of_orderFrom {tokens stack ordered : List Token} (waiting : Waiting stack)
    (ran : orderFrom respecting stack tokens = .ok ordered) :
    ordered.Perm (kept tokens ++ kept stack) := by
  -- Each token is an item by itself.
  rw [← List.map_id stack] at waiting
  rw [← List.map_id stack, ← List.map_id tokens] at ran
  obtain ⟨taken, rfl, perm, -⟩ := exists_items_of_orderFrom waiting ran
  rw [List.map_id]
  exact perm

end Postfix

end Formula
