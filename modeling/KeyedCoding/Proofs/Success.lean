import Mathlib.Data.List.Forall2

/-!
Computations that may fail: what the steps of one have given if the whole succeeds, and which step
is the first to fail if it does not.
-/

namespace KeyedCoding

variable {ε α β γ σ : Type}

/-- A sequence of two steps succeeds exactly if both do. -/
theorem bind_eq_ok_iff {first : Except ε α} {next : α → Except ε β} {result : β} :
    (first >>= next) = .ok result ↔ ∃ value, first = .ok value ∧ next value = .ok result := by
  -- A failure of the first step is the failure of both.
  cases first with
  | error fault => simp [bind, Except.bind]
  | ok value => simp [bind, Except.bind]

/-- A sequence of two steps fails exactly if the first one does, or the second one after it. -/
theorem bind_eq_error_iff {first : Except ε α} {next : α → Except ε β} {fault : ε} :
    (first >>= next) = .error fault ↔
      first = .error fault ∨ ∃ value, first = .ok value ∧ next value = .error fault := by
  -- The second step is reached only through a result of the first one.
  cases first with
  | error found => simp [bind, Except.bind]
  | ok value => simp [bind, Except.bind]

/-- A result is mapped exactly if there is one. -/
theorem map_eq_ok_iff {first : Except ε α} {change : α → β} {result : β} :
    first.map change = .ok result ↔ ∃ value, first = .ok value ∧ change value = result := by
  -- A failure stays as it is.
  cases first with
  | error fault => simp [Except.map]
  | ok value => simp [Except.map]

/-- A failure stays as it is where a result would be mapped. -/
theorem map_eq_error_iff {first : Except ε α} {change : α → β} {fault : ε} :
    first.map change = .error fault ↔ first = .error fault := by
  -- Only a result is changed.
  cases first with
  | error found => simp [Except.map]
  | ok value => simp [Except.map]

/-- Changing the faults of a computation leaves its success alone. -/
theorem mapError_eq_ok_iff {first : Except ε α} {change : ε → γ} {result : α} :
    first.mapError change = .ok result ↔ first = .ok result := by
  -- Only what a failure says is changed.
  cases first with
  | error fault => simp [Except.mapError]
  | ok value => simp [Except.mapError]

/-- Changing the faults of a computation changes what its failure says. -/
theorem mapError_eq_error_iff {first : Except ε α} {change : ε → γ} {fault : γ} :
    first.mapError change = .error fault ↔
      ∃ found, first = .error found ∧ change found = fault := by
  -- A result stays as it is.
  cases first with
  | error found => simp [Except.mapError]
  | ok value => simp [Except.mapError]

/-- A traversal succeeds exactly if each item gives the result at its place. -/
theorem mapM_eq_ok_iff {step : α → Except ε β} {items : List α} {results : List β} :
    items.mapM step = .ok results ↔
      List.Forall₂ (fun item result => step item = .ok result) items results := by
  -- The first item and the remaining ones succeed independently of each other.
  induction items generalizing results with
  | nil => simp [pure, Except.pure, eq_comm]
  | cons item rest ih =>
    rw [List.mapM_cons, bind_eq_ok_iff]
    constructor
    · rintro ⟨first, head, tail⟩
      obtain ⟨others, traversed, same⟩ := bind_eq_ok_iff.mp tail
      cases same
      exact .cons head (ih.mp traversed)
    · rintro (_ | ⟨head, tail⟩)
      exact ⟨_, head, bind_eq_ok_iff.mpr ⟨_, ih.mpr tail, rfl⟩⟩

/-- Every item of the second of two related lists is related to one of the first. -/
theorem exists_of_mem_forall₂ {related : α → β → Prop} {items : List α} {results : List β}
    {result : β} (pairs : List.Forall₂ related items results) (inside : result ∈ results) :
    ∃ item ∈ items, related item result := by
  -- The lists stand side by side, so the result is looked up in the pairs.
  induction pairs with
  | nil => cases inside
  | cons head _ ih =>
    rcases List.mem_cons.mp inside with rfl | later
    · exact ⟨_, by simp, head⟩
    · obtain ⟨item, among, pair⟩ := ih later
      exact ⟨item, List.mem_cons_of_mem _ among, pair⟩

/-- If every item is related to something, some list is related to all of them. -/
theorem exists_forall₂ {related : α → β → Prop} {items : List α}
    (each : ∀ item ∈ items, ∃ result, related item result) :
    ∃ results, List.Forall₂ related items results := by
  -- One result is chosen for each item, from the first one on.
  induction items with
  | nil => exact ⟨[], .nil⟩
  | cons first rest ih =>
    rw [List.forall_mem_cons] at each
    obtain ⟨result, pair⟩ := each.1
    obtain ⟨results, others⟩ := ih each.2
    exact ⟨result :: results, .cons pair others⟩

/-- A traversal of at most one item gives at most the result of that item. -/
theorem mapM_toList_eq_ok_iff {step : α → Except ε β} {fits : α → Prop} {result : α → β}
    (each : ∀ item value, step item = .ok value ↔ fits item ∧ result item = value)
    {first : Option α} {results : List β} :
    first.toList.mapM step = .ok results ↔
      (∀ item ∈ first, fits item) ∧ (first.map result).toList = results := by
  -- There is no item, or exactly one.
  rw [mapM_eq_ok_iff]
  cases first with
  | none => simp [eq_comm]
  | some item => simp [List.forall₂_cons_left_iff, each, eq_comm]

/-- A traversal of items that belong to given values gives the results that belong to them. -/
theorem mapM_eq_ok_map {step : α → Except ε β} {related : γ → α → Prop} {result : γ → β}
    {values : List γ} {items : List α} (pairs : List.Forall₂ related values items)
    (each : ∀ value ∈ values, ∀ item, related value item → step item = .ok (result value)) :
    items.mapM step = .ok (values.map result) := by
  -- Related lists are walked together, one pair at a time.
  rw [mapM_eq_ok_iff, List.forall₂_map_right_iff]
  induction pairs with
  | nil => exact .nil
  | cons pair _ ih =>
    refine .cons (each _ (by simp) _ pair) (ih fun value inside => each value ?_)
    exact List.mem_cons_of_mem _ inside

/-- Lists that are both related to one in between are related through its items. -/
theorem forall₂_through {first : α → β → Prop} {second : β → γ → Prop} {start : List α}
    {between : List β} {finish : List γ} (here : List.Forall₂ first start between)
    (there : List.Forall₂ second between finish) :
    List.Forall₂ (fun a c => ∃ b, first a b ∧ second b c) start finish := by
  -- The list in between is taken apart by the first relation, and the second one follows.
  induction here generalizing finish with
  | nil =>
    cases there
    exact .nil
  | cons head _ ih =>
    cases there with
    | cons next others => exact .cons ⟨_, head, next⟩ (ih others)

/-- What is made of some items stands beside these, if nothing is made of the others. -/
theorem forall₂_filterMap {related : α → β → Prop} {make : α → Option β} {chosen : α → Bool}
    {items : List α}
    (made : ∀ item ∈ items, chosen item = true → ∃ result, make item = some result ∧
      related item result)
    (others : ∀ item ∈ items, chosen item = false → make item = none) :
    List.Forall₂ related (items.filter chosen) (items.filterMap make) := by
  -- Both lists are made item by item, and an item has its place in both or in neither.
  induction items with
  | nil => exact .nil
  | cons first rest ih =>
    rw [List.forall_mem_cons] at made others
    have onward := ih made.2 others.2
    cases choice : chosen first with
    | true =>
      obtain ⟨result, given, pair⟩ := made.1 choice
      rw [List.filterMap_cons_some given, List.filter_cons_of_pos choice]
      exact .cons pair onward
    | false =>
      rw [List.filterMap_cons_none (others.1 choice), List.filter_cons_of_neg (by simp [choice])]
      exact onward

/-- What every step keeps holds at the end of a successful run. -/
theorem foldlM_keeps {step : σ → α → Except ε σ} {holds : σ → Prop} {items : List α}
    (keeps : ∀ state item after, item ∈ items → holds state → step state item = .ok after →
      holds after)
    {start finish : σ} (begins : holds start) (run : items.foldlM step start = .ok finish) :
    holds finish := by
  -- What holds is the invariant of the run, so the state at the start stays open.
  induction items generalizing start with
  | nil =>
    cases run
    exact begins
  | cons item rest ih =>
    rw [List.foldlM_cons, bind_eq_ok_iff] at run
    obtain ⟨next, head, tail⟩ := run
    have onward : holds next := keeps start item next (by simp) begins head
    exact ih (fun state item after inside => keeps state item after (List.mem_cons_of_mem _ inside))
      onward tail

/-- A run fails exactly with the fault of a step that is reached: the steps before it succeed. -/
theorem foldlM_eq_error_iff {step : σ → α → Except ε σ} {start : σ} {items : List α} {fault : ε} :
    items.foldlM step start = .error fault ↔
      ∃ before item after state, items = before ++ item :: after ∧
        before.foldlM step start = .ok state ∧ step state item = .error fault := by
  induction items generalizing start with
  | nil =>
    -- Without a step nothing fails, and there is no item to fail at.
    constructor
    · intro failed
      cases failed
    · rintro ⟨before, item, after, state, split, -⟩
      simp at split
  | cons first rest ih =>
    rw [List.foldlM_cons, bind_eq_error_iff]
    constructor
    · -- Either the first step fails, or a later one does, which the hypothesis finds.
      rintro (failed | ⟨next, stepped, failed⟩)
      · exact ⟨[], first, rest, start, rfl, rfl, failed⟩
      · obtain ⟨before, item, after, state, rfl, run, stopped⟩ := ih.mp failed
        refine ⟨first :: before, item, after, state, rfl, ?_, stopped⟩
        exact bind_eq_ok_iff.mpr ⟨next, stepped, run⟩
    · -- Conversely the failing step is the first one or a later one.
      rintro ⟨before, item, after, state, split, run, stopped⟩
      cases before with
      | nil =>
        obtain ⟨rfl, -⟩ := List.cons.inj split
        cases run
        exact .inl stopped
      | cons head more =>
        obtain ⟨rfl, tail⟩ := List.cons.inj split
        obtain ⟨next, stepped, others⟩ := bind_eq_ok_iff.mp run
        exact .inr ⟨next, stepped, ih.mpr ⟨more, item, after, state, tail, others, stopped⟩⟩

/-- Some item of a list fails, and all items before it pass. -/
def FailsFirst (passes fails : α → Prop) (items : List α) : Prop :=
  ∃ before item after, items = before ++ item :: after ∧ (∀ earlier ∈ before, passes earlier) ∧
    fails item

section FailsFirst

variable {passes fails : α → Prop} {items : List α}

/-- Among no items none fails. -/
@[simp] theorem not_failsFirst_nil : ¬FailsFirst passes fails [] := by
  -- The item that fails would have to be one of none.
  rintro ⟨before, item, after, split, -⟩
  simp at split

/-- The item that fails is the first one, or one behind it once the first one has passed. -/
theorem failsFirst_cons_iff {first : α} {rest : List α} :
    FailsFirst passes fails (first :: rest) ↔
      fails first ∨ passes first ∧ FailsFirst passes fails rest := by
  constructor
  · -- The items before the failing one are none, or the first one and more.
    rintro ⟨before, item, after, split, earlier, failed⟩
    cases before with
    | nil =>
      obtain ⟨rfl, -⟩ := List.cons.inj split
      exact .inl failed
    | cons head more =>
      obtain ⟨rfl, tail⟩ := List.cons.inj split
      rw [List.forall_mem_cons] at earlier
      exact .inr ⟨earlier.1, more, item, after, tail, earlier.2, failed⟩
  · rintro (failed | ⟨passed, before, item, after, rfl, earlier, failed⟩)
    · exact ⟨[], first, rest, rfl, by simp, failed⟩
    · refine ⟨first :: before, item, after, rfl, ?_, failed⟩
      rw [List.forall_mem_cons]
      exact ⟨passed, earlier⟩

/-- Items that pass and fail alike have the same first failure. -/
theorem failsFirst_congr {passes' fails' : α → Prop}
    (same : ∀ item ∈ items, (passes item ↔ passes' item) ∧ (fails item ↔ fails' item)) :
    FailsFirst passes fails items ↔ FailsFirst passes' fails' items := by
  -- Each item is passed alike, and the one that fails is the same.
  induction items with
  | nil => simp
  | cons first rest ih =>
    rw [List.forall_mem_cons] at same
    rw [failsFirst_cons_iff, failsFirst_cons_iff, same.1.1, same.1.2, ih same.2]

/-- What is made of all items fails first where the items do. -/
theorem failsFirst_map {passes fails : β → Prop} {make : α → β} :
    FailsFirst passes fails (items.map make) ↔
      FailsFirst (fun item => passes (make item)) (fun item => fails (make item)) items := by
  -- The condition on the first item is that on what is made of it.
  induction items with
  | nil => simp
  | cons first rest ih => rw [List.map_cons, failsFirst_cons_iff, failsFirst_cons_iff, ih]

/--
What is made of some items fails first where these do, if whatever is made of the others passes.
-/
theorem failsFirst_filterMap {passes' fails' : β → Prop} {make : α → Option β} {chosen : α → Bool}
    (made : ∀ item ∈ items, chosen item = true → ∃ result, make item = some result ∧
      (passes' result ↔ passes item) ∧ (fails' result ↔ fails item))
    (others : ∀ item ∈ items, chosen item = false → ∀ result, make item = some result →
      passes' result ∧ ¬fails' result) :
    FailsFirst passes' fails' (items.filterMap make) ↔
      FailsFirst passes fails (items.filter chosen) := by
  -- Both lists are made item by item, so the failing one is looked for in step.
  induction items with
  | nil => simp
  | cons first rest ih =>
    rw [List.forall_mem_cons] at made others
    have onward := ih made.2 others.2
    cases choice : chosen first with
    | true =>
      obtain ⟨result, given, passed, failed⟩ := made.1 choice
      rw [List.filterMap_cons_some given, List.filter_cons_of_pos choice, failsFirst_cons_iff,
        failsFirst_cons_iff, passed, failed, onward]
    | false =>
      rw [List.filter_cons_of_neg (by simp [choice]), ← onward]
      cases given : make first with
      | none => rw [List.filterMap_cons_none given]
      | some result =>
        obtain ⟨passed, notFailed⟩ := others.1 choice result given
        rw [List.filterMap_cons_some given, failsFirst_cons_iff]
        simp [passed, notFailed]

/-- A traversal fails exactly with the fault of the first item that fails. -/
theorem mapM_eq_error_iff {step : α → Except ε β} {fault : ε} :
    items.mapM step = .error fault ↔
      FailsFirst (fun item => ∃ result, step item = .ok result)
        (fun item => step item = .error fault) items := by
  induction items with
  | nil =>
    simp only [List.mapM_nil, not_failsFirst_nil, iff_false]
    exact fun failed => by cases failed
  | cons first rest ih =>
    rw [List.mapM_cons, bind_eq_error_iff, failsFirst_cons_iff, ← ih]
    -- Once the first item has given its result, only the others can fail.
    have onward (result : β) : (do
        let results ← rest.mapM step
        pure (result :: results)) = Except.error fault ↔ rest.mapM step = .error fault := by
      rw [bind_eq_error_iff]
      refine or_iff_left ?_
      rintro ⟨results, -, impossible⟩
      cases impossible
    simp only [onward, exists_and_right]

end FailsFirst

end KeyedCoding
