import KeyedCoding.Proofs.Token.Locality

/-!
Chunks of tokens with commas between them: how much they weigh, in whatever order they stand, and
that they are read as the items of a list.
-/

namespace KeyedCoding.Token

/--
Chunks of tokens with commas between them, of any spacing and at any place. The flag tells whether
every chunk has a comma behind it, the last one included.
-/
inductive Separated : Bool → List (List Token) → List Token → Prop
  | none : Separated true [] []
  | last (chunk : List Token) : Separated false [chunk] chunk
  | more (chunk : List Token) {trailing : Bool} {chunks : List (List Token)} {tokens : List Token}
      (joint : Bool) (pos : Position) (others : Separated trailing chunks tokens) :
      Separated trailing (chunk :: chunks) (chunk ++ .punct ',' joint pos :: tokens)

/-- The weight of tokens in a row is that of all of them. -/
theorem weightAll_append (tokens more : List Token) :
    weightAll (tokens ++ more) = weightAll tokens + weightAll more := by
  -- The weight is a sum over the tokens.
  induction tokens with
  | nil => simp [weightAll]
  | cons token tokens ih => simp [weightAll, ih, Nat.add_assoc]

/-- Tokens in another order weigh the same. -/
theorem weightAll_perm {tokens more : List Token} (same : tokens.Perm more) :
    weightAll tokens = weightAll more := by
  -- The induction follows the exchange of tokens, and sums do not depend on the order.
  induction same with
  | nil => rfl
  | cons token _ ih => simp only [weightAll, ih]
  | swap one other rest => simp only [weightAll, Nat.add_left_comm]
  | trans _ _ first second => exact first.trans second

namespace Separated

variable {trailing : Bool} {chunks others : List (List Token)} {tokens more : List Token}

/-- Behind each chunk a comma is weighed, but behind the last one only if it is there. -/
theorem weightAll_add (separated : Separated trailing chunks tokens) :
    weightAll tokens + (!trailing).toNat = weightAll chunks.flatten + chunks.length := by
  -- Each step adds a chunk and its comma, and only the last comma may be missing.
  induction separated with
  | none => rfl
  | last chunk => simp
  | more chunk joint pos _ ih =>
    simp only [weightAll_append, weightAll, weight, List.flatten_cons, List.length_cons]
    omega

/-- Chunks in another order weigh the same. -/
theorem weightAll_eq (one : Separated trailing chunks tokens)
    (other : Separated trailing others more) (same : chunks.Perm others) :
    weightAll tokens = weightAll more := by
  -- Weight and number of the chunks are the same, so the commas are the same, too.
  have first := one.weightAll_add
  have second := other.weightAll_add
  have weights := weightAll_perm same.flatten
  have lengths := same.length_eq
  omega

/-! Lists of items. -/

section Items

open Reader

variable {α : Type} {item : Reader α} {takes : List Token → α → Prop} {values : List α}

/-- One round of a list. -/
def round (item : Reader α) (read : List α) : Reader (List α ⊕ (List α × Bool)) := do
  if (← rest).isEmpty then return .inr (read.reverse, !read.isEmpty)
  else
    let value ← item
    if (← rest).isEmpty then return .inr ((value :: read).reverse, false)
    else
      let _ ← Reader.symbol ","
      return .inl (value :: read)

/-- Chunks that are items wherever they stand are read as a list of them. -/
theorem reads (separated : Separated trailing chunks tokens)
    (each : List.Forall₂ (fun chunk value => chunk ≠ [] ∧ ∀ tail : Tail,
      item.Reads (chunk ++ tail.tokens) value tail.tokens) chunks values) :
    ∃ ends, (commaList item).Reads tokens (values, ends) [] := by
  -- The items that have been read are kept in reverse.
  have general (read : List α) (count : Nat) (enough : tokens.length < count) :
      ∃ ends, (iterateUpTo (round item) count read).Reads tokens (read.reverse ++ values, ends) [] := by
    induction separated generalizing values read count with
    -- Nothing is left, and the round ends the list.
    | none =>
      cases each
      obtain _ | count := count
      · omega
      · exact ⟨_, Reads.iterateUpTo_inr (Reads.bind Reads.rest (by simpa using Reads.pure))⟩
    | last chunk =>
      -- The last item ends the tokens, so the round that reads it sees no comma behind it.
      obtain ⟨value, _, ⟨some, reads⟩, none, rfl⟩ := List.forall₂_cons_left_iff.mp each
      obtain rfl := List.forall₂_nil_left_iff.mp none
      obtain _ | count := count
      · omega
      refine ⟨false, Reads.iterateUpTo_inr (Reads.bind Reads.rest ?_)⟩
      rw [List.isEmpty_eq_false_iff.mpr some]
      have last : item.Reads chunk value [] := by simpa [Tail.none] using reads .none
      refine Reads.bind last (Reads.bind Reads.rest ?_)
      rw [List.reverse_cons]
      exact Reads.pure
    | @more chunk trailing chunks tokens joint pos others ih =>
      -- Behind the item stands a comma, so the round goes on and the hypothesis reads the rest.
      obtain ⟨value, values, ⟨some, reads⟩, rest, rfl⟩ := List.forall₂_cons_left_iff.mp each
      obtain _ | count := count
      · omega
      obtain ⟨ends, onward⟩ := ih rest (value :: read) count (by simp at enough; omega)
      rw [List.reverse_cons, List.append_assoc, List.singleton_append] at onward
      refine ⟨ends, Reads.iterateUpTo_inl (Reads.bind Reads.rest ?_) onward⟩
      have goesOn : (chunk ++ .punct ',' joint pos :: tokens).isEmpty = false := by simp
      rw [goesOn]
      have first : item.Reads (chunk ++ .punct ',' joint pos :: tokens) value
          (.punct ',' joint pos :: tokens) := reads ⟨_, by simp⟩
      exact Reads.bind first (Reads.bind Reads.rest (Reads.bind (Reads.symbol rfl) Reads.pure))
  -- The loop has two rounds more than there are tokens, which is enough.
  obtain ⟨ends, reads⟩ := general [] (tokens.length + 2) (by omega)
  exact ⟨ends, Reads.iterate reads⟩

/--
A round of a list ends where there are no tokens, or reads an item; behind that the list ends, or
goes on after a comma.
-/
theorem round_cases {read : List α} {scope : Position} {source left : Source}
    {result : List α ⊕ (List α × Bool)}
    (step : round item read scope source = .ok (result, left)) :
    (source.rest = [] ∧ left = source ∧ ∃ ends, result = .inr (read.reverse, ends)) ∨
      ∃ value between, item scope source = .ok (value, between) ∧
        (between.rest = [] ∧ left = between ∧ result = .inr ((value :: read).reverse, false) ∨
          (∃ joint pos, between.rest = .punct ',' joint pos :: left.rest) ∧
            result = .inl (value :: read)) := by
  -- The round looks for the end before an item and again behind it.
  obtain ⟨_, _, got, step⟩ := bind_run_iff.mp step
  cases got
  split at step
  · rename_i none
    cases step
    exact .inl ⟨List.isEmpty_iff.mp none, rfl, _, rfl⟩
  · obtain ⟨value, between, taken, step⟩ := bind_run_iff.mp step
    obtain ⟨_, _, got, step⟩ := bind_run_iff.mp step
    cases got
    refine .inr ⟨value, between, taken, ?_⟩
    split at step
    · rename_i none
      cases step
      exact .inl ⟨List.isEmpty_iff.mp none, rfl, rfl⟩
    · obtain ⟨_, _, sign, step⟩ := bind_run_iff.mp step
      cases step
      obtain ⟨after, operator, -, rfl⟩ := symbol_run_iff.mp sign
      have first : Look.afterChars? [','] between.rest = some after := operator
      exact .inr ⟨Look.cons_of_afterChars? first, rfl⟩

/-- Items that rounds add up to the end have been chunks with commas between them. -/
theorem exists_of_rounds (each : ∀ ⦃scope source left value⦄,
      item scope source = .ok (value, left) → value ∈ values →
        ∃ chunk, source.rest = chunk ++ left.rest ∧ takes chunk value)
    {scope : Position} {source left : Source} {ends : Bool} {read : List α} {count : Nat}
    (rounds : iterateUpTo (round item) count read scope source = .ok ((values, ends), left)) :
    ∃ trailing chunks more, values = read.reverse ++ more ∧
      Separated trailing chunks source.rest ∧ List.Forall₂ takes chunks more := by
  -- The induction is on the rounds, with the items that have been read left open.
  induction count generalizing read source with
  -- Without a round there is no end to reach.
  | zero => exact absurd rounds failHere_ne_ok
  | succ count ih =>
    rcases iterateUpTo_succ_iff.mp rounds with ⟨next, between, step, others⟩ | step
    · -- A round that goes on has read an item and a comma.
      rcases round_cases step with ⟨-, -, _, same⟩ | ⟨value, behind, taken, ended | ⟨comma, same⟩⟩
      · cases same
      · cases ended.2.2
      · cases same
        obtain ⟨joint, pos, comma⟩ := comma
        -- The hypothesis separates what stands behind the comma, and this item goes in front of it.
        obtain ⟨trailing, chunks, more, same, separated, rest⟩ := ih others
        have among : values = read.reverse ++ value :: more := by simpa using same
        obtain ⟨chunk, begins, first⟩ := each taken (by simp [among])
        refine ⟨trailing, chunk :: chunks, value :: more, among, ?_, .cons first rest⟩
        rw [begins, comma]
        exact .more chunk joint pos separated
    · -- A round that ends has found nothing left or has read the last item.
      rcases round_cases step with ⟨empty, -, _, same⟩ | ⟨value, behind, taken, ended | ⟨-, same⟩⟩
      · cases same
        exact ⟨true, [], [], (List.append_nil _).symm, empty ▸ .none, .nil⟩
      · obtain ⟨empty, -, same⟩ := ended
        -- The last item stands at the end without a comma.
        cases same
        obtain ⟨chunk, begins, first⟩ := each taken (by simp)
        refine ⟨false, [chunk], [value], by simp, ?_, .cons first .nil⟩
        rw [begins, empty, List.append_nil]
        exact .last chunk
      · cases same

/-- Items that are read as a list up to the end have been chunks with commas between them. -/
theorem exists_of_read (each : ∀ ⦃scope source left value⦄, item scope source = .ok (value, left) →
      value ∈ values → ∃ chunk, source.rest = chunk ++ left.rest ∧ takes chunk value)
    {scope : Position} {source left : Source} {ends : Bool}
    (read : commaList item scope source = .ok ((values, ends), left)) :
    ∃ trailing chunks, Separated trailing chunks source.rest ∧ List.Forall₂ takes chunks values := by
  -- Reading a list starts its rounds with no item read.
  obtain ⟨trailing, chunks, more, same, separated, taken⟩ := @exists_of_rounds _ item takes _ each
    scope source left ends [] (source.rest.length + 2) read
  exact ⟨trailing, chunks, separated, same ▸ taken⟩

end Items

end Separated

end KeyedCoding.Token
