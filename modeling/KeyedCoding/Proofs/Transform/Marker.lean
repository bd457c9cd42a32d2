import KeyedCoding.Proofs.Transform.Frame
import KeyedCoding.Proofs.Transform.Pipeline

/-!
The marker of coded types: it is generated for a type that seems to be decoded and encoded, even
where what stands next to the struct only stands in for impls of the two traits.
-/

namespace KeyedCoding

namespace Codable

namespace CodingImpls

variable {inspection : Inspection} {mapping : KeyMapping} {direction : Direction}

/-- An impl is generated only for a direction that the record is not coded in. -/
theorem codes_ofMapping (codes : (ofMapping inspection mapping).codes direction = true) :
    inspection.record.existing.codes direction = false := by
  -- The impl of each direction is made under the condition that there is none yet.
  cases direction with
  | decoding =>
    obtain ⟨init, generated⟩ := Option.isSome_iff_exists.mp codes
    have made := decode_ofMapping_eq_some_iff.mp generated
    exact (DecodeInitializer.ofMapping_eq_some_iff.mp made).2.1
  | encoding =>
    obtain ⟨encode, generated⟩ := Option.isSome_iff_exists.mp codes
    exact (EncodeImpl.ofMapping?_eq_some_iff.mp generated).1

/-- A record is complete exactly if it is coded, or an impl is generated, in both directions. -/
theorem complete_iff {impls : CodingImpls} {record : Record} :
    impls.complete record = true ↔
      ∀ direction, record.existing.codes direction = true ∨ impls.codes direction = true := by
  -- The check has one part for each direction.
  rw [complete, Bool.and_eq_true, Bool.or_eq_true, Bool.or_eq_true]
  constructor
  · rintro ⟨decoded, encoded⟩ direction
    cases direction with
    | decoding => exact decoded
    | encoding => exact encoded
  · exact fun all => ⟨all .decoding, all .encoding⟩

end CodingImpls

namespace Run

variable {codable : Codable} {tokens : List Token} {item : Item} {context : Context}
  {direction : Direction} (run : Run codable tokens item context)

/-- The marker is generated for the record. -/
def Marks : Prop :=
  ∃ generics, Target.implement ⟨run.record.name, generics⟩ (some (Context.marker run.runtime)) [] ∈
    run.generated

/-- Whether an impl for a direction stands next to the struct or is generated. -/
def implements (direction : Direction) : Bool :=
  (run.record.container.around [] ++ run.generated).any (·.implements run.record.name direction)

/-- Without a request the only trait that a conformance may name is the marker. -/
theorem traits_unasked (unasked : run.args.conform = none)
    (unset : context.config.conformances = none) :
    run.traits = if run.impls.complete run.record then [Context.marker run.runtime] else [] := by
  -- Without traits in the arguments and in the settings only the default is left.
  have requests := run.requests
  rw [requested, unasked] at requests
  simp only [unset, Option.isSome_none, Bool.false_eq_true, if_false] at requests
  exact (Except.ok.inj requests).symm

/-- Without a request, the generated impls of coding traits are those of the coding impls. -/
theorem any_implements_generated (unasked : run.args.conform = none)
    (unset : context.config.conformances = none) :
    run.generated.any (·.implements run.record.name direction) = run.impls.codes direction := by
  rw [Bool.eq_iff_iff, List.any_eq_true]
  constructor
  · rintro ⟨other, inside, implements⟩
    rw [generated, List.mem_append, List.mem_map] at inside
    rcases inside with coding | ⟨trait, missing, rfl⟩
    · obtain ⟨other, generics, members, codes, rfl⟩ := run.coding_implements coding
      rw [Item.implements_implement, Path.lastName?_extend, beq_iff_eq] at implements
      obtain rfl := Direction.trait_inj (Option.some.inj implements)
      exact codes
    · -- The marker is no coding trait.
      have asked : trait ∈ run.traits := List.mem_of_mem_filter missing
      rw [run.traits_unasked unasked unset] at asked
      rw [Item.implements_implement, beq_iff_eq] at implements
      split at asked
      · rw [List.mem_singleton.mp asked, Context.marker, Path.lastName?_extend] at implements
        exact absurd (Option.some.inj implements).symm direction.trait_ne_marker
      · cases asked
  · intro codes
    obtain ⟨generics, members, inside⟩ := run.exists_mem_coding codes
    refine ⟨_, List.mem_append_left _ inside, ?_⟩
    rw [Item.implements_implement, Path.lastName?_extend, beq_iff_eq]

/-- Without a request, the marker is generated only for a complete record. -/
theorem complete_of_marks (unasked : run.args.conform = none)
    (unset : context.config.conformances = none) (marks : run.Marks) :
    run.impls.complete run.record = true := by
  obtain ⟨generics, inside⟩ := marks
  by_contra incomplete
  have none : run.missing = [] := by
    rw [missing, run.traits_unasked unasked unset, if_neg incomplete]
    rfl
  rw [generated, none, List.map_nil, List.append_nil] at inside
  -- What is left are the coding impls, and none of them names the marker.
  obtain ⟨direction, others, members, -, same⟩ := run.coding_implements inside
  have implements : (Target.implement ⟨run.record.name, generics⟩
      (some (Context.marker run.runtime)) []).implements run.record.name direction = true := by
    rw [same, Item.implements_implement, Path.lastName?_extend, beq_iff_eq]
  rw [Item.implements_implement, Context.marker, Path.lastName?_extend, beq_iff_eq] at implements
  exact direction.trait_ne_marker (Option.some.inj implements).symm

end Run

/--
Where coding generates the marker without a request for it, the trait of a direction is implemented
next to the struct or by what is generated, unless a declaration next to the struct only stands in
for an impl.
-/
theorem expand_marker {codable : Codable} {tokens : List Token} {args : CodableArguments}
    {item : Item} {context : Context} {expansion : Expansion}
    (read : codable.readArguments tokens = .ok args) (unasked : args.conform = none)
    (unset : context.config.conformances = none)
    (expanded : codable.expand tokens item context = .ok expansion) :
    ∃ run : Run codable tokens item context, run.expansion = expansion ∧
      (run.Marks → ∀ direction, run.implements direction = true ↔
        ((run.record.container.around []).any (·.standsIn run.record.name direction) = true →
          (run.record.container.around []).any
            (·.implements run.record.name direction) = true)) := by
  obtain ⟨run, rfl⟩ := Run.expand_eq_ok_iff.mp expanded
  obtain rfl : run.args = args := Except.ok.inj (run.read.symm.trans read)
  refine ⟨run, rfl, fun marks direction => ?_⟩
  -- The record is coded in the direction, or an impl is generated, but not both.
  have complete := CodingImpls.complete_iff.mp (run.complete_of_marks unasked unset marks) direction
  have either : run.impls.codes direction = true → run.record.existing.codes direction = false :=
    CodingImpls.codes_ofMapping
  rw [Record.codes_existing run.found] at complete either
  rw [Run.implements, List.any_append, run.any_implements_generated unasked unset]
  revert complete either
  cases (run.record.container.around []).any (·.implements run.record.name direction) <;>
    cases (run.record.container.around []).any (·.standsIn run.record.name direction) <;>
      cases run.impls.codes direction <;> simp

/-- The marker is generated for a struct in a module with nothing next to it, and it is sound. -/
theorem expand_marker_vault : ∃ args expansion, standard.readArguments [] = .ok args ∧
    args.conform = none ∧
      standard.expand [] .vault ⟨{}, Context.standardRuntime⟩ = .ok expansion ∧
        ∃ run : Run standard [] .vault ⟨{}, Context.standardRuntime⟩, run.expansion = expansion ∧
          run.Marks ∧ ∀ direction, run.implements direction = true := by
  let known : Run standard [] .vault ⟨{}, Context.standardRuntime⟩ :=
    ⟨_, _, _, _, _, _, rfl, rfl, rfl, rfl, rfl, rfl, rfl⟩
  obtain ⟨run, whole, sound⟩ := expand_marker (rfl : standard.readArguments [] = .ok {}) rfl rfl
    (Run.expand_eq_ok_iff.mpr ⟨known, rfl⟩)
  obtain rfl : run = known := Run.unique _ _
  have marks : Run.Marks known := ⟨_, .tail _ (.tail _ (.head _))⟩
  refine ⟨{}, _, rfl, rfl, Run.expand_eq_ok_iff.mpr ⟨known, rfl⟩, known, rfl, marks,
    fun direction => (sound marks direction).mpr fun stands => ?_⟩
  -- The struct is all that the module holds, and it stands in for nothing.
  cases direction <;> cases stands

/-- The marker is generated though nothing implements the decoding trait. -/
def Unsound (source : List Token) : Prop :=
  ∃ item, Grammar.read (·.item) source = .ok item ∧
    ∃ run : Run standard [] item ⟨{}, Context.standardRuntime⟩, run.args.conform = none ∧
      run.Marks ∧ run.implements .decoding = false

set_option maxRecDepth 4000 in
/--
The marker is not sound next to a function that takes a decoder, nor next to an impl that refuses
the trait.
-/
theorem expand_marker_fails :
    Unsound (moduleTokens "a" [Token.word "impl", Token.word "A", Token.braces
      [Token.word "fn", Token.word "read", Token.parens [Token.word "d", .punct ':' false .origin,
        .punct '&' false .origin, Token.word "Decoder"], Token.braces []]]) ∧
    Unsound (moduleTokens "a" [Token.word "impl", .punct '!' false .origin,
      Token.word "Decodable", Token.word "for", Token.word "A", Token.braces []]) :=
  ⟨⟨_, rfl, ⟨_, _, _, _, _, _, rfl, rfl, rfl, rfl, rfl, rfl, rfl⟩, rfl, ⟨_, .tail _ (.head _)⟩, rfl⟩,
    ⟨_, rfl, ⟨_, _, _, _, _, _, rfl, rfl, rfl, rfl, rfl, rfl, rfl⟩, rfl, ⟨_, .tail _ (.head _)⟩, rfl⟩⟩

end Codable

end KeyedCoding
