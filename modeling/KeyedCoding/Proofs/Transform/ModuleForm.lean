import KeyedCoding.Proofs.Transform.Frame
import KeyedCoding.Transform.Registry

/-!
Records in two forms: a struct on its own, and the same struct in a module of declarations that have
nothing to do with it. A transformer makes the same of both.
-/

namespace KeyedCoding

/--
A declaration next to a struct that has nothing to do with it: no struct, no enum with a name that
key types have, and no impl for the struct.
-/
def Item.UnrelatedTo (name : Name) (item : Item) : Prop :=
  match item with
  | .struct _ => False
  | .enum decl => decl.head.name.spelling ≠ "CodingKeys" ∧
      decl.head.name.spelling ≠ name.plain ++ "CodingKeys"
  | .impl decl => decl.target.name? ≠ some name.spelling
  | _ => True

/-- An unrelated declaration is no struct. -/
theorem Item.not_isStruct_of_unrelated {name : Name} {item : Item}
    (unrelated : item.UnrelatedTo name) : ¬item.IsStruct := by
  -- A struct would be related to every declaration in its module.
  rintro ⟨decl, rfl⟩
  exact unrelated

/-- An unrelated declaration provides nothing for the struct. -/
theorem ExistingMembers.withItem_of_unrelated {name : Name} {existing : ExistingMembers}
    {item : Item} (unrelated : item.UnrelatedTo name) : withItem name existing item = existing := by
  -- Only enums and impls could provide something, and these two have other names.
  cases item with
  | enum decl =>
    obtain ⟨general, own⟩ := unrelated
    have other : (decl.head.name == Target.keysNameOf name) = false := by
      rw [← Bool.not_eq_true, Name.beq_eq_true_iff]
      exact own
    simp [withItem, general, other]
  | impl decl =>
    have other : decl.target.name? ≠ some name.spelling := unrelated
    simp [withItem, other]
  | _ => rfl

/-- Unrelated declarations provide nothing for the struct. -/
theorem ExistingMembers.foldl_withItem_of_unrelated {name : Name} {existing : ExistingMembers}
    {items : List Item} (unrelated : ∀ item ∈ items, item.UnrelatedTo name) :
    items.foldl (withItem name) existing = existing := by
  -- What is known stays as it is from one declaration to the next.
  induction items with
  | nil => rfl
  | cons item rest ih =>
    rw [List.forall_mem_cons] at unrelated
    rw [List.foldl_cons, withItem_of_unrelated unrelated.1, ih unrelated.2]

/-- A module with a place for one declaration, between those before it and those behind it. -/
structure Surroundings where
  attributes : List Attribute
  head : List Token
  name : Name
  before : List Item
  after : List Item

namespace Surroundings

/-- The module with a declaration in its place, and more of them at the end. -/
def holding (around : Surroundings) (item : Item) (more : List Item) : Item :=
  .mod ⟨around.attributes, around.head, around.name,
    some (around.before ++ item :: (around.after ++ more))⟩

/-- All declarations around the place are unrelated to a struct. -/
def UnrelatedTo (around : Surroundings) (name : Name) : Prop :=
  ∀ item ∈ around.before ++ around.after, item.UnrelatedTo name

/--
What a transformer makes of a struct agrees with what it makes of the module around it: both fail
alike, or the module holds the first declaration in the place of the struct and the others at its
end, with the same findings.
-/
inductive Agrees (around : Surroundings) : Synthesis Expansion → Synthesis Expansion → Prop
  | refused (fault : SynthesisError) : Agrees around (.error fault) (.error fault)
  | expanded (first : Item) (rest : List Item) (diagnostics : List Diagnostic) :
      Agrees around (.ok ⟨first :: rest, diagnostics⟩)
        (.ok ⟨[around.holding first rest], diagnostics⟩)

/-- What a struct expands to says what the module around it expands to. -/
theorem Agrees.eq_of_expanded {around : Surroundings} {inside : Synthesis Expansion} {first : Item}
    {rest : List Item} {diagnostics : List Diagnostic}
    (agrees : around.Agrees (.ok ⟨first :: rest, diagnostics⟩) inside) :
    inside = .ok ⟨[around.holding first rest], diagnostics⟩ := by
  -- There is one way to agree with a success.
  cases agrees
  rfl

/-- Results that agree after every result of a step agree with the step before them. -/
theorem Agrees.bind {around : Surroundings} {α : Type} {step : Synthesis α}
    {bare inside : α → Synthesis Expansion}
    (onward : ∀ value, step = .ok value → around.Agrees (bare value) (inside value)) :
    around.Agrees (step >>= bare) (step >>= inside) := by
  -- A step that fails refuses both alike.
  cases step with
  | error fault => exact .refused fault
  | ok value => exact onward value rfl

variable (around : Surroundings) {decl : Struct} {transformer : String} {tokens : List Token}
  {context : Context}

/-- The container of a struct in the place. -/
def container (decl : Struct) : Container :=
  .module ⟨around.attributes, around.head, around.name,
    some (around.before ++ .struct decl :: around.after)⟩ around.before.length

/-- A record seen inside the module. -/
def record (decl : Struct) (bare : Record) : Record :=
  { bare with container := around.container decl }

/-- What is known of a record, seen inside the module. -/
def inspection (decl : Struct) (bare : Inspection) : Inspection :=
  ⟨around.record decl bare.record, bare.fields⟩

/-- The struct of the module is the record of the struct alone, but for its container. -/
theorem asRecord_holding (unrelated : around.UnrelatedTo decl.head.name) :
    (around.holding (.struct decl) []).asRecord =
      (Item.struct decl).asRecord.map (around.record decl) := by
  obtain ⟨front, back⟩ := List.forall_mem_append.mp unrelated
  -- It is the only struct there.
  have only : Module.structsFrom 0 (around.before ++ .struct decl :: around.after) =
      [(around.before.length, decl)] := by
    refine Module.structsFrom_append_cons_eq_singleton_iff.mpr ⟨?_, ?_, by simp⟩
    · exact fun item inside => Item.not_isStruct_of_unrelated (front item inside)
    · exact fun item inside => Item.not_isStruct_of_unrelated (back item inside)
  -- Nothing around it, and not the struct itself, provides anything.
  have provided (existing : ExistingMembers) :
      (around.before ++ .struct decl :: around.after).foldl (.withItem decl.head.name) existing =
        existing := by
    rw [List.foldl_append, ExistingMembers.foldl_withItem_of_unrelated front, List.foldl_cons]
    exact ExistingMembers.foldl_withItem_of_unrelated back
  simp only [holding, List.append_nil, Item.asRecord, Module.asRecord, only]
  obtain ⟨head, fields⟩ := decl
  cases fields with
  | named fields trailing =>
    simp only [Struct.asRecord, bind, Except.bind, Except.map, Record.name, provided]
    rfl
  | positional slots trailing => rfl
  | unit => rfl

/-- Inspection finds out the same of both forms, but for the container. -/
theorem ofItem_holding (unrelated : around.UnrelatedTo decl.head.name) :
    Inspection.ofItem transformer (around.holding (.struct decl) []) =
      (Inspection.ofItem transformer (.struct decl)).map (around.inspection decl) := by
  rw [Inspection.ofItem, Inspection.ofItem, around.asRecord_holding unrelated]
  -- What is said about the fields does not depend on the container.
  cases (Item.struct decl).asRecord with
  | error unsupported => rfl
  | ok bare =>
    change (FieldInfo.ofFields bare.fields >>= _) = (FieldInfo.ofFields bare.fields >>= _).map _
    cases FieldInfo.ofFields bare.fields <;> rfl

/-- A struct that is put back stands in its place, and what is generated at the module's end. -/
theorem reassemble_record {bare : Record} (stripped : Struct) (generated : List Item) :
    (around.record decl bare).reassemble stripped generated =
      [around.holding (.struct stripped) generated] := by
  -- The place is the index of the container.
  simp [record, container, Record.reassemble, holding]

/-- A struct that is put back on its own stands before what is generated. -/
theorem agrees_reassemble {bare : Record} (alone : bare.container = .bare) (stripped : Struct)
    (generated : List Item) (diagnostics : List Diagnostic) :
    around.Agrees (.ok ⟨bare.reassemble stripped generated, diagnostics⟩)
      (.ok ⟨(around.record decl bare).reassemble stripped generated, diagnostics⟩) := by
  -- Both put the struct back at its place, with what is generated behind it.
  rw [reassemble_record, Record.reassemble, alone]
  exact .expanded (.struct stripped) generated diagnostics

/-- After the inspection of both forms, they agree if they agree on every record of its own. -/
theorem agrees_inspected (unrelated : around.UnrelatedTo decl.head.name)
    {alone inside : Inspection → Synthesis Expansion}
    (agrees : ∀ bare : Inspection, bare.record.container = .bare →
      around.Agrees (alone bare) (inside (around.inspection decl bare))) :
    around.Agrees (Inspection.ofItem transformer (.struct decl) >>= alone)
      (Inspection.ofItem transformer (around.holding (.struct decl) []) >>= inside) := by
  rw [around.ofItem_holding unrelated]
  cases inspected : Inspection.ofItem transformer (.struct decl) with
  | error fault => exact .refused fault
  | ok bare =>
    -- A struct on its own has no container.
    refine agrees bare ?_
    obtain ⟨-, ⟨-, container⟩ | ⟨_, _, _, _, _, module, -⟩⟩ :=
      Item.asRecord_eq_ok_iff.mp (Inspection.ofItem_eq_ok_iff.mp inspected).1
    · exact container
    · cases module

/-- The coding transformers make the same of both forms. -/
theorem agrees_codable (unrelated : around.UnrelatedTo decl.head.name) (codable : Codable) :
    around.Agrees (codable.expand tokens (.struct decl) context)
      (codable.expand tokens (around.holding (.struct decl) []) context) := by
  rw [Codable.expand, Codable.expand]
  refine .bind fun args _ => around.agrees_inspected unrelated fun bare alone => ?_
  -- No step looks at the container, so each of them gives the same, up to the last one.
  refine @Agrees.bind around _ (KeyMapping.ofRecord (codable.policy args context.config) bare) _ _
    fun mapping _ => ?_
  refine @Agrees.bind around _ ((Codable.CodingImpls.ofMapping bare mapping).declarations
    (args.runtime.getD context.runtime)) _ _ fun coding _ => ?_
  refine @Agrees.bind around _ (Codable.requested args context (args.runtime.getD context.runtime)
    ((Codable.CodingImpls.ofMapping bare mapping).complete bare.record)) _ _ fun requested _ => ?_
  refine @Agrees.bind around _ ((((Conformance.ofRequest? bare.record
    (Conformance.missing bare.record requested)).map (·.withGenerics
      ((Codable.CodingImpls.ofMapping bare mapping).boundGenerics bare.record.generics
        (args.runtime.getD context.runtime)))).map (·.declarations)).getD (.ok [])) _ _
          fun conforming _ => ?_
  refine @Agrees.bind around _ (Codable.attributesWith bare.record.head.attributes
    (mapping.stored bare.fields) (args.runtime.getD context.runtime) args.runtime.isSome) _ _
    fun attributes _ => ?_
  exact around.agrees_reassemble alone _ _ _

/-- The key type transformer makes the same of both forms. -/
theorem agrees_keyType (unrelated : around.UnrelatedTo decl.head.name) :
    around.Agrees (KeyType.expand tokens (.struct decl) context)
      (KeyType.expand tokens (around.holding (.struct decl) []) context) := by
  rw [KeyType.expand, KeyType.expand]
  refine .bind fun args _ => around.agrees_inspected unrelated fun bare alone => ?_
  refine @Agrees.bind around _ (KeyType.checkUnmapped bare.record) _ _ fun _ _ => ?_
  refine @Agrees.bind around _ (KeyType.checkFields bare args.mapping) _ _ fun _ _ => ?_
  -- An empty mapping leaves both forms untouched.
  cases args.mapping.isEmpty with
  | true => exact .expanded (.struct decl) [] []
  | false =>
    refine @Agrees.bind around _ (KeyType.declarations args.mapping bare.record
      (args.runtime.getD context.runtime)) _ _ fun generated _ => ?_
    exact around.agrees_reassemble alone _ _ _

/-- Secure storage makes the same of both forms. -/
theorem agrees_secureStorage (unrelated : around.UnrelatedTo decl.head.name) :
    around.Agrees (SecureStorage.expand tokens (.struct decl) context)
      (SecureStorage.expand tokens (around.holding (.struct decl) []) context) := by
  rw [SecureStorage.expand_eq, SecureStorage.expand_eq]
  refine .bind fun args _ => around.agrees_inspected unrelated fun bare alone => ?_
  refine .bind fun store _ => ?_
  refine @Agrees.bind around _ (bare.record.fields.mapM (SecureStorage.place store)) _ _
    fun placements _ => ?_
  -- Without a secure field both forms stay untouched.
  cases (SecureStorage.secured placements).isEmpty with
  | true => exact .expanded (.struct decl) [] _
  | false =>
    refine @Agrees.bind around _ (SecureField.declaration bare.record.target
      (SecureStorage.secured placements) (args.runtime.getD context.runtime)) _ _
      fun accessors _ => ?_
    exact around.agrees_reassemble alone _ _ _

end Surroundings

/--
Every transformer that comes with the library makes the same of a struct and of a module that holds
it among unrelated declarations, whatever the arguments and the settings are.
-/
theorem Transformer.agrees_builtin {transformer : Transformer}
    (builtin : transformer ∈ Registry.builtin.transformers) {around : Surroundings} {decl : Struct}
    (unrelated : around.UnrelatedTo decl.head.name) (tokens : List Token) (context : Context) :
    around.Agrees (transformer.expand tokens (.struct decl) context)
      (transformer.expand tokens (around.holding (.struct decl) []) context) := by
  -- There are the two coding transformers, the one for key types, and secure storage.
  rcases List.mem_cons.mp builtin with rfl | builtin
  · exact around.agrees_codable unrelated .standard
  rcases List.mem_cons.mp builtin with rfl | builtin
  · exact around.agrees_codable unrelated .ignoreInitialized
  rcases List.mem_cons.mp builtin with rfl | builtin
  · exact around.agrees_keyType unrelated
  · rw [List.mem_singleton.mp builtin]
    exact around.agrees_secureStorage unrelated

/-- A struct with one field. -/
def Struct.badge : Struct where
  head := ⟨[], [], .origin, ⟨"Badge", .origin⟩, .empty⟩
  fields := .named [⟨[], [], ⟨"id", .origin⟩, .path (.ofName ⟨"u8", .origin⟩)⟩] false

/-- A module with a place between an import and two declarations of other types. -/
def Surroundings.lobby : Surroundings where
  attributes := []
  head := [Token.word "mod"]
  name := ⟨"lobby", .origin⟩
  before := [.other .use ([Token.word "use", Token.word "gate"] ++ Token.symbol ";")]
  after :=
    [.enum ⟨⟨[], [], .origin, ⟨"Door", .origin⟩, .empty⟩, [], false⟩,
     Target.implement ⟨⟨"Door", .origin⟩, .empty⟩ (some (.ofName ⟨"Decodable", .origin⟩)) []]

/-- In that module the struct is coded just as it is on its own. -/
theorem Transformer.agrees_builtin_lobby : ∃ first rest diagnostics,
    Codable.standard.expand [] (.struct .badge) ⟨{}, Context.standardRuntime⟩ =
        .ok ⟨first :: rest, diagnostics⟩ ∧
      Surroundings.lobby.UnrelatedTo Struct.badge.head.name ∧
        Codable.standard.expand [] (Surroundings.lobby.holding (.struct .badge) [])
          ⟨{}, Context.standardRuntime⟩ =
            .ok ⟨[Surroundings.lobby.holding first rest], diagnostics⟩ := by
  -- Neither of the declarations around the struct is about it.
  have unrelated : Surroundings.lobby.UnrelatedTo Struct.badge.head.name := by
    refine List.forall_mem_cons.mpr ⟨trivial, List.forall_mem_cons.mpr ⟨⟨by decide, by decide⟩,
      List.forall_mem_singleton.mpr ?_⟩⟩
    exact fun same => absurd same (by decide)
  obtain ⟨first, rest, diagnostics, codes⟩ : ∃ first rest diagnostics,
      Codable.standard.expand [] (.struct .badge) ⟨{}, Context.standardRuntime⟩ =
        .ok ⟨first :: rest, diagnostics⟩ := ⟨_, _, _, rfl⟩
  have agrees := @agrees_builtin Codable.standard.transformer (.head _) _ _ unrelated []
    ⟨{}, Context.standardRuntime⟩
  change Surroundings.lobby.Agrees (Codable.standard.expand ..) (Codable.standard.expand ..)
    at agrees
  rw [codes] at agrees
  exact ⟨first, rest, diagnostics, codes, unrelated, agrees.eq_of_expanded⟩

end KeyedCoding
