import KeyedCoding.Proofs.Transform.Codable
import KeyedCoding.Proofs.Transform.KeyType
import KeyedCoding.Proofs.Transform.SecureStorage

/-!
What expansions leave alone: the struct of a declaration is edited in its place, and everything
around it comes back as it was, before all that is generated.
-/

namespace KeyedCoding

/--
The declarations that come back from one whose struct is edited: a struct on its own comes first; a
module comes back alone and keeps its head and its other declarations, none of them a struct.
-/
inductive Item.Framed (edit : Struct → Struct → Prop) : Item → List Item → Prop
  | struct {old new : Struct} (generated : List Item) (edited : edit old new) :
      Framed edit (.struct old) (.struct new :: generated)
  | module {attributes : List Attribute} {head : List Token} {name : Name}
      {before after : List Item} {old new : Struct} (generated : List Item)
      (only : ∀ other ∈ before ++ after, ¬other.IsStruct) (edited : edit old new) :
      Framed edit (.mod ⟨attributes, head, name, some (before ++ .struct old :: after)⟩)
        [.mod ⟨attributes, head, name, some (before ++ .struct new :: (after ++ generated))⟩]

/-- A record is put back in this way, whatever struct takes its place and whatever is generated. -/
theorem Record.framed_reassemble {edit : Struct → Struct → Prop} {item : Item} {record : Record}
    {decl : Struct} (found : item.asRecord = .ok record) (edited : edit record.decl decl)
    (generated : List Item) : item.Framed edit (record.reassemble decl generated) := by
  -- A struct alone is followed by what is generated, and in a module it stands at its place.
  rcases Item.shape_of_asRecord found with
    ⟨rfl, alone⟩ | ⟨attributes, head, name, before, after, rfl, only, inside, place⟩
  · rw [reassemble_eq, Record.place, beside, alone]
    exact .struct generated edited
  · rw [reassemble_eq, beside_eq_nil inside, place]
    exact .module generated only edited

/-- A transformer edits structs and leaves everything else alone, wherever it succeeds. -/
def Transformer.Frames (transformer : Transformer) (edit : Struct → Struct → Prop) : Prop :=
  ∀ tokens item context expansion, transformer.expand tokens item context = .ok expansion →
    item.Framed edit expansion.items

namespace Codable

/-- Attributes with at most one more: a key mapping before the first one that derives, or last. -/
inductive Attaches : List Attribute → List Attribute → Prop
  | none {attributes : List Attribute} : Attaches attributes attributes
  | mapping {before after : List Attribute} {attr : Attribute}
      (named : attr.path.lastName? = some KeyMapping.attributeName)
      (front : ∀ other ∈ before, other.path.isName "derive" = false)
      (derives : ∀ first ∈ after.head?, first.path.isName "derive" = true) :
      Attaches (before ++ after) (before ++ attr :: after)

/-- A key mapping that is put before the first attribute that derives is such a one. -/
theorem attaches_insertBeforeDerive {attr : Attribute} {attributes : List Attribute}
    (named : attr.path.lastName? = some KeyMapping.attributeName) :
    Attaches attributes (insertBeforeDerive attr attributes) := by
  -- The list is split where the attribute is put.
  obtain ⟨before, after, whole, inserted, front, derives⟩ : ∃ before after,
      attributes = before ++ after ∧ insertBeforeDerive attr attributes = before ++ attr :: after ∧
        (∀ other ∈ before, other.path.isName "derive" = false) ∧
          ∀ first ∈ after.head?, first.path.isName "derive" = true := by
    induction attributes with
    | nil => exact ⟨[], [], rfl, rfl, by simp, by simp⟩
    | cons first rest ih =>
      rw [insertBeforeDerive]
      split
      · rename_i derives
        exact ⟨[], first :: rest, rfl, rfl, by simp, by simpa using derives⟩
      · -- The first attribute derives nothing, so the place is behind it.
        rename_i other
        obtain ⟨before, after, whole, inserted, front, derives⟩ := ih
        refine ⟨first :: before, after, by rw [whole, List.cons_append],
          by rw [inserted, List.cons_append], ?_, derives⟩
        exact List.forall_mem_cons.mpr ⟨by simpa using other, front⟩
  rw [inserted, whole]
  exact .mapping named front derives

/--
The edit of the coding transformer: the struct may get a key mapping, and its fields lose the
attributes with coding options.
-/
structure Edits (old new : Struct) : Prop where
  head : ∃ attributes, Attaches old.head.attributes attributes ∧
    new.head = { old.head with attributes }
  fields : ∃ fields trailing, old.fields = .named fields trailing ∧
    new.fields = .named (fields.map fun field => { field with
      attributes := field.attributes.filter fun attr => !attr.path.isName Attribute.codableName })
        trailing

/-- A run edits the struct of the record in this way. -/
theorem Run.edits {codable : Codable} {tokens : List Token} {item : Item} {context : Context}
    (run : Run codable tokens item context) :
    Edits run.record.decl (stripped run.record run.attributes) where
  head := by
    refine ⟨run.attributes, ?_, rfl⟩
    rcases run.attributes_eq with ⟨-, same⟩ | ⟨-, attr, fits, same⟩
    · rw [same]
      exact .none
    · rw [same]
      refine attaches_insertBeforeDerive ?_
      rw [(KeyMapping.toAttribute_eq_ok_iff.mp fits).2]
      exact Path.lastName?_extend _ _
  fields := by
    refine ⟨run.record.fields, run.record.trailing, rfl, ?_⟩
    -- One name is stripped.
    simp [stripped, Field.strip, Attribute.strip]

end Codable

/--
The edit of secure storage: the fields with the mark of secure storage leave, and with any of them
the comma at the end.
-/
structure SecureStorage.Edits (old new : Struct) : Prop where
  head : new.head = old.head
  fields : ∃ fields trailing, old.fields = .named fields trailing ∧
    new.fields = .named
      (fields.filter fun field => !field.attributes.any (·.path.isName Attribute.secureName))
      (fields.all (fun field => !field.attributes.any (·.path.isName Attribute.secureName)) &&
        trailing)

/--
Nothing that is written is lost, moved or altered, except that coding may attach a mapping and
strips its options, and that secure storage takes its fields away; key types leave the struct alone.
-/
theorem Transformer.frames_builtin :
    (∀ codable : Codable, codable.transformer.Frames Codable.Edits) ∧
      KeyType.transformer.Frames Eq ∧ SecureStorage.transformer.Frames SecureStorage.Edits := by
  -- Each transformer puts its record back, and says which struct takes the place of the old one.
  refine ⟨fun codable tokens item context expansion expanded => ?_,
    fun tokens item context expansion expanded => ?_,
    fun tokens item context expansion expanded => ?_⟩
  · obtain ⟨run, rfl⟩ := Codable.Run.expand_eq_ok_iff.mp expanded
    rw [Codable.Run.expansion, Codable.Run.first, ← Record.reassemble_eq]
    exact Record.framed_reassemble run.found run.edits _
  · obtain ⟨args, record, -, found, -, -, items⟩ := KeyType.exists_of_expand expanded
    rw [items]
    exact Record.framed_reassemble found rfl _
  · obtain ⟨run, rfl⟩ := SecureStorage.expand_eq_ok_iff.mp expanded
    exact Record.framed_reassemble run.found ⟨rfl, _, _, rfl, rfl⟩ _

/-- A module with a struct that derives, and has a field with a coding option and a secure one. -/
def Item.vault : Item :=
  let marked (name : String) (body : List Token) : Attribute :=
    .withList (.ofName ⟨name, .origin⟩) body
  let text : Ty := .path (.ofName ⟨"String", .origin⟩)
  let readonly := marked Attribute.codableName [Token.word "readonly"]
  let secure := marked Attribute.secureName [.literal "\"k\"" .origin]
  .mod ⟨[], [Token.word "mod"], ⟨"m", .origin⟩, some [.struct
    { head := ⟨[marked "derive" [Token.word "Debug"]], [], .origin, ⟨"A", .origin⟩, .empty⟩
      fields := .named
        [⟨[readonly], [], ⟨"a", .origin⟩, text⟩, ⟨[secure], [], ⟨"b", .origin⟩, text⟩] false }]⟩

set_option maxRecDepth 4000 in
/-- The transformers succeed on that module, so this is how it comes back. -/
theorem Transformer.frames_builtin_vault : ∃ coded keyed secured,
    Codable.standard.expand [] .vault ⟨{}, Context.standardRuntime⟩ = .ok coded ∧
      KeyType.expand [Token.word "a"] .vault ⟨{}, Context.standardRuntime⟩ = .ok keyed ∧
      SecureStorage.expand [] .vault ⟨{}, Context.standardRuntime⟩ = .ok secured ∧
      Item.vault.Framed Codable.Edits coded.items ∧ Item.vault.Framed Eq keyed.items ∧
        Item.vault.Framed SecureStorage.Edits secured.items := by
  -- The three runs are computed, and each is framed as the general statement says.
  obtain ⟨coded, codes⟩ : ∃ coded,
      Codable.standard.expand [] .vault ⟨{}, Context.standardRuntime⟩ = .ok coded := ⟨_, rfl⟩
  obtain ⟨keyed, keys⟩ : ∃ keyed,
      KeyType.expand [Token.word "a"] .vault ⟨{}, Context.standardRuntime⟩ = .ok keyed := ⟨_, rfl⟩
  obtain ⟨secured, secures⟩ : ∃ secured,
      SecureStorage.expand [] .vault ⟨{}, Context.standardRuntime⟩ = .ok secured := ⟨_, rfl⟩
  exact ⟨coded, keyed, secured, codes, keys, secures, frames_builtin.1 _ _ _ _ _ codes,
    frames_builtin.2.1 _ _ _ _ keys, frames_builtin.2.2 _ _ _ _ secures⟩

end KeyedCoding
