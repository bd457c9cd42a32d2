import KeyedCoding.Proofs.Transform.Codable
import KeyedCoding.Proofs.Transform.KeyType

/-!
Transformers that are about key mappings: on a record that carries a mapping, none of them succeeds,
and each one reports the conflict.
-/

namespace KeyedCoding

/-- A transformer that is about key mappings: one for coding, or the one for key types. -/
inductive Mapper where
  | coding (codable : Codable)
  | keyType

namespace Mapper

/-- The transformer. -/
def transformer : Mapper → Transformer
  | coding codable => codable.transformer
  | keyType => KeyType.transformer

/-- A transformer accepts arguments that it can read. -/
def Accepts (mapper : Mapper) (tokens : List Token) : Prop :=
  match mapper with
  | coding codable => ∃ args, codable.readArguments tokens = .ok args
  | keyType => ∃ args, MappingArguments.ofTokens tokens = .ok args

variable {mapper : Mapper} {tokens : List Token} {item : Item} {context : Context}
  {record : Record} {expansion : Expansion}

/-- On a record with a mapping, accepted arguments lead to the conflict and nothing else. -/
theorem expand_conflict (accepted : mapper.Accepts tokens) (found : item.asRecord = .ok record)
    (described : ∃ infos, FieldInfo.ofFields record.fields = .ok infos) {pos : Position}
    (mapped : record.existing.keyMapping = some pos) :
    mapper.transformer.expand tokens item context =
      .error (.conflictingMapping record.name.spelling pos) := by
  obtain ⟨infos, described⟩ := described
  have inspected (name : String) : Inspection.ofItem name item = .ok ⟨record, infos⟩ :=
    Inspection.ofItem_eq_ok_iff.mpr ⟨found, described⟩
  -- Both kinds look for a mapping right after the inspection.
  cases mapper with
  | coding codable =>
    obtain ⟨args, read⟩ := accepted
    change codable.expand tokens item context = _
    rw [Codable.expand]
    simp only [read, inspected, bind, Except.bind, KeyMapping.ofRecord, mapped]
  | keyType =>
    obtain ⟨args, read⟩ := accepted
    change KeyType.expand tokens item context = _
    rw [KeyType.expand]
    simp only [read, inspected, bind, Except.bind, KeyType.checkUnmapped, mapped]

/-- An expansion has found a record without a mapping. -/
theorem unmapped_of_expand (found : item.asRecord = .ok record)
    (expanded : mapper.transformer.expand tokens item context = .ok expansion) :
    record.existing.keyMapping = none := by
  -- Coding and key types look at the mapping before they make one of their own.
  cases mapper with
  | coding codable =>
    obtain ⟨run, -⟩ := Codable.Run.exists_of_expand expanded
    obtain rfl := Except.ok.inj (found.symm.trans run.found)
    exact run.unmapped
  | keyType =>
    obtain ⟨args, other, -, again, unmapped, -⟩ := KeyType.exists_of_expand expanded
    obtain rfl := Except.ok.inj (found.symm.trans again)
    exact unmapped

end Mapper

/--
A declaration that no transformer gives a mapping: none succeeds on it, and with accepted arguments
each one reports the conflict about the type.
-/
def Item.Refuses (name : String) (item : Item) : Prop :=
  ∀ (mapper : Mapper) tokens context,
    (∀ expansion, mapper.transformer.expand tokens item context ≠ .ok expansion) ∧
      (mapper.Accepts tokens → ∃ pos,
        mapper.transformer.expand tokens item context = .error (.conflictingMapping name pos))

/-- A record with a mapping and described fields is such a declaration. -/
theorem Item.refuses_of_mapped {item : Item} {record : Record} (found : item.asRecord = .ok record)
    (described : ∃ infos, FieldInfo.ofFields record.fields = .ok infos)
    (mapped : record.existing.keyMapping ≠ none) : item.Refuses record.name.spelling := by
  -- Neither mapper can succeed, and both report the conflict where their arguments are accepted.
  intro mapper tokens context
  refine ⟨fun expansion expanded => mapped (mapper.unmapped_of_expand found expanded), ?_⟩
  intro accepted
  obtain ⟨pos, carries⟩ := Option.ne_none_iff_exists'.mp mapped
  exact ⟨pos, mapper.expand_conflict accepted found described carries⟩

/-- A module whose only struct stands next to a key mapping for it is such a declaration. -/
theorem Item.refuses_of_mod {attributes : List Attribute} {modHead : List Token} {name : Name}
    {before after : List Item} {head : TypeHead} {fields : List Field} {trailing : Bool}
    (front : ∀ item ∈ before, ¬item.IsStruct) (back : ∀ item ∈ after, ¬item.IsStruct)
    (described : ∃ infos, FieldInfo.ofFields fields = .ok infos)
    (mapping : ∃ other ∈ before ++ .struct ⟨head, .named fields trailing⟩ :: after,
      other.mapsKeys head.name = true) :
    (Item.mod ⟨attributes, modHead, name,
      some (before ++ .struct ⟨head, .named fields trailing⟩ :: after)⟩).Refuses
        head.name.spelling := by
  let body := before ++ .struct ⟨head, .named fields trailing⟩ :: after
  let record : Record := ⟨head, fields, trailing,
    .module ⟨attributes, modHead, name, some body⟩ before.length, Record.existingAmong head body⟩
  have found : (Item.mod ⟨attributes, modHead, name, some body⟩).asRecord = .ok record := by
    refine Item.asRecord_eq_ok_iff.mpr ⟨by simp [record, Container.around], .inr
      ⟨attributes, modHead, name, body, before.length, rfl, rfl, ?_⟩⟩
    rw [Module.structsFrom_append_cons_eq_singleton_iff]
    exact ⟨front, back, by simp [record, Record.decl]⟩
  refine refuses_of_mapped found described ?_
  -- The declarations next to the struct hold a mapping for it.
  obtain ⟨other, inside, maps⟩ := mapping
  intro unmapped
  have none := (ExistingMembers.keyMapping_foldl_withItem.mp unmapped).2 other inside
  rw [maps] at none
  cases none

end KeyedCoding
