import KeyedCoding.Proofs.Grammar.Splice
import KeyedCoding.Proofs.Transform.Splicing
import KeyedCoding.Transform.Registry

/-!
Accepted paths: which paths of the runtime the settings and the arguments let through, how the code
that is generated with them is read, and when a registered transformer breaks off all the same.
-/

namespace KeyedCoding

section Accepted

open Reader

variable {tokens : List Token}

/-- Arguments of secure storage name at most a written path for the runtime. -/
theorem StorageArguments.runtime_written {args : StorageArguments}
    (read : ofTokens tokens = .ok args) : ∀ path, args.runtime = some path → path.Written := by
  -- Each argument that is read either names the runtime or leaves it as it was.
  have gives (g : Grammar) : (Grammar.arguments (readArgument g) {}).Gives
      fun args => ∀ path, args.runtime = some path → path.Written := by
    refine Grammar.arguments_gives (fun args path known => ?_) fun path absent => by cases absent
    unfold readArgument
    split
    · exact Gives.then fun store => Gives.pure known
    · split
      · refine Gives.bind CodableArguments.quotedPath_gives fun runtime written =>
          Gives.pure fun path same => ?_
        exact Option.some.inj same ▸ written
      · exact Gives.failAt _ _
  exact Gives.of_run (gives _) read

/-- Arguments of a mapping name at most a written path for the runtime. -/
theorem MappingArguments.runtime_written {args : MappingArguments}
    (read : ofTokens tokens = .ok args) : ∀ path, args.runtime = some path → path.Written := by
  obtain ⟨entries, -, added⟩ := bind_eq_ok_iff.mp read
  -- An entry leaves the path alone, and an argument for the path brings one from a literal.
  refine @foldlM_keeps _ _ _ _ (fun args => ∀ path, args.runtime = some path → path.Written) _
    (fun state item after _ known step => ?_) _ _ (fun path absent => by cases absent) added
  rcases add_cases step with ⟨-, literal, path, -, found, rfl⟩ | ⟨-, field, key, -, -, -, rfl⟩
  · intro other same
    exact Option.some.inj same ▸ .literal found
  · exact known

/-- A path that arguments name for the runtime. -/
inductive NamesRuntime (tokens : List Token) (path : Path) : Prop
  | coding {args : CodableArguments} (read : CodableArguments.ofTokens tokens = .ok args)
      (named : args.runtime = some path) : NamesRuntime tokens path
  | mapping {args : MappingArguments} (read : MappingArguments.ofTokens tokens = .ok args)
      (named : args.runtime = some path) : NamesRuntime tokens path
  | storage {args : StorageArguments} (read : StorageArguments.ofTokens tokens = .ok args)
      (named : args.runtime = some path) : NamesRuntime tokens path

/-- A path of the runtime that is accepted: the settings or the arguments of a transformer name it. -/
inductive AcceptedRuntime (path : Path) : Prop
  | settings {config : Config} {context : Context} (made : Context.ofConfig config = .ok context)
      (same : context.runtime = path) : AcceptedRuntime path
  | arguments {tokens : List Token} (named : NamesRuntime tokens path) : AcceptedRuntime path

/-- An accepted path is a written one. -/
theorem AcceptedRuntime.written {path : Path} (accepted : AcceptedRuntime path) : path.Written := by
  -- The path comes from settings, from the standard, or from the arguments of a transformer.
  cases accepted with
  | @settings config context made same =>
    subst same
    rw [Context.ofConfig] at made
    split at made
    · obtain ⟨path, read, same⟩ := bind_eq_ok_iff.mp made
      cases same
      exact .setting read
    · cases made
      exact .standard
  | arguments named =>
    cases named with
    | coding read named => exact CodableArguments.runtime_written read path named
    | mapping read named => exact MappingArguments.runtime_written read path named
    | storage read named => exact StorageArguments.runtime_written read path named

end Accepted

namespace Registry

variable {name : String} {tokens : List Token} {item : Item} {context : Context}

/-- What the transformer of a name cannot write code for. -/
inductive Blocked (tokens : List Token) (item : Item) (context : Context) : String → Prop
  | standard (blocked : Codable.standard.Blocked tokens item context) :
      Blocked tokens item context Codable.standard.name
  | ignoreInitialized (blocked : Codable.ignoreInitialized.Blocked tokens item context) :
      Blocked tokens item context Codable.ignoreInitialized.name
  | keyType (blocked : KeyType.Blocked tokens item context) :
      Blocked tokens item context KeyType.name
  | secureStorage (blocked : SecureStorage.Blocked tokens item context) :
      Blocked tokens item context SecureStorage.name

/-- What the transformer of expressions with a name cannot write an expression for. -/
inductive BlockedExpression (tokens : List Token) (context : Context) : String → Prop
  | base64 {literal : Token} (single : IsTextLiteral tokens literal)
      (misfit : context.runtime.opensExpression = false) :
      BlockedExpression tokens context Base64Encoded.name
  | url {literal : Token} (single : IsTextLiteral tokens literal)
      (valid : Url.check literal.textValue = .ok ())
      (misfit : context.runtime.opensExpression = false) :
      BlockedExpression tokens context CheckedUrl.name

/-- A transformer that is found is registered, and it has the name. -/
theorem of_find? {registry : Registry} {transformer : Transformer}
    (found : registry.find? name = some transformer) :
    transformer ∈ registry.transformers ∧ transformer.name = name :=
  ⟨List.mem_of_find?_eq_some found, by simpa using List.find?_some found⟩

/-- The same holds of a transformer of expressions. -/
theorem of_findExpression? {registry : Registry} {transformer : ExpressionTransformer}
    (found : registry.findExpression? name = some transformer) :
    transformer ∈ registry.expressions ∧ transformer.name = name :=
  ⟨List.mem_of_find?_eq_some found, by simpa using List.find?_some found⟩

/-- A registered transformer breaks off exactly if it is blocked, and no other name does. -/
theorem expand_eq_unspliceable_iff :
    builtin.expand name tokens item context = .error .unspliceable ↔
      Blocked tokens item context name := by
  -- The registry has four transformers, and each of them says when it breaks off.
  constructor
  · intro failed
    rw [expand] at failed
    split at failed
    · rename_i transformer found
      obtain ⟨registered, rfl⟩ := of_find? found
      simp only [builtin, builtinTransformers, List.mem_cons, List.not_mem_nil, or_false]
        at registered
      rcases registered with rfl | rfl | rfl | rfl
      · exact .standard (Codable.expand_eq_unspliceable_iff.mp failed)
      · exact .ignoreInitialized (Codable.expand_eq_unspliceable_iff.mp failed)
      · exact .keyType (KeyType.expand_eq_unspliceable_iff.mp failed)
      · exact .secureStorage (SecureStorage.expand_eq_unspliceable_iff.mp failed)
    · -- A name that is not registered is reported.
      cases failed
  · intro blocked
    cases blocked with
    | standard blocked => exact Codable.expand_eq_unspliceable_iff.mpr blocked
    | ignoreInitialized blocked => exact Codable.expand_eq_unspliceable_iff.mpr blocked
    | keyType blocked => exact KeyType.expand_eq_unspliceable_iff.mpr blocked
    | secureStorage blocked => exact SecureStorage.expand_eq_unspliceable_iff.mpr blocked

/-- The same holds of the registered transformers of expressions. -/
theorem expandExpression_eq_unspliceable_iff :
    builtin.expandExpression name tokens context = .error .unspliceable ↔
      BlockedExpression tokens context name := by
  -- The registry has two transformers of expressions, and each of them says when it breaks off.
  constructor
  · -- A transformer that is found is one of the two.
    intro failed
    rw [expandExpression] at failed
    split at failed
    · rename_i transformer found
      obtain ⟨registered, rfl⟩ := of_findExpression? found
      simp only [builtin, builtinExpressions, List.mem_cons, List.not_mem_nil, or_false]
        at registered
      rcases registered with rfl | rfl
      · obtain ⟨literal, single, misfit⟩ := Base64Encoded.expand_eq_unspliceable_iff.mp failed
        exact .base64 single misfit
      · obtain ⟨literal, single, valid, misfit⟩ := CheckedUrl.expand_eq_unspliceable_iff.mp failed
        exact .url single valid misfit
    · -- A transformer that is not found does not break off.
      cases failed
  · intro blocked
    cases blocked with
    | base64 single misfit =>
      exact Base64Encoded.expand_eq_unspliceable_iff.mpr ⟨_, single, misfit⟩
    | url single valid misfit =>
      exact CheckedUrl.expand_eq_unspliceable_iff.mpr ⟨_, single, valid, misfit⟩

/--
Names and paths that all code can hold: no field has the blank name, every path of the runtime that
is in question can name an attribute, and requested traits can open a type.
-/
structure Fits (tokens : List Token) (item : Item) (context : Context) : Prop where
  names : ∀ record, item.asRecord = .ok record → ∀ field ∈ record.fields, field.name.spelling ≠ "_"
  runtime : context.runtime.fitsAttribute = true
  named : ∀ path, NamesRuntime tokens path → path.fitsAttribute = true
  given : ∀ args traits, CodableArguments.ofTokens tokens = .ok args →
    args.conform = some traits → ∀ trait ∈ traits, trait.fitsType = true
  configured : ∀ texts, context.config.conformances = some texts → ∀ text ∈ texts, ∀ trait,
    Path.ofSetting text = .ok trait → trait.fitsType = true

namespace Fits

variable (fits : Fits tokens item context)

include fits

/-- The path that holds can name an attribute: the one that is named, else that of the context. -/
theorem runtime_getD {named : Option Path}
    (known : ∀ path, named = some path → NamesRuntime tokens path) :
    (named.getD context.runtime).fitsAttribute = true := by
  -- A path that is named is accepted with the arguments, and the one of the context with the
  -- settings.
  cases named with
  | none => exact fits.runtime
  | some path => exact fits.named path (known path rfl)

/-- Code can be written for what fits. -/
theorem writable : Codable.Writable tokens item context where
  -- Each part is one of the conditions for the whole expansion.
  names := fits.names
  runtime _ read := fits.runtime_getD fun _ named => .coding read named
  given := fits.given
  configured := fits.configured

/-- Coding is not blocked. -/
theorem not_blocked_codable (codable : Codable) : ¬codable.Blocked tokens item context := by
  rintro ⟨args, taken, inspection, inspected, mapping, -, obstacle⟩
  have read := (Codable.readArguments_eq_ok_iff.mp taken).1
  have runtime := fits.writable.runtime args read
  have opens := Path.fitsType_of_fitsAttribute runtime
  cases obstacle with
  | impls blocked =>
    -- The impls of a record that is described can be declared.
    obtain ⟨found, described⟩ := Inspection.ofItem_eq_ok_iff.mp inspected
    obtain ⟨coding, declared⟩ := @Codable.exists_declarations _ _ mapping _ opens
      (fits.writable.named found described)
    rw [Codable.CodingImpls.declarations_eq_error_iff.mpr ⟨rfl, blocked⟩] at declared
    cases declared
  | @trait traits trait requests missing misfit =>
    have inside : trait ∈ traits := List.mem_of_mem_filter missing
    have good : trait.fitsType = true := by
      -- The arguments, the settings or the runtime have asked for the trait.
      cases Codable.requested_eq_ok_iff.mp requests with
      | given asked => exact fits.given args traits read asked trait inside
      | configured unasked set read =>
        obtain ⟨text, among, path⟩ := exists_of_mem_forall₂ read inside
        exact fits.configured _ set text among trait path
      | marker =>
        rw [List.mem_singleton.mp inside]
        exact Path.fitsType_extend opens (by decide)
      | nothing => cases inside
    rw [good] at misfit
    cases misfit
  | mapping requests stored misfit =>
    rw [runtime] at misfit
    cases misfit

/-- The key type transformer is not blocked. -/
theorem not_blocked_keyType : ¬KeyType.Blocked tokens item context := by
  -- A path that fits an attribute fits a type.
  rintro ⟨args, read, inspection, -, -, -, -, misfit⟩
  have runtime := fits.runtime_getD fun _ named => .mapping read named
  rw [Path.fitsType_of_fitsAttribute runtime] at misfit
  cases misfit

/-- Secure storage is not blocked. -/
theorem not_blocked_secureStorage : ¬SecureStorage.Blocked tokens item context := by
  rintro ⟨args, read, inspection, inspected, obstacle⟩
  -- A path that fits an attribute also opens an expression, so only a blank name could be an
  -- obstacle.
  have runtime := fits.runtime_getD fun _ named => .storage read named
  rw [Path.fitsAttribute, Bool.and_eq_true] at runtime
  have opens := Path.opensExpression_of_isPlain runtime.1
  cases obstacle with
  | store unnamed misfit =>
    rw [opens] at misfit
    cases misfit
  | accessor shared placed leaves misfit =>
    rcases misfit with misfit | blank
    · rw [opens] at misfit
      cases misfit
    · -- The field that leaves is one of the record.
      obtain ⟨found, -⟩ := Inspection.ofItem_eq_ok_iff.mp inspected
      obtain ⟨field, inside, same⟩ := SecureStorage.exists_of_mem_secured placed leaves
      rw [← same] at blank
      exact fits.names _ found field inside blank

/-- No registered transformer is blocked. -/
theorem not_blocked : ¬Blocked tokens item context name := by
  -- Each of the four transformers is dealt with on its own.
  intro blocked
  cases blocked with
  | standard blocked => exact fits.not_blocked_codable _ blocked
  | ignoreInitialized blocked => exact fits.not_blocked_codable _ blocked
  | keyType blocked => exact fits.not_blocked_keyType blocked
  | secureStorage blocked => exact fits.not_blocked_secureStorage blocked

end Fits

/-- No transformer of expressions is blocked under a plain path of the runtime. -/
theorem not_blockedExpression (plain : context.runtime.isPlain = true) :
    ¬BlockedExpression tokens context name := by
  -- Both transformers need no more than that the path opens an expression.
  intro blocked
  cases blocked with
  | base64 single misfit | url single valid misfit =>
    rw [Path.opensExpression_of_isPlain plain] at misfit
    cases misfit

/--
How names and paths are spliced into the generated code: where an expansion breaks off because one
of them does not fit, though it has been accepted, and how the code is read where they fit.
-/
structure Splicing (name : String) (tokens : List Token) (item : Item) (context : Context)
    (path : Path) : Prop where
  /-- A declaration is expanded, or what is wrong is reported, unless its transformer is blocked. -/
  breaksOff : builtin.expand name tokens item context = .error .unspliceable ↔
    Blocked tokens item context name
  /-- The same holds of expressions. -/
  breaksOffExpression : builtin.expandExpression name tokens context = .error .unspliceable ↔
    BlockedExpression tokens context name
  /-- Where all names and paths fit, no transformer is blocked. -/
  fits : Fits tokens item context → ¬Blocked tokens item context name
  /-- Nor is a transformer of expressions, if the path of the runtime is plain. -/
  fitsExpression : context.runtime.isPlain = true → ¬BlockedExpression tokens context name
  /-- Making the context has not broken off. -/
  made : ∀ config, Context.ofConfig config ≠ .error .unspliceable
  /-- Under a plain accepted path, a mapping has an attribute exactly if that is read as it is. -/
  carrier : AcceptedRuntime path → path.isPlain = true →
    ∀ (mapping : KeyMapping) namesRuntime close attr,
      attr = Attribute.withList (path.extend [KeyMapping.attributeName])
        (mapping.argumentTokens path namesRuntime) →
        (mapping.toAttribute path namesRuntime = .ok attr ↔
          Grammar.read (·.attr false) attr.tokens close = .ok attr)
  /-- Such a path opens a type of the runtime exactly if that is read as it is. -/
  types : AcceptedRuntime path → path.isPlain = true → ∀ names,
    (∀ spelling ∈ names, Path.IsPlainName spelling) → ∀ close, (path.fitsType = true ↔
      Grammar.read (·.ty true) (path.extend names).tokens close = .ok (.path (path.extend names)))
  /-- The call that decodes a hidden text is read as it is. -/
  hidden : AcceptedRuntime path → path.isPlain = true → ∀ config expr close,
    Base64Encoded.expand tokens ⟨config, path⟩ = .ok expr →
      Grammar.read (·.expr true) expr.tokens close = .ok expr
  /-- So is the call that gives the shared store. -/
  store : AcceptedRuntime path → path.isPlain = true → ∀ expr close,
    SecureField.sharedStore path = .ok expr →
      Grammar.read (·.expr true) expr.tokens close = .ok expr

/-- A call of a member of the runtime is read as it is. -/
theorem read_member {path : Path} (named : path.Named) {names : List String} (some : names ≠ [])
    (plain : ∀ spelling ∈ names, Path.IsPlainName spelling) {body : List Token}
    (arguments : Grammar.ReadsArguments body) (close : Position) :
    Grammar.read (·.expr true) ((path.extend names).tokens ++ [Token.parens body]) close =
      .ok ⟨(path.extend names).tokens ++ [Token.parens body], .other⟩ := by
  refine Grammar.read_call (named.extend plain) ?_ arguments close
  -- One name comes from the path, and one is added at least.
  have added : 1 ≤ names.length := List.length_pos_iff.mpr some
  cases named with
  | intro spelled opens =>
    simp only [Path.extend, Path.ofNames, List.length_append, List.length_map, List.length_cons]
    omega

/-- Names and paths are spliced in as told, by every transformer, for every input and context. -/
theorem splices_exactly (name : String) (tokens : List Token) (item : Item) (context : Context)
    (path : Path) : Splicing name tokens item context path where
  breaksOff := expand_eq_unspliceable_iff
  breaksOffExpression := expandExpression_eq_unspliceable_iff
  fits fits := fits.not_blocked
  fitsExpression plain := not_blockedExpression plain
  made config := Context.reports_ofConfig config
  -- What is attached is the mapping, under the name of its attribute.
  carrier accepted plain mapping namesRuntime close attr made := by
    have name : ∀ spelling ∈ [KeyMapping.attributeName], Path.IsPlainName spelling := by
      rw [List.forall_mem_singleton]
      exact ⟨.inl ⟨'c', "oding_keys".toList, rfl, by decide, by decide⟩, by decide⟩
    subst made
    -- Both hold exactly if the path can name an attribute.
    rw [KeyMapping.toAttribute_eq_ok_iff, Grammar.read_attr_iff
      ((accepted.written.named plain).extend name), Path.fitsAttribute_extend name]
    exact and_iff_left rfl
  types accepted plain names spelled close := by
    have named := accepted.written.named plain
    rw [Grammar.read_ty_iff (named.extend spelled), named.fitsType_extend]
  -- The literal stands alone between the parentheses.
  hidden accepted plain config expr close expanded := by
    obtain ⟨-, written, pos, -, -, rfl⟩ := Base64Encoded.expand_eq_ok_iff.mp expanded
    have name : ∀ spelling ∈ ["base64_decoded"], Path.IsPlainName spelling := by
      rw [List.forall_mem_singleton]
      exact ⟨.inl ⟨'b', "ase64_decoded".toList, rfl, by decide, by decide⟩, by decide⟩
    exact read_member (accepted.written.named plain) (by simp) name
      (Grammar.readsArguments_literal _ _) close
  -- The expression is a call without arguments of a function behind the path.
  store accepted plain expr close shared := by
    rw [SecureField.sharedStore, if_pos (Path.opensExpression_of_isPlain plain)] at shared
    cases shared
    have names : ∀ spelling ∈ ["store", "shared"], Path.IsPlainName spelling := by
      simp only [List.forall_mem_cons]
      exact ⟨⟨.inl ⟨'s', "tore".toList, rfl, by decide, by decide⟩, by decide⟩,
        ⟨.inl ⟨'s', "hared".toList, rfl, by decide, by decide⟩, by decide⟩, by simp⟩
    exact read_member (accepted.written.named plain) (by simp) names
      Grammar.readsArguments_nil close

/-- A setting that is a path with an argument. -/
def boxedSettings : Config := { runtime := some "a<b>" }

/-- A struct with a field that has the blank name. -/
def blankStruct : Item :=
  .struct
    { head := ⟨[], [], .origin, ⟨"A", .origin⟩, .empty⟩
      fields := .named [⟨[], [], ⟨"_", .origin⟩, .path (.ofName ⟨"u8", .origin⟩)⟩] false }

/--
Paths are accepted that break an expansion off: a path with an argument from the settings, the one
reserved word as the path or as a trait that the arguments name, and also the blank name of a field.
-/
theorem accepted_breaks_off :
    (∃ context, Context.ofConfig boxedSettings = .ok context ∧
      builtin.expand "codable" [] Codable.ticket context = .error .unspliceable) ∧
    (∃ context, Context.ofConfig boxedSettings = .ok context ∧
      builtin.expandExpression "base64_encoded" [.literal "\"x\"" .origin] context =
        .error .unspliceable) ∧
    builtin.expand "codable"
      (Token.word "crate" :: Token.symbol "=" ++ [.literal "\"try\"" .origin]) Codable.ticket
      ⟨{}, Context.standardRuntime⟩ = .error .unspliceable ∧
    builtin.expand "coding_keys"
      (Token.word "id" :: Token.symbol "," ++
        (Token.word "crate" :: Token.symbol "=" ++ [.literal "\"try\"" .origin])) Codable.ticket
      ⟨{}, Context.standardRuntime⟩ = .error .unspliceable ∧
    builtin.expand "codable" [Token.word "conform", Token.parens [Token.word "try"]]
      Codable.ticket ⟨{}, Context.standardRuntime⟩ = .error .unspliceable ∧
    builtin.expand "codable" [] blankStruct ⟨{}, Context.standardRuntime⟩ =
      .error .unspliceable := by
  -- Each expansion is run, and what comes out of it is compared.
  refine ⟨?_, ?_, ?_, ?_, ?_, ?_⟩
  · exact (Context.reports_ofConfig boxedSettings).bind_iff.mp (by decide +kernel)
  · exact (Context.reports_ofConfig boxedSettings).bind_iff.mp (by decide +kernel)
  · decide +kernel
  · decide +kernel
  · decide +kernel
  · decide +kernel

end Registry

end KeyedCoding
