import KeyedCoding.Proofs.Store.AccessorCode
import KeyedCoding.Proofs.Store.Variables
import KeyedCoding.Proofs.Transform.SecureStorage

/-!
What secure storage makes of secure fields: accessors that behave as optional variables, however
their calls follow each other.
-/

namespace KeyedCoding.SecureStorage

variable {store : Expr} {fields : List Field} {placements : List Placement} {tokens : List Token}
  {item : Item} {context : Context} {record : Record} {expansion : Expansion}

/-- The fields that leave are the secure ones, one for each and in their order. -/
theorem secured_of_placed (placed : fields.mapM (place store) = .ok placements) :
    List.Forall₂ (fun declared field => place store declared = .ok (.secured field))
      (fields.filter (·.isSecure)) (secured placements) := by
  rw [mapM_eq_ok_iff] at placed
  -- Fields are placed one by one, each at one of the two sides.
  induction placed with
  | nil => exact .nil
  | cons first _ ih =>
    rcases place_eq_ok first with ⟨plain, rfl⟩ | ⟨secure, left, rfl⟩
    · rw [List.filter_cons_of_neg (by simpa using plain)]
      exact ih
    · rw [List.filter_cons_of_pos secure]
      exact .cons first ih

/-- An expansion makes accessors for the secure fields and for no others, and their code is known. -/
theorem exists_accessors (found : item.asRecord = .ok record)
    (expanded : expand tokens item context = .ok expansion) :
    ∃ args store fields members, StorageArguments.ofTokens tokens = .ok args ∧
      storeOf args (args.runtime.getD context.runtime) = .ok store ∧
      List.Forall₂ (fun declared field => place store declared = .ok (.secured field))
        (record.fields.filter (·.isSecure)) fields ∧
      expansion.items = record.reassemble (leftOf record)
        (if fields.isEmpty then [] else [record.target.implement none members]) ∧
      AccessorCode.ofAll? (args.runtime.getD context.runtime) members =
        some (fields.map SecureField.code) := by
  obtain ⟨run, rfl⟩ := expand_eq_ok_iff.mp expanded
  obtain rfl := Except.ok.inj (found.symm.trans run.found)
  refine ⟨run.args, run.store, secured run.placements,
    (secured run.placements).flatMap (·.accessors (run.args.runtime.getD context.runtime)),
    run.read, run.shared, secured_of_placed run.placed, ?_, SecureField.ofAll?_accessors _ _⟩
  -- The accessors are one impl behind what is left of the struct, or there are none.
  exact congrArg (run.record.reassemble run.left) (accessorsOf_eq_ok run.declared)

/--
Secure storage makes accessors for the secure fields and for no others. The code of each says what
the field says; and where the accessors use one store and different keys, they behave as optional
variables: a getter gives what its setter was last given. For each call there is one request of the
store, and it is about the key of the field.
-/
theorem accessors_are_variables (found : item.asRecord = .ok record)
    (expanded : expand tokens item context = .ok expansion) :
    ∃ args store fields members, StorageArguments.ofTokens tokens = .ok args ∧
      storeOf args (args.runtime.getD context.runtime) = .ok store ∧
      List.Forall₂ (fun declared field => place store declared = .ok (.secured field))
        (record.fields.filter (·.isSecure)) fields ∧
      expansion.items = record.reassemble (leftOf record)
        (if fields.isEmpty then [] else [record.target.implement none members]) ∧
      AccessorCode.ofAll? (args.runtime.getD context.runtime) members =
        some (fields.map SecureField.code) ∧
      ∀ {α : Fin (fields.map SecureField.code).length → Type} (formats : (i : _) → TextFormat (α i))
        {σ : Type} [DecidableEq σ] (denotes : List Token → σ) (shared : σ) (stores : σ → Store),
        AccessorCode.KeptApart (fields.map SecureField.code) formats denotes shared
            (stores shared) →
          ∀ calls : List (AccessorCall (AccessorCode.accessors _ formats)),
            let events := AccessorCall.run
              (fun i => denotes ((fields.map SecureField.code).get i).store) stores calls
            events.map (·.answer) = Variables.answers (fun _ => none) calls ∧
              List.Forall₂ (fun call event => event.place = shared ∧ call.Asks event.request)
                calls events := by
  obtain ⟨args, store, fields, members, read, given, placed, items, code⟩ :=
    exists_accessors found expanded
  refine ⟨args, store, fields, members, read, given, placed, items, code, ?_⟩
  intro α formats σ _ denotes shared stores apart calls
  refine ⟨apart.run_answers calls, ?_⟩
  -- Every accessor denotes the one store, so that is where each request goes.
  refine (AccessorCall.run_asks _ stores calls).imp fun call event asks => ⟨?_, asks.2⟩
  exact asks.1.trans (apart.one _)

/-- A struct with a secure field of each kind, behind one that is not secure. -/
def wallet : Struct :=
  let type (name : String) (arguments : Arguments) : Ty :=
    .path ⟨none, [⟨⟨name, .origin⟩, arguments⟩]⟩
  let secure (name key : String) (ty : Ty) : Field :=
    ⟨[.withList (.ofName ⟨Attribute.secureName, .origin⟩) [.literal key .origin]], [],
      ⟨name, .origin⟩, ty⟩
  { head := ⟨[], [], .origin, ⟨"Wallet", .origin⟩, .empty⟩
    fields := .named
      [⟨[], [], ⟨"id", .origin⟩, type "u8" .none⟩,
       secure "owner" "\"o\"" (type "String" .none),
       secure "locked" "\"l\"" (type "bool" .none),
       secure "seal" "\"s\"" (type "Vec" (.angle false [.type (type "u8" .none)] false)),
       secure "grade" "\"g\"" (type "Option" (.angle false [.type (type "char" .none)] false))]
      false }

/-- What the accessors of that struct say, in the store that is used where none is named. -/
def walletCodes : List AccessorCode :=
  let code (key : String) (getter : StoreGetter) : AccessorCode :=
    ⟨(Context.standardRuntime.extend ["store", "shared"]).tokens ++ [Token.parens []],
      Token.textValue (.literal key .origin), getter⟩
  [code "\"o\"" .text, code "\"l\"" .flag, code "\"s\"" .data, code "\"g\"" .parsed]

/-- Characters are written as texts of one character, and no other texts are read. -/
def characters : TextFormat Char where
  render := Char.toString
  parse? text := match text.toList with
    | [c] => some c
    | _ => none

/-- The accessors of that struct; the values of the parsed one are characters. -/
abbrev walletAccessors : (i : Fin 4) → Accessor Char :=
  AccessorCode.accessors walletCodes fun _ => characters

/-- On that struct, values are read as they were set last, whatever is done in between. -/
theorem accessors_are_variables_wallet :
    (∃ expansion, expand [] (.struct wallet) ⟨{}, Context.standardRuntime⟩ = .ok expansion) ∧
      AccessorCode.KeptApart walletCodes (fun _ => characters) (fun _ => ()) () {} ∧
      (@AccessorCall.run _ _ _ walletAccessors _ (fun _ => ()) (fun _ => {})
        [.set 3 (some 'a'), .set 0 (some "ada"), .get 3, .get 1, .set 2 (some [7]), .set 3 none,
          .set 1 (some true), .get 0, .get 1, .get 2, .get 3]).map (·.answer) =
        [.done, .done, .value 3 (some 'a'), .value 1 none, .done, .done, .done,
          .value 0 (some "ada"), .value 1 (some true), .value 2 (some [7]), .value 3 none] := by
  have apart : AccessorCode.KeptApart walletCodes (fun _ => characters) (fun _ => ()) () {} := by
    refine ⟨fun _ => rfl, ?_, ?_, fun _ => rfl⟩
    · unfold Function.Injective
      decide +kernel
    · intro i _ c
      simp [AccessorCode.accessors, AccessorCode.accessor, characters]
  obtain ⟨expansion, expanded⟩ : ∃ expansion,
      expand [] (.struct wallet) ⟨{}, Context.standardRuntime⟩ = .ok expansion := ⟨_, rfl⟩
  obtain ⟨args, store, fields, members, read, shared, placed, items, codes, behave⟩ :=
    accessors_are_variables rfl expanded
  cases read
  cases shared
  -- What the fields say is known, as each of them is placed in one way only.
  have unique (store : Expr) : Relator.RightUnique fun (declared : Field) field =>
      place store declared = .ok (.secured field) := by
    intro declared field other first second
    exact Placement.secured.inj (Except.ok.inj (first.symm.trans second))
  have same : fields.map SecureField.code = walletCodes := by
    rw [(unique _).forall₂ placed (.cons rfl (.cons rfl (.cons rfl (.cons rfl .nil))))]
    rfl
  rw [same] at behave
  exact ⟨⟨expansion, expanded⟩, apart,
    (behave (fun _ => characters) (fun _ => ()) () (fun _ => {}) apart _).1⟩

end KeyedCoding.SecureStorage
