import KeyedCoding.Store.AccessorCode

/-!
The code of generated accessors: a getter and a setter are read back as what their field says.
-/

namespace KeyedCoding

/-- What follows tokens is found behind them. -/
theorem Token.after?_append (front rest : List Token) :
    after? front (front ++ rest) = some rest := by
  -- The tokens in front are taken off and compared.
  rw [after?, List.take_left, List.drop_left, if_pos (beq_self_eq_true _)]

namespace SecureField

variable (field : SecureField) (runtime : Path)

/-- What a generated call takes: the store, a value if there is one, and the key. -/
def callArguments (value : List Token) : List Token :=
  Token.symbol "&" ++ field.store.tokens ++ Token.symbol "," ++ value ++ [field.key]

/-- A generated call reads as a call of its method, and what follows it is left. -/
theorem ofTokens?_call (method : String) (value rest : List Token) :
    StoreCall.ofTokens? runtime (field.call runtime method value ++ rest) =
      some (⟨method, field.callArguments value⟩, rest) := by
  -- The call begins with the path of the store, and its method and arguments stand behind it.
  rw [StoreCall.ofTokens?, call, List.append_assoc, Token.after?_append]
  rfl

/-- As a statement it is read as that call. -/
theorem ofStatement?_call (method : String) (value : List Token) :
    StoreCall.ofStatement? runtime (field.call runtime method value ++ Token.symbol ";") =
      some ⟨method, field.callArguments value⟩ := by
  -- Only the semicolon is left behind the call.
  rw [StoreCall.ofStatement?, ofTokens?_call]
  rfl

/-- A call without a value is about the field's store and key, and nothing else. -/
theorem target?_call (method : String) :
    StoreCall.target? ⟨method, field.callArguments []⟩ = some (field.store.tokens, field.key) := by
  -- The key is what stands last, behind a comma.
  have ends : (field.store.tokens ++ Token.symbol "," ++ [field.key]).reverse =
      field.key :: .punct ',' false .origin :: field.store.tokens.reverse := by
    rw [List.reverse_append, List.reverse_append]
    rfl
  have begins : field.callArguments [] =
      Token.symbol "&" ++ (field.store.tokens ++ Token.symbol "," ++ [field.key]) := by
    simp only [callArguments, List.append_nil, List.append_assoc]
  rw [StoreCall.target?, begins, Token.after?_append, Option.bind_some, StoreCall.splitKey?, ends]
  exact congrArg (fun store => some (store, field.key)) (List.reverse_reverse _)

/-- A setter renders the values of the fields that are parsed, and no others. -/
theorem renders?_call (method : String) :
    StoreCall.renders? runtime field.store.tokens field.key
      ⟨method, field.callArguments (field.storedTokens runtime ++ Token.symbol ",")⟩ =
        some (decide (StoreGetter.ofType field.ty = .parsed)) := by
  -- Behind the store stand the conversion, the value that it takes, and the key.
  have order (value : List Token) :
      field.callArguments ((runtime.extend ["store", "StoredValue", "from"]).tokens ++
        [Token.parens value] ++ Token.symbol ",") =
      Token.symbol "&" ++ field.store.tokens ++ Token.symbol "," ++
        ((runtime.extend ["store", "StoredValue", "from"]).tokens ++
          ([Token.parens value] ++ Token.symbol "," ++ [field.key])) := by
    simp only [callArguments, List.append_assoc]
  rw [StoreCall.renders?, storedTokens, order, Token.after?_append]
  simp only [Option.bind_eq_bind, Option.bind_some, Token.after?_append]
  by_cases parsed : StoreGetter.ofType field.ty = .parsed
  · rw [if_pos parsed, decide_eq_true parsed]
    show (if (field.key.render != field.key.render) = true then none else some true) = _
    rw [bne_self_eq_false]
    rfl
  · rw [if_neg parsed, decide_eq_false parsed]
    show (if (field.key.render != field.key.render) = true then none else some false) = _
    rw [bne_self_eq_false]
    rfl

/-- The body of the getter is read as its one call, and parsing is seen where it is done. -/
theorem readOf?_readTokens :
    AccessorCode.readOf? runtime (field.readTokens runtime) =
      some (⟨(StoreGetter.ofType field.ty).method, field.callArguments []⟩,
        decide (StoreGetter.ofType field.ty = .parsed)) := by
  -- The call is wrapped in the parsing of what it gives, or it stands alone.
  rw [readTokens, AccessorCode.readOf?, ofTokens?_call]
  by_cases parsed : StoreGetter.ofType field.ty = .parsed
  · rw [if_pos parsed, decide_eq_true parsed]
    rfl
  · rw [if_neg parsed, decide_eq_false parsed]

/-- The two arms of the setter are read as their calls. -/
theorem writesOf?_setterBody :
    AccessorCode.writesOf? runtime (field.setterBody runtime) =
      some (⟨"set", field.callArguments (field.storedTokens runtime ++ Token.symbol ",")⟩,
        ⟨"delete", field.callArguments []⟩) := by
  -- The body is a match with two arms, and in each of them there is one statement.
  rw [setterBody]
  show (StoreCall.ofStatement? runtime (field.call runtime "set" _ ++ Token.symbol ";")).bind
    (fun first =>
      (StoreCall.ofStatement? runtime (field.call runtime "delete" [] ++ Token.symbol ";")).map
        fun second => (first, second)) = _
  rw [ofStatement?_call, ofStatement?_call]
  rfl

/-- A getter and a setter are read back as what their field says. -/
theorem ofMembers?_accessors :
    AccessorCode.ofMembers? runtime (field.getter runtime) (field.setter runtime) =
      some field.code := by
  -- The body is what stands last in either member.
  have getter : (field.getter runtime).body? = some (field.readTokens runtime) := by
    rw [Member.body?, SecureField.getter, documented, ← List.append_assoc, List.getLast?_concat]
    rfl
  have setter : (field.setter runtime).body? = some (field.setterBody runtime) := by
    rw [Member.body?, SecureField.setter, documented, List.getLast?_append]
    rfl
  rw [AccessorCode.ofMembers?, getter, setter]
  simp only [Option.bind_eq_bind, Option.bind_some, readOf?_readTokens, writesOf?_setterBody,
    target?_call, renders?_call, code]
  cases StoreGetter.ofType field.ty <;> simp [AccessorCode.getterOf?, StoreGetter.method]

/-- The accessors of several fields are read back field by field. -/
theorem ofAll?_accessors (fields : List SecureField) :
    AccessorCode.ofAll? runtime (fields.flatMap (·.accessors runtime)) =
      some (fields.map code) := by
  -- Each field has two members, which stand next to each other.
  induction fields with
  | nil => rfl
  | cons field rest ih =>
    rw [List.flatMap_cons, accessors, List.cons_append, List.singleton_append, AccessorCode.ofAll?,
      ofMembers?_accessors, ih]
    rfl

end SecureField

end KeyedCoding
