import KeyedCoding.Coding.CodedRecord
import KeyedCoding.Grammar

/-! Sample records, one for each thing that a declaration can say. -/

namespace KeyedCoding

/-- A record that a program could declare, and how its type parameters are used. -/
structure Sample where
  source : String
  policy : InclusionPolicy := .standard
  parameters : List (String × Schema) := []
  own : Option RecordDecoder := none

namespace Sample

/-- A renamed optional field and a skipped one. -/
def profile : Sample where
  source := "struct Profile \x7b
    name: String,
    #[codable(rename = \"nick\")] nickname: Option<String>,
    #[codable(skip)] cache: Vec<u8>,
  \x7d"

/-- A default that takes a field out of the mapping. -/
def widget : Sample where
  source := "struct Widget \x7b
    #[codable(default = 7, readonly)] id: u32,
    bar: i64,
    #[codable(readonly)] baz: String,
  \x7d"
  policy := .includeOnlyNonInitialized

/-- A default that leaves a field in the mapping: it is encoded, but never decoded. -/
def settings : Sample where
  source := "struct Settings \x7b
    theme: String,
    #[codable(default = 3)] retries: u8,
  \x7d"

/-- A type parameter. -/
def wrapper (parameter : Schema) : Sample where
  source := "struct Wrapper<T> \x7b
    value: T,
    #[codable(rename = \"next\")] fallback: Option<T>,
  \x7d"
  parameters := [("T", parameter)]

/-- Fields of many types, a raw name, and a key that has to be escaped. -/
def everything : Sample where
  source := "struct Everything \x7b
    r#type: String,
    flag: bool,
    small: i8,
    big: u64,
    ratio: f64,
    letter: char,
    list: Vec<Option<i32>>,
    map: BTreeMap<String, Vec<u16>>,
    pair: (u8, String),
    #[codable(rename = \"ключ \\\"q\\\"\\n\")] odd: Option<Option<u8>>,
    nothing: (),
    any: Option<Value>,
  \x7d"

/-- A field in secure storage next to a stored one. -/
def login : Sample where
  source := "struct Login \x7b
    user: String,
    #[secure(\"login-password\")] password: Option<String>,
  \x7d"

/-- Fields in secure storage of every kind. -/
def session : Sample where
  source := "struct Session \x7b
    #[secure(\"session-token\")] token: Option<String>,
    #[secure(\"remember-me\")] remember: Option<bool>,
    #[secure(\"avatar\")] avatar: Option<Vec<u8>>,
    #[secure(\"login-count\")] logins: Option<u32>,
  \x7d"

/-- Decodes an account: without a label it is labelled with its number. -/
def decodeAccount : RecordDecoder := fun value => do
  let object ← KeyedObject.ofJson ["id", "label"] value
  let id ← object.decode (Schema.read (.int ⟨false, 64⟩)) "id"
  let label ← object.decodeIfPresent (Schema.read .text) "label"
  let fallback := .text ("account-" ++ id.keyText?.getD "")
  return [(⟨"id", .origin⟩, id), (⟨"label", .origin⟩, label.getD fallback)]

/-- A record with a decoder of its own. -/
def account : Sample where
  source := "mod account \x7b
    struct Account \x7b id: u64, label: String \x7d
    impl Decodable for Account \x7b
      fn init_from(decoder: &Decoder) -> Result<Self, DecodingError> \x7b \x7d
    \x7d
  \x7d"
  own := some decodeAccount

/-- The record of a sample, if its declaration can be expanded. -/
def record? (sample : Sample) : Option CodedRecord :=
  match Item.ofSource sample.source with
  | .error _ => none
  | .ok item =>
    match CodedRecord.ofItem sample.policy sample.parameters sample.own item with
    | .ok record => some record
    | .error _ => none

/-- A mapping that is written out by hand, with nothing generated for it. -/
def article : CodedRecord :=
  .ofMapping (({} : KeyMapping).push ⟨"id", .origin⟩ "id" |>.push ⟨"title", .origin⟩ "headline")

/-- The sample record with a name. -/
def named? (name : String) : Option CodedRecord :=
  match name with
  | "Profile" => profile.record?
  | "Widget" => widget.record?
  | "Settings" => settings.record?
  | "Wrapper<u32>" => (wrapper (.int ⟨false, 32⟩)).record?
  | "Wrapper<Vec<String>>" => (wrapper (.list .text)).record?
  | "Everything" => everything.record?
  | "Article" => some article
  | "Account" => account.record?
  | "Login" => login.record?
  | "Session" => session.record?
  | _ => none

end Sample

end KeyedCoding
