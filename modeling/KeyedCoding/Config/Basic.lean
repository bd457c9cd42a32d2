import KeyedCoding.KeyMapping.Basic
import KeyedCoding.Toml.Reader

/-! Settings: defaults for the synthesis and what becomes of its findings, as a settings file gives them. -/

namespace KeyedCoding

/-- The settings of one kind of finding. -/
structure DiagnosticSettings where
  enabled : Option Bool := none
  severity : Option Severity := none
  deriving Repr

/-- Settings. -/
structure Config where
  policy : InclusionPolicy := .standard
  conformances : Option (List String) := none
  runtime : Option String := none
  diagnostics : List (String × DiagnosticSettings) := []
  deriving Repr

namespace Toml

/-- The text of a value. -/
def asText? : Toml → Option String
  | text value => some value
  | _ => none

/-- The truth value of a value. -/
def asBool? : Toml → Option Bool
  | bool value => some value
  | _ => none

/-- The texts of an array. -/
def asTexts? : Toml → Option (List String)
  | array items => items.mapM asText?
  | tables [] => some []
  | _ => none

/-- Whether a value holds nothing. -/
def isVacant : Toml → Bool
  | array items => items.isEmpty
  | tables items => items.isEmpty
  | inlineTable entries => entries.isEmpty
  | table _ entries => entries.isEmpty
  | _ => false

/-- The name that a value chooses: a text, or the only key of a table, with nothing under it. -/
def asChoice? : Toml → Option String
  | text value => some value
  | inlineTable [(key, value)] => if value.isVacant then some key else none
  | table _ [(key, value)] => if value.isVacant then some key else none
  | _ => none

/-- The values of named settings: from a table by name, from an array by place. -/
def settings? (names : List String) : Toml → Option (List (Option Toml))
  | inlineTable entries => some (names.map (Entries.get? entries))
  | table _ entries => some (names.map (Entries.get? entries))
  -- In an array the settings stand at their places, whatever they are called.
  | array items => some (names.zipIdx.map fun name => items[name.2]?)
  | tables items =>
    some (names.zipIdx.map fun name => (items[name.2]?).map fun entries => table .header entries)
  -- A date or a time is read as a table that has none of the names.
  | time => some (names.map fun _ => none)
  | _ => none

end Toml

/-- A value that may be missing, read if it is there. -/
def readSetting? {α : Type} (read : Toml → Option α) (value : Option Toml) : Option (Option α) :=
  match value with
  | none => some none
  | some value => (read value).map some

namespace DiagnosticSettings

/-- The settings of one kind of finding from a TOML value. -/
def ofToml? (value : Toml) : Option DiagnosticSettings := do
  match ← value.settings? ["enabled", "severity"] with
  | [enabled, severity] =>
    return ⟨← readSetting? Toml.asBool? enabled,
      ← readSetting? (fun value => value.asChoice?.bind Severity.ofName?) severity⟩
  | _ => none

end DiagnosticSettings

namespace Config

/-- The defaults for the synthesis from a TOML value. -/
def codingOfToml? (value : Toml) : Option Config := do
  match ← value.settings? ["policy", "conformances", "crate_path"] with
  -- A setting that is there has to be of its kind, and one that is missing is left open.
  | [policy, conformances, runtime] =>
    let policy ← readSetting? (fun value => value.asChoice?.bind InclusionPolicy.ofName?) policy
    let conformances ← readSetting? Toml.asTexts? conformances
    let runtime ← readSetting? Toml.asText? runtime
    return { policy := policy.getD .standard, conformances, runtime }
  | _ => none

/-- The settings of all kinds of findings from a TOML value. -/
def diagnosticsOfToml? (value : Toml) : Option (List (String × DiagnosticSettings)) := do
  (← value.entries?).mapM fun entry => do return (entry.1, ← DiagnosticSettings.ofToml? entry.2)

/-- Settings from the tables of a document. -/
def ofEntries? (entries : Toml.Entries) : Option Config := do
  let coding ← readSetting? codingOfToml? (entries.get? "codable")
  let diagnostics ← readSetting? diagnosticsOfToml? (entries.get? "diagnostics")
  return { coding.getD {} with diagnostics := diagnostics.getD [] }

/-- Reads settings. -/
def ofText (text : String) : Synthesis Config :=
  match (Toml.ofText? text).bind ofEntries? with
  | some config => .ok config
  | none => .error (.config .malformed)

/-- The settings of a kind of finding. -/
def settingsOf? (config : Config) (name : String) : Option DiagnosticSettings :=
  config.diagnostics.lookup name

/-- Whether a kind of finding is reported. -/
def isEnabled (config : Config) (name : String) : Bool :=
  ((config.settingsOf? name).bind (·.enabled)).getD true

/-- The severity that settings give to a kind of finding. -/
def severityOf? (config : Config) (name : String) : Option Severity :=
  (config.settingsOf? name).bind (·.severity)

/-- A finding with the severity that settings give it. -/
def withSeverity (config : Config) (diagnostic : Diagnostic) : Diagnostic :=
  { diagnostic with severity := (config.severityOf? diagnostic.name).getD diagnostic.severity }

/-- The findings that are reported, with their severities. -/
def apply (config : Config) (diagnostics : List Diagnostic) : List Diagnostic :=
  (diagnostics.filter (config.isEnabled ·.name)).map config.withSeverity

end Config

end KeyedCoding
