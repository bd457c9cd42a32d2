import KeyedCoding.Config.Basic

/-! The context of an expansion: settings, and the path of the runtime that generated code refers to. -/

namespace KeyedCoding

/-- Settings with the path of the runtime. -/
structure Context where
  config : Config
  runtime : Path

namespace Context

/-- The path of the runtime where none is given. -/
def standardRuntime : Path := .absolute ["codable_synth"]

/-- The context for settings. -/
def ofConfig (config : Config) : Synthesis Context := do
  match config.runtime with
  | some text => return ⟨config, ← Path.ofSetting text⟩
  | none => return ⟨config, standardRuntime⟩

/-- The trait of types that are both decoded and encoded. -/
def marker (runtime : Path) : Path := runtime.extend ["Codable"]

/-- The traits to implement where none are requested. -/
def conformances (context : Context) : Synthesis (List Path) :=
  match context.config.conformances with
  | some texts => texts.mapM Path.ofSetting
  | none => .ok [marker context.runtime]

end Context

end KeyedCoding
