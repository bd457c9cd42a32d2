import KeyedCoding.Json.Printer
import KeyedCoding.Token.Basic

/-! Findings about a declaration that do not stop the synthesis, and the edits that mend them. -/

namespace KeyedCoding

/-- How grave a finding is. -/
inductive Severity where
  | info
  | warning
  | error
  deriving DecidableEq, Repr, Inhabited

namespace Severity

/-- The name of a severity. -/
def name : Severity → String
  | info => "info"
  | warning => "warning"
  | error => "error"

/-- The severity with a name. -/
def ofName? : String → Option Severity
  | "info" => some info
  | "warning" => some warning
  | "error" => some error
  | _ => none

end Severity

/-- A text to put at a place. -/
structure FixIt where
  description : String
  pos : Position
  text : String
  deriving DecidableEq, Repr

/-- A finding. -/
structure Diagnostic where
  code : String
  name : String
  severity : Severity
  message : String
  pos : Position
  fixIt : Option FixIt := none
  deriving DecidableEq, Repr

namespace Diagnostic

/-- Whether a finding is an error. -/
def isError (diagnostic : Diagnostic) : Bool := diagnostic.severity == .error

/-- Code and message, with the edit that mends the finding. -/
def note (diagnostic : Diagnostic) : String :=
  "[" ++ diagnostic.code ++ "] " ++ diagnostic.message ++ (match diagnostic.fixIt with
    | some fix => " (fix: " ++ fix.description ++ ": `" ++ fix.text ++ "`)"
    | none => "")

/-- Place, severity, code and message. -/
def display (diagnostic : Diagnostic) : String :=
  toString diagnostic.pos.line ++ ":" ++ toString diagnostic.pos.column ++ ": " ++
    diagnostic.severity.name ++ " [" ++ diagnostic.code ++ "] " ++ diagnostic.message

/-- A place as JSON. -/
def positionJson (pos : Position) : Json :=
  .object [("line", .int pos.line), ("column", .int pos.column)]

/-- An edit as JSON. -/
def fixItJson (fix : FixIt) : Json :=
  .object [("description", .string fix.description),
    ("replacement", .object [("location", positionJson fix.pos), ("new_text", .string fix.text)])]

/-- A finding as JSON, in the order of its parts. -/
def json (diagnostic : Diagnostic) : Json :=
  .object [("code", .string diagnostic.code), ("name", .string diagnostic.name),
    ("severity", .string diagnostic.severity.name), ("message", .string diagnostic.message),
    ("location", positionJson diagnostic.pos),
    ("fix_it", (diagnostic.fixIt.map fixItJson).getD .null)]

end Diagnostic

end KeyedCoding
