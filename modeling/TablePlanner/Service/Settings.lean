import TablePlanner.Json.Shape
import TablePlanner.Preview.Format
import TablePlanner.Prompt.Planner
import TablePlanner.Service.SettingsFile

namespace TablePlanner
open Json
open Document (optionalField)

structure ServerSettings where
  host : String
  port : Nat
deriving DecidableEq, Repr

structure LoggingSettings where
  level : String
  format : String
  output : String
  directory : String
deriving DecidableEq, Repr

structure EngineSettings where
  rules : Prompt.ValidityRules
  candidates : List Int
  preview : Preview.Rules
  /-- The columns assumed when a plan is asked for without a table. -/
  demoSchema : List String
deriving DecidableEq, Repr

structure Settings where
  server : ServerSettings
  logging : LoggingSettings
  engine : EngineSettings
deriving DecidableEq, Repr

def Settings.standard : Settings where
  server := ⟨"127.0.0.1", 8080⟩
  logging := ⟨"info", "pretty", "stdout", "./logs"⟩
  engine := ⟨.standard, Prompt.standardCandidates, .standard,
    ["Date", "Dept", "Amount", "Status", "Region", "Category"]⟩

def ServerSettings.address (s : ServerSettings) : String := s.host ++ ":" ++ toString s.port

namespace Settings

def rulesJson (r : Prompt.ValidityRules) : Value :=
  .object [("min_length", .nat r.minLength), ("min_repeat", .nat r.minRepeat)]

def previewJson (r : Preview.Rules) : Value :=
  .object [("row_limit", .nat r.rowLimit), ("date_parse_ratio", .ofFloat (some r.dateRatio)),
    ("currency_tokens", .strings r.currencyTokens)]

def toJson (s : Settings) : Value :=
  .object
    [("server", .object [("host", .string s.server.host), ("port", .nat s.server.port)]),
     ("logging", .object [("level", .string s.logging.level), ("format", .string s.logging.format),
        ("output", .string s.logging.output), ("directory", .string s.logging.directory)]),
     ("engine", .object [("validator", rulesJson s.engine.rules),
        ("translator", .object [("top_n_candidates", .array (s.engine.candidates.map .int))]),
        ("preview", previewJson s.engine.preview),
        ("demo_schema", .strings s.engine.demoSchema)])]

/-- How settings are written: whether a record may also be the list of its fields, and what may
stand for a text and for an integer with a sign. -/
structure Style where
  listsAsRecords : Bool
  text : Reader String
  integer : Reader Int

def Style.json : Style := ⟨true, Document.toText, Document.toInt64⟩

def scalarText : Reader String
  | .number literal => .ok literal
  | .null => .ok "null"
  | .bool true => .ok "true"
  | .bool false => .ok "false"
  | d => Document.toText d

/-- An integer in a settings file, where zero may have a sign. -/
def scalarInteger : Reader Int
  | .number "-0" => .ok 0
  | d => Document.toInt64 d

def Style.file : Style := ⟨false, scalarText, scalarInteger⟩

def Style.record (style : Style) (fields : List (RecordField σ)) (start : σ) : Reader σ
  | .array items closed =>
    if style.listsAsRecords then Document.toRecord fields start (.array items closed)
    else .error .misshapen
  | d => Document.toRecord fields start d

def port : Reader Nat := Reader.map Int.toNat (Document.toInteger 0 65535)

def readRules (style : Style) : Reader Prompt.ValidityRules :=
  style.record
    [optionalField "min_length" Document.toNat64 fun x r => { r with minLength := x },
     optionalField "min_repeat" Document.toNat64 fun x r => { r with minRepeat := x }]
    .standard

def readCandidates (style : Style) : Reader (List Int) :=
  style.record
    [optionalField "top_n_candidates" (Document.toList style.integer) fun x _ => x]
    Prompt.standardCandidates

def readPreview (style : Style) : Reader Preview.Rules :=
  style.record
    [optionalField "row_limit" Document.toNat64 fun x r => { r with rowLimit := x },
     optionalField "date_parse_ratio" Document.toFloat fun x r => { r with dateRatio := x },
     optionalField "currency_tokens" (Document.toList style.text)
      fun x r => { r with currencyTokens := x }]
    .standard

def readServer (style : Style) : Reader ServerSettings :=
  style.record
    [optionalField "host" style.text fun x s => { s with host := x },
     optionalField "port" port fun x s => { s with port := x }]
    standard.server

def readLogging (style : Style) : Reader LoggingSettings :=
  style.record
    [optionalField "level" style.text fun x s => { s with level := x },
     optionalField "format" style.text fun x s => { s with format := x },
     optionalField "output" style.text fun x s => { s with output := x },
     optionalField "directory" style.text fun x s => { s with directory := x }]
    standard.logging

def readEngine (style : Style) : Reader EngineSettings :=
  style.record
    [optionalField "validator" (readRules style) fun x s => { s with rules := x },
     optionalField "translator" (readCandidates style) fun x s => { s with candidates := x },
     optionalField "preview" (readPreview style) fun x s => { s with preview := x },
     optionalField "demo_schema" (Document.toList style.text) fun x s => { s with demoSchema := x }]
    standard.engine

def read (style : Style) : Reader Settings :=
  style.record
    [optionalField "server" (readServer style) fun x s => { s with server := x },
     optionalField "logging" (readLogging style) fun x s => { s with logging := x },
     optionalField "engine" (readEngine style) fun x s => { s with engine := x }]
    standard

/-- The settings of a file, in so far as it is written in JSON. An empty file leaves all settings
as they are. -/
def ofFile? (text : String) : Option Settings :=
  let cs := text.toList
  if cs.all (fun c => c == ' ' || c == '\n' || c == '\r') then some standard
  else do
    match readWhole (read .file) (← SettingsFile.jsonText? cs) with
    | .ok s => some s
    | .error _ => none

inductive SettingsError where
  | invalidVariable (name value : String)
deriving DecidableEq, Repr

def SettingsError.message : SettingsError → String
  | invalidVariable name value => "Invalid value for " ++ name ++ ": " ++ value

def portOfText? (s : String) : Option Nat :=
  let digits := match s.toList with
    | '+' :: cs => cs
    | cs => cs
  if digits.isEmpty || !digits.all Char.isDigit then none
  else
    let n := Nat.ofDigitChars 10 digits 0
    if n ≤ 65535 then some n else none

def overrideHost (value : Option String) (s : Settings) : Settings :=
  match value with
  | some host => { s with server := { s.server with host := host } }
  | none => s

def overrideLogging (lookup : String → Option String) (s : Settings) : Settings :=
  let l := s.logging
  { s with logging :=
    { level := (lookup "RUST_LOG").getD l.level
      format := (lookup "LOG_FORMAT").getD l.format
      output := (lookup "LOG_OUTPUT").getD l.output
      directory := (lookup "LOG_DIR").getD l.directory } }

/-- The settings after the overrides, and the error at which they stopped if they did. -/
def override (lookup : String → Option String) (s : Settings) : Settings × Option SettingsError :=
  let s := overrideHost (lookup "TABPLAN_SERVER_HOST") s
  match lookup "TABPLAN_SERVER_PORT" with
  | none => (overrideLogging lookup s, none)
  | some value =>
    match portOfText? value with
    | some p =>
      (overrideLogging lookup { s with server := { s.server with port := p } }, none)
    | none => (s, some (.invalidVariable "TABPLAN_SERVER_PORT" value))

def loggingVariables (s : Settings) : List (String × String) :=
  [("RUST_LOG", s.logging.level), ("LOG_FORMAT", s.logging.format),
   ("LOG_OUTPUT", s.logging.output), ("LOG_DIR", s.logging.directory)]

end Settings

inductive LogFormat where
  | pretty
  | json
  | compact
deriving DecidableEq, Repr

def LogFormat.ofName : Option String → LogFormat
  | some "json" => json
  | some "compact" => compact
  | _ => pretty

inductive LogOutput where
  | stdout
  | file
  | both
deriving DecidableEq, Repr

def LogOutput.ofName : Option String → LogOutput
  | some "file" => file
  | some "both" => both
  | _ => stdout

end TablePlanner
