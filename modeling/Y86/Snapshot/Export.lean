import Y86.Document.Yaml.Writing
import Y86.Snapshot.History
import Y86.Text.JsonString

/-!
# Exports of a history

A history leaves the program as a JSON text or as a YAML text. Both list the records with their fields in one order, and
are texts of the records and of nothing else. JSON is indented by two for each level. Whatever writes YAML is a parameter
(`History.written`); the writer that is used writes in blocks (`SnapshotRecord.toYaml`).
-/

namespace Y86

open Text Document

/-- The form of an export. -/
inductive ExportFormat where
  | json | yaml
  deriving DecidableEq, Repr

namespace ExportFormat

def name : ExportFormat → String
  | json => "json"
  | yaml => "yaml"

def ofName? (name : String) : Option ExportFormat := [json, yaml].find? (·.name == name)

/-- What is said of a name that is none of a form. -/
def unknownMessage (name : String) : String := "Unsupported export format: " ++ name

end ExportFormat

/-! ### JSON -/

namespace SnapshotRecord

/-- A line break and the indentation of a level. -/
def jsonLine (level : Nat) : String := "\n" ++ String.ofList (List.replicate (2 * level) ' ')

/-- Parts of an object or a list of a level, each on a line of its own. -/
def jsonParts (level : Nat) (opening closing : String) (parts : List String) : String :=
  opening ++ ",".intercalate (parts.map (jsonLine (level + 1) ++ ·)) ++ jsonLine level ++ closing

/-- An object of a level. -/
def jsonObject (level : Nat) (fields : List (String × String)) : String :=
  jsonParts level "\x7b" "\x7d" (fields.map fun f => JsonString.encode f.1 ++ ": " ++ f.2)

def jsonTruth (b : Bool) : String := if b then "true" else "false"

/-- A record as an object. -/
def toJson (r : SnapshotRecord) : String :=
  jsonObject 1 [
    ("cycle", toString r.cycle),
    ("pc", JsonString.encode r.pc),
    ("instruction", (r.instruction.map JsonString.encode).getD "null"),
    ("stat", JsonString.encode r.status),
    ("timestamp", JsonString.encode r.timestamp),
    ("registers", jsonObject 2 (r.registers.map fun f => (f.1, JsonString.encode f.2))),
    ("conditionCodes", jsonObject 2 (r.conditionCodes.map fun f => (f.1, jsonTruth f.2)))]

/-! ### YAML -/

/-- A record as an item of a list, in lines. The moment stands in quotes, as it would otherwise read as a time. -/
def yamlLines (r : SnapshotRecord) : List String :=
  let instruction := match r.instruction with
    | some text => Yaml.textField 2 "instruction" text
    | none => "  instruction: null"
  ["- cycle: " ++ toString r.cycle,
    Yaml.textField 2 "pc" r.pc,
    instruction,
    Yaml.textField 2 "stat" r.status,
    "  timestamp: '" ++ r.timestamp ++ "'",
    "  registers:"]
  ++ r.registers.map (fun f => Yaml.textField 4 f.1 f.2)
  ++ ["  conditionCodes:"]
  ++ r.conditionCodes.map fun f => "    " ++ f.1 ++ ":" ++ Yaml.truth f.2

/-- Records as a YAML text. -/
def toYaml (records : List SnapshotRecord) : String :=
  if records.isEmpty then "[]\n" else String.join (records.flatMap fun r => r.yamlLines.map (· ++ "\n"))

end SnapshotRecord

namespace History

def toJson (h : History) : String :=
  let records := h.records
  if records.isEmpty then "[]" else SnapshotRecord.jsonParts 0 "[" "]" (records.map SnapshotRecord.toJson)

/-- The text of a history in a form, given a writer of YAML. -/
def written (h : History) (yaml : List SnapshotRecord → String) : ExportFormat → String
  | .json => h.toJson
  | .yaml => yaml h.records

def exported (h : History) : ExportFormat → String := h.written SnapshotRecord.toYaml

end History

end Y86
