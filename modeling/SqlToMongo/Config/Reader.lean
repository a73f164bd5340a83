import SqlToMongo.Config.Basic
import SqlToMongo.Config.Value
import SqlToMongo.Files.Basic
import SqlToMongo.Json.Reader
import SqlToMongo.Yaml.Document

/-!
# Reading the configuration

A setting is looked for in the environment, then in the file, then among the defaults. A file may
name a parent, over which it is merged; the parent has none of its own.
-/

namespace SqlToMongo.Config

open Text

/-! ### Files -/

/-- Endings of files that are looked for when a name has none, in this order. -/
def knownEndings : List String :=
  ["json", "toml", "yaml", "yml", "properties", "props", "prop", "hcl", "tfvars", "dotenv", "env",
   "ini"]

/-- The tree of a file's text, read as its ending says. -/
def parse? (ending text : String) : Option Value :=
  match ending with
  | "json" =>
    match Json.read? text with
    | some (.object members) => Value.ofJson? (.object members)
    | some .null => some (.group [])
    | _ => none
  | "yml" | "yaml" =>
    match (Yaml.read? text).bind fun node => Value.ofYaml? node.depth node with
    | some (.group entries) => some (.group entries)
    | some .null => some (.group [])
    | _ => none
  | _ => none

/-- The paths that a name stands for: itself in its directory, or the known endings in the places
where files of settings are. -/
def candidates (here dir name : String) : List String :=
  match Path.extension? name with
  | some _ => [Path.join dir name]
  | none =>
    [Path.absolute here dir, Path.absolute here "./config"].flatMap fun place =>
      knownEndings.map fun ending => Path.join place (name ++ "." ++ ending)

/-- The first of the files that is there, and its tree. -/
def load (files : Files) (dir name : String) : Except Error (String × Value) :=
  match (candidates files.here dir name).find? files.contains with
  | none => .error .unreadable
  | some path =>
    match files.read path with
    | .error _ => .error .unreadable
    | .ok text =>
      match parse? ((Path.extension? path).getD "") text with
      | some tree => .ok (path, tree)
      | none => .error .unreadable

/-! ### Settings -/

/-- Where settings come from. -/
structure Sources where
  environment : Variables
  file : Value

/-- The variable of a setting. -/
def variableName (group name : String) : String :=
  let key := if group = "" then name else group ++ "_" ++ name
  "QC_" ++ String.ofList (key.toList.map Char.toUpper)

/-- The value of a setting; `none` where neither the environment nor the file has one. -/
def Sources.find? (s : Sources) (group name : String) : Option Value :=
  match s.environment.nonEmpty? (variableName group name) with
  | some text => some (.text text)
  | none => s.file.setting? group name

/-- A setting of a kind, with its default. -/
def Sources.get {α : Type} (s : Sources) (group name : String) (as : Value → Option α)
    (default : α) : Except Error α :=
  match s.find? group name with
  | none => .ok default
  | some value => (as value).elim (.error .undecodable) .ok

/-- A setting of a section. A variable for the section hides what the file and the defaults have, and
something else in place of the section hides the defaults. -/
def Sources.inSection? (s : Sources) (group name : String) (default : Value) : Option Value :=
  match s.environment.nonEmpty? (variableName group name) with
  | some text => some (.text text)
  | none =>
    -- A variable for the whole section is no section, so only single variables still count.
    if (s.environment.nonEmpty? (variableName "" group)).isSome then none
    else
      match s.file.setting? group name, s.file.lookup? group with
      | some value, _ => some value
      | none, none | none, some .null | none, some (.group _) => some default
      | none, some _ => none

/-- Whether something that is no section is in the place of one. A date passes for an empty one. -/
def Sources.isBlocked (s : Sources) (group : String) : Bool :=
  let isSet := (s.environment.nonEmpty? (variableName "" group)).isSome
  match s.file.lookup? group with
  | none | some (.group _) => false
  | some .null | some .moment => isSet
  | some _ => true

/-- The settings of a section that are there, given the names and defaults of all. -/
def Sources.settingsOf (s : Sources) (group : String) (defaults : List (String × Value)) :
    Except Error (List (String × Value)) :=
  let found := defaults.filterMap fun (name, default) =>
    (s.inSection? group name default).map (name, ·)
  if found.isEmpty && s.isBlocked group then .error .undecodable else .ok found

/-- A setting of a kind among those of a section; `zero` where it is not there. -/
def settingOf {α : Type} (found : List (String × Value)) (name : String) (as : Value → Option α)
    (zero : α) : Except Error α :=
  match found.lookup name with
  | none => .ok zero
  | some value => (as value).elim (.error .undecodable) .ok

def decodeCaching (s : Sources) : Except Error Caching := do
  let found ← s.settingsOf "caching"
    [("disable", .bool false), ("size", .int 1000), ("ttl", .int 3600)]
  return {
    disabled := ← settingOf found "disable" Value.toBool? false
    size := ← settingOf found "size" Value.toInt? 0
    lifetime := ← settingOf found "ttl" Value.toInt? 0 }

def decodeRedis (s : Sources) : Except Error RedisSettings := do
  let found ← s.settingsOf "redis" [("url", .text ""), ("connect_attempts", .int 3)]
  return {
    url := ← settingOf found "url" Value.toText? ""
    connectAttempts := ← settingOf found "connect_attempts" Value.toNat? 0 }

def decodeRateLimit (s : Sources) : Except Error RateLimit := do
  let found ← s.settingsOf "rate_limit" [("rate", .int 0), ("bucket", .int 0)]
  return {
    rate := ← settingOf found "rate" Value.toFloat? .zero
    bucket := ← settingOf found "bucket" Value.toInt? 0 }

def decodeAssistantDisabled (s : Sources) : Except Error Bool := do
  let found ← s.settingsOf "mcp" [("disable", .bool false)]
  settingOf found "disable" Value.toBool? false

/-- The settings of some sources. -/
def decode (s : Sources) (path : String) : Except Error Config := do
  let defaults : Config := {}
  return {
    path
    appName := ← s.get "" "app_name" Value.toText? defaults.appName
    logLevel := ← s.get "" "log_level" Value.toText? defaults.logLevel
    logFormat := ← s.get "" "log_format" Value.toText? defaults.logFormat
    hostPort := ← s.get "" "host_port" Value.toText? defaults.hostPort
    host := ← s.get "" "host" Value.toText? defaults.host
    port := ← s.get "" "port" Value.toText? defaults.port
    format := ← s.get "" "format" Value.toText? defaults.format
    production := ← s.get "" "production" Value.toBool? defaults.production
    allowedOrigins := ← s.get "" "cors_allowed_origins" Value.toTexts? defaults.allowedOrigins
    workers := ← s.get "" "workers" Value.toInt? defaults.workers
    caching := ← decodeCaching s
    redis := ← decodeRedis s
    rateLimit := ← decodeRateLimit s
    assistantDisabled := ← decodeAssistantDisabled s }

/-- The name under `inherits`, empty without one. -/
def Sources.parentName (s : Sources) : String :=
  ((s.find? "" "inherits").map Value.asName).getD ""

/-- The tree of a file, merged over that of its parent. -/
def readTree (files : Files) (environment : Variables) (path : String) : Except Error Value := do
  let dir := Path.parent path
  let (_, child) ← load files dir (Path.name path)
  let parent := Sources.parentName ⟨environment, child⟩
  if parent = "" then return child
  let (_, tree) ← load files dir parent
  -- One level is enough: a parent of the parent is an error.
  let grandparent := Sources.parentName ⟨environment, tree⟩
  if grandparent ≠ "" then throw (.nestedParent parent grandparent)
  return Value.merge child tree

/-- The paths that the parent of a file can have. -/
def parentPaths (files : Files) (environment : Variables) (path : String) : List String :=
  match load files (Path.parent path) (Path.name path) with
  | .error _ => []
  | .ok (_, child) =>
    match Sources.parentName ⟨environment, child⟩ with
    | "" => []
    | parent => candidates files.here (Path.parent path) parent

/-- The settings: the name of the section, if any, and that of the setting. -/
def settingNames : List (String × String) :=
  ["inherits", "app_name", "log_level", "log_format", "host_port", "host", "port", "format",
   "production", "cors_allowed_origins", "workers", "caching", "redis", "rate_limit", "mcp"].map
    ("", ·) ++
  [("caching", "disable"), ("caching", "size"), ("caching", "ttl"), ("redis", "url"),
   ("redis", "connect_attempts"), ("rate_limit", "rate"), ("rate_limit", "bucket"),
   ("mcp", "disable")]

/-- The configuration in a file. -/
def read (files : Files) (environment : Variables) (path : String) : Except Error Config := do
  let tree ← readTree files environment path
  (← decode ⟨environment, tree⟩ path).resolve

/-- The configuration without a file. -/
def ofVariables (environment : Variables) : Except Error Config := do
  (← decode ⟨environment, .group []⟩ "").resolve

end SqlToMongo.Config
