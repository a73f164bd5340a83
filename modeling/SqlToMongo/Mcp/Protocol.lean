import SqlToMongo.Json.Canonical
import SqlToMongo.Json.Reader
import SqlToMongo.Mcp.Params
import SqlToMongo.Mcp.Prompt
import SqlToMongo.Mcp.Tool
import SqlToMongo.Text.Base64

/-!
# Messages of the Model Context Protocol

A message is a JSON-RPC request on a line of its own. Requests are answered; a message without an id
is a notification and is not.
-/

namespace SqlToMongo.Mcp

open Text

/-- The version of the program. -/
def version : String := "dev"

/-- Versions of the protocol that are spoken, the newest last. -/
def spokenVersions : List String := ["2024-11-05", "2025-03-26"]

/-- Why a request is refused. -/
inductive Fault where
  | parse
  | message
  | notification
  | wrongVersion
  | unknownMethod (name : String)
  | unsupported (what : String)
  | unknownTool (name : String)
  | unknownPrompt (name : String)
  | prompt (error : Prompt.Error)
  /-- The place that a list should go on after cannot be read. -/
  | cursor (place : Nat)
  | malformed (method : String) (mismatch : Json.Mismatch)
  deriving DecidableEq, Repr

namespace Fault

def code : Fault → Int
  | parse | message | notification => -32700
  | wrongVersion | malformed .. => -32600
  | unknownMethod _ | unsupported _ => -32601
  | unknownTool _ | unknownPrompt _ | cursor _ => -32602
  | prompt _ => -32603

def text : Fault → String
  | parse => "Parse error"
  | message => "Failed to parse message"
  | notification => "Failed to parse notification"
  | wrongVersion => "Invalid JSON-RPC version"
  | unknownMethod name => "Method " ++ name ++ " not found"
  | unsupported what => what ++ " not supported"
  | unknownTool name => "tool '" ++ name ++ "' not found: tool not found"
  | unknownPrompt name => "prompt '" ++ name ++ "' not found: prompt not found"
  | prompt e => e.message
  | cursor place => "illegal base64 data at input byte " ++ toString place
  | malformed method mismatch => "unparsable " ++ method ++ " request: " ++ mismatch.message

end Fault

/-! ### Answers -/

def answer (id result : Json) : Json :=
  .object [("jsonrpc", .string "2.0"), ("id", id.canonical), ("result", result)]

def refuse (id : Json) (fault : Fault) : Json :=
  .object
    [("jsonrpc", .string "2.0"), ("id", id.canonical),
     ("error", .object [("code", .int fault.code), ("message", .string fault.text)])]

def textContent (text : String) : Json :=
  .object [("type", .string "text"), ("text", .string text)]

def initialized (s : Service) (params : Json) : Json :=
  let asked := params.fieldText "protocolVersion"
  let spoken := if spokenVersions.contains asked then asked else spokenVersions.getLastD ""
  let changing : Json := .object [("listChanged", .bool true)]
  .object
    [("protocolVersion", .string spoken),
     ("capabilities", .object [("prompts", changing), ("tools", changing)]),
     ("serverInfo", .object
        [("name", .string s.config.appName), ("version", .string version)])]

def toolAnswer (r : ToolResult) : Json :=
  .object <| ("content", .array [textContent r.text]) ::
    if r.failed then [("isError", .bool true)] else []

def promptAnswer (description text : String) : Json :=
  .object
    [("description", .string description),
     ("messages", .array [.object
        [("role", .string "assistant"), ("content", textContent text)]])]

/-- Calls the tool that the parameters name. -/
def callTool (s : Service) (now : Int) (params : Json) : Except Fault Json × Service :=
  let name := params.fieldText "name"
  match Tool.ofName? name with
  | none => (.error (.unknownTool name), s)
  | some tool =>
    let (result, s) := tool.call s now (params.fieldValue "arguments")
    (.ok (toolAnswer result), s)

/-- Gives the prompt that the parameters name. -/
def getPrompt (s : Service) (now : Int) (params : Json) : Except Fault Json × Service :=
  let name := params.fieldText "name"
  if name ≠ Prompt.name then (.error (.unknownPrompt name), s)
  else
    match Prompt.explain s now ((params.fieldDictionary "arguments").text "sql") with
    | (.error e, s) => (.error (.prompt e), s)
    | (.ok (description, text), s) => (.ok (promptAnswer description text), s)

/-- A list after the name that the parameters give as the place to go on; without one all of it. -/
def listAfter (field : String) (entries : List (String × Json)) (params : Json) : Except Fault Json :=
  let all (entries : List (String × Json)) : Json := .object [(field, .array (entries.map (·.2)))]
  match params.fieldText "cursor" with
  | "" => .ok (all entries)
  | cursor =>
    match Base64.decode cursor with
    | .error place => .error (.cursor place)
    | .ok bytes =>
      let last := ofUtf8 bytes
      .ok (all (entries.filter fun (name, _) => last < name))

/-- A method with the form of its requests. -/
inductive Method where
  | greet
  | ping
  | listTools
  | callTool
  | listPrompts
  | getPrompt
  deriving DecidableEq, Repr

namespace Method

def ofName? (name : String) : Option Method :=
  [("initialize", greet), ("ping", ping), ("tools/list", listTools), ("tools/call", callTool),
   ("prompts/list", listPrompts), ("prompts/get", getPrompt)].lookup name

def form : Method → Json.Form
  | greet => Params.greeting
  | ping => Params.ping
  | listTools => Params.part "ListToolsRequest"
  | callTool => Params.callTool
  | listPrompts => Params.part "ListPromptsRequest"
  | getPrompt => Params.getPrompt

/-- The result of a method. -/
def perform (s : Service) (now : Int) (params : Json) : Method → Except Fault Json × Service
  | greet => (.ok (initialized s params), s)
  | ping => (.ok (.object []), s)
  | listTools => (listAfter "tools" (Tool.all.map fun t => (t.name, t.toJson)) params, s)
  | callTool => Mcp.callTool s now params
  | listPrompts => (listAfter "prompts" [(Prompt.name, Prompt.toJson)] params, s)
  | getPrompt => Mcp.getPrompt s now params

end Method

/-- What is not offered, by the methods that would ask for it. -/
def notOffered? (method : String) : Option String :=
  [("resources/list", "resources"), ("resources/templates/list", "resources"),
   ("resources/read", "resources"), ("logging/setLevel", "logging")].lookup method

/-- The result of a request. -/
def perform (s : Service) (now : Int) (name : String) (message : Json) :
    Except Fault Json × Service :=
  match Method.ofName? name, notOffered? name with
  | some method, _ =>
    match Json.mismatch? {} method.form message with
    | some mismatch => (.error (.malformed name mismatch), s)
    | none => method.perform s now (message.fieldObject "params")
  | none, some what => (.error (.unsupported what), s)
  | none, none => (.error (.unknownMethod name), s)

/-- What every message is read as. -/
def messageForm : Json.Form :=
  .record "" "" [("jsonrpc", .string), ("method", .string), ("id", .anything), ("result", .anything)]

/-- What a message without an id is read as. -/
def notificationForm : Json.Form :=
  .record "" "" [("jsonrpc", .string), ("method", .string), ("params", Params.additions)]

/-- The answer to a message that has been read. Answers to us need none. -/
def handle (s : Service) (now : Int) (message : Json) : Option Json × Service :=
  let id := message.fieldValue "id"
  if (Json.mismatch? {} messageForm message).isSome then (some (refuse .null .message), s)
  else if message.fieldText "jsonrpc" ≠ "2.0" then (some (refuse id .wrongVersion), s)
  else if id.isNull then
    (if (Json.mismatch? {} notificationForm message).isSome then some (refuse .null .notification)
      else none, s)
  else if !(message.fieldValue "result").isNull then (none, s)
  else
    match perform s now (message.fieldText "method") message with
    | (.ok result, s) => (some (answer id result), s)
    | (.error fault, s) => (some (refuse id fault), s)

/-- The answer to a line. -/
def handleLine (s : Service) (now : Int) (line : String) : Option Json × Service :=
  match Json.read? line with
  | none => (some (refuse .null .parse), s)
  | some message => handle s now message

end SqlToMongo.Mcp
