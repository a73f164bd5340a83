import SqlToMongo.Json.Form

/-!
# Parameters of requests

What the parameters of each method are read as.
-/

namespace SqlToMongo.Mcp

open Json

namespace Params

/-- Anything that a client adds to a request. -/
def additions : Form := .dictionary "map[string]interface \x7b\x7d" .anything

/-- A request with parameters of a form. -/
def request (label : String) (params : Form) : Form := .record ("mcp." ++ label) label [("params", params)]

def greeting : Form :=
  request "InitializeRequest" <| .record "mcp.InitializeParams" "InitializeParams"
    [("protocolVersion", .string),
     ("capabilities", .record "mcp.ClientCapabilities" "ClientCapabilities"
        [("experimental", additions),
         ("roots", .record "struct \x7b ListChanged bool \"json:\\\"listChanged,omitempty\\\"\" \x7d" ""
            [("listChanged", .truth)]),
         ("sampling", .record "struct \x7b\x7d" "" [])]),
     ("clientInfo", .record "mcp.Implementation" "Implementation"
        [("name", .string), ("version", .string)])]

def ping : Form :=
  request "PingRequest" (.record "mcp.RequestParams" "RequestParams" [("_meta", additions)])

/-- The parameters of a list that can be asked for in parts. -/
def part (label : String) : Form :=
  request label (.record "mcp.PaginatedParams" "PaginatedParams" [("cursor", .text "mcp.Cursor")])

def callTool : Form :=
  request "CallToolRequest" <| .record "mcp.CallToolParams" "CallToolParams"
    [("name", .string), ("arguments", .anything), ("_meta", additions)]

def getPrompt : Form :=
  request "GetPromptRequest" <| .record "mcp.GetPromptParams" "GetPromptParams"
    [("name", .string), ("arguments", .dictionary "map[string]string" .string)]

end Params

end SqlToMongo.Mcp
