import SqlToMongo.Yaml.Basic
import SqlToMongo.Yaml.Token

/-!
# Reading documents

A text can hold several documents, of which the first one counts. What comes after it does not have
to be well-formed, but two more tokens are looked at.
-/

namespace SqlToMongo.Yaml

/-- The tokens that are left, and what names and handles stand for. -/
structure Reading where
  tokens : List Token
  anchors : List (String × Yaml) := []
  handles : List (String × String) := []

/-- What may stand before a node. -/
structure Properties where
  anchor : Option String := none
  tag : Option String := none
  deriving Repr

/-- The beginning that the tags of YAML itself have in full. -/
def standardTags : String := "tag:yaml.org,2002:"

/-- The short form of a tag; the one without a name says nothing. -/
def shortTag? (tag : String) : Option String :=
  if tag = "!" then none
  else if standardTags.toList.isPrefixOf tag.toList then
    some ("!!" ++ String.ofList (tag.toList.drop standardTags.length))
  else some tag

namespace Reading

/-- The tag of a token, in full; `none` for an unknown handle. -/
def fullTag? (r : Reading) (handle suffix : String) : Option String :=
  if handle = "" then some suffix
  else ((r.handles ++ [("!", "!"), ("!!", standardTags)]).lookup handle).map (· ++ suffix)

/-- Anchor and tag of a node, in any order. -/
def properties? (r : Reading) : Option (Properties × Reading) :=
  match r.tokens with
  | .anchor name :: .tag handle suffix :: rest | .tag handle suffix :: .anchor name :: rest =>
    (r.fullTag? handle suffix).map fun tag => (⟨some name, some tag⟩, { r with tokens := rest })
  | .anchor name :: rest => some (⟨some name, none⟩, { r with tokens := rest })
  | .tag handle suffix :: rest =>
    (r.fullTag? handle suffix).map fun tag => (⟨none, some tag⟩, { r with tokens := rest })
  | _ => some ({}, r)

/-- Reads a node that may have a name. The name stands for the node from there on, unless another one
takes it. -/
def within (r : Reading) (anchor : Option String) (read? : Reading → Option (Yaml × Reading)) :
    Option (Yaml × Reading) :=
  match anchor with
  | none => read? r
  | some name => do
    let (node, after) ← read? { r with anchors := (name, .knot name) :: r.anchors }
    -- Names that the node brought itself are newer than its own.
    let newer := after.anchors.take (after.anchors.length - r.anchors.length - 1)
    return (node, { after with anchors := newer ++ (name, node) :: r.anchors })

/-- The node that a name stands for. -/
def linked? (r : Reading) (name : String) : Option Yaml :=
  (r.anchors.lookup name).map fun node =>
    match node with
    | .knot name => .knot name
    | node => .link name node

end Reading

/-- The tokens after which an item of a block can be missing. -/
def endsItem (t : Token) : Bool := t == .item || t == .closeBlock

def endsFlatItem (t : Token) : Bool := endsItem t || t == .key || t == .value

def endsKey (t : Token) : Bool := t == .key || t == .value || t == .closeBlock

/-- The tokens after which a part of a pair in brackets can be missing. -/
def endsMember (t : Token) : Bool := t == .comma || t == .closeBrace

def endsPair (t : Token) : Bool := t == .comma || t == .closeBracket

/-- Nothing but an anchor or a tag. -/
def bare? (p : Properties) (r : Reading) : Option (Yaml × Reading) :=
  if p.anchor.isSome || p.tag.isSome then some (.scalar "" true (p.tag.bind shortTag?), r) else none

/-- The tokens after the comma that has to stand before all but the first. -/
def separated? (close : Token) (first : Bool) (tokens : List Token) : Option (List Token) :=
  match tokens with
  | .comma :: rest => if first then some tokens else some rest
  | t :: _ => if first || t == close then some tokens else none
  | [] => if first then some tokens else none

mutual

/-- A node. Blocks begin only where `block` says so, and items without a block of their own only where
`flat` does. -/
def node? (block flat : Bool) : Nat → Reading → Option (Yaml × Reading)
  | 0, _ => none
  | steps + 1, r =>
    match r.tokens with
    | .link name :: rest => (r.linked? name).map (·, { r with tokens := rest })
    | _ =>
      match r.properties? with
      | none => none
      | some (p, r) => r.within p.anchor fun r =>
        match r.tokens with
        | .scalar text plain :: rest =>
          some (.scalar text plain (p.tag.bind shortTag?), { r with tokens := rest })
        | .openBracket :: rest =>
          (bracketItems? true steps { r with tokens := rest }).map fun (xs, r) => (.sequence xs, r)
        | .openBrace :: rest =>
          (members? true steps { r with tokens := rest }).map fun (xs, r) => (.mapping xs, r)
        | .item :: _ =>
          if flat then (flatItems? steps r).map fun (xs, r) => (.sequence xs, r) else bare? p r
        | .openSequence :: rest =>
          if block then
            (items? steps { r with tokens := rest }).map fun (xs, r) => (.sequence xs, r)
          else bare? p r
        | .openMapping :: rest =>
          if block then
            (pairs? steps { r with tokens := rest }).map fun (xs, r) => (.mapping xs, r)
          else bare? p r
        | _ => bare? p r

/-- A node, or nothing where a token stands that ends the place of the node. -/
def optional? (ends : Token → Bool) (block flat : Bool) : Nat → Reading → Option (Yaml × Reading)
  | 0, _ => none
  | steps + 1, r =>
    if (r.tokens.head?.map ends).getD false then some (.nothing, r) else node? block flat steps r

/-- The items of a block, up to its end. -/
def items? : Nat → Reading → Option (List Yaml × Reading)
  | 0, _ => none
  | steps + 1, r =>
    match r.tokens with
    | .item :: rest =>
      match optional? endsItem true false steps { r with tokens := rest } with
      | some (item, r) => (items? steps r).map fun (more, r) => (item :: more, r)
      | none => none
    | .closeBlock :: rest => some ([], { r with tokens := rest })
    | _ => none

/-- Items in the column of the key that they belong to. -/
def flatItems? : Nat → Reading → Option (List Yaml × Reading)
  | 0, _ => none
  | steps + 1, r =>
    match r.tokens with
    | .item :: rest =>
      match optional? endsFlatItem true false steps { r with tokens := rest } with
      | some (item, r) => (flatItems? steps r).map fun (more, r) => (item :: more, r)
      | none => none
    | _ => some ([], r)

/-- The pairs of a block, up to its end. -/
def pairs? :
    Nat → Reading → Option (List (Yaml × Yaml) × Reading)
  | 0, _ => none
  | steps + 1, r =>
    match r.tokens with
    | .key :: rest =>
      match optional? endsKey true true steps { r with tokens := rest } with
      | none => none
      | some (key, r) =>
        match pairValue? steps r with
        | none => none
        | some (value, r) => (pairs? steps r).map fun (more, r) => ((key, value) :: more, r)
    | .closeBlock :: rest => some ([], { r with tokens := rest })
    | _ => none

def pairValue? : Nat → Reading → Option (Yaml × Reading)
  | 0, _ => none
  | steps + 1, r =>
    match r.tokens with
    | .value :: rest => optional? endsKey true true steps { r with tokens := rest }
    | _ => some (.nothing, r)

/-- What stands between square brackets, up to the closing one. A pair is a mapping of its own. -/
def bracketItems? (first : Bool) : Nat → Reading → Option (List Yaml × Reading)
  | 0, _ => none
  | steps + 1, r =>
    match separated? .closeBracket first r.tokens with
    | none => none
    | some (.closeBracket :: rest) => some ([], { r with tokens := rest })
    | some (.key :: rest) =>
      match singleKey? steps { r with tokens := rest } with
      | none => none
      | some (key, r) =>
        match singleValue? steps r with
        | none => none
        | some (value, r) =>
          (bracketItems? false steps r).map fun (more, r) => (.mapping [(key, value)] :: more, r)
    | some tokens =>
      match node? false false steps { r with tokens } with
      | none => none
      | some (item, r) => (bracketItems? false steps r).map fun (more, r) => (item :: more, r)

/-- The key of a pair in square brackets. Where it is missing, the token there goes with it. -/
def singleKey? : Nat → Reading → Option (Yaml × Reading)
  | 0, _ => none
  | steps + 1, r =>
    match r.tokens with
    | .value :: rest | .comma :: rest | .closeBracket :: rest =>
      some (.nothing, { r with tokens := rest })
    | _ => node? false false steps r

def singleValue? : Nat → Reading → Option (Yaml × Reading)
  | 0, _ => none
  | steps + 1, r =>
    match r.tokens with
    | .value :: rest => optional? endsPair false false steps { r with tokens := rest }
    | _ => some (.nothing, r)

/-- What stands between braces, up to the closing one. -/
def members? (first : Bool) :
    Nat → Reading → Option (List (Yaml × Yaml) × Reading)
  | 0, _ => none
  | steps + 1, r =>
    match separated? .closeBrace first r.tokens with
    | none => none
    | some (.closeBrace :: rest) => some ([], { r with tokens := rest })
    | some (.key :: rest) =>
      match optional? (fun t => endsMember t || t == .value) false false steps
          { r with tokens := rest } with
      | none => none
      | some (key, r) =>
        match memberValue? steps r with
        | none => none
        | some (value, r) => (members? false steps r).map fun (more, r) => ((key, value) :: more, r)
    | some tokens =>
      match node? false false steps { r with tokens } with
      | none => none
      | some (key, r) => (members? false steps r).map fun (more, r) => ((key, .nothing) :: more, r)

def memberValue? : Nat → Reading → Option (Yaml × Reading)
  | 0, _ => none
  | steps + 1, r =>
    match r.tokens with
    | .value :: rest => optional? endsMember false false steps { r with tokens := rest }
    | _ => some (.nothing, r)

end

/-- The directives before a document: the handles they bring, and the tokens after them. -/
def directives? (versionSeen : Bool) (handles : List (String × String)) :
    List Token → Option (List (String × String) × List Token)
  | .version major minor :: rest =>
    if versionSeen || major != 1 || minor != 1 then none else directives? true handles rest
  | .shorthand handle start :: rest =>
    if (handles.lookup handle).isSome then none
    else directives? versionSeen ((handle, start) :: handles) rest
  | tokens => some (handles, tokens)

/-- Whether a token begins or ends a document. -/
def isOutermost : Token → Bool
  | .version .. | .shorthand .. | .documentStart | .documentEnd => true
  | _ => false

/-- The first document, and the tokens after it. -/
def firstDocument? (tokens : List Token) : Option (Yaml × List Token) :=
  let steps := 4 * tokens.length + 4
  match tokens with
  | [] => some (.nothing, [])
  | t :: _ =>
    if isOutermost t && t != .documentEnd then
      match directives? false [] tokens with
      | some (_, [.documentStart]) => some (.nothing, [])
      | some (handles, .documentStart :: rest) =>
        (optional? isOutermost true false steps { tokens := rest, handles }).map fun (node, r) =>
          (node, r.tokens)
      | _ => none
    else (node? true false steps { tokens }).map fun (node, r) => (node, r.tokens)

/-- How many tokens after a document are looked at. -/
def lookahead : Nat := 2

/-- The first document of a text. -/
def read? (text : String) : Option Yaml := do
  -- A byte order mark is no part of the text.
  let chars := match text.toList with
    | '\ufeff' :: rest => rest
    | chars => chars
  if !chars.all isAllowed then none
  let (tokens, complete) := Token.scan chars
  let (node, rest) ← firstDocument? tokens.toList
  if complete || lookahead < rest.length then return node else none

end SqlToMongo.Yaml
