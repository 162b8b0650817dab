import Infill.Yaml.Lexer
import Infill.Yaml.Node

/-!
# Documents from tokens

Each kind of collection has its own rule for the tokens between its start and its end, and a node may
be empty where the next token cannot begin one.  Anchors are numbered by how many different names were
known before them, and a number means the node that took it last.
-/

set_option autoImplicit false

namespace Infill.Yaml

/-- What is known while the nodes of a document are read: the tokens left, the handles of tags, the
names of anchors with their numbers, how many nodes with anchors began, and which of these has each
number; the nodes themselves are added when they end. -/
structure Composer where
  tokens : List Token
  handles : List (Text × Bytes)
  names : List (Text × Nat)
  begun : Nat
  holders : List (Nat × Nat)
  nodes : List (Nat × Node)

/-- Reading nodes: what is left of the tokens goes from step to step. -/
abbrev Compose := StateT Composer (Except Fault)

namespace Compose

/-- The next token, which stays. -/
def peek : Compose Token := do return (← get).tokens.headD .streamEnd

/-- Goes past the next token. -/
def skip : Compose Unit := modify fun s => { s with tokens := s.tokens.drop 1 }

/-- Passes over a token if it comes next. -/
def skipIf (token : Token) : Compose Bool := do
  if (← peek) = token then
    skip
    return true
  else return false

/-- Passes over a token that has to come next. -/
def expect (token : Token) : Compose Unit := do
  if ← skipIf token then return else throw .strangeToken

/-- Gives an anchor its number; a name that is known already takes a new one. -/
def beginAnchor (name : Text) : Compose Nat := do
  let s ← get
  let number := s.names.length
  let names := (name, number) :: s.names.filter fun (n, _) => n != name
  let holders := (number, s.begun) :: s.holders.filter fun (n, _) => n != number
  set { s with names := names, begun := s.begun + 1, holders := holders }
  return s.begun

/-- Adds a node that began with an anchor. -/
def endAnchor (began : Option Nat) (node : Node) : Compose Unit :=
  match began with
  | some began => modify fun s => { s with nodes := (began, node) :: s.nodes }
  | none => return

/-- The number of the anchor that an alias names. -/
def anchorNamed (name : Text) : Compose Nat := do
  match (← get).names.find? fun (n, _) => n == name with
  | some (_, number) => return number
  | none => throw .unknownAnchor

/-- The tag that a handle and a suffix stand for. -/
def resolveTag (handle : Text) (suffix : Bytes) : Compose Bytes := do
  if handle.isEmpty then return suffix
  else
    match (← get).handles.find? fun (h, _) => h == handle with
    | some (_, stem) => return stem ++ suffix
    | none => throw .unknownHandle

/-- The anchor and the tag in front of a node, in either order. -/
def properties : Compose (Option Nat × Option Bytes) := do
  let tag? : Compose (Option Bytes) := do
    match ← peek with
    | .tag handle suffix =>
      skip
      return some (← resolveTag handle suffix)
    | _ => return none
  let anchor? : Compose (Option Nat) := do
    match ← peek with
    | .anchor name =>
      skip
      return some (← beginAnchor name)
    | _ => return none
  match ← anchor? with
  | some began => return (some began, ← tag?)
  | none =>
    let tag ← tag?
    return (← anchor?, tag)

/-- Whether a node is empty that a token follows which belongs to the block collection around it. -/
def endsBlockNode (token : Token) : Bool :=
  token == .key || token == .value || token == .blockEnd

mutual

/-- Reads a node.  Block collections are nodes in the block context only; there an entry of a mapping
may be a sequence without indentation. -/
def node (inBlock mayBeFlat : Bool) : Nat → Compose Node
  | 0 => throw .strangeToken
  | rounds + 1 => do
    if let .alias name ← peek then
      skip
      return .alias (← anchorNamed name)
    let (began, tag) ← properties
    let read ←
      match ← peek with
      | .scalar text style => do
        skip
        pure (Node.scalar text style tag)
      | .flowSequenceStart => do
        skip
        pure (.sequence (← flowItems true rounds))
      | .flowMappingStart => do
        skip
        pure (.mapping (← flowMembers true rounds))
      | token =>
        if mayBeFlat && token == .blockItem then do
          pure (.sequence (← flatItems rounds))
        else if inBlock && token == .blockSequenceStart then do
          skip
          pure (.sequence (← blockItems rounds))
        else if inBlock && token == .blockMappingStart then do
          skip
          pure (.mapping (← blockMembers rounds))
        else if began.isSome || tag.isSome then
          pure (.scalar [] .plain tag)
        else throw .strangeToken
    endAnchor began read
    return read

/-- The entries of a block sequence, to its end. -/
def blockItems : Nat → Compose (List Node)
  | 0 => throw .strangeToken
  | rounds + 1 => do
    if ← skipIf .blockItem then
      let next ← peek
      let item ←
        if next = .blockItem ∨ next = .blockEnd then pure .empty else node true false rounds
      return item :: (← blockItems rounds)
    else
      expect .blockEnd
      return []

/-- The entries of a sequence that is not indented; the first other token ends it. -/
def flatItems : Nat → Compose (List Node)
  | 0 => throw .strangeToken
  | rounds + 1 => do
    if ← skipIf .blockItem then
      let next ← peek
      let item ←
        if next = .blockItem ∨ endsBlockNode next then pure .empty else node true false rounds
      return item :: (← flatItems rounds)
    else return []

/-- The members of a block mapping, to its end. -/
def blockMembers : Nat → Compose (List (Node × Node))
  | 0 => throw .strangeToken
  | rounds + 1 => do
    if ← skipIf .key then
      let key ← if endsBlockNode (← peek) then pure .empty else node true true rounds
      let value ← blockValue rounds
      return (key, value) :: (← blockMembers rounds)
    else
      expect .blockEnd
      return []

/-- The value of a member of a block mapping. -/
def blockValue : Nat → Compose Node
  | 0 => throw .strangeToken
  | rounds + 1 => do
    if ← skipIf .value then
      if endsBlockNode (← peek) then pure .empty else node true true rounds
    else return .empty

/-- The items of a flow sequence, to its end. -/
def flowItems (isFirst : Bool) : Nat → Compose (List Node)
  | 0 => throw .strangeToken
  | rounds + 1 => do
    if ← skipIf .flowSequenceEnd then return []
    if !isFirst then
      expect .flowComma
      if ← skipIf .flowSequenceEnd then return []
    let item ←
      if ← skipIf .key then pure (.mapping [← flowPair rounds]) else node false false rounds
    return item :: (← flowItems false rounds)

/-- The one member of a mapping that stands as an item of a flow sequence. -/
def flowPair : Nat → Compose (Node × Node)
  | 0 => throw .strangeToken
  | rounds + 1 => do
    let next ← peek
    let key ←
      if next = .value ∨ next = .flowComma ∨ next = .flowSequenceEnd then do
        skip
        pure .empty
      else node false false rounds
    let value ←
      if ← skipIf .value then do
        let next ← peek
        if next = .flowComma ∨ next = .flowSequenceEnd then pure .empty
        else node false false rounds
      else pure .empty
    return (key, value)

/-- The members of a flow mapping, to its end. -/
def flowMembers (isFirst : Bool) : Nat → Compose (List (Node × Node))
  | 0 => throw .strangeToken
  | rounds + 1 => do
    if ← skipIf .flowMappingEnd then return []
    if !isFirst then
      expect .flowComma
      if ← skipIf .flowMappingEnd then return []
    let isEnd (token : Token) : Bool := token == .flowComma || token == .flowMappingEnd
    let member ←
      if ← skipIf .key then do
        let next ← peek
        let key ←
          if next = .value ∨ isEnd next then pure .empty else node false false rounds
        let value ←
          if ← skipIf .value then do
            if isEnd (← peek) then pure .empty else node false false rounds
          else pure .empty
        pure (key, value)
      else do
        let key ← node false false rounds
        pure (key, .empty)
    return member :: (← flowMembers false rounds)

end

/-- The handles that every document knows. -/
def defaultHandles : List (Text × Bytes) :=
  [(['!'], Utf8.encode ['!']), (['!', '!'], Utf8.encode "tag:yaml.org,2002:".toList)]

/-- Reads the directives in front of a document: one version at most, and each handle once. -/
def directives (versionSeen : Bool) (handles : List (Text × Bytes)) :
    List Token → Except Fault (Bool × List (Text × Bytes) × List Token)
  | .version major minor :: rest =>
    if versionSeen || major != 1 || (minor != 1 && minor != 2) then .error .badDirective
    else directives true handles rest
  | .tagHandle handle stem :: rest =>
    if handles.any fun (h, _) => h == handle then .error .badDirective
    else directives versionSeen ((handle, stem) :: handles) rest
  | tokens => .ok (versionSeen || !handles.isEmpty, handles, tokens)

/-- Enough rounds to read the nodes of some tokens. -/
def roundsFor (tokens : List Token) : Nat := 4 * tokens.length + 8

/-- Reads the root of a document.  Behind the mark of its start it may be empty. -/
def rootNode (isExplicit : Bool) (tokens : List Token) : Compose Node := do
  let next ← peek
  let nothing := match next with
    | .version .. | .tagHandle .. | .documentStart | .documentEnd | .streamEnd => true
    | _ => false
  if isExplicit && nothing then return .empty else node true false (roundsFor tokens)

end Compose

/-- Reads a stream of tokens that holds one document or none. -/
def Document.ofTokens? (tokens : List Token) : Except Fault (Option Document) := do
  let (directed, handles, rest) ← Compose.directives false [] tokens
  let isExplicit := rest.head? == some .documentStart
  if !directed && rest.head? == some .streamEnd then return none
  if directed && !isExplicit then throw .badDirective
  let rest := if isExplicit then rest.drop 1 else rest
  let (root, s) ← (Compose.rootNode isExplicit rest).run
    ⟨rest, handles ++ Compose.defaultHandles, [], 0, [], []⟩
  let behind := s.tokens.dropWhile (· == .documentEnd)
  if behind.head? != some .streamEnd then throw .severalDocuments
  let anchors := s.holders.filterMap fun (number, began) =>
    (s.nodes.find? fun (b, _) => b == began).map fun (_, node) => (number, node)
  return some ⟨root, anchors⟩

/-- Reads a text that holds one document or none. -/
def Document.read (t : Text) : Except Fault (Option Document) := do
  Document.ofTokens? (← tokens t)

end Infill.Yaml
