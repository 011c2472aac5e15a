import ResourceScript.Yaml.Node
import ResourceScript.Yaml.Scalar
import ResourceScript.Yaml.Tokenize

namespace ResourceScript.Yaml

/-- The tokens that are left, and what is known by then. -/
structure Reading where
  tokens : List Token
  /-- Why there are no tokens behind those. -/
  flaw : Option Document.Flaw
  /-- What the short forms of tags stand for. -/
  handles : List (String × String) := []
  nodes : Graph := #[]
  /-- The nodes that have names. -/
  anchors : List (String × Nat) := []
  /-- The number of sequences and mappings that are not finished. -/
  depth : Nat := 0

abbrev ReadingM := EStateM Document.Flaw Reading

/-- The nodes that may stand at a place: a block at its own column, an entry of a sequence that is
not indented, or neither. -/
inductive Context where
  | flow
  | block
  /-- Behind a key or the colon of a block. -/
  | blockMember
  deriving DecidableEq, Repr

namespace ReadingM

def peek : ReadingM (Option Token) := do
  let r ← get
  match r.tokens.head?, r.flaw with
  | none, some flaw => throw flaw
  | t, _ => return t

def skip : ReadingM Unit :=
  modify fun r => { r with tokens := r.tokens.drop 1 }

def isAt (ts : List Token) : ReadingM Bool := do
  return (← peek).any ts.contains

def accept (t : Token) : ReadingM Bool := do
  if ← isAt [t] then
    skip
    return true
  else return false

def ensure (t : Token) : ReadingM Unit := do
  if !(← accept t) then throw .malformed

/-- What a tag stands for; the lone mark stands for itself. -/
def expand (handle : Option String) (suffix : String) : ReadingM String := do
  match handle with
  | none => return suffix
  | some h =>
    match (← get).handles.lookup h with
    | some expansion => return expansion ++ suffix
    | none => throw .malformed

def properties : ReadingM (Option String × Option String) := do
  match ← peek with
  | some (.anchor name) =>
    skip
    match ← peek with
    | some (.tag handle suffix) =>
      skip
      return (some name, some (← expand handle suffix))
    | _ => return (some name, none)
  | some (.tag handle suffix) =>
    skip
    let found ← match ← peek with
      | some (.anchor name) => do
        skip
        pure (some name)
      | _ => pure none
    return (found, some (← expand handle suffix))
  | _ => return (none, none)

def openTag : String := "!"

def scalarNode (tag : Option String) (text : String) (plain : Bool) : Node :=
  match tag with
  | none => .scalar (if plain then Scalar.tagOf text else .str) text
  | some name => .scalar (if name = openTag then Scalar.tagOf text else .ofName name) text

def collectionTag (tag : Option String) (usual : Tag) : Tag :=
  match tag with
  | none => usual
  | some name => if name = openTag then usual else .ofName name

def add (name : Option String) (node : Node) : ReadingM Nat := do
  let r ← get
  let number := r.nodes.size
  set { r with
    nodes := r.nodes.push node
    anchors := (name.map fun a => (a, number)).toList ++ r.anchors }
  return number

def addEmpty : ReadingM Nat :=
  add none (scalarNode none "" true)

def depthLimit : Nat := 489

/-- Adds a node with its parts. It has its number and its name before the parts are read, so that
they may refer to it. -/
def enclose (name : Option String) (contents : ReadingM Node) : ReadingM Nat := do
  let number ← add name default
  if (← get).depth = depthLimit then throw (.fault .nestedTooDeep)
  modify fun r => { r with depth := r.depth + 1 }
  let node ← contents
  modify fun r => { r with depth := r.depth - 1, nodes := r.nodes.setIfInBounds number node }
  return number

def aliased (name : String) : ReadingM Nat := do
  match (← get).anchors.lookup name with
  | some number => return number
  | none => throw .malformed

def ensureFresh (name : Option String) : ReadingM Unit := do
  let r ← get
  if name.any fun a => (r.anchors.lookup a).isSome then throw .malformed

mutual

/-- One node. The fuel bounds the number of steps. -/
def node (context : Context) : Nat → ReadingM Nat
  | 0 => throw .malformed
  | fuel + 1 => do
    match ← peek with
    | some (.alias name) =>
      skip
      aliased name
    | _ =>
      let (name, tag) ← properties
      let next ← peek
      ensureFresh name
      let sequence (items : ReadingM (List Nat)) : ReadingM Nat :=
        enclose name (Node.sequence (collectionTag tag .seq) <$> items)
      let mapping (pairs : ReadingM (List Pair)) : ReadingM Nat :=
        enclose name (Node.mapping (collectionTag tag .map) <$> pairs)
      match next, context with
      | some (.scalar text plain), _ =>
        skip
        add name (scalarNode tag text plain)
      | some .flowSequenceStart, _ =>
        skip
        sequence (flowItems fuel)
      | some .flowMappingStart, _ =>
        skip
        mapping (flowPairs fuel)
      | some .blockEntry, .blockMember => sequence (looseItems fuel)
      | some .blockSequenceStart, .block | some .blockSequenceStart, .blockMember =>
        skip
        sequence (blockItems fuel)
      | some .blockMappingStart, .block | some .blockMappingStart, .blockMember =>
        skip
        mapping (blockPairs fuel)
      | _, _ =>
        if name.isNone && tag.isNone then throw .malformed
        add name (scalarNode tag "" true)

def nodeUnless (stops : List Token) (context : Context) : Nat → ReadingM Nat
  | 0 => throw .malformed
  | fuel + 1 => do
    if ← isAt stops then addEmpty else node context fuel

/-- The node behind a colon, or the empty one if there is no colon or one of the tokens comes next.
-/
def valueUnless (stops : List Token) (context : Context) : Nat → ReadingM Nat
  | 0 => throw .malformed
  | fuel + 1 => do
    if ← accept .value then nodeUnless stops context fuel else addEmpty

def blockItems : Nat → ReadingM (List Nat)
  | 0 => throw .malformed
  | fuel + 1 => do
    if ← accept .blockEntry then
      let item ← nodeUnless [.blockEntry, .blockEnd] .block fuel
      return item :: (← blockItems fuel)
    else
      ensure .blockEnd
      return []

def looseItems : Nat → ReadingM (List Nat)
  | 0 => throw .malformed
  | fuel + 1 => do
    if ← accept .blockEntry then
      let item ← nodeUnless [.blockEntry, .key, .value, .blockEnd] .block fuel
      return item :: (← looseItems fuel)
    else return []

def blockPairs : Nat → ReadingM (List Pair)
  | 0 => throw .malformed
  | fuel + 1 => do
    if ← accept .key then
      let key ← nodeUnless [.key, .value, .blockEnd] .blockMember fuel
      let value ← valueUnless [.key, .value, .blockEnd] .blockMember fuel
      return (key, value) :: (← blockPairs fuel)
    else
      ensure .blockEnd
      return []

/-- The items of a bracketed sequence, up to the closing bracket. A key among them is a map of one
member. -/
def flowItems : Nat → ReadingM (List Nat)
  | 0 => throw .malformed
  | fuel + 1 => do
    if ← accept .flowSequenceEnd then return []
    let item ←
      if ← accept .key then
        enclose none do
          let key ← nodeUnless [.value, .flowEntry, .flowSequenceEnd] .flow fuel
          let value ← valueUnless [.flowEntry, .flowSequenceEnd] .flow fuel
          return .mapping .map [(key, value)]
      else node .flow fuel
    if ← accept .flowEntry then return item :: (← flowItems fuel)
    ensure .flowSequenceEnd
    return [item]

/-- The members of a bracketed map, up to the closing bracket. A node that is no key is the key of
an empty value. -/
def flowPairs : Nat → ReadingM (List Pair)
  | 0 => throw .malformed
  | fuel + 1 => do
    if ← accept .flowMappingEnd then return []
    let pair ←
      if ← accept .key then
        let key ← nodeUnless [.value, .flowEntry, .flowMappingEnd] .flow fuel
        let value ← valueUnless [.flowEntry, .flowMappingEnd] .flow fuel
        pure (key, value)
      else
        let key ← node .flow fuel
        let value ← addEmpty
        pure (key, value)
    if ← accept .flowEntry then return pair :: (← flowPairs fuel)
    ensure .flowMappingEnd
    return [pair]

end

def usualHandles : List (String × String) :=
  [("!", "!"), ("!!", "tag:yaml.org,2002:")]

/-- The short forms that directives explain; there is at most one version, and it is the first. -/
def directives (versions : Nat) (handles : List (String × String)) :
    Nat → ReadingM (List (String × String))
  | 0 => throw .malformed
  | fuel + 1 => do
    match ← peek with
    | some (.directive d) =>
      skip
      match d with
      | .version major =>
        if versions != 0 || major != 1 then throw .malformed
        directives (versions + 1) handles fuel
      | .tag handle expansion =>
        if (handles.lookup handle).isSome then throw .malformed
        directives versions ((handle, expansion) :: handles) fuel
      | .other => directives versions handles fuel
    | _ => return handles

def documentEnds : Nat → ReadingM Unit
  | 0 => return
  | fuel + 1 => do
    if ← accept .documentEnd then documentEnds fuel

def documentStart (fuel : Nat) : ReadingM Unit := do
  let handles ← directives 0 [] fuel
  modify fun r => { r with handles := handles ++ usualHandles }
  ensure .documentStart

def documentNode (fuel : Nat) : ReadingM Nat := do
  match ← peek with
  | none | some (.directive _) | some .documentStart | some .documentEnd => addEmpty
  | some _ => node .block fuel

def document (fuel : Nat) : ReadingM Unit := do
  let _ ← match ← peek with
    | none => return
    | some (.directive _) | some .documentStart => do
      documentStart fuel
      documentNode fuel
    | some _ => do
      modify fun r => { r with handles := usualHandles }
      node .block fuel
  documentEnds fuel
  if (← peek).isSome then
    documentStart fuel
    throw .malformed

end ReadingM

/-- The nodes that tokens build, none if they hold no document. Each token takes at most three
steps. -/
def Graph.ofTokens (t : Tokens) : Except Document.Flaw Graph :=
  match ReadingM.document (3 * t.known.length + 3) { tokens := t.known, flaw := t.flaw } with
  | .ok () r => .ok r.nodes
  | .error flaw _ => .error flaw

end ResourceScript.Yaml
