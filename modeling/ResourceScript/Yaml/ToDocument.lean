import ResourceScript.Yaml.Merge
import ResourceScript.Yaml.Scalar
import ResourceScript.Yaml.Structure

namespace ResourceScript.Yaml

open Document (Flaw)

/-- The nodes, and what is known of the parts of the document. -/
structure Filling where
  graph : Graph
  /-- The fuel for merging the pairs of a mapping. -/
  mergeFuel : Nat
  /-- What the nodes are that have been met. Those that wait are empty yet. -/
  parts : Array (Option Document)
  /-- The sequences and mappings that have been met and wait to be filled, by their numbers. -/
  waiting : List Nat := []

abbrev FillingM := EStateM Flaw Filling

/-- The text of a node that has to be a scalar. A mapping may name another node for the purpose. The
fuel bounds the number of nodes that name others. -/
def Graph.textOf (g : Graph) : Nat → Nat → Except Flaw String
  | 0, _ => .error (.fault .nestedTooDeep)
  | fuel + 1, n =>
    match g[n]? with
    | some (.scalar _ text) => .ok text
    | some (.mapping _ pairs) =>
      match pairs.find? fun p => g.tagOf p.1 = .default with
      | some p => g.textOf fuel p.2
      | none => .error .malformed
    | _ => .error .malformed

def Graph.plainDocument (g : Graph) (n : Nat) : Except Flaw Document := do
  let tag := g.tagOf n
  if tag ∈ [.merge, .default, .other] then .error .malformed
  else
    let text ← g.textOf (g.size + 1) n
    if tag = .timestamp ∧ g.isMapping n then .error (.fault .valueShape)
    else Scalar.toDocument tag text

namespace FillingM

def ofExcept (e : Except Flaw α) : FillingM α :=
  match e with
  | .ok a => pure a
  | .error flaw => throw flaw

/-- The document at a place of a node: its number if it has parts. -/
def reference (n : Nat) (d : Document) : Document :=
  match d with
  | .list _ | .set _ | .map _ => .shared n
  | _ => d

def empty? : Tag → Option Document
  | .seq | .pairs => some (.list [])
  | .set => some (.set [])
  | .map => some (.map [])
  | _ => none

/-- The document at a place of a node. Each node is read only once. -/
def visit (n : Nat) : FillingM Document := do
  let f ← get
  match (f.parts[n]?).join with
  | some d => return reference n d
  | none =>
    match empty? (f.graph.tagOf n) with
    | some d =>
      set { f with parts := f.parts.setIfInBounds n (some d), waiting := f.waiting ++ [n] }
      return reference n d
    | none =>
      let d ← ofExcept (f.graph.plainDocument n)
      set { f with parts := f.parts.setIfInBounds n (some d) }
      return d

def mergedPairs (n : Nat) : FillingM (List Pair) := do
  let f ← get
  match GraphM.mergedOf f.mergeFuel n f.graph with
  | .ok pairs graph =>
    set { f with graph }
    return pairs
  | .error flaw _ => throw flaw

/-- The members of a mapping. Of those with one key the last one counts. -/
def members (n : Nat) : FillingM (List (Document × Document)) := do
  (← mergedPairs n).foldlM (fun all (key, value) => do
    let key ← visit key
    if key.key?.isNone then throw .malformed
    let value ← visit value
    return Document.put key value all) []

def items (n : Nat) : FillingM (List Nat) := do
  match (← get).graph[n]? with
  | some (.sequence _ items) => return items
  | _ => throw .malformed

def pairOf (n : Nat) : FillingM Document := do
  match (← get).graph[n]? with
  | some (.mapping _ [(key, value)]) => return .pair (← visit key) (← visit value)
  | _ => throw .malformed

def contents (n : Nat) : FillingM Document := do
  match (← get).graph.tagOf n with
  | .seq => return .list (← (← items n).mapM visit)
  | .pairs => return .list (← (← items n).mapM pairOf)
  | .set => return .set ((← members n).map (·.1))
  | _ => return .map (← members n)

/-- Fills the parts that wait. None waits twice, so there are no more rounds than nodes. -/
def fill : Nat → FillingM Unit
  | 0 => return
  | fuel + 1 => do
    match (← get).waiting with
    | [] => return
    | n :: rest =>
      modify fun f => { f with waiting := rest }
      let d ← contents n
      modify fun f => { f with parts := f.parts.setIfInBounds n (some d) }
      fill fuel

def whole : FillingM Configuration := do
  let root ← visit 0
  fill (← get).graph.size
  return { root, parts := (← get).parts.map (·.getD .null) }

end FillingM

/-- What the nodes of a text hold; if there are none, nothing. -/
def Graph.toConfiguration (g : Graph) : Except Flaw Configuration :=
  if g.isEmpty then .ok { root := .null }
  else
    let start : Filling :=
      { graph := g, mergeFuel := 4 * g.sourceCount + 2, parts := Array.replicate g.size none }
    match FillingM.whole start with
    | .ok c _ => .ok c
    | .error flaw _ => .error flaw

/-- What a YAML text holds. A text without a document holds nothing. -/
def parse (source : List Char) : Except Flaw Configuration := do
  (← Graph.ofTokens (tokenize source)).toConfiguration

end ResourceScript.Yaml
