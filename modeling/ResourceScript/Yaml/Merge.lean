import ResourceScript.Document.Flaw
import ResourceScript.Yaml.Node

namespace ResourceScript.Yaml

abbrev GraphM := EStateM Document.Flaw Graph

namespace GraphM

/-- Removes the first pair of a mapping that says what is taken over, and gives the node to take
from. -/
def takeSource (n : Nat) : GraphM (Option Nat) := do
  let g ← get
  let pairs := g.pairsOf n
  let isMerge (p : Pair) : Bool := g.tagOf p.1 = .merge
  set (g.setPairs n (pairs.eraseP isMerge))
  return (pairs.find? isMerge).map (·.2)

def nameKeys (pairs : List Pair) : GraphM Unit := do
  for (key, _) in pairs do
    modify fun g => if g.tagOf key = .default then g.modify key (Node.withTag .str) else g

mutual

/-- The pairs of a mapping, with those taken over in the place of what says so. The fuel bounds the
number of steps, of which there are at most four to each source. -/
def merged : Nat → Nat → GraphM (List Pair)
  | 0, _ => return []
  | fuel + 1, n => do
    let taken ← takenBy fuel n
    let pairs := taken ++ (← get).pairsOf n
    modify (·.setPairs n pairs)
    nameKeys pairs
    return pairs

def takenBy : Nat → Nat → GraphM (List Pair)
  | 0, _ => return []
  | fuel + 1, n => do
    match ← takeSource n with
    | none => return []
    | some source =>
      let first ← takenFrom fuel source
      let more ← takenBy fuel n
      return first ++ more

def takenFrom : Nat → Nat → GraphM (List Pair)
  | 0, _ => return []
  | fuel + 1, source => do
    match (← get)[source]? with
    | some (.sequence _ items) =>
      let found ← items.mapM (mergedOf fuel)
      return found.reverse.flatten
    | _ => mergedOf fuel source

def mergedOf : Nat → Nat → GraphM (List Pair)
  | 0, _ => return []
  | fuel + 1, n => do
    if (← get).isMapping n then merged fuel n else throw .malformed

end

end GraphM

/-- The number of pairs that say what is taken over. Merging leaves no more of them. -/
def Graph.sourceCount (g : Graph) : Nat :=
  let count (pairs : List Pair) : Nat := pairs.countP fun p => g.tagOf p.1 = .merge
  g.foldl (fun total node =>
    match node with
    | .mapping _ pairs => total + count pairs
    | _ => total) 0

end ResourceScript.Yaml
