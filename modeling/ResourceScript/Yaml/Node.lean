import ResourceScript.Yaml.Token

namespace ResourceScript.Yaml

inductive Tag where
  | null
  | bool
  | int
  | float
  | timestamp
  | binary
  | str
  | seq
  | map
  | set
  /-- A sequence of pairs, each written as a mapping of one member. -/
  | pairs
  /-- The key of members that are taken over from other maps. -/
  | merge
  /-- The key of a value that stands for its map. -/
  | default
  | other
  deriving DecidableEq, Repr, Inhabited

namespace Tag

def named : List (String × Tag) :=
  [("tag:yaml.org,2002:null", null), ("tag:yaml.org,2002:bool", bool),
    ("tag:yaml.org,2002:int", int), ("tag:yaml.org,2002:float", float),
    ("tag:yaml.org,2002:timestamp", timestamp), ("tag:yaml.org,2002:binary", binary),
    ("tag:yaml.org,2002:str", str), ("tag:yaml.org,2002:seq", seq), ("tag:yaml.org,2002:map", map),
    ("tag:yaml.org,2002:set", set), ("tag:yaml.org,2002:omap", pairs),
    ("tag:yaml.org,2002:pairs", pairs), ("tag:yaml.org,2002:merge", merge),
    ("tag:yaml.org,2002:value", default)]

def ofName (name : String) : Tag :=
  (named.lookup name).getD other

end Tag

abbrev Pair := Nat × Nat

inductive Node where
  | scalar (tag : Tag) (text : String)
  | sequence (tag : Tag) (items : List Nat)
  | mapping (tag : Tag) (pairs : List Pair)
  deriving DecidableEq, Repr, Inhabited

namespace Node

def tag : Node → Tag
  | scalar t _ | sequence t _ | mapping t _ => t

def withTag (t : Tag) : Node → Node
  | scalar _ text => scalar t text
  | sequence _ items => sequence t items
  | mapping _ pairs => mapping t pairs

end Node

abbrev Graph := Array Node

namespace Graph

def tagOf (g : Graph) (n : Nat) : Tag :=
  (g[n]?.map Node.tag).getD .other

def pairsOf (g : Graph) (n : Nat) : List Pair :=
  match g[n]? with
  | some (.mapping _ pairs) => pairs
  | _ => []

def isMapping (g : Graph) (n : Nat) : Bool :=
  match g[n]? with
  | some (.mapping ..) => true
  | _ => false

def setPairs (g : Graph) (n : Nat) (pairs : List Pair) : Graph :=
  g.setIfInBounds n (.mapping (g.tagOf n) pairs)

end Graph

end ResourceScript.Yaml
