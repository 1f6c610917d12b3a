import Recenter.Datum.Document
import Recenter.Yaml.Node
import Recenter.Yaml.Value

/-! The data that a YAML document stands for. A scalar becomes a datum at once; a collection is
first given a number, and its parts are looked at when those of the collections before it have
been. Merged mappings come in front of a mapping's own entries, and of entries with one key the
last counts. -/

namespace Recenter.Yaml

/-- The key of a table. Most keys are equal to those with an equal datum; one that is no number is
equal only to itself, and known by the node that it was made for. -/
structure Key where
  datum : Datum
  maker : Option Nat

namespace Key

def isSame (a b : Key) : Bool := a.datum.sameKey b.datum && a.maker == b.maker

def put {α : Type} (key : Key) (value : α) : List (Key × α) → List (Key × α)
  | [] => [(key, value)]
  | (other, old) :: rest =>
    if other.isSame key then (other, value) :: rest else (other, old) :: put key value rest

end Key

/-- The nodes of a document, of which merging changes some; the datum that each has become; the
data that have a number; and the collections, each as the number of its node and that of its datum,
in the order in which their parts are looked at. -/
structure Builder where
  nodes : Array Node
  made : Array (Option Datum)
  shared : Array Datum := #[]
  collections : Array (Nat × Nat) := #[]

namespace Builder

abbrev Building := StateT Builder (Except Fault)

def refuse {α : Type} (fault : Fault) : Building α :=
  fun _ => .error fault

def nodeAt (nodes : Array Node) (number : Nat) : Node :=
  nodes.getD number ⟨.null, .scalar ""⟩

def node (number : Nat) : Building Node := do
  return nodeAt (← get).nodes number

def setNode (number : Nat) (node : Node) : Building Unit :=
  modify fun b => { b with nodes := b.nodes.setIfInBounds number node }

def entries (number : Nat) : Building (List (Nat × Nat)) := do
  match (← node number).content with
  | .mapping entries => return entries
  | _ => return []

def setEntries (number : Nat) (entries : List (Nat × Nat)) : Building Unit := do
  setNode number { ← node number with content := .mapping entries }

/-- In a mapping an equals sign is a text like any other, from then on wherever it stands. -/
def makeText (number : Nat) : Building Unit := do
  let key ← node number
  if key.tag == .value then setNode number { key with tag := .str }

def isMergeKey (nodes : Array Node) (number : Nat) : Bool :=
  (nodeAt nodes number).tag == .merge

def mergeCount (nodes : Array Node) : Nat :=
  nodes.foldl
    (fun count node =>
      match node.content with
      | .mapping entries => count + entries.countP fun (key, _) => isMergeKey nodes key
      | _ => count)
    0

/-- Puts the entries that a mapping merges in front of its own. The first `seen` entries have been
looked at, and gave those in `merged`. Of several mappings that are merged at once the first one
counts most, and so comes last. Every call is made when an entry that merges has been removed, so
that their number bounds the fuel. -/
def merge : Nat → Nat → Nat → List (Nat × Nat) → Building Unit
  | 0, _, _, _ => return
  | fuel + 1, number, seen, merged => do
    let mergedFrom (number : Nat) : Building (List (Nat × Nat)) := do
      match (← node number).content with
      | .mapping _ =>
        merge fuel number 0 []
        entries number
      | _ => refuse .wrongShape
    let found ← entries number
    let nodes := (← get).nodes
    let own := (found.drop seen).takeWhile fun (key, _) => !isMergeKey nodes key
    own.forM fun (key, _) => makeText key
    let seen := seen + own.length
    match found.drop seen with
    | [] => if !merged.isEmpty then setEntries number (merged ++ found)
    | (_, source) :: rest =>
      setEntries number (found.take seen ++ rest)
      let more ←
        match (← node source).content with
        | .sequence items => do
          let lists ← items.mapM mergedFrom
          pure lists.reverse.flatten
        | _ => mergedFrom source
      merge fuel number seen (merged ++ more)

/-- The text of a node that is to be a scalar. A mapping with an equals sign among its keys counts
as what stands behind the first of them. -/
def text? (nodes : Array Node) : Nat → Nat → Option String
  | 0, _ => none
  | fuel + 1, number =>
    match (nodeAt nodes number).content with
    | .scalar text => some text
    | .sequence _ => none
    | .mapping entries =>
      match entries.find? fun (key, _) => (nodeAt nodes key).tag == .value with
      | some (_, value) => text? nodes fuel value
      | none => none

def scalarText (number : Nat) : Building (List Char) := do
  let nodes := (← get).nodes
  match text? nodes (nodes.size + 1) number with
  | some text => return text.toList
  | none => refuse .wrongShape

def leaf (number : Nat) : Building Datum := do
  let node ← node number
  if [Tag.merge, .value, .unknown].contains node.tag then refuse .unknownTag
  else
    let text ← scalarText number
    match node.tag, node.content with
    | .timestamp, .mapping _ => refuse (.value .timeOfMapping)
    | tag, _ => liftM (Value.ofScalar tag text)

def share (datum : Datum) : Building Nat := do
  let number := (← get).shared.size
  modify fun b => { b with shared := b.shared.push datum }
  return number

/-- The collection of a tag before its parts are looked at. -/
def blank? : Tag → Option Datum
  | .seq | .omap | .pairs => some (.list [])
  | .set => some (.set [])
  | .map => some (.table [])
  | _ => none

/-- The datum of a node. It is made once. -/
def datum (number : Nat) : Building Datum := do
  match (← get).made.getD number none with
  | some datum => return datum
  | none =>
    let made ←
      match blank? (← node number).tag with
      | some blank => do
        let shared ← share blank
        modify fun b => { b with collections := b.collections.push (number, shared) }
        pure (Datum.shared shared)
      | none => leaf number
    modify fun b => { b with made := b.made.setIfInBounds number (some made) }
    return made

/-- The key that a node stands for. What has parts can be no key. -/
def key (number : Nat) : Building Key := do
  match ← datum number with
  | .shared _ => refuse .badKey
  | .float .nan =>
    let text ← scalarText number
    return ⟨.float .nan, if Value.isNanText text then none else some number⟩
  | datum => return ⟨datum, none⟩

/-- The only entry of a mapping, as a pair. -/
def pair (number : Nat) : Building Datum := do
  match (← node number).content with
  | .mapping [(key, value)] =>
    let key ← datum key
    let value ← datum value
    return .shared (← share (.pair key value))
  | _ => refuse .wrongShape

def table (merges number : Nat) : Building (List (Datum × Datum)) := do
  merge (merges + 1) number 0 []
  let put (table : List (Key × Datum)) (entry : Nat × Nat) : Building (List (Key × Datum)) := do
    let key ← key entry.1
    let value ← datum entry.2
    return key.put value table
  let table ← (← entries number).foldlM put []
  return table.map fun (key, value) => (key.datum, value)

def complete (merges number shared : Nat) : Building Unit := do
  let node ← node number
  let datum ←
    match node.tag, node.content with
    | .seq, .sequence items => .list <$> items.mapM datum
    | .omap, .sequence items | .pairs, .sequence items => .list <$> items.mapM pair
    | .map, .mapping _ => .table <$> table merges number
    | .set, .mapping _ => (fun entries => .setOf (entries.map Prod.fst)) <$> table merges number
    | _, _ => refuse .wrongShape
  modify fun b => { b with shared := b.shared.setIfInBounds shared datum }

/-- Looks at the parts of the collections from number `index` on, and of those that come up. Every
node is one collection at most, so that the nodes bound the fuel. -/
def completeFrom (merges : Nat) : Nat → Nat → Building Unit
  | 0, _ => return
  | fuel + 1, index => do
    match (← get).collections[index]? with
    | none => return
    | some (number, shared) =>
      complete merges number shared
      completeFrom merges fuel (index + 1)

end Builder

def Graph.document (g : Graph) : Except Fault Document := do
  let build : Builder.Building Datum := do
    let root ← Builder.datum g.root
    Builder.completeFrom (Builder.mergeCount g.nodes) (g.nodes.size + 1) 0
    return root
  let (root, b) ← build.run ⟨g.nodes, Array.replicate g.nodes.size none, #[], #[]⟩
  return ⟨root, b.shared⟩

/-- The data of a YAML text; a text without a document gives nothing. -/
def read (text : List Char) : Except Fault Document := do
  match ← Graph.ofTokens? (.ofText text) with
  | none => return ⟨.null, #[]⟩
  | some graph => graph.document

end Recenter.Yaml
