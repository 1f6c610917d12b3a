import Recenter.Yaml.Tag
import Recenter.Yaml.Token

/-! The nodes of a YAML document. The grammar reads them from the tokens into one table, in which a
node stands for its parts by their numbers. An anchor names a node from its beginning on, so that
an alias can stand for a node that it is itself a part of. -/

namespace Recenter.Yaml

/-- What a node holds. Nodes are meant by their numbers. -/
inductive Content
  | scalar (text : String)
  | sequence (items : List Nat)
  | mapping (entries : List (Nat × Nat))
deriving Repr

structure Node where
  tag : Tag
  content : Content
deriving Repr

/-- A document: its nodes by their numbers, and the number of the outermost one. -/
structure Graph where
  nodes : Array Node
  root : Nat

namespace Graph

/-- The tokens that are left and the fault behind them, the handles of the document, its nodes so
far, and what its anchors name. -/
structure Reader where
  tokens : List Token
  fault : Option Fault
  handles : List (String × String) := []
  nodes : Array Node := #[]
  anchors : List (String × Nat) := []

abbrev Reading := StateT Reader (Except Fault)

def refuse {α : Type} (fault : Fault) : Reading α :=
  fun _ => .error fault

def peek? : Reading (Option Token) := do
  let r ← get
  match r.tokens, r.fault with
  | t :: _, _ => return some t
  | [], some fault => refuse fault
  | [], none => return none

def next : Reading Unit :=
  modify fun r => { r with tokens := r.tokens.tail }

def nextIn (tokens : List Token) : Reading Bool := do
  match ← peek? with
  | some t => return tokens.contains t
  | none => return false

def add (node : Node) : Reading Nat := do
  let number := (← get).nodes.size
  modify fun r => { r with nodes := r.nodes.push node }
  return number

/-- A node of which nothing is written. -/
def addMissing : Reading Nat := add ⟨.null, .scalar ""⟩

def complete (number : Nat) (node : Node) : Reading Unit :=
  modify fun r => { r with nodes := r.nodes.setIfInBounds number node }

structure Properties where
  anchor : Option String := none
  tag : Option String := none

/-- The meaning of a tag: a handle stands for what it was declared to be. -/
def resolveTag (handle : Option String) (suffix : String) : Reading String := do
  match handle with
  | none => return suffix
  | some handle =>
    match (← get).handles.lookup handle with
    | some start => return start ++ suffix
    | none => refuse .badTag

def properties : Reading Properties := do
  let anchor? : Reading (Option String) := do
    match ← peek? with
    | some (.anchor name) =>
      next
      return some name
    | _ => return none
  let tag? : Reading (Option (Option String × String)) := do
    match ← peek? with
    | some (.tag handle suffix) =>
      next
      return some (handle, suffix)
    | _ => return none
  let anchor ← anchor?
  let tag ← tag?
  let anchor ← if anchor.isNone && tag.isSome then anchor? else pure anchor
  match tag with
  | some (handle, suffix) => return ⟨anchor, some (← resolveTag handle suffix)⟩
  | none => return ⟨anchor, none⟩

/-- An anchor names one node of a document. -/
def checkAnchor (anchor : Option String) : Reading Unit := do
  match anchor with
  | none => return
  | some name => if ((← get).anchors.lookup name).isSome then refuse .repeatedAnchor else return

def addNamed (anchor : Option String) (node : Node) : Reading Nat := do
  let number ← add node
  match anchor with
  | none => return number
  | some name =>
    modify fun r => { r with anchors := (name, number) :: r.anchors }
    return number

/-- The tag of a collection or a scalar with the tag written in front of it, if it is a tag at
all. -/
def explicitTag? (p : Properties) : Option Tag :=
  match p.tag with
  | none | some "!" => none
  | some uri => some (.ofUri uri)

/-- The tag of a scalar. An untagged plain scalar is tagged by its text. So is a quoted one behind
a lone exclamation mark; other quoted scalars are texts. -/
def scalarTag (p : Properties) (text : String) (plain : Bool) : Tag :=
  match explicitTag? p with
  | some tag => tag
  | none => if plain || p.tag.isSome then .implicit text.toList else .str

/-- Where a node stands: in a flow collection, in a block, or as a part of a block mapping, where
a sequence needs no indentation of its own. -/
inductive Place
  | flow
  | block
  | mappingPart
deriving DecidableEq, Repr

mutual

def read : Nat → Place → Reading Nat
  | 0, _ => refuse .unexpectedToken
  | fuel + 1, place => do
    match ← peek? with
    | some (.alias name) =>
      next
      match (← get).anchors.lookup name with
      | some number => return number
      | none => refuse .undefinedAlias
    | _ =>
      let p ← properties
      let sequence (items : Reading (List Nat)) : Reading Nat := do
        checkAnchor p.anchor
        let tag := (explicitTag? p).getD .seq
        let number ← addNamed p.anchor ⟨tag, .sequence []⟩
        complete number ⟨tag, .sequence (← items)⟩
        return number
      let mapping (entries : Reading (List (Nat × Nat))) : Reading Nat := do
        checkAnchor p.anchor
        let tag := (explicitTag? p).getD .map
        let number ← addNamed p.anchor ⟨tag, .mapping []⟩
        complete number ⟨tag, .mapping (← entries)⟩
        return number
      match ← peek?, place with
      | some .blockEntry, .mappingPart => sequence (readIndentless fuel)
      | some (.scalar text plain), _ =>
        next
        checkAnchor p.anchor
        addNamed p.anchor ⟨scalarTag p text plain, .scalar text⟩
      | some .flowSequenceStart, _ => sequence (next *> readFlowItems fuel true)
      | some .flowMappingStart, _ => mapping (next *> readFlowEntries fuel true)
      | some .blockSequenceStart, .block | some .blockSequenceStart, .mappingPart =>
        sequence (next *> readBlockItems fuel)
      | some .blockMappingStart, .block | some .blockMappingStart, .mappingPart =>
        mapping (next *> readBlockEntries fuel)
      | _, _ =>
        if p.anchor.isSome || p.tag.isSome then
          checkAnchor p.anchor
          addNamed p.anchor ⟨(explicitTag? p).getD .null, .scalar ""⟩
        else refuse .unexpectedToken

def readUnless : Nat → Place → List Token → Reading Nat
  | 0, _, _ => refuse .unexpectedToken
  | fuel + 1, place, ends => do
    if ← nextIn ends then addMissing else read fuel place

def readBlockItems : Nat → Reading (List Nat)
  | 0 => refuse .unexpectedToken
  | fuel + 1 => do
    match ← peek? with
    | some .blockEntry =>
      next
      let item ← readUnless fuel .block [.blockEntry, .blockEnd]
      return item :: (← readBlockItems fuel)
    | some .blockEnd =>
      next
      return []
    | _ => refuse .unexpectedToken

def readIndentless : Nat → Reading (List Nat)
  | 0 => refuse .unexpectedToken
  | fuel + 1 => do
    match ← peek? with
    | some .blockEntry =>
      next
      let item ← readUnless fuel .block [.blockEntry, .key, .value, .blockEnd]
      return item :: (← readIndentless fuel)
    | _ => return []

def readBlockEntries : Nat → Reading (List (Nat × Nat))
  | 0 => refuse .unexpectedToken
  | fuel + 1 => do
    match ← peek? with
    | some .key =>
      next
      let key ← readUnless fuel .mappingPart [.key, .value, .blockEnd]
      let value ← readValue fuel .mappingPart [.key, .value, .blockEnd]
      return (key, value) :: (← readBlockEntries fuel)
    | some .blockEnd =>
      next
      return []
    | _ => refuse .unexpectedToken

def readValue : Nat → Place → List Token → Reading Nat
  | 0, _, _ => refuse .unexpectedToken
  | fuel + 1, place, ends => do
    match ← peek? with
    | some .value =>
      next
      readUnless fuel place ends
    | _ => addMissing

/-- The items of a flow sequence. A key makes a mapping of one entry. -/
def readFlowItems : Nat → Bool → Reading (List Nat)
  | 0, _ => refuse .unexpectedToken
  | fuel + 1, first => do
    match ← peek?, first with
    | some .flowSequenceEnd, _ =>
      next
      return []
    | some .flowEntry, false =>
      next
      if ← nextIn [.flowSequenceEnd] then
        next
        return []
      else readFlowItem fuel
    | _, true => readFlowItem fuel
    | _, false => refuse .unexpectedToken

def readFlowItem : Nat → Reading (List Nat)
  | 0 => refuse .unexpectedToken
  | fuel + 1 => do
    match ← peek? with
    | some .key =>
      next
      let key ← readUnless fuel .flow [.value, .flowEntry, .flowSequenceEnd]
      let value ← readValue fuel .flow [.flowEntry, .flowSequenceEnd]
      let item ← add ⟨.map, .mapping [(key, value)]⟩
      return item :: (← readFlowItems fuel false)
    | _ =>
      let item ← read fuel .flow
      return item :: (← readFlowItems fuel false)

/-- The entries of a flow mapping. A node without a key token has no value. -/
def readFlowEntries : Nat → Bool → Reading (List (Nat × Nat))
  | 0, _ => refuse .unexpectedToken
  | fuel + 1, first => do
    match ← peek?, first with
    | some .flowMappingEnd, _ =>
      next
      return []
    | some .flowEntry, false =>
      next
      if ← nextIn [.flowMappingEnd] then
        next
        return []
      else readFlowEntry fuel
    | _, true => readFlowEntry fuel
    | _, false => refuse .unexpectedToken

def readFlowEntry : Nat → Reading (List (Nat × Nat))
  | 0 => refuse .unexpectedToken
  | fuel + 1 => do
    match ← peek? with
    | some .key =>
      next
      let key ← readUnless fuel .flow [.value, .flowEntry, .flowMappingEnd]
      let value ← readValue fuel .flow [.flowEntry, .flowMappingEnd]
      return (key, value) :: (← readFlowEntries fuel false)
    | _ =>
      let key ← read fuel .flow
      let value ← addMissing
      return (key, value) :: (← readFlowEntries fuel false)

end

def standardHandles : List (String × String) :=
  [("!", "!"), ("!!", Tag.standard)]

/-- The directives of a document: at most one version, which has to be 1, and one declaration for
each handle. -/
def readDirectives : Nat → Bool → List (String × String) → Reading (List (String × String))
  | 0, _, _ => refuse .unexpectedToken
  | fuel + 1, versioned, handles => do
    match ← peek? with
    | some (.directive (.version major)) =>
      next
      if versioned || major != 1 then refuse .badDirective
      else readDirectives fuel true handles
    | some (.directive (.tag handle start)) =>
      next
      if (handles.lookup handle).isSome then refuse .badDirective
      else readDirectives fuel versioned ((handle, start) :: handles)
    | some (.directive .other) =>
      next
      readDirectives fuel versioned handles
    | _ => return handles

def isDirective : Token → Bool
  | .directive _ => true
  | _ => false

/-- The only document of a text, if it has one. Another one is not read beyond the beginning of its
content. -/
def readDocument (fuel : Nat) : Reading (Option Nat) := do
  match ← peek? with
  | none => return none
  | some first =>
    let root ←
      if isDirective first || first == .documentStart then do
        let handles ← readDirectives fuel false []
        modify fun r => { r with handles := handles ++ standardHandles }
        if ← nextIn [.documentStart] then
          next
          match ← peek? with
          | none => addMissing
          | some t =>
            if isDirective t || t == .documentStart || t == .documentEnd then addMissing
            else read fuel .block
        else refuse .unexpectedToken
      else do
        modify fun r => { r with handles := standardHandles }
        read fuel .block
    modify fun r => { r with tokens := r.tokens.dropWhile (· == .documentEnd) }
    match ← peek? with
    | none => return some root
    | some _ =>
      let _ ← readDirectives fuel false []
      refuse .severalDocuments

/-- The document that tokens stand for, if there is one. Every rule of the grammar that calls
another is followed by a token within two calls, so that the fuel suffices. -/
def ofTokens? (tokens : Tokens) : Except Fault (Option Graph) := do
  let (root, r) ← (readDocument (4 * tokens.list.length + 8)).run
    { tokens := tokens.list, fault := tokens.fault }
  return root.map fun root => ⟨r.nodes, root⟩

end Graph

end Recenter.Yaml
