import Lineage.Yaml.Token.Layout

/-!
# Documents as trees

A document is a tree of nodes: scalars, sequences, mappings, and aliases of
nodes that carry an anchor.  An anchor gets the number of different names that
were known when it was met.  When a name is used again it keeps none of its old
meaning, and of two anchors with one number the later one counts, also for an
alias that stands before it.

A text holds documents one after another.  Reading stops at the first that is
malformed.
-/

namespace Lineage

namespace Yaml

/-- A node of a document.  Only a document without any content is empty. -/
inductive Node where
  | empty
  | scalar (tag : Option String) (style : ScalarStyle) (text : String)
  | sequence (tag : Option String) (items : List Node)
  | mapping (tag : Option String) (entries : List (Node × Node))
  | alias (anchor : Nat)
  deriving Inhabited

/-- A node that carries an anchor, with the moment at which it began. -/
structure Anchored where
  anchor : Nat
  moment : Nat
  node : Node

/-- A document: its tree, the nodes with anchors, and the number of marks that
its nodes have when each collection has one at its beginning and one at its end. -/
structure Document where
  root : Node
  anchored : List Anchored
  size : Nat

namespace Document

/-- The node that an alias stands for. -/
def target? (document : Document) (anchor : Nat) : Option Node :=
  let latest := (document.anchored.filter fun other => other.anchor = anchor).foldl
    (fun best? other =>
      match best? with
      | some (best : Anchored) => if best.moment < other.moment then some other else some best
      | none => some other) none
  latest.map Anchored.node

end Document

/-- What is known while a document is read. -/
structure Draft where
  tokens : List Token
  handles : List (String × String)
  names : List (String × Nat)
  anchored : List Anchored
  size : Nat

/-- Reading a part of a document, which fails where the document is malformed. -/
abbrev Reading := StateT Draft Option

namespace Reading

def peek : Reading Token :=
  return (← get).tokens.headD .malformed

def drop : Reading Unit :=
  modify fun draft => { draft with tokens := draft.tokens.drop 1 }

/-- Counts marks of nodes. -/
def count (marks : Nat) : Reading Unit :=
  modify fun draft => { draft with size := draft.size + marks }

/-- A scalar that is left out. -/
def omitted : Reading Node := do
  count 1
  return .scalar none .plain ""

/-- Gives a name to an anchor. -/
def nameAnchor (name : String) : Reading Nat := do
  let draft ← get
  let anchor := draft.names.length
  let others := draft.names.filter fun known => known.1 ≠ name
  set { draft with names := (name, anchor) :: others }
  return anchor

def findAnchor (name : String) : Reading Nat := do
  match (← get).names.find? fun known => known.1 = name with
  | some (_, anchor) => return anchor
  | none => failure

def expandTag (handle suffix : String) : Reading String := do
  if handle.isEmpty then return suffix
  else
    match (← get).handles.find? fun known => known.1 = handle with
    | some (_, expansion) => return expansion ++ suffix
    | none => failure

/-- Reads the anchor and the tag before a node, in either order. -/
def properties : Reading (Option String × Option String) := do
  let readTag : Reading (Option String) := do
    match ← peek with
    | .tag handle suffix =>
      drop
      return some (← expandTag handle suffix)
    | _ => return none
  match ← peek with
  | .anchor name =>
    drop
    let tag? ← readTag
    return (some name, tag?)
  | .tag handle suffix =>
    drop
    let anchor? ← do
      match ← peek with
      | .anchor name =>
        drop
        pure (some name)
      | _ => pure none
    return (anchor?, some (← expandTag handle suffix))
  | _ => return (none, none)

mutual

/-- Reads a node.  Blocks are read where they may stand, and so are the items of
a sequence that is not indented beyond the mapping around it. -/
def node (isBlock allowsItems : Bool) : Nat → Reading Node
  | 0 => failure
  | fuel + 1 => do
    match ← peek with
    | .alias name =>
      drop
      count 1
      return .alias (← findAnchor name)
    | _ =>
      let (name?, tag?) ← properties
      let anchor? ← name?.mapM nameAnchor
      let moment := (← get).size
      let hasProperty := name?.isSome || tag?.isSome
      let tree ← do
        match ← peek with
        | .scalar style text =>
          drop
          count 1
          pure (.scalar (if tag? = some "!" then none else tag?) style text)
        | .blockEntry =>
          if allowsItems then do
            count 1
            let items ← bareItems fuel
            count 1
            pure (.sequence tag? items)
          else if hasProperty then do
            count 1
            pure (.scalar tag? .plain "")
          else failure
        | .flowSequenceStart => do
          drop
          count 1
          let items ← flowItems true fuel
          count 1
          pure (.sequence tag? items)
        | .flowMappingStart => do
          drop
          count 1
          let entries ← flowEntries true fuel
          count 1
          pure (.mapping tag? entries)
        | .blockSequenceStart =>
          if isBlock then do
            drop
            count 1
            let items ← blockItems fuel
            count 1
            pure (.sequence tag? items)
          else if hasProperty then do
            count 1
            pure (.scalar tag? .plain "")
          else failure
        | .blockMappingStart =>
          if isBlock then do
            drop
            count 1
            let entries ← blockEntries fuel
            count 1
            pure (.mapping tag? entries)
          else if hasProperty then do
            count 1
            pure (.scalar tag? .plain "")
          else failure
        | _ =>
          if hasProperty then do
            count 1
            pure (.scalar tag? .plain "")
          else failure
      match anchor? with
      | some anchor =>
        modify fun draft => { draft with anchored := ⟨anchor, moment, tree⟩ :: draft.anchored }
      | none => pure ()
      return tree

def blockItems : Nat → Reading (List Node)
  | 0 => failure
  | fuel + 1 => do
    match ← peek with
    | .blockEntry =>
      drop
      let item ← do
        match ← peek with
        | .blockEntry | .blockEnd => omitted
        | _ => node true false fuel
      return item :: (← blockItems fuel)
    | .blockEnd =>
      drop
      return []
    | _ => failure

/-- Reads the items of a sequence that is not indented, as long as there are any. -/
def bareItems : Nat → Reading (List Node)
  | 0 => failure
  | fuel + 1 => do
    match ← peek with
    | .blockEntry =>
      drop
      let item ← do
        match ← peek with
        | .blockEntry | .key | .value | .blockEnd => omitted
        | _ => node true false fuel
      return item :: (← bareItems fuel)
    | _ => return []

/-- Reads a key or a value of a block mapping, which may be left out. -/
def blockPart : Nat → Reading Node
  | 0 => failure
  | fuel + 1 => do
    match ← peek with
    | .key | .value | .blockEnd => omitted
    | _ => node true true fuel

def blockEntries : Nat → Reading (List (Node × Node))
  | 0 => failure
  | fuel + 1 => do
    match ← peek with
    | .key =>
      drop
      let key ← blockPart fuel
      let value ← do
        match ← peek with
        | .value =>
          drop
          blockPart fuel
        | _ => omitted
      return (key, value) :: (← blockEntries fuel)
    | .blockEnd =>
      drop
      return []
    | _ => failure

/-- Reads the value of the single entry that a sequence in brackets may have in
the place of an item. -/
def pairValue : Nat → Reading Node
  | 0 => failure
  | fuel + 1 => do
    match ← peek with
    | .value =>
      drop
      match ← peek with
      | .flowEntry | .flowSequenceEnd => omitted
      | _ => node false false fuel
    | _ => omitted

def flowItems (isFirst : Bool) : Nat → Reading (List Node)
  | 0 => failure
  | fuel + 1 => do
    match ← peek with
    | .flowSequenceEnd =>
      drop
      return []
    | token =>
      if !isFirst then
        if token = .flowEntry then drop else failure
      match ← peek with
      | .key =>
        drop
        count 1
        let key ← do
          match ← peek with
          | .value | .flowEntry | .flowSequenceEnd => do
            drop
            omitted
          | _ => node false false fuel
        let value ← pairValue fuel
        count 1
        return .mapping none [(key, value)] :: (← flowItems false fuel)
      | .flowSequenceEnd =>
        drop
        return []
      | _ =>
        let item ← node false false fuel
        return item :: (← flowItems false fuel)

def flowEntries (isFirst : Bool) : Nat → Reading (List (Node × Node))
  | 0 => failure
  | fuel + 1 => do
    match ← peek with
    | .flowMappingEnd =>
      drop
      return []
    | token =>
      if !isFirst then
        if token = .flowEntry then drop else failure
      match ← peek with
      | .key =>
        drop
        let key ← do
          match ← peek with
          | .value | .flowEntry | .flowMappingEnd => omitted
          | _ => node false false fuel
        let value ← do
          match ← peek with
          | .value =>
            drop
            match ← peek with
            | .flowEntry | .flowMappingEnd => omitted
            | _ => node false false fuel
          | _ => omitted
        return (key, value) :: (← flowEntries false fuel)
      | .flowMappingEnd =>
        drop
        return []
      | _ =>
        let key ← node false false fuel
        let value ← omitted
        return (key, value) :: (← flowEntries false fuel)

end

def directives (hasVersion : Bool) : Nat → Reading Unit
  | 0 => failure
  | fuel + 1 => do
    match ← peek with
    | .versionDirective major minor =>
      if hasVersion || major ≠ 1 || !(minor = 1 || minor = 2) then failure
      else
        drop
        directives true fuel
    | .tagDirective handle expansion =>
      if (← get).handles.any fun known => known.1 = handle then failure
      else
        modify fun draft => { draft with handles := draft.handles ++ [(handle, expansion)] }
        drop
        directives hasVersion fuel
    | _ => return ()

/-- Adds the two handles that are always known, unless they were redefined. -/
def usualHandles (handles : List (String × String)) : List (String × String) :=
  let missing := [("!", "!"), ("!!", "tag:yaml.org,2002:")].filter fun usual =>
    !(handles.any fun known => known.1 = usual.1)
  handles ++ missing

/-- Reads a document that begins without a mark. -/
def bareDocument (fuel : Nat) : Reading Node := do
  modify fun draft => { draft with handles := usualHandles draft.handles }
  node true false fuel

/-- Reads a document that begins with directives or a mark.  After the mark
there need not be anything. -/
def markedDocument (fuel : Nat) : Reading Node := do
  directives false fuel
  if (← peek) ≠ .documentStart then failure
  drop
  modify fun draft => { draft with handles := usualHandles draft.handles }
  match ← peek with
  | .versionDirective .. | .tagDirective .. | .documentStart | .documentEnd | .streamEnd => omitted
  | _ => node true false fuel

/-- Reads the next document; nothing where the text ends.  Only the first may
stand without a mark at its beginning. -/
def document (fuel : Nat) (isFirst : Bool) : Reading (Option Node) := do
  match ← peek with
  | .streamEnd => return none
  | .versionDirective .. | .tagDirective .. | .documentStart => return some (← markedDocument fuel)
  | _ => if isFirst then return some (← bareDocument fuel) else failure

end Reading

/-- Drops the marks of document ends at the front of a list of tokens. -/
def dropEnds : List Token → List Token
  | .documentEnd :: rest => dropEnds rest
  | tokens => tokens

/-- The documents of a text given by its tokens, up to the first malformed one,
for which nothing stands in the list. -/
def readDocuments (isFirst : Bool) : Nat → List Token → List (Option Document)
  | 0, _ => [none]
  | fuel + 1, tokens =>
    let draft : Draft :=
      { tokens := if isFirst then tokens else dropEnds tokens
        handles := [], names := [], anchored := [], size := 0 }
    match (Reading.document (4 * tokens.length + 8) isFirst).run draft with
    | none => [none]
    | some (none, _) => []
    | some (some root, draft) =>
      match draft.tokens.head? with
      | some .malformed | none => [none]
      | _ => some ⟨root, draft.anchored, draft.size⟩ :: readDocuments false fuel draft.tokens

/-- The documents of a text, up to the first malformed one. -/
def documents (text : String) : List (Option Document) :=
  let tokens := tokens text
  readDocuments true (tokens.length + 1) tokens

end Yaml

end Lineage
