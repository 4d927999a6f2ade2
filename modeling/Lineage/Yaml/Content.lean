import Lineage.Yaml.Node
import Lineage.Yaml.Scalar

/-!
# The value of a document

The value of a document is that of its tree, where plain scalars mean what they
are spelled like and tags of the reader's own are kept.  A mapping may not have
a key twice.  The tree may not be nested deeper than 128 levels, and the number
of aliases that are followed is limited by the size of the document, so that a
small document cannot stand for an enormous value.
-/

namespace Lineage

namespace Yaml

/-- Taking the value of a node, while counting down the aliases that may still
be followed. -/
abbrev Conversion := StateT Nat Option

namespace Document

/-- The node itself, or the one that an alias stands for. -/
def resolve (document : Document) : Node → Conversion Node
  | .alias anchor => do
    let left ← get
    if left = 0 then failure
    set (left - 1)
    match document.target? anchor with
    | some node => return node
    | none => failure
  | node => return node

/-- The name of a tag that belongs to the reader. -/
def ownTag? (tag : Option String) : Option String :=
  tag.bind fun tag =>
    match tag.toList with
    | '!' :: name => some (String.ofList name)
    | _ => none

/-- A value under a tag, if the tag belongs to the reader. -/
def withTag (tag : Option String) (value : Value) : Conversion Value :=
  match ownTag? tag with
  | some name => if name.isEmpty then failure else return .tagged name value
  | none => return value

/-- The value of a scalar under one of the common tags. -/
def taggedScalar (tag text : String) : Conversion Value :=
  match tag with
  | "tag:yaml.org,2002:bool" =>
    match Scalar.bool? text with
    | some value => return .bool value
    | none => failure
  | "tag:yaml.org,2002:int" =>
    match Scalar.integer? text with
    | some (some value) => return .integer value
    | _ => failure
  | "tag:yaml.org,2002:float" =>
    match Scalar.float? text with
    | some value => return .float value
    | none => failure
  | "tag:yaml.org,2002:null" => if Scalar.isNull text then return .null else failure
  | _ => return .string text

/-- The value of a scalar that has no common tag. -/
def untaggedScalar (style : ScalarStyle) (text : String) : Conversion Value :=
  match style with
  | .plain =>
    match Scalar.plain text with
    | some value => return value
    | none => failure
  | _ => return .string text

def scalar (tag : Option String) (style : ScalarStyle) (text : String) : Conversion Value := do
  match ownTag? tag, tag with
  | some _, _ => withTag tag (← untaggedScalar style text)
  | none, some tag => taggedScalar tag text
  | none, none => untaggedScalar style text

/-- Puts entries together whose keys must differ, taking each value only after
its key has been compared. -/
def distinctEntries (convert : Node → Conversion Value) :
    List (Value × Value) → List (Node × Node) → Conversion (List (Value × Value))
  | entries, [] => return entries
  | entries, (key, value) :: rest => do
    let key ← convert key
    if (Value.lookup key entries).isSome then failure
    else
      let value ← convert value
      distinctEntries convert (entries ++ [(key, value)]) rest

/-- The value of a node that may be nested to some depth. -/
def convert (document : Document) : Nat → Node → Conversion Value
  | 0, node => do
    match ← document.resolve node with
    | .empty => return .null
    | .scalar tag style text => scalar tag style text
    | _ => failure
  | depth + 1, node => do
    match ← document.resolve node with
    | .empty => return .null
    | .scalar tag style text => scalar tag style text
    | .sequence tag items => withTag tag (.sequence (← items.mapM (document.convert depth)))
    | .mapping tag entries =>
      withTag tag (.mapping (← distinctEntries (document.convert depth) [] entries))
    | .alias _ => failure

def depthLimit : Nat := 128

def value? (document : Document) : Option Value :=
  ((document.convert depthLimit document.root).run (100 * document.size)).map Prod.fst

end Document

/-- The document of a text that holds at most one; nothing if it holds more or
if it is malformed. -/
def soleDocument (text : String) : Option Document :=
  match documents text with
  | [] => some ⟨.empty, [], 1⟩
  | [some document] => some document
  | _ => none

/-- The value of a text that holds at most one document. -/
def parse (text : String) : Option Value :=
  (soleDocument text).bind Document.value?

end Yaml

end Lineage
