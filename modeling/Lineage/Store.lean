import Lineage.Owner

/-!
# Stores of objects

A store holds the objects of one kind, each known by its name and its namespace
or by its name alone.  A feed of events changes it: single objects are written
or deleted at once, whereas a fresh list of all objects is gathered in a buffer
that nobody sees and replaces the contents when the list is complete.  From then
on the store is ready for good.  A store whose feed is closed ignores all later
events.
-/

namespace Lineage

/-- An object in a store. -/
structure StoredObject where
  ns : Option String
  name : String
  owners : List Owner
  deriving DecidableEq, Repr

/-- What a feed tells a store. -/
inductive StoreEvent where
  | begin
  | gather (object : StoredObject)
  | finish
  | write (object : StoredObject)
  | delete (object : StoredObject)
  | close
  deriving DecidableEq, Repr

/-- The objects of one kind, with the state of their feed. -/
structure Store where
  objects : List StoredObject
  buffer : List StoredObject
  isReady : Bool
  isClosed : Bool
  deriving DecidableEq, Repr

namespace StoredObject

/-- Whether an object is known by a namespace, or by none, and a name. -/
def isAt (object : StoredObject) (ns : Option String) (name : String) : Bool :=
  object.ns = ns && object.name = name

/-- The objects of a list except the one under some namespace and name. -/
def without (objects : List StoredObject) (ns : Option String) (name : String) :
    List StoredObject :=
  objects.filter fun object => !object.isAt ns name

/-- Puts an object into a list in place of the one that is known alike. -/
def put (objects : List StoredObject) (object : StoredObject) : List StoredObject :=
  without objects object.ns object.name ++ [object]

/-- The object of a list under some namespace and name. -/
def find? (objects : List StoredObject) (ns : Option String) (name : String) :
    Option StoredObject :=
  objects.find? fun object => object.isAt ns name

end StoredObject

namespace Store

def empty : Store :=
  { objects := [], buffer := [], isReady := false, isClosed := false }

/-- A store after an event. -/
def step (store : Store) (event : StoreEvent) : Store :=
  if store.isClosed then store
  else
    match event with
    | .begin => { store with buffer := [] }
    | .gather object => { store with buffer := StoredObject.put store.buffer object }
    | .finish => { store with objects := store.buffer, buffer := [], isReady := true }
    | .write object => { store with objects := StoredObject.put store.objects object }
    | .delete object =>
      { store with objects := StoredObject.without store.objects object.ns object.name }
    | .close => { store with isClosed := true }

/-- A store after a history of events. -/
def run (store : Store) (events : List StoreEvent) : Store :=
  events.foldl step store

/-- The object that a store holds for a namespace and a name.  An object without
a namespace answers where that namespace has no object of this name. -/
def get? (store : Store) (ns name : String) : Option StoredObject :=
  match StoredObject.find? store.objects (some ns) name with
  | some object => some object
  | none => StoredObject.find? store.objects none name

def references (store : Store) : List Owner :=
  store.objects.flatMap StoredObject.owners

end Store

end Lineage
