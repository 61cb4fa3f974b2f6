import SdfScene.Error

/-!
# Stores

A store keeps texts under keys. A write replaces the whole entry, and removing an entry
that is not there is no fault. The store in memory can be told which calls fail.
-/

namespace SdfScene

/-- A store of texts in a monad of effects. -/
structure Store (m : Type → Type) where
  /-- The entry under a key. -/
  get : String → ExceptT IoError m (Option String)
  /-- Replace the entry under a key. -/
  set : String → String → ExceptT IoError m Unit
  /-- Delete the entry under a key, if there is one. -/
  remove : String → ExceptT IoError m Unit

namespace Store

/-- The key of the displayed shape. -/
def rootKey : String := "root"

/-- The key of the camera. -/
def cameraKey : String := "camera"

end Store

/-- The three calls to a store. -/
inductive StoreCall where
  | get
  | set
  | remove
  deriving DecidableEq

/-- Entries in memory. -/
structure Memory where
  /-- The text under each key; of several for one key the first counts. -/
  entries : List (String × String)
  /-- The calls that fail and leave everything as it is. -/
  failing : List (StoreCall × String)
  deriving DecidableEq

namespace Memory

/-- No entries, and no failing calls. -/
def empty : Memory := ⟨[], []⟩

/-- The text under a key. -/
def get? (memory : Memory) (key : String) : Option String := memory.entries.lookup key

/-- The entries without the one under a key. -/
def erase (memory : Memory) (key : String) : Memory :=
  { memory with entries := memory.entries.filter fun entry => entry.1 ≠ key }

/-- The entries with a text under a key. -/
def put (memory : Memory) (key text : String) : Memory :=
  { memory with entries := (key, text) :: (memory.erase key).entries }

/-- Fail if a call does. -/
def check (call : StoreCall) (key : String) : ExceptT IoError (StateM Memory) Unit := do
  if (call, key) ∈ (← get).failing then throw (.other "store is broken")

/-- The store in memory. -/
def store : Store (StateM Memory) where
  get key := do
    check .get key
    return (← MonadState.get).get? key
  set key text := do
    check .set key
    modify fun memory => memory.put key text
  remove key := do
    check .remove key
    modify fun memory => memory.erase key

end Memory

end SdfScene
