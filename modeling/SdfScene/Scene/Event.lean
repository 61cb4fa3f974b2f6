import SdfScene.Shape.Basic

/-!
# Structural changes

Every node that enters or leaves the tree is recorded as one event, with the subtree as
it was at that moment. The history is the list of events, oldest first.
-/

namespace SdfScene

/-- The two ways in which the tree changes. -/
inductive Change where
  | added
  | deleted
  deriving DecidableEq

/-- One structural change. -/
structure Event where
  /-- What happened. -/
  change : Change
  /-- The combinator whose children changed. -/
  parent : NodeId
  /-- The subtree that came or went. -/
  child : Shape

end SdfScene
