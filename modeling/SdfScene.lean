import SdfScene.Main
import SdfScene.Proofs.Command.Adding
import SdfScene.Proofs.Scene.Distinct
import SdfScene.Proofs.Session.Atomicity
import SdfScene.Proofs.Session.Freshness
import SdfScene.Proofs.Session.History
import SdfScene.Storage.Volume
import SdfScene.Proofs.Scene.Replacement
import SdfScene.Proofs.Scene.Frame
import SdfScene.Proofs.Storage.Atomic
import SdfScene.Proofs.Session.Saving
import SdfScene.Proofs.Codec.Restoring
import SdfScene.Proofs.Session.Reinsertion
import SdfScene.Proofs.Session.Queries
import SdfScene.Proofs.Codec.Numbers
import SdfScene.Proofs.Number.Tenths
import SdfScene.Proofs.Node.Runs
import SdfScene.Proofs.Session.IssuedIds
import SdfScene.Proofs.Shape.SlotEdits
import SdfScene.Proofs.Shader.Injection
import SdfScene.Proofs.Expression.Readable
import SdfScene.Proofs.Session.SavedCamera
import SdfScene.Proofs.Codec.Rearranged
