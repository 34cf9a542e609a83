import PerspectiveBox.Axis
import PerspectiveBox.Box.Basic
import PerspectiveBox.Box.Corners
import PerspectiveBox.Box.Creation
import PerspectiveBox.Box.Drag
import PerspectiveBox.Box.Edit
import PerspectiveBox.Box.Face
import PerspectiveBox.Box.Side
import PerspectiveBox.Box.Snap
import PerspectiveBox.Document.Element
import PerspectiveBox.Document.Reader
import PerspectiveBox.Document.Writer
import PerspectiveBox.Error
import PerspectiveBox.FaceOrder.Case
import PerspectiveBox.FaceOrder.Classify
import PerspectiveBox.FaceOrder.Sector
import PerspectiveBox.Json.Reader
import PerspectiveBox.Json.Token
import PerspectiveBox.Json.Value
import PerspectiveBox.Json.Writer
import PerspectiveBox.Number.Double
import PerspectiveBox.Number.Exact
import PerspectiveBox.Number.Numeral
import PerspectiveBox.Number.Scalar
import PerspectiveBox.Number.Shortest
import PerspectiveBox.Plane.Affine
import PerspectiveBox.Plane.Line
import PerspectiveBox.Plane.Point
import PerspectiveBox.Projective.Coordinates
import PerspectiveBox.Projective.Equations
import PerspectiveBox.Projective.Line
import PerspectiveBox.Projective.Point
import PerspectiveBox.Projective.Projection
import PerspectiveBox.Projective.Vanishing
import PerspectiveBox.Scene.Attachment
import PerspectiveBox.Scene.Basic
import PerspectiveBox.Scene.Command
import PerspectiveBox.Scene.Display
import PerspectiveBox.Scene.Document
import PerspectiveBox.Scene.Drag
import PerspectiveBox.Scene.Key
import PerspectiveBox.Scene.Link
import PerspectiveBox.Scene.Perspective
import PerspectiveBox.Scene.Selection
import PerspectiveBox.Scene.SlotTable
import PerspectiveBox.Scene.Vanishing
import PerspectiveBox.Settings.Basic
import PerspectiveBox.Settings.Toml
import PerspectiveBox.Text.Blank
import PerspectiveBox.Text.Quoted
import PerspectiveBox.Text.Shown
import PerspectiveBox.Toml.Literal
import PerspectiveBox.Toml.Node
import PerspectiveBox.Toml.Reader
import PerspectiveBox.Toml.Text
import PerspectiveBox.Proofs.Box.CenterDrag
import PerspectiveBox.Proofs.Box.CornerDrag
import PerspectiveBox.Proofs.Box.DepthDrag
import PerspectiveBox.Proofs.Box.Drawn
import PerspectiveBox.Proofs.Box.Extrusion
import PerspectiveBox.Proofs.Box.Horizon
import PerspectiveBox.Proofs.Box.LockedAxes
import PerspectiveBox.Proofs.Box.Made
import PerspectiveBox.Proofs.Box.Relabeled
import PerspectiveBox.Proofs.Box.Restacking
import PerspectiveBox.Proofs.Box.SnapLines
import PerspectiveBox.Proofs.Box.SnapMemory
import PerspectiveBox.Proofs.Box.Stack
import PerspectiveBox.Proofs.Box.UnderPointer
import PerspectiveBox.Proofs.Box.Weights
import PerspectiveBox.Proofs.Document.RoundTrip
import PerspectiveBox.Proofs.Exact
import PerspectiveBox.Proofs.FaceOrder.Central
import PerspectiveBox.Proofs.FaceOrder.Complete
import PerspectiveBox.Proofs.FaceOrder.Convergent
import PerspectiveBox.Proofs.FaceOrder.CornerNaming
import PerspectiveBox.Proofs.FaceOrder.Eversion
import PerspectiveBox.Proofs.FaceOrder.Motion
import PerspectiveBox.Proofs.FaceOrder.Parallel
import PerspectiveBox.Proofs.FaceOrder.Similar
import PerspectiveBox.Proofs.FaceOrder.Zoom
import PerspectiveBox.Proofs.Json.RoundTrip
import PerspectiveBox.Proofs.Json.Token
import PerspectiveBox.Proofs.Number.Double
import PerspectiveBox.Proofs.Number.Length
import PerspectiveBox.Proofs.Number.Literal
import PerspectiveBox.Proofs.Number.Order
import PerspectiveBox.Proofs.Number.Packing
import PerspectiveBox.Proofs.Number.Positional
import PerspectiveBox.Proofs.Number.Reading
import PerspectiveBox.Proofs.Number.RoundTrip
import PerspectiveBox.Proofs.Number.Rounding
import PerspectiveBox.Proofs.Number.Shortest
import PerspectiveBox.Proofs.Plane.Motion
import PerspectiveBox.Proofs.Plane.Quadrangle
import PerspectiveBox.Proofs.Plane.Similar
import PerspectiveBox.Proofs.Plane.Turn
import PerspectiveBox.Proofs.Projective.Affine
import PerspectiveBox.Proofs.Projective.Coordinates
import PerspectiveBox.Proofs.Projective.Equations
import PerspectiveBox.Proofs.Projective.Grammar
import PerspectiveBox.Proofs.Projective.Line
import PerspectiveBox.Proofs.Projective.Preimage
import PerspectiveBox.Proofs.Projective.Toggled
import PerspectiveBox.Proofs.Projective.Vanishing
import PerspectiveBox.Proofs.Scene.Absorbing
import PerspectiveBox.Proofs.Scene.Change
import PerspectiveBox.Proofs.Scene.Contents
import PerspectiveBox.Proofs.Scene.Drawing
import PerspectiveBox.Proofs.Scene.Entering
import PerspectiveBox.Proofs.Scene.Failing
import PerspectiveBox.Proofs.Scene.Finishing
import PerspectiveBox.Proofs.Scene.FreshId
import PerspectiveBox.Proofs.Scene.Gesture
import PerspectiveBox.Proofs.Scene.Linked
import PerspectiveBox.Proofs.Scene.Loading
import PerspectiveBox.Proofs.Scene.Minting
import PerspectiveBox.Proofs.Scene.Moving
import PerspectiveBox.Proofs.Scene.Naming
import PerspectiveBox.Proofs.Scene.NumberSearch
import PerspectiveBox.Proofs.Scene.Overwriting
import PerspectiveBox.Proofs.Scene.Reachable
import PerspectiveBox.Proofs.Scene.Reference
import PerspectiveBox.Proofs.Scene.Run
import PerspectiveBox.Proofs.Scene.Saving
import PerspectiveBox.Proofs.Scene.Selection
import PerspectiveBox.Proofs.Scene.Session
import PerspectiveBox.Proofs.Scene.Stacking
import PerspectiveBox.Proofs.Scene.Toggling
import PerspectiveBox.Proofs.Scene.Validated
import PerspectiveBox.Proofs.Settings.Bounds
import PerspectiveBox.Proofs.Settings.RoundTrip
import PerspectiveBox.Proofs.Text.Blank
import PerspectiveBox.Proofs.Toml.Lines
import PerspectiveBox.Proofs.Toml.Number
