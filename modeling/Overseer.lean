import Overseer.Log.Reading
import Overseer.Main
import Overseer.Monitor.DepthFirst
import Overseer.Proofs.FileTree.Lookup
import Overseer.Proofs.FileTree.Sound
import Overseer.Proofs.FileTree.Walk
import Overseer.Proofs.Log.SlotPath
import Overseer.Proofs.Log.Slots
import Overseer.Proofs.Log.SlotMoves
import Overseer.Proofs.Log.Opening
import Overseer.Proofs.Log.Shift
import Overseer.Proofs.Log.Writing
import Overseer.Proofs.Log.Contents
import Overseer.Proofs.Log.Suffix
import Overseer.Proofs.FileTree.Making
import Overseer.Proofs.Log.Lines
import Overseer.Proofs.Log.Streams
import Overseer.Proofs.Log.Lead
import Overseer.Proofs.Log.Decoding
import Overseer.Proofs.Monitor.Layout
import Overseer.Proofs.Monitor.Reachable
import Overseer.Proofs.Log.Chunks
import Overseer.Proofs.Monitor.Agreement
import Overseer.Proofs.Monitor.Sampling
import Overseer.Proofs.Monitor.History
import Overseer.Proofs.Monitor.Retention
import Overseer.Proofs.Monitor.Vanishing
import Overseer.Proofs.Log.Failing
import Overseer.Proofs.Log.Twins
import Overseer.Proofs.Log.Beside
import Overseer.Proofs.Log.Instances
import Overseer.Proofs.FileTree.Linkless
import Overseer.Proofs.Log.Releases
import Overseer.Proofs.Log.Restart
import Overseer.Proofs.Supervision.Transition
import Overseer.Proofs.Supervision.Capture
import Overseer.Proofs.Source.Status
import Overseer.Proofs.FileTree.Listing
import Overseer.Proofs.Monitor.Mirror
import Overseer.Proofs.Source.Fixture
import Overseer.Proofs.Source.StandIn
import Overseer.Proofs.Log.Rotation
import Overseer.Proofs.Log.Limits
import Overseer.Proofs.FileTree.Absence
import Overseer.Proofs.Log.Fresh
import Overseer.Proofs.Log.Sizes
import Overseer.Proofs.Monitor.Invalid
import Overseer.Proofs.Source.Validity
import Overseer.Proofs.Text.Offsets
import Overseer.Proofs.Source.StatLine
import Overseer.Proofs.Process.Order
import Overseer.Proofs.Source.Exactness
import Overseer.Proofs.FileTree.Shuffled
import Overseer.Proofs.Monitor.Unordered
import Overseer.Proofs.Source.ListingOrder
import Overseer.Proofs.Process.Traversal
import Overseer.Proofs.Display.Drawing
import Overseer.Proofs.Display.Lines
import Overseer.Proofs.Display.Columns
import Overseer.Proofs.Display.Truncation
import Overseer.Proofs.Path.Names
import Overseer.Proofs.Log.InstanceFiles
