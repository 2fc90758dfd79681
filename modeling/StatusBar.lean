import StatusBar.File.Tree
import StatusBar.Main
import StatusBar.Proofs.Mode.Presets
import StatusBar.Proofs.Surface.Recording
import StatusBar.Session
import StatusBar.Sway.Payload
import StatusBar.Proofs.Instance.Maintained
import StatusBar.Proofs.Session.Run
import StatusBar.Proofs.Session.Watched
import StatusBar.Proofs.Session.Surfaces
import StatusBar.Proofs.Instance.Shared
import StatusBar.Proofs.Session.Visibility
import StatusBar.Proofs.Sway.Following
import StatusBar.Proofs.Document.Members
import StatusBar.Proofs.Document.Yields
import StatusBar.Proofs.Include.Precedence
import StatusBar.Proofs.Placement.Reach
import StatusBar.Proofs.Sway.Reveal
import StatusBar.Proofs.Config.AltClick
import StatusBar.Proofs.Config.Buttons
import StatusBar.Proofs.Placement.Tree
import StatusBar.Proofs.Document.Tokens
import StatusBar.Proofs.Placement.Agreement
import StatusBar.Proofs.Placement.Listed
import StatusBar.Proofs.Placement.Search
import StatusBar.Proofs.Placement.Unfolded
import StatusBar.Proofs.Placement.Directions
import StatusBar.Proofs.Document.Extent
import StatusBar.Proofs.Document.Spelling
import StatusBar.Proofs.Relaxed.Marked
import StatusBar.Proofs.Relaxed.Decoration
import StatusBar.Proofs.Relaxed.Closed
import StatusBar.Proofs.Relaxed.Exact
import StatusBar.Proofs.Instance.Settled
import StatusBar.Proofs.Sway.Foreign
import StatusBar.Proofs.Sway.Redelivery
import StatusBar.Proofs.Session.Standing
import StatusBar.Proofs.Surface.Classes
import StatusBar.Proofs.Session.Classes
import StatusBar.Proofs.Output.Patterns
import StatusBar.Proofs.Session.Outputs
import StatusBar.Proofs.Document.Reordered
import StatusBar.Proofs.Mode.Merged
import StatusBar.Proofs.Mode.Described
import StatusBar.Proofs.Config.Settings
import StatusBar.Proofs.Config.Reordered
import StatusBar.Proofs.Include.Failing
import StatusBar.Proofs.Include.Loading
import StatusBar.Proofs.Include.Trimmed
import StatusBar.Proofs.File.Rewritten
import StatusBar.Proofs.Include.Isolated
import StatusBar.Proofs.Decode.Laws
import StatusBar.Proofs.File.Replaced
import StatusBar.Proofs.Relaxed.Parts
import StatusBar.Proofs.Include.Separate
import StatusBar.Proofs.Document.Grammar
import StatusBar.Proofs.Document.Written
import StatusBar.Proofs.Document.Skipped
import StatusBar.Proofs.Sway.Written
import StatusBar.Proofs.Sway.Recovered
import StatusBar.Proofs.Session.Lives
import StatusBar.Proofs.Session.Sizes
import StatusBar.Proofs.Session.Commuting
import StatusBar.Proofs.Session.Offsets
import StatusBar.Proofs.Geometry.Gaps
import StatusBar.Proofs.Geometry.Transposed
import StatusBar.Proofs.Margins.Bytes
import StatusBar.Proofs.Margins.Resolved
import StatusBar.Proofs.Relaxed.Lines
import StatusBar.Proofs.Relaxed.Unchanged
import StatusBar.Proofs.Include.Chain
import StatusBar.Proofs.Placement.Depth
