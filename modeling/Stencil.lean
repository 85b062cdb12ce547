import Stencil.Document.Reader
import Stencil.Host.Direct
import Stencil.Page
import Stencil.Proofs.Cache.Snapshots
import Stencil.Proofs.Document.Append
import Stencil.Proofs.Document.Binding
import Stencil.Proofs.Document.Depth
import Stencil.Proofs.Document.Faults
import Stencil.Proofs.Document.Grammar
import Stencil.Proofs.Document.Markup
import Stencil.Proofs.Document.Sound
import Stencil.Proofs.Expr.RoundTrip
import Stencil.Proofs.Segment.Exact
import Stencil.Proofs.Segment.Strings
import Stencil.Proofs.Value.Depth
import Stencil.Segment
import Stencil.Value.Numeric
import Stencil.Proofs.Cache.Coherence
import Stencil.Proofs.Value.Paired
import Stencil.Proofs.Record.Paired
import Stencil.Proofs.Document.Paired
import Stencil.Proofs.Record.Revealed
import Stencil.Proofs.Record.HiddenRelations
import Stencil.Proofs.Record.HiddenFields
import Stencil.Proofs.Cipher.NumberToken
import Stencil.Proofs.Value.Exact
import Stencil.Proofs.Cache.Exclusive
import Stencil.Proofs.Value.Overriding
import Stencil.Proofs.Expr.Labels
import Stencil.Proofs.Document.Locations
import Stencil.Proofs.Document.Anchored
import Stencil.Proofs.Expr.Integers
import Stencil.Proofs.Value.Equal
import Stencil.Proofs.Document.Literal
import Stencil.Proofs.Document.Room
import Stencil.Proofs.Document.Unlimited
import Stencil.Proofs.Token.Reworded
import Stencil.Proofs.Document.NestedIf
import Stencil.Proofs.Value.Ordered
import Stencil.Proofs.Expr.Rounded
import Stencil.Proofs.Value.Views
import Stencil.Proofs.Cache.Counters
import Stencil.Proofs.Cipher.Key
import Stencil.Proofs.Token.Tiling
import Stencil.Proofs.File.Load
import Stencil.Proofs.Document.TagCount
import Stencil.Proofs.Expr.Difference
import Stencil.Proofs.File.Resolve
