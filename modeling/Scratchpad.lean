import Scratchpad.Code.Listing
import Scratchpad.Main
import Scratchpad.Proofs.Code.Depth
import Scratchpad.Proofs.Code.Locals
import Scratchpad.Proofs.Code.Parameters
import Scratchpad.Proofs.Meaning.Display
import Scratchpad.Proofs.Machine.Limit
import Scratchpad.Proofs.Machine.Receiver
import Scratchpad.Proofs.Runner.Residue
import Scratchpad.Proofs.Runner.Chunks
import Scratchpad.Proofs.Token.Balance
import Scratchpad.Proofs.Token.Tiles
import Scratchpad.Proofs.Code.Alike
import Scratchpad.Proofs.Quiet
import Scratchpad.Proofs.Store.Keys
import Scratchpad.Proofs.Store.Sorting
import Scratchpad.Proofs.Token.Comment
import Scratchpad.Proofs.Range
import Scratchpad.Proofs.Subscript
import Scratchpad.Proofs.Text.Canonical
import Scratchpad.Proofs.Text.Splitting
import Scratchpad.Proofs.Token.Quoted
import Scratchpad.Proofs.Tree.Blocks
import Scratchpad.Proofs.Token.Numerals
import Scratchpad.Proofs.Token.Rendered
import Scratchpad.Proofs.Tree.Spans
import Scratchpad.Proofs.Report
