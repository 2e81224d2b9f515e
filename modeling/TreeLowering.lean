import TreeLowering.CommandLine.Compile
import TreeLowering.Ir.Outline
import TreeLowering.Proofs.Builder.Prologue
import TreeLowering.Proofs.Casts.Law
import TreeLowering.Proofs.CommandLine.Arguments
import TreeLowering.Proofs.CommandLine.Compile
import TreeLowering.Proofs.Exits.Law
import TreeLowering.Proofs.Form
import TreeLowering.Proofs.Independence.Law
import TreeLowering.Proofs.Jumps.Law
import TreeLowering.Proofs.Layout.Range
import TreeLowering.Proofs.Listing.Constant
import TreeLowering.Proofs.Listing.Line
import TreeLowering.Proofs.Listing.Outline
import TreeLowering.Proofs.Listing.Ty
import TreeLowering.Proofs.Machine.Copy
import TreeLowering.Proofs.Meaning.Program
import TreeLowering.Proofs.Region.ShortCircuit
import TreeLowering.Proofs.Rewrite.Literal
import TreeLowering.Proofs.Rewrite.Return
import TreeLowering.Proofs.Slots.Home
import TreeLowering.Proofs.Tables.Items
import TreeLowering.Proofs.Tables.Signature
import TreeLowering.Proofs.Tables.Text
import TreeLowering.Proofs.Types.Address
import TreeLowering.Proofs.Types.History
import TreeLowering.Proofs.Types.Sequence
import TreeLowering.Text.Lossy
import TreeLowering.Tree.ChildList
import TreeLowering.Tree.Describe
