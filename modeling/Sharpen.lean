import Sharpen.Json.Write
import Sharpen.Main
import Sharpen.Proofs.Building
import Sharpen.Proofs.CommentLines
import Sharpen.Proofs.Counting.Conversion
import Sharpen.Proofs.DanglingElse.Conversion
import Sharpen.Proofs.DeclaredVariables.Inferred
import Sharpen.Proofs.Depth.Guard
import Sharpen.Proofs.DottedNames
import Sharpen.Proofs.Escapes
import Sharpen.Proofs.Exchange.Table
import Sharpen.Proofs.Files.Account
import Sharpen.Proofs.Files.Below
import Sharpen.Proofs.History
import Sharpen.Proofs.Holes
import Sharpen.Proofs.Hygiene.Scopes
import Sharpen.Proofs.Leaving
import Sharpen.Proofs.Lexical
import Sharpen.Proofs.Numerals
import Sharpen.Proofs.Printing.Width
import Sharpen.Proofs.ReadBack.Chains
import Sharpen.Proofs.ReadBack.RoundTrip
import Sharpen.Proofs.Renumbering.Unit
import Sharpen.Proofs.TypeArguments
import Sharpen.Proofs.TypeBlocks.Members
import Sharpen.Target.Decode
