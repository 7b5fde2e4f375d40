import Varscript.Main
import Varscript.Node.Comparison
import Varscript.Proofs.Lexis.Layout
import Varscript.Proofs.Source.RoundTrip
import Varscript.Proofs.Syntax.FirstError
import Varscript.Proofs.Syntax.Refusal
import Varscript.Proofs.Syntax.NestingLimit
import Varscript.Proofs.Lexis.Quotes
import Varscript.Proofs.Source.Regeneration
import Varscript.Proofs.Lexis.Action
import Varscript.Proofs.Syntax.Placement
import Varscript.Proofs.Syntax.Conduct
import Varscript.Proofs.Source.Concatenation
import Varscript.Proofs.Report.Verdict
import Varscript.Proofs.Drawing.Distinctness
import Varscript.Proofs.Tree.FirstForeign
import Varscript.Proofs.Document.Rebuilding
import Varscript.Proofs.Syntax.Standstill
import Varscript.Proofs.Dialogue.Transcript
import Varscript.Proofs.Lexis.FirstStray
import Varscript.Proofs.Source.Extension
import Varscript.Proofs.Syntax.Stepwise
import Varscript.Proofs.Text.Decoding
import Varscript.Proofs.CommandLine.FileRun
import Varscript.Proofs.Drawing.Soundness
import Varscript.Proofs.Tree.Outline
import Varscript.Proofs.Syntax.Progress
import Varscript.Proofs.Lexis.Alphabet
import Varscript.Proofs.FileTree.Change
import Varscript.Proofs.Report.FallBack
