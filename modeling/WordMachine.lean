import WordMachine.Main
import WordMachine.Proofs.Assembly.Dialects
import WordMachine.Proofs.Assembly.Failures
import WordMachine.Proofs.Assembly.Labels
import WordMachine.Proofs.Assembly.LastWriter
import WordMachine.Proofs.Assembly.LineEndings
import WordMachine.Proofs.Assembly.NormalLayout
import WordMachine.Proofs.Assembly.Relocation
import WordMachine.Proofs.Assembly.Renaming
import WordMachine.Proofs.Assembly.TokenTexts
import WordMachine.Proofs.Listing.CanonicalForm
import WordMachine.Proofs.Listing.EncodingRange
import WordMachine.Proofs.Listing.Labels
import WordMachine.Proofs.Listing.Rebuilding
import WordMachine.Proofs.Listing.RoundTrip
import WordMachine.Proofs.Machine.Arithmetic
import WordMachine.Proofs.Machine.Calls
import WordMachine.Proofs.Machine.ControlFlow
import WordMachine.Proofs.Machine.Copying
import WordMachine.Proofs.Machine.Counting
import WordMachine.Proofs.Machine.Faults
import WordMachine.Proofs.Machine.Loading
import WordMachine.Proofs.Machine.RandomRange
import WordMachine.Proofs.Machine.Runs
import WordMachine.Proofs.Machine.Safety
import WordMachine.Proofs.Machine.Stack
import WordMachine.Proofs.Machine.StackGuard
import WordMachine.Proofs.Machine.StoreLaws
import WordMachine.Proofs.Source.Grammar
import WordMachine.Proofs.Source.Pulling
import WordMachine.Proofs.Source.Tokenization
