import Termbook.Expression.Basic
import Termbook.Main
import Termbook.Term.Checked
import Termbook.Term.Plain
import Termbook.Proofs.Gap
import Termbook.Proofs.Onward
import Termbook.Proofs.Dispatch
import Termbook.Proofs.Name
import Termbook.Proofs.Grammar
import Termbook.Proofs.Reads
import Termbook.Proofs.Acceptance
import Termbook.Proofs.Sugar
import Termbook.Proofs.Layout
import Termbook.Proofs.Named
import Termbook.Proofs.RoundTrip
import Termbook.Proofs.Reread
import Termbook.Proofs.Books
import Termbook.Proofs.Afresh
import Termbook.Proofs.Spelling
import Termbook.Proofs.LeadingGap
import Termbook.Proofs.Portable
import Termbook.Proofs.Completion
import Termbook.Proofs.Faults
import Termbook.Proofs.Inherited
import Termbook.Proofs.Totality
import Termbook.Proofs.LineEnds
import Termbook.Proofs.Places
import Termbook.Proofs.Reformat
import Termbook.Proofs.Sessions
import Termbook.Proofs.Prediction
import Termbook.Proofs.Recognition
import Termbook.Proofs.Order
import Termbook.Proofs.Trace
import Termbook.Proofs.Truncation
import Termbook.Proofs.Lines
import Termbook.Proofs.Indentation
import Termbook.Proofs.FirstRule
import Termbook.Proofs.Switch
import Termbook.Proofs.Skipping
import Termbook.Proofs.Indices
