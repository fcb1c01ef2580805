import Phrasebook.Literal.Extension
import Phrasebook.Main
import Phrasebook.Terminal.Highlight
import Phrasebook.Proofs.Match.Indistinct
import Phrasebook.Proofs.Match.Layout
import Phrasebook.Proofs.Match.Unpruned
import Phrasebook.Proofs.Parse.Depth
import Phrasebook.Proofs.Parse.WellTyped
import Phrasebook.Proofs.Parse.Transparent
import Phrasebook.Proofs.Parse.FirstFitting
import Phrasebook.Proofs.Parse.Acceptances
import Phrasebook.Proofs.Parse.Elsewhere
import Phrasebook.Proofs.Parse.Reordered
import Phrasebook.Proofs.Parse.Calls
import Phrasebook.Proofs.Parse.Leftovers
import Phrasebook.Proofs.Parse.Reentry
import Phrasebook.Proofs.Parse.Limit
import Phrasebook.Proofs.Parse.Extended
import Phrasebook.Proofs.Parse.Spans
import Phrasebook.Proofs.Registry.Ambiguities
import Phrasebook.Proofs.Script.Accounting
import Phrasebook.Proofs.Script.Attempts
import Phrasebook.Proofs.Script.Cancelled
import Phrasebook.Proofs.Script.Rejected
import Phrasebook.Proofs.Standard.Locals
import Phrasebook.Proofs.Standard.Segments
import Phrasebook.Proofs.Types.ShortestChain
import Phrasebook.Proofs.Literal.Integer
import Phrasebook.Proofs.Match.Segments
import Phrasebook.Proofs.Parse.Segments
import Phrasebook.Proofs.Parse.Lists
import Phrasebook.Proofs.Registry.Candidates
import Phrasebook.Proofs.Script.Positions
import Phrasebook.Proofs.Standard.Assignments
import Phrasebook.Proofs.Types.Names
import Phrasebook.Proofs.Types.Supertypes
import Phrasebook.Proofs.Pattern.Apart
import Phrasebook.Proofs.Repl.Statement
import Phrasebook.Proofs.Parse.Partition
import Phrasebook.Proofs.Script.Escaping
import Phrasebook.Proofs.Terminal.Highlight
import Phrasebook.Proofs.Report.Carets
import Phrasebook.Proofs.Literal.Duration
import Phrasebook.Proofs.Literal.Number
import Phrasebook.Proofs.Match.Ends
import Phrasebook.Proofs.Match.Halting
