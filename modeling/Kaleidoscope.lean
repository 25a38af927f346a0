import Kaleidoscope.Grammar.Fuel
import Kaleidoscope.Main
import Kaleidoscope.Proofs.Climbing
import Kaleidoscope.Proofs.RoundTrip
import Kaleidoscope.Proofs.Visibility
import Kaleidoscope.Toplevel.Recorder
import Kaleidoscope.Proofs.Independence
import Kaleidoscope.Proofs.Openings
import Kaleidoscope.Proofs.Partition
import Kaleidoscope.Proofs.Limit
import Kaleidoscope.Proofs.Lines
import Kaleidoscope.Proofs.Scanner
import Kaleidoscope.Proofs.Lookahead
import Kaleidoscope.Proofs.Diagnosis
import Kaleidoscope.Proofs.Accounting
import Kaleidoscope.Proofs.Lockstep
import Kaleidoscope.Proofs.Concatenation
import Kaleidoscope.Proofs.Entries
import Kaleidoscope.Proofs.Refusal
import Kaleidoscope.Proofs.Genuine
import Kaleidoscope.Proofs.Vocabulary
import Kaleidoscope.Proofs.Magnitudes
import Kaleidoscope.Proofs.Registration
import Kaleidoscope.Proofs.Numerals
import Kaleidoscope.Proofs.Readability
import Kaleidoscope.Proofs.Announcement
import Kaleidoscope.Proofs.Layout
import Kaleidoscope.Proofs.Height
import Kaleidoscope.Proofs.Truncation
import Kaleidoscope.Proofs.Bookkeeping
import Kaleidoscope.Proofs.Signatures
import Kaleidoscope.Proofs.Naming
import Kaleidoscope.Proofs.Overflow
import Kaleidoscope.Proofs.Typesetting
import Kaleidoscope.Proofs.Writes
import Kaleidoscope.Proofs.Transcript
import Kaleidoscope.Proofs.Ranking
import Kaleidoscope.Proofs.Descent
import Kaleidoscope.Proofs.Prefixes
import Kaleidoscope.Proofs.Finality
import Kaleidoscope.Proofs.Turns
