import EditGate.Main
import EditGate.Proofs.Advice
import EditGate.Proofs.Archive
import EditGate.Proofs.Atomicity
import EditGate.Proofs.Automaton
import EditGate.Proofs.BlockBalance
import EditGate.Proofs.BlockGrammar
import EditGate.Proofs.BracketMatching
import EditGate.Proofs.Buffer
import EditGate.Proofs.Calls
import EditGate.Proofs.Closers
import EditGate.Proofs.Commits
import EditGate.Proofs.Conditionals
import EditGate.Proofs.Confinement
import EditGate.Proofs.Cursors
import EditGate.Proofs.Decimals
import EditGate.Proofs.Files
import EditGate.Proofs.Footprints
import EditGate.Proofs.Globals
import EditGate.Proofs.Interiors
import EditGate.Proofs.Joining
import EditGate.Proofs.Json
import EditGate.Proofs.Loading
import EditGate.Proofs.LongestRun
import EditGate.Proofs.Masking
import EditGate.Proofs.Mirrors
import EditGate.Proofs.Numerals
import EditGate.Proofs.Pasts
import EditGate.Proofs.Persistence
import EditGate.Proofs.Places
import EditGate.Proofs.Reading
import EditGate.Proofs.ReadingBack
import EditGate.Proofs.Repair
import EditGate.Proofs.Restoring
import EditGate.Proofs.Reversal
import EditGate.Proofs.Rollbacks
import EditGate.Proofs.Scanning
import EditGate.Proofs.Sessions
import EditGate.Proofs.Snippets
import EditGate.Proofs.Splicing
import EditGate.Proofs.Terminators
import EditGate.Proofs.Tiling
import EditGate.Proofs.Undisturbed
import EditGate.Proofs.UndoStack
import EditGate.Proofs.Validity
import EditGate.Proofs.Verdicts
