import Abacus.Calculator
import Abacus.Catalogue
import Abacus.Main
import Abacus.Tape
import Abacus.Proofs.Reads
import Abacus.Proofs.Layout
import Abacus.Proofs.Evaluates
import Abacus.Proofs.Folds
import Abacus.Proofs.Offence
import Abacus.Proofs.Loop
import Abacus.Proofs.Limit
import Abacus.Proofs.Readings
import Abacus.Proofs.Lines
import Abacus.Proofs.Written
import Abacus.Proofs.Logs
import Abacus.Proofs.Transcripts
import Abacus.Proofs.Overflow
import Abacus.Proofs.Agreement
import Abacus.Proofs.Calls
import Abacus.Proofs.Derivation
import Abacus.Proofs.Flaws
import Abacus.Proofs.Recovery
import Abacus.Proofs.Schedules
import Abacus.Proofs.Progress
import Abacus.Proofs.Joined
import Abacus.Proofs.Restart
import Abacus.Proofs.Replacement
import Abacus.Proofs.Unread
import Abacus.Proofs.Relaid
import Abacus.Proofs.Entries
import Abacus.Proofs.Identity
import Abacus.Proofs.Wishes
import Abacus.Proofs.Retries
