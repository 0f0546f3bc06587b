import Abacus.Journal
import Abacus.Main
import Abacus.Proofs.CursorProgress
import Abacus.Proofs.DeadTokens
import Abacus.Proofs.EditedNames
import Abacus.Proofs.ExactGrammar
import Abacus.Proofs.HalfAway
import Abacus.Proofs.ImpliedProducts
import Abacus.Proofs.InfinitePowers
import Abacus.Proofs.LongestMatch
import Abacus.Proofs.ManifestFaults
import Abacus.Proofs.ManifestNumbers
import Abacus.Proofs.Meanings
import Abacus.Proofs.NumberSyntax
import Abacus.Proofs.OddFunctions
import Abacus.Proofs.Overlay
import Abacus.Proofs.ParenthesisedNames
import Abacus.Proofs.Poles
import Abacus.Proofs.PrintedText
import Abacus.Proofs.SessionLines
import Abacus.Proofs.SharedTexts
import Abacus.Proofs.ShownOutcomes
import Abacus.Proofs.SourceReport
import Abacus.Proofs.Spacing
import Abacus.Proofs.StackUse
import Abacus.Proofs.StoreHistory
import Abacus.Proofs.Substitution
import Abacus.Proofs.Supplying
import Abacus.Proofs.Totality
import Abacus.Proofs.WrittenProducts
