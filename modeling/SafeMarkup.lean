import SafeMarkup.Construct
import SafeMarkup.Interchange.Text
import SafeMarkup.Policy.Draft
import SafeMarkup.Session
import SafeMarkup.Traversal
import SafeMarkup.Proofs.BrowserScheme
import SafeMarkup.Proofs.Erasure
import SafeMarkup.Proofs.PropertySurvival
import SafeMarkup.Proofs.Transfer
import SafeMarkup.Proofs.Unchanged
import SafeMarkup.Proofs.DictForm
import SafeMarkup.Proofs.Tightening
import SafeMarkup.Proofs.JsonValue
import SafeMarkup.Proofs.RoundTrip
import SafeMarkup.Proofs.DictAgreement
import SafeMarkup.Proofs.Rearranged
import SafeMarkup.Proofs.Decimal
import SafeMarkup.Proofs.JsonNumber
import SafeMarkup.Proofs.JsonString
import SafeMarkup.Proofs.JsonText
import SafeMarkup.Proofs.Pipeline
import SafeMarkup.Proofs.Pruning
import SafeMarkup.Proofs.Configuration
import SafeMarkup.Proofs.Export
import SafeMarkup.Proofs.TextKeys
import SafeMarkup.Proofs.EditEffect
import SafeMarkup.Proofs.EditHistory
import SafeMarkup.Proofs.Scoping
import SafeMarkup.Proofs.FirstFlaw
import SafeMarkup.Proofs.FailedEdit
import SafeMarkup.Proofs.AuditTrail
import SafeMarkup.Proofs.OutputShape
import SafeMarkup.Proofs.Surroundings
import SafeMarkup.Proofs.KeyOrder
import SafeMarkup.Proofs.Acceptance
import SafeMarkup.Proofs.LetterCase
import SafeMarkup.Proofs.SchemeGrammar
import SafeMarkup.Proofs.Traversal
import SafeMarkup.Proofs.Leaves
import SafeMarkup.Proofs.Rebuilding
