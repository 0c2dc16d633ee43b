import AdvisoryGate.Main
import AdvisoryGate.Proofs.ConfigText
import AdvisoryGate.Proofs.DryRun
import AdvisoryGate.Proofs.Arrangement
import AdvisoryGate.Proofs.EmptyConfig
import AdvisoryGate.Proofs.Verbosity
import AdvisoryGate.Proofs.SchemaAgreement
import AdvisoryGate.Proofs.ShellLine
import AdvisoryGate.Proofs.SingleLine
import AdvisoryGate.Proofs.FirstWord
import AdvisoryGate.Proofs.WaitStatus
import AdvisoryGate.Proofs.NamedConfig
import AdvisoryGate.Proofs.BlankText
import AdvisoryGate.Proofs.FrozenPlan
import AdvisoryGate.Proofs.Subcommand
import AdvisoryGate.Proofs.SchemaFile
import AdvisoryGate.Proofs.Misfit
import AdvisoryGate.Proofs.JsonGrammar
import AdvisoryGate.Proofs.JsonTokens
import AdvisoryGate.Proofs.JsonReading
import AdvisoryGate.Proofs.JsonMeaning
import AdvisoryGate.Proofs.SchemaCheck
import AdvisoryGate.Proofs.ListHistory
import AdvisoryGate.Proofs.NormalForm
import AdvisoryGate.Proofs.IdOrder
import AdvisoryGate.Proofs.IgnoreFlags
import AdvisoryGate.Proofs.BlankMessage
import AdvisoryGate.Proofs.ProjectRoot
