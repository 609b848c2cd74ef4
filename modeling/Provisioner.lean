import Provisioner.Main
import Provisioner.Proofs.Index.DefaultName
import Provisioner.Proofs.Index.MissingReport
import Provisioner.Proofs.Index.RestatedInfo
import Provisioner.Proofs.Index.UnreadableInfo
import Provisioner.Proofs.Schema.AdmittedSchema
import Provisioner.Proofs.Schema.AtomicEnsure
import Provisioner.Proofs.Schema.ConcurrentRuns
import Provisioner.Proofs.Schema.ConflictWarning
import Provisioner.Proofs.Schema.DeclarationOrder
import Provisioner.Proofs.Schema.ExpiryIndex
import Provisioner.Proofs.Schema.GivenName
import Provisioner.Proofs.Schema.PreservedStore
import Provisioner.Proofs.Schema.RepeatedRun
import Provisioner.Proofs.Schema.ResumedRun
import Provisioner.Proofs.Schema.RunReport
import Provisioner.Proofs.Schema.SeparateCollections
import Provisioner.Proofs.Schema.ShadowedIndex
import Provisioner.Proofs.Schema.SharedKeys
import Provisioner.Proofs.Schema.Stage
import Provisioner.Proofs.Schema.StageAccount
import Provisioner.Proofs.Session.AppliedSchema
import Provisioner.Proofs.Session.BootstrapEnd
import Provisioner.Proofs.Session.ClientBooks
import Provisioner.Proofs.Session.ConcealedAddress
import Provisioner.Proofs.Session.HeldClient
import Provisioner.Proofs.Session.OperationHistory
import Provisioner.Proofs.Session.PrintedLine
import Provisioner.Proofs.Settings.LevelText
import Provisioner.Proofs.Value.Equivalence
