import MultiCluster.Cluster.Server
import MultiCluster.Main
import MultiCluster.Proofs.Conflict
import MultiCluster.Proofs.Masking
import MultiCluster.Proofs.Membership
import MultiCluster.Proofs.Recovery
import MultiCluster.Proofs.Redeployment
import MultiCluster.Proofs.CallOrder
import MultiCluster.Proofs.Contest
import MultiCluster.Proofs.Truthful
import MultiCluster.Proofs.Patterns
import MultiCluster.Proofs.Replacement
import MultiCluster.Proofs.CredentialRules
import MultiCluster.Proofs.LogMasking
import MultiCluster.Proofs.Writing
import MultiCluster.Proofs.Confinement
import MultiCluster.Proofs.Isolation
import MultiCluster.Proofs.RecordText
import MultiCluster.Proofs.Settled
import MultiCluster.Proofs.Results
import MultiCluster.Proofs.Rejection
import MultiCluster.Proofs.Absorption
import MultiCluster.Proofs.Cleanup
import MultiCluster.Proofs.Collecting
import MultiCluster.Proofs.Interruption
import MultiCluster.Proofs.BlockGrammar
import MultiCluster.Proofs.Overlap
import MultiCluster.Proofs.Sizing
import MultiCluster.Proofs.Decided
import MultiCluster.Proofs.Selection
import MultiCluster.Proofs.Configuration
import MultiCluster.Proofs.JsonReading
import MultiCluster.Proofs.MaskedText
import MultiCluster.Proofs.Calendar
import MultiCluster.Proofs.Timestamps
import MultiCluster.Proofs.Rereading
import MultiCluster.Proofs.BrokerMeaning
import MultiCluster.Proofs.CredentialNames
import MultiCluster.Proofs.PairMasking
import MultiCluster.Proofs.JsonLine
import MultiCluster.Proofs.KeyAgreement
import MultiCluster.Proofs.FileNames
import MultiCluster.Proofs.OwnFiles
import MultiCluster.Proofs.Attempts
import MultiCluster.Proofs.Announced
import MultiCluster.Proofs.Rewriting
import MultiCluster.Proofs.Precedence
import MultiCluster.Proofs.Refusal
import MultiCluster.Proofs.Overrides
import MultiCluster.Proofs.Contexts
import MultiCluster.Proofs.Succession
import MultiCluster.Proofs.DirectoryNames
import MultiCluster.Proofs.Delays
import MultiCluster.Proofs.Causes
