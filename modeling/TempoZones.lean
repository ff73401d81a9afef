import TempoZones.Primitives.ChainId
import TempoZones.Portal.Abdication
import TempoZones.Portal.EncryptionKeys
import TempoZones.Sequencer.WithdrawalEvents
import TempoZones.Sequencer.WithdrawalSubmission
import TempoZones.Sequencer.WithdrawalRecovery
import TempoZones.Sequencer.AnchorSafety
import TempoZones.System.TokenCursors
import TempoZones.Spf.SettledChain
import TempoZones.Zone.AnchoredReads
import TempoZones.System.BlockGrammar
import TempoZones.System.Fallback
import TempoZones.System.Imports
import TempoZones.System.Solvency
import TempoZones.L1.StateCache
import TempoZones.L1.Receipts
import TempoZones.Node.ImportDecision
import TempoZones.Node.CanonicalInput
import TempoZones.Node.HeadWriter
import TempoZones.Node.PersistedBroadcast
import TempoZones.Rpc.LogIdentity
import TempoZones.Checker.LedgerConsistency
import TempoZones.Sequencer.DepositEncryption
import TempoZones.P2p.BackfillReservations
import TempoZones.Node.FollowerSync
import TempoZones.Prover.AttestedSessions
import TempoZones.Sequencer.AttestationWire
