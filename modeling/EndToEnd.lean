import EndToEnd.Config.Shared
import EndToEnd.Device.Messaging
import EndToEnd.Device.Persistence
import EndToEnd.Device.Relations
import EndToEnd.Proofs.AuditEdits
import EndToEnd.Proofs.Conversation
import EndToEnd.Proofs.CountedRotation
import EndToEnd.Proofs.DeadlineHistory
import EndToEnd.Proofs.Durations
import EndToEnd.Proofs.Endings
import EndToEnd.Proofs.Episodes
import EndToEnd.Proofs.EpochLimits
import EndToEnd.Proofs.FileLines
import EndToEnd.Proofs.Grace
import EndToEnd.Proofs.Importing
import EndToEnd.Proofs.Independence
import EndToEnd.Proofs.KeyStreams
import EndToEnd.Proofs.PrefixFree
import EndToEnd.Proofs.RatchetMoves
import EndToEnd.Proofs.Readmission
import EndToEnd.Proofs.Records
import EndToEnd.Proofs.Recovery
import EndToEnd.Proofs.Resumption
import EndToEnd.Proofs.RevokedPairs
import EndToEnd.Proofs.SessionAccounts
import EndToEnd.Proofs.SignatureChains
import EndToEnd.Proofs.SignedBytes
import EndToEnd.Proofs.Spending
import EndToEnd.Proofs.Strangers
import EndToEnd.Proofs.Unswept
import EndToEnd.Text.Redacted
