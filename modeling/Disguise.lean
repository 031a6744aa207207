import Disguise.Numeral.Decimal
import Disguise.Process.Basic
import Disguise.Process.Network
import Disguise.Process.SharedMemory
import Disguise.Process.Alike
import Disguise.Process.Stream
import Disguise.Process.Loop
import Disguise.Process.History
import Disguise.Process.Script
import Disguise.Memory.Buffer
import Disguise.Memory.Access
import Disguise.Memory.Octets
import Disguise.Memory.BitString
import Disguise.Memory.Flat
import Disguise.Runtime.StringFunctions
import Disguise.Runtime.MemoryMoves
import Disguise.Authentication.Milenage
import Disguise.Cipher.ByteField
import Disguise.Cipher.Rijndael
import Disguise.Cipher.Modes
import Disguise.Authentication.Aes
import Disguise.Authentication.AesSteps
import Disguise.Authentication.AesStandard
import Disguise.Authentication.AesModes
import Disguise.Authentication.EnclaveMilenage
import Disguise.Authentication.EnclaveEntry
import Disguise.Authentication.Timing
import Disguise.Mailbox.SharedData
import Disguise.Authentication.Usim
import Disguise.Authentication.UeRuns
import Disguise.Authentication.TokenGate
import Disguise.Authentication.KeyIndependence
import Disguise.Authentication.NoAnswer
import Disguise.Authentication.KeyAgreement
import Disguise.Authentication.Configuration
import Disguise.Authentication.Credentials
import Disguise.Mailbox.Host
import Disguise.Mailbox.Pipeline
import Disguise.Mailbox.System
import Disguise.Mailbox.Freshness
import Disguise.Mailbox.History
import Disguise.Mailbox.Served
import Disguise.Mailbox.Order
import Disguise.Mailbox.Objects
import Disguise.Mailbox.Recovery
import Disguise.Provisioning.Sodium
import Disguise.Provisioning.Frame
import Disguise.Provisioning.Hex
import Disguise.Provisioning.HexCodec
import Disguise.Provisioning.Channel
import Disguise.Provisioning.Enclave
import Disguise.Provisioning.Provider
import Disguise.Provisioning.HandlerSpec
import Disguise.Provisioning.TaggedSodium
import Disguise.Enclaves.MessageBounds
import Disguise.Provisioning.AckAcceptance
import Disguise.Provisioning.AttestationGate
import Disguise.Provisioning.Replay
import Disguise.Provisioning.Isolation
import Disguise.Provisioning.ProviderSafety
import Disguise.Provisioning.HonestRun
import Disguise.Provisioning.ReportGate
import Disguise.Provisioning.FrameCodec
import Disguise.Provisioning.Transport
import Disguise.Provisioning.SendLoops
import Disguise.Provisioning.Conversation
import Disguise.Enclaves.Ltoa
import Disguise.Enclaves.Entropy
