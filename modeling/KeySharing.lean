import KeySharing.Completion
import KeySharing.Configuration
import KeySharing.Decimal.Scientific
import KeySharing.Device
import KeySharing.Fhe.Result
import KeySharing.Proofs.CompletionContext
import KeySharing.Proofs.Der.RoundTrip
import KeySharing.Proofs.DeviceRun
import KeySharing.Proofs.Rsa.Inversion
import KeySharing.Proofs.Rsa.Padding
import KeySharing.Proofs.Rsa.Encryption
import KeySharing.Proofs.Rsa.Decryption
import KeySharing.Proofs.ShareCiphertexts
import KeySharing.Proofs.KeyDelivery
import KeySharing.Proofs.LabelBinding
import KeySharing.Proofs.RequestContext
import KeySharing.Proofs.Gcm
import KeySharing.Proofs.ResultDelivery
import KeySharing.Proofs.Dialogue
import KeySharing.Proofs.RequestExchange
import KeySharing.Proofs.ShareSecrecy
import KeySharing.Proofs.BlobDelivery
import KeySharing.Proofs.ResultDecoding
import KeySharing.Proofs.ResultExchange
import KeySharing.Proofs.PartyKeys
import KeySharing.Proofs.Rsa.EncodedMessage
import KeySharing.Proofs.ShareCombination
import KeySharing.Proofs.Rsa.EncryptionOutcome
import KeySharing.Proofs.Rsa.KeyTexts
import KeySharing.Proofs.Aes.KeyExpansion
import KeySharing.Proofs.Instants
