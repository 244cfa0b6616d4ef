import KeySharing.Provider.Basic
import KeySharing.Rsa.KeyFormat
import KeySharing.Rsa.Oaep

/-!
# The standard provider

RSA with optimal asymmetric padding, AES-128 in Galois/counter mode and SHA-256. Only encryption
touches the state: it draws the seed of the padding. The blindings of decryption come from elsewhere
and are a parameter of the provider.
-/

namespace KeySharing

namespace Rsa

/-- The public key of a PEM text. -/
def readPublicKey (text : String) : Except CryptoError PublicKey :=
  (PublicKey.ofPem text).mapError .malformedPublicKey

/-- The private key of a PEM text. -/
def readPrivateKey (text : String) : Except CryptoError PrivateKey :=
  (PrivateKey.ofPem text).mapError .malformedPrivateKey

end Rsa

/-- The provider of RSA, AES-128 and SHA-256 over a random source, for any choice of blindings. -/
def Provider.standard {σ : Type} (random : RandomSource σ)
    (blindings : Rsa.Blindings := .two) : Provider σ Rsa.PublicKey Rsa.PrivateKey Aes.Key where
  exportKey key := pure key.toDer
  importKey raw := .ofExcept (Aes.Key.ofBytes raw)
  encrypt key label message := Oaep.encrypt random key label message
  decrypt key label ciphertext :=
    .ofExcept (Oaep.decrypt key label ciphertext (blindings key ciphertext))
  digest data := pure (sha256 data)
  sealText key nonce aad text := .ofExcept (Gcm.encrypt key nonce aad text)
  openText key nonce aad blob := .ofExcept (Gcm.decrypt key nonce aad blob)

end KeySharing
