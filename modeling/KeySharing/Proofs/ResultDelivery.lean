import KeySharing.Proofs.CompletionContext
import KeySharing.Proofs.Gcm
import KeySharing.Proofs.Rsa.Primality

/-!
# Delivery of a result

The side that computes seals a result, the device opens it, and no nonce travels between them: each
derives nonce and associated data on its own from the description of the computation and the three
keys. For keys of sixteen bytes both sides come down to the same key, nonce and associated data, so
the device accepts exactly what was sealed for this description.

- `ResultParameters.run_sealResult_eq_ok_iff`, `Completion.run_openResult_eq_ok_iff`: the two sides
  with the standard provider.
- `Completion.result_delivery`: the two sides together.
-/

namespace KeySharing

variable {σ : Type}

section
variable (random : RandomSource σ) (blindings : Rsa.Blindings) (key : Aes.Key) (nonce : Nonce)
  (aad : Bytes) (state : σ)

theorem run_importKey_standard :
    ((Provider.standard random blindings).importKey key.val).run state = (.ok key, state) := by
  show (Aes.Key.ofBytes key.val, state) = _
  rw [Aes.Key.ofBytes, dif_pos key.property]

theorem run_sealText_standard (text : Bytes) :
    ((Provider.standard random blindings).sealText key nonce aad text).run state =
      (Gcm.encrypt key nonce aad text, state) := rfl

theorem run_openText_standard (blob : Bytes) :
    ((Provider.standard random blindings).openText key nonce aad blob).run state =
      (Gcm.decrypt key nonce aad blob, state) := rfl

end

/-- Sealing a result is sealing under its nonce and its context. -/
theorem ResultParameters.run_sealResult_eq_ok_iff {random : RandomSource σ}
    {blindings : Rsa.Blindings} {parameters : ResultParameters} {key : Aes.Key}
    {text blob : Bytes} {state : σ} :
    (parameters.sealResult (.standard random blindings) key text).run state = (.ok blob, state) ↔
      Gcm.encrypt key parameters.nonce parameters.context.bytes text = .ok blob := by
  rw [sealResult, Action.run_mapError_eq_ok, run_sealText_standard, Prod.mk.injEq,
    and_iff_left rfl]

namespace Completion

variable {random : RandomSource σ} {blindings : Rsa.Blindings} {completion : Completion}
  {deviceKey : Aes.Key} {keys : PerParty Rsa.PublicKey} {blob text : Bytes} {state : σ}

/-- The nonce and the associated data for exported keys. -/
def parametersFor (completion : Completion) (keys : PerParty Rsa.PublicKey) : ResultParameters :=
  let context := completion.context (keys.map Rsa.PublicKey.toDer)
  ⟨Context.nonceOfDigest (sha256 context.bytes), context⟩

/-- A blob without room for a tag is refused at once. -/
theorem run_openResult_of_short (h : blob.length < tagLength) :
    (completion.openResult (.standard random blindings) deviceKey.val keys blob).run state =
      (.error (.malformedInput (.resultTooShort blob.length tagLength)), state) := by
  rw [openResult, if_pos h, Action.run_throw]

/-- Any other blob is opened under the key, the nonce and the context. -/
theorem run_openResult_of_enough (h : tagLength ≤ blob.length) :
    (completion.openResult (.standard random blindings) deviceKey.val keys blob).run state =
      (((Provider.standard random blindings).openText deviceKey
        (completion.parametersFor keys).nonce (completion.parametersFor keys).context.bytes
          blob).mapError .ofCrypto).run state := by
  have himport := run_importKey_standard random blindings deviceKey state
  have hexport := Recipients.run_export_standard random blindings keys state
  rw [openResult, if_neg (Nat.not_lt.mpr h),
    Action.run_bind_of_ok (Action.run_mapError_eq_ok.mpr himport),
    Action.run_bind_of_ok (Action.run_mapError_eq_ok.mpr hexport),
    Action.run_bind_of_ok (run_parameters random blindings _ completion state)]
  rfl

/-- A result opens exactly if its blob does. -/
theorem run_openResult_eq_ok_iff :
    (completion.openResult (.standard random blindings) deviceKey.val keys blob).run state =
        (.ok text, state) ↔
      Gcm.decrypt deviceKey (completion.parametersFor keys).nonce
        (completion.parametersFor keys).context.bytes blob = .ok text := by
  rcases Nat.lt_or_ge blob.length tagLength with hshort | henough
  · rw [run_openResult_of_short hshort]
    constructor
    · rintro ⟨⟩
    · intro h
      have hlength := Gcm.length_of_decrypt h
      omega
  · rw [run_openResult_of_enough henough, Action.run_mapError_eq_ok, run_openText_standard,
      Prod.mk.injEq, and_iff_left rfl]

/-- What has room for a tag and does not open is refused as not authentic. -/
theorem run_openResult_eq_error (h : tagLength ≤ blob.length)
    (hnone : ∀ text, (completion.openResult (.standard random blindings) deviceKey.val keys
      blob).run state ≠ (.ok text, state)) :
    (completion.openResult (.standard random blindings) deviceKey.val keys blob).run state =
      (.error .authenticationFailed, state) := by
  have hrefused : ∀ text, Gcm.decrypt deviceKey (completion.parametersFor keys).nonce
      (completion.parametersFor keys).context.bytes blob ≠ .ok text :=
    fun text hopens => hnone text (run_openResult_eq_ok_iff.mpr hopens)
  rw [run_openResult_of_enough h, Action.run_mapError, run_openText_standard,
    Gcm.decrypt_eq_error h hrefused]
  rfl

/-- **Delivery of a result.** The parameters of a result always exist. Within the limits a blob
opens to a text exactly if sealing gives this blob for the text. So every sealed text comes back,
from one blob only, which is longer by its tag; a blob without room for a tag is malformed, and any
other one is not authentic. -/
theorem result_delivery (random : RandomSource σ) (blindings : Rsa.Blindings)
    (deviceKey : SizedBytes 16) (keys : PerParty Rsa.PublicKey) (completion : Completion)
    (state : σ) :
    ∃ key recipients parameters,
      ((Provider.standard random blindings).importKey deviceKey.val).run state = (.ok key, state) ∧
      (Recipients.export (.standard random blindings) keys).run state = (.ok recipients, state) ∧
      (completion.parameters (.standard random blindings) recipients).run state =
        (.ok parameters, state) ∧
      let sealed text := (parameters.sealResult (.standard random blindings) key text).run state
      let opened blob :=
        (completion.openResult (.standard random blindings) deviceKey.val keys blob).run state
      (∀ blob text, blob.length ≤ 2 ^ 36 + 16 →
        (opened blob = (.ok text, state) ↔ sealed text = (.ok blob, state))) ∧
      (∀ text, (∃ blob, sealed text = (.ok blob, state)) ↔
        text.length ≤ 2 ^ 36 ∧ parameters.context.bytes.length ≤ 2 ^ 36) ∧
      (∀ text blob, sealed text = (.ok blob, state) →
        blob.length = text.length + 16 ∧
          ∀ other, opened other = (.ok text, state) ↔ other = blob) ∧
      (∀ blob, blob.length < 16 →
        opened blob = (.error (.malformedInput (.resultTooShort blob.length 16)), state)) ∧
      ∀ blob, 16 ≤ blob.length → blob.length ≤ 2 ^ 36 + 16 →
        (∀ text, sealed text ≠ (.ok blob, state)) →
          opened blob = (.error .authenticationFailed, state) := by
  refine ⟨deviceKey, keys.map Rsa.PublicKey.toDer, completion.parametersFor keys,
    run_importKey_standard random blindings deviceKey state,
    Recipients.run_export_standard random blindings keys state,
    run_parameters random blindings _ completion state, ?_⟩
  intro sealed opened
  have hseals : ∀ text blob, sealed text = (.ok blob, state) ↔
      Gcm.encrypt deviceKey (completion.parametersFor keys).nonce
        (completion.parametersFor keys).context.bytes text = .ok blob :=
    fun text blob => ResultParameters.run_sealResult_eq_ok_iff
  have hinverse : ∀ blob text, blob.length ≤ Gcm.maxTextLength + tagLength →
      (opened blob = (.ok text, state) ↔ sealed text = (.ok blob, state)) := by
    intro blob text hblob
    exact run_openResult_eq_ok_iff.trans
      ((Gcm.decrypt_eq_ok_iff hblob).trans (hseals text blob).symm)
  refine ⟨hinverse, ?_, ?_, fun blob => run_openResult_of_short, ?_⟩
  -- what can be sealed
  · intro text
    constructor
    · rintro ⟨blob, hsealed⟩
      exact (Gcm.encrypt_eq_ok_iff.mp ((hseals text blob).mp hsealed)).1
    · intro hlimits
      exact ⟨_, (hseals text _).mpr (Gcm.encrypt_eq_ok_iff.mpr ⟨hlimits, rfl⟩)⟩
  -- what opens to a sealed text
  · intro text blob hsealed
    have hblob := (hseals text blob).mp hsealed
    have hlength := Gcm.length_of_encrypt hblob
    have htext : text.length ≤ Gcm.maxTextLength := (Gcm.encrypt_eq_ok_iff.mp hblob).1.1
    have hmax : blob.length ≤ Gcm.maxTextLength + tagLength :=
      hlength ▸ Nat.add_le_add_right htext tagLength
    refine ⟨hlength, fun other => ⟨fun hother => ?_, ?_⟩⟩
    · have hsame := Gcm.length_of_decrypt (run_openResult_eq_ok_iff.mp hother)
      rw [hinverse other text (hsame ▸ hlength ▸ hmax), hsealed] at hother
      cases hother
      rfl
    · rintro rfl
      exact (hinverse other text hmax).mpr hsealed
  -- what is refused
  · intro blob henough hblob hnone
    refine run_openResult_eq_error henough fun text hopens => ?_
    exact hnone text ((hinverse blob text hblob).mp hopens)

/-- The result of a finished computation comes back to the device. -/
theorem result_delivery_certified : ∃ (parameters : ResultParameters) (blob : Bytes),
    blob.length = 19 ∧
    (parameters.sealResult (.standard Tape.source) ⟨List.replicate 16 7, rfl⟩ [1, 2, 3]).run ⟨[]⟩ =
      (.ok blob, ⟨[]⟩) ∧
    (openResult (.standard Tape.source) ⟨"user", "run-1", "Heartbeat"⟩ (List.replicate 16 7)
      (PerParty.ofParty fun _ => Rsa.PrivateKey.certified.publicKey) blob).run ⟨[]⟩ =
        (.ok [1, 2, 3], ⟨[]⟩) := by
  obtain ⟨key, recipients, parameters, hkey, hrecipients, hparameters, -, hseals, hopens, -⟩ :=
    result_delivery Tape.source .two ⟨List.replicate 16 7, rfl⟩
      (PerParty.ofParty fun _ => Rsa.PrivateKey.certified.publicKey)
      ⟨"user", "run-1", "Heartbeat"⟩ ⟨[]⟩
  cases hkey
  cases hrecipients
  cases hparameters
  obtain ⟨blob, hblob⟩ := (hseals [1, 2, 3]).mpr ⟨by decide, by decide +kernel⟩
  obtain ⟨hlength, hopened⟩ := hopens _ blob hblob
  exact ⟨_, blob, hlength, hblob, (hopened blob).mpr rfl⟩

end Completion

end KeySharing
