import KeySharing.Proofs.DeviceRun
import KeySharing.Proofs.Gcm

/-!
# Delivery of protected data

A device frames what it seals with the nonce it has just taken, and whoever holds the key reads the
nonce off the frame and rebuilds the associated data. So a blob opens to some data exactly if a
device that stands one nonce before the one in the frame makes this blob of the data, also where the
nonces wrap around. The blobs of a run are made by one device after the other, and each of them
opens on its own.

- `Nonce.previous`: the nonce before a nonce.
- `Device.protect_start_previous_eq_ok_iff`: what a new device makes that stands before a nonce.
- `unprotect_eq_ok_iff`: what opens is a nonce and a text sealed under it.
- `Device.unprotect_of_protect`: a blob opens to its data, whatever device made it.
- `Device.blob_delivery`: the two directions, the errors, and the blobs of a run.
-/

namespace KeySharing

/-! ## Nonces one before another -/

/-- The nonce before a nonce, modulo 2^96. -/
def Nonce.previous (nonce : Nonce) : Nonce := Nonce.ofNat (Nonce.toNat nonce + (2 ^ 96 - 1))

theorem Nonce.next_previous (nonce : Nonce) : Nonce.next (Nonce.previous nonce) = nonce := by
  have hperiod : Nonce.toNat nonce + (2 ^ 96 - 1) + 1 = Nonce.toNat nonce + nonceCount := rfl
  rw [Nonce.previous, Nonce.next_ofNat, hperiod,
    Nonce.ofNat_inj.mpr (Nat.add_mod_right _ _), Nonce.ofNat_toNat]

/-! ## What a device gives -/

namespace Device

/-- A new device that stands before a nonce takes this nonce for its first blob. -/
theorem protect_start_previous_eq_ok_iff {userId : String} {data blob : Bytes} {nonce : Nonce}
    {key : Aes.Key} :
    ((protect userId .aesGcm128 data).run (start (Nonce.previous nonce) key)).1 = .ok blob ↔
      ∃ sealed, Gcm.encrypt key nonce (blobAad userId nonce) data = .ok sealed ∧
        nonce.val ++ sealed = blob := by
  have hnonce : (start (Nonce.previous nonce) key).advance.nonce = nonce :=
    Nonce.next_previous nonce
  have hunused : (start (Nonce.previous nonce) key).usedNonces < nonceCount := Nat.two_pow_pos 96
  rw [protect_eq_ok_iff, and_iff_right hunused, hnonce]
  rfl

end Device

/-! ## What the holder of the key finds -/

section
variable {userId : String} {key blob data : Bytes}

theorem unprotect_of_short (h : blob.length < blobOverhead) :
    unprotect userId key blob =
      .error (.malformedInput (.blobTooShort blob.length blobOverhead)) := by
  rw [unprotect, dif_pos h]

theorem unprotect_of_length_ne (hblob : blobOverhead ≤ blob.length)
    (hkey : key.length ≠ Aes.keyLength) :
    unprotect userId key blob = .error (.crypto (.invalidKeyLength Aes.keyLength key.length)) := by
  rw [unprotect, dif_neg (Nat.not_lt.mpr hblob), Aes.Key.ofBytes, dif_neg hkey]
  rfl

/-- What is long enough is a nonce and what stands behind it. -/
theorem exists_nonce_append (h : blobOverhead ≤ blob.length) :
    ∃ (nonce : Nonce) (rest : Bytes), tagLength ≤ rest.length ∧ blob = nonce.val ++ rest := by
  rw [blobOverhead] at h
  refine ⟨⟨blob.take nonceLength, List.length_take_of_le (by omega)⟩, blob.drop nonceLength, ?_,
    (List.take_append_drop _ _).symm⟩
  rw [List.length_drop]
  omega

/-- A blob with a nonce in front is opened under this nonce. -/
theorem unprotect_append (key : Aes.Key) (nonce : Nonce) {rest : Bytes}
    (h : tagLength ≤ rest.length) :
    unprotect userId key.val (nonce.val ++ rest) =
      (Gcm.decrypt key nonce (blobAad userId nonce) rest).mapError .ofCrypto := by
  have henough : ¬ (nonce.val ++ rest).length < blobOverhead := by
    rw [List.length_append, nonce.property, blobOverhead]
    omega
  rw [unprotect, dif_neg henough, Aes.Key.ofBytes, dif_pos key.property]
  have hnonce : (nonce.val ++ rest).take nonceLength = nonce.val := List.take_left' nonce.property
  simp only [hnonce, List.drop_left' nonce.property]
  rfl

/-- A blob opens to some data exactly if a device that stands before its nonce makes it of the
data. -/
theorem unprotect_eq_ok_iff {nonce : Nonce} {rest : Bytes} (key : Aes.Key)
    (h : tagLength ≤ rest.length) (hlimit : rest.length ≤ Gcm.maxTextLength + tagLength) :
    unprotect userId key.val (nonce.val ++ rest) = .ok data ↔
      ((Device.protect userId .aesGcm128 data).run
        (Device.start (Nonce.previous nonce) key)).1 = .ok (nonce.val ++ rest) := by
  rw [unprotect_append key nonce h, Device.protect_start_previous_eq_ok_iff, mapError_eq_ok_iff,
    Gcm.decrypt_eq_ok_iff hlimit]
  constructor
  · intro hseal
    exact ⟨rest, hseal, rfl⟩
  · rintro ⟨sealed, hseal, happend⟩
    rw [List.append_cancel_left happend] at hseal
    exact hseal

/-- What is long enough opens or is refused as not authentic. -/
theorem unprotect_eq_error (key : Aes.Key) (h : blobOverhead ≤ blob.length)
    (hnone : ∀ data, unprotect userId key.val blob ≠ .ok data) :
    unprotect userId key.val blob = .error .authenticationFailed := by
  obtain ⟨nonce, rest, hrest, rfl⟩ := exists_nonce_append h
  rw [unprotect_append key nonce hrest] at hnone ⊢
  have hrefused : ∀ text, Gcm.decrypt key nonce (blobAad userId nonce) rest ≠ .ok text :=
    fun text hopens => hnone text (mapError_eq_ok_iff.mpr hopens)
  rw [Gcm.decrypt_eq_error hrest hrefused]
  rfl

end

namespace Device

/-- **A blob opens to its data**, whatever device made it, and is longer by nonce and tag. -/
theorem unprotect_of_protect {userId : String} {algorithm : Algorithm} {data blob : Bytes}
    {device : Device} (h : ((protect userId algorithm data).run device).1 = .ok blob) :
    unprotect userId device.key.val blob = .ok data ∧ blob.length = data.length + blobOverhead := by
  obtain ⟨-, sealed, hseal, rfl⟩ := protect_eq_ok_iff.mp h
  have hsealed : sealed.length = data.length + tagLength := Gcm.length_of_encrypt hseal
  have hdata : data.length ≤ Gcm.maxTextLength := (Gcm.encrypt_eq_ok_iff.mp hseal).1.1
  refine ⟨?_, ?_⟩
  · rw [unprotect_append device.key _ (hsealed ▸ Nat.le_add_left _ _), mapError_eq_ok_iff]
    exact (Gcm.decrypt_eq_ok_iff (hsealed ▸ Nat.add_le_add_right hdata _)).mpr hseal
  · rw [List.length_append, hsealed, device.advance.nonce.property, blobOverhead]
    omega

/-- A call of a run protects the upload that stands at its place. -/
theorem run_of_mem_zip_steps {device : Device} {uploads : List Upload} {upload : Upload}
    {step : Step} (hmem : (upload, step) ∈ uploads.zip (device.steps uploads)) :
    step.before.key = device.key ∧ (step.outcome, step.after) =
      (protect upload.userId upload.algorithm upload.data).run step.before := by
  induction uploads generalizing device with
  | nil => cases hmem
  | cons first uploads ih =>
    rw [steps, List.zip_cons_cons, List.mem_cons] at hmem
    rcases hmem with heq | hrest
    · cases heq
      exact ⟨rfl, rfl⟩
    · obtain ⟨hkey, hrun⟩ := ih hrest
      refine ⟨hkey.trans ?_, hrun⟩
      rw [run_protect]
      split <;> rfl

/-- **Delivery of protected data.** What is too short is malformed, whatever the key; then a key of
the wrong length is refused. Otherwise, within the limits, a blob opens to some data exactly if a
new device with this key, started one nonce before the one in the blob, makes this blob of the data,
and everything else is not authentic. So the blobs of a run open to their data under their users,
each on its own. -/
theorem blob_delivery :
    (∀ (userId : String) (key blob : Bytes),
      (blob.length < 28 →
        unprotect userId key blob = .error (.malformedInput (.blobTooShort blob.length 28))) ∧
      (28 ≤ blob.length → key.length ≠ 16 →
        unprotect userId key blob = .error (.crypto (.invalidKeyLength 16 key.length))) ∧
      (28 ≤ blob.length → blob.length ≤ 2 ^ 36 + 28 → ∀ hkey : key.length = 16,
        let before := Nonce.ofNat (Bytes.ofLittleEndian (blob.take 12) + (2 ^ 96 - 1))
        let made data := ((protect userId .aesGcm128 data).run (start before ⟨key, hkey⟩)).1
        (∀ data, unprotect userId key blob = .ok data ↔ made data = .ok blob) ∧
        ((∀ data, made data ≠ .ok blob) →
          unprotect userId key blob = .error .authenticationFailed))) ∧
    ∀ (device : Device) (uploads : List Upload),
      ∀ upload step, (upload, step) ∈ uploads.zip (device.steps uploads) →
        ∀ blob, step.outcome = .ok blob →
          unprotect upload.userId device.key.val blob = .ok upload.data ∧
            blob.length = upload.data.length + 28 := by
  refine ⟨fun userId key blob => ⟨unprotect_of_short, unprotect_of_length_ne, ?_⟩, ?_⟩
  · intro henough hlimit hkey before made
    have hinverse : ∀ data, unprotect userId key blob = .ok data ↔ made data = .ok blob := by
      intro data
      obtain ⟨nonce, rest, hrest, rfl⟩ := exists_nonce_append henough
      have hbefore : before = Nonce.previous nonce := by
        show Nonce.ofNat (Bytes.ofLittleEndian ((nonce.val ++ rest).take nonceLength) + _) = _
        rw [List.take_left' nonce.property]
        rfl
      have hlength : rest.length ≤ Gcm.maxTextLength + tagLength := by
        rw [List.length_append, nonce.property, nonceLength] at hlimit
        rw [Gcm.maxTextLength, tagLength]
        omega
      show _ ↔ ((protect userId .aesGcm128 data).run (start before ⟨key, hkey⟩)).1 = _
      rw [hbefore]
      exact unprotect_eq_ok_iff ⟨key, hkey⟩ hrest hlength
    refine ⟨hinverse, fun hnone => ?_⟩
    exact unprotect_eq_error ⟨key, hkey⟩ henough fun data hopens =>
      hnone data ((hinverse data).mp hopens)
  · intro device uploads upload step hmem blob hblob
    obtain ⟨hkey, hrun⟩ := run_of_mem_zip_steps hmem
    rw [← hkey]
    exact unprotect_of_protect ((congrArg Prod.fst hrun).symm.trans hblob)

/-- A blob whose nonce has wrapped around opens, but neither without its key nor without itself. -/
theorem blob_delivery_certified : ∃ blob : Bytes,
    blob.length = 31 ∧ blob.take 12 = List.replicate 12 0 ∧
    ((protect "user" .aesGcm128 [1, 2, 3]).run
      (start ⟨List.replicate 12 255, rfl⟩ ⟨List.replicate 16 7, rfl⟩)).1 = .ok blob ∧
    unprotect "user" (List.replicate 16 7) blob = .ok [1, 2, 3] ∧
    unprotect "user" [] blob = .error (.crypto (.invalidKeyLength 16 0)) ∧
    unprotect "user" [] [] = .error (.malformedInput (.blobTooShort 0 28)) := by
  let device := start ⟨List.replicate 12 255, rfl⟩ ⟨List.replicate 16 7, rfl⟩
  have hnext : device.advance.nonce.val = List.replicate 12 0 := by decide
  obtain ⟨sealed, hsealed⟩ : ∃ sealed, Gcm.encrypt device.key device.advance.nonce
      (blobAad "user" device.advance.nonce) [1, 2, 3] = .ok sealed :=
    ⟨_, Gcm.encrypt_eq_ok_iff.mpr ⟨⟨by decide, by decide⟩, rfl⟩⟩
  have hblob : ((protect "user" .aesGcm128 [1, 2, 3]).run device).1 =
      .ok (device.advance.nonce.val ++ sealed) :=
    protect_eq_ok_iff.mpr ⟨Nat.two_pow_pos 96, sealed, hsealed, rfl⟩
  rw [hnext] at hblob
  generalize hbytes : List.replicate 12 0 ++ sealed = blob at hblob
  have hlength : blob.length = 31 :=
    (blob_delivery.2 device [⟨"user", .aesGcm128, [1, 2, 3]⟩] _ _ (.head _) blob hblob).2
  have htake : blob.take 12 = List.replicate 12 0 := hbytes ▸ rfl
  obtain ⟨-, -, hinverse⟩ := blob_delivery.1 "user" (List.replicate 16 7) blob
  obtain ⟨-, hkey, -⟩ := blob_delivery.1 "user" [] blob
  obtain ⟨hshort, -, -⟩ := blob_delivery.1 "user" [] []
  have hopens := ((hinverse (by omega) (by omega) rfl).1 [1, 2, 3]).mpr
  have hbefore : Nonce.ofNat (Bytes.ofLittleEndian (List.replicate 12 0) + (2 ^ 96 - 1)) =
      device.nonce := by decide
  rw [htake, hbefore] at hopens
  exact ⟨blob, hlength, htake, hblob, hopens hblob, hkey (by omega) (by decide), hshort (by decide)⟩

end Device

end KeySharing
