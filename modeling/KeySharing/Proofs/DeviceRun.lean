import KeySharing.Device
import KeySharing.Proofs.Numerals

/-!
# Nonces along a run of a device

A device is asked to protect one upload after the other. Its count of used nonces and its last
nonce are two counters of different width: the first stops at 2^96, the second is modulo 2^96 and
starts anywhere. `Device.Counted` couples them, every call keeps it, and because the bound of the
first counter is exactly the period of the second, no nonce comes twice.

- `Device.steps`: the calls of a run with the device before and after each.
- `Device.run_protect`, `Device.protect_eq_ok_iff`: what one call does, and when it gives a blob.
- `Device.counted_of_mem_steps`: the invariant at every call of a run.
- `Device.nonces_of_run`: no nonce is used twice, and an exhausted device stays as it is.
-/

namespace KeySharing

/-- Some data of a user that a device is asked to protect. -/
structure Upload where
  /-- The user. -/
  userId : String
  /-- The algorithm of the device key. -/
  algorithm : Algorithm
  /-- The data. -/
  data : Bytes

/-! ## Nonces as numbers -/

theorem nonceCount_eq : nonceCount = 2 ^ 96 := by decide

theorem Nonce.toNat_ofNat (n : Nat) : Nonce.toNat (Nonce.ofNat n) = n % nonceCount := by
  have h := Bytes.ofLittleEndian_littleEndian nonceLength n
  have hpow : 256 ^ nonceLength = nonceCount := by decide
  rw [hpow] at h
  exact h

theorem Nonce.ofNat_toNat (nonce : Nonce) : Nonce.ofNat (Nonce.toNat nonce) = nonce := by
  have h := Bytes.littleEndian_ofLittleEndian nonce.val
  rw [nonce.property] at h
  exact Subtype.ext h

theorem Nonce.ofNat_inj {m n : Nat} :
    Nonce.ofNat m = Nonce.ofNat n ↔ m % nonceCount = n % nonceCount := by
  constructor
  · intro h
    rw [← Nonce.toNat_ofNat m, ← Nonce.toNat_ofNat n, h]
  · intro h
    rw [← Nonce.ofNat_toNat (Nonce.ofNat m), ← Nonce.ofNat_toNat (Nonce.ofNat n),
      Nonce.toNat_ofNat, Nonce.toNat_ofNat, h]

theorem Nonce.next_ofNat (n : Nat) : Nonce.next (Nonce.ofNat n) = Nonce.ofNat (n + 1) := by
  rw [Nonce.next, Nonce.toNat_ofNat, Nonce.ofNat_inj, Nat.mod_add_mod]

namespace Device

/-- One call of a run. -/
structure Step where
  /-- The device before the call. -/
  before : Device
  /-- What the call gives. -/
  outcome : Except ProtocolError Bytes
  /-- The device after the call. -/
  after : Device

/-- The calls of a run that protects some uploads in order. -/
def steps : Device → List Upload → List Step
  | _, [] => []
  | device, upload :: uploads =>
    let result := (protect upload.userId upload.algorithm upload.data).run device
    ⟨device, result.1, result.2⟩ :: steps result.2 uploads

/-- The devices at all points of a run: at its start and after each call. -/
def points (device : Device) (uploads : List Upload) : List Device :=
  device :: (device.steps uploads).map Step.after

/-! ## One call -/

/-- While there are nonces left, a call takes the next one, whether the encryption succeeds or not;
an exhausted device refuses and stays as it is. -/
theorem run_protect (userId : String) (algorithm : Algorithm) (data : Bytes) (device : Device) :
    (protect userId algorithm data).run device =
      if device.usedNonces < nonceCount then
        (((Gcm.encrypt device.key device.advance.nonce (blobAad userId device.advance.nonce)
          data).mapError .ofCrypto).map (device.advance.nonce.val ++ ·), device.advance)
      else (.error .rekeyRequired, device) := by
  cases algorithm
  by_cases h : device.usedNonces < nonceCount
  · have hfresh : freshNonce.run device = (.ok device.advance.nonce, device.advance) := by
      simp [freshNonce, h]
    rw [if_pos h, protect, Action.run_bind_of_ok hfresh, Action.run_bind_of_ok (Action.run_get _)]
    have hkey : device.advance.key = device.key := rfl
    rw [Action.run_bind, Action.run_ofExcept, hkey]
    cases Gcm.encrypt device.key device.advance.nonce (blobAad userId device.advance.nonce) data <;>
      rfl
  · have hfresh : freshNonce.run device = (.error .rekeyRequired, device) := by
      simp [freshNonce, h]
    rw [if_neg h, protect, Action.run_bind_of_error hfresh]

/-- A device gives a blob if it has a nonce left and the data can be sealed under it. -/
theorem protect_eq_ok_iff {userId : String} {algorithm : Algorithm} {data blob : Bytes}
    {device : Device} :
    ((protect userId algorithm data).run device).1 = .ok blob ↔
      device.usedNonces < nonceCount ∧
        ∃ sealed, Gcm.encrypt device.key device.advance.nonce
          (blobAad userId device.advance.nonce) data = .ok sealed ∧
          device.advance.nonce.val ++ sealed = blob := by
  rw [run_protect]
  by_cases hlt : device.usedNonces < nonceCount
  · rw [if_pos hlt, and_iff_right hlt]
    cases Gcm.encrypt device.key device.advance.nonce (blobAad userId device.advance.nonce)
      data with
    | ok sealed =>
      constructor
      · rintro ⟨⟩
        exact ⟨sealed, rfl, rfl⟩
      · rintro ⟨_, ⟨⟩, rfl⟩
        rfl
    | error e =>
      constructor
      · rintro ⟨⟩
      · rintro ⟨_, ⟨⟩, -⟩
  · rw [if_neg hlt]
    constructor
    · rintro ⟨⟩
    · rintro ⟨h, -⟩
      exact absurd h hlt

/-! ## The invariant of a run -/

/-- A device that a run with the given start nonce and key can reach: the key is the first one,
the count has not passed the number of nonces, and the last nonce is as many steps after the start
nonce as the count says. -/
structure Counted (start : Nonce) (key : Aes.Key) (device : Device) : Prop where
  key_eq : device.key = key
  usedNonces_le : device.usedNonces ≤ nonceCount
  nonce_eq : device.nonce = Nonce.ofNat (Nonce.toNat start + device.usedNonces)

variable {nonce : Nonce} {key : Aes.Key} {device : Device} {uploads : List Upload} {step : Step}

theorem counted_start : Counted nonce key (start nonce key) where
  key_eq := rfl
  usedNonces_le := Nat.zero_le _
  nonce_eq := (Nonce.ofNat_toNat nonce).symm

/-- Taking a nonce moves both counters by one. -/
theorem counted_advance (h : Counted nonce key device) (hlt : device.usedNonces < nonceCount) :
    Counted nonce key device.advance where
  key_eq := h.key_eq
  usedNonces_le := hlt
  nonce_eq := by
    show Nonce.next device.nonce = Nonce.ofNat (Nonce.toNat nonce + (device.usedNonces + 1))
    rw [h.nonce_eq, Nonce.next_ofNat, Nat.add_assoc]

theorem counted_protect (h : Counted nonce key device) (upload : Upload) :
    Counted nonce key ((protect upload.userId upload.algorithm upload.data).run device).2 := by
  rw [run_protect]
  by_cases hlt : device.usedNonces < nonceCount
  · rw [if_pos hlt]
    exact counted_advance h hlt
  · rw [if_neg hlt]
    exact h

/-- The invariant holds before and after every call of a run. -/
theorem counted_of_mem_steps (h : Counted nonce key device) (hmem : step ∈ device.steps uploads) :
    Counted nonce key step.before ∧ Counted nonce key step.after := by
  induction uploads generalizing device with
  | nil => cases hmem
  | cons upload uploads ih =>
    rcases List.mem_cons.mp hmem with rfl | hrest
    · exact ⟨h, counted_protect h upload⟩
    · exact ih (counted_protect h upload) hrest

theorem counted_of_mem_points (h : Counted nonce key device) {d : Device}
    (hmem : d ∈ device.points uploads) : Counted nonce key d := by
  rcases List.mem_cons.mp hmem with rfl | hafter
  · exact h
  · obtain ⟨step, hstep, rfl⟩ := List.mem_map.mp hafter
    exact (counted_of_mem_steps h hstep).2

/-! ## The calls of a run -/

/-- Every call of a run is a call of `protect` on the device before it. -/
theorem exists_upload_of_mem_steps (hmem : step ∈ device.steps uploads) :
    ∃ upload ∈ uploads, (step.outcome, step.after) =
      (protect upload.userId upload.algorithm upload.data).run step.before := by
  induction uploads generalizing device with
  | nil => cases hmem
  | cons upload uploads ih =>
    rcases List.mem_cons.mp hmem with rfl | hrest
    · exact ⟨upload, List.mem_cons_self, rfl⟩
    · obtain ⟨upload', hin, hrun⟩ := ih hrest
      exact ⟨upload', List.mem_cons_of_mem _ hin, hrun⟩

/-- A call with nonces left takes one, and a blob it gives begins with that nonce. -/
theorem step_of_lt (hmem : step ∈ device.steps uploads) (h : step.before.usedNonces < nonceCount) :
    step.after = step.before.advance ∧
      ∀ blob, step.outcome = .ok blob → blob.take nonceLength = step.after.nonce.val := by
  obtain ⟨upload, -, hrun⟩ := exists_upload_of_mem_steps hmem
  have hafter : step.after = step.before.advance := by
    rw [run_protect, if_pos h] at hrun
    exact congrArg Prod.snd hrun
  refine ⟨hafter, fun blob hblob => ?_⟩
  obtain ⟨-, sealed, -, rfl⟩ :=
    protect_eq_ok_iff.mp ((congrArg Prod.fst hrun).symm.trans hblob)
  rw [hafter, List.take_left' step.before.advance.nonce.property]

/-- A call on an exhausted device fails and changes nothing. -/
theorem step_of_exhausted (hmem : step ∈ device.steps uploads)
    (h : ¬ step.before.usedNonces < nonceCount) :
    step.outcome = .error .rekeyRequired ∧ step.after = step.before := by
  obtain ⟨upload, -, hrun⟩ := exists_upload_of_mem_steps hmem
  rw [run_protect, if_neg h] at hrun
  exact Prod.mk.inj hrun

/-- A blob of a run exists only for a call that had a nonce left. -/
theorem lt_of_outcome_ok {blob : Bytes} (hmem : step ∈ device.steps uploads)
    (h : step.outcome = .ok blob) : step.before.usedNonces < nonceCount := by
  apply Decidable.byContradiction
  intro hlt
  rw [(step_of_exhausted hmem hlt).1] at h
  cases h

/-- The count never falls along a run. -/
theorem usedNonces_le_of_mem_steps (hmem : step ∈ device.steps uploads) :
    device.usedNonces ≤ step.before.usedNonces := by
  induction uploads generalizing device with
  | nil => cases hmem
  | cons upload uploads ih =>
    rcases List.mem_cons.mp hmem with rfl | hrest
    · exact Nat.le_refl _
    · refine Nat.le_trans ?_ (ih hrest)
      rw [run_protect]
      by_cases hlt : device.usedNonces < nonceCount
      · rw [if_pos hlt]
        exact Nat.le_succ _
      · exact Nat.le_of_eq (by rw [if_neg hlt])

/-- A run from an exhausted device never leaves it. -/
theorem before_eq_of_exhausted (h : ¬ device.usedNonces < nonceCount)
    (hmem : step ∈ device.steps uploads) : step.before = device := by
  induction uploads with
  | nil => cases hmem
  | cons upload uploads ih =>
    rcases List.mem_cons.mp hmem with rfl | hrest
    · rfl
    · rw [run_protect, if_neg h] at hrest
      exact ih hrest

/-- A later call of a run belongs to a run from the device that an earlier one leaves. -/
theorem pairwise_steps (device : Device) (uploads : List Upload) :
    (device.steps uploads).Pairwise fun a b => ∃ rest, b ∈ a.after.steps rest := by
  induction uploads generalizing device with
  | nil => exact List.Pairwise.nil
  | cons upload uploads ih =>
    exact List.Pairwise.cons (fun _ hmem => ⟨uploads, hmem⟩) (ih _)

/-- The blobs of two calls of a run carry different nonces: the later count is larger, and by less
than the period of the nonces. -/
theorem nonce_ne_of_later {a b : Step} {rest : List Upload} {blob blob' : Bytes}
    (ha : Counted nonce key a.before) (hmem : a ∈ device.steps uploads)
    (hlater : b ∈ a.after.steps rest) (hblob : a.outcome = .ok blob)
    (hblob' : b.outcome = .ok blob') : blob.take nonceLength ≠ blob'.take nonceLength := by
  have halt := lt_of_outcome_ok hmem hblob
  have hblt := lt_of_outcome_ok hlater hblob'
  obtain ⟨haafter, hatake⟩ := step_of_lt hmem halt
  obtain ⟨hbafter, hbtake⟩ := step_of_lt hlater hblt
  have hca : Counted nonce key a.after := haafter ▸ counted_advance ha halt
  have hcb : Counted nonce key b.after := (counted_of_mem_steps hca hlater).2
  have hmono : a.after.usedNonces ≤ b.before.usedNonces := usedNonces_le_of_mem_steps hlater
  have hacount : a.after.usedNonces = a.before.usedNonces + 1 := by rw [haafter]; rfl
  have hbcount : b.after.usedNonces = b.before.usedNonces + 1 := by rw [hbafter]; rfl
  rw [hatake blob hblob, hbtake blob' hblob']
  intro heq
  have hmod := Nonce.ofNat_inj.mp (hca.nonce_eq.symm.trans ((Subtype.ext heq).trans hcb.nonce_eq))
  have hle := hcb.usedNonces_le
  rw [nonceCount_eq] at *
  omega

/-! ## The theorem -/

/-- **No nonce comes twice.** At every point of a run the count is at most 2^96, the nonce is the
start nonce moved on by the count modulo 2^96, and the key is the first one. A call below the bound
takes exactly one nonce and puts it in front of its blob; the nonces of two blobs differ; a call at
the bound fails and leaves the device as it is, and so does every later call. -/
theorem nonces_of_run (nonce : Nonce) (key : Aes.Key) (uploads : List Upload) :
    let run := (start nonce key).steps uploads
    (∀ d ∈ (start nonce key).points uploads, d.key = key ∧ d.usedNonces ≤ 2 ^ 96 ∧
      d.nonce.val = Bytes.littleEndian 12 ((Nonce.toNat nonce + d.usedNonces) % 2 ^ 96)) ∧
    (∀ step ∈ run, step.before.usedNonces < 2 ^ 96 →
      step.after.usedNonces = step.before.usedNonces + 1 ∧
      ∀ blob, step.outcome = .ok blob → blob.take 12 = step.after.nonce.val) ∧
    run.Pairwise (fun a b => ∀ blob blob', a.outcome = .ok blob → b.outcome = .ok blob' →
      blob.take 12 ≠ blob'.take 12) ∧
    (∀ step ∈ run, step.before.usedNonces = 2 ^ 96 →
      step.outcome = .error .rekeyRequired ∧ step.after = step.before) ∧
    run.Pairwise (fun a b => a.before.usedNonces = 2 ^ 96 →
      b.outcome = .error .rekeyRequired ∧ b.after = a.before) := by
  intro run
  have hstart : Counted nonce key (start nonce key) := counted_start
  refine ⟨?_, ?_, ?_, ?_, ?_⟩
  · intro d hd
    have hc := counted_of_mem_points hstart hd
    refine ⟨hc.key_eq, hc.usedNonces_le, ?_⟩
    rw [hc.nonce_eq, ← Nonce.ofNat_inj.mpr (Nat.mod_mod _ _)]
    rfl
  · intro step hmem hlt
    obtain ⟨hafter, htake⟩ := step_of_lt hmem hlt
    exact ⟨by rw [hafter]; rfl, htake⟩
  · refine (pairwise_steps _ _).imp_of_mem ?_
    rintro a b ha - ⟨rest, hlater⟩ blob blob' hblob hblob'
    exact nonce_ne_of_later (counted_of_mem_steps hstart ha).1 ha hlater hblob hblob'
  · intro step hmem heq
    exact step_of_exhausted hmem (by rw [heq]; exact Nat.lt_irrefl _)
  · refine (pairwise_steps _ _).imp_of_mem ?_
    rintro a b ha - ⟨rest, hlater⟩ heq
    have hexhausted : ¬ a.before.usedNonces < nonceCount := by rw [heq]; exact Nat.lt_irrefl _
    rw [(step_of_exhausted ha hexhausted).2] at hlater
    have hbefore := before_eq_of_exhausted hexhausted hlater
    rw [← hbefore] at hexhausted ⊢
    exact step_of_exhausted hlater hexhausted

end Device

end KeySharing
