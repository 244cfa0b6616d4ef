import KeySharing.Proofs.KeyDelivery
import Mathlib.Data.FinEnum
import Mathlib.Data.Fintype.Vector
import Mathlib.Probability.Distributions.Uniform

/-!
# Two ciphertexts say nothing about the device key

Whoever sees the ciphertexts of two parties sees nothing of the device key, even with the private
keys of both: for any other device key there are random bytes that give the same two ciphertexts,
and just as many of them. Between the two scripts of random bytes stands one mask, the difference of
the two secrets at the place of a random share that is not seen. Where that is the third share,
which is not random, the two scripts are the same.

The argument is about the bytes of the script and where they go. The seeds of the padding come from
behind the shares, so no mask reaches them, and no draw and no branch depends on the secret.

- `SizedBytes.bijective_xor`: masking scripts is a bijection.
- `Share.shift`: the mask of two secrets for a share that is not seen.
- `Share.get_ofTape_xor_shift`: it changes no other share.
- `Request.exists_same_ciphertexts`: nor any other ciphertext.
- `Request.pair_independent_of_key`: the bijection of scripts for every two positions, and the joint
  distributions.
-/

namespace KeySharing

/-! ## Uniform scripts -/

namespace SizedBytes

variable {n : Nat}

instance : Fintype (SizedBytes n) := inferInstanceAs (Fintype (List.Vector UInt8 n))

instance : Nonempty (SizedBytes n) := ⟨⟨List.replicate n 0, List.length_replicate⟩⟩

/-- Bytes under a mask of their length. -/
def xor (mask bytes : SizedBytes n) : SizedBytes n :=
  ⟨bytes.val.xor mask.val, by rw [Bytes.length_xor, bytes.property, mask.property, Nat.min_self]⟩

theorem bijective_xor (mask : SizedBytes n) : Function.Bijective mask.xor := by
  refine Function.Involutive.bijective fun bytes => Subtype.ext ?_
  exact Bytes.xor_xor_cancel_right (Nat.le_of_eq (bytes.property.trans mask.property.symm))

end SizedBytes

/-- A bijection leaves the uniform distribution as it is. -/
theorem map_uniform_of_bijective {α : Type} [Fintype α] [Nonempty α] {f : α → α}
    (hf : Function.Bijective f) :
    (PMF.uniformOfFintype α).map f = PMF.uniformOfFintype α := by
  refine PMF.ext fun b => ?_
  obtain ⟨a, rfl⟩ := hf.surjective b
  rw [PMF.map_apply, tsum_eq_single a fun x hx => if_neg fun h => hx (hf.injective h).symm,
    if_pos rfl, PMF.uniformOfFintype_apply, PMF.uniformOfFintype_apply]

/-- What two functions make of uniform values is equally distributed if a bijection leads from the
one to the other. -/
theorem map_uniform_eq_of_bijective {α β : Type} [Fintype α] [Nonempty α] {f : α → α} {g h : α → β}
    (hf : Function.Bijective f) (heq : ∀ a, g a = h (f a)) :
    (PMF.uniformOfFintype α).map g = (PMF.uniformOfFintype α).map h := by
  have hcomp : g = h ∘ f := funext heq
  rw [hcomp, ← PMF.map_comp, map_uniform_of_bijective hf]

/-! ## The mask between two secrets -/

namespace Share

/-- The part of a mask at the place of a random share: the difference of two secrets if this share
is not seen, and nothing otherwise. -/
def shiftAt (place hidden : Party) (difference : Bytes) : Bytes :=
  if place = hidden then difference else List.replicate difference.length 0

@[simp] theorem length_shiftAt (place hidden : Party) (difference : Bytes) :
    (shiftAt place hidden difference).length = difference.length := by
  rw [shiftAt, apply_ite List.length, List.length_replicate, ite_self]

theorem xor_shiftAt_of_ne {place hidden : Party} (h : place ≠ hidden) {difference bytes : Bytes}
    (hlength : bytes.length ≤ difference.length) :
    bytes.xor (shiftAt place hidden difference) = bytes := by
  rw [shiftAt, if_neg h, Bytes.xor_replicate_zero hlength]

/-- The mask that makes up for the difference of two secrets in the share that is not seen. The
third share is not on the script, and a mask for it is empty. -/
def shift (hidden : Party) (difference : Bytes) (rest : Nat) : Bytes :=
  let masks := PerParty.ofParty fun place => shiftAt place hidden difference
  masks.first ++ masks.second ++ List.replicate rest 0

theorem shift_eq (hidden : Party) (difference : Bytes) (rest : Nat) :
    shift hidden difference rest =
      shiftAt 0 hidden difference ++ shiftAt 1 hidden difference ++ List.replicate rest 0 := rfl

theorem length_shift (hidden : Party) (difference : Bytes) (rest : Nat) :
    (shift hidden difference rest).length = 2 * difference.length + rest := by
  rw [shift_eq, List.length_append, List.length_append, length_shiftAt, length_shiftAt,
    List.length_replicate, Nat.two_mul]

variable {secret secret' script : Bytes} {rest : Nat}

theorem length_xor_shift (hidden : Party) (hlength : secret'.length = secret.length)
    (hscript : script.length = 2 * secret.length + rest) :
    (script.xor (shift hidden (secret.xor secret') rest)).length = script.length := by
  rw [Bytes.length_xor, length_shift, Bytes.length_xor, hlength, Nat.min_self, hscript,
    Nat.min_self]

/-- Behind the shares the mask is empty. -/
theorem drop_xor_shift (hidden : Party) {difference : Bytes}
    (hscript : script.length = 2 * difference.length + rest) (n : Nat) :
    (script.xor (shift hidden difference rest)).drop (2 * difference.length + n) =
      script.drop (2 * difference.length + n) := by
  have hshares : (shiftAt 0 hidden difference ++ shiftAt 1 hidden difference).length =
      2 * difference.length := by
    rw [List.length_append, length_shiftAt, length_shiftAt, Nat.two_mul]
  have hmask : (shift hidden difference rest).drop (2 * difference.length + n) =
      List.replicate (rest - n) 0 := by
    rw [shift_eq, ← List.drop_drop, List.drop_left' hshares, List.drop_replicate]
  rw [Bytes.drop_xor, hmask, Bytes.xor_replicate_zero]
  rw [List.length_drop]
  omega

/-- The shares on a masked script: each random one is masked with its own part. -/
theorem ofTape_xor_shift (hidden : Party) {difference : Bytes}
    (hdifference : difference.length = secret.length) :
    ofTape secret (script.xor (shift hidden difference rest)) =
      let first := Bytes.xor (script.take secret.length) (shiftAt 0 hidden difference)
      let second :=
        Bytes.xor ((script.drop secret.length).take secret.length) (shiftAt 1 hidden difference)
      ⟨⟨first⟩, ⟨second⟩, ⟨(secret.xor first).xor second⟩⟩ := by
  have hfirst : (shift hidden difference rest).take secret.length =
      shiftAt 0 hidden difference := by
    rw [shift_eq, List.append_assoc,
      List.take_left' ((length_shiftAt _ _ _).trans hdifference)]
  have hsecond : ((shift hidden difference rest).drop secret.length).take secret.length =
      shiftAt 1 hidden difference := by
    rw [shift_eq, List.append_assoc, List.drop_left' ((length_shiftAt _ _ _).trans hdifference),
      List.take_left' ((length_shiftAt _ _ _).trans hdifference)]
  simp only [ofTape, Bytes.take_xor, Bytes.drop_xor, hfirst, hsecond]

/-- The third share stays the same if the mask is on a random one: it makes up for the difference of
the secrets. -/
theorem third_xor_shift {hidden : Party} (hhidden : hidden ≠ 2) {first second : Bytes}
    (hlength : secret'.length = secret.length) (hfirst : first.length ≤ secret.length)
    (hsecond : second.length ≤ secret.length) :
    (secret'.xor (first.xor (shiftAt 0 hidden (secret.xor secret')))).xor
        (second.xor (shiftAt 1 hidden (secret.xor secret'))) =
      (secret.xor first).xor second := by
  have hdifference : (secret.xor secret').length = secret.length := by
    rw [Bytes.length_xor, hlength, Nat.min_self]
  rw [← hdifference] at hfirst hsecond
  match hidden with
  | 0 =>
    rw [xor_shiftAt_of_ne (by decide) hsecond, shiftAt, if_pos rfl,
      Bytes.xor_xor_difference (by omega)]
  | 1 =>
    have hboth : (first.xor second).length ≤ secret'.length := by
      rw [Bytes.length_xor]
      omega
    rw [xor_shiftAt_of_ne (by decide) hfirst, shiftAt, if_pos rfl, Bytes.xor_assoc,
      ← Bytes.xor_assoc first, Bytes.xor_xor_difference hboth, ← Bytes.xor_assoc]
  | 2 => exact absurd rfl hhidden

/-- **The mask changes no share but the one that is not seen.** -/
theorem get_ofTape_xor_shift {hidden party : Party} (hparty : party ≠ hidden)
    (hlength : secret'.length = secret.length) :
    (ofTape secret' (script.xor (shift hidden (secret.xor secret') rest))).get party =
      (ofTape secret script).get party := by
  have hdifference : (secret.xor secret').length = secret.length := by
    rw [Bytes.length_xor, hlength, Nat.min_self]
  have hfirst : (script.take secret.length).length ≤ secret.length := List.length_take_le _ _
  have hsecond : ((script.drop secret.length).take secret.length).length ≤ secret.length :=
    List.length_take_le _ _
  rw [ofTape_xor_shift hidden (hdifference.trans hlength.symm), hlength]
  match party with
  | 0 => exact congrArg Share.mk (xor_shiftAt_of_ne hparty (hdifference.symm ▸ hfirst))
  | 1 => exact congrArg Share.mk (xor_shiftAt_of_ne hparty (hdifference.symm ▸ hsecond))
  | 2 => exact congrArg Share.mk (third_xor_shift hparty.symm hlength hfirst hsecond)

/-- The same shares for another secret, all but the one that is not seen. -/
theorem exists_same_shares (hidden : Party) {deviceKey deviceKey' : Bytes} {mode : SharingMode}
    (hsecret : sharedSecret deviceKey .aesGcm128 mode = .ok secret)
    (hsecret' : sharedSecret deviceKey' .aesGcm128 mode = .ok secret')
    (hscript : script.length = 2 * secret.length + rest) :
    ∃ shares shares',
      ((splitKey Tape.source deviceKey .aesGcm128 mode).run ⟨script⟩).1 = .ok shares ∧
      ((splitKey Tape.source deviceKey' .aesGcm128 mode).run
        ⟨script.xor (shift hidden (secret.xor secret') rest)⟩).1 = .ok shares' ∧
      ∀ party, party ≠ hidden → shares'.get party = shares.get party := by
  have hlength : secret'.length = secret.length := by
    rw [length_of_sharedSecret hsecret, length_of_sharedSecret hsecret']
  have hleft : 2 * secret.length ≤ script.length := by omega
  have hleft' : 2 * secret'.length ≤
      (script.xor (shift hidden (secret.xor secret') rest)).length := by
    rw [length_xor_shift hidden hlength hscript]
    omega
  have hrun := run_splitKey_of_split hsecret (run_split_tape hleft)
  have hrun' := run_splitKey_of_split hsecret' (run_split_tape hleft')
  exact ⟨_, _, congrArg Prod.fst hrun, congrArg Prod.fst hrun',
    fun party hparty => get_ofTape_xor_shift hparty hlength⟩

end Share

/-! ## Two runs of the device -/

namespace Request

variable {blindings : Rsa.Blindings} {request : Request} {keys : PerParty Rsa.PublicKey}
  {deviceKey deviceKey' : Bytes} {secret secret' script : Bytes} {rest : Nat}

/-- The mask reaches no seed. -/
theorem tapeSeed_xor_shift (hidden : Party) (hlength : secret'.length = secret.length)
    (hscript : script.length = 2 * secret.length + rest) (position : Nat) :
    tapeSeed secret' (script.xor (Share.shift hidden (secret.xor secret') rest)) position =
      tapeSeed secret script position := by
  have hdifference : (secret.xor secret').length = secret.length := by
    rw [Bytes.length_xor, hlength, Nat.min_self]
  rw [← hdifference] at hscript
  rw [tapeSeed, tapeBefore, tapeSeed, tapeBefore, hlength, ← hdifference,
    Share.drop_xor_shift hidden hscript]

/-- **The same ciphertexts for another secret**, all but the one that is not seen: share and seed
are the same, and nothing else goes into a ciphertext. -/
theorem exists_same_ciphertexts (hidden : Party)
    (halgorithm : Algorithm.ofIdentifier request.algorithm = .ok .aesGcm128)
    (hsecret : sharedSecret deviceKey .aesGcm128 request.mode = .ok secret)
    (hsecret' : sharedSecret deviceKey' .aesGcm128 request.mode = .ok secret')
    (hfits : ∀ i : Party, Oaep.Fits (keys.get i).length secret.length)
    (hscript : script.length = 2 * secret.length + 3 * digestLength) :
    ∃ ciphertexts ciphertexts',
      ((request.encryptShares (.standard Tape.source blindings) Tape.source deviceKey keys).run
        ⟨script⟩).1 = .ok ciphertexts ∧
      ((request.encryptShares (.standard Tape.source blindings) Tape.source deviceKey' keys).run
        ⟨script.xor (Share.shift hidden (secret.xor secret') (3 * digestLength))⟩).1 =
          .ok ciphertexts' ∧
      ∀ party, party ≠ hidden → ciphertexts'.get party = ciphertexts.get party := by
  have hlength : secret'.length = secret.length := by
    rw [length_of_sharedSecret hsecret, length_of_sharedSecret hsecret']
  have hscript' : (script.xor (Share.shift hidden (secret.xor secret') (3 * digestLength))).length =
      2 * secret'.length + 3 * digestLength := by
    rw [Share.length_xor_shift hidden hlength hscript, hscript, hlength]
  obtain ⟨ciphertexts, hrun, hciphertexts⟩ :=
    exists_run_encryptShares_tape halgorithm hsecret (Nat.le_of_eq hscript.symm) hfits
  obtain ⟨ciphertexts', hrun', hciphertexts'⟩ :=
    exists_run_encryptShares_tape halgorithm hsecret' (Nat.le_of_eq hscript'.symm)
      (hlength ▸ hfits)
  refine ⟨ciphertexts, ciphertexts', by rw [hrun], by rw [hrun'], fun party hparty => ?_⟩
  obtain ⟨seed, hseed, hciphertext⟩ := hciphertexts party
  obtain ⟨seed', hseed', hciphertext'⟩ := hciphertexts' party
  have hsame : seed' = seed := by
    rw [tapeSeed_xor_shift hidden hlength hscript, ← hseed] at hseed'
    exact Subtype.ext hseed'
  rw [hciphertext, hciphertext', hsame, Share.get_ofTape_xor_shift hparty hlength]

/-- For every two positions there is a third one. -/
theorem exists_hidden (i j : Party) : ∃ hidden : Party, i ≠ hidden ∧ j ≠ hidden := by
  revert i j
  decide

/-- What agrees at all positions but one agrees at two others. -/
theorem exists_pair {ε α : Type} {hidden i j : Party} (hi : i ≠ hidden) (hj : j ≠ hidden)
    {outcome outcome' : Except ε (PerParty α)}
    (h : ∃ values values', outcome = .ok values ∧ outcome' = .ok values' ∧
      ∀ party, party ≠ hidden → values'.get party = values.get party) :
    ∃ pair, outcome.map (fun values => (values.get i, values.get j)) = .ok pair ∧
      outcome'.map (fun values => (values.get i, values.get j)) = .ok pair := by
  obtain ⟨values, values', rfl, rfl, hsame⟩ := h
  refine ⟨(values.get i, values.get j), rfl, ?_⟩
  rw [Except.map, hsame i hi, hsame j hj]

/-- **Two ciphertexts are independent of the device key.** For any two device keys there is a
bijection of the scripts of random bytes under which the ciphertexts at two positions are the same,
byte for byte, and so are the shares in them. So over uniform scripts two ciphertexts are jointly
distributed in the same way for all device keys, and so are two shares. -/
theorem pair_independent_of_key (blindings : Rsa.Blindings) (request : Request)
    (keys : PerParty Rsa.PublicKey) (halgorithm : request.algorithm = "AES-GCM-128")
    (hroom : ∀ i : Party, request.mode.shareLength + 66 ≤ (keys.get i).length)
    (deviceKey deviceKey' : SizedBytes 16) (i j : Party) :
    let Script := SizedBytes (2 * request.mode.shareLength + 96)
    let ciphertexts (key : SizedBytes 16) (script : Script) :
        Except ProtocolError (Bytes × Bytes) :=
      ((request.encryptShares (.standard Tape.source blindings) Tape.source key.val keys).run
        ⟨script.val⟩).1.map fun c => (c.get i, c.get j)
    let shares (key : SizedBytes 16) (script : Script) : Except ProtocolError (Share × Share) :=
      ((Share.splitKey Tape.source key.val .aesGcm128 request.mode).run
        ⟨script.val⟩).1.map fun s => (s.get i, s.get j)
    (∃ f : Script → Script, Function.Bijective f ∧ ∀ script,
      (∃ pair, ciphertexts deviceKey script = .ok pair ∧
        ciphertexts deviceKey' (f script) = .ok pair) ∧
      ∃ pair, shares deviceKey script = .ok pair ∧ shares deviceKey' (f script) = .ok pair) ∧
    (PMF.uniformOfFintype Script).map (ciphertexts deviceKey) =
      (PMF.uniformOfFintype Script).map (ciphertexts deviceKey') ∧
    (PMF.uniformOfFintype Script).map (shares deviceKey) =
      (PMF.uniformOfFintype Script).map (shares deviceKey') := by
  intro Script ciphertexts shares
  have hidentifier : Algorithm.ofIdentifier request.algorithm = .ok .aesGcm128 := if_pos halgorithm
  have hkey : deviceKey.val.length = Algorithm.aesGcm128.keyLength := deviceKey.property
  have hkey' : deviceKey'.val.length = Algorithm.aesGcm128.keyLength := deviceKey'.property
  obtain ⟨secret, hsecret⟩ := exists_sharedSecret hkey request.mode
  obtain ⟨secret', hsecret'⟩ := exists_sharedSecret hkey' request.mode
  have hlength : secret.length = request.mode.shareLength := length_of_sharedSecret hsecret
  have hlength' : secret'.length = request.mode.shareLength := length_of_sharedSecret hsecret'
  obtain ⟨hidden, hi, hj⟩ := exists_hidden i j
  have hmask : (Share.shift hidden (secret.xor secret') (3 * digestLength)).length =
      2 * request.mode.shareLength + 96 := by
    rw [Share.length_shift, Bytes.length_xor, hlength, hlength', Nat.min_self, digestLength]
  generalize hf : SizedBytes.xor ⟨_, hmask⟩ = f
  have hbijective : Function.Bijective f := hf ▸ SizedBytes.bijective_xor _
  have hval : ∀ script, (f script).val =
      script.val.xor (Share.shift hidden (secret.xor secret') (3 * digestLength)) :=
    fun script => hf ▸ rfl
  have hscript : ∀ script : Script, script.val.length = 2 * secret.length + 3 * digestLength := by
    intro script
    rw [script.property, hlength, digestLength]
  have hciphertexts : ∀ script, ∃ pair, ciphertexts deviceKey script = .ok pair ∧
      ciphertexts deviceKey' (f script) = .ok pair := by
    intro script
    refine exists_pair hi hj ?_
    rw [hval]
    exact exists_same_ciphertexts hidden hidentifier hsecret hsecret' (hlength ▸ hroom)
      (hscript script)
  have hshares : ∀ script, ∃ pair, shares deviceKey script = .ok pair ∧
      shares deviceKey' (f script) = .ok pair := by
    intro script
    refine exists_pair hi hj ?_
    rw [hval]
    exact Share.exists_same_shares hidden hsecret hsecret' (hscript script)
  refine ⟨⟨f, hbijective, fun script => ⟨hciphertexts script, hshares script⟩⟩, ?_, ?_⟩
  · refine map_uniform_eq_of_bijective hbijective fun script => ?_
    obtain ⟨pair, hpair, hpair'⟩ := hciphertexts script
    rw [hpair, hpair']
  · refine map_uniform_eq_of_bijective hbijective fun script => ?_
    obtain ⟨pair, hpair, hpair'⟩ := hshares script
    rw [hpair, hpair']

/-- The first and the third ciphertext for two keys, each the same byte in all places. -/
theorem pair_independent_of_key_certified :
    ∃ f : SizedBytes 128 → SizedBytes 128, Function.Bijective f ∧ ∀ script, ∃ first third,
      (((encryptShares (.standard Tape.source) Tape.source
        ⟨"user", "Heartbeat", "AES-GCM-128", .indices [0, 60], .rawKey⟩ (List.replicate 16 7)
        (PerParty.ofParty fun _ => Rsa.PrivateKey.certified.publicKey)).run
          ⟨script.val⟩).1.map fun c => (c.get 0, c.get 2)) = .ok (first, third) ∧
      (((encryptShares (.standard Tape.source) Tape.source
        ⟨"user", "Heartbeat", "AES-GCM-128", .indices [0, 60], .rawKey⟩ (List.replicate 16 8)
        (PerParty.ofParty fun _ => Rsa.PrivateKey.certified.publicKey)).run
          ⟨(f script).val⟩).1.map fun c => (c.get 0, c.get 2)) = .ok (first, third) := by
  have hroom : ∀ i : Party, SharingMode.rawKey.shareLength + 66 ≤
      ((PerParty.ofParty fun _ => Rsa.PrivateKey.certified.publicKey).get i).length := by
    intro i
    rw [PerParty.get_ofParty, Rsa.PrivateKey.length_certified]
    decide
  obtain ⟨⟨f, hbijective, hsame⟩, -⟩ := pair_independent_of_key .two
    ⟨"user", "Heartbeat", "AES-GCM-128", .indices [0, 60], .rawKey⟩ _ rfl hroom
    ⟨List.replicate 16 7, rfl⟩ ⟨List.replicate 16 8, rfl⟩ 0 2
  refine ⟨f, hbijective, fun script => ?_⟩
  obtain ⟨⟨pair, hpair, hpair'⟩, -⟩ := hsame script
  exact ⟨pair.1, pair.2, hpair, hpair'⟩

end Request

end KeySharing
