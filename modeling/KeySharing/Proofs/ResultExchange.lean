import KeySharing.Completion
import KeySharing.Proofs.RequestExchange

/-!
# What a device asks for when it opens a result

To open a result, a device has its key imported, the three keys of the parties exported, the context
of the computation digested and the blob opened. Its provider may answer whatever it likes, and each
of the six calls can fail. What one call is made with comes from the answers to the ones before it,
so the dialogue says all there is to say about the data flow: the exported keys make up the context,
the context is digested and is the associated data, and the digest gives the nonce.

A wrong tag keeps an error of its own on the way out, and no other failure is taken for it.

- `Completion.dialogue`, `Completion.openResult_eq_hold`: the dialogue, which the device holds. It
  has calls only, so no random source has a say in it.
- `Completion.exchange`, `Completion.NextCall`: the six replies of a complete exchange, and the call
  that comes after the first few of them.
- `ProtocolError.ofCrypto_eq_iff`: under which error a failed call shows.
- `Completion.openResult_fails_closed`: what every run does.
-/

namespace KeySharing

open Dialogue (Asks Reaches recorded)
open ProviderDialogue (asks_call call reaches_call)

variable {σ PublicKey PrivateKey SecretKey : Type}

/-! ## How failed calls show -/

/-- A wrong tag shows as the error of its own, and any other failure as a failed primitive. -/
theorem ProtocolError.ofCrypto_eq_iff {cause : CryptoError} {e : ProtocolError} :
    e = ofCrypto cause ↔ cause = .authenticationFailed ∧ e = .authenticationFailed ∨
      cause ≠ .authenticationFailed ∧ e = .crypto cause := by
  cases cause with
  | authenticationFailed => simp [ofCrypto]
  | _ => simp [ofCrypto]

/-! ## Replies to calls -/

/-- A call with its answer. -/
abbrev CallReply (PublicKey PrivateKey SecretKey : Type) : Type :=
  Reply (@Call.Answer PublicKey PrivateKey SecretKey)

/-- A call with its answer, as an event of a dialogue. -/
def ProviderReply.ofCall (reply : CallReply PublicKey PrivateKey SecretKey) :
    ProviderReply PublicKey PrivateKey SecretKey :=
  .call reply.event reply.answer

/-- The log that some calls leave. -/
def callLog (replies : List (CallReply PublicKey PrivateKey SecretKey)) :
    List (Event PublicKey PrivateKey SecretKey) :=
  replies.map fun reply => .call reply.event

theorem map_event_ofCall (replies : List (CallReply PublicKey PrivateKey SecretKey)) :
    (replies.map ProviderReply.ofCall).map Reply.event = callLog replies := List.map_map

/-- Calls are performed by the provider alone. -/
theorem performed_ofCall_iff {provider : Provider σ PublicKey PrivateKey SecretKey}
    {random : RandomSource σ} {replies : List (CallReply PublicKey PrivateKey SecretKey)}
    {s s' : σ} :
    Performed (Event.perform provider random) (replies.map ProviderReply.ofCall) s s' ↔
      Performed (Call.perform provider) replies s s' := by
  constructor
  · intro h
    induction replies generalizing s with
    | nil =>
      cases h
      exact .nil _
    | cons reply replies ih =>
      cases h with
      | cons first rest => exact .cons first (ih rest)
  · intro h
    induction h with
    | nil s => exact .nil s
    | cons first _ ih => exact .cons first ih

/-- The kinds of the calls among some events, and where there is no call. -/
def callKinds (events : List (Event PublicKey PrivateKey SecretKey)) : List (Option Call.Kind) :=
  events.map fun event => event.call?.map Call.kind

namespace Completion

/-- The kinds of the calls that open a result. -/
def openKinds : List (Option Call.Kind) :=
  [some .importKey, some .exportKey, some .exportKey, some .exportKey, some .digest, some .openText]

/-! ## The dialogue -/

section
variable (completion : Completion) (deviceKey : Bytes) (keys : PerParty PublicKey) (blob : Bytes)

/-- The call that opens the blob, with what the calls before it have answered. The nonce is the
first twelve bytes of the digest. -/
abbrev opening (key : SecretKey) (exported : Recipients) (digest : Digest) :
    Call PublicKey PrivateKey SecretKey :=
  .openText key ⟨digest.val.take 12, by rw [List.length_take, digest.property]; rfl⟩
    (completion.context exported).bytes blob

/-- What is asked for to open a result. -/
def dialogue : ProviderDialogue PublicKey PrivateKey SecretKey Bytes := do
  let key ← call (.importKey deviceKey)
  let exported ← Recipients.dialogue keys
  let digest ← call (.digest (completion.context exported).bytes)
  call (completion.opening blob key exported digest)

/-- The replies of the three exports. -/
def exports (exported : Recipients) : List (CallReply PublicKey PrivateKey SecretKey) :=
  [⟨.exportKey keys.first, exported.first⟩, ⟨.exportKey keys.second, exported.second⟩,
    ⟨.exportKey keys.third, exported.third⟩]

/-- The replies before the blob is opened: an import, three exports, a digest. -/
def preparation (key : SecretKey) (exported : Recipients) (digest : Digest) :
    List (CallReply PublicKey PrivateKey SecretKey) :=
  ⟨.importKey deviceKey, key⟩ :: (exports keys exported ++
    [⟨.digest (completion.context exported).bytes, digest⟩])

/-- All six replies. -/
def exchange (key : SecretKey) (exported : Recipients) (digest : Digest) (text : Bytes) :
    List (CallReply PublicKey PrivateKey SecretKey) :=
  completion.preparation deviceKey keys key exported digest ++
    [⟨completion.opening blob key exported digest, text⟩]

/-- The replies so far and the call that comes next. -/
inductive NextCall : List (CallReply PublicKey PrivateKey SecretKey) →
    Call PublicKey PrivateKey SecretKey → Prop
  | importKey : NextCall [] (.importKey deviceKey)
  | exportKey (key : SecretKey) (exported : Recipients) (party : Party) :
      NextCall (⟨.importKey deviceKey, key⟩ :: (exports keys exported).take party)
        (.exportKey (keys.get party))
  | digest (key : SecretKey) (exported : Recipients) :
      NextCall (⟨.importKey deviceKey, key⟩ :: exports keys exported)
        (.digest (completion.context exported).bytes)
  | openText (key : SecretKey) (exported : Recipients) (digest : Digest) :
      NextCall (completion.preparation deviceKey keys key exported digest)
        (completion.opening blob key exported digest)

end

theorem map_ofCall_exports (keys : PerParty PublicKey) (exported : Recipients) :
    (exports keys exported : List (CallReply PublicKey PrivateKey SecretKey)).map
      ProviderReply.ofCall = Recipients.exchange keys exported := rfl

section
variable {completion : Completion} {deviceKey : Bytes} {keys : PerParty PublicKey} {blob : Bytes}
  {replies : List (ProviderReply PublicKey PrivateKey SecretKey)}

theorem asks_dialogue_iff {text : Bytes} :
    Asks (completion.dialogue deviceKey keys blob) replies text ↔ ∃ key exported digest,
      replies = (completion.exchange deviceKey keys blob key exported digest text).map
        ProviderReply.ofCall := by
  constructor
  · intro hasks
    rw [dialogue, Dialogue.asks_bind_iff] at hasks
    obtain ⟨key, _, _, rfl, hkey, hasks⟩ := hasks
    obtain ⟨exported, _, _, rfl, hexported, hasks⟩ := Dialogue.asks_bind_iff.mp hasks
    obtain ⟨digest, _, _, rfl, hdigest, hopen⟩ := Dialogue.asks_bind_iff.mp hasks
    rw [Dialogue.asks_single_iff.mp hkey, Recipients.asks_dialogue_iff.mp hexported,
      Dialogue.asks_single_iff.mp hdigest, Dialogue.asks_single_iff.mp hopen]
    exact ⟨key, exported, digest, rfl⟩
  · rintro ⟨key, exported, digest, rfl⟩
    refine Dialogue.asks_bind_iff.mpr ⟨key, [_], _, rfl, Dialogue.asks_single_iff.mpr rfl, ?_⟩
    refine Dialogue.asks_bind_iff.mpr
      ⟨exported, _, _, rfl, Recipients.asks_dialogue_iff.mpr rfl, ?_⟩
    refine Dialogue.asks_bind_iff.mpr ⟨digest, [_], _, rfl, Dialogue.asks_single_iff.mpr rfl, ?_⟩
    exact Dialogue.asks_single_iff.mpr rfl

theorem reaches_dialogue_iff {event : Event PublicKey PrivateKey SecretKey} :
    Reaches (completion.dialogue deviceKey keys blob) replies event ↔
      ∃ before c, replies = before.map ProviderReply.ofCall ∧ event = .call c ∧
        NextCall completion deviceKey keys blob before c := by
  constructor
  · intro hreaches
    rw [dialogue, Dialogue.reaches_bind_iff] at hreaches
    obtain himport | ⟨key, _, _, rfl, hkey, hreaches₁⟩ := hreaches
    · obtain ⟨rfl, rfl⟩ := Dialogue.reaches_single_iff.mp himport
      exact ⟨[], _, rfl, rfl, .importKey⟩
    obtain rfl := Dialogue.asks_single_iff.mp hkey
    obtain hexport | ⟨exported, _, _, rfl, hexported, hreaches₂⟩ :=
      Dialogue.reaches_bind_iff.mp hreaches₁
    · obtain ⟨party, exported, rfl, rfl⟩ := Recipients.reaches_dialogue_iff.mp hexport
      refine ⟨_, _, ?_, rfl, .exportKey key exported party⟩
      rw [List.map_cons, List.map_take]
      rfl
    obtain rfl := Recipients.asks_dialogue_iff.mp hexported
    obtain hdigest | ⟨digest, _, _, rfl, hanswered, hreaches₃⟩ :=
      Dialogue.reaches_bind_iff.mp hreaches₂
    · obtain ⟨rfl, rfl⟩ := Dialogue.reaches_single_iff.mp hdigest
      rw [List.append_nil]
      exact ⟨_, _, rfl, rfl, .digest key exported⟩
    obtain rfl := Dialogue.asks_single_iff.mp hanswered
    obtain ⟨rfl, rfl⟩ := Dialogue.reaches_single_iff.mp hreaches₃
    rw [List.append_nil]
    exact ⟨_, _, rfl, rfl, .openText key exported digest⟩
  · rintro ⟨before, c, rfl, rfl, hnext⟩
    cases hnext with
    | importKey => exact (reaches_call _).bind_left _
    | exportKey key exported party =>
      rw [List.map_cons, List.map_take]
      refine (asks_call (.importKey deviceKey) key).reaches_bind (Dialogue.Reaches.bind_left ?_ _)
      exact Recipients.reaches_dialogue_iff.mpr ⟨party, exported, rfl, rfl⟩
    | digest key exported =>
      rw [List.map_cons, map_ofCall_exports, ← List.append_nil (Recipients.exchange keys exported)]
      refine (asks_call (.importKey deviceKey) key).reaches_bind ?_
      refine (Recipients.asks_dialogue_iff.mpr rfl).reaches_bind ?_
      exact (reaches_call _).bind_left _
    | openText key exported digest =>
      refine (asks_call (.importKey deviceKey) key).reaches_bind ?_
      refine (Recipients.asks_dialogue_iff.mpr rfl).reaches_bind ?_
      exact (asks_call (.digest _) digest).reaches_bind (reaches_call _)

end

/-- The calls so far and the one that comes next are among the six, in their order. -/
theorem prefix_of_nextCall {completion : Completion} {deviceKey : Bytes} {keys : PerParty PublicKey}
    {blob : Bytes} {replies : List (CallReply PublicKey PrivateKey SecretKey)}
    {c : Call PublicKey PrivateKey SecretKey}
    (h : NextCall completion deviceKey keys blob replies c) :
    callKinds (callLog replies ++ [.call c]) <+: openKinds := by
  cases h with
  | importKey => exact ⟨_, rfl⟩
  | exportKey key exported party =>
    match party with
    | 0 => exact ⟨_, rfl⟩
    | 1 => exact ⟨_, rfl⟩
    | 2 => exact ⟨_, rfl⟩
  | digest key exported => exact ⟨_, rfl⟩
  | openText key exported digest => exact ⟨_, rfl⟩

/-! ## Holding the dialogue -/

/-- A random source that has nothing to give. -/
def noRandom : RandomSource σ := ⟨fun _ => throw (.randomFailed "no source")⟩

section
variable (provider : Provider σ PublicKey PrivateKey SecretKey) (completion : Completion)
  (deviceKey : Bytes) (keys : PerParty PublicKey) {blob : Bytes}

/-- A blob without room for a tag is refused before anything is asked for. -/
theorem run_openResult_of_lt (h : blob.length < tagLength) (state : σ) :
    (completion.openResult provider deviceKey keys blob).run state =
      (.error (.malformedInput (.resultTooShort blob.length tagLength)), state) := by
  rw [openResult, if_pos h, Action.run_throw]

/-- Any other blob starts the dialogue. There is no draw in it, so no random source is needed. -/
theorem openResult_eq_hold (h : tagLength ≤ blob.length) :
    completion.openResult provider deviceKey keys blob =
      (completion.dialogue deviceKey keys blob).hold (Event.perform provider noRandom)
        .ofCrypto := by
  rw [openResult, if_neg (Nat.not_lt.mpr h)]
  simp only [dialogue, Dialogue.hold_bind, Dialogue.hold_single, parameters, Context.deriveNonce,
    Recipients.export_eq_hold provider noRandom, Action.mapError_bind, bind_assoc]
  rfl

theorem openResult_recorded_eq_hold (h : tagLength ≤ blob.length) :
    completion.openResult provider.recorded deviceKey keys blob =
      (completion.dialogue deviceKey keys blob).hold (recorded (Event.perform provider noRandom))
        .ofCrypto := by
  rw [← Event.perform_recorded]
  exact openResult_eq_hold provider.recorded completion deviceKey keys h

/-- The log changes nothing about the opening of a result. -/
theorem run_openResult_eq (blob : Bytes) (state : σ) :
    let run := (completion.openResult provider.recorded deviceKey keys blob).run ⟨state, []⟩
    (completion.openResult provider deviceKey keys blob).run state = (run.1, run.2.state) := by
  intro run
  rcases Nat.lt_or_ge blob.length tagLength with hshort | henough
  · have hrun : run = _ := run_openResult_of_lt provider.recorded completion deviceKey keys hshort _
    rw [hrun, run_openResult_of_lt provider completion deviceKey keys hshort]
  · have hrun : run = ((completion.dialogue deviceKey keys blob).hold
        (recorded (Event.perform provider noRandom)) .ofCrypto).run ⟨state, []⟩ := by
      rw [← openResult_recorded_eq_hold _ _ _ _ henough]
    rw [hrun, openResult_eq_hold provider completion deviceKey keys henough]
    exact Dialogue.run_hold_recorded _ state []

end

/-! ## What every run does -/

section
variable {provider : Provider σ PublicKey PrivateKey SecretKey} {completion : Completion}
  {deviceKey : Bytes} {keys : PerParty PublicKey} {blob : Bytes} {state : σ}
  {record : Recorded σ (Event PublicKey PrivateKey SecretKey)}

/-- A result opens exactly if all six calls are answered, and it is the answer to the last one. -/
theorem run_openResult_recorded_eq_ok_iff {text : Bytes} (h : tagLength ≤ blob.length) :
    (completion.openResult provider.recorded deviceKey keys blob).run ⟨state, []⟩ =
        (.ok text, record) ↔
      ∃ key exported digest last,
        Performed (Call.perform provider)
          (completion.exchange deviceKey keys blob key exported digest text) state last ∧
        record =
          ⟨last, callLog (completion.exchange deviceKey keys blob key exported digest text)⟩ := by
  rw [openResult_recorded_eq_hold provider completion deviceKey keys h,
    Dialogue.run_hold_eq_ok_iff]
  constructor
  · rintro ⟨replies, last, hasks, hperformed, rfl⟩
    obtain ⟨key, exported, digest, rfl⟩ := asks_dialogue_iff.mp hasks
    exact ⟨key, exported, digest, last, performed_ofCall_iff.mp hperformed, rfl⟩
  · rintro ⟨key, exported, digest, last, hperformed, rfl⟩
    exact ⟨_, last, asks_dialogue_iff.mpr ⟨key, exported, digest, rfl⟩,
      performed_ofCall_iff.mpr hperformed, rfl⟩

/-- It fails exactly if one of the calls fails after answers to all those before it. -/
theorem run_openResult_recorded_eq_error_iff {e : ProtocolError} (h : tagLength ≤ blob.length) :
    (completion.openResult provider.recorded deviceKey keys blob).run ⟨state, []⟩ =
        (.error e, record) ↔
      ∃ replies c s cause last, NextCall completion deviceKey keys blob replies c ∧
        Performed (Call.perform provider) replies state s ∧
        (c.perform provider).run s = (.error cause, last) ∧
        (cause = .authenticationFailed ∧ e = .authenticationFailed ∨
          cause ≠ .authenticationFailed ∧ e = .crypto cause) ∧
        record = ⟨last, callLog replies ++ [.call c]⟩ := by
  rw [openResult_recorded_eq_hold provider completion deviceKey keys h,
    Dialogue.run_hold_eq_error_iff_reaches]
  constructor
  · rintro ⟨replies, event, s, cause, last, hreaches, hperformed, hfails, he, rfl⟩
    obtain ⟨before, c, rfl, rfl, hnext⟩ := reaches_dialogue_iff.mp hreaches
    exact ⟨before, c, s, cause, last, hnext, performed_ofCall_iff.mp hperformed, hfails,
      ProtocolError.ofCrypto_eq_iff.mp he, by rw [map_event_ofCall]; rfl⟩
  · rintro ⟨before, c, s, cause, last, hnext, hperformed, hfails, he, rfl⟩
    refine ⟨before.map ProviderReply.ofCall, .call c, s, cause, last,
      reaches_dialogue_iff.mpr ⟨before, c, rfl, rfl, hnext⟩, performed_ofCall_iff.mpr hperformed,
      hfails, ProtocolError.ofCrypto_eq_iff.mpr he, ?_⟩
    rw [map_event_ofCall]
    rfl

end

/-- **Opening a result fails closed.** A blob without room for a tag is malformed, and nothing is
asked for. Otherwise the device has its key imported, three keys exported, the context digested and
the blob opened under the first twelve bytes of the digest, in this order. The result opens exactly
if all six calls are answered, and it is the answer to the last one. The first call that fails is
the last one made. It shows as not authentic if this is what it reported, and under its own error
otherwise, so a wrong tag never shows as a failed primitive. -/
theorem openResult_fails_closed (provider : Provider σ PublicKey PrivateKey SecretKey)
    (completion : Completion) (deviceKey : Bytes) (keys : PerParty PublicKey) (blob : Bytes)
    (state : σ) :
    let run := (completion.openResult provider.recorded deviceKey keys blob).run ⟨state, []⟩
    (completion.openResult provider deviceKey keys blob).run state = (run.1, run.2.state) ∧
    (blob.length < 16 →
      run = (.error (.malformedInput (.resultTooShort blob.length 16)), ⟨state, []⟩)) ∧
    callKinds run.2.events <+:
      [some .importKey, some .exportKey, some .exportKey, some .exportKey, some .digest,
        some .openText] ∧
    (16 ≤ blob.length →
      (∀ text record, run = (.ok text, record) ↔
        ∃ key exported digest last,
          Performed (Call.perform provider)
            (completion.exchange deviceKey keys blob key exported digest text) state last ∧
          record =
            ⟨last, callLog (completion.exchange deviceKey keys blob key exported digest text)⟩) ∧
      (∀ e record, run = (.error e, record) ↔
        ∃ replies c s cause last, NextCall completion deviceKey keys blob replies c ∧
          Performed (Call.perform provider) replies state s ∧
          (c.perform provider).run s = (.error cause, last) ∧
          (cause = .authenticationFailed ∧ e = .authenticationFailed ∨
            cause ≠ .authenticationFailed ∧ e = .crypto cause) ∧
          record = ⟨last, callLog replies ++ [.call c]⟩)) ∧
    run.1 ≠ .error (.crypto .authenticationFailed) := by
  intro run
  refine ⟨run_openResult_eq provider completion deviceKey keys blob state,
    fun h => run_openResult_of_lt provider.recorded completion deviceKey keys h _, ?_,
    fun h => ⟨fun _ _ => run_openResult_recorded_eq_ok_iff h,
      fun _ _ => run_openResult_recorded_eq_error_iff h⟩, ?_⟩
  -- the order of the calls
  · rcases Nat.lt_or_ge blob.length tagLength with hshort | henough
    · have hrun : run = _ :=
        run_openResult_of_lt provider.recorded completion deviceKey keys hshort _
      rw [hrun]
      exact List.nil_prefix
    rcases hrun : run with ⟨outcome, record⟩
    cases outcome with
    | ok text =>
      obtain ⟨key, exported, digest, last, -, rfl⟩ :=
        (run_openResult_recorded_eq_ok_iff henough).mp hrun
      exact List.prefix_rfl
    | error e =>
      obtain ⟨replies, c, s, cause, last, hnext, -, -, -, rfl⟩ :=
        (run_openResult_recorded_eq_error_iff henough).mp hrun
      exact prefix_of_nextCall hnext
  -- a wrong tag has an error of its own
  · intro hcrypto
    rcases Nat.lt_or_ge blob.length tagLength with hshort | henough
    · have hrun : run = _ :=
        run_openResult_of_lt provider.recorded completion deviceKey keys hshort _
      rw [hrun] at hcrypto
      cases hcrypto
    · obtain ⟨replies, c, s, cause, last, -, -, -, ⟨-, he⟩ | ⟨hcause, he⟩, -⟩ :=
        (run_openResult_recorded_eq_error_iff henough).mp (Prod.ext hcrypto rfl)
      · cases he
      · cases he
        exact hcause rfl

/-- A provider that cannot export one of the keys, one that does not know the device key, and one
that puts the nonce it is called with in front of the text. -/
theorem openResult_fails_closed_certified :
    let provider : Provider Unit Nat Unit Bytes :=
      { exportKey := fun key => if key = 1 then throw (.keyExportFailed "lost") else pure []
        importKey := fun raw => pure raw
        encrypt := fun _ _ _ => pure []
        decrypt := fun _ _ _ => pure []
        digest := fun _ => pure ⟨(List.range 32).map UInt8.ofNat, rfl⟩
        sealText := fun _ _ _ _ => pure []
        openText := fun key nonce _ blob =>
          if key = [7] then pure (nonce.val ++ blob) else throw .authenticationFailed }
    let completion : Completion := ⟨"", "run", ""⟩
    let opened (deviceKey : Bytes) (keys : PerParty Nat) (length : Nat) :=
      (completion.openResult provider.recorded deviceKey keys
        (List.replicate length 0)).run ⟨(), []⟩
    opened [7] ⟨0, 1, 2⟩ 15 = (.error (.malformedInput (.resultTooShort 15 16)), ⟨(), []⟩) ∧
    opened [7] ⟨0, 1, 2⟩ 16 = (.error (.crypto (.keyExportFailed "lost")),
      ⟨(), [.call (.importKey [7]), .call (.exportKey 0), .call (.exportKey 1)]⟩) ∧
    (opened [8] ⟨0, 2, 4⟩ 16).1 = .error .authenticationFailed ∧
    (opened [7] ⟨0, 2, 4⟩ 16).1 =
      .ok ([0, 1, 2, 3, 4, 5, 6, 7, 8, 9, 10, 11] ++ List.replicate 16 0) := by
  intro provider completion opened
  have hrun := fun deviceKey keys length =>
    openResult_fails_closed provider completion deviceKey keys (List.replicate length 0) ()
  refine ⟨(hrun [7] ⟨0, 1, 2⟩ 15).2.1 (by decide), ?_, ?_, ?_⟩
  · exact (((hrun [7] ⟨0, 1, 2⟩ 16).2.2.2.1 (by decide)).2 _ _).mpr
      ⟨_, _, (), _, (), .exportKey [7] (PerParty.ofParty fun _ => []) 1,
        .cons rfl (.cons rfl (.nil ())), rfl, .inr ⟨nofun, rfl⟩, rfl⟩
  · exact congrArg Prod.fst ((((hrun [8] ⟨0, 2, 4⟩ 16).2.2.2.1 (by decide)).2 _ _).mpr
      ⟨_, _, (), _, (),
        .openText [8] (PerParty.ofParty fun _ => []) ⟨(List.range 32).map UInt8.ofNat, rfl⟩,
        .cons rfl (.cons rfl (.cons rfl (.cons rfl (.cons rfl (.nil ()))))),
        rfl, .inl ⟨rfl, rfl⟩, rfl⟩)
  · exact congrArg Prod.fst ((((hrun [7] ⟨0, 2, 4⟩ 16).2.2.2.1 (by decide)).1 _ _).mpr
      ⟨[7], PerParty.ofParty fun _ => [], ⟨(List.range 32).map UInt8.ofNat, rfl⟩, (),
        .cons rfl (.cons rfl (.cons rfl (.cons rfl (.cons rfl (.cons rfl (.nil ())))))), rfl⟩)

end Completion

end KeySharing
