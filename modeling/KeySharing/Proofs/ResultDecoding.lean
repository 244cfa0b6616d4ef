import KeySharing.Fhe.Result
import KeySharing.Proofs.Dialogue

/-!
# Decoding of encrypted results

A decode asks its backend for four things in a row, and each of them can fail. Before the first one
the texts have to stand for bytes, and after the last one there have to be enough finite
coefficients. On every one of these ways out the backend is released, once and after everything
else, so along any number of decodes there are as many releases as decodes.

- `SerializedResult.Denote`, `SerializedResult.undecodable?`: the bytes that the texts stand for,
  and the first part that stands for none.
- `SerializedResult.dialogue`, `SerializedResult.exchange`, `SerializedResult.NextCall`: what a
  decode asks for, its four replies, and the call that comes after the first few of them.
- `SerializedResult.Answered`, `SerializedResult.CutShort`: the four calls are answered, or one of
  them fails.
- `SerializedResult.run_decode_eq_ok_iff`, `SerializedResult.run_decode_eq_error_iff`: every way in
  which a decode ends, with the log it leaves.
- `SerializedResult.decode_releases_once`: one release for each decode, along every run.
-/

namespace KeySharing

namespace Fhe

open Dialogue (Asks Reaches)

variable {σ CryptoContext Ciphertext SecretKey : Type}

/-! ## The texts -/

/-- A text stands for some bytes. -/
def Format.Denotes : Format → String → Bytes → Prop
  | .binary, text, bytes => Base64.decodeUrl text = some bytes
  | .json, text, bytes => bytes = Bytes.ofText text

theorem decodePart_binary (part : ResultPart) (text : String) :
    decodePart part .binary text =
      match Base64.decodeUrl text with
      | some bytes => .ok bytes
      | none => .error (.malformedInput (.undecodable part)) := by
  rw [decodePart, Base64.readUrl]
  cases Base64.decodeUrl text with
  | some bytes => rfl
  | none => rfl

theorem decodePart_of_denotes {part : ResultPart} {format : Format} {text : String} {bytes : Bytes}
    (h : format.Denotes text bytes) : decodePart part format text = .ok bytes := by
  cases format with
  | json => rw [decodePart, ← show bytes = Bytes.ofText text from h]
  | binary => rw [decodePart_binary, show Base64.decodeUrl text = some bytes from h]

namespace SerializedResult

/-- The text of a part. -/
def text (texts : SerializedResult) : ResultPart → String
  | .cryptoContext => texts.cryptoContext
  | .ciphertext => texts.ciphertext
  | .secretKey => texts.secretKey

/-- The texts stand for some bytes. -/
def Denote (texts : SerializedResult) (format : Format) (bytes : ResultPart → Bytes) : Prop :=
  ∀ part, format.Denotes (texts.text part) (bytes part)

/-- The first part whose text stands for no bytes. -/
def undecodable? (texts : SerializedResult) : Format → Option ResultPart
  | .binary => [ResultPart.cryptoContext, .ciphertext, .secretKey].find? fun part =>
      (Base64.decodeUrl (texts.text part)).isNone
  | .json => none

/-- The texts stand for bytes exactly if there is no first one that does not. -/
theorem undecodable?_eq_none_iff {texts : SerializedResult} {format : Format} :
    texts.undecodable? format = none ↔ ∃ bytes, texts.Denote format bytes := by
  cases format with
  | json =>
    constructor
    · exact fun _ => ⟨fun part => Bytes.ofText (texts.text part), fun _ => rfl⟩
    · exact fun _ => rfl
  | binary =>
    constructor
    · intro h
      have hsome : ∀ part, ∃ bytes, Base64.decodeUrl (texts.text part) = some bytes := by
        intro part
        have hmem : part ∈ [ResultPart.cryptoContext, .ciphertext, .secretKey] := by
          cases part <;> decide
        have hdecodes := List.find?_eq_none.mp h part hmem
        rw [Option.isNone_iff_eq_none] at hdecodes
        exact Option.ne_none_iff_exists'.mp hdecodes
      exact Classical.skolem.mp hsome
    · rintro ⟨bytes, hdenote⟩
      refine List.find?_eq_none.mpr fun part _ => ?_
      rw [show Base64.decodeUrl (texts.text part) = some (bytes part) from hdenote part]
      exact Bool.false_ne_true

end SerializedResult

/-! ## The coefficients -/

theorem selectCoefficients_eq_ok_iff {values coefficients : List Float} :
    selectCoefficients values = .ok coefficients ↔ outputLength ≤ values.length ∧
      (∀ v ∈ values.take outputLength, v.isFinite) ∧ coefficients = values.take outputLength := by
  rw [selectCoefficients]
  split
  · rename_i hfew
    constructor
    · rintro ⟨⟩
    · rintro ⟨henough, -⟩
      exact absurd hfew (Nat.not_lt.mpr henough)
  · rename_i henough
    rw [and_iff_right (Nat.le_of_not_lt henough)]
    split
    · rename_i hfinite
      rw [and_iff_right (List.all_eq_true.mp hfinite), Except.ok.injEq, eq_comm]
    · rename_i hfinite
      constructor
      · rintro ⟨⟩
      · rintro ⟨hall, -⟩
        exact absurd (List.all_eq_true.mpr hall) hfinite

theorem selectCoefficients_eq_error_iff {values : List Float} {e : ProtocolError} :
    selectCoefficients values = .error e ↔
      values.length < outputLength ∧
          e = .malformedInput (.tooFewCoefficients values.length outputLength) ∨
        outputLength ≤ values.length ∧ (∃ v ∈ values.take outputLength, ¬ v.isFinite) ∧
          e = .malformedInput .notFinite := by
  rw [selectCoefficients]
  split
  · rename_i hfew
    rw [and_iff_right hfew, Except.error.injEq, eq_comm, or_iff_left]
    rintro ⟨henough, -⟩
    exact absurd hfew (Nat.not_lt.mpr henough)
  · rename_i henough
    rw [or_iff_right fun h => henough h.1, and_iff_right (Nat.le_of_not_lt henough)]
    split
    · rename_i hfinite
      constructor
      · rintro ⟨⟩
      · rintro ⟨⟨v, hmem, hv⟩, -⟩
        exact absurd (List.all_eq_true.mp hfinite v hmem) hv
    · rename_i hfinite
      rw [Except.error.injEq, eq_comm, and_iff_right]
      rw [List.all_eq_true] at hfinite
      exact Classical.not_forall_not.mp fun h => hfinite fun v hmem =>
        Decidable.not_not.mp fun hv => h v ⟨hmem, hv⟩

/-! ## The calls of a backend -/

/-- The answers to a call. -/
abbrev BackendCall.Answer : BackendCall CryptoContext Ciphertext SecretKey → Type
  | .readCryptoContext .. => CryptoContext
  | .readCiphertext .. => Ciphertext
  | .readSecretKey .. => SecretKey
  | .decrypt .. => List Float
  | .release => Unit

/-- A call with its answer. -/
abbrev BackendReply (CryptoContext Ciphertext SecretKey : Type) : Type :=
  Reply (@BackendCall.Answer CryptoContext Ciphertext SecretKey)

/-- What a backend does at a call. -/
def BackendCall.perform (backend : Backend σ CryptoContext Ciphertext SecretKey) :
    (call : BackendCall CryptoContext Ciphertext SecretKey) → Action σ BackendError call.Answer
  | .readCryptoContext bytes format => backend.readCryptoContext bytes format
  | .readCiphertext bytes format => backend.readCiphertext bytes format
  | .readSecretKey bytes format => backend.readSecretKey bytes format
  | .decrypt context key ciphertext length => backend.decrypt context key ciphertext length
  | .release => Action.ofRun fun state => (.ok (), backend.release state)

/-- The recorded backend notes the call and performs it. -/
theorem BackendCall.perform_recorded (backend : Backend σ CryptoContext Ciphertext SecretKey) :
    BackendCall.perform backend.recorded = Dialogue.recorded (BackendCall.perform backend) := by
  funext call
  cases call <;> rfl

/-- The kinds of calls. -/
inductive BackendCall.Kind where
  | readCryptoContext
  | readCiphertext
  | readSecretKey
  | decrypt
  | release
deriving DecidableEq

/-- The kind of a call. -/
def BackendCall.kind : BackendCall CryptoContext Ciphertext SecretKey → BackendCall.Kind
  | .readCryptoContext .. => .readCryptoContext
  | .readCiphertext .. => .readCiphertext
  | .readSecretKey .. => .readSecretKey
  | .decrypt .. => .decrypt
  | .release => .release

/-- The number of releases among some calls. -/
def releases (calls : List (BackendCall CryptoContext Ciphertext SecretKey)) : Nat :=
  calls.countP fun call => call.kind = .release

theorem releases_append (calls later : List (BackendCall CryptoContext Ciphertext SecretKey)) :
    releases (calls ++ later) = releases calls + releases later :=
  List.countP_append ..

/-- The kinds of the calls of a decode before the release. -/
def decodeKinds : List BackendCall.Kind :=
  [.readCryptoContext, .readCiphertext, .readSecretKey, .decrypt]

/-- There is no release among the first calls of a decode. -/
theorem releases_eq_zero {calls : List (BackendCall CryptoContext Ciphertext SecretKey)}
    (h : calls.map BackendCall.kind <+: decodeKinds) : releases calls = 0 := by
  refine List.countP_eq_zero.mpr fun call hmem hrelease => ?_
  have hkind : call.kind ∈ decodeKinds := h.subset (List.mem_map_of_mem hmem)
  rw [of_decide_eq_true hrelease] at hkind
  exact absurd hkind (by decide)

namespace SerializedResult

/-! ## The dialogue of a decode -/

section
variable (bytes : ResultPart → Bytes) (format : Format)

/-- What is asked for with the bytes of the three parts. -/
def dialogue :
    Dialogue (@BackendCall.Answer CryptoContext Ciphertext SecretKey) (List Float) :=
  .ask (.readCryptoContext (bytes .cryptoContext) format) fun context =>
  .ask (.readCiphertext (bytes .ciphertext) format) fun ciphertext =>
  .ask (.readSecretKey (bytes .secretKey) format) fun key =>
  .ask (.decrypt context key ciphertext outputLength) fun values => .done values

/-- The four replies. -/
def exchange (context : CryptoContext) (ciphertext : Ciphertext) (key : SecretKey)
    (values : List Float) : List (BackendReply CryptoContext Ciphertext SecretKey) :=
  [⟨.readCryptoContext (bytes .cryptoContext) format, context⟩,
    ⟨.readCiphertext (bytes .ciphertext) format, ciphertext⟩,
    ⟨.readSecretKey (bytes .secretKey) format, key⟩,
    ⟨.decrypt context key ciphertext outputLength, values⟩]

/-- The replies so far and the call that comes next. -/
inductive NextCall : List (BackendReply CryptoContext Ciphertext SecretKey) →
    BackendCall CryptoContext Ciphertext SecretKey → Prop
  | readCryptoContext : NextCall [] (.readCryptoContext (bytes .cryptoContext) format)
  | readCiphertext (context : CryptoContext) :
      NextCall [⟨.readCryptoContext (bytes .cryptoContext) format, context⟩]
        (.readCiphertext (bytes .ciphertext) format)
  | readSecretKey (context : CryptoContext) (ciphertext : Ciphertext) :
      NextCall
        [⟨.readCryptoContext (bytes .cryptoContext) format, context⟩,
          ⟨.readCiphertext (bytes .ciphertext) format, ciphertext⟩]
        (.readSecretKey (bytes .secretKey) format)
  | decrypt (context : CryptoContext) (ciphertext : Ciphertext) (key : SecretKey) :
      NextCall
        [⟨.readCryptoContext (bytes .cryptoContext) format, context⟩,
          ⟨.readCiphertext (bytes .ciphertext) format, ciphertext⟩,
          ⟨.readSecretKey (bytes .secretKey) format, key⟩]
        (.decrypt context key ciphertext outputLength)

end

section
variable {bytes : ResultPart → Bytes} {format : Format}
  {replies : List (BackendReply CryptoContext Ciphertext SecretKey)}

theorem asks_dialogue_iff {values : List Float} :
    Asks (dialogue bytes format) replies values ↔
      ∃ context ciphertext key, replies = exchange bytes format context ciphertext key values := by
  constructor
  · intro hasks
    obtain ⟨context, _, rfl, hrest₁⟩ := Dialogue.asks_ask_iff.mp hasks
    obtain ⟨ciphertext, _, rfl, hrest₂⟩ := Dialogue.asks_ask_iff.mp hrest₁
    obtain ⟨key, _, rfl, hrest₃⟩ := Dialogue.asks_ask_iff.mp hrest₂
    obtain ⟨values', _, rfl, hrest₄⟩ := Dialogue.asks_ask_iff.mp hrest₃
    obtain ⟨rfl, rfl⟩ := Dialogue.asks_done_iff.mp hrest₄
    exact ⟨context, ciphertext, key, rfl⟩
  · rintro ⟨context, ciphertext, key, rfl⟩
    exact .ask (.ask (.ask (.ask (.done values))))

theorem reaches_dialogue_iff {call : BackendCall CryptoContext Ciphertext SecretKey} :
    Reaches (dialogue bytes format) replies call ↔ NextCall bytes format replies call := by
  constructor
  · intro hreaches
    obtain ⟨rfl, rfl⟩ | ⟨context, _, rfl, hrest₁⟩ := Dialogue.reaches_ask_iff.mp hreaches
    · exact .readCryptoContext
    obtain ⟨rfl, rfl⟩ | ⟨ciphertext, _, rfl, hrest₂⟩ := Dialogue.reaches_ask_iff.mp hrest₁
    · exact .readCiphertext context
    obtain ⟨rfl, rfl⟩ | ⟨key, _, rfl, hrest₃⟩ := Dialogue.reaches_ask_iff.mp hrest₂
    · exact .readSecretKey context ciphertext
    obtain ⟨rfl, rfl⟩ | ⟨values, _, rfl, hrest₄⟩ := Dialogue.reaches_ask_iff.mp hrest₃
    · exact .decrypt context ciphertext key
    exact absurd hrest₄ Dialogue.not_reaches_done
  · intro hnext
    cases hnext with
    | readCryptoContext => exact .first
    | readCiphertext context => exact .ask .first
    | readSecretKey context ciphertext => exact .ask (.ask .first)
    | decrypt context ciphertext key => exact .ask (.ask (.ask .first))

end

/-! ## How a decode ends -/

/-- The texts stand for bytes and the four calls with these bytes are answered, the last one with
the given values. -/
def Answered (texts : SerializedResult) (format : Format)
    (backend : Backend σ CryptoContext Ciphertext SecretKey) (state last : σ) (values : List Float)
    (calls : List (BackendCall CryptoContext Ciphertext SecretKey)) : Prop :=
  ∃ bytes context ciphertext key, texts.Denote format bytes ∧
    Performed (BackendCall.perform backend)
      (exchange bytes format context ciphertext key values) state last ∧
    calls = (exchange bytes format context ciphertext key values).map Reply.event

/-- The texts stand for bytes and the calls with these bytes are answered up to one that fails with
the given error. -/
def CutShort (texts : SerializedResult) (format : Format)
    (backend : Backend σ CryptoContext Ciphertext SecretKey) (state last : σ) (cause : BackendError)
    (calls : List (BackendCall CryptoContext Ciphertext SecretKey)) : Prop :=
  ∃ bytes replies call s, texts.Denote format bytes ∧ NextCall bytes format replies call ∧
    Performed (BackendCall.perform backend) replies state s ∧
    (call.perform backend).run s = (.error cause, last) ∧
    calls = replies.map Reply.event ++ [call]

section
variable {backend : Backend σ CryptoContext Ciphertext SecretKey} {texts : SerializedResult}
  {format : Format} {state : σ}

/-- A decode succeeds if there are coefficients, and releases the backend after them. -/
theorem run_decode_eq_ok_iff_coefficients {result : List Float} {last : σ} :
    (texts.decode backend format).run state = (.ok result, last) ↔
      ∃ coefficients s, (texts.coefficients backend format).run state = (.ok coefficients, s) ∧
        result = softmax coefficients ∧ last = backend.release s := by
  rw [decode, Action.run_ofRun]
  rcases (texts.coefficients backend format).run state with ⟨outcome, s⟩
  cases outcome with
  | ok coefficients =>
    constructor
    · rintro ⟨⟩
      exact ⟨coefficients, s, rfl, rfl, rfl⟩
    · rintro ⟨_, _, ⟨⟩, rfl, rfl⟩
      rfl
  | error e =>
    constructor
    · rintro ⟨⟩
    · rintro ⟨_, _, ⟨⟩, -⟩

/-- A decode fails if there are no coefficients, and releases the backend all the same. -/
theorem run_decode_eq_error_iff_coefficients {e : ProtocolError} {last : σ} :
    (texts.decode backend format).run state = (.error e, last) ↔
      ∃ s, (texts.coefficients backend format).run state = (.error e, s) ∧
        last = backend.release s := by
  rw [decode, Action.run_ofRun]
  rcases (texts.coefficients backend format).run state with ⟨outcome, s⟩
  cases outcome with
  | ok coefficients =>
    constructor
    · rintro ⟨⟩
    · rintro ⟨_, ⟨⟩, -⟩
  | error cause =>
    constructor
    · rintro ⟨⟩
      exact ⟨s, rfl, rfl⟩
    · rintro ⟨_, ⟨⟩, rfl⟩
      rfl

/-- What is done with the bytes of a part is only done if there are any. -/
theorem run_bind_decodePart {α : Type} {part : ResultPart} {text : String}
    {next : Bytes → Action σ ProtocolError α} :
    (Action.ofExcept (decodePart part .binary text) >>= next).run state =
      match Base64.decodeUrl text with
      | some bytes => (next bytes).run state
      | none => (.error (.malformedInput (.undecodable part)), state) := by
  rw [decodePart_binary]
  cases Base64.decodeUrl text with
  | some bytes => exact Action.run_bind_of_ok (Action.run_ofExcept _ state)
  | none => exact Action.run_bind_of_error (Action.run_ofExcept _ state)

/-- The first text that stands for no bytes is found before anything is asked for. -/
theorem run_coefficients_of_undecodable {part : ResultPart}
    (h : texts.undecodable? format = some part) :
    (texts.coefficients backend format).run state =
      (.error (.malformedInput (.undecodable part)), state) := by
  cases format with
  | json => cases h
  | binary =>
    simp only [undecodable?, List.find?_cons, text, List.find?_nil] at h
    rw [coefficients, run_bind_decodePart]
    cases hcontext : Base64.decodeUrl texts.cryptoContext with
    | none =>
      rw [hcontext] at h
      cases h
      rfl
    | some contextBytes =>
      rw [hcontext] at h
      dsimp only
      rw [run_bind_decodePart]
      cases hciphertext : Base64.decodeUrl texts.ciphertext with
      | none =>
        rw [hciphertext] at h
        cases h
        rfl
      | some ciphertextBytes =>
        rw [hciphertext] at h
        dsimp only
        rw [run_bind_decodePart]
        cases hkey : Base64.decodeUrl texts.secretKey with
        | none =>
          rw [hkey] at h
          cases h
          rfl
        | some keyBytes =>
          rw [hkey] at h
          cases h

/-- With the bytes of the texts, the dialogue is held and its coefficients are selected. -/
theorem coefficients_of_denote {bytes : ResultPart → Bytes} (h : texts.Denote format bytes) :
    texts.coefficients backend format =
      (dialogue bytes format).hold (BackendCall.perform backend) backendError >>= fun values =>
        Action.ofExcept (selectCoefficients values) := by
  have hcontext : decodePart .cryptoContext format texts.cryptoContext =
      .ok (bytes .cryptoContext) := decodePart_of_denotes (h .cryptoContext)
  have hciphertext : decodePart .ciphertext format texts.ciphertext =
      .ok (bytes .ciphertext) := decodePart_of_denotes (h .ciphertext)
  have hkey : decodePart .secretKey format texts.secretKey =
      .ok (bytes .secretKey) := decodePart_of_denotes (h .secretKey)
  have hpure : ∀ a : Bytes,
      (Action.ofExcept (.ok a) : Action σ ProtocolError Bytes) = pure a := fun _ => rfl
  simp only [coefficients, hcontext, hciphertext, hkey, hpure, pure_bind]
  simp only [dialogue, Dialogue.hold, bind_assoc, pure_bind]
  rfl

variable {log : List (BackendCall CryptoContext Ciphertext SecretKey)}
  {record : Recorded σ (BackendCall CryptoContext Ciphertext SecretKey)}

/-- There are coefficients if the four calls are answered and the last answer has some. -/
theorem run_coefficients_eq_ok_iff {coefficients : List Float} :
    (texts.coefficients backend.recorded format).run ⟨state, log⟩ = (.ok coefficients, record) ↔
      ∃ last values calls, texts.Answered format backend state last values calls ∧
        selectCoefficients values = .ok coefficients ∧ record = ⟨last, log ++ calls⟩ := by
  constructor
  · intro hrun
    cases hfirst : texts.undecodable? format with
    | some part =>
      rw [run_coefficients_of_undecodable hfirst] at hrun
      cases hrun
    | none =>
      obtain ⟨bytes, hdenote⟩ := undecodable?_eq_none_iff.mp hfirst
      rw [coefficients_of_denote hdenote, BackendCall.perform_recorded,
        Action.run_bind_eq_ok_iff] at hrun
      obtain ⟨values, held, hheld, hselect⟩ := hrun
      obtain ⟨replies, last, hasks, hperformed, rfl⟩ := Dialogue.run_hold_eq_ok_iff.mp hheld
      obtain ⟨context, ciphertext, key, rfl⟩ := asks_dialogue_iff.mp hasks
      obtain ⟨hselected, rfl⟩ := Prod.mk.inj hselect
      exact ⟨last, values, _, ⟨bytes, context, ciphertext, key, hdenote, hperformed, rfl⟩,
        hselected, rfl⟩
  · rintro ⟨last, values, _, ⟨bytes, context, ciphertext, key, hdenote, hperformed, rfl⟩, hselect,
      rfl⟩
    rw [coefficients_of_denote hdenote, BackendCall.perform_recorded, Action.run_bind_eq_ok_iff]
    refine ⟨values, _, Dialogue.run_hold_eq_ok_iff.mpr ⟨_, last,
      asks_dialogue_iff.mpr ⟨context, ciphertext, key, rfl⟩, hperformed, rfl⟩, ?_⟩
    rw [hselect, Action.run_ofExcept]

/-- There are none if a text stands for no bytes, if one of the four calls fails, or if the answer
of the last one has none. -/
theorem run_coefficients_eq_error_iff {e : ProtocolError} :
    (texts.coefficients backend.recorded format).run ⟨state, log⟩ = (.error e, record) ↔
      (∃ part, texts.undecodable? format = some part ∧
        e = .malformedInput (.undecodable part) ∧ record = ⟨state, log⟩) ∨
      (∃ last cause calls, texts.CutShort format backend state last cause calls ∧
        e = .backend cause.message ∧ record = ⟨last, log ++ calls⟩) ∨
      (∃ last values calls, texts.Answered format backend state last values calls ∧
        selectCoefficients values = .error e ∧ record = ⟨last, log ++ calls⟩) := by
  constructor
  · intro hrun
    cases hfirst : texts.undecodable? format with
    | some part =>
      rw [run_coefficients_of_undecodable hfirst] at hrun
      cases hrun
      exact .inl ⟨part, rfl, rfl, rfl⟩
    | none =>
      obtain ⟨bytes, hdenote⟩ := undecodable?_eq_none_iff.mp hfirst
      rw [coefficients_of_denote hdenote, BackendCall.perform_recorded,
        Action.run_bind_eq_error_iff] at hrun
      rcases hrun with hheld | ⟨values, held, hheld, hselect⟩
      · obtain ⟨replies, call, s, cause, last, hreaches, hperformed, hfails, rfl, rfl⟩ :=
          Dialogue.run_hold_eq_error_iff_reaches.mp hheld
        exact .inr (.inl ⟨last, cause, _, ⟨bytes, replies, call, s, hdenote,
          reaches_dialogue_iff.mp hreaches, hperformed, hfails, rfl⟩, rfl,
          by rw [List.append_assoc]⟩)
      · obtain ⟨replies, last, hasks, hperformed, rfl⟩ := Dialogue.run_hold_eq_ok_iff.mp hheld
        obtain ⟨context, ciphertext, key, rfl⟩ := asks_dialogue_iff.mp hasks
        obtain ⟨hselected, rfl⟩ := Prod.mk.inj hselect
        exact .inr (.inr ⟨last, values, _, ⟨bytes, context, ciphertext, key, hdenote, hperformed,
          rfl⟩, hselected, rfl⟩)
  · rintro (⟨part, hfirst, rfl, rfl⟩ |
      ⟨last, cause, _, ⟨bytes, replies, call, s, hdenote, hnext, hperformed, hfails, rfl⟩, rfl,
        rfl⟩ |
      ⟨last, values, _, ⟨bytes, context, ciphertext, key, hdenote, hperformed, rfl⟩, hselect, rfl⟩)
    · exact run_coefficients_of_undecodable hfirst
    · rw [coefficients_of_denote hdenote, BackendCall.perform_recorded, ← List.append_assoc]
      exact Action.run_bind_of_error (Dialogue.run_hold_eq_error_iff_reaches.mpr
        ⟨replies, call, s, cause, last, reaches_dialogue_iff.mpr hnext, hperformed, hfails, rfl,
          rfl⟩)
    · rw [coefficients_of_denote hdenote, BackendCall.perform_recorded,
        Action.run_bind_of_ok (Dialogue.run_hold_eq_ok_iff.mpr ⟨_, last,
          asks_dialogue_iff.mpr ⟨context, ciphertext, key, rfl⟩, hperformed, rfl⟩), hselect,
        Action.run_ofExcept]

/-- **When a decode succeeds.** The four calls are answered, the last answer has enough coefficients
and those that count are finite. The result is their softmax. -/
theorem run_decode_eq_ok_iff {result : List Float} :
    (texts.decode backend.recorded format).run ⟨state, log⟩ = (.ok result, record) ↔
      ∃ last values calls, texts.Answered format backend state last values calls ∧
        outputLength ≤ values.length ∧ (∀ v ∈ values.take outputLength, v.isFinite) ∧
        result = softmax (values.take outputLength) ∧
        record = ⟨backend.release last, log ++ calls ++ [.release]⟩ := by
  rw [run_decode_eq_ok_iff_coefficients]
  constructor
  · rintro ⟨coefficients, s, hrun, rfl, rfl⟩
    obtain ⟨last, values, calls, hanswered, hselect, rfl⟩ := run_coefficients_eq_ok_iff.mp hrun
    obtain ⟨henough, hfinite, rfl⟩ := selectCoefficients_eq_ok_iff.mp hselect
    exact ⟨last, values, calls, hanswered, henough, hfinite, rfl, rfl⟩
  · rintro ⟨last, values, calls, hanswered, henough, hfinite, rfl, rfl⟩
    have hselect : selectCoefficients values = .ok (values.take outputLength) :=
      selectCoefficients_eq_ok_iff.mpr ⟨henough, hfinite, rfl⟩
    exact ⟨_, _, run_coefficients_eq_ok_iff.mpr ⟨last, values, calls, hanswered, hselect, rfl⟩,
      rfl, rfl⟩

/-- **When a decode fails.** A text stands for no bytes, a call fails and is the last one before the
release, or the answer to the last call has too few coefficients or one that is not finite. -/
theorem run_decode_eq_error_iff {e : ProtocolError} :
    (texts.decode backend.recorded format).run ⟨state, log⟩ = (.error e, record) ↔
      (∃ part, texts.undecodable? format = some part ∧
        e = .malformedInput (.undecodable part) ∧
        record = ⟨backend.release state, log ++ [.release]⟩) ∨
      (∃ last cause calls, texts.CutShort format backend state last cause calls ∧
        e = .backend cause.message ∧
        record = ⟨backend.release last, log ++ calls ++ [.release]⟩) ∨
      (∃ last values calls, texts.Answered format backend state last values calls ∧
        (values.length < outputLength ∧
            e = .malformedInput (.tooFewCoefficients values.length outputLength) ∨
          outputLength ≤ values.length ∧ (∃ v ∈ values.take outputLength, ¬ v.isFinite) ∧
            e = .malformedInput .notFinite) ∧
        record = ⟨backend.release last, log ++ calls ++ [.release]⟩) := by
  rw [run_decode_eq_error_iff_coefficients]
  constructor
  · rintro ⟨s, hrun, rfl⟩
    obtain ⟨part, hfirst, rfl, rfl⟩ | ⟨last, cause, calls, hcut, rfl, rfl⟩ |
      ⟨last, values, calls, hanswered, hselect, rfl⟩ := run_coefficients_eq_error_iff.mp hrun
    · exact .inl ⟨part, hfirst, rfl, rfl⟩
    · exact .inr (.inl ⟨last, cause, calls, hcut, rfl, rfl⟩)
    · exact .inr (.inr ⟨last, values, calls, hanswered, selectCoefficients_eq_error_iff.mp hselect,
        rfl⟩)
  · rintro (⟨part, hfirst, rfl, rfl⟩ | ⟨last, cause, calls, hcut, rfl, rfl⟩ |
      ⟨last, values, calls, hanswered, hselect, rfl⟩)
    · exact ⟨_, run_coefficients_eq_error_iff.mpr (.inl ⟨part, hfirst, rfl, rfl⟩), rfl⟩
    · exact ⟨_, run_coefficients_eq_error_iff.mpr
        (.inr (.inl ⟨last, cause, calls, hcut, rfl, rfl⟩)), rfl⟩
    · exact ⟨_, run_coefficients_eq_error_iff.mpr (.inr (.inr ⟨last, values, calls, hanswered,
        selectCoefficients_eq_error_iff.mpr hselect, rfl⟩)), rfl⟩

end

/-! ## The log -/

section
variable (backend : Backend σ CryptoContext Ciphertext SecretKey) (texts : SerializedResult)
  (format : Format) (state : σ) (log : List (BackendCall CryptoContext Ciphertext SecretKey))

/-- The log changes nothing about the coefficients. -/
theorem run_coefficients_recorded :
    (texts.coefficients backend format).run state =
      (((texts.coefficients backend.recorded format).run ⟨state, log⟩).1,
        ((texts.coefficients backend.recorded format).run ⟨state, log⟩).2.state) := by
  cases hfirst : texts.undecodable? format with
  | some part =>
    rw [run_coefficients_of_undecodable hfirst, run_coefficients_of_undecodable hfirst]
  | none =>
    obtain ⟨bytes, hdenote⟩ := undecodable?_eq_none_iff.mp hfirst
    rw [coefficients_of_denote hdenote, coefficients_of_denote hdenote,
      BackendCall.perform_recorded, Action.run_bind, Action.run_bind,
      Dialogue.run_hold_recorded _ state log]
    rcases ((dialogue bytes format).hold (Dialogue.recorded (BackendCall.perform backend))
      backendError).run ⟨state, log⟩ with ⟨outcome, held⟩
    cases outcome <;> rfl

/-- The log changes nothing about a decode. -/
theorem run_decode_recorded :
    (texts.decode backend format).run state =
      (((texts.decode backend.recorded format).run ⟨state, log⟩).1,
        ((texts.decode backend.recorded format).run ⟨state, log⟩).2.state) := by
  rw [decode, Action.run_ofRun, run_coefficients_recorded backend texts format state log]
  rfl

/-- The call that comes next is the next one in the order of a decode. -/
theorem prefix_of_nextCall {bytes : ResultPart → Bytes} {format : Format}
    {replies : List (BackendReply CryptoContext Ciphertext SecretKey)}
    {call : BackendCall CryptoContext Ciphertext SecretKey}
    (h : NextCall bytes format replies call) :
    (replies.map Reply.event ++ [call]).map BackendCall.kind <+: decodeKinds := by
  cases h with
  | readCryptoContext => exact ⟨[.readCiphertext, .readSecretKey, .decrypt], rfl⟩
  | readCiphertext context => exact ⟨[.readSecretKey, .decrypt], rfl⟩
  | readSecretKey context ciphertext => exact ⟨[.decrypt], rfl⟩
  | decrypt context ciphertext key => exact ⟨[], rfl⟩

/-- **One release for a decode.** Whatever happens, a decode makes the first few of its four calls
and then the release. -/
theorem exists_calls_of_decode :
    ∃ calls, ((texts.decode backend.recorded format).run ⟨state, log⟩).2.events =
      log ++ calls ++ [.release] ∧ calls.map BackendCall.kind <+: decodeKinds := by
  rcases hrun : (texts.decode backend.recorded format).run ⟨state, log⟩ with ⟨outcome, record⟩
  cases outcome with
  | ok result =>
    obtain ⟨last, values, _, ⟨bytes, context, ciphertext, key, -, -, rfl⟩, -, -, -, rfl⟩ :=
      run_decode_eq_ok_iff.mp hrun
    exact ⟨_, rfl, List.prefix_refl decodeKinds⟩
  | error e =>
    obtain ⟨part, -, -, rfl⟩ |
      ⟨last, cause, _, ⟨bytes, replies, call, s, -, hnext, -, -, rfl⟩, -, rfl⟩ |
      ⟨last, values, _, ⟨bytes, context, ciphertext, key, -, -, rfl⟩, -, rfl⟩ :=
      run_decode_eq_error_iff.mp hrun
    · exact ⟨[], by rw [List.append_nil], List.nil_prefix⟩
    · exact ⟨_, rfl, prefix_of_nextCall hnext⟩
    · exact ⟨_, rfl, List.prefix_refl decodeKinds⟩

end

/-! ## Releases along a run -/

theorem releases_of_decode (backend : Backend σ CryptoContext Ciphertext SecretKey)
    (texts : SerializedResult) (format : Format)
    (record : Recorded σ (BackendCall CryptoContext Ciphertext SecretKey)) :
    releases ((texts.decode backend.recorded format).run record).2.events =
      releases record.events + 1 := by
  obtain ⟨calls, hevents, hkinds⟩ :=
    exists_calls_of_decode backend texts format record.state record.events
  rw [hevents, releases_append, releases_append, releases_eq_zero hkinds]
  rfl

/-- One decode of a run. -/
structure Decoding (σ CryptoContext Ciphertext SecretKey : Type) where
  /-- The texts. -/
  texts : SerializedResult
  /-- Their format. -/
  format : Format
  /-- The state and the log before the decode. -/
  before : Recorded σ (BackendCall CryptoContext Ciphertext SecretKey)
  /-- What the decode gives. -/
  outcome : Except ProtocolError (List Float)
  /-- The state and the log after the decode. -/
  after : Recorded σ (BackendCall CryptoContext Ciphertext SecretKey)

/-- The decodes of some texts in order. -/
def decodings (backend : Backend σ CryptoContext Ciphertext SecretKey) :
    Recorded σ (BackendCall CryptoContext Ciphertext SecretKey) → List (SerializedResult × Format) →
      List (Decoding σ CryptoContext Ciphertext SecretKey)
  | _, [] => []
  | record, (texts, format) :: inputs =>
    let result := (texts.decode backend.recorded format).run record
    ⟨texts, format, record, result.1, result.2⟩ :: decodings backend result.2 inputs

section
variable {backend : Backend σ CryptoContext Ciphertext SecretKey}
  {record : Recorded σ (BackendCall CryptoContext Ciphertext SecretKey)}
  {inputs : List (SerializedResult × Format)}

theorem length_decodings : (decodings backend record inputs).length = inputs.length := by
  induction inputs generalizing record with
  | nil => rfl
  | cons input inputs ih => exact congrArg (· + 1) ih

/-- A decode of a run is the decode of the texts at its place, and before it there are as many
releases as decodes. -/
theorem run_of_getElem?_decodings {i : Nat}
    {decoding : Decoding σ CryptoContext Ciphertext SecretKey}
    (h : (decodings backend record inputs)[i]? = some decoding) :
    inputs[i]? = some (decoding.texts, decoding.format) ∧
      (decoding.texts.decode backend.recorded decoding.format).run decoding.before =
        (decoding.outcome, decoding.after) ∧
      releases decoding.before.events = releases record.events + i := by
  induction inputs generalizing record i with
  | nil => cases h
  | cons input inputs ih =>
    cases i with
    | zero =>
      cases h
      exact ⟨rfl, rfl, rfl⟩
    | succ i =>
      obtain ⟨hinput, hrun, hreleases⟩ := ih h
      rw [releases_of_decode, Nat.add_right_comm] at hreleases
      exact ⟨hinput, hrun, hreleases⟩

end

/-- **The backend is released once for each decode, last, whatever happens.** A decode makes the
first few of its four calls and then the release. It succeeds exactly if the texts stand for bytes,
the four calls are answered, the answer of the last one has at least five coefficients and the first
five are finite. The result is the softmax of these: the exponentials of their distances to the
greatest one, each divided by the sum of all five. A decode fails before the first call if a text
stands for no bytes, right after a call that fails, or after the last call for the sake of its
coefficients. So after any number of decodes there are as many releases. -/
theorem decode_releases_once (backend : Backend σ CryptoContext Ciphertext SecretKey) :
    (∀ (texts : SerializedResult) (format : Format) (state : σ)
      (log : List (BackendCall CryptoContext Ciphertext SecretKey)),
      let run := (texts.decode backend.recorded format).run ⟨state, log⟩
      (texts.decode backend format).run state = (run.1, run.2.state) ∧
      (∃ calls, run.2.events = log ++ calls ++ [.release] ∧ calls.map BackendCall.kind <+:
        [.readCryptoContext, .readCiphertext, .readSecretKey, .decrypt]) ∧
      (∀ result record, run = (.ok result, record) ↔
        ∃ last values calls, texts.Answered format backend state last values calls ∧
          5 ≤ values.length ∧ (∀ v ∈ values.take 5, v.isFinite) ∧
          (let greatest := (values.take 5).foldl
            (fun x y => if y.isNaN then x else if x < y then y else x) (-1.0 / 0.0)
          let exponentials := (values.take 5).map fun v => (v - greatest).exp
          result = exponentials.map fun e => e / exponentials.foldl (· + ·) 0.0) ∧
          record = ⟨backend.release last, log ++ calls ++ [.release]⟩) ∧
      (∀ e record, run = (.error e, record) ↔
        (∃ part, texts.undecodable? format = some part ∧
          e = .malformedInput (.undecodable part) ∧
          record = ⟨backend.release state, log ++ [.release]⟩) ∨
        (∃ last cause calls, texts.CutShort format backend state last cause calls ∧
          e = .backend cause.message ∧
          record = ⟨backend.release last, log ++ calls ++ [.release]⟩) ∨
        (∃ last values calls, texts.Answered format backend state last values calls ∧
          (values.length < 5 ∧ e = .malformedInput (.tooFewCoefficients values.length 5) ∨
            5 ≤ values.length ∧ (∃ v ∈ values.take 5, ¬ v.isFinite) ∧
              e = .malformedInput .notFinite) ∧
          record = ⟨backend.release last, log ++ calls ++ [.release]⟩))) ∧
    ∀ (state : σ) (inputs : List (SerializedResult × Format)),
      let run := decodings backend ⟨state, []⟩ inputs
      run.length = inputs.length ∧
      ∀ i decoding, run[i]? = some decoding →
        inputs[i]? = some (decoding.texts, decoding.format) ∧
        (decoding.texts.decode backend.recorded decoding.format).run decoding.before =
          (decoding.outcome, decoding.after) ∧
        releases decoding.before.events = i ∧ releases decoding.after.events = i + 1 := by
  refine ⟨fun texts format state log => ⟨run_decode_recorded backend texts format state log,
    exists_calls_of_decode backend texts format state log, fun _ _ => run_decode_eq_ok_iff,
    fun _ _ => run_decode_eq_error_iff⟩, fun state inputs => ⟨length_decodings, ?_⟩⟩
  intro i decoding hmem
  obtain ⟨hinput, hrun, hbefore⟩ := run_of_getElem?_decodings hmem
  rw [show releases (Recorded.events ⟨state, []⟩) = 0 from rfl, Nat.zero_add] at hbefore
  have hafter := releases_of_decode backend decoding.texts decoding.format decoding.before
  rw [hrun, hbefore] at hafter
  exact ⟨hinput, hrun, hbefore, hafter⟩

/-- A backend that counts its releases and reads keys in the binary format alone: a text that is not
Base64, a key that it cannot read, and a decode that succeeds, with a sixth value that is not finite
and plays no part. -/
theorem decode_releases_once_certified :
    let backend : Backend Nat Bytes Bytes Bytes :=
      { readCryptoContext := fun bytes _ => pure bytes
        readCiphertext := fun bytes _ => pure bytes
        readSecretKey := fun bytes format =>
          match format with
          | .binary => pure bytes
          | .json => throw ⟨"secret key does not match context"⟩
        decrypt := fun _ _ _ _ => pure [1.0, 2.0, 3.0, 4.0, 5.0, 1.0 / 0.0]
        release := Nat.succ }
    let texts : SerializedResult := ⟨"Y2M", "not base64!", "c2s"⟩
    let exponentials : List Float :=
      [(-4.0 : Float).exp, (-3.0 : Float).exp, (-2.0 : Float).exp, (-1.0 : Float).exp,
        (0.0 : Float).exp]
    (texts.decode backend.recorded .binary).run ⟨0, []⟩ =
      (.error (.malformedInput (.undecodable .ciphertext)), ⟨1, [.release]⟩) ∧
    (texts.decode backend.recorded .json).run ⟨1, [.release]⟩ =
      (.error (.backend "secret key does not match context"),
        ⟨2, [.release, .readCryptoContext (Bytes.ofText "Y2M") .json,
          .readCiphertext (Bytes.ofText "not base64!") .json,
          .readSecretKey (Bytes.ofText "c2s") .json, .release]⟩) ∧
    (SerializedResult.decode backend.recorded ⟨"Y2M", "Y3Q=", "c2s"⟩ .binary).run ⟨0, []⟩ =
      (.ok (exponentials.map fun e => e / exponentials.foldl (· + ·) 0.0),
        ⟨1, [.readCryptoContext [99, 99] .binary, .readCiphertext [99, 116] .binary,
          .readSecretKey [115, 107] .binary, .decrypt [99, 99] [115, 107] [99, 116] 5,
          .release]⟩) ∧
    ∃ decoding, (decodings backend ⟨0, []⟩ [(texts, .binary), (texts, .json)])[1]? =
      some decoding ∧ releases decoding.after.events = 2 := by
  intro backend texts exponentials
  obtain ⟨hdecode, hdecodings⟩ := decode_releases_once backend
  refine ⟨?_, ?_, ?_, _, rfl, ((hdecodings 0 [(texts, .binary), (texts, .json)]).2 1 _ rfl).2.2.2⟩
  · obtain ⟨-, -, -, herror⟩ := hdecode texts .binary 0 []
    exact (herror _ _).mpr (.inl ⟨.ciphertext, by decide, rfl, rfl⟩)
  · obtain ⟨-, -, -, herror⟩ := hdecode texts .json 1 [.release]
    have hcut : texts.CutShort .json backend 1 1 ⟨"secret key does not match context"⟩ _ :=
      ⟨fun part => Bytes.ofText (texts.text part), _, _, 1, fun _ => rfl,
        .readSecretKey (Bytes.ofText "Y2M") (Bytes.ofText "not base64!"),
        .cons rfl (.cons rfl (.nil 1)), rfl, rfl⟩
    exact (herror _ _).mpr (.inr (.inl ⟨1, _, _, hcut, rfl, rfl⟩))
  · obtain ⟨-, -, hok, -⟩ := hdecode ⟨"Y2M", "Y3Q=", "c2s"⟩ .binary 0 []
    have hanswered : Answered ⟨"Y2M", "Y3Q=", "c2s"⟩ .binary backend 0 0
        [1.0, 2.0, 3.0, 4.0, 5.0, 1.0 / 0.0] _ :=
      ⟨fun | .cryptoContext => [99, 99] | .ciphertext => [99, 116] | .secretKey => [115, 107],
        [99, 99], [99, 116], [115, 107],
        fun
          | .cryptoContext => (by decide : Base64.decodeUrl "Y2M" = some [99, 99])
          | .ciphertext => (by decide : Base64.decodeUrl "Y3Q=" = some [99, 116])
          | .secretKey => (by decide : Base64.decodeUrl "c2s" = some [115, 107]),
        .cons rfl (.cons rfl (.cons rfl (.cons rfl (.nil 0)))), rfl⟩
    have hgreatest : ([1.0, 2.0, 3.0, 4.0, 5.0] : List Float).foldl
        (fun x y => if y.isNaN then x else if x < y then y else x) (-1.0 / 0.0) = 5.0 := by
      decide +kernel
    have hexponentials : ([1.0, 2.0, 3.0, 4.0, 5.0] : List Float).map (fun v => (v - 5.0).exp) =
        exponentials := by
      simp only [List.map_cons, List.map_nil, exponentials]
      rw [show (1.0 - 5.0 : Float) = -4.0 by decide, show (2.0 - 5.0 : Float) = -3.0 by decide,
        show (3.0 - 5.0 : Float) = -2.0 by decide, show (4.0 - 5.0 : Float) = -1.0 by decide,
        show (5.0 - 5.0 : Float) = 0.0 by decide]
    refine (hok _ _).mpr ⟨0, _, _, hanswered, by decide, by decide, ?_, rfl⟩
    simp only [List.take_succ_cons, List.take_zero, hgreatest, hexponentials]

end SerializedResult

end Fhe

end KeySharing
