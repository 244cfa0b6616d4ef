import KeySharing.Proofs.ExportedKeys
import KeySharing.Request

/-!
# What the context of a request tells apart

The context of a request is a tag, its user, the three keys, its timestamps, its analysis and its
algorithm, one after the other. The tag is one byte, and the user and the keys can be read off as in
every context. What is left is bound only as a whole: the timestamps have eight bytes each, but a
point query does not say how many it has, so its analysis can begin where a further timestamp could
stand.

- `Payload.timestamps`: the timestamps that a payload puts into its context.
- `Request.context_reading`: when two requests have the same context. The stretch of a stream has two
  timestamps, so nothing is left open there.
- `Request.point_query_reading`: when two point queries have the same context. The number of
  timestamps or the analysis alone decides, if it is known.
- `Request.exists_shared_context`: two different point queries for which every ciphertext is as good.
-/

namespace KeySharing

open Bytes (ofText)

/-! ## Timestamps -/

theorem PayloadTag.toByte_inj {s t : PayloadTag} : s.toByte = t.toByte ↔ s = t := by
  cases s <;> cases t <;> decide

/-- The timestamps of a payload in order. -/
def Payload.timestamps : Payload → List UInt64
  | .indices seconds => seconds
  | .range start stop => [start, stop]

namespace Context

theorem payloadBytes_eq_flatMap (payload : Payload) :
    payloadBytes payload = payload.timestamps.flatMap timestampBytes := by
  cases payload with
  | indices seconds => rfl
  | range start stop => simp [payloadBytes, Payload.timestamps]

theorem timestampBytes_inj {s t : UInt64} : timestampBytes s = timestampBytes t ↔ s = t := by
  constructor
  · intro h
    have hvalue := congrArg Bytes.ofLittleEndian h
    rw [timestampBytes, timestampBytes, Bytes.ofLittleEndian_littleEndian,
      Bytes.ofLittleEndian_littleEndian] at hvalue
    have hs := s.toNat_lt
    have ht := t.toNat_lt
    exact UInt64.toNat_inj.mp (by omega)
  · rintro rfl
    rfl

/-- Timestamps in front of other bytes: if the whole is the same, one list goes on where the other
ends. -/
theorem timestamps_append_eq : ∀ {s t : List UInt64} {a b : Bytes},
    s.flatMap timestampBytes ++ a = t.flatMap timestampBytes ++ b →
      ∃ more, (t = s ++ more ∧ a = more.flatMap timestampBytes ++ b) ∨
        (s = t ++ more ∧ b = more.flatMap timestampBytes ++ a)
  | [], t, _, _, h => ⟨t, .inl ⟨rfl, h⟩⟩
  | x :: s, [], _, _, h => ⟨x :: s, .inr ⟨rfl, h.symm⟩⟩
  | x :: s, y :: t, a, b, h => by
    rw [List.flatMap_cons, List.flatMap_cons, List.append_assoc, List.append_assoc] at h
    obtain ⟨hhead, hrest⟩ := List.append_inj h (by simp)
    obtain rfl := timestampBytes_inj.mp hhead
    obtain ⟨more, ⟨rfl, ha⟩ | ⟨rfl, hb⟩⟩ := timestamps_append_eq hrest
    · exact ⟨more, .inl ⟨rfl, ha⟩⟩
    · exact ⟨more, .inr ⟨rfl, hb⟩⟩

theorem length_timestamps (seconds : List UInt64) :
    (seconds.flatMap timestampBytes).length = 8 * seconds.length := by
  induction seconds with
  | nil => rfl
  | cons second seconds ih =>
    rw [List.flatMap_cons, List.length_append, length_timestampBytes, ih, List.length_cons]
    omega

/-- Timestamps take up room. -/
theorem eq_nil_of_append_eq_self {seconds : List UInt64} {a : Bytes}
    (h : seconds.flatMap timestampBytes ++ a = a) : seconds = [] := by
  have hlength := congrArg List.length h
  rw [List.length_append, length_timestamps] at hlength
  exact List.eq_nil_of_length_eq_zero (by omega)

/-- The bytes of a context: what can be read off, and behind it timestamps and analysis. -/
theorem bytes_ofRequest (userId : String) (recipients : Recipients) (payload : Payload)
    (analysisType : String) (algorithm : Algorithm) :
    (ofRequest userId recipients payload analysisType algorithm).bytes =
      payload.tag.toByte :: (ofText userId ++ (recipients.toList.flatten ++
        ((payloadBytes payload ++ ofText analysisType) ++ ofText algorithm.identifier))) := by
  simp [ofRequest, Field.toBytes]

theorem label_inj {c d : Context} {key : Bytes} : c.label key = d.label key ↔ c = d := by
  rw [label, label, List.append_cancel_right_eq, Context.ext_iff]

end Context

open Context (timestampBytes payloadBytes)

namespace Request

/-! ## Any two requests -/

/-- Two requests have the same context exactly if they agree on everything that can be read off and
on timestamps and analysis as a whole. -/
theorem context_eq_iff {r₁ r₂ : Request} {a₁ a₂ : Algorithm}
    {keys₁ keys₂ : PerParty Rsa.PublicKey} :
    r₁.context a₁ (keys₁.map Rsa.PublicKey.toDer) = r₂.context a₂ (keys₂.map Rsa.PublicKey.toDer) ↔
      r₁.payload.tag = r₂.payload.tag ∧ r₁.userId = r₂.userId ∧
        keys₁.map Rsa.PublicKey.toDer = keys₂.map Rsa.PublicKey.toDer ∧
        payloadBytes r₁.payload ++ ofText r₁.analysisType =
          payloadBytes r₂.payload ++ ofText r₂.analysisType := by
  cases a₁
  cases a₂
  rw [context, context, Context.ext_iff, Context.bytes_ofRequest, Context.bytes_ofRequest]
  constructor
  · intro h
    obtain ⟨htag, h⟩ := List.cons.inj h
    obtain ⟨huser, hkeys, hrest⟩ := Bytes.ofText_append_exported_inj h
    exact ⟨PayloadTag.toByte_inj.mp htag, huser, hkeys, List.append_cancel_right hrest⟩
  · rintro ⟨htag, huser, hkeys, hrest⟩
    rw [htag, huser, hkeys, hrest]

/-- Two stretches followed by an analysis are the same only if all three are. -/
theorem range_append_eq_iff {start₁ stop₁ start₂ stop₂ : UInt64} {a b : String} :
    payloadBytes (.range start₁ stop₁) ++ ofText a = payloadBytes (.range start₂ stop₂) ++ ofText b ↔
      start₁ = start₂ ∧ stop₁ = stop₂ ∧ a = b := by
  constructor
  · intro h
    rw [payloadBytes, payloadBytes, List.append_assoc, List.append_assoc] at h
    obtain ⟨hstart, h⟩ := List.append_inj h (by simp)
    obtain ⟨hstop, h⟩ := List.append_inj h (by simp)
    exact ⟨Context.timestampBytes_inj.mp hstart, Context.timestampBytes_inj.mp hstop,
      Bytes.ofText_inj.mp h⟩
  · rintro ⟨rfl, rfl, rfl⟩
    rfl

/-- **What the context of a request tells apart.** For keys that the standard provider exports, two
contexts are the same exactly if the kinds of the payloads, the users and the keys are, and the
timestamps, in eight bytes each, followed by the analysis. So a point query never shares a context
with a stretch of a stream, and two stretches share one only if everything in them agrees. -/
theorem context_reading {σ : Type} (random : RandomSource σ) (blindings : Rsa.Blindings)
    (r₁ r₂ : Request) (a₁ a₂ : Algorithm) (keys₁ keys₂ : PerParty Rsa.PublicKey) (state : σ) :
    let eightBytes (time : UInt64) : Bytes :=
      (List.range 8).map fun i => UInt8.ofNat (time.toNat / 256 ^ i)
    ∃ exported₁ exported₂,
      (Recipients.export (.standard random blindings) keys₁).run state = (.ok exported₁, state) ∧
      (Recipients.export (.standard random blindings) keys₂).run state = (.ok exported₂, state) ∧
      (r₁.context a₁ exported₁ = r₂.context a₂ exported₂ ↔
        r₁.payload.tag = r₂.payload.tag ∧ r₁.userId = r₂.userId ∧
          (∀ i, exported₁.get i = exported₂.get i) ∧
          r₁.payload.timestamps.flatMap eightBytes ++ ofText r₁.analysisType =
            r₂.payload.timestamps.flatMap eightBytes ++ ofText r₂.analysisType) ∧
      (∀ seconds start stop,
        { r₁ with payload := .indices seconds }.context a₁ exported₁ ≠
          { r₂ with payload := .range start stop }.context a₂ exported₂) ∧
      ∀ start₁ stop₁ start₂ stop₂,
        { r₁ with payload := .range start₁ stop₁ }.context a₁ exported₁ =
            { r₂ with payload := .range start₂ stop₂ }.context a₂ exported₂ ↔
          r₁.userId = r₂.userId ∧ (∀ i, exported₁.get i = exported₂.get i) ∧
            start₁ = start₂ ∧ stop₁ = stop₂ ∧ r₁.analysisType = r₂.analysisType := by
  intro eightBytes
  have hbytes (payload : Payload) :
      payloadBytes payload = payload.timestamps.flatMap eightBytes := by
    have height : Context.timestampBytes = eightBytes :=
      funext fun time => Bytes.littleEndian_eq_map 8 time.toNat
    rw [Context.payloadBytes_eq_flatMap, height]
  refine ⟨_, _, Recipients.run_export_standard random blindings keys₁ state,
    Recipients.run_export_standard random blindings keys₂ state, ?_, ?_, ?_⟩
  · rw [context_eq_iff, PerParty.get_inj, hbytes, hbytes]
  · intro seconds start stop h
    exact absurd (context_eq_iff.mp h).1 (by simp [Payload.tag])
  · intro start₁ stop₁ start₂ stop₂
    rw [context_eq_iff, range_append_eq_iff, PerParty.get_inj]
    exact and_iff_right rfl

/-! ## Point queries -/

/-- Two point queries of one user for the same keys have the same context exactly if timestamps and
analysis are the same as a whole. -/
theorem point_context_eq_iff {userId : String} {recipients : Recipients} {algorithm : Algorithm}
    {seconds₁ seconds₂ : List UInt64} {analysis₁ analysis₂ : String} :
    Context.ofRequest userId recipients (.indices seconds₁) analysis₁ algorithm =
        Context.ofRequest userId recipients (.indices seconds₂) analysis₂ algorithm ↔
      seconds₁.flatMap timestampBytes ++ ofText analysis₁ =
        seconds₂.flatMap timestampBytes ++ ofText analysis₂ := by
  rw [Context.ext_iff, Context.bytes_ofRequest, Context.bytes_ofRequest]
  simp only [Payload.tag, payloadBytes, List.cons.injEq, true_and, List.append_cancel_left_eq,
    List.append_cancel_right_eq]

/-- **What the context of a point query tells apart.** Two point queries of one user for the same
keys have the same context, and then every party has the same label for them, exactly if one has
further timestamps whose bytes are where the analysis of the other begins. With the same number of
timestamps, or with the same analysis, they are the same query. -/
theorem point_query_reading (userId : String) (recipients : Recipients) (algorithm : Algorithm)
    (seconds₁ seconds₂ : List UInt64) (analysis₁ analysis₂ : String) :
    let c₁ := Context.ofRequest userId recipients (.indices seconds₁) analysis₁ algorithm
    let c₂ := Context.ofRequest userId recipients (.indices seconds₂) analysis₂ algorithm
    (c₁ = c₂ ↔ ∃ more : List UInt64,
      (seconds₂ = seconds₁ ++ more ∧
        ofText analysis₁ = more.flatMap timestampBytes ++ ofText analysis₂) ∨
      (seconds₁ = seconds₂ ++ more ∧
        ofText analysis₂ = more.flatMap timestampBytes ++ ofText analysis₁)) ∧
    (∀ i, c₁.label (recipients.get i) = c₂.label (recipients.get i) ↔ c₁ = c₂) ∧
    (c₁ = c₂ ∧ seconds₁.length = seconds₂.length ↔
      seconds₁ = seconds₂ ∧ analysis₁ = analysis₂) ∧
    (c₁ = c₂ ∧ analysis₁ = analysis₂ ↔ seconds₁ = seconds₂ ∧ analysis₁ = analysis₂) := by
  intro c₁ c₂
  have hreading : c₁ = c₂ ↔ ∃ more : List UInt64,
      (seconds₂ = seconds₁ ++ more ∧
        ofText analysis₁ = more.flatMap timestampBytes ++ ofText analysis₂) ∨
      (seconds₁ = seconds₂ ++ more ∧
        ofText analysis₂ = more.flatMap timestampBytes ++ ofText analysis₁) := by
    refine point_context_eq_iff.trans ⟨Context.timestamps_append_eq, ?_⟩
    rintro ⟨more, ⟨rfl, h⟩ | ⟨rfl, h⟩⟩
    · rw [h, List.flatMap_append, List.append_assoc]
    · rw [h, List.flatMap_append, List.append_assoc]
  refine ⟨hreading, fun i => Context.label_inj, ⟨?_, ?_⟩, ⟨?_, ?_⟩⟩
  -- the same number of timestamps leaves no further one
  · rintro ⟨h, hcount⟩
    obtain ⟨more, ⟨rfl, htext⟩ | ⟨rfl, htext⟩⟩ := hreading.mp h
    · obtain rfl : more = [] := by simpa using hcount
      simpa using htext
    · obtain rfl : more = [] := by simpa using hcount
      simpa using htext.symm
  · rintro ⟨rfl, rfl⟩
    exact ⟨rfl, rfl⟩
  -- the same analysis leaves no room for a further timestamp
  · rintro ⟨h, rfl⟩
    obtain ⟨more, ⟨rfl, htext⟩ | ⟨rfl, htext⟩⟩ := hreading.mp h
    · simp [Context.eq_nil_of_append_eq_self htext.symm]
    · simp [Context.eq_nil_of_append_eq_self htext.symm]
  · rintro ⟨rfl, rfl⟩
    exact ⟨rfl, rfl⟩

/-- Two different point queries that no ciphertext tells apart, whatever the keys and the provider
are: the second has one timestamp more, whose bytes are the first eight letters of the analysis of
the first. -/
theorem exists_shared_context :
    ∃ r₁ r₂ : Request, r₁.payload ≠ r₂.payload ∧ r₁.analysisType ≠ r₂.analysisType ∧
      r₁.payload.tag = .point ∧ r₂.payload.tag = .point ∧ r₁.userId = r₂.userId ∧
      (∀ algorithm recipients, r₁.context algorithm recipients = r₂.context algorithm recipients) ∧
      ∀ {σ PublicKey PrivateKey SecretKey : Type}
        (provider : Provider σ PublicKey PrivateKey SecretKey) (party : PartyKeys PrivateKey)
        (ciphertext : Bytes),
        party.openShare provider r₁ ciphertext = party.openShare provider r₂ ciphertext := by
  let r₁ : Request := ⟨"user", "Heartbeat-Demo-1", "AES-GCM-128", .indices [60], .rawKey⟩
  let r₂ : Request :=
    ⟨"user", "t-Demo-1", "AES-GCM-128", .indices [60, 7018123846601499976], .rawKey⟩
  have hcontext : ∀ algorithm recipients,
      r₁.context algorithm recipients = r₂.context algorithm recipients := by
    intro algorithm recipients
    refine point_context_eq_iff.mpr ?_
    decide
  refine ⟨r₁, r₂, by decide, by decide, rfl, rfl, rfl, hcontext, ?_⟩
  intro σ PublicKey PrivateKey SecretKey provider party ciphertext
  rw [PartyKeys.openShare, PartyKeys.openShare]
  simp only [hcontext]
  rfl

end Request

end KeySharing
