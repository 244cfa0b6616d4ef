import KeySharing.Completion
import KeySharing.Proofs.ExportedKeys

/-!
# What the context of a completion tells apart

The context of a finished computation is its user, the three keys, the computation and the analysis,
one after the other. The user can be read off it: an exported key is not the start of any text, so
the place where the keys begin is fixed. Where the computation ends and the analysis begins cannot:
only the two together are bound.

- `Completion.context_eq_iff`: when two completions have the same context.
- `Completion.parameters_eq_iff`: when two completions share associated data, and with it the nonce.
- `Completion.exists_shared_parameters`: different computations can share both.
-/

namespace KeySharing

open Bytes (ofText)

namespace Completion

/-- The bytes of a context: the computation and the analysis run together. -/
theorem bytes_context (completion : Completion) (recipients : Recipients) :
    (completion.context recipients).bytes =
      ofText completion.userId ++ (recipients.toList.flatten ++
        ofText (completion.computationId ++ completion.analysisType)) := by
  rw [Bytes.ofText_append]
  simp [context, Context.ofCompletion, Context.Field.toBytes]

/-- Two completions have the same context for the same exported keys exactly if they agree on the
user and on the computation followed by the analysis. -/
theorem context_eq_iff (keys : PerParty Rsa.PublicKey) (c d : Completion) :
    c.context (keys.map Rsa.PublicKey.toDer) = d.context (keys.map Rsa.PublicKey.toDer) ↔
      c.userId = d.userId ∧
        c.computationId ++ c.analysisType = d.computationId ++ d.analysisType := by
  constructor
  · intro h
    have hbytes := congrArg Context.bytes h
    rw [bytes_context, bytes_context] at hbytes
    obtain ⟨huser, -, hrest⟩ := Bytes.ofText_append_exported_inj hbytes
    exact ⟨huser, Bytes.ofText_inj.mp hrest⟩
  · rintro ⟨huser, htexts⟩
    apply Context.ext
    rw [bytes_context, bytes_context, huser, htexts]

/-- With the standard provider the parameters of a result always exist, and the context gives
both. -/
theorem run_parameters {σ : Type} (random : RandomSource σ) (blindings : Rsa.Blindings)
    (recipients : Recipients) (completion : Completion) (state : σ) :
    (completion.parameters (.standard random blindings) recipients).run state =
      (.ok ⟨Context.nonceOfDigest (sha256 (completion.context recipients).bytes),
        completion.context recipients⟩, state) := rfl

/-- **What the parameters of a result tell apart.** Two completions have different associated data
exactly if they differ in the user or in the computation followed by the analysis, and then also
different pairs of nonce and associated data. -/
theorem parameters_eq_iff {σ : Type} (random : RandomSource σ) (blindings : Rsa.Blindings)
    (keys : PerParty Rsa.PublicKey) (c d : Completion) (state : σ) :
    ∃ recipients p q,
      (Recipients.export (.standard random blindings) keys).run state = (.ok recipients, state) ∧
      (c.parameters (.standard random blindings) recipients).run state = (.ok p, state) ∧
      (d.parameters (.standard random blindings) recipients).run state = (.ok q, state) ∧
      (p.context = q.context ↔ c.userId = d.userId ∧
        c.computationId ++ c.analysisType = d.computationId ++ d.analysisType) ∧
      (p = q ↔ c.userId = d.userId ∧
        c.computationId ++ c.analysisType = d.computationId ++ d.analysisType) := by
  refine ⟨_, _, _, Recipients.run_export_standard random blindings keys state,
    run_parameters random blindings _ c state, run_parameters random blindings _ d state,
    context_eq_iff keys c d, ?_⟩
  rw [← context_eq_iff keys c d]
  constructor
  · intro h
    exact congrArg ResultParameters.context h
  · intro h
    rw [h]

/-- Two computations can share the parameters of their results, whatever the provider and the keys
are, if one identifier goes on where the analysis of the other begins. -/
theorem exists_shared_parameters :
    ∃ c d : Completion, c.computationId ≠ d.computationId ∧ c.analysisType ≠ d.analysisType ∧
      ∀ {σ PublicKey PrivateKey SecretKey : Type}
        (provider : Provider σ PublicKey PrivateKey SecretKey) (recipients : Recipients),
        c.parameters provider recipients = d.parameters provider recipients :=
  ⟨⟨"user", "run-1", "0-Heartbeat"⟩, ⟨"user", "run-10", "-Heartbeat"⟩, by decide, by decide,
    fun _ _ => rfl⟩

end Completion

end KeySharing
