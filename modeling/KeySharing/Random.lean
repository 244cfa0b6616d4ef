import KeySharing.Action
import KeySharing.Bytes
import KeySharing.CryptoError

/-!
# Random sources

- `RandomSource σ`: draws bytes, changing a state; a draw of `n` bytes gives exactly `n`.
- `Tape`: a finite supply of bytes handed out in order. A draw that asks for more than is left
  takes nothing and fails, so the bytes drawn so far and the bytes left always make up the
  whole supply.
- `Tape.run_draw_of_le`, `Tape.run_draw_append`: a draw that the supply has enough bytes for.
- `Tape.run_draw_of_lt`: a draw that it has too few bytes for.
-/

namespace KeySharing

/-- A source of random bytes over states of type `σ`. -/
structure RandomSource (σ : Type) where
  /-- Draw the given number of bytes. -/
  draw : (count : Nat) → Action σ CryptoError (SizedBytes count)

/-- A supply of random bytes. -/
structure Tape where
  /-- The bytes not drawn yet, in order. -/
  left : Bytes

namespace Tape

/-- The first bytes of the supply, if there are enough. -/
def take (count : Nat) (tape : Tape) : Except CryptoError (SizedBytes count) × Tape :=
  if h : count ≤ tape.left.length then
    (.ok ⟨tape.left.take count, List.length_take_of_le h⟩, ⟨tape.left.drop count⟩)
  else (.error (.randomFailed "scripted source exhausted"), tape)

/-- The random source that reads the tape. -/
def source : RandomSource Tape where
  draw count := Action.ofRun (take count)

@[simp] theorem run_draw (count : Nat) (tape : Tape) :
    (source.draw count).run tape = tape.take count := rfl

theorem run_draw_of_le {count : Nat} {script : Bytes} (h : count ≤ script.length) :
    (source.draw count).run ⟨script⟩ =
      (.ok ⟨script.take count, List.length_take_of_le h⟩, ⟨script.drop count⟩) := by
  rw [run_draw, take, dif_pos h]

/-- A draw that the supply has too few bytes for takes nothing. -/
theorem run_draw_of_lt {count : Nat} {script : Bytes} (h : script.length < count) :
    (source.draw count).run ⟨script⟩ =
      (.error (.randomFailed "scripted source exhausted"), ⟨script⟩) := by
  rw [run_draw, take, dif_neg (Nat.not_le.mpr h)]

/-- What stands first on a tape is drawn first. -/
theorem run_draw_append {count : Nat} (bytes : SizedBytes count) (rest : Bytes) :
    (source.draw count).run ⟨bytes.val ++ rest⟩ = (.ok bytes, ⟨rest⟩) := by
  have hlength : count ≤ (bytes.val ++ rest).length := by
    rw [List.length_append, bytes.property]
    exact Nat.le_add_right _ _
  rw [run_draw_of_le hlength, List.drop_left' bytes.property]
  exact congrArg (fun drawn => (Except.ok drawn, Tape.mk rest))
    (Subtype.ext (List.take_left' bytes.property))

end Tape

end KeySharing
