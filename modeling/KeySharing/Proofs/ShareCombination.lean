import KeySharing.Proofs.KeyDelivery
import Mathlib.Data.List.FinRange

/-!
# Splitting and combining secrets

A split draws twice as many bytes as the secret has, in two draws, and a tape that is too short ends
it at the draw that it has no bytes for. Combining first looks for a share that is not as long as
the first one. Where there is none, the shares are added up by exclusive or, and a sum does not
depend on the order of what is added. So the shares of a split give the secret back in any order.

- `PerParty.reorder`: the values of the parties in another order.
- `Share.total`: the exclusive or of shares, added up from zeros; the order does not matter
  (`Share.total_perm`).
- `Share.combine_eq_ok_iff`, `Share.combine_eq_error_iff`: what combining gives.
- `Share.run_split_of_lt`, `Share.run_split_of_lt_two_mul`: what a short tape gives.
- `Share.split_combine_exact`: all of this together.
-/

namespace KeySharing

namespace PerParty

variable {α : Type}

/-- The values in another order: each party has the value of another one. -/
def reorder (values : PerParty α) (order : Equiv.Perm Party) : PerParty α :=
  ofParty fun p => values.get (order p)

/-- Reordering changes the order of the values and nothing else. -/
theorem toList_reorder_perm (values : PerParty α) (order : Equiv.Perm Party) :
    (values.reorder order).toList.Perm values.toList :=
  order.ofFn_comp_perm values.get

theorem forall_reorder_iff {values : PerParty α} {order : Equiv.Perm Party} {P : α → Prop} :
    (∀ p, P ((values.reorder order).get p)) ↔ ∀ p, P (values.get p) := by
  simp only [reorder, get_ofParty]
  exact order.forall_congr_right (q := fun p => P (values.get p))

end PerParty

namespace Share

/-! ## Adding up shares -/

/-- The exclusive or of shares, added up from as many zeros as there are bytes. -/
def total (length : Nat) (shares : List Share) : Bytes :=
  shares.foldl (fun sum share => sum.xor share.bytes) (List.replicate length 0)

/-- The order in which shares are added up does not matter. -/
theorem total_perm {length : Nat} {shares shares' : List Share} (h : shares.Perm shares') :
    total length shares = total length shares' := by
  refine h.foldl_eq' (fun x _ y _ sum => ?_) _
  show (sum.xor x.bytes).xor y.bytes = (sum.xor y.bytes).xor x.bytes
  rw [Bytes.xor_assoc, Bytes.xor_comm x.bytes, ← Bytes.xor_assoc]

/-- The shares of three parties add up to the exclusive or of their bytes. -/
theorem total_toList (shares : PerParty Share) :
    total shares.first.length shares.toList =
      (shares.first.bytes.xor shares.second.bytes).xor shares.third.bytes := by
  have hfirst : Bytes.xor (List.replicate shares.first.length 0) shares.first.bytes =
      shares.first.bytes := by
    rw [Bytes.xor_comm]
    exact Bytes.xor_replicate_zero (Nat.le_refl _)
  show ((Bytes.xor (List.replicate shares.first.length 0) shares.first.bytes).xor _).xor _ = _
  rw [hfirst]

/-! ## Combining -/

section
variable {shares : PerParty Share}

/-- Shares of one length combine to what they add up to. -/
theorem combine_of_length {length : Nat} (h : ∀ p, (shares.get p).length = length) :
    combine shares = .ok (total length shares.toList) := by
  have hfirst : shares.first.length = length := h 0
  rw [combine_of_equal fun p => (h p).trans hfirst.symm, ← hfirst, total_toList]

theorem find?_of_differs {p : Party}
    (hbefore : ∀ q < p, (shares.get q).length = shares.first.length)
    (h : (shares.get p).length ≠ shares.first.length) :
    shares.toList.find? (fun share => share.length ≠ shares.first.length) =
      some (shares.get p) := by
  have hplace : ∀ q : Party, q = 0 ∨ q = 1 ∨ q = 2 := by decide
  rw [PerParty.toList, List.find?_cons_of_neg (by simp)]
  rcases hplace p with rfl | rfl | rfl
  · exact absurd rfl h
  · exact List.find?_cons_of_pos (decide_eq_true h)
  · have hsecond : shares.second.length = shares.first.length := hbefore 1 (by decide)
    rw [List.find?_cons_of_neg (by simpa using hsecond)]
    exact List.find?_cons_of_pos (decide_eq_true h)

/-- The first share that is not as long as the first one ends combining. -/
theorem combine_of_differs {p : Party}
    (hbefore : ∀ q < p, (shares.get q).length = shares.first.length)
    (h : (shares.get p).length ≠ shares.first.length) :
    combine shares = .error (.invalidShareLength shares.first.length (shares.get p).length) := by
  rw [combine, find?_of_differs hbefore h]

theorem combine_eq_ok_iff {text : Bytes} :
    combine shares = .ok text ↔ (∀ p, (shares.get p).length = shares.first.length) ∧
      text = total shares.first.length shares.toList := by
  rcases PerParty.forall_or_exists_first fun p => (shares.get p).length = shares.first.length
    with h | ⟨p, hbefore, hp⟩
  · rw [combine_of_length h, Except.ok.injEq, and_iff_right h, eq_comm]
  · rw [combine_of_differs hbefore hp]
    constructor
    · rintro ⟨⟩
    · rintro ⟨h, -⟩
      exact absurd (h p) hp

theorem combine_eq_error_iff {e : ProtocolError} :
    combine shares = .error e ↔ ∃ p, (∀ q < p, (shares.get q).length = shares.first.length) ∧
      (shares.get p).length ≠ shares.first.length ∧
      e = .invalidShareLength shares.first.length (shares.get p).length := by
  constructor
  · intro herror
    rcases PerParty.forall_or_exists_first fun p => (shares.get p).length = shares.first.length
      with h | ⟨p, hbefore, hp⟩
    · rw [combine_of_length h] at herror
      cases herror
    · rw [combine_of_differs hbefore hp] at herror
      exact ⟨p, hbefore, hp, (Except.error.inj herror).symm⟩
  · rintro ⟨p, hbefore, hp, rfl⟩
    exact combine_of_differs hbefore hp

theorem length_of_combine {text : Bytes} (h : combine shares = .ok text) :
    text.length = shares.first.length := by
  obtain ⟨hlength, rfl⟩ := combine_eq_ok_iff.mp h
  have hsecond : shares.second.bytes.length = shares.first.bytes.length := hlength 1
  have hthird : shares.third.bytes.length = shares.first.bytes.length := hlength 2
  rw [total_toList, Bytes.length_xor, Bytes.length_xor, hsecond, hthird, Nat.min_self,
    Nat.min_self, length]

/-- Each byte of what shares combine to is the exclusive or of theirs. -/
theorem getElem?_of_combine {text : Bytes} (h : combine shares = .ok text) {j : Nat}
    {x y z : UInt8} (hx : shares.first.bytes[j]? = some x) (hy : shares.second.bytes[j]? = some y)
    (hz : shares.third.bytes[j]? = some z) : text[j]? = some (x ^^^ y ^^^ z) := by
  rw [(combine_eq_ok_iff.mp h).2, total_toList]
  simp only [Bytes.xor, List.getElem?_zipWith, hx, hy, hz]

/-- Shares that combine do so in every order, and to the same bytes. -/
theorem combine_reorder {text : Bytes} (h : combine shares = .ok text)
    (order : Equiv.Perm Party) : combine (shares.reorder order) = .ok text := by
  obtain ⟨hlength, rfl⟩ := combine_eq_ok_iff.mp h
  have hreordered : ∀ p, ((shares.reorder order).get p).length = shares.first.length :=
    PerParty.forall_reorder_iff (P := fun share : Share => share.length = shares.first.length)
      |>.mpr hlength
  rw [combine_of_length hreordered, total_perm (shares.toList_reorder_perm order)]

end

/-! ## Short tapes -/

section
variable {secret script : Bytes}

/-- A tape without bytes for the first share is left alone. -/
theorem run_split_of_lt (h : script.length < secret.length) :
    (split Tape.source secret).run ⟨script⟩ =
      (.error (.randomFailed "scripted source exhausted"), ⟨script⟩) :=
  Action.run_bind_of_error (Tape.run_draw_of_lt h)

/-- A tape with bytes for the first share only loses them. -/
theorem run_split_of_lt_two_mul (h : secret.length ≤ script.length)
    (hshort : script.length < 2 * secret.length) :
    (split Tape.source secret).run ⟨script⟩ =
      (.error (.randomFailed "scripted source exhausted"), ⟨script.drop secret.length⟩) := by
  have hsecond : (script.drop secret.length).length < secret.length := by
    rw [List.length_drop]
    omega
  rw [split, Action.run_bind_of_ok (Tape.run_draw_of_le h)]
  exact Action.run_bind_of_error (Tape.run_draw_of_lt hsecond)

end

/-! ## Splitting and combining -/

/-- **Splitting and combining are exact.** A split draws the bytes of both random shares or fails at
the first draw that the tape has no bytes for, and its shares are as long as the secret and give it
back in every order. Any three shares combine exactly if they have one length, in every order to
their exclusive or; otherwise the first share of another length than the first one is the error. -/
theorem split_combine_exact :
    (∀ secret script : Bytes,
      let run := ((split Tape.source secret).mapError ProtocolError.ofCrypto).run ⟨script⟩
      (script.length < secret.length →
        run = (.error (.crypto (.randomFailed "scripted source exhausted")), ⟨script⟩)) ∧
      (secret.length ≤ script.length → script.length < 2 * secret.length →
        run = (.error (.crypto (.randomFailed "scripted source exhausted")),
          ⟨script.drop secret.length⟩)) ∧
      (2 * secret.length ≤ script.length → ∃ shares,
        run = (.ok shares, ⟨script.drop (2 * secret.length)⟩) ∧
        (∀ p, (shares.get p).length = secret.length) ∧
        ∀ order, combine (shares.reorder order) = .ok secret)) ∧
    ∀ shares : PerParty Share,
      ((∃ text, combine shares = .ok text) ↔
        ∀ p, (shares.get p).length = shares.first.length) ∧
      (∀ text, combine shares = .ok text →
        text.length = shares.first.length ∧
        (∀ (j : Nat) (x y z : UInt8), shares.first.bytes[j]? = some x →
          shares.second.bytes[j]? = some y → shares.third.bytes[j]? = some z →
            text[j]? = some (x ^^^ y ^^^ z)) ∧
        ∀ order, combine (shares.reorder order) = .ok text) ∧
      ∀ e, combine shares = .error e ↔
        ∃ p, (∀ q < p, (shares.get q).length = shares.first.length) ∧
          (shares.get p).length ≠ shares.first.length ∧
          e = .invalidShareLength shares.first.length (shares.get p).length := by
  refine ⟨fun secret script => ⟨fun h => ?_, fun h hshort => ?_, fun h => ?_⟩,
    fun shares => ⟨?_, fun text htext => ⟨?_, ?_, combine_reorder htext⟩,
      fun e => combine_eq_error_iff⟩⟩
  · rw [Action.run_mapError, run_split_of_lt h]
    rfl
  · rw [Action.run_mapError, run_split_of_lt_two_mul h hshort]
    rfl
  · refine ⟨ofTape secret script, Action.run_mapError_eq_ok.mpr (run_split_tape h),
      length_ofTape h, combine_reorder (combine_ofTape h)⟩
  · constructor
    · rintro ⟨text, htext⟩
      exact (combine_eq_ok_iff.mp htext).1
    · exact fun h => ⟨_, combine_of_length h⟩
  · exact length_of_combine htext
  · exact fun j x y z => getElem?_of_combine htext

/-- A secret of three bytes comes back from its shares in reverse, a tape that ends in the second
draw loses the first one, and a shorter third share is found. -/
theorem split_combine_exact_certified :
    let run (script : Bytes) :=
      ((split Tape.source [1, 2, 3]).mapError ProtocolError.ofCrypto).run ⟨script⟩
    run [7, 7] = (.error (.crypto (.randomFailed "scripted source exhausted")), ⟨[7, 7]⟩) ∧
    run [7, 7, 7, 8, 8] =
      (.error (.crypto (.randomFailed "scripted source exhausted")), ⟨[8, 8]⟩) ∧
    (∃ shares, run [7, 7, 7, 8, 8, 8, 9] = (.ok shares, ⟨[9]⟩) ∧
      combine (shares.reorder Fin.revPerm) = .ok [1, 2, 3]) ∧
    combine ⟨⟨[1, 2]⟩, ⟨[3, 4]⟩, ⟨[5]⟩⟩ = .error (.invalidShareLength 2 1) ∧
    combine ((⟨⟨[1, 2]⟩, ⟨[3, 4]⟩, ⟨[5, 6]⟩⟩ : PerParty Share).reorder Fin.revPerm) =
      .ok [7, 0] := by
  intro run
  obtain ⟨hsplit, hcombine⟩ := split_combine_exact
  have hshort := (hsplit [1, 2, 3] [7, 7]).1 (by decide)
  have hsecond := (hsplit [1, 2, 3] [7, 7, 7, 8, 8]).2.1 (by decide) (by decide)
  obtain ⟨shares, hrun, -, horder⟩ := (hsplit [1, 2, 3] [7, 7, 7, 8, 8, 8, 9]).2.2 (by decide)
  refine ⟨hshort, hsecond, ⟨shares, hrun, horder _⟩, ?_, ?_⟩
  · exact ((hcombine _).2.2 _).mpr ⟨2, by decide, by decide, rfl⟩
  · exact ((hcombine _).2.1 [7, 0] rfl).2.2 _

end Share

end KeySharing
