import KeySharing.Payload
import KeySharing.Proofs.TimestampText
import Mathlib.Data.List.Forall2

/-!
# The instants of a payload

Records are named by seconds and stretches of a stream by milliseconds, and both are written as
timestamps. The usual text of an instant names this instant either way. Other texts do so as well,
with one exception: a leap second counts as the second before it in seconds and as the second after
it in milliseconds, so that the two ways are a second apart, and the leap second at the end of 1969
is only accepted in milliseconds.

- `Payload.secondOf_eq_ok_iff`, `Payload.milliOf_eq_ok_iff`: what a text names in seconds and in
  milliseconds.
- `Payload.instants_of_texts`: the usual texts of instants from 1970 to 9999.
- `Payload.SameInstant`, `Payload.LeapSecond`: texts that name the same instant either way, and
  texts of leap seconds.
- `Payload.same_instant_iff`: exactly the leap seconds from the end of 1969 on part the two ways.
- `Payload.exists_instants_apart`: two of them.
-/

namespace KeySharing

namespace Timestamp

variable {t : Timestamp}

/-- The calendar ends long before the seconds need all their bits. -/
theorem IsValid.unixSeconds_lt (h : t.IsValid) : t.unixSeconds < 2 ^ 48 := by
  have hyear : t.date.year ≤ 262142 := h.year_mem.2
  have hyears := Calendar.daysBeforeYear_mono (Int.add_le_add_right hyear 1)
  have hend := (Date.dayNumber_bounds h.date_isValid).2
  have hdays : Calendar.daysBeforeYear (262142 + 1) =
      Calendar.daysBeforeYear 1970 + 95026237 := by
    decide
  have hhour := h.hour_le
  have hminute := h.minute_le
  unfold unixSeconds
  omega

theorem unixMillis_of_leap (h : t.second = 60) : t.unixMillis = 1000 * (t.unixSeconds + 1) := by
  unfold unixMillis
  rw [if_pos h]
  omega

theorem unixMillis_of_not_leap (h : t.second ≠ 60) : t.unixMillis = 1000 * t.unixSeconds := by
  unfold unixMillis
  rw [if_neg h]
  omega

theorem IsValid.unixMillis_lt (h : t.IsValid) : t.unixMillis < 2 ^ 64 := by
  have hseconds := h.unixSeconds_lt
  unfold unixMillis
  split <;> omega

end Timestamp

namespace Payload

open Timestamp (utcText ofUnixSeconds)

/-! ## Instants of texts -/

/-- The instant that a text names on a scale. -/
def instantOf (scale : Timestamp → Int) (text : String) : Except ProtocolError UInt64 := do
  sinceEpoch (scale (← readTimestamp text))

section
variable {scale : Timestamp → Int} {text start stop : String} {t : Timestamp}
  {n first last : UInt64}

theorem secondOf_eq : secondOf = instantOf Timestamp.unixSeconds := rfl

theorem milliOf_eq : milliOf = instantOf Timestamp.unixMillis := rfl

theorem sinceEpoch_eq_ok_iff {instant : Int} (h : instant < 2 ^ 64) :
    sinceEpoch instant = .ok n ↔ instant = n.toNat := by
  unfold sinceEpoch
  by_cases hsign : 0 ≤ instant
  · have hvalue : (UInt64.ofNat instant.toNat).toNat = instant.toNat :=
      UInt64.toNat_ofNat_of_lt' (show _ < 2 ^ 64 by omega)
    rw [if_pos hsign, Except.ok.injEq, ← UInt64.toNat_inj, hvalue]
    omega
  · rw [if_neg hsign]
    constructor
    · rintro ⟨⟩
    · intro hinstant
      omega

theorem instantOf_of_fault {fault : Timestamp.Fault} (h : Timestamp.parse text = .error fault) :
    instantOf scale text = .error (.malformedInput (.timestamp text fault)) := by
  unfold instantOf readTimestamp
  rw [h]
  rfl

theorem instantOf_of_parse (h : Timestamp.parse text = .ok t) :
    instantOf scale text = sinceEpoch (scale t) := by
  unfold instantOf readTimestamp
  rw [h]
  rfl

theorem instantOf_of_before (h : Timestamp.parse text = .ok t) (hsign : scale t < 0) :
    instantOf scale text = .error (.malformedInput (.beforeEpoch (scale t))) := by
  rw [instantOf_of_parse h, sinceEpoch, if_neg (Int.not_le.mpr hsign)]

theorem instantOf_eq_ok_iff (hscale : ∀ t : Timestamp, t.IsValid → scale t < 2 ^ 64) :
    instantOf scale text = .ok n ↔
      ∃ t, Timestamp.parse text = .ok t ∧ scale t = n.toNat := by
  cases hparse : Timestamp.parse text with
  | error fault =>
    rw [instantOf_of_fault hparse]
    simp
  | ok t =>
    rw [instantOf_of_parse hparse,
      sinceEpoch_eq_ok_iff (hscale t (Timestamp.isValid_of_parse hparse))]
    simp

theorem exists_instantOf (h : Timestamp.parse text = .ok t) (hsign : 0 ≤ scale t)
    (hlt : scale t < 2 ^ 64) :
    ∃ n : UInt64, instantOf scale text = .ok n ∧ scale t = n.toNat := by
  have hvalue : (UInt64.ofNat (scale t).toNat).toNat = (scale t).toNat :=
    UInt64.toNat_ofNat_of_lt' (show _ < 2 ^ 64 by omega)
  have hinstant : scale t = (UInt64.ofNat (scale t).toNat).toNat := by omega
  rw [instantOf_of_parse h]
  exact ⟨_, (sinceEpoch_eq_ok_iff hlt).mpr hinstant, hinstant⟩

theorem secondOf_eq_ok_iff :
    secondOf text = .ok n ↔ ∃ t, Timestamp.parse text = .ok t ∧ t.unixSeconds = n.toNat := by
  rw [secondOf_eq]
  exact instantOf_eq_ok_iff fun _ h => Int.lt_trans h.unixSeconds_lt (by decide)

theorem milliOf_eq_ok_iff :
    milliOf text = .ok n ↔ ∃ t, Timestamp.parse text = .ok t ∧ t.unixMillis = n.toNat := by
  rw [milliOf_eq]
  exact instantOf_eq_ok_iff fun _ h => h.unixMillis_lt

/-! ## Payloads of texts -/

/-- The seconds of a list of texts are those of its texts. -/
theorem secondsOf_eq_ok_iff : ∀ {texts : List String} {seconds : List UInt64},
    secondsOf texts = .ok seconds ↔
      List.Forall₂ (fun text second => secondOf text = .ok second) texts seconds
  | [], seconds => by
    rw [secondsOf, Except.ok.injEq, List.forall₂_nil_left_iff, eq_comm]
  | text :: texts, seconds => by
    rw [List.forall₂_cons_left_iff]
    simp only [← secondsOf_eq_ok_iff]
    show (secondOf text >>= fun second => secondsOf texts >>= fun rest => pure (second :: rest)) =
      .ok seconds ↔ _
    cases secondOf text with
    | error e => simp [bind, Except.bind]
    | ok second =>
      cases secondsOf texts with
      | error e => simp [bind, Except.bind]
      | ok rest => simp [bind, Except.bind, pure, Except.pure, eq_comm]

theorem ofTimestamps_of_ok {texts : List String} {seconds : List UInt64}
    (h : secondsOf texts = .ok seconds) : ofTimestamps texts = .ok (.indices seconds) := by
  unfold ofTimestamps
  rw [h]
  rfl

theorem ofTimestamps_singleton_of_ok (h : secondOf text = .ok n) :
    ofTimestamps [text] = .ok (.indices [n]) :=
  ofTimestamps_of_ok (secondsOf_eq_ok_iff.mpr (.cons h .nil))

theorem ofTimestamps_singleton_of_error {e : ProtocolError} (h : secondOf text = .error e) :
    ofTimestamps [text] = .error e := by
  unfold ofTimestamps secondsOf
  rw [h]
  rfl

theorem ofBounds_of_ok (hstart : milliOf start = .ok first) (hstop : milliOf stop = .ok last) :
    ofBounds start stop =
      if first ≤ last then .ok (.range first last)
      else .error (.malformedInput (.reversedRange first.toNat last.toNat)) := by
  unfold ofBounds
  rw [hstart, hstop]
  show (if last < first then _ else _) = _
  by_cases h : first ≤ last
  · rw [if_pos h, if_neg (UInt64.not_lt.mpr h)]
    rfl
  · rw [if_neg h, if_pos (UInt64.not_le.mp h)]
    rfl

theorem ofBounds_self_of_ok (h : milliOf text = .ok n) : ofBounds text text = .ok (.range n n) := by
  rw [ofBounds_of_ok h h, if_pos UInt64.le_rfl]

theorem ofBounds_self_of_error {e : ProtocolError} (h : milliOf text = .error e) :
    ofBounds text text = .error e := by
  unfold ofBounds
  rw [h]
  rfl

end

/-! ## The usual texts -/

theorem secondOf_utcText {s : UInt64} {n : Nat} (h : n ≤ 253402300799) (hs : s.toNat = n) :
    secondOf (utcText n) = .ok s := by
  refine secondOf_eq_ok_iff.mpr ⟨_, Timestamp.parse_utcText h, ?_⟩
  rw [Timestamp.unixSeconds_ofUnixSeconds, hs]

theorem milliOf_utcText {m : UInt64} {n : Nat} (h : n ≤ 253402300799) (hm : m.toNat = 1000 * n) :
    milliOf (utcText n) = .ok m := by
  refine milliOf_eq_ok_iff.mpr ⟨_, Timestamp.parse_utcText h, ?_⟩
  rw [Timestamp.unixMillis_of_not_leap (Timestamp.isCanonical_ofUnixSeconds h).second_ne,
    Timestamp.unixSeconds_ofUnixSeconds, hm, Int.natCast_mul]
  rfl

/-- Two usual texts bound a stretch exactly if the second one is not earlier. -/
theorem ofBounds_utcText {a b : Nat} (ha : a ≤ 253402300799) (hb : b ≤ 253402300799) :
    ∃ start stop : UInt64, start.toNat = 1000 * a ∧ stop.toNat = 1000 * b ∧
      ofBounds (utcText a) (utcText b) =
        if a ≤ b then .ok (.range start stop)
        else .error (.malformedInput (.reversedRange (1000 * a) (1000 * b))) := by
  have hstart : (UInt64.ofNat (1000 * a)).toNat = 1000 * a :=
    UInt64.toNat_ofNat_of_lt' (show _ < 2 ^ 64 by omega)
  have hstop : (UInt64.ofNat (1000 * b)).toNat = 1000 * b :=
    UInt64.toNat_ofNat_of_lt' (show _ < 2 ^ 64 by omega)
  refine ⟨_, _, hstart, hstop, ?_⟩
  rw [ofBounds_of_ok (milliOf_utcText ha hstart) (milliOf_utcText hb hstop), hstart, hstop]
  have horder : UInt64.ofNat (1000 * a) ≤ UInt64.ofNat (1000 * b) ↔ a ≤ b := by
    rw [UInt64.le_iff_toNat_le, hstart, hstop]
    omega
  simp only [horder]

/-- The usual texts of a list of instants give this list. -/
theorem ofTimestamps_utcText {seconds : List Nat} (h : ∀ s ∈ seconds, s ≤ 253402300799) :
    ∃ indices : List UInt64, indices.map UInt64.toNat = seconds ∧
      ofTimestamps (seconds.map utcText) = .ok (.indices indices) := by
  have hvalue : ∀ s ∈ seconds, (UInt64.ofNat s).toNat = s := fun s hs =>
    UInt64.toNat_ofNat_of_lt' (Nat.lt_of_le_of_lt (h s hs) (by decide))
  refine ⟨seconds.map UInt64.ofNat, ?_, ofTimestamps_of_ok (secondsOf_eq_ok_iff.mpr ?_)⟩
  · rw [List.map_map]
    exact (List.map_congr_left hvalue).trans (List.map_id seconds)
  · rw [List.forall₂_map_left_iff, List.forall₂_map_right_iff, List.forall₂_same]
    exact fun s hs => secondOf_utcText (h s hs) (hvalue s hs)

/-- **The usual texts denote their instants.** The texts of instants from 1970 to 9999 give exactly
these instants in seconds, in order, and two of them give a stretch of a stream in milliseconds
unless the second one is earlier. The texts are in the order of their instants, and every usual text
of a time of day in these years is the text of exactly one instant. -/
theorem instants_of_texts :
    (∀ seconds : List Nat, (∀ s ∈ seconds, s ≤ 253402300799) →
      ∃ indices : List UInt64, indices.map UInt64.toNat = seconds ∧
        ofTimestamps (seconds.map utcText) = .ok (.indices indices)) ∧
    (∀ a b : Nat, a ≤ 253402300799 → b ≤ 253402300799 →
      (∃ start stop : UInt64, start.toNat = 1000 * a ∧ stop.toNat = 1000 * b ∧
        ofBounds (utcText a) (utcText b) =
          if a ≤ b then .ok (.range start stop)
          else .error (.malformedInput (.reversedRange (1000 * a) (1000 * b)))) ∧
      (utcText a < utcText b ↔ a < b)) ∧
    ∀ t : Timestamp, t.IsCanonical → ∃! s : Nat, s ≤ 253402300799 ∧ utcText s = t.text := by
  refine ⟨fun seconds => ofTimestamps_utcText, fun a b ha hb =>
    ⟨ofBounds_utcText ha hb, Timestamp.utcText_lt_iff ha hb⟩, fun t ht => ?_⟩
  obtain ⟨hsign, hlast⟩ := Timestamp.unixSeconds_bounds ht
  refine ⟨t.unixSeconds.toNat, ⟨by omega, Timestamp.utcText_eq_text ht (by omega)⟩, ?_⟩
  rintro s ⟨hs, htext⟩
  -- the text is read as one timestamp only
  have hread := Timestamp.parse_utcText hs
  rw [htext, ht.parse_text, Except.ok.injEq] at hread
  rw [hread, Timestamp.unixSeconds_ofUnixSeconds, Int.toNat_natCast]

/-- A leap day, the last second of 9999 and the first of 1970, and a stretch that ends before it
starts. -/
theorem instants_of_texts_certified :
    (∃ indices : List UInt64, indices.map UInt64.toNat = [951827696, 253402300799, 0] ∧
      ofTimestamps ["2000-02-29T12:34:56", "9999-12-31T23:59:59", "1970-01-01T00:00:00"] =
        .ok (.indices indices)) ∧
    ofBounds "2000-02-29T12:34:56" "1970-01-01T00:00:00" =
      .error (.malformedInput (.reversedRange 951827696000 0)) ∧
    "1970-01-01T00:00:00" < "2000-02-29T12:34:56" ∧
    ∃! s : Nat, s ≤ 253402300799 ∧ utcText s = "2000-02-29T12:34:56" := by
  have hleap : Timestamp.IsCanonical ⟨⟨2000, 2, 29⟩, 12, 34, 56⟩ := by
    refine ⟨⟨?_, ?_, ?_, ?_, ?_⟩, ?_, ?_, ?_⟩ <;> decide
  have hlast : Timestamp.IsCanonical ⟨⟨9999, 12, 31⟩, 23, 59, 59⟩ := by
    refine ⟨⟨?_, ?_, ?_, ?_, ?_⟩, ?_, ?_, ?_⟩ <;> decide
  have hfirst : Timestamp.IsCanonical ⟨⟨1970, 1, 1⟩, 0, 0, 0⟩ := by
    refine ⟨⟨?_, ?_, ?_, ?_, ?_⟩, ?_, ?_, ?_⟩ <;> decide
  have hleap' : utcText 951827696 = "2000-02-29T12:34:56" := by
    rw [Timestamp.utcText_eq_text hleap (by decide)]
    decide
  have hlast' : utcText 253402300799 = "9999-12-31T23:59:59" := by
    rw [Timestamp.utcText_eq_text hlast (by decide)]
    decide
  have hfirst' : utcText 0 = "1970-01-01T00:00:00" := by
    rw [Timestamp.utcText_eq_text hfirst (by decide)]
    decide
  obtain ⟨hseconds, hbounds, hunique⟩ := instants_of_texts
  have hlist := hseconds [951827696, 253402300799, 0] (by decide)
  obtain ⟨⟨start, stop, -, -, hrange⟩, -⟩ := hbounds 951827696 0 (by decide) (by decide)
  have horder := (hbounds 0 951827696 (by decide) (by decide)).2.mpr (by decide)
  have hone := hunique _ hleap
  simp only [List.map_cons, List.map_nil, hleap', hlast', hfirst'] at hlist hrange horder
  exact ⟨hlist, hrange, horder, hone⟩

/-! ## All texts -/

/-- Both ways of reading a text name one instant, or neither of them reads it. -/
def SameInstant (text : String) : Prop :=
  ((∀ payload, ofTimestamps [text] ≠ .ok payload) ∧
    ∀ payload, ofBounds text text ≠ .ok payload) ∨
  ∃ s m : UInt64, ofTimestamps [text] = .ok (.indices [s]) ∧
    ofBounds text text = .ok (.range m m) ∧ m.toNat = 1000 * s.toNat

/-- The two ways of reading a text name instants a second apart. -/
def SecondApart (text : String) : Prop :=
  ∃ s m : UInt64, ofTimestamps [text] = .ok (.indices [s]) ∧
    ofBounds text text = .ok (.range m m) ∧ m.toNat = 1000 * (s.toNat + 1)

/-- A text is before 1970 in seconds and the start of 1970 in milliseconds. -/
def OnlyMilliseconds (text : String) : Prop :=
  ofTimestamps [text] = .error (.malformedInput (.beforeEpoch (-1))) ∧
    ofBounds text text = .ok (.range 0 0)

/-- A text of a leap second, the one at the end of 1969 or a later one. -/
def LeapSecond (text : String) : Prop :=
  ∃ t : Timestamp, Timestamp.parse text = .ok t ∧ t.second = 60 ∧ -1 ≤ t.unixSeconds

section
variable {text : String} {t : Timestamp}

theorem exists_ofTimestamps (h : Timestamp.parse text = .ok t) (hsign : 0 ≤ t.unixSeconds) :
    ∃ s : UInt64, ofTimestamps [text] = .ok (.indices [s]) ∧ t.unixSeconds = s.toNat := by
  have hlt := (Timestamp.isValid_of_parse h).unixSeconds_lt
  obtain ⟨s, hs, hinstant⟩ := exists_instantOf h hsign (Int.lt_trans hlt (by decide))
  exact ⟨s, ofTimestamps_singleton_of_ok hs, hinstant⟩

theorem exists_ofBounds (h : Timestamp.parse text = .ok t) (hsign : 0 ≤ t.unixMillis) :
    ∃ m : UInt64, ofBounds text text = .ok (.range m m) ∧ t.unixMillis = m.toNat := by
  have hlt := (Timestamp.isValid_of_parse h).unixMillis_lt
  obtain ⟨m, hm, hinstant⟩ := exists_instantOf h hsign hlt
  exact ⟨m, ofBounds_self_of_ok hm, hinstant⟩

theorem ofTimestamps_of_before (h : Timestamp.parse text = .ok t) (hsign : t.unixSeconds < 0) :
    ofTimestamps [text] = .error (.malformedInput (.beforeEpoch t.unixSeconds)) :=
  ofTimestamps_singleton_of_error (instantOf_of_before h hsign)

theorem ofBounds_of_before (h : Timestamp.parse text = .ok t) (hsign : t.unixMillis < 0) :
    ofBounds text text = .error (.malformedInput (.beforeEpoch t.unixMillis)) :=
  ofBounds_self_of_error (instantOf_of_before h hsign)

theorem sameInstant_of_error {e e' : ProtocolError} (h : ofTimestamps [text] = .error e)
    (h' : ofBounds text text = .error e') : SameInstant text := by
  refine .inl ⟨fun payload hok => ?_, fun payload hok => ?_⟩
  · rw [h] at hok
    cases hok
  · rw [h'] at hok
    cases hok

theorem not_sameInstant_of_secondApart (h : SecondApart text) : ¬ SameInstant text := by
  obtain ⟨s, m, hs, hm, hapart⟩ := h
  rintro (⟨hnone, -⟩ | ⟨s', m', hs', hm', hsame⟩)
  · exact hnone _ hs
  · rw [hs, Except.ok.injEq] at hs'
    rw [hm, Except.ok.injEq] at hm'
    cases hs'
    cases hm'
    omega

theorem not_sameInstant_of_onlyMilliseconds (h : OnlyMilliseconds text) : ¬ SameInstant text := by
  obtain ⟨hs, hm⟩ := h
  rintro (⟨-, hnone⟩ | ⟨s, m, hs', -, -⟩)
  · exact hnone _ hm
  · rw [hs] at hs'
    cases hs'

theorem apart_of_leapSecond (h : LeapSecond text) : SecondApart text ∨ OnlyMilliseconds text := by
  obtain ⟨t, hparse, hleap, hsign⟩ := h
  have hmillis := Timestamp.unixMillis_of_leap hleap
  obtain ⟨m, hm, hm'⟩ := exists_ofBounds hparse (by omega)
  by_cases hepoch : t.unixSeconds = -1
  · obtain rfl : m = 0 := by
      rw [← UInt64.toNat_inj, UInt64.toNat_zero]
      omega
    have hs := ofTimestamps_of_before hparse (by omega)
    rw [hepoch] at hs
    exact .inr ⟨hs, hm⟩
  · obtain ⟨s, hs, hs'⟩ := exists_ofTimestamps hparse (by omega)
    exact .inl ⟨s, m, hs, hm, by omega⟩

theorem sameInstant_of_not_leapSecond (h : ¬ LeapSecond text) : SameInstant text := by
  cases hparse : Timestamp.parse text with
  | error fault =>
    exact sameInstant_of_error (ofTimestamps_singleton_of_error (instantOf_of_fault hparse))
      (ofBounds_self_of_error (instantOf_of_fault hparse))
  | ok t =>
    by_cases hleap : t.second = 60
    · -- an earlier leap second is before 1970 on both scales
      have hsign : ¬ -1 ≤ t.unixSeconds := fun hsign => h ⟨t, hparse, hleap, hsign⟩
      have hmillis := Timestamp.unixMillis_of_leap hleap
      exact sameInstant_of_error (ofTimestamps_of_before hparse (by omega))
        (ofBounds_of_before hparse (by omega))
    · have hmillis := Timestamp.unixMillis_of_not_leap hleap
      by_cases hsign : 0 ≤ t.unixSeconds
      · obtain ⟨s, hs, hs'⟩ := exists_ofTimestamps hparse hsign
        obtain ⟨m, hm, hm'⟩ := exists_ofBounds hparse (by omega)
        exact .inr ⟨s, m, hs, hm, by omega⟩
      · exact sameInstant_of_error (ofTimestamps_of_before hparse (by omega))
          (ofBounds_of_before hparse (by omega))

end

/-- **Where seconds and milliseconds name the same instant.** Both ways of reading a text name one
instant, or neither reads it, unless the text is a leap second from the end of 1969 on. For these
leap seconds the two ways are a second apart, or the text is only accepted in milliseconds. -/
theorem same_instant_iff (text : String) :
    (SameInstant text ↔ ¬ LeapSecond text) ∧
    (LeapSecond text ↔ SecondApart text ∨ OnlyMilliseconds text) := by
  have hapart : SecondApart text ∨ OnlyMilliseconds text → ¬ SameInstant text := by
    rintro (h | h)
    · exact not_sameInstant_of_secondApart h
    · exact not_sameInstant_of_onlyMilliseconds h
  refine ⟨⟨fun h hleap => hapart (apart_of_leapSecond hleap) h, sameInstant_of_not_leapSecond⟩,
    apart_of_leapSecond, fun h => ?_⟩
  by_contra hleap
  exact hapart h (sameInstant_of_not_leapSecond hleap)

/-- The leap seconds at the end of June 2024 and of 1969. -/
theorem exists_instants_apart :
    ofTimestamps ["2024-06-30T23:59:60"] = .ok (.indices [1719791999]) ∧
    ofBounds "2024-06-30T23:59:60" "2024-06-30T23:59:60" =
      .ok (.range 1719792000000 1719792000000) ∧
    ¬ SameInstant "2024-06-30T23:59:60" ∧
    ofTimestamps ["1969-12-31T23:59:60"] = .error (.malformedInput (.beforeEpoch (-1))) ∧
    ofBounds "1969-12-31T23:59:60" "1969-12-31T23:59:60" = .ok (.range 0 0) ∧
    ¬ SameInstant "1969-12-31T23:59:60" := by
  have hjune : Timestamp.parse "2024-06-30T23:59:60" = .ok ⟨⟨2024, 6, 30⟩, 23, 59, 60⟩ := by
    decide
  have hepoch : Timestamp.parse "1969-12-31T23:59:60" = .ok ⟨⟨1969, 12, 31⟩, 23, 59, 60⟩ := by
    decide
  have hs : ofTimestamps ["2024-06-30T23:59:60"] = .ok (.indices [1719791999]) :=
    ofTimestamps_singleton_of_ok (secondOf_eq_ok_iff.mpr ⟨_, hjune, by decide⟩)
  have hm : ofBounds "2024-06-30T23:59:60" "2024-06-30T23:59:60" =
      .ok (.range 1719792000000 1719792000000) :=
    ofBounds_self_of_ok (milliOf_eq_ok_iff.mpr ⟨_, hjune, by decide⟩)
  have hs' : ofTimestamps ["1969-12-31T23:59:60"] =
      .error (.malformedInput (.beforeEpoch (-1))) :=
    ofTimestamps_of_before hepoch (by decide)
  have hm' : ofBounds "1969-12-31T23:59:60" "1969-12-31T23:59:60" = .ok (.range 0 0) :=
    ofBounds_self_of_ok (milliOf_eq_ok_iff.mpr ⟨_, hepoch, by decide⟩)
  exact ⟨hs, hm, not_sameInstant_of_secondApart ⟨_, _, hs, hm, by decide⟩,
    hs', hm', not_sameInstant_of_onlyMilliseconds ⟨hs', hm'⟩⟩

end Payload

end KeySharing
