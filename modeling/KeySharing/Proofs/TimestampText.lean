import KeySharing.Bytes
import KeySharing.Timestamp
import KeySharing.Proofs.Calendar
import Mathlib.Data.List.TakeWhile

/-!
# Written timestamps

The reader of timestamps accepts more than one text for a timestamp. One of them is the usual one:
four digits for the year, two for every other number, and nothing in between but the separators.
It is read back, and since all its numbers have a fixed width, it is ordered as a text in the way
the timestamps are ordered in time.

- `Timestamp.Reader.bind_of_ok`, `Timestamp.Reader.bind_eq_ok_iff`: readers one after the other.
- `Timestamp.digits`, `Timestamp.number_digits`: numbers of a fixed width.
- `Timestamp.text`, `Timestamp.parse_text`: the usual text of a timestamp is read back.
- `Timestamp.isValid_of_parse`: whatever is read is a timestamp of the calendar.
- `Timestamp.ofUnixSeconds`, `Timestamp.utcText`: the timestamp and the text of an instant.
- `Timestamp.utcText_lt_iff`: texts are in the order of their instants.
-/

namespace KeySharing

namespace Timestamp

/-! ## Readers -/

namespace Reader

variable {α β : Type} {m : Reader α} {f : α → Reader β} {input rest : List Char}

theorem bind_of_ok {a : α} (h : m input = .ok (a, rest)) : (m >>= f) input = f a rest := by
  show (m input >>= fun p => f p.1 p.2) = f a rest
  rw [h]
  rfl

theorem bind_eq_ok_iff {b : β} : (m >>= f) input = .ok (b, rest) ↔
    ∃ a middle, m input = .ok (a, middle) ∧ f a middle = .ok (b, rest) := by
  show (m input >>= fun p => f p.1 p.2) = .ok (b, rest) ↔ _
  cases hm : m input with
  | error fault => simp [bind, Except.bind]
  | ok p => simp [bind, Except.bind, Prod.ext_iff]

end Reader

/-! ## Numbers of a fixed width -/

/-- The last digits of a number, with zeros in front. -/
def digits : (width n : Nat) → List Char
  | 0, _ => []
  | width + 1, n => digits width (n / 10) ++ [Nat.digitChar (n % 10)]

@[simp] theorem length_digits (width n : Nat) : (digits width n).length = width := by
  induction width generalizing n with
  | zero => rfl
  | succ width ih =>
    rw [digits, List.length_append, ih]
    rfl

theorem isDigit_of_mem_digits {width n : Nat} {c : Char} (h : c ∈ digits width n) :
    c.isDigit = true := by
  induction width generalizing n with
  | zero => cases h
  | succ width ih =>
    rcases List.mem_append.mp h with hfront | hlast
    · exact ih hfront
    · rw [List.mem_singleton.mp hlast, Nat.isDigit_digitChar, decide_eq_true_eq]
      exact Nat.mod_lt n (by decide)

theorem exists_digits_succ_eq (width n : Nat) :
    ∃ c more, digits (width + 1) n = c :: more ∧ c.isDigit = true := by
  cases h : digits (width + 1) n with
  | nil =>
    have hlength := length_digits (width + 1) n
    rw [h] at hlength
    cases hlength
  | cons c more => exact ⟨c, more, rfl, isDigit_of_mem_digits (h ▸ List.mem_cons_self)⟩

theorem numberOfDigits_digits (width n : Nat) :
    numberOfDigits (digits width n) = n % 10 ^ width := by
  induction width generalizing n with
  | zero =>
    rw [Nat.pow_zero, Nat.mod_one]
    rfl
  | succ width ih =>
    have hdigit : (Nat.digitChar (n % 10)).toNat - 48 = n % 10 := by
      rw [Nat.toNat_digitChar_of_lt_ten (Nat.mod_lt n (by decide)), Nat.add_sub_cancel_left]
    -- the last digit counts once, and those in front ten times
    unfold numberOfDigits at ih ⊢
    rw [digits, List.foldl_append, ih, List.foldl_cons, List.foldl_nil, hdigit, Nat.pow_succ',
      Nat.mod_mul, Nat.add_comm]

/-- A number is read off its digits, whatever comes behind them. -/
theorem number_digits {width n : Nat} (hwidth : 0 < width) (hn : n < 10 ^ width)
    (hbound : n < numberBound) (rest : List Char) :
    number (some width) (digits width n ++ rest) = .ok (n, rest) := by
  have hlength := length_digits width n
  have hvalue : numberOfDigits (digits width n) = n := by
    rw [numberOfDigits_digits, Nat.mod_eq_of_lt hn]
  have htaken : ((digits width n ++ rest).take width).takeWhile Char.isDigit =
      digits width n := by
    rw [List.take_left' hlength, List.takeWhile_eq_self_iff]
    exact fun c => isDigit_of_mem_digits
  have hnonempty : (digits width n).isEmpty = false := by
    rw [List.isEmpty_eq_false_iff, ← List.length_pos_iff, hlength]
    exact hwidth
  unfold number
  simp only [htaken, hnonempty, hvalue, if_pos hbound, List.drop_left, Bool.false_eq_true,
    if_false]

theorem isBlank_of_isDigit {c : Char} (h : c.isDigit = true) : Text.isBlank c = false := by
  have hblanks : (Text.blanks.all fun d => !d.isDigit) = true := by decide
  by_contra hblank
  rw [Bool.not_eq_false, Text.isBlank, List.contains_iff_mem] at hblank
  have hc := List.all_eq_true.mp hblanks c hblank
  rw [h] at hc
  cases hc

theorem skipBlanks_digits (width n : Nat) (rest : List Char) :
    skipBlanks (digits (width + 1) n ++ rest) = .ok ((), digits (width + 1) n ++ rest) := by
  obtain ⟨c, more, hdigits, hc⟩ := exists_digits_succ_eq width n
  unfold skipBlanks Text.dropBlanks
  rw [hdigits, List.cons_append, List.dropWhile_cons_of_neg (by simp [isBlank_of_isDigit hc])]

theorem sign?_digits (width n : Nat) (rest : List Char) :
    sign? (digits (width + 1) n ++ rest) = .ok (none, digits (width + 1) n ++ rest) := by
  obtain ⟨c, more, hdigits, hc⟩ := exists_digits_succ_eq width n
  rw [hdigits, List.cons_append]
  unfold sign?
  split
  · next heq =>
    cases heq
    cases hc
  · next heq =>
    cases heq
    cases hc
  · rfl

/-! ## Parts of a timestamp -/

section
variable {input rest : List Char}

theorem separator_cons (c : Char) (rest : List Char) :
    separator c (c :: rest) = .ok ((), rest) := by
  show (if c = c then _ else _) = _
  rw [if_pos rfl]

theorem within_of_le {low high n : Int} (hlow : low ≤ n) (hhigh : n ≤ high)
    (input : List Char) : within low high n input = .ok ((), input) := by
  rw [within, if_pos ⟨hlow, hhigh⟩]
  rfl

theorem bounds_of_within {low high n : Int} {u : Unit}
    (h : within low high n input = .ok (u, rest)) : low ≤ n ∧ n ≤ high := by
  unfold within at h
  split at h
  · assumption
  · cases h

theorem component_digits {low high n : Nat} (hlow : low ≤ n) (hhigh : n ≤ high) (hn : n < 100)
    (rest : List Char) : component low high (digits 2 n ++ rest) = .ok (n, rest) := by
  have hbound : n < numberBound := Nat.lt_trans hn (by decide)
  rw [component, Reader.bind_of_ok (skipBlanks_digits 1 n rest),
    Reader.bind_of_ok (number_digits (by decide) hn hbound rest),
    Reader.bind_of_ok (within_of_le (Int.ofNat_le.mpr hlow) (Int.ofNat_le.mpr hhigh) rest)]
  rfl

theorem bounds_of_component {low high n : Nat} (h : component low high input = .ok (n, rest)) :
    low ≤ n ∧ n ≤ high := by
  simp only [component, Reader.bind_eq_ok_iff] at h
  obtain ⟨_, _, _, m, _, _, _, _, hwithin, hpure⟩ := h
  cases hpure
  have := bounds_of_within hwithin
  omega

theorem year_digits {y : Int} (hlow : 0 ≤ y) (hhigh : y ≤ 9999) (rest : List Char) :
    year (digits 4 y.toNat ++ rest) = .ok (y, rest) := by
  have hn : y.toNat < 10 ^ 4 := by omega
  have hbound : y.toNat < numberBound := Nat.lt_trans hn (by decide)
  rw [year, Reader.bind_of_ok (skipBlanks_digits 3 y.toNat rest),
    Reader.bind_of_ok (sign?_digits 3 y.toNat rest)]
  -- there is no sign
  show (number (some 4) >>= _) _ = _
  rw [Reader.bind_of_ok (number_digits (by decide) hn hbound rest), Reader.bind_of_ok rfl,
    Int.toNat_of_nonneg hlow]
  have hmin : Int32.minValue.toInt ≤ 0 := by decide
  have hmax : 9999 ≤ Int32.maxValue.toInt := by decide
  exact Reader.bind_of_ok (within_of_le (by omega) (by omega) rest)

end

/-! ## The text of a timestamp -/

/-- The date as `YYYY-MM-DD`. -/
def writtenDate (date : Date) : List Char :=
  digits 4 date.year.toNat ++ '-' :: (digits 2 date.month ++ '-' :: digits 2 date.day)

/-- The time of day as `HH:MM:SS`. -/
def writtenTime (hour minute second : Nat) : List Char :=
  digits 2 hour ++ ':' :: (digits 2 minute ++ ':' :: digits 2 second)

/-- The timestamp as `YYYY-MM-DDTHH:MM:SS`. -/
def text (t : Timestamp) : String :=
  String.ofList (writtenDate t.date ++ 'T' :: writtenTime t.hour t.minute t.second)

/-- A timestamp of the calendar. -/
structure IsValid (t : Timestamp) : Prop where
  /-- The calendar has the year. -/
  year_mem : yearRange.1 ≤ t.date.year ∧ t.date.year ≤ yearRange.2
  /-- The date exists. -/
  date_isValid : t.date.isValid = true
  /-- A day has 24 hours. -/
  hour_le : t.hour ≤ 23
  /-- An hour has 60 minutes. -/
  minute_le : t.minute ≤ 59
  /-- A minute has 60 seconds, and one more with a leap second. -/
  second_le : t.second ≤ 60

/-- The usual text of a timestamp is read back, if its year has four digits. -/
theorem parse_text {t : Timestamp} (h : t.IsValid) (hyear : 0 ≤ t.date.year)
    (hyear' : t.date.year ≤ 9999) : parse t.text = .ok t := by
  obtain ⟨⟨y, month, day⟩, hour, minute, second⟩ := t
  have hdate := Date.isValid_iff.mp h.date_isValid
  have hmonth : 1 ≤ month ∧ month ≤ 12 := hdate.1
  have hday : 1 ≤ day ∧ day ≤ 31 :=
    ⟨hdate.2.1, Nat.le_trans hdate.2.2 (Calendar.lastDay_bounds y month).2⟩
  have hhour : hour ≤ 23 := h.hour_le
  have hminute : minute ≤ 59 := h.minute_le
  have hsecond : second ≤ 60 := h.second_le
  have hread : reader (text ⟨⟨y, month, day⟩, hour, minute, second⟩).toList =
      .ok (⟨⟨y, month, day⟩, hour, minute, second⟩, []) := by
    rw [text, String.toList_ofList, writtenDate, writtenTime, ← List.append_nil (digits 2 second)]
    simp only [List.append_assoc, List.cons_append]
    unfold reader
    -- each part is read off the front and leaves the next one there
    rw [Reader.bind_of_ok (year_digits hyear hyear' _),
      Reader.bind_of_ok (separator_cons '-' _),
      Reader.bind_of_ok (component_digits hmonth.1 hmonth.2 (by omega) _),
      Reader.bind_of_ok (separator_cons '-' _),
      Reader.bind_of_ok (component_digits hday.1 hday.2 (by omega) _),
      Reader.bind_of_ok (separator_cons 'T' _),
      Reader.bind_of_ok (component_digits (Nat.zero_le hour) hhour (by omega) _),
      Reader.bind_of_ok (separator_cons ':' _),
      Reader.bind_of_ok (component_digits (Nat.zero_le minute) hminute (by omega) _),
      Reader.bind_of_ok (separator_cons ':' _),
      Reader.bind_of_ok (component_digits (Nat.zero_le second) hsecond (by omega) []),
      -- nothing is left, and the date exists
      Reader.bind_of_ok rfl,
      Reader.bind_of_ok (within_of_le h.year_mem.1 h.year_mem.2 []), if_pos h.date_isValid]
    rfl
  show Prod.fst <$> reader _ = _
  rw [hread]
  rfl

theorem parse_eq_ok_iff {input : String} {t : Timestamp} :
    parse input = .ok t ↔ ∃ rest, reader input.toList = .ok (t, rest) := by
  show Prod.fst <$> reader _ = .ok t ↔ _
  cases reader input.toList with
  | error fault => simp [Functor.map, Except.map]
  | ok p => simp [Functor.map, Except.map, Prod.ext_iff]

/-- Whatever is read is a timestamp of the calendar. -/
theorem isValid_of_parse {input : String} {t : Timestamp} (h : parse input = .ok t) :
    t.IsValid := by
  obtain ⟨rest, hread⟩ := parse_eq_ok_iff.mp h
  simp only [reader, Reader.bind_eq_ok_iff] at hread
  obtain ⟨y, _, _, _, _, _, month, _, _, _, _, _, day, _, _, _, _, _, hour, _, hhour, _, _, _,
    minute, _, hminute, _, _, _, second, _, hsecond, _, _, _, _, _, hyear, hdate⟩ := hread
  split at hdate
  · cases hdate
    exact {
      year_mem := bounds_of_within hyear
      date_isValid := by assumption
      hour_le := (bounds_of_component hhour).2
      minute_le := (bounds_of_component hminute).2
      second_le := (bounds_of_component hsecond).2 }
  · cases hdate

/-! ## The timestamp of an instant -/

/-- The timestamp so many seconds after the start of 1970, with days of 86400 seconds. -/
def ofUnixSeconds (n : Nat) : Timestamp :=
  ⟨Date.afterEpoch (n / 86400), n / 3600 % 24, n / 60 % 60, n % 60⟩

/-- The usual text of an instant in universal time. -/
def utcText (n : Nat) : String := (ofUnixSeconds n).text

/-- A timestamp from 1970 to 9999 that is no leap second. -/
structure IsCanonical (t : Timestamp) : Prop extends IsValid t where
  /-- The year is none before 1970. -/
  year_ge : 1970 ≤ t.date.year
  /-- The year has four digits. -/
  year_le : t.date.year ≤ 9999
  /-- The second is one of 60. -/
  second_ne : t.second ≠ 60

section
variable {t : Timestamp} {n : Nat}

theorem IsCanonical.second_le_fiftyNine (h : t.IsCanonical) : t.second ≤ 59 := by
  have hle := h.second_le
  have hne := h.second_ne
  omega

/-- The usual text of a timestamp from 1970 to 9999 is read back. -/
theorem IsCanonical.parse_text (h : t.IsCanonical) : parse t.text = .ok t :=
  Timestamp.parse_text h.toIsValid (Int.le_trans (by decide) h.year_ge) h.year_le

/-- The last second of 9999 is 253402300799. -/
theorem isCanonical_ofUnixSeconds (h : n ≤ 253402300799) : (ofUnixSeconds n).IsCanonical := by
  have hfirst : 1970 ≤ (Date.afterEpoch (n / 86400)).year := Date.year_afterEpoch_ge _
  have hlast : (Date.afterEpoch (n / 86400)).year < 10000 := by
    apply Date.year_afterEpoch_lt
    have hdays : Calendar.daysBeforeYear 10000 = Calendar.daysBeforeYear 1970 + 2932897 := by
      decide
    omega
  have hsecond : n % 60 < 60 := Nat.mod_lt _ (by decide)
  exact {
    year_mem := ⟨Int.le_trans (by decide) hfirst, Int.le_trans (Int.le_of_lt hlast) (by decide)⟩
    date_isValid := Date.isValid_afterEpoch _
    hour_le := Nat.le_of_lt_succ (Nat.mod_lt _ (by decide))
    minute_le := Nat.le_of_lt_succ (Nat.mod_lt _ (by decide))
    second_le := Nat.le_of_lt hsecond
    year_ge := hfirst
    year_le := Int.le_of_lt_add_one hlast
    second_ne := Nat.ne_of_lt hsecond }

theorem unixSeconds_ofUnixSeconds (n : Nat) : (ofUnixSeconds n).unixSeconds = n := by
  simp only [unixSeconds, ofUnixSeconds, Date.dayNumber_afterEpoch]
  omega

theorem unixSeconds_bounds (h : t.IsCanonical) :
    0 ≤ t.unixSeconds ∧ t.unixSeconds ≤ 253402300799 := by
  have hday := Date.dayNumber_nonneg h.date_isValid h.year_ge
  have hyear := Calendar.daysBeforeYear_mono (Int.add_le_add_right h.year_le 1)
  have hend := (Date.dayNumber_bounds h.date_isValid).2
  have hdays : Calendar.daysBeforeYear (9999 + 1) = Calendar.daysBeforeYear 1970 + 2932897 := by
    decide
  have hhour := h.hour_le
  have hminute := h.minute_le
  unfold unixSeconds
  omega

/-- Every timestamp from 1970 on that is no leap second is the one of its instant. -/
theorem ofUnixSeconds_unixSeconds (h : t.IsCanonical) : ofUnixSeconds t.unixSeconds.toNat = t := by
  have hday := Date.dayNumber_nonneg h.date_isValid h.year_ge
  have hreached := Date.afterEpoch_dayNumber h.date_isValid h.year_ge
  obtain ⟨date, hour, minute, second⟩ := t
  have hhour : hour ≤ 23 := h.hour_le
  have hminute : minute ≤ 59 := h.minute_le
  have hsecond : second ≤ 59 := h.second_le_fiftyNine
  simp only at hday hreached
  obtain ⟨days, hdays⟩ := Int.eq_ofNat_of_zero_le hday
  rw [hdays, Int.toNat_natCast] at hreached
  have hinstant : (unixSeconds ⟨date, hour, minute, second⟩).toNat =
      days * 86400 + (hour * 3600 + minute * 60 + second) := by
    simp only [unixSeconds, hdays]
    omega
  have hquotient : (days * 86400 + (hour * 3600 + minute * 60 + second)) / 86400 = days := by omega
  rw [hinstant, ofUnixSeconds, mk.injEq, hquotient, hreached]
  exact ⟨rfl, by omega, by omega, by omega⟩

theorem utcText_eq_text (h : t.IsCanonical) (hn : t.unixSeconds = n) : utcText n = t.text := by
  have hinstant := ofUnixSeconds_unixSeconds h
  rw [hn, Int.toNat_natCast] at hinstant
  rw [utcText, hinstant]

theorem parse_utcText (h : n ≤ 253402300799) : parse (utcText n) = .ok (ofUnixSeconds n) :=
  (isCanonical_ofUnixSeconds h).parse_text

end

/-! ## The order of texts -/

/-- Of two texts that differ at the start, what comes behind does not count. -/
theorem append_lt_append : ∀ {a b : List Char}, a.length = b.length → a < b →
    ∀ x y : List Char, a ++ x < b ++ y
  | [], [], _, h, _, _ => absurd h (List.lt_irrefl [])
  | c :: a, d :: b, hlength, h, x, y => by
    rw [List.cons_append, List.cons_append, List.cons_lt_cons_iff]
    rcases List.cons_lt_cons_iff.mp h with hhead | ⟨hhead, htail⟩
    · exact .inl hhead
    · exact .inr ⟨hhead, append_lt_append (Nat.succ.inj hlength) htail x y⟩

/-- Two texts that agree up to a separator are ordered by what comes behind it. -/
theorem append_cons_lt (a : List Char) (c : Char) {x y : List Char} (h : x < y) :
    a ++ c :: x < a ++ c :: y :=
  List.append_left_lt (List.cons_lt_cons_iff.mpr (.inr ⟨rfl, h⟩))

theorem digitChar_lt : ∀ n < 10, ∀ m < n, Nat.digitChar m < Nat.digitChar n := by decide

theorem digits_lt {width m n : Nat} (h : m < n) (hn : n < 10 ^ width) :
    digits width m < digits width n := by
  induction width generalizing m n with
  | zero =>
    rw [Nat.pow_zero] at hn
    omega
  | succ width ih =>
    rw [Nat.pow_succ] at hn
    unfold digits
    by_cases hfront : m / 10 = n / 10
    · -- only the last digits differ
      rw [hfront]
      refine List.append_left_lt (List.cons_lt_cons_iff.mpr (.inl ?_))
      exact digitChar_lt _ (Nat.mod_lt n (by decide)) _ (by omega)
    · have hlt : digits width (m / 10) < digits width (n / 10) := ih (by omega) (by omega)
      exact append_lt_append (by rw [length_digits, length_digits]) hlt _ _

/-- The smaller number comes first, whatever comes behind. -/
theorem digits_append_lt {width m n : Nat} (h : m < n) (hn : n < 10 ^ width) (x y : List Char) :
    digits width m ++ x < digits width n ++ y :=
  append_lt_append (by rw [length_digits, length_digits]) (digits_lt h hn) x y

theorem writtenDate_append_lt {a b : Date} (ha : 0 ≤ a.year) (hb : b.isValid = true)
    (hb' : b.year ≤ 9999) (h : a.Before b) (x y : List Char) :
    writtenDate a ++ x < writtenDate b ++ y := by
  obtain ⟨⟨-, hmonth⟩, -, hday⟩ := Date.isValid_iff.mp hb
  have hday' := (Calendar.lastDay_bounds b.year b.month).2
  unfold writtenDate
  simp only [List.append_assoc, List.cons_append]
  rcases h with hyear | ⟨hyear, hmonths | ⟨hmonths, hdays⟩⟩
  · exact digits_append_lt (by omega) (by omega) _ _
  · rw [hyear]
    exact append_cons_lt _ '-' (digits_append_lt hmonths (by omega) _ _)
  · rw [hyear, hmonths]
    exact append_cons_lt _ '-' (append_cons_lt _ '-' (digits_append_lt hdays (by omega) _ _))

theorem writtenTime_lt {hour hour' minute minute' second second' : Nat}
    (hhour : hour' < 100) (hminute : minute < 60) (hminute' : minute' < 60)
    (hsecond : second < 60) (hsecond' : second' < 60)
    (h : hour * 3600 + minute * 60 + second < hour' * 3600 + minute' * 60 + second') :
    writtenTime hour minute second < writtenTime hour' minute' second' := by
  unfold writtenTime
  by_cases hhours : hour = hour'
  · rw [hhours]
    apply append_cons_lt
    by_cases hminutes : minute = minute'
    · rw [hminutes]
      apply append_cons_lt
      exact digits_lt (by omega) (by omega)
    · exact digits_append_lt (by omega) (by omega) _ _
  · exact digits_append_lt (by omega) (by omega) _ _

theorem utcText_lt {m n : Nat} (h : m < n) (hn : n ≤ 253402300799) : utcText m < utcText n := by
  have hcanonical := isCanonical_ofUnixSeconds hn
  rw [String.lt_iff, utcText, utcText, text, text, String.toList_ofList, String.toList_ofList]
  by_cases hdays : m / 86400 = n / 86400
  · -- on one day the time of day decides
    simp only [ofUnixSeconds, hdays]
    apply append_cons_lt
    have hhour : n / 3600 % 24 < 100 := by omega
    exact writtenTime_lt hhour (Nat.mod_lt _ (by decide)) (Nat.mod_lt _ (by decide))
      (Nat.mod_lt _ (by decide)) (Nat.mod_lt _ (by decide)) (by omega)
  · have hbefore : (ofUnixSeconds m).date.Before (ofUnixSeconds n).date := by
      simp only [ofUnixSeconds]
      rw [Date.before_iff (Date.isValid_afterEpoch _) (Date.isValid_afterEpoch _),
        Date.dayNumber_afterEpoch, Date.dayNumber_afterEpoch]
      omega
    have hyear : 0 ≤ (ofUnixSeconds m).date.year :=
      Int.le_trans (by decide) (Date.year_afterEpoch_ge _)
    exact writtenDate_append_lt hyear hcanonical.date_isValid hcanonical.year_le hbefore _ _

/-- Texts are in the order of their instants. -/
theorem utcText_lt_iff {m n : Nat} (hm : m ≤ 253402300799) (hn : n ≤ 253402300799) :
    utcText m < utcText n ↔ m < n := by
  refine ⟨fun h => ?_, fun h => utcText_lt h hn⟩
  rcases Nat.lt_trichotomy m n with hlt | rfl | hlt
  · exact hlt
  · exact absurd h (String.lt_irrefl _)
  · exact absurd h (String.lt_asymm (utcText_lt hlt hm))

end Timestamp

end KeySharing
