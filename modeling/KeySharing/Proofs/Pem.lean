import KeySharing.Pem
import KeySharing.Proofs.Base64

/-!
# The bodies of PEM texts

A text that is read has two boundary lines, and what stands between them is its body. Line breaks
aside, the body is the Base64 text of what is read: every full line holds whole groups, so the lines
can be read one by one. There may be other text in front and blanks at both ends, and lines end in
three ways, but none of this reaches into the body. In the other direction every text that is
written is read.

- `Pem.HasBody`: the body of a text. There is one at most (`Pem.HasBody.unique`).
- `Pem.withoutBreaks_of_decodeLines`: the lines that are read.
- `Pem.hasBody_of_decode`: the body of a text that is read.
- `Pem.WrittenBody`: what the lines of a written body are.
- `Pem.decode_encode`: a written text is read.
-/

namespace KeySharing

namespace Pem

open Base64 (standard encodePadded decodePadded not_mem_encode not_mem_encodePadded
  encodePadded_append)
open Base64.Alphabet (lawful_standard)

/-! ## Bodies -/

/-- Whether a character belongs to a line break. -/
def isBreak (c : Char) : Bool := c = '\n' || c = '\r'

/-- A text without its line breaks. -/
def withoutBreaks (text : List Char) : List Char := text.filter fun c => !isBreak c

/-- The body of a PEM text with a label: what stands between the boundary lines, without the line
breaks. Nothing but blanks follows the last boundary line. -/
def HasBody (label text : String) (body : List Char) : Prop :=
  ∃ before between after : List Char,
    text.toList = before ++ opening ++ label.toList ++ dashes ++ between ++
      closing label.toList ++ after ∧
    '-' ∉ between ∧ (∀ c ∈ after, Text.isBlank c) ∧ body = withoutBreaks between

/-- A text is cut at its last dash in one way only. -/
theorem append_dash_inj {front front' back back' : List Char}
    (h : front ++ '-' :: back = front' ++ '-' :: back') (hback : '-' ∉ back)
    (hback' : '-' ∉ back') : front = front' ∧ back = back' := by
  rcases List.append_eq_append_iff.mp h with ⟨middle, hfront, hrest⟩ | ⟨middle, hfront, hrest⟩
  · cases middle with
    | nil =>
      rw [List.append_nil] at hfront
      exact ⟨hfront.symm, (List.cons.inj hrest).2⟩
    | cons c middle =>
      obtain ⟨-, rfl⟩ := List.cons.inj hrest
      exact absurd (List.mem_append_right _ List.mem_cons_self) hback
  · cases middle with
    | nil =>
      rw [List.append_nil] at hfront
      exact ⟨hfront, (List.cons.inj hrest).2.symm⟩
    | cons c middle =>
      obtain ⟨-, rfl⟩ := List.cons.inj hrest
      exact absurd (List.mem_append_right _ List.mem_cons_self) hback'

/-- Both boundary lines end in a dash. -/
theorem exists_append_dashes_eq (front : List Char) :
    ∃ start : List Char, front ++ dashes = start ++ ['-'] := by
  have hdashes : dashes = ['-', '-', '-', '-'] ++ ['-'] := by decide +kernel
  exact ⟨front ++ ['-', '-', '-', '-'], by rw [hdashes, List.append_assoc]⟩

/-- A text has one body only. -/
theorem HasBody.unique {label text : String} {body body' : List Char}
    (h : HasBody label text body) (h' : HasBody label text body') : body = body' := by
  obtain ⟨before, between, after, htext, hbetween, hafter, rfl⟩ := h
  obtain ⟨before', between', after', htext', hbetween', hafter', rfl⟩ := h'
  have hblank : ∀ {rest : List Char}, (∀ c ∈ rest, Text.isBlank c) → '-' ∉ rest := by
    intro rest hrest hdash
    exact absurd (hrest '-' hdash) (by decide)
  obtain ⟨final, hfinal⟩ : ∃ final, closing label.toList = final ++ ['-'] :=
    exists_append_dashes_eq _
  obtain ⟨first, hfirst⟩ := exists_append_dashes_eq (before ++ opening ++ label.toList)
  obtain ⟨first', hfirst'⟩ := exists_append_dashes_eq (before' ++ opening ++ label.toList)
  rw [hfirst, hfinal] at htext
  rw [hfirst', hfinal] at htext'
  -- the last dash of the text ends the last line, and the last dash before that ends the first line
  have hlast : (first ++ ['-'] ++ between ++ final) ++ '-' :: after =
      (first' ++ ['-'] ++ between' ++ final) ++ '-' :: after' := by
    simpa only [List.append_assoc, List.cons_append, List.nil_append] using
      htext.symm.trans htext'
  have hfront := (append_dash_inj hlast (hblank hafter) (hblank hafter')).1
  have hbody : first ++ '-' :: between = first' ++ '-' :: between' := by
    simpa only [List.append_assoc, List.cons_append, List.nil_append] using
      List.append_cancel_right hfront
  rw [(append_dash_inj hbody hbetween hbetween').2]

/-! ## Inversion of the steps -/

theorem after?_eq_some_iff {front text rest : List Char} :
    after? front text = some rest ↔ text = front ++ rest := by
  rw [after?, Option.ite_none_right_eq_some, List.isPrefixOf_iff_prefix]
  constructor
  · rintro ⟨⟨tail, rfl⟩, h⟩
    rw [List.drop_left, Option.some.injEq] at h
    rw [h]
  · rintro rfl
    exact ⟨List.prefix_append front rest, congrArg some List.drop_left⟩

/-- A line break is taken away at the start. -/
theorem exists_of_afterLineBreak? {text rest : List Char} (h : afterLineBreak? text = some rest) :
    ∃ front : List Char, (∀ c ∈ front, isBreak c) ∧ text = front ++ rest := by
  rw [afterLineBreak?.eq_def] at h
  split at h
  · cases h
    exact ⟨['\n'], List.forall_mem_singleton.mpr rfl, rfl⟩
  · cases h
    exact ⟨['\r', '\n'], List.forall_mem_cons.mpr ⟨rfl, List.forall_mem_singleton.mpr rfl⟩, rfl⟩
  · cases h
    exact ⟨['\r'], List.forall_mem_singleton.mpr rfl, rfl⟩
  · cases h

/-- A line break is taken away at the end. -/
theorem exists_of_beforeLineBreak? {text rest : List Char}
    (h : beforeLineBreak? text = some rest) :
    ∃ back : List Char, (∀ c ∈ back, isBreak c) ∧ text = rest ++ back := by
  rw [beforeLineBreak?] at h
  split at h
  · rename_i hreverse
    cases h
    refine ⟨['\r', '\n'],
      List.forall_mem_cons.mpr ⟨rfl, List.forall_mem_singleton.mpr rfl⟩, ?_⟩
    rw [← List.reverse_reverse text, hreverse]
    simp
  · rename_i hreverse
    cases h
    refine ⟨['\n'], List.forall_mem_singleton.mpr rfl, ?_⟩
    rw [← List.reverse_reverse text, hreverse]
    simp
  · rename_i hreverse
    cases h
    refine ⟨['\r'], List.forall_mem_singleton.mpr rfl, ?_⟩
    rw [← List.reverse_reverse text, hreverse]
    simp
  · cases h

theorem exists_of_skipForeword : ∀ {text rest : List Char}, skipForeword text = some rest →
    ∃ front, text = front ++ opening ++ rest
  | [], rest, h => by cases h
  | c :: text, rest, h => by
    rw [skipForeword] at h
    split at h
    · cases h
    · split at h
      · rename_i hopening
        obtain ⟨tail, rfl⟩ := List.isPrefixOf_iff_prefix.mp hopening.2
        rw [List.drop_left, Option.some.injEq] at h
        exact ⟨[c], by rw [h]; rfl⟩
      · obtain ⟨front, rfl⟩ := exists_of_skipForeword h
        exact ⟨c :: front, rfl⟩

/-- Trimming takes blanks away at both ends. -/
theorem exists_eq_append_trim (text : List Char) :
    ∃ before after : List Char, (∀ c ∈ after, Text.isBlank c) ∧
      text = before ++ Text.trim text ++ after := by
  have hfront (text : List Char) : ∃ front : List Char, (∀ c ∈ front, Text.isBlank c) ∧
      text = front ++ Text.dropBlanks text :=
    ⟨text.takeWhile Text.isBlank, fun c hc => List.mem_takeWhile_imp hc,
      List.takeWhile_append_dropWhile.symm⟩
  obtain ⟨before, -, hbefore⟩ := hfront text
  obtain ⟨after, hblank, hafter⟩ := hfront (Text.dropBlanks text).reverse
  refine ⟨before, after.reverse, fun c hc => hblank c (List.mem_reverse.mp hc), ?_⟩
  have htail := congrArg List.reverse hafter
  rw [List.reverse_reverse, List.reverse_append] at htail
  rw [Text.trim, List.append_assoc, ← htail, ← hbefore]

theorem exists_eq_dropLineBreak_append (text : List Char) :
    ∃ back : List Char, (∀ c ∈ back, isBreak c) ∧ text = dropLineBreak text ++ back := by
  rw [dropLineBreak]
  cases h : beforeLineBreak? text with
  | none => exact ⟨[], fun c hc => (List.not_mem_nil hc).elim, (List.append_nil text).symm⟩
  | some rest => exact exists_of_beforeLineBreak? h

/-- The body in what follows the opening of the first boundary line. -/
def bodyAfter? (label rest : List Char) : Option (List Char) := do
  let rest ← after? (label ++ dashes) rest
  let rest ← afterLineBreak? rest
  let final := closing label
  if rest.drop (rest.length - final.length) = final then
    let body ← beforeLineBreak? (rest.take (rest.length - final.length))
    if body.isEmpty then none else some body
  else none

/-- The opening stands at the start of a text or behind its foreword. -/
theorem body?_eq_bind (label text : List Char) :
    body? label text = ((after? opening (Text.trim text)).or
      (skipForeword (Text.trim text))).bind (bodyAfter? label) := by
  rw [body?]
  cases after? opening (Text.trim text) with
  | none => rfl
  | some rest => rfl

theorem exists_of_bodyAfter? {label rest body : List Char}
    (h : bodyAfter? label rest = some body) :
    ∃ front back : List Char, rest = label ++ dashes ++ (front ++ body ++ back) ++ closing label ∧
      (∀ c ∈ front, isBreak c) ∧ ∀ c ∈ back, isBreak c := by
  rw [bodyAfter?] at h
  obtain ⟨line, hlabel, h⟩ := Option.bind_eq_some_iff.mp h
  obtain ⟨inner, hinner, h⟩ := Option.bind_eq_some_iff.mp h
  rw [Option.ite_none_right_eq_some] at h
  obtain ⟨hclosing, h⟩ := h
  obtain ⟨found, hfound, h⟩ := Option.bind_eq_some_iff.mp h
  rw [Option.ite_none_left_eq_some, Option.some.injEq] at h
  obtain ⟨-, rfl⟩ := h
  obtain rfl := after?_eq_some_iff.mp hlabel
  obtain ⟨front, hfront, rfl⟩ := exists_of_afterLineBreak? hinner
  obtain ⟨back, hback, hbody⟩ := exists_of_beforeLineBreak? hfound
  have hcut : inner = found ++ back ++ closing label := by
    rw [← hbody]
    exact (List.take_append_drop _ inner).symm.trans (congrArg _ hclosing)
  refine ⟨front, back, ?_, hfront, hback⟩
  rw [hcut]
  simp only [List.append_assoc]

/-- The body is found between the boundary lines. -/
theorem exists_of_body? {label text body : List Char} (h : body? label text = some body) :
    ∃ before front back after : List Char,
      text = before ++ opening ++ label ++ dashes ++ (front ++ body ++ back) ++ closing label ++
        after ∧
      (∀ c ∈ front, isBreak c) ∧ (∀ c ∈ back, isBreak c) ∧ ∀ c ∈ after, Text.isBlank c := by
  rw [body?_eq_bind] at h
  obtain ⟨rest, hopening, h⟩ := Option.bind_eq_some_iff.mp h
  obtain ⟨before, after, hafter, htrim⟩ := exists_eq_append_trim text
  have hforeword : ∃ foreword, Text.trim text = foreword ++ opening ++ rest := by
    rcases Option.or_eq_some_iff.mp hopening with hstart | ⟨-, hforeword⟩
    · exact ⟨[], after?_eq_some_iff.mp hstart⟩
    · exact exists_of_skipForeword hforeword
  obtain ⟨foreword, hforeword⟩ := hforeword
  obtain ⟨front, back, rfl, hfront, hback⟩ := exists_of_bodyAfter? h
  refine ⟨before ++ foreword, front, back, after, ?_, hfront, hback, hafter⟩
  rw [hforeword] at htrim
  rw [htrim]
  simp only [List.append_assoc]

/-! ## Lines -/

theorem withoutBreaks_append (front back : List Char) :
    withoutBreaks (front ++ back) = withoutBreaks front ++ withoutBreaks back :=
  List.filter_append ..

theorem withoutBreaks_of_breaks {text : List Char} (h : ∀ c ∈ text, isBreak c) :
    withoutBreaks text = [] :=
  List.filter_eq_nil_iff.mpr fun c hc => by rw [h c hc]; decide

theorem withoutBreaks_eq_self {text : List Char} (hfeed : '\n' ∉ text) (hreturn : '\r' ∉ text) :
    withoutBreaks text = text := by
  refine List.filter_eq_self.mpr fun c hc => ?_
  simp [isBreak, ne_of_mem_of_not_mem hc hfeed, ne_of_mem_of_not_mem hc hreturn]

/-- Digits stay. -/
theorem withoutBreaks_encode (bytes : Bytes) :
    withoutBreaks (Base64.encode standard bytes) = Base64.encode standard bytes :=
  withoutBreaks_eq_self (not_mem_encode lawful_standard (by decide) bytes)
    (not_mem_encode lawful_standard (by decide) bytes)

/-- Digits and padding stay. -/
theorem withoutBreaks_encodePadded (bytes : Bytes) :
    withoutBreaks (encodePadded standard bytes) = encodePadded standard bytes :=
  withoutBreaks_eq_self (not_mem_encodePadded lawful_standard (by decide) (by decide) bytes)
    (not_mem_encodePadded lawful_standard (by decide) (by decide) bytes)

theorem withoutBreaks_of_decodePadded {text : List Char} {bytes : Bytes}
    (h : decodePadded standard text = some bytes) :
    withoutBreaks text = encodePadded standard bytes := by
  obtain rfl := (Base64.decodePadded_eq_some_iff lawful_standard).mp h
  exact withoutBreaks_encodePadded bytes

/-- **The lines of a body are the digits of its bytes.** -/
theorem withoutBreaks_of_decodeLines : ∀ {count : Nat} {body : List Char} {bytes : Bytes},
    decodeLines count body = some bytes → withoutBreaks body = encodePadded standard bytes
  | 0, body, bytes, h => by
    obtain ⟨back, hback, hbody⟩ := exists_eq_dropLineBreak_append body
    rw [decodeLines] at h
    rw [hbody, withoutBreaks_append, withoutBreaks_of_breaks hback, List.append_nil,
      withoutBreaks_of_decodePadded h]
  | count + 1, body, bytes, h => by
    rw [decodeLines] at h
    have hbody : body = body.take lineLength ++ body.drop lineLength :=
      (List.take_append_drop ..).symm
    split at h
    · rename_i hempty
      obtain ⟨back, hback, hline⟩ := exists_eq_dropLineBreak_append (body.take lineLength)
      rw [hbody, List.isEmpty_iff.mp hempty, List.append_nil, hline, withoutBreaks_append,
        withoutBreaks_of_breaks hback, List.append_nil, withoutBreaks_of_decodePadded h]
    · rename_i hnext
      obtain ⟨rest, hrest, h⟩ := Option.bind_eq_some_iff.mp h
      obtain ⟨front, hfront, hnextBody⟩ := exists_of_afterLineBreak? hrest
      split at h
      · rename_i hempty
        rw [hbody, hnextBody, List.isEmpty_iff.mp hempty, List.append_nil, withoutBreaks_append,
          withoutBreaks_of_breaks hfront, List.append_nil, withoutBreaks_of_decodePadded h]
      · obtain ⟨first, hfirst, h⟩ := Option.bind_eq_some_iff.mp h
        obtain ⟨more, hmore, h⟩ := Option.bind_eq_some_iff.mp h
        cases h
        have hline : body.take lineLength = Base64.encode standard first :=
          Base64.eq_encode_of_decode hfirst
        -- a full line is forty-eight bytes, so the next line starts a group
        have hgroups : first.length % 3 = 0 := by
          have hfull : lineLength ≤ body.length := by
            rw [List.isEmpty_iff, List.drop_eq_nil_iff] at hnext
            exact Nat.le_of_not_le hnext
          have hlength : (body.take lineLength).length = 64 := List.length_take_of_le hfull
          rw [hline, Base64.length_encode] at hlength
          omega
        rw [hbody, hnextBody, hline, withoutBreaks_append, withoutBreaks_append,
          withoutBreaks_of_breaks hfront, List.nil_append, withoutBreaks_encode,
          withoutBreaks_of_decodeLines hmore, encodePadded_append _ _ hgroups]

/-- **A text that is read has a body, and the body is the Base64 text of what is read.** -/
theorem hasBody_of_decode {label text : String} {bytes : Bytes}
    (h : decode label text = some bytes) :
    HasBody label text (encodePadded standard bytes) := by
  rw [decode] at h
  obtain ⟨body, hbody, hlines⟩ := Option.bind_eq_some_iff.mp h
  obtain ⟨before, front, back, after, htext, hfront, hback, hafter⟩ := exists_of_body? hbody
  have hdigits : withoutBreaks (front ++ body ++ back) = encodePadded standard bytes := by
    rw [withoutBreaks_append, withoutBreaks_append, withoutBreaks_of_breaks hfront,
      withoutBreaks_of_breaks hback, List.nil_append, List.append_nil,
      withoutBreaks_of_decodeLines hlines]
  refine ⟨before, front ++ body ++ back, after, htext, fun hdash => ?_, hafter, hdigits.symm⟩
  -- a dash is neither part of a line break nor a digit
  have hmem : '-' ∈ withoutBreaks (front ++ body ++ back) :=
    List.mem_filter.mpr ⟨hdash, by decide⟩
  rw [hdigits] at hmem
  exact not_mem_encodePadded lawful_standard (by decide) (by decide) bytes hmem

/-! ## Written texts -/

/-- The last line of a written body. -/
theorem decodeLines_encodePadded {bytes : Bytes} {count : Nat}
    (h : (encodePadded standard bytes).length ≤ lineLength) :
    decodeLines count (encodePadded standard bytes) = some bytes := by
  have hdigits := Base64.decodePadded_encodePadded lawful_standard bytes
  have hlast : dropLineBreak (encodePadded standard bytes) = encodePadded standard bytes := by
    obtain ⟨back, hback, htext⟩ := exists_eq_dropLineBreak_append (encodePadded standard bytes)
    have hnone : withoutBreaks back = back := by
      refine List.filter_eq_self.mpr fun c hc => ?_
      have hmem : c ∈ withoutBreaks (encodePadded standard bytes) := by
        rw [withoutBreaks_encodePadded, htext]
        exact List.mem_append_right _ hc
      exact (List.mem_filter.mp hmem).2
    rw [withoutBreaks_of_breaks hback] at hnone
    rw [← hnone, List.append_nil] at htext
    exact htext.symm
  cases count with
  | zero => rw [decodeLines, hlast, hdigits]
  | succ count =>
    rw [decodeLines, List.take_of_length_le h, List.drop_eq_nil_of_le h, hlast]
    exact hdigits

/-- What the lines of a byte string are: they hold digits and no carriage return, and they are read
if the reader takes as many lines as the digits need. -/
structure WrittenBody (bytes : Bytes) (body : List Char) : Prop where
  /-- There are digits. -/
  length_pos : 0 < (encodePadded standard bytes).length
  /-- No line ends in a carriage return. -/
  return_not_mem : '\r' ∉ body
  /-- All digits are there. -/
  length_le : (encodePadded standard bytes).length ≤ body.length
  /-- The lines are read. -/
  decodeLines_eq : ∀ count, (encodePadded standard bytes).length ≤ 64 * (count + 1) →
    decodeLines count body = some bytes

theorem WrittenBody.ne_nil {bytes : Bytes} {body : List Char} (h : WrittenBody bytes body) :
    body ≠ [] :=
  List.length_pos_iff.mp (Nat.lt_of_lt_of_le h.length_pos h.length_le)

/-- The last line. -/
theorem WrittenBody.last {bytes : Bytes} (hbytes : bytes ≠ [])
    (h : (encodePadded standard bytes).length ≤ lineLength) :
    WrittenBody bytes (encodePadded standard bytes) where
  length_pos := by
    have hpos := List.length_pos_iff.mpr hbytes
    rw [Base64.length_encodePadded]
    omega
  return_not_mem := not_mem_encodePadded lawful_standard (by decide) (by decide) bytes
  length_le := Nat.le_refl _
  decodeLines_eq _ _ := decodeLines_encodePadded h

/-- A full line, which has the digits of forty-eight bytes, and others that follow. -/
theorem WrittenBody.cons {first more : Bytes} {body : List Char} (hfirst : first.length = 48)
    (h : WrittenBody more body) :
    WrittenBody (first ++ more) (Base64.encode standard first ++ '\n' :: body) := by
  have hfirstLength : (Base64.encode standard first).length = lineLength := by
    rw [Base64.length_encode, hfirst]
    rfl
  have hlength : (encodePadded standard (first ++ more)).length =
      64 + (encodePadded standard more).length := by
    rw [encodePadded_append _ _ (by omega), List.length_append, hfirstLength]
    rfl
  have hpos := h.length_pos
  have hle := h.length_le
  refine ⟨by omega, ?_, ?_, fun count hcount => ?_⟩
  · simp only [List.mem_append, List.mem_cons, not_or]
    exact ⟨not_mem_encode lawful_standard (by decide) first, by decide, h.return_not_mem⟩
  · rw [hlength, List.length_append, List.length_cons, hfirstLength, lineLength]
    omega
  · obtain ⟨count, rfl⟩ : ∃ n, count = n + 1 := ⟨count - 1, by omega⟩
    have hread : Base64.decode standard (Base64.encode standard first) = some first :=
      Base64.decode_encode lawful_standard first
    have hnext : body.isEmpty = false := List.isEmpty_eq_false_iff.mpr h.ne_nil
    have hrest : decodeLines count body = some more := h.decodeLines_eq count (by omega)
    rw [decodeLines, List.take_left' hfirstLength, List.drop_left' hfirstLength]
    simp only [List.isEmpty_cons, afterLineBreak?, Option.bind_eq_bind, Option.bind_some, hnext,
      hread, hrest, Bool.false_eq_true, if_false]

/-- **What is written in lines is read from them**, if there are enough lines to write them. -/
theorem exists_lines_eq (count : Nat) : ∀ {bytes : Bytes}, bytes ≠ [] →
    (encodePadded standard bytes).length ≤ 64 * (count + 1) →
    ∃ body, lines count (encodePadded standard bytes) = '\n' :: body ∧ WrittenBody bytes body := by
  induction count with
  | zero => exact fun hbytes hcount => ⟨_, rfl, .last hbytes hcount⟩
  | succ count ih =>
    intro bytes hbytes hcount
    rw [lines]
    split
    · rename_i h
      exact ⟨_, rfl, .last hbytes h⟩
    · rename_i hlong
      have hlength := Base64.length_encodePadded standard bytes
      have hline : lineLength = 64 := rfl
      obtain ⟨first, more, hfirst, rfl⟩ : ∃ first more : Bytes,
          first.length = 48 ∧ bytes = first ++ more :=
        ⟨bytes.take 48, bytes.drop 48, List.length_take_of_le (by omega),
          (List.take_append_drop 48 bytes).symm⟩
      have hfirstLength : (Base64.encode standard first).length = lineLength := by
        rw [Base64.length_encode, hfirst]
        rfl
      rw [encodePadded_append _ _ (by omega)] at hcount hlong ⊢
      rw [List.length_append, hfirstLength] at hcount hlong
      have hmore : more ≠ [] := by
        rintro rfl
        exact hlong (Nat.le_refl _)
      obtain ⟨body, hbody, hwritten⟩ := ih hmore (by omega)
      rw [List.take_left' hfirstLength, List.drop_left' hfirstLength, hbody]
      exact ⟨_, rfl, hwritten.cons hfirst⟩

/-- Between two characters that are not blank, trimming changes nothing. -/
theorem trim_cons_append {c d : Char} {middle after : List Char} (hc : ¬ Text.isBlank c)
    (hd : ¬ Text.isBlank d) (hafter : ∀ x ∈ after, Text.isBlank x) :
    Text.trim (c :: (middle ++ d :: after)) = c :: (middle ++ [d]) := by
  have hstart : Text.dropBlanks (c :: (middle ++ d :: after)) = c :: (middle ++ d :: after) :=
    List.dropWhile_cons_of_neg hc
  have hreverse : (c :: (middle ++ d :: after)).reverse =
      after.reverse ++ d :: (c :: middle).reverse := by simp
  have hend : Text.dropBlanks (after.reverse ++ d :: (c :: middle).reverse) =
      d :: (c :: middle).reverse := by
    rw [Text.dropBlanks, List.dropWhile_append_of_pos fun x hx => hafter x (List.mem_reverse.mp hx),
      List.dropWhile_cons_of_neg hd]
  rw [Text.trim, hstart, hreverse, hend]
  simp

/-- A line feed behind another character is a line break of its own. -/
theorem beforeLineBreak?_append {body : List Char} (h : '\r' ∉ body) :
    beforeLineBreak? (body ++ ['\n']) = some body := by
  rw [beforeLineBreak?, List.reverse_append, List.reverse_singleton, List.singleton_append]
  split
  · rename_i rest hreverse
    have hmem : '\r' ∈ body.reverse := (List.cons.inj hreverse).2 ▸ List.mem_cons_self
    exact absurd (List.mem_reverse.mp hmem) h
  · rename_i rest _ hreverse
    rw [← (List.cons.inj hreverse).2, List.reverse_reverse]
  · rename_i hreverse
    exact absurd (List.cons.inj hreverse).1 (by decide)
  · rename_i _ hother _
    exact absurd rfl (hother body.reverse)

/-- The body of a written text is found. -/
theorem bodyAfter?_append (label : List Char) {body : List Char} (hne : body ≠ [])
    (hreturn : '\r' ∉ body) :
    bodyAfter? label (label ++ dashes ++ ('\n' :: (body ++ ['\n'] ++ closing label))) =
      some body := by
  have hlength : (body ++ ['\n'] ++ closing label).length - (closing label).length =
      (body ++ ['\n']).length := by
    rw [List.length_append, Nat.add_sub_cancel]
  have hnonempty : body.isEmpty = false := List.isEmpty_eq_false_iff.mpr hne
  rw [bodyAfter?, after?_eq_some_iff.mpr rfl]
  simp only [afterLineBreak?, Option.bind_eq_bind, Option.bind_some, hlength, List.drop_left,
    List.take_left, if_true, beforeLineBreak?_append hreturn, hnonempty, Bool.false_eq_true,
    if_false]

/-- **A written text is read.** -/
theorem decode_encode (label : String) {bytes : Bytes} (h : bytes ≠ []) :
    decode label (encode label bytes) = some bytes := by
  obtain ⟨body, hlines, hwritten⟩ :=
    exists_lines_eq (encodePadded standard bytes).length h (by omega)
  have hle := hwritten.length_le
  obtain ⟨start, hopening⟩ : ∃ start, opening = '-' :: start :=
    ⟨"----BEGIN ".toList, by decide +kernel⟩
  obtain ⟨final, hfinal⟩ : ∃ final, closing label.toList = final ++ ['-'] :=
    exists_append_dashes_eq _
  have htext : (encode label bytes).toList =
      opening ++ (label.toList ++ dashes ++ ('\n' :: (body ++ ['\n'] ++ closing label.toList))) ++
        ['\n'] := by
    rw [encode, hlines, String.toList_ofList]
    simp only [List.append_assoc, List.cons_append]
  have htrim : Text.trim (encode label bytes).toList =
      opening ++ (label.toList ++ dashes ++
        ('\n' :: (body ++ ['\n'] ++ closing label.toList))) := by
    have htrimmed : Text.trim ('-' :: (start ++ (label.toList ++ dashes ++
        ('\n' :: (body ++ ['\n'] ++ final))) ++ '-' :: ['\n'])) =
          '-' :: (start ++ (label.toList ++ dashes ++ ('\n' :: (body ++ ['\n'] ++ final))) ++
            ['-']) :=
      trim_cons_append (by decide) (by decide) (List.forall_mem_singleton.mpr (by decide))
    rw [htext, hopening, hfinal]
    simpa only [List.append_assoc, List.cons_append, List.nil_append] using htrimmed
  have hbody : body? label.toList (encode label bytes).toList = some body := by
    rw [body?_eq_bind, htrim, after?_eq_some_iff.mpr rfl]
    exact bodyAfter?_append label.toList hwritten.ne_nil hwritten.return_not_mem
  rw [decode, hbody]
  exact hwritten.decodeLines_eq body.length (by omega)

end Pem

end KeySharing
