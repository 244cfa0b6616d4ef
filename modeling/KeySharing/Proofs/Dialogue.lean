import KeySharing.PerParty
import KeySharing.Provider.Recorded

/-!
# Dialogues

A protocol step asks for something, waits for the answer and goes on from there, until it is done or
an answer fails. Its dialogue is what remains of the step when nobody is there to answer: which
event it asks for first, and for every answer what comes next. So the dialogue knows which events
are possible, and a provider and a random source decide which of them happen.

- `Dialogue`, `Dialogue.hold`: dialogues, and the action that holds one.
- `Dialogue.Asks`: the complete exchanges of a dialogue, whoever answers.
- `Dialogue.Reaches`: the exchanges that lead a dialogue to an event.
- `Performed`: the answers of an exchange are the ones that are given, one after the other.
- `Dialogue.run_hold_eq_ok_iff`, `Dialogue.run_hold_eq_error_iff_reaches`: what a recorded dialogue
  does and what it leaves in the log. It goes through an exchange to its end, or up to the first
  failure.
- `Event.perform`: the answers of a provider and a random source.
-/

namespace KeySharing

section
variable {E σ ε ε' α β : Type} {Answer : E → Type}

/-- An event with its answer. -/
structure Reply (Answer : E → Type) where
  /-- The event. -/
  event : E
  /-- The answer. -/
  answer : Answer event

/-- A dialogue that ends with an `α`. -/
inductive Dialogue (Answer : E → Type) (α : Type) where
  /-- The dialogue is over. -/
  | done (value : α)
  /-- An event, and how the dialogue goes on after each answer. -/
  | ask (event : E) (next : Answer event → Dialogue Answer α)

/-- The answers of the replies are the ones that the events give, one after the other. -/
inductive Performed (perform : (event : E) → Action σ ε (Answer event)) :
    List (Reply Answer) → σ → σ → Prop
  | nil (s : σ) : Performed perform [] s s
  | cons {reply : Reply Answer} {replies : List (Reply Answer)} {s s' s'' : σ}
      (first : (perform reply.event).run s = (.ok reply.answer, s'))
      (rest : Performed perform replies s' s'') : Performed perform (reply :: replies) s s''

namespace Dialogue

/-- One dialogue after another. -/
def bind : Dialogue Answer α → (α → Dialogue Answer β) → Dialogue Answer β
  | done value, f => f value
  | ask event next, f => ask event fun answer => (next answer).bind f

instance : Monad (Dialogue Answer) where
  pure := done
  bind := bind

/-- The dialogue about one event. -/
def single (event : E) : Dialogue Answer (Answer event) := ask event done

/-! ## Exchanges -/

/-- A complete exchange of a dialogue and the value it ends with. -/
inductive Asks : Dialogue Answer α → List (Reply Answer) → α → Prop
  | done (value : α) : Asks (done value) [] value
  | ask {event : E} {next : Answer event → Dialogue Answer α} {answer : Answer event}
      {replies : List (Reply Answer)} {value : α} (rest : Asks (next answer) replies value) :
      Asks (ask event next) (⟨event, answer⟩ :: replies) value

section
variable {event : E} {next : Answer event → Dialogue Answer α} {replies : List (Reply Answer)}
  {value : α}

theorem asks_done_iff {a : α} : Asks (done a : Dialogue Answer α) replies value ↔
    replies = [] ∧ a = value := by
  constructor
  · rintro ⟨⟩
    exact ⟨rfl, rfl⟩
  · rintro ⟨rfl, rfl⟩
    exact .done a

theorem asks_ask_iff : Asks (ask event next) replies value ↔
    ∃ answer rest, replies = ⟨event, answer⟩ :: rest ∧ Asks (next answer) rest value := by
  constructor
  · intro h
    cases h with
    | ask rest => exact ⟨_, _, rfl, rest⟩
  · rintro ⟨answer, rest, rfl, h⟩
    exact .ask h

theorem asks_single_iff {answer : Answer event} :
    Asks (single event) replies answer ↔ replies = [⟨event, answer⟩] := by
  rw [single, asks_ask_iff]
  constructor
  · rintro ⟨answer', rest, rfl, h⟩
    obtain ⟨rfl, rfl⟩ := asks_done_iff.mp h
    rfl
  · rintro rfl
    exact ⟨answer, [], rfl, .done answer⟩

end

/-- The exchanges of two dialogues in a row. -/
theorem asks_bind_iff {d : Dialogue Answer α} {f : α → Dialogue Answer β}
    {replies : List (Reply Answer)} {b : β} :
    Asks (d >>= f) replies b ↔
      ∃ a before after, replies = before ++ after ∧ Asks d before a ∧ Asks (f a) after b := by
  show Asks (d.bind f) replies b ↔ _
  induction d generalizing replies with
  | done a =>
    rw [bind]
    constructor
    · intro h
      exact ⟨a, [], replies, rfl, .done a, h⟩
    · rintro ⟨a', before, after, rfl, hbefore, hafter⟩
      obtain ⟨rfl, rfl⟩ := asks_done_iff.mp hbefore
      exact hafter
  | ask event next ih =>
    rw [bind, asks_ask_iff]
    constructor
    · rintro ⟨answer, rest, rfl, h⟩
      obtain ⟨a, before, after, rfl, hbefore, hafter⟩ := (ih answer).mp h
      exact ⟨a, ⟨event, answer⟩ :: before, after, rfl, .ask hbefore, hafter⟩
    · rintro ⟨a, before, after, rfl, hbefore, hafter⟩
      obtain ⟨answer, rest, rfl, hrest⟩ := asks_ask_iff.mp hbefore
      exact ⟨answer, rest ++ after, rfl, (ih answer).mpr ⟨a, rest, after, rfl, hrest, hafter⟩⟩

/-- The exchanges of dialogues about one event for each party. -/
theorem asks_forEach_iff {d : Party → Dialogue Answer α} (reply : Party → α → Reply Answer)
    (h : ∀ {p replies a}, Asks (d p) replies a ↔ replies = [reply p a])
    {replies : List (Reply Answer)} {values : PerParty α} :
    Asks (PerParty.forEach d) replies values ↔
      replies = (PerParty.ofParty fun p => reply p (values.get p)).toList := by
  constructor
  · intro hasks
    rw [PerParty.forEach, asks_bind_iff] at hasks
    obtain ⟨first, r₀, _, rfl, hfirst, hasks⟩ := hasks
    obtain ⟨second, r₁, _, rfl, hsecond, hasks⟩ := asks_bind_iff.mp hasks
    obtain ⟨third, r₂, _, rfl, hthird, hasks⟩ := asks_bind_iff.mp hasks
    obtain ⟨rfl, rfl⟩ := asks_done_iff.mp hasks
    rw [h.mp hfirst, h.mp hsecond, h.mp hthird]
    rfl
  · rintro rfl
    refine asks_bind_iff.mpr ⟨values.first, [_], _, rfl, h.mpr rfl, ?_⟩
    refine asks_bind_iff.mpr ⟨values.second, [_], _, rfl, h.mpr rfl, ?_⟩
    exact asks_bind_iff.mpr ⟨values.third, [_], _, rfl, h.mpr rfl, .done values⟩

/-! ## Exchanges up to an event -/

/-- The replies after which a dialogue comes to an event. -/
inductive Reaches : Dialogue Answer α → List (Reply Answer) → E → Prop
  | first {event : E} {next : Answer event → Dialogue Answer α} : Reaches (ask event next) [] event
  | ask {event : E} {next : Answer event → Dialogue Answer α} {answer : Answer event}
      {before : List (Reply Answer)} {last : E} (rest : Reaches (next answer) before last) :
      Reaches (ask event next) (⟨event, answer⟩ :: before) last

section
variable {before : List (Reply Answer)} {last : E}

theorem not_reaches_done {a : α} : ¬ Reaches (done a : Dialogue Answer α) before last := by
  rintro ⟨⟩

theorem reaches_ask_iff {event : E} {next : Answer event → Dialogue Answer α} :
    Reaches (ask event next) before last ↔ before = [] ∧ last = event ∨
      ∃ answer rest, before = ⟨event, answer⟩ :: rest ∧ Reaches (next answer) rest last := by
  constructor
  · intro h
    cases h with
    | first => exact .inl ⟨rfl, rfl⟩
    | ask rest => exact .inr ⟨_, _, rfl, rest⟩
  · rintro (⟨rfl, rfl⟩ | ⟨answer, rest, rfl, h⟩)
    · exact .first
    · exact .ask h

theorem reaches_single_iff {event : E} :
    Reaches (single event) before last ↔ before = [] ∧ last = event := by
  rw [single, reaches_ask_iff, or_iff_left]
  rintro ⟨_, _, _, h⟩
  exact not_reaches_done h

/-- Two dialogues in a row come to an event in the first one, or after it in the second. -/
theorem reaches_bind_iff {d : Dialogue Answer α} {f : α → Dialogue Answer β} :
    Reaches (d >>= f) before last ↔ Reaches d before last ∨
      ∃ a replies rest, before = replies ++ rest ∧ Asks d replies a ∧ Reaches (f a) rest last := by
  show Reaches (d.bind f) before last ↔ _
  induction d generalizing before with
  | done a =>
    rw [bind, or_iff_right not_reaches_done]
    constructor
    · intro h
      exact ⟨a, [], before, rfl, .done a, h⟩
    · rintro ⟨_, replies, rest, rfl, hasks, hrest⟩
      obtain ⟨rfl, rfl⟩ := asks_done_iff.mp hasks
      exact hrest
  | ask event next ih =>
    rw [bind, reaches_ask_iff, reaches_ask_iff, or_assoc]
    refine or_congr_right ?_
    constructor
    · rintro ⟨answer, later, rfl, h⟩
      obtain hfirst | ⟨a, replies, rest, rfl, hasks, hrest⟩ := (ih answer).mp h
      · exact .inl ⟨answer, later, rfl, hfirst⟩
      · exact .inr ⟨a, ⟨event, answer⟩ :: replies, rest, rfl, .ask hasks, hrest⟩
    · rintro (⟨answer, later, rfl, hfirst⟩ | ⟨a, replies, rest, rfl, hasks, hrest⟩)
      · exact ⟨answer, later, rfl, (ih answer).mpr (.inl hfirst)⟩
      · obtain ⟨answer, later, rfl, hlater⟩ := asks_ask_iff.mp hasks
        exact ⟨answer, later ++ rest, rfl,
          (ih answer).mpr (.inr ⟨a, later, rest, rfl, hlater, hrest⟩)⟩

/-- What the first of two dialogues in a row comes to. -/
theorem Reaches.bind_left {d : Dialogue Answer α} (h : Reaches d before last)
    (f : α → Dialogue Answer β) : Reaches (d >>= f) before last :=
  reaches_bind_iff.mpr (.inl h)

/-- What the second of two dialogues in a row comes to, once the first is over. -/
theorem Asks.reaches_bind {d : Dialogue Answer α} {f : α → Dialogue Answer β} {a : α}
    {replies : List (Reply Answer)} (h : Asks d replies a) (hrest : Reaches (f a) before last) :
    Reaches (d >>= f) (replies ++ before) last :=
  reaches_bind_iff.mpr (.inr ⟨a, replies, before, rfl, h, hrest⟩)

/-- Dialogues about one event for each party come to the event of a party after the replies of the
parties before it. -/
theorem reaches_forEach_iff [Nonempty α] {d : Party → Dialogue Answer α}
    (reply : Party → α → Reply Answer) (event : Party → E)
    (hasks : ∀ {p replies a}, Asks (d p) replies a ↔ replies = [reply p a])
    (hreaches : ∀ {p before last}, Reaches (d p) before last ↔ before = [] ∧ last = event p) :
    Reaches (PerParty.forEach d) before last ↔
      ∃ (p : Party) (values : PerParty α),
        before = (PerParty.ofParty fun q => reply q (values.get q)).toList.take p ∧
        last = event p := by
  constructor
  · intro h
    rw [PerParty.forEach, reaches_bind_iff, hreaches] at h
    obtain ⟨rfl, rfl⟩ | ⟨first, _, _, rfl, hfirst, h⟩ := h
    · obtain ⟨a⟩ := ‹Nonempty α›
      exact ⟨0, PerParty.ofParty fun _ => a, rfl, rfl⟩
    rw [reaches_bind_iff, hreaches] at h
    obtain ⟨rfl, rfl⟩ | ⟨second, _, _, rfl, hsecond, h⟩ := h
    · exact ⟨1, ⟨first, first, first⟩, by rw [hasks.mp hfirst]; rfl, rfl⟩
    rw [reaches_bind_iff, hreaches] at h
    obtain ⟨rfl, rfl⟩ | ⟨third, _, _, rfl, hthird, h⟩ := h
    · exact ⟨2, ⟨first, second, second⟩,
        by rw [hasks.mp hfirst, hasks.mp hsecond]; rfl, rfl⟩
    exact absurd h not_reaches_done
  · rintro ⟨p, values, rfl, rfl⟩
    have hask : ∀ q : Party, Asks (d q) [reply q (values.get q)] (values.get q) :=
      fun q => hasks.mpr rfl
    have hreach : ∀ q : Party, Reaches (d q) [] (event q) := fun q => hreaches.mpr ⟨rfl, rfl⟩
    match p with
    | 0 => exact (hreach 0).bind_left _
    | 1 => exact (hask 0).reaches_bind ((hreach 1).bind_left _)
    | 2 => exact (hask 0).reaches_bind ((hask 1).reaches_bind ((hreach 2).bind_left _))

end

/-! ## Dialogues without dead ends -/

/-- Every event that a dialogue can get to has an answer. -/
def Answerable : Dialogue Answer α → Prop
  | done _ => True
  | ask event next => Nonempty (Answer event) ∧ ∀ answer, (next answer).Answerable

theorem exists_asks {d : Dialogue Answer α} (h : d.Answerable) :
    ∃ replies value, Asks d replies value := by
  induction d with
  | done value => exact ⟨[], value, .done value⟩
  | ask event next ih =>
    obtain ⟨⟨answer⟩, hnext⟩ := h
    obtain ⟨replies, value, hasks⟩ := ih answer (hnext answer)
    exact ⟨_, value, .ask hasks⟩

/-- Without dead ends, whatever leads to an event is part of a complete exchange. -/
theorem reaches_iff {d : Dialogue Answer α} (h : d.Answerable) {before : List (Reply Answer)}
    {last : E} :
    Reaches d before last ↔
      ∃ answer later value, Asks d (before ++ ⟨last, answer⟩ :: later) value := by
  induction d generalizing before with
  | done a =>
    constructor
    · exact fun hreaches => absurd hreaches not_reaches_done
    · rintro ⟨answer, later, value, hasks⟩
      cases List.append_eq_nil_iff.mp (asks_done_iff.mp hasks).1 |>.2
  | ask event next ih =>
    obtain ⟨⟨someAnswer⟩, hnext⟩ := h
    rw [reaches_ask_iff]
    constructor
    · rintro (⟨rfl, rfl⟩ | ⟨answer, rest, rfl, hreaches⟩)
      · obtain ⟨replies, value, hasks⟩ := exists_asks (hnext someAnswer)
        exact ⟨someAnswer, replies, value, .ask hasks⟩
      · obtain ⟨answer', later, value, hasks⟩ := (ih answer (hnext answer)).mp hreaches
        exact ⟨answer', later, value, .ask hasks⟩
    · rintro ⟨answer', later, value, hasks⟩
      obtain ⟨answer, rest, hreplies, hrest⟩ := asks_ask_iff.mp hasks
      cases before with
      | nil =>
        cases hreplies
        exact .inl ⟨rfl, rfl⟩
      | cons reply before =>
        cases hreplies
        exact .inr ⟨answer, before, rfl,
          (ih answer (hnext answer)).mpr ⟨answer', later, value, hrest⟩⟩

theorem answerable_single {event : E} (h : Nonempty (Answer event)) :
    (single event : Dialogue Answer (Answer event)).Answerable :=
  ⟨h, fun _ => trivial⟩

theorem answerable_bind {d : Dialogue Answer α} {f : α → Dialogue Answer β} (hd : d.Answerable)
    (hf : ∀ a, (f a).Answerable) : (d >>= f).Answerable := by
  show (d.bind f).Answerable
  induction d with
  | done a => exact hf a
  | ask event next ih => exact ⟨hd.1, fun answer => ih answer (hd.2 answer)⟩

theorem answerable_forEach {d : Party → Dialogue Answer α} (h : ∀ p, (d p).Answerable) :
    (PerParty.forEach d).Answerable := by
  refine answerable_bind (h 0) fun _ => answerable_bind (h 1) fun _ => ?_
  exact answerable_bind (h 2) fun _ => trivial

/-! ## Holding a dialogue -/

/-- The action that holds a dialogue: it performs the events that come up. The first failure ends
it, under its new name. -/
def hold (perform : (event : E) → Action σ ε (Answer event)) (rename : ε → ε') :
    Dialogue Answer α → Action σ ε' α
  | done value => pure value
  | ask event next =>
    (perform event).mapError rename >>= fun answer => (next answer).hold perform rename

section
variable {perform : (event : E) → Action σ ε (Answer event)} {rename : ε → ε'}

theorem hold_single (event : E) :
    (single event).hold perform rename = (perform event).mapError rename := by
  show ((perform event).mapError rename >>= pure : Action σ ε' (Answer event)) = _
  rw [bind_pure]

theorem hold_bind (d : Dialogue Answer α) (f : α → Dialogue Answer β) :
    (d >>= f).hold perform rename =
      d.hold perform rename >>= fun a => (f a).hold perform rename := by
  show (d.bind f).hold perform rename = _
  induction d with
  | done a => rw [bind, hold, pure_bind]
  | ask event next ih =>
    rw [bind, hold, hold, bind_assoc]
    exact congrArg _ (funext ih)

theorem hold_forEach (d : Party → Dialogue Answer α) :
    (PerParty.forEach d).hold perform rename =
      PerParty.forEach fun p => (d p).hold perform rename := by
  simp only [PerParty.forEach, hold_bind]
  rfl

end

/-! ## Recorded dialogues -/

/-- Each event noted in the log before it is performed. -/
def recorded (perform : (event : E) → Action σ ε (Answer event)) (event : E) :
    Action (Recorded σ E) ε (Answer event) :=
  (perform event).recordedWith noFailures event

section
variable {perform : (event : E) → Action σ ε (Answer event)} {rename : ε → ε'} {s : σ}
  {log : List E} {record : Recorded σ E}

section
variable {event : E} {next : Answer event → Dialogue Answer α} {s' : σ}

/-- After an answer the dialogue goes on, with the event in the log. -/
theorem run_hold_ask_of_ok {answer : Answer event}
    (h : (perform event).run s = (.ok answer, s')) :
    ((ask event next).hold (recorded perform) rename).run ⟨s, log⟩ =
      ((next answer).hold (recorded perform) rename).run ⟨s', log ++ [event]⟩ := by
  have hrecorded : (recorded perform event).run ⟨s, log⟩ = (.ok answer, ⟨s', log ++ [event]⟩) := by
    show (((perform event).run s).1, Recorded.mk ((perform event).run s).2 _) = _
    rw [h]
  exact Action.run_bind_of_ok (Action.run_mapError_eq_ok.mpr hrecorded)

/-- A failure ends the dialogue, with the event in the log. -/
theorem run_hold_ask_of_error {cause : ε} (h : (perform event).run s = (.error cause, s')) :
    ((ask event next).hold (recorded perform) rename).run ⟨s, log⟩ =
      (.error (rename cause), ⟨s', log ++ [event]⟩) := by
  refine Action.run_bind_of_error ?_
  show (((perform event).run s).1.mapError rename, Recorded.mk ((perform event).run s).2 _) = _
  rw [h]
  rfl

end

/-- The log changes nothing about a dialogue. -/
theorem run_hold_recorded (d : Dialogue Answer α) (s : σ) (log : List E) :
    (d.hold perform rename).run s =
      (((d.hold (recorded perform) rename).run ⟨s, log⟩).1,
        ((d.hold (recorded perform) rename).run ⟨s, log⟩).2.state) := by
  induction d generalizing s log with
  | done value => rfl
  | ask event next ih =>
    rcases hfirst : (perform event).run s with ⟨outcome, s'⟩
    cases outcome with
    | ok answer =>
      rw [run_hold_ask_of_ok hfirst, ← ih answer]
      exact Action.run_bind_of_ok (Action.run_mapError_eq_ok.mpr hfirst)
    | error cause =>
      rw [run_hold_ask_of_error hfirst]
      refine Action.run_bind_of_error ?_
      rw [Action.run_mapError, hfirst]
      rfl

/-- A recorded dialogue ends well exactly if all answers of an exchange are given. Its events are
then in the log. -/
theorem run_hold_eq_ok_iff {d : Dialogue Answer α} {value : α} :
    (d.hold (recorded perform) rename).run ⟨s, log⟩ = (.ok value, record) ↔
      ∃ replies last, Asks d replies value ∧ Performed perform replies s last ∧
        record = ⟨last, log ++ replies.map Reply.event⟩ := by
  induction d generalizing s log with
  | done a =>
    rw [hold, Action.run_pure]
    constructor
    · rintro ⟨⟩
      exact ⟨[], s, .done _, .nil s, by rw [List.map_nil, List.append_nil]⟩
    · rintro ⟨replies, last, hasks, hperformed, rfl⟩
      obtain ⟨rfl, rfl⟩ := asks_done_iff.mp hasks
      cases hperformed
      rw [List.map_nil, List.append_nil]
  | ask event next ih =>
    rcases hfirst : (perform event).run s with ⟨outcome, s'⟩
    cases outcome with
    | ok answer =>
      rw [run_hold_ask_of_ok hfirst, ih answer]
      constructor
      · rintro ⟨replies, last, hasks, hperformed, rfl⟩
        exact ⟨⟨event, answer⟩ :: replies, last, .ask hasks, .cons hfirst hperformed,
          by rw [List.map_cons, List.append_assoc, List.singleton_append]⟩
      · rintro ⟨replies, last, hasks, hperformed, rfl⟩
        obtain ⟨answer', rest, rfl, hrest⟩ := asks_ask_iff.mp hasks
        cases hperformed with
        | cons hfirst' hperformed =>
          cases hfirst.symm.trans hfirst'
          exact ⟨rest, last, hrest, hperformed,
            by rw [List.map_cons, List.append_assoc, List.singleton_append]⟩
    | error cause =>
      rw [run_hold_ask_of_error hfirst]
      constructor
      · rintro ⟨⟩
      · rintro ⟨replies, last, hasks, hperformed, rfl⟩
        obtain ⟨answer', rest, rfl, hrest⟩ := asks_ask_iff.mp hasks
        cases hperformed with
        | cons hfirst' hperformed => cases hfirst.symm.trans hfirst'

/-- A recorded dialogue fails exactly if the answers that lead to an event are given and the event
fails. It is then the last one in the log. -/
theorem run_hold_eq_error_iff_reaches {d : Dialogue Answer α} {e : ε'} :
    (d.hold (recorded perform) rename).run ⟨s, log⟩ = (.error e, record) ↔
      ∃ before event s' cause last, Reaches d before event ∧ Performed perform before s s' ∧
        (perform event).run s' = (.error cause, last) ∧
        e = rename cause ∧ record = ⟨last, log ++ before.map Reply.event ++ [event]⟩ := by
  induction d generalizing s log with
  | done a =>
    rw [hold, Action.run_pure]
    constructor
    · rintro ⟨⟩
    · rintro ⟨before, event, s', cause, last, hreaches, -⟩
      exact absurd hreaches not_reaches_done
  | ask event next ih =>
    rcases hfirst : (perform event).run s with ⟨outcome, s₁⟩
    cases outcome with
    | ok answer =>
      rw [run_hold_ask_of_ok hfirst, ih answer]
      constructor
      · rintro ⟨before, event', s', cause, last, hreaches, hperformed, hfails, rfl, rfl⟩
        refine ⟨⟨event, answer⟩ :: before, event', s', cause, last, .ask hreaches,
          .cons hfirst hperformed, hfails, rfl, ?_⟩
        rw [List.map_cons, List.append_assoc log [_], List.singleton_append]
      · rintro ⟨before, event', s', cause, last, hreaches, hperformed, hfails, rfl, rfl⟩
        cases hreaches with
        | first =>
          -- the failing event would be the first one, which is answered
          cases hperformed
          cases hfirst.symm.trans hfails
        | ask hreaches =>
          cases hperformed with
          | cons hfirst' hperformed =>
            cases hfirst.symm.trans hfirst'
            refine ⟨_, event', s', cause, last, hreaches, hperformed, hfails, rfl, ?_⟩
            rw [List.map_cons, List.append_assoc log [_], List.singleton_append]
    | error cause =>
      rw [run_hold_ask_of_error hfirst]
      constructor
      · rintro ⟨⟩
        exact ⟨[], event, s, cause, s₁, .first, .nil s, hfirst, rfl,
          by rw [List.map_nil, List.append_nil]⟩
      · rintro ⟨before, event', s', cause', last, hreaches, hperformed, hfails, rfl, rfl⟩
        cases hreaches with
        | first =>
          cases hperformed
          cases hfirst.symm.trans hfails
          rw [List.map_nil, List.append_nil]
        | ask hreaches =>
          cases hperformed with
          | cons hfirst' hperformed => cases hfirst.symm.trans hfirst'

/-- A recorded dialogue without dead ends fails exactly if the answers of an exchange are given up
to an event that fails. This event is then the last one in the log. -/
theorem run_hold_eq_error_iff {d : Dialogue Answer α} (hd : d.Answerable) {e : ε'} :
    (d.hold (recorded perform) rename).run ⟨s, log⟩ = (.error e, record) ↔
      ∃ before reply later value s' cause last, Asks d (before ++ reply :: later) value ∧
        Performed perform before s s' ∧
        (perform reply.event).run s' = (.error cause, last) ∧
        e = rename cause ∧ record = ⟨last, log ++ (before ++ [reply]).map Reply.event⟩ := by
  rw [run_hold_eq_error_iff_reaches]
  constructor
  · rintro ⟨before, event, s', cause, last, hreaches, hperformed, hfails, rfl, rfl⟩
    obtain ⟨answer, later, value, hasks⟩ := (reaches_iff hd).mp hreaches
    refine ⟨before, ⟨event, answer⟩, later, value, s', cause, last, hasks, hperformed, hfails,
      rfl, ?_⟩
    rw [List.map_append, List.append_assoc]
    rfl
  · rintro ⟨before, reply, later, value, s', cause, last, hasks, hperformed, hfails, rfl, rfl⟩
    refine ⟨before, reply.event, s', cause, last,
      (reaches_iff hd).mpr ⟨reply.answer, later, value, hasks⟩, hperformed, hfails, rfl, ?_⟩
    rw [List.map_append, List.append_assoc]
    rfl

end

end Dialogue

end

/-! ## The events of a provider and a random source -/

section
variable {σ PublicKey PrivateKey SecretKey : Type}

/-- The answers to a call. -/
abbrev Call.Answer : Call PublicKey PrivateKey SecretKey → Type
  | .exportKey .. => Bytes
  | .importKey .. => SecretKey
  | .encrypt .. => Bytes
  | .decrypt .. => Bytes
  | .digest .. => Digest
  | .sealText .. => Bytes
  | .openText .. => Bytes

/-- The answers to an event. -/
abbrev Event.Answer : Event PublicKey PrivateKey SecretKey → Type
  | .call c => c.Answer
  | .draw count => SizedBytes count

/-- A dialogue with a provider and a random source. -/
abbrev ProviderDialogue (PublicKey PrivateKey SecretKey α : Type) : Type :=
  Dialogue (@Event.Answer PublicKey PrivateKey SecretKey) α

/-- The dialogue about one call. -/
abbrev ProviderDialogue.call (c : Call PublicKey PrivateKey SecretKey) :
    ProviderDialogue PublicKey PrivateKey SecretKey c.Answer :=
  Dialogue.single (Event.call c)

/-- The dialogue about one draw. -/
abbrev ProviderDialogue.draw (count : Nat) :
    ProviderDialogue PublicKey PrivateKey SecretKey (SizedBytes count) :=
  Dialogue.single (Event.draw count)

/-- An event of a provider and a random source with its answer. -/
abbrev ProviderReply (PublicKey PrivateKey SecretKey : Type) : Type :=
  Reply (@Event.Answer PublicKey PrivateKey SecretKey)

/-- A call with its answer. -/
abbrev ProviderReply.call (c : Call PublicKey PrivateKey SecretKey) (answer : c.Answer) :
    ProviderReply PublicKey PrivateKey SecretKey :=
  ⟨.call c, answer⟩

/-- A draw with its bytes. -/
abbrev ProviderReply.draw {count : Nat} (bytes : SizedBytes count) :
    ProviderReply PublicKey PrivateKey SecretKey :=
  ⟨.draw count, bytes⟩

namespace ProviderDialogue

theorem asks_call (c : Call PublicKey PrivateKey SecretKey) (answer : c.Answer) :
    Dialogue.Asks (call c) [ProviderReply.call c answer] answer :=
  .ask (.done answer)

theorem reaches_call (c : Call PublicKey PrivateKey SecretKey) :
    Dialogue.Reaches (call c) [] (.call c) :=
  .first

end ProviderDialogue

/-- What a provider does at a call. -/
def Call.perform (provider : Provider σ PublicKey PrivateKey SecretKey) :
    (c : Call PublicKey PrivateKey SecretKey) → Action σ CryptoError c.Answer
  | .exportKey key => provider.exportKey key
  | .importKey raw => provider.importKey raw
  | .encrypt key label message => provider.encrypt key label message
  | .decrypt key label ciphertext => provider.decrypt key label ciphertext
  | .digest data => provider.digest data
  | .sealText key nonce aad text => provider.sealText key nonce aad text
  | .openText key nonce aad blob => provider.openText key nonce aad blob

/-- What a provider or a random source does at an event. -/
def Event.perform (provider : Provider σ PublicKey PrivateKey SecretKey) (random : RandomSource σ) :
    (event : Event PublicKey PrivateKey SecretKey) → Action σ CryptoError event.Answer
  | .call c => c.perform provider
  | .draw count => random.draw count

/-- The recorded provider and the recorded random source note the event and perform it. -/
theorem Event.perform_recorded (provider : Provider σ PublicKey PrivateKey SecretKey)
    (random : RandomSource σ) :
    Event.perform provider.recorded random.recorded =
      Dialogue.recorded (Event.perform provider random) := by
  funext event
  match event with
  | .call (.exportKey ..) => rfl
  | .call (.importKey ..) => rfl
  | .call (.encrypt ..) => rfl
  | .call (.decrypt ..) => rfl
  | .call (.digest ..) => rfl
  | .call (.sealText ..) => rfl
  | .call (.openText ..) => rfl
  | .draw _ => rfl

end

end KeySharing
