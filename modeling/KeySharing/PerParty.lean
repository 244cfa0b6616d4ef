/-!
# One value for each party

There are exactly three computing parties, and the protocol goes through them in order.

- `PerParty α`: a value for each party.
- `PerParty.ofParty`, `PerParty.get`: made from and read as a function of the party.
- `PerParty.forEach`: an action for each party, in party order; the first failure ends it.
-/

namespace KeySharing

/-- The number of computing parties. -/
def partyCount : Nat := 3

/-- A computing party by its position. -/
abbrev Party := Fin 3

/-- A value for each party. -/
@[ext] structure PerParty (α : Type) where
  /-- The value of the first party. -/
  first : α
  /-- The value of the second party. -/
  second : α
  /-- The value of the third party. -/
  third : α
deriving DecidableEq

namespace PerParty

variable {α β : Type}

/-- The values of a function of the party. -/
def ofParty (f : Party → α) : PerParty α := ⟨f 0, f 1, f 2⟩

/-- The value of a party. -/
def get (values : PerParty α) : Party → α
  | 0 => values.first
  | 1 => values.second
  | 2 => values.third

/-- The values in party order. -/
def toList (values : PerParty α) : List α := [values.first, values.second, values.third]

/-- The value at an index, if there is a party with this index. -/
def get? (values : PerParty α) (index : Nat) : Option α := values.toList[index]?

/-- The value of one party replaced. -/
def set (values : PerParty α) (party : Party) (value : α) : PerParty α :=
  ofParty fun p => if p = party then value else values.get p

/-- A function applied to each value. -/
def map (f : α → β) (values : PerParty α) : PerParty β :=
  ⟨f values.first, f values.second, f values.third⟩

/-- An action for each party, in party order. -/
def forEach {m : Type → Type} [Monad m] (action : Party → m α) : m (PerParty α) := do
  let first ← action 0
  let second ← action 1
  let third ← action 2
  pure ⟨first, second, third⟩

@[simp] theorem get_ofParty (f : Party → α) : ∀ p : Party, (ofParty f).get p = f p
  | 0 => rfl
  | 1 => rfl
  | 2 => rfl

@[simp] theorem get_map (f : α → β) (values : PerParty α) :
    ∀ p : Party, (values.map f).get p = f (values.get p)
  | 0 => rfl
  | 1 => rfl
  | 2 => rfl

theorem get_inj {v w : PerParty α} : (∀ p : Party, v.get p = w.get p) ↔ v = w := by
  constructor
  · intro h
    exact PerParty.ext (h 0) (h 1) (h 2)
  · rintro rfl p
    rfl

theorem get?_val (values : PerParty α) : ∀ p : Party, values.get? p.val = some (values.get p)
  | 0 => rfl
  | 1 => rfl
  | 2 => rfl

end PerParty

end KeySharing
