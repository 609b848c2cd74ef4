import Provisioner.Error

/-!
# Outcomes of readings

Most of what is read may fail, since it has been written by someone else. Two things are said about
such readings over and over: which steps must have succeeded if the whole has, and that two readings
go alike, so that the one fails where the other one does, and with the same error.

## Main definitions

* `AlikeOutcomes` — outcomes that come to related values, or fail with the same error

## Main results

* `bind_eq_ok_iff` — both of two steps have to succeed
* `AlikeOutcomes.bind` — two readings go alike if their steps do
-/

namespace Provisioner

/-- Both of two steps have to succeed. -/
theorem bind_eq_ok_iff {ε α β : Type} {x : Except ε α} {f : α → Except ε β} {b : β} :
    (x >>= f) = .ok b ↔ ∃ a, x = .ok a ∧ f a = .ok b := by
  constructor
  · intro h
    cases x with
    | ok a => exact ⟨a, rfl, h⟩
    | error e => exact nomatch h
  · rintro ⟨a, rfl, h⟩
    exact h

/-- Outcomes that come to values related to each other, or fail with the same error. -/
inductive AlikeOutcomes {α β : Type} (R : α → β → Prop) : Except Error α → Except Error β → Prop
  | ok {a : α} {b : β} (h : R a b) : AlikeOutcomes R (.ok a) (.ok b)
  | error (e : Error) : AlikeOutcomes R (.error e) (.error e)

theorem AlikeOutcomes.refl {α : Type} {R : α → α → Prop} (hR : ∀ a, R a a) (o : Except Error α) :
    AlikeOutcomes R o o := by
  cases o with
  | ok a => exact .ok (hR a)
  | error e => exact .error e

theorem AlikeOutcomes.eq {α : Type} {o o' : Except Error α} (h : AlikeOutcomes Eq o o') :
    o = o' := by
  cases h with
  | ok h => rw [h]
  | error e => rfl

/-- Two readings go alike if their steps do. -/
theorem AlikeOutcomes.bind {α β γ δ : Type} {R : α → β → Prop} {S : γ → δ → Prop}
    {x : Except Error α} {y : Except Error β} {f : α → Except Error γ} {g : β → Except Error δ}
    (h : AlikeOutcomes R x y)
    (hfg : ∀ a b, x = .ok a → y = .ok b → R a b → AlikeOutcomes S (f a) (g b)) :
    AlikeOutcomes S (x >>= f) (y >>= g) := by
  cases h with
  | ok h => exact hfg _ _ rfl rfl h
  | error e => exact .error e

theorem AlikeOutcomes.map {α β γ δ : Type} {R : α → β → Prop} {S : γ → δ → Prop}
    {x : Except Error α} {y : Except Error β} {f : α → γ} {g : β → δ} (h : AlikeOutcomes R x y)
    (hfg : ∀ a b, R a b → S (f a) (g b)) : AlikeOutcomes S (f <$> x) (g <$> y) := by
  cases h with
  | ok h => exact .ok (hfg _ _ h)
  | error e => exact .error e

end Provisioner
