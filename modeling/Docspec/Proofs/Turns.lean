import Mathlib.Data.List.Basic

set_option autoImplicit false

namespace Docspec

/-- What a loop does in one of its states: it is left, or it makes a turn that ends it or leads on
to the next state. What there is to say of a turn is of type `τ`. -/
inductive Turning (σ τ ρ : Type)
  | left (result : ρ)
  | ended (turn : τ) (result : ρ)
  | passed (turn : τ) (next : σ)

inductive Runs {σ τ ρ : Type} (step : σ → Option (Turning σ τ ρ)) : σ → List τ → ρ → Prop
  | left {s : σ} {result : ρ} : step s = some (.left result) → Runs step s [] result
  | ended {s : σ} {turn : τ} {result : ρ} : step s = some (.ended turn result) →
    Runs step s [turn] result
  | passed {s next : σ} {turn : τ} {turns : List τ} {result : ρ} :
    step s = some (.passed turn next) → Runs step next turns result →
    Runs step s (turn :: turns) result

/-- Turns that go on from one number to another, each from where the one before it stopped. -/
inductive Onward {τ : Type} (start stop : τ → Nat) : Nat → List τ → Nat → Prop
  | nil {n : Nat} : Onward start stop n [] n
  | cons {turn : τ} {turns : List τ} {last : Nat} : Onward start stop (stop turn) turns last →
    Onward start stop (start turn) (turn :: turns) last

section Runs

variable {σ τ ρ : Type} {step : σ → Option (Turning σ τ ρ)} {s : σ} {turns : List τ} {result : ρ}

theorem Runs.unique (runs : Runs step s turns result) {turns' : List τ} {result' : ρ}
    (others : Runs step s turns' result') : turns' = turns ∧ result' = result := by
  induction runs generalizing turns' with
  | left here =>
    cases others with
    | left same => cases here.symm.trans same; exact ⟨rfl, rfl⟩
    | ended other => cases here.symm.trans other
    | passed other _ => cases here.symm.trans other
  | ended here =>
    cases others with
    | left other => cases here.symm.trans other
    | ended same => cases here.symm.trans same; exact ⟨rfl, rfl⟩
    | passed other _ => cases here.symm.trans other
  | passed here _ ih =>
    cases others with
    | left other => cases here.symm.trans other
    | ended other => cases here.symm.trans other
    | passed same later =>
      cases here.symm.trans same
      obtain ⟨rfl, rfl⟩ := ih later
      exact ⟨rfl, rfl⟩

-- A step is a function of the state, so one run is all the runs there are.
theorem Runs.iff (runs : Runs step s turns result) {turns' : List τ} {result' : ρ} :
    Runs step s turns' result' ↔ turns' = turns ∧ result' = result := by
  constructor
  · exact runs.unique
  · rintro ⟨rfl, rfl⟩
    exact runs

end Runs

end Docspec
