import Mathlib.Tactic

/-! Machines that answer every input with an output, or get stuck. One machine
refines another when it can follow every run of the other with the same
outputs; the relation between their states may depend on how many inputs are
still to come. -/

namespace KongjaExpress.Automaton

variable {σ τ ι ω : Type}

/-- The outputs of a run over `inputs` and the state it ends in. -/
def run (machine : σ → ι → Option (ω × σ)) : σ → List ι → Option (List ω × σ)
  | s, [] => some ([], s)
  | s, input :: inputs => do
      let (output, next) ← machine s input
      let (outputs, last) ← run machine next inputs
      some (output :: outputs, last)

@[simp] theorem run_nil (machine : σ → ι → Option (ω × σ)) (s : σ) :
    run machine s [] = some ([], s) := rfl

theorem run_cons_eq_some {machine : σ → ι → Option (ω × σ)} {s last : σ} {input : ι}
    {inputs : List ι} {answers : List ω} :
    run machine s (input :: inputs) = some (answers, last) ↔
      ∃ output next outputs, machine s input = some (output, next) ∧
        run machine next inputs = some (outputs, last) ∧ answers = output :: outputs := by
  simp only [run, Option.bind_eq_bind, Option.bind_eq_some_iff, Option.some.injEq, Prod.exists,
    Prod.mk.injEq]
  constructor
  · rintro ⟨output, next, taken, outputs, _, rest, rfl, rfl⟩
    exact ⟨output, next, outputs, taken, rest, rfl⟩
  · rintro ⟨output, next, outputs, taken, rest, rfl⟩
    exact ⟨output, next, taken, outputs, last, rest, rfl, rfl⟩

/-- The induction rule for invariants. -/
theorem run_invariant {machine : σ → ι → Option (ω × σ)} {J : σ → Prop}
    (kept : ∀ s input output next, J s → machine s input = some (output, next) → J next)
    {s last : σ} {inputs : List ι} {outputs : List ω} (start : J s)
    (ran : run machine s inputs = some (outputs, last)) : J last := by
  induction inputs generalizing s outputs with
  | nil =>
      obtain ⟨rfl, rfl⟩ : [] = outputs ∧ s = last := by simpa using ran
      exact start
  | cons input inputs ih =>
      rcases run_cons_eq_some.mp ran with ⟨output, next, rest, taken, later, rfl⟩
      exact ih (kept s input output next start taken) later

def total (machine : σ → ι → ω × σ) (s : σ) (input : ι) : Option (ω × σ) := some (machine s input)

theorem total_runs (machine : σ → ι → ω × σ) (s : σ) (inputs : List ι) :
    ∃ outputs last, run (total machine) s inputs = some (outputs, last) := by
  induction inputs generalizing s with
  | nil => exact ⟨[], s, rfl⟩
  | cons input inputs ih =>
      rcases ih (machine s input).2 with ⟨outputs, last, rest⟩
      exact ⟨_, last, run_cons_eq_some.mpr ⟨_, _, outputs, rfl, rest, rfl⟩⟩

/-- `code` follows every step of `spec`, with `R n` between the states while
`n` inputs are still to come. -/
def Follows (code : σ → ι → Option (ω × σ)) (spec : τ → ι → Option (ω × τ))
    (R : Nat → σ → τ → Prop) : Prop :=
  ∀ n s t input output t', R (n + 1) s t → spec t input = some (output, t') →
    ∃ s', code s input = some (output, s') ∧ R n s' t'

theorem Follows.run {code : σ → ι → Option (ω × σ)} {spec : τ → ι → Option (ω × τ)}
    {R : Nat → σ → τ → Prop} (follows : Follows code spec R) {inputs : List ι} {s : σ} {t last : τ}
    {outputs : List ω} (start : R inputs.length s t)
    (ran : run spec t inputs = some (outputs, last)) :
    ∃ s', run code s inputs = some (outputs, s') ∧ R 0 s' last := by
  induction inputs generalizing s t outputs with
  | nil =>
      obtain ⟨rfl, rfl⟩ : [] = outputs ∧ t = last := by simpa using ran
      exact ⟨s, rfl, start⟩
  | cons input inputs ih =>
      rcases run_cons_eq_some.mp ran with ⟨output, next, rest, taken, later, rfl⟩
      rcases follows inputs.length s t input output next start taken with ⟨middle, moved, related⟩
      rcases ih related later with ⟨s', finished, final⟩
      exact ⟨s', run_cons_eq_some.mpr ⟨output, middle, rest, moved, finished, rfl⟩, final⟩

theorem run_append {machine : σ → ι → Option (ω × σ)} {s middle last : σ} {front back : List ι}
    {early late : List ω} (first : run machine s front = some (early, middle))
    (second : run machine middle back = some (late, last)) :
    run machine s (front ++ back) = some (early ++ late, last) := by
  induction front generalizing s early with
  | nil =>
      obtain ⟨rfl, rfl⟩ : [] = early ∧ s = middle := by simpa using first
      exact second
  | cons input front ih =>
      rcases run_cons_eq_some.mp first with ⟨output, next, rest, taken, later, rfl⟩
      exact run_cons_eq_some.mpr ⟨output, next, rest ++ late, taken, ih later, rfl⟩

/-- The two machines give the same outputs on `inputs`, and what the first one
ends in looks like what the second one ends in. -/
def Agree (code : σ → ι → Option (ω × σ)) (spec : τ → ι → Option (ω × τ)) (view : σ → τ) (s : σ)
    (inputs : List ι) : Prop :=
  ∃ outputs last, run code s inputs = some (outputs, last) ∧
    run spec (view s) inputs = some (outputs, view last)

/-- `C` holds of every state and input the run comes to. -/
def Throughout (machine : σ → ι → Option (ω × σ)) (C : σ → ι → Prop) : σ → List ι → Prop
  | _, [] => True
  | s, input :: inputs =>
      C s input ∧ ∀ output next, machine s input = some (output, next) →
        Throughout machine C next inputs

/-- When the condition `C` decides at each step whether the outputs agree, it
decides whether whole runs agree. -/
theorem agree_iff_throughout {code : σ → ι → Option (ω × σ)} {spec : τ → ι → Option (ω × τ)}
    {view : σ → τ} {J : σ → Prop} {C : σ → ι → Prop}
    (good : ∀ s input, J s → C s input → ∃ output next, code s input = some (output, next) ∧
      J next ∧ spec (view s) input = some (output, view next))
    (bad : ∀ s input output next t, J s → ¬ C s input → code s input = some (output, next) →
      spec (view s) input ≠ some (output, t))
    {s : σ} (start : J s) (inputs : List ι) :
    Agree code spec view s inputs ↔ Throughout code C s inputs := by
  induction inputs generalizing s with
  | nil => exact ⟨fun _ => trivial, fun _ => ⟨[], s, rfl, rfl⟩⟩
  | cons input inputs ih =>
      constructor
      · rintro ⟨_, last, ran, specified⟩
        rcases run_cons_eq_some.mp ran with ⟨output, next, outputs, taken, rest, rfl⟩
        rcases run_cons_eq_some.mp specified with ⟨output', t, outputs', taken', rest', same⟩
        obtain ⟨rfl, rfl⟩ := List.cons.inj same
        by_cases held : C s input
        · refine ⟨held, ?_⟩
          intro output₁ next₁ again
          rcases good s input start held with ⟨output₂, next₂, moved, kept, agreed⟩
          obtain ⟨rfl, rfl⟩ := Prod.mk.inj (Option.some.inj (taken.symm.trans again))
          obtain ⟨rfl, rfl⟩ := Prod.mk.inj (Option.some.inj (taken.symm.trans moved))
          obtain ⟨-, rfl⟩ := Prod.mk.inj (Option.some.inj (taken'.symm.trans agreed))
          exact (ih kept).mp ⟨outputs, last, rest, rest'⟩
        · exact absurd taken' (bad s input output next t start held taken)
      · rintro ⟨held, later⟩
        rcases good s input start held with ⟨output, next, taken, kept, agreed⟩
        rcases (ih kept).mpr (later output next taken) with ⟨outputs, last, rest, rest'⟩
        exact ⟨output :: outputs, last,
          run_cons_eq_some.mpr ⟨output, next, outputs, taken, rest, rfl⟩,
          run_cons_eq_some.mpr ⟨output, view next, outputs, agreed, rest', rfl⟩⟩

end KongjaExpress.Automaton
