import Mathlib.Tactic

/-! Runs of a deterministic step function that may have no successor, and
properties that hold of every step such a run takes. A run over a list of
events is the library fold `List.foldlM` in `Option`. -/

namespace KongjaExpress.Run

variable {σ ε : Type} {step : σ → ε → Option σ}

/-- `P` holds of every step the run from `s` takes. -/
def Along (step : σ → ε → Option σ) (P : σ → ε → σ → Prop) : σ → List ε → Prop
  | _, [] => True
  | s, event :: events =>
      ∀ next, step s event = some next → P s event next ∧ Along step P next events

instance decidableAlong (step : σ → ε → Option σ) (P : σ → ε → σ → Prop)
    [∀ s event next, Decidable (P s event next)] :
    ∀ s events, Decidable (Along step P s events)
  | _, [] => isTrue trivial
  | s, event :: events =>
      match taken : step s event with
      | none => isTrue fun next impossible => by simp [taken] at impossible
      | some next =>
          have := decidableAlong step P next events
          decidable_of_iff (P s event next ∧ Along step P next events)
            ⟨fun holds next' same => by
              obtain rfl : next = next' := by simpa [taken] using same
              exact holds, fun all => all next taken⟩

theorem foldlM_cons_some {s last : σ} {event : ε} {events : List ε}
    (ran : (event :: events).foldlM step s = some last) :
    ∃ next, step s event = some next ∧ events.foldlM step next = some last := by
  simpa [List.foldlM_cons, Option.bind_eq_some_iff] using ran

theorem foldlM_append_some {s last : σ} {front back : List ε}
    (ran : (front ++ back).foldlM step s = some last) :
    ∃ middle, front.foldlM step s = some middle ∧ back.foldlM step middle = some last := by
  simpa [List.foldlM_append, Option.bind_eq_some_iff] using ran

theorem along_append {P : σ → ε → σ → Prop}
    {front back : List ε} {s middle : σ} (first : Along step P s front)
    (ran : front.foldlM step s = some middle) (second : Along step P middle back) :
    Along step P s (front ++ back) := by
  induction front generalizing s with
  | nil =>
      obtain rfl := Option.some.inj ran
      exact second
  | cons event front ih =>
      rcases foldlM_cons_some ran with ⟨after, taken, rest⟩
      intro next taken'
      obtain rfl := Option.some.inj (taken.symm.trans taken')
      rcases first after taken with ⟨here, later⟩
      exact ⟨here, ih later rest⟩

/-- A property of one machine's steps that agrees with a condition on the steps of another: while
it holds the machines stay related, so along the runs that satisfy `L` the two agree. -/
theorem along_rel_iff {τ : Type} {step' : τ → ε → Option τ} {R : σ → τ → Prop}
    {L P : σ → ε → σ → Prop} {C : τ → ε → τ → Prop}
    (stuck : ∀ s t event, R s t → step s event = none → step' t event = none)
    (agree : ∀ s t event next, R s t → L s event next → step s event = some next →
      ∃ next', step' t event = some next' ∧ (P s event next ↔ C t event next') ∧
        (P s event next → R next next'))
    {events : List ε} {s : σ} {t : τ} (start : R s t) (given : Along step L s events) :
    Along step P s events ↔ Along step' C t events := by
  induction events generalizing s t with
  | nil => exact Iff.rfl
  | cons event events ih =>
      cases taken : step s event with
      | none =>
          have taken' := stuck s t event start taken
          refine iff_of_true (fun next moved => ?_) (fun next moved => ?_)
          · rw [taken] at moved
            contradiction
          · rw [taken'] at moved
            contradiction
      | some next =>
          rcases given next taken with ⟨legal, later⟩
          rcases agree s t event next start legal taken with ⟨next', taken', same, kept⟩
          constructor
          · intro along after moved
            obtain rfl := Option.some.inj (taken'.symm.trans moved)
            rcases along next taken with ⟨here, rest⟩
            exact ⟨same.mp here, (ih (kept here) later).mp rest⟩
          · intro along after moved
            obtain rfl := Option.some.inj (taken.symm.trans moved)
            rcases along next' taken' with ⟨here, rest⟩
            have held := same.mpr here
            exact ⟨held, (ih (kept held) later).mpr rest⟩

/-- Two properties of single steps that agree under an invariant `J` agree along
the runs that satisfy `L`; `J` need only survive the steps with the first property. -/
theorem along_iff {J : σ → Prop} {L P C : σ → ε → σ → Prop}
    (agree : ∀ s event next, J s → L s event next → step s event = some next →
      (P s event next ↔ C s event next))
    (kept : ∀ s event next, J s → L s event next → step s event = some next →
      P s event next → J next)
    {events : List ε} {s : σ} (start : J s) (given : Along step L s events) :
    Along step P s events ↔ Along step C s events := by
  apply along_rel_iff (R := fun s t => s = t ∧ J s) ?_ ?_ ⟨rfl, start⟩ given
  · intro s t event related none
    rw [← related.1]
    exact none
  · intro s t event next related legal taken
    rcases related with ⟨rfl, inv⟩
    exact ⟨next, taken, agree s event next inv legal taken,
      fun held => ⟨rfl, kept s event next inv legal taken held⟩⟩

/-- The induction rule for invariants: steps that satisfy `C` keep `J`. -/
theorem invariant_of_along {J : σ → Prop} {C : σ → ε → σ → Prop}
    (kept : ∀ s event next, J s → step s event = some next → C s event next → J next)
    {events : List ε} {s last : σ} (start : J s) (along : Along step C s events)
    (ran : events.foldlM step s = some last) : J last := by
  induction events generalizing s with
  | nil =>
      obtain rfl : s = last := by simpa using ran
      exact start
  | cons event events ih =>
      obtain ⟨next, taken, rest⟩ := foldlM_cons_some ran
      obtain ⟨here, along⟩ := along next taken
      exact ih (kept s event next start taken here) along rest

/-- What an invariant gives of every single step holds along every run. -/
theorem along_of_invariant {J : σ → Prop} {P : σ → ε → σ → Prop}
    (kept : ∀ s event next, J s → step s event = some next → J next)
    (holds : ∀ s event next, J s → step s event = some next → P s event next)
    (events : List ε) {s : σ} (start : J s) : Along step P s events := by
  induction events generalizing s with
  | nil => trivial
  | cons event events ih =>
      intro next taken
      exact ⟨holds s event next start taken, ih (kept s event next start taken)⟩

/-- An invariant that every step keeps, whatever the event. -/
theorem invariant {J : σ → Prop}
    (kept : ∀ s event next, J s → step s event = some next → J next)
    {events : List ε} {s last : σ} (start : J s)
    (ran : events.foldlM step s = some last) : J last := by
  have along : Along step (fun _ _ next => J next) s events :=
    along_of_invariant kept kept events start
  exact invariant_of_along (J := J) (fun _ _ _ _ _ held => held) start along ran

/-- Under an invariant, runs whose steps satisfy `C` have steps that satisfy `P`. -/
theorem along_imp {J : σ → Prop} {C P : σ → ε → σ → Prop}
    (kept : ∀ s event next, J s → step s event = some next → C s event next →
      P s event next ∧ J next)
    {events : List ε} {s : σ} (start : J s) (along : Along step C s events) :
    Along step P s events := by
  induction events generalizing s with
  | nil => trivial
  | cons event events ih =>
      intro next taken
      obtain ⟨here, later⟩ := along next taken
      obtain ⟨holds, good⟩ := kept s event next start taken here
      exact ⟨holds, ih good later⟩

/-- `Along` read through the prefixes of the run: the property holds of each
step that some prefix of the run leads to. -/
theorem along_iff_prefix {P : σ → ε → σ → Prop} {events : List ε} {s : σ} :
    Along step P s events ↔
      ∀ front event back, events = front ++ event :: back →
        ∀ before next, front.foldlM step s = some before →
          step before event = some next → P before event next := by
  induction events generalizing s with
  | nil =>
      simp [Along]
  | cons head events ih =>
      constructor
      · intro along front event back split before next ran taken
        cases front with
        | nil =>
            obtain ⟨rfl, rfl⟩ := List.cons.inj split
            obtain rfl : s = before := by simpa using ran
            exact (along next taken).1
        | cons first front =>
            obtain ⟨rfl, tail⟩ := List.cons.inj split
            obtain ⟨middle, moved, rest⟩ := foldlM_cons_some ran
            exact ih.mp (along middle moved).2 front event back tail before next rest taken
      · intro all next taken
        refine ⟨all [] head events rfl s next rfl taken, ih.mpr ?_⟩
        intro front event back split before after ran moved
        refine all (head :: front) event back (by rw [split, List.cons_append]) before after ?_ moved
        simp [List.foldlM_cons, taken, ran]

/-- Two machines whose steps keep a relation keep it over whole runs, or both get stuck. -/
theorem foldlM_rel {τ : Type} {step' : τ → ε → Option τ} {R : σ → τ → Prop}
    (kept : ∀ s t event, R s t → Option.Rel R (step s event) (step' t event))
    (events : List ε) {s : σ} {t : τ} (start : R s t) :
    Option.Rel R (events.foldlM step s) (events.foldlM step' t) := by
  induction events generalizing s t with
  | nil => exact Option.Rel.some start
  | cons event events ih =>
      have here := kept s t event start
      rw [List.foldlM_cons, List.foldlM_cons]
      generalize step s event = left at here ⊢
      generalize step' t event = right at here ⊢
      cases here with
      | none => exact Option.Rel.none
      | some related => exact ih related

/-- Steps whose success is told by their events alone. -/
theorem foldlM_isSome {C : ε → Prop} {events : List ε}
    (steps : ∀ event ∈ events, ∀ s, (step s event).isSome ↔ C event) (s : σ) :
    (events.foldlM step s).isSome ↔ ∀ event ∈ events, C event := by
  induction events generalizing s with
  | nil => simp
  | cons event events ih =>
      have here := steps event (by simp) s
      have later := ih fun next member => steps next (List.mem_cons_of_mem event member)
      rw [List.foldlM_cons, List.forall_mem_cons, ← here]
      cases taken : step s event with
      | none => simp
      | some next => simpa using later next

end KongjaExpress.Run
