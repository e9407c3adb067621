import Mathlib.Tactic

/-! Objects that clients share. An operation is called and returns, and at one moment in between
it is performed as a whole. -/

namespace KongjaExpress.AtomicObject

variable {ι σ Op Res : Type}

inductive Visible (ι Op Res : Type)
  | called (client : ι) (op : Op)
  | returned (client : ι) (res : Res)

inductive Phase (Op Res : Type)
  | idle
  | called (op : Op)
  | done (res : Res)

structure System (ι σ Op Res : Type) where
  store : σ
  phase : ι → Phase Op Res
  trace : List (Visible ι Op Res)

def fresh (store : σ) : System ι σ Op Res := ⟨store, fun _ => .idle, []⟩

variable [DecidableEq ι]

inductive Step (apply : Op → σ → σ × Res) : System ι σ Op Res → System ι σ Op Res → Prop
  | call {s : System ι σ Op Res} {client : ι} (op : Op) (idle : s.phase client = .idle) :
      Step apply s
        ⟨s.store, Function.update s.phase client (.called op), s.trace ++ [.called client op]⟩
  | perform {s : System ι σ Op Res} {client : ι} {op : Op} (called : s.phase client = .called op) :
      Step apply s
        ⟨(apply op s.store).1, Function.update s.phase client (.done (apply op s.store).2), s.trace⟩
  | ret {s : System ι σ Op Res} {client : ι} {res : Res} (done : s.phase client = .done res) :
      Step apply s
        ⟨s.store, Function.update s.phase client .idle, s.trace ++ [.returned client res]⟩

abbrev Reaches (apply : Op → σ → σ × Res) : System ι σ Op Res → System ι σ Op Res → Prop :=
  Relation.ReflTransGen (Step apply)

/-- A machine whose steps keep a relation to what the shared object can reach does so along whole
runs; the relation may speak of the events that are left. -/
theorem run_reaches {τ ε : Type} {apply : Op → σ → σ × Res} {step : τ → ε → Option τ}
    {R : List ε → τ → System ι σ Op Res → Prop}
    (kept : ∀ event events s t, R (event :: events) s t →
      ∃ s' t', step s event = some s' ∧ Reaches apply t t' ∧ R events s' t')
    {events : List ε} {s : τ} {t : System ι σ Op Res} (start : R events s t) :
    ∃ s' t', events.foldlM step s = some s' ∧ Reaches apply t t' ∧ R [] s' t' := by
  induction events generalizing s t with
  | nil => exact ⟨s, t, rfl, .refl, start⟩
  | cons event events ih =>
      rcases kept event events s t start with ⟨next, t₁, step, first, related⟩
      rcases ih related with ⟨last, t₂, run, second, ended⟩
      refine ⟨last, t₂, ?_, first.trans second, ended⟩
      rw [List.foldlM_cons, step]
      exact run

/-- The operations performed one after the other, each with its client and its result. -/
def perform (apply : Op → σ → σ × Res) : List (ι × Op) → σ → σ × List (ι × Res)
  | [], store => (store, [])
  | (client, op) :: history, store =>
      let (store, res) := apply op store
      let (store, results) := perform apply history store
      (store, (client, res) :: results)

omit [DecidableEq ι] in
theorem perform_append (apply : Op → σ → σ × Res) (history : List (ι × Op)) (client : ι) (op : Op)
    (store : σ) :
    perform apply (history ++ [(client, op)]) store =
      ((apply op (perform apply history store).1).1, (perform apply history store).2 ++
        [(client, (apply op (perform apply history store).1).2)]) := by
  induction history generalizing store with
  | nil => rfl
  | cons first history ih =>
      rw [List.cons_append, perform, perform]
      simp only [ih, List.cons_append]

def onClient {α : Type} (client : ι) (entries : List (ι × α)) : List α :=
  (entries.filter fun entry => entry.1 = client).map Prod.snd

theorem onClient_snoc {α : Type} (client other : ι) (a : α) (entries : List (ι × α)) :
    onClient client (entries ++ [(other, a)]) =
      onClient client entries ++ if other = client then [a] else [] := by
  by_cases same : other = client <;> simp [onClient, same]

def calls (client : ι) (trace : List (Visible ι Op Res)) : List Op :=
  trace.filterMap fun
    | .called other op => if other = client then some op else none
    | .returned _ _ => none

def returns (client : ι) (trace : List (Visible ι Op Res)) : List Res :=
  trace.filterMap fun
    | .called _ _ => none
    | .returned other res => if other = client then some res else none

theorem calls_called (client other : ι) (op : Op) (trace : List (Visible ι Op Res)) :
    calls client (trace ++ [.called other op]) =
      calls client trace ++ if other = client then [op] else [] := by
  by_cases same : other = client <;> simp [calls, same]

theorem calls_returned (client other : ι) (res : Res) (trace : List (Visible ι Op Res)) :
    calls client (trace ++ [.returned other res]) = calls client trace := by
  simp [calls]

theorem returns_called (client other : ι) (op : Op) (trace : List (Visible ι Op Res)) :
    returns client (trace ++ [.called other op]) = returns client trace := by
  simp [returns]

theorem returns_returned (client other : ι) (res : Res) (trace : List (Visible ι Op Res)) :
    returns client (trace ++ [.returned other res]) =
      returns client trace ++ if other = client then [res] else [] := by
  by_cases same : other = client <;> simp [returns, same]

def Phase.pending : Phase Op Res → List Op
  | .called op => [op]
  | _ => []

def Phase.unreturned : Phase Op Res → List Res
  | .done res => [res]
  | _ => []

/-- The state is what the operations of one history leave, which are those that were called, and
their results are those that were returned. -/
structure Explains (apply : Op → σ → σ × Res) (start : σ) (s : System ι σ Op Res)
    (history : List (ι × Op)) : Prop where
  store : s.store = (perform apply history start).1
  calls : ∀ client, calls client s.trace = onClient client history ++ (s.phase client).pending
  returns : ∀ client, onClient client (perform apply history start).2 =
    returns client s.trace ++ (s.phase client).unreturned

variable {apply : Op → σ → σ × Res} {start : σ} {s t : System ι σ Op Res}

theorem Step.explains (step : Step apply s t) {history : List (ι × Op)}
    (explains : Explains apply start s history) :
    ∃ later, Explains apply start t (history ++ later) := by
  cases step with
  | @call client op idle =>
      refine ⟨[], ⟨?_, fun other => ?_, fun other => ?_⟩⟩
      · rw [List.append_nil, explains.store]
      · have before := explains.calls other
        rw [calls_called, List.append_nil, before]
        by_cases same : client = other
        · subst same
          simp [idle, Phase.pending]
        · simp [same, Ne.symm same]
      · have before := explains.returns other
        rw [returns_called, List.append_nil, before]
        by_cases same : client = other
        · subst same
          simp [idle, Phase.unreturned]
        · simp [Ne.symm same]
  | @perform client op called =>
      refine ⟨[(client, op)], ⟨?_, fun other => ?_, fun other => ?_⟩⟩
      · rw [perform_append, explains.store]
      · have before := explains.calls other
        rw [onClient_snoc, before]
        by_cases same : client = other
        · subst same
          simp [called, Phase.pending]
        · simp [same, Ne.symm same]
      · have before := explains.returns other
        rw [perform_append, onClient_snoc, before, explains.store]
        by_cases same : client = other
        · subst same
          simp [called, Phase.unreturned]
        · simp [same, Ne.symm same]
  | @ret client res done =>
      refine ⟨[], ⟨?_, fun other => ?_, fun other => ?_⟩⟩
      · rw [List.append_nil, explains.store]
      · have before := explains.calls other
        rw [calls_returned, List.append_nil, before]
        by_cases same : client = other
        · subst same
          simp [done, Phase.pending]
        · simp [Ne.symm same]
      · have before := explains.returns other
        rw [returns_returned, List.append_nil, before]
        by_cases same : client = other
        · subst same
          simp [done, Phase.unreturned]
        · simp [same, Ne.symm same]

/-- Whatever the clients do, one history explains all they see. -/
theorem Reaches.explained (reaches : Reaches apply (fresh start) s) :
    ∃ history, Explains apply start s history := by
  induction reaches with
  | refl => exact ⟨[], ⟨rfl, fun _ => rfl, fun _ => rfl⟩⟩
  | tail _ step ih =>
      rcases ih with ⟨history, explains⟩
      rcases step.explains explains with ⟨later, explains⟩
      exact ⟨history ++ later, explains⟩

end KongjaExpress.AtomicObject
