import Mathlib.Data.List.Basic

/-!
# Runs of an aborting transition function

A run attempts a list of calls in order; an aborted call leaves the state
unchanged. The accepted calls, each with the state it was accepted in, form the
history of the run. An invariant is proved once for a single accepted call and
then holds of every run, also when it speaks about the history. Nothing in this
module mentions a particular program.
-/

namespace EthereumSettlement.TransitionRuns

variable {σ τ ε : Type}

/-- One attempted call: an abort leaves the state as it was. -/
def exec (step : σ → τ → Except ε σ) (state : σ) (call : τ) : σ :=
  match step state call with
  | .ok next => next
  | .error _ => state

/-- The state after attempting every call in order. -/
def run (step : σ → τ → Except ε σ) (state : σ) (calls : List τ) : σ :=
  calls.foldl (exec step) state

/-- The accepted calls of a run, oldest first, each with the state before it. -/
def accepted (step : σ → τ → Except ε σ) : σ → List τ → List (σ × τ)
  | _, [] => []
  | state, call :: calls =>
    match step state call with
    | .ok next => (state, call) :: accepted step next calls
    | .error _ => accepted step state calls

variable {step : σ → τ → Except ε σ}

/-- A run over a nonempty list attempts its first call first. -/
theorem run_cons (state : σ) (call : τ) (calls : List τ) :
    run step state (call :: calls) = run step (exec step state call) calls := rfl

/-- Runs compose along concatenated call lists. -/
theorem run_append (state : σ) (first second : List τ) :
    run step state (first ++ second) = run step (run step state first) second :=
  List.foldl_append

/-- An accepted call advances the state to its result. -/
theorem exec_of_ok {state next : σ} {call : τ} (h : step state call = .ok next) :
    exec step state call = next := by
  rw [exec, h]

/-- Histories compose along concatenated call lists. -/
theorem accepted_append (state : σ) (first second : List τ) :
    accepted step state (first ++ second) =
      accepted step state first ++ accepted step (run step state first) second := by
  induction first generalizing state with
  | nil => rfl
  | cons call first ih =>
    rw [List.cons_append, run_cons]
    cases h : step state call with
    | ok next => simp only [accepted, h, exec, ih, List.cons_append]
    | error e => simp only [accepted, h, exec, ih]

/-- Every entry of a history has a property if the first call is accepted with it and
the entries of the rest have it. -/
theorem forall_accepted_cons {Q : σ × τ → Prop} {state next : σ} {call : τ} {calls : List τ}
    (h : step state call = .ok next) (hfirst : Q (state, call))
    (hrest : ∀ entry ∈ accepted step next calls, Q entry) :
    ∀ entry ∈ accepted step state (call :: calls), Q entry := by
  simp only [accepted, h]
  exact List.forall_mem_cons.mpr ⟨hfirst, hrest⟩

/-- A property of histories and states that every accepted call carries from the
state before it to the state after it holds along the whole run. The accepted
calls may be assumed to satisfy a side condition of their own. -/
theorem history_invariant {J : List (σ × τ) → σ → Prop} {Q : σ × τ → Prop}
    (hstep : ∀ history state call next, J history state → Q (state, call) →
      step state call = .ok next → J (history ++ [(state, call)]) next)
    (calls : List τ) (history : List (σ × τ)) {state : σ} (h0 : J history state)
    (hQ : ∀ entry ∈ accepted step state calls, Q entry) :
    J (history ++ accepted step state calls) (run step state calls) := by
  induction calls generalizing history state with
  | nil =>
    rw [accepted, List.append_nil]
    exact h0
  | cons call calls ih =>
    rw [run_cons]
    cases h : step state call with
    | ok next =>
      simp only [accepted, h, exec] at hQ ⊢
      have hnext := hstep history state call next h0 (hQ _ List.mem_cons_self) h
      have hrest := ih _ hnext (fun entry he => hQ entry (List.mem_cons_of_mem _ he))
      rwa [List.append_assoc] at hrest
    | error e =>
      simp only [accepted, h, exec] at hQ ⊢
      exact ih _ h0 hQ

/-- A property of states kept by every accepted call holds after any run. -/
theorem run_invariant {I : σ → Prop}
    (hstep : ∀ state call next, I state → step state call = .ok next → I next)
    {state : σ} (h0 : I state) (calls : List τ) : I (run step state calls) :=
  history_invariant (J := fun _ s => I s) (Q := fun _ => True)
    (fun _ s c n hi _ h => hstep s c n hi h) calls [] h0 (fun _ _ => trivial)

/-- As `run_invariant`, for runs whose accepted calls meet a side condition. -/
theorem run_invariant_of {I : σ → Prop} {Q : σ × τ → Prop}
    (hstep : ∀ state call next, I state → Q (state, call) → step state call = .ok next → I next)
    {state : σ} (h0 : I state) {calls : List τ}
    (hQ : ∀ entry ∈ accepted step state calls, Q entry) : I (run step state calls) :=
  history_invariant (J := fun _ s => I s) (Q := Q)
    (fun _ s c n hi hq h => hstep s c n hi hq h) calls [] h0 hQ

/-- What precedes an entry in a history is the history of the calls attempted
before it, and they lead to the state of the entry. -/
theorem accepted_before {calls : List τ} {state : σ} {earlier later : List (σ × τ)} {entry : σ × τ}
    (h : accepted step state calls = earlier ++ entry :: later) :
    ∃ before after, calls = before ++ entry.2 :: after ∧ accepted step state before = earlier ∧
      run step state before = entry.1 ∧ ∃ next, step entry.1 entry.2 = .ok next := by
  induction calls generalizing state earlier with
  | nil =>
    rw [accepted] at h
    exact absurd h.symm (by simp)
  | cons call calls ih =>
    cases hs : step state call with
    | ok next =>
      simp only [accepted, hs] at h
      cases earlier with
      | nil =>
        rw [List.nil_append, List.cons.injEq] at h
        obtain ⟨rfl, -⟩ := h
        exact ⟨[], calls, rfl, rfl, rfl, next, hs⟩
      | cons first earlier =>
        rw [List.cons_append, List.cons.injEq] at h
        obtain ⟨rfl, hrest⟩ := h
        obtain ⟨before, after, hc, hb, hr, hn⟩ := ih hrest
        refine ⟨call :: before, after, by rw [hc, List.cons_append], ?_, ?_, hn⟩
        · simp only [accepted, hs, hb]
        · rw [run_cons, exec_of_ok hs, hr]
    | error e =>
      simp only [accepted, hs] at h
      obtain ⟨before, after, hc, hb, hr, hn⟩ := ih h
      refine ⟨call :: before, after, by rw [hc, List.cons_append], ?_, ?_, hn⟩
      · simp only [accepted, hs, hb]
      · rw [run_cons, exec, hs, hr]

/-- Every entry of a history is an accepted call of some state that the run
reached before it. -/
theorem accepted_split {calls : List τ} {state : σ} {entry : σ × τ}
    (h : entry ∈ accepted step state calls) :
    ∃ before after, calls = before ++ entry.2 :: after ∧ entry.1 = run step state before ∧
      ∃ next, step entry.1 entry.2 = .ok next := by
  obtain ⟨earlier, later, hsplit⟩ := List.append_of_mem h
  obtain ⟨before, after, hc, -, hr, hn⟩ := accepted_before hsplit
  exact ⟨before, after, hc, hr.symm, hn⟩

end EthereumSettlement.TransitionRuns
