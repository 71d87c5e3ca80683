/-!
# Machines

A machine is a step function: what an event makes of a state, or `none` when the event
cannot happen there.

* `run`: the state after a list of events.
* `Reaches`: a run comes by a state.
* `Along C`: every event of a run meets the condition `C` in the state it finds.

`run_invariant` is the rule for a whole run: what each step keeps under `C`, a run along
`C` keeps.  `reaches_invariant` says the same of every state it comes by, and `run_breach` is
the rule for a run that is not along `C`: what the first breach brings about and every step keeps.
`exists_ending_step` finds the step by which a run loses what held at its start.
-/

namespace Machine

variable {σ ε : Type} (step : σ → ε → Option σ)

def run : σ → List ε → Option σ
  | s, [] => some s
  | s, e :: es => (step s e).bind fun s' => run s' es

def Reaches (s : σ) (es : List ε) (s' : σ) : Prop := ∃ k, run step s (es.take k) = some s'

def Along (C : σ → ε → Prop) : σ → List ε → Prop
  | _, [] => True
  | s, e :: es => C s e ∧ ∀ s', step s e = some s' → Along C s' es

variable {step} {C : σ → ε → Prop} {I : σ → Prop}

theorem run_cons_eq_some {s s' : σ} {e : ε} {es : List ε} :
    run step s (e :: es) = some s' ↔ ∃ t, step s e = some t ∧ run step t es = some s' := by
  rw [run, Option.bind_eq_some_iff]

theorem run_append (s : σ) (es es' : List ε) :
    run step s (es ++ es') = (run step s es).bind fun s' => run step s' es' := by
  induction es generalizing s with
  | nil => rfl
  | cons e es ih =>
    rw [List.cons_append, run, run, Option.bind_assoc]
    exact congrArg _ (funext fun t => ih t)

theorem Along.cons {s s' : σ} {e : ε} {es : List ε} (hC : C s e) (hs : step s e = some s')
    (h : Along step C s' es) : Along step C s (e :: es) := by
  refine ⟨hC, fun t ht => ?_⟩
  rw [hs] at ht
  cases ht
  exact h

theorem Along.take {s : σ} {es : List ε} (h : Along step C s es) (k : Nat) :
    Along step C s (es.take k) := by
  induction es generalizing s k with
  | nil => rw [List.take_nil]; exact h
  | cons e es ih =>
    cases k with
    | zero => trivial
    | succ k => exact ⟨h.1, fun s' hs' => ih (h.2 s' hs') k⟩

theorem along_of_forall (h : ∀ s e, C s e) : ∀ (s : σ) (es : List ε), Along step C s es
  | _, [] => trivial
  | s, e :: es => ⟨h s e, fun s' _ => along_of_forall h s' es⟩

/-- **What each step keeps, a run keeps.** -/
theorem run_invariant (hstep : ∀ s e s', I s → C s e → step s e = some s' → I s') :
    ∀ (es : List ε) {s s' : σ}, I s → Along step C s es → run step s es = some s' → I s' := by
  intro es
  induction es with
  | nil =>
    intro s s' hI _ hrun
    cases hrun
    exact hI
  | cons e es ih =>
    rintro s s' hI ⟨hC, hrest⟩ hrun
    obtain ⟨t, ht, hrun⟩ := run_cons_eq_some.mp hrun
    exact ih (hstep s e t hI hC ht) (hrest t ht) hrun

theorem reaches_invariant (hstep : ∀ s e s', I s → C s e → step s e = some s' → I s')
    {s s' : σ} {es : List ε} (hI : I s) (halong : Along step C s es)
    (hreach : Reaches step s es s') : I s' := by
  obtain ⟨k, hrun⟩ := hreach
  exact run_invariant hstep (es.take k) hI (halong.take k) hrun

/-- **What a breach brings about and each step keeps**, a run that breaches `C` ends with. -/
theorem run_breach {J : σ → Prop} (hI : ∀ s e s', I s → step s e = some s' → I s')
    (hbreach : ∀ s e s', I s → ¬ C s e → step s e = some s' → J s')
    (hJ : ∀ s e s', I s → J s → step s e = some s' → J s') :
    ∀ (es : List ε) {s s' : σ}, I s → ¬ Along step C s es → run step s es = some s' → J s' := by
  intro es
  induction es with
  | nil => exact fun _ h _ => absurd trivial h
  | cons e es ih =>
    intro s s' hs h hrun
    obtain ⟨t, ht, hrun⟩ := run_cons_eq_some.mp hrun
    have hIt := hI s e t hs ht
    by_cases hC : C s e
    · refine ih hIt (fun hrest => h ⟨hC, fun u hu => ?_⟩) hrun
      rw [ht] at hu
      cases hu
      exact hrest
    · have hboth : ∀ s e s', I s ∧ J s → True → step s e = some s' → I s' ∧ J s' :=
        fun s e s' h _ hs => ⟨hI s e s' h.1 hs, hJ s e s' h.1 h.2 hs⟩
      exact (run_invariant hboth es ⟨hIt, hbreach s e t hs hC ht⟩
        (along_of_forall (fun _ _ => trivial) t es) hrun).2

/-- **What holds at the start of a run and not at its end** is ended by one of its steps. -/
theorem exists_ending_step : ∀ (es : List ε) {s s' : σ}, I s → ¬ I s' → Along step C s es →
    run step s es = some s' → ∃ before e after t t', es = before ++ e :: after ∧
      run step s before = some t ∧ C t e ∧ step t e = some t' ∧ I t ∧ ¬ I t' := by
  intro es
  induction es with
  | nil =>
    intro s s' hI hI' _ hrun
    cases hrun
    exact absurd hI hI'
  | cons e es ih =>
    rintro s s' hI hI' ⟨hC, hrest⟩ hrun
    obtain ⟨t, ht, hrun⟩ := run_cons_eq_some.mp hrun
    by_cases hIt : I t
    · obtain ⟨before, e', after, u, u', rfl, hbefore, hlast⟩ := ih hIt hI' (hrest t ht) hrun
      exact ⟨e :: before, e', after, u, u', rfl, run_cons_eq_some.mpr ⟨t, ht, hbefore⟩, hlast⟩
    · exact ⟨[], e, es, s, t, rfl, rfl, hC, ht, hI, hIt⟩

end Machine
