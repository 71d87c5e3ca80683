import Mathlib.Logic.Function.Basic

/-!
# Asynchronous methods on a store

An asynchronous method is a tree: it is done, or it waits for an operation and goes
on with what the operation answered, a value or an exception.  `perform f op` is what
an operation does to the store and answers when the environment chooses `f` for it.

* `run perform m`: the method alone, from the first operation to the last.  `Throws` says
  that it ends with an exception and has changed nothing.
* `Pool`: many methods on one store.  A schedule says whose turn it is and what the
  environment chooses; `Pool.run` follows it.
* `Pool.Meets C`: every operation that a run performs meets the condition `C`.

`Safe` is the invariant rule for pools.  `I` is the invariant of the store and `R` says
how any operation may change it.  A method is `Safe` when each operation of it, from
any store that the others may have left, keeps `I`, changes the store along `R` and
leaves the method `Safe`, and when it ends as `Q` says.  Each method is looked at
alone (`Safe.perform_bind`, `Safe.read_bind`, `Safe.throw`), and `Pool.run_safe` puts them together.
-/

/-- The operations a method can wait for, and what each of them answers. -/
structure Signature where
  Op : Type
  Answer : Op → Type

inductive Async (S : Signature) (ε α : Type) : Type where
  | done (result : Except ε α)
  | await (op : S.Op) (resume : Except ε (S.Answer op) → Async S ε α)

namespace Async

variable {S : Signature} {ε α β : Type}

def bind : Async S ε α → (α → Async S ε β) → Async S ε β
  | done (.ok a), f => f a
  | done (.error e), _ => done (.error e)
  | await op resume, f => await op fun r => (resume r).bind f

/-- `try m catch`: go on with the exception of a method. -/
def orElse : Async S ε α → (ε → Async S ε α) → Async S ε α
  | done (.ok a), _ => done (.ok a)
  | done (.error e), h => h e
  | await op resume, h => await op fun r => (resume r).orElse h

instance : Monad (Async S ε) where
  pure a := done (.ok a)
  bind := bind

instance : MonadExceptOf ε (Async S ε) where
  throw e := done (.error e)
  tryCatch := orElse

def perform (op : S.Op) : Async S ε (S.Answer op) := await op done

theorem perform_bind_bind {γ : Type} (op : S.Op) (f : S.Answer op → Async S ε β)
    (g : β → Async S ε γ) :
    (perform op >>= f) >>= g = perform op >>= fun a => f a >>= g := by
  show await op (fun r => bind (bind (done r) f) g) = await op fun r => bind (done r) _
  congr 1
  funext r
  cases r <;> rfl

/-! ### One method alone -/

section Run

variable {σ : Type} (act : (op : S.Op) → σ → Except ε (S.Answer op) × σ)

def run : Async S ε α → σ → Except ε α × σ
  | done r, s => (r, s)
  | await op resume, s => run (resume (act op s).1) (act op s).2

def Throws (m : Async S ε α) (s : σ) : Prop := ∃ e, run act m s = (.error e, s)

variable {act} {s s' : σ}

theorem run_perform_bind_of_ok {op : S.Op} {f : S.Answer op → Async S ε α} {a : S.Answer op}
    (h : act op s = (.ok a, s')) : run act (perform op >>= f) s = run act (f a) s' := by
  show run act (bind (done (act op s).1) f) (act op s).2 = _
  rw [h]
  rfl

theorem run_perform_bind_of_error {op : S.Op} {f : S.Answer op → Async S ε α} {e : ε}
    (h : act op s = (.error e, s')) : run act (perform op >>= f) s = (.error e, s') := by
  show run act (bind (done (act op s).1) f) (act op s).2 = _
  rw [h]
  rfl

theorem run_tryCatch_bind_of_ok {op : S.Op} {h : ε → Async S ε (S.Answer op)}
    {f : S.Answer op → Async S ε α} {a : S.Answer op} (hact : act op s = (.ok a, s')) :
    run act (tryCatch (perform op) h >>= f) s = run act (f a) s' := by
  show run act (bind (orElse (done (act op s).1) h) f) (act op s).2 = _
  rw [hact]
  rfl

theorem run_tryCatch_bind_of_error {op : S.Op} {h : ε → Async S ε (S.Answer op)}
    {f : S.Answer op → Async S ε α} {e : ε} (hact : act op s = (.error e, s')) :
    run act (tryCatch (perform op) h >>= f) s = run act (h e >>= f) s' := by
  show run act (bind (orElse (done (act op s).1) h) f) (act op s).2 = _
  rw [hact]
  rfl

namespace Throws

theorem throw (e : ε) : Throws act (throw e : Async S ε α) s := ⟨e, rfl⟩

theorem of_ok {op : S.Op} {f : S.Answer op → Async S ε α} {a : S.Answer op}
    (h : act op s = (.ok a, s)) (hf : Throws act (f a) s) : Throws act (perform op >>= f) s := by
  obtain ⟨e, he⟩ := hf
  exact ⟨e, (run_perform_bind_of_ok h).trans he⟩

theorem of_error {op : S.Op} {f : S.Answer op → Async S ε α} {e : ε}
    (h : act op s = (.error e, s)) : Throws act (perform op >>= f) s :=
  ⟨e, run_perform_bind_of_error h⟩

end Throws

end Run

/-! ### Many methods on one store -/

/-- Methods, each under a name, and the store they share. -/
structure Pool (S : Signature) (ε α ι σ : Type) where
  store : σ
  method : ι → Async S ε α

section Pool

variable {ι σ φ : Type} [DecidableEq ι]
  (act : φ → (op : S.Op) → σ → Except ε (S.Answer op) × σ)

/-- One turn: the method performs the operation it waits for. -/
def Pool.step (pool : Pool S ε α ι σ) (turn : ι × φ) : Pool S ε α ι σ :=
  match pool.method turn.1 with
  | done _ => pool
  | await op resume => {
      store := (act turn.2 op pool.store).2
      method := Function.update pool.method turn.1 (resume (act turn.2 op pool.store).1) }

def Pool.run (pool : Pool S ε α ι σ) (schedule : List (ι × φ)) : Pool S ε α ι σ :=
  schedule.foldl (Pool.step act) pool

def Pool.MeetsTurn (C : φ → S.Op → σ → Prop) (pool : Pool S ε α ι σ) (turn : ι × φ) : Prop :=
  ∀ op resume, pool.method turn.1 = await op resume → C turn.2 op pool.store

omit [DecidableEq ι] in
theorem Pool.MeetsTurn.of_eq {C : φ → S.Op → σ → Prop} {pool : Pool S ε α ι σ} {turn : ι × φ}
    {op : S.Op} {resume : Except ε (S.Answer op) → Async S ε α}
    (h : pool.method turn.1 = await op resume) (hC : C turn.2 op pool.store) :
    pool.MeetsTurn C turn := by
  intro op' resume' h'
  rw [h] at h'
  cases h'
  exact hC

def Pool.Meets (C : φ → S.Op → σ → Prop) : Pool S ε α ι σ → List (ι × φ) → Prop
  | _, [] => True
  | pool, turn :: schedule => pool.MeetsTurn C turn ∧ (pool.step act turn).Meets C schedule

variable {act} in
theorem Pool.Meets.and {C D : φ → S.Op → σ → Prop} {schedule : List (ι × φ)} :
    ∀ {pool : Pool S ε α ι σ}, pool.Meets act C schedule → pool.Meets act D schedule →
      pool.Meets act (fun f op s => C f op s ∧ D f op s) schedule := by
  induction schedule with
  | nil => exact fun _ _ => trivial
  | cons turn schedule ih =>
    intro pool h h'
    exact ⟨fun op resume hm => ⟨h.1 op resume hm, h'.1 op resume hm⟩, ih h.2 h'.2⟩

variable (C : φ → S.Op → σ → Prop) (I : σ → Prop) (R : σ → σ → Prop)

/-- Whatever the other methods do along `R`, a method keeps `I`, moves along `R` itself
and ends in `Q`, as long as its operations meet `C`. -/
def Safe (Q : Except ε α → σ → Prop) : Async S ε α → σ → Prop
  | done r, s => Q r s
  | await op resume, s => ∀ s', R s s' → I s' → ∀ f, C f op s' →
      I (act f op s').2 ∧ R s' (act f op s').2 ∧ Safe Q (resume (act f op s').1) (act f op s').2

variable {act C I R} {Q : Except ε α → σ → Prop} {s s' : σ}

namespace Safe

theorem throw {e : ε} (h : Q (.error e) s) : Safe act C I R Q (throw e : Async S ε α) s := h

theorem perform_bind {op : S.Op} {g : S.Answer op → Async S ε α}
    (h : ∀ s', R s s' → I s' → ∀ f, C f op s' → I (act f op s').2 ∧ R s' (act f op s').2 ∧
      match (act f op s').1 with
      | .ok a => Safe act C I R Q (g a) (act f op s').2
      | .error e => Q (.error e) (act f op s').2) :
    Safe act C I R Q (perform op >>= g) s := by
  intro s' hR hI f hC
  obtain ⟨hI', hR', hrest⟩ := h s' hR hI f hC
  refine ⟨hI', hR', ?_⟩
  show Safe act C I R Q (bind (done (act f op s').1) g) (act f op s').2
  cases hr : (act f op s').1 with
  | ok a =>
    rw [hr] at hrest
    exact hrest
  | error e =>
    rw [hr] at hrest
    exact hrest

theorem read_bind [Std.Refl R] {op : S.Op} {g : S.Answer op → Async S ε α}
    (hread : ∀ f t, (act f op t).2 = t)
    (hok : ∀ t, R s t → I t → ∀ f a, C f op t → (act f op t).1 = .ok a →
      Safe act C I R Q (g a) t)
    (herror : ∀ t e, R s t → I t → Q (.error e) t) :
    Safe act C I R Q (perform op >>= g) s := by
  refine perform_bind fun s' hR hI f hC => ?_
  rw [hread f s']
  refine ⟨hI, Std.Refl.refl s', ?_⟩
  cases hr : (act f op s').1 with
  | ok a => exact hok s' hR hI f a hC hr
  | error e => exact herror s' e hR hI

theorem mono [IsTrans σ R] (hQ : ∀ r s s', R s s' → I s' → Q r s → Q r s')
    {m : Async S ε α} (hR : R s s') (hI : I s') (h : Safe act C I R Q m s) :
    Safe act C I R Q m s' := by
  cases m with
  | done r => exact hQ r s s' hR hI h
  | await op resume => exact fun t hR' => h t (IsTrans.trans _ _ _ hR hR')

end Safe

theorem Pool.step_safe [Std.Refl R] [IsTrans σ R] {Q : ι → Except ε α → σ → Prop}
    (hQ : ∀ i r s s', R s s' → I s' → Q i r s → Q i r s') {pool : Pool S ε α ι σ} {turn : ι × φ}
    (hI : I pool.store) (hsafe : ∀ i, Safe act C I R (Q i) (pool.method i) pool.store)
    (hC : pool.MeetsTurn C turn) :
    I (pool.step act turn).store ∧
      ∀ i, Safe act C I R (Q i) ((pool.step act turn).method i) (pool.step act turn).store := by
  cases hm : pool.method turn.1 with
  | done r =>
    have hstep : pool.step act turn = pool := by
      rw [Pool.step, hm]
    rw [hstep]
    exact ⟨hI, hsafe⟩
  | await op resume =>
    have hturn := hsafe turn.1
    rw [hm] at hturn
    obtain ⟨hI', hR', hrest⟩ :=
      hturn pool.store (Std.Refl.refl _) hI turn.2 (hC op resume hm)
    have hstep : pool.step act turn = {
        store := (act turn.2 op pool.store).2
        method := Function.update pool.method turn.1 (resume (act turn.2 op pool.store).1) } := by
      rw [Pool.step, hm]
    rw [hstep]
    refine ⟨hI', fun i => ?_⟩
    by_cases hi : i = turn.1
    · subst hi
      simp only [Function.update_self]
      exact hrest
    · simp only [Function.update_of_ne hi]
      exact (hsafe i).mono (hQ i) hR' hI'

/-- **A run of safe methods** keeps the invariant and leaves every method safe. -/
theorem Pool.run_safe [Std.Refl R] [IsTrans σ R] {Q : ι → Except ε α → σ → Prop}
    (hQ : ∀ i r s s', R s s' → I s' → Q i r s → Q i r s') :
    ∀ (schedule : List (ι × φ)) {pool : Pool S ε α ι σ}, I pool.store →
    (∀ i, Safe act C I R (Q i) (pool.method i) pool.store) → pool.Meets act C schedule →
    I (pool.run act schedule).store ∧
      ∀ i, Safe act C I R (Q i) ((pool.run act schedule).method i) (pool.run act schedule).store := by
  intro schedule
  induction schedule with
  | nil => exact fun hI hsafe _ => ⟨hI, hsafe⟩
  | cons turn schedule ih =>
    rintro pool hI hsafe ⟨hturn, hrest⟩
    obtain ⟨hI', hsafe'⟩ := Pool.step_safe hQ hI hsafe hturn
    exact ih hI' hsafe' hrest

theorem Safe.of_done {r : Except ε α} {m : Async S ε α} (hm : m = done r)
    (h : Safe act C I R Q m s) : Q r s := by
  subst hm
  exact h

end Pool

end Async
