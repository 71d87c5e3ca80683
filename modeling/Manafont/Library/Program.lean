import Mathlib.Order.Defs.Unbundled

/-!
# Programs with a state and a way to stop

`EStateM ε σ` runs a program from a state and ends it with a value or with a
reason to stop, and in a state either way.  This file has the rules by which
such programs are taken apart:

* `bind_of_ok`, `bind_of_error`: a sequence whose first part is known.
* `bind_eq_ok_iff`: a sequence that returned.
* `Moves R m`: every run of `m` moves the state along `R`, however it ends.  For
  a preorder `R` it passes through sequences (`Moves.bind`).
* `within enter leave m`: `m` run on another state that is made on the way in
  and put back on the way out.
-/

namespace Program

variable {ε σ τ α β : Type}

def final : EStateM.Result ε σ α → σ
  | .ok _ s => s
  | .error _ s => s

def outcome : EStateM.Result ε σ α → Except ε α
  | .ok a _ => .ok a
  | .error e _ => .error e

@[simp] theorem final_ok (a : α) (s : σ) : final (.ok a s : EStateM.Result ε σ α) = s := rfl

@[simp] theorem final_error (e : ε) (s : σ) : final (.error e s : EStateM.Result ε σ α) = s := rfl

@[simp] theorem outcome_ok (a : α) (s : σ) :
    outcome (.ok a s : EStateM.Result ε σ α) = .ok a := rfl

@[simp] theorem outcome_error (e : ε) (s : σ) :
    outcome (.error e s : EStateM.Result ε σ α) = .error e := rfl

theorem final_discard (x : EStateM ε σ α) (s : σ) :
    final ((discard x : EStateM ε σ PUnit) s) = final (x s) := by
  show final (EStateM.map _ x s) = _
  rw [EStateM.map]
  cases x s with
  | ok a t => rfl
  | error e t => rfl

/-! ### Sequences -/

section Sequences

variable {x : EStateM ε σ α} {f : α → EStateM ε σ β} {s s' : σ}

theorem bind_of_ok {a : α} (h : x s = .ok a s') : (x >>= f) s = f a s' := by
  show EStateM.bind x f s = _
  rw [EStateM.bind, h]

theorem bind_of_error {e : ε} (h : x s = .error e s') : (x >>= f) s = .error e s' := by
  show EStateM.bind x f s = _
  rw [EStateM.bind, h]

/-- A sequence returned exactly when its first part did and the rest went on from there. -/
theorem bind_eq_ok_iff {b : β} :
    (x >>= f) s = .ok b s' ↔ ∃ a t, x s = .ok a t ∧ f a t = .ok b s' := by
  cases hx : x s with
  | ok a t =>
    rw [bind_of_ok hx]
    constructor
    · intro h
      exact ⟨a, t, rfl, h⟩
    · rintro ⟨a', t', h, h'⟩
      cases h
      exact h'
  | error e t =>
    rw [bind_of_error hx]
    constructor
    · intro h
      cases h
    · rintro ⟨a', t', h, -⟩
      cases h

end Sequences

/-! ### Programs with a further state on top -/

section Lifted

variable {m : EStateM ε σ α} {f : α → StateT τ (EStateM ε σ) β} {s s' : σ} {t : τ}

theorem run_lift_bind_of_ok {a : α} (h : m s = .ok a s') :
    ((liftM m >>= f : StateT τ (EStateM ε σ) β).run t) s = (f a).run t s' := by
  rw [StateT.run_bind, StateT.run_monadLift, bind_assoc]
  exact bind_of_ok h

theorem run_lift_bind_of_error {e : ε} (h : m s = .error e s') :
    ((liftM m >>= f : StateT τ (EStateM ε σ) β).run t) s = .error e s' := by
  rw [StateT.run_bind, StateT.run_monadLift, bind_assoc]
  exact bind_of_error h

theorem run_modify_bind {g : τ → τ} {rest : PUnit → StateT τ (EStateM ε σ) β} :
    (modify g >>= rest).run t s = (rest ⟨⟩).run (g t) s := rfl

end Lifted

/-! ### Another state for a while -/

/-- Run `m` on the state that `enter` makes; `leave` puts what it left back. -/
def within (enter : σ → τ) (leave : σ → τ → σ) (m : EStateM ε τ α) : EStateM ε σ α := fun s =>
  match m (enter s) with
  | .ok a t => .ok a (leave s t)
  | .error e t => .error e (leave s t)

section Within

variable {enter : σ → τ} {leave : σ → τ → σ} {m : EStateM ε τ α} {s : σ} {t : τ}

theorem within_of_ok {a : α} (h : m (enter s) = .ok a t) :
    within enter leave m s = .ok a (leave s t) := by
  rw [within, h]

theorem within_of_error {e : ε} (h : m (enter s) = .error e t) :
    within enter leave m s = .error e (leave s t) := by
  rw [within, h]

end Within

/-! ### Where a run can take the state -/

/-- Every run of `m` moves the state along `R`. -/
def Moves (R : σ → σ → Prop) (m : EStateM ε σ α) : Prop := ∀ s, R s (final (m s))

namespace Moves

variable {R : σ → σ → Prop}

theorem pure [Std.Refl R] (a : α) : Moves R (pure a : EStateM ε σ α) := fun s => Std.Refl.refl s

theorem throw [Std.Refl R] (e : ε) : Moves R (throw e : EStateM ε σ α) :=
  fun s => Std.Refl.refl s

theorem get [Std.Refl R] : Moves R (get : EStateM ε σ σ) := fun s => Std.Refl.refl s

theorem bind [IsTrans σ R] {x : EStateM ε σ α} {f : α → EStateM ε σ β} (hx : Moves R x)
    (hf : ∀ a, Moves R (f a)) : Moves R (x >>= f) := by
  intro s
  have h := hx s
  cases hr : x s with
  | ok a t =>
    rw [bind_of_ok hr]
    rw [hr] at h
    exact IsTrans.trans _ _ _ h (hf a t)
  | error e t =>
    rw [bind_of_error hr]
    rw [hr] at h
    exact h

theorem ite {c : Prop} [Decidable c] {x y : EStateM ε σ α} (hx : Moves R x) (hy : Moves R y) :
    Moves R (if c then x else y) := by
  split
  · exact hx
  · exact hy

end Moves

/-! ### The same with a further state on top -/

def MovesT (R : σ → σ → Prop) (m : StateT τ (EStateM ε σ) α) : Prop := ∀ t, Moves R (m.run t)

namespace MovesT

variable {R : σ → σ → Prop}

theorem modify [Std.Refl R] (g : τ → τ) :
    MovesT R (modify g : StateT τ (EStateM ε σ) PUnit) := fun _ => Moves.pure _

theorem throw [Std.Refl R] (e : ε) : MovesT R (throw e : StateT τ (EStateM ε σ) α) :=
  fun _ s => Std.Refl.refl s

theorem bind [IsTrans σ R] {x : StateT τ (EStateM ε σ) α} {f : α → StateT τ (EStateM ε σ) β}
    (hx : MovesT R x) (hf : ∀ a, MovesT R (f a)) : MovesT R (x >>= f) := by
  intro t
  rw [StateT.run_bind]
  exact (hx t).bind fun p => hf p.1 p.2

theorem lift_bind [IsTrans σ R] {x : EStateM ε σ α} {f : α → StateT τ (EStateM ε σ) β}
    (hx : Moves R x) (hf : ∀ a, MovesT R (f a)) : MovesT R (liftM x >>= f) := by
  intro t
  rw [StateT.run_bind, StateT.run_monadLift, bind_assoc]
  exact hx.bind fun a => hf a t

end MovesT

end Program
