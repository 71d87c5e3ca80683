import Manafont.Library.Async

/-!
# Methods that rely on one another

`Safe` has one relation for what a method does and for what the others do.  Here they are
two: a method *relies* on the others to move the store along `Rely` and *guarantees* to move
it along `Guar` itself (`Keeps`).  Methods fit together when what each guarantees is what the
others rely on (`Pool.run_keeps`), so a method may rely on something that it breaks itself: that
nobody else uses its key, say.

`Safe` is the case of one relation (`safe_iff_keeps`).
-/

namespace Async

variable {S : Signature} {ε α σ φ : Type}

section Keeps

variable (act : φ → (op : S.Op) → σ → Except ε (S.Answer op) × σ)
  (C : φ → S.Op → σ → Prop) (I : σ → Prop) (Rely Guar : σ → σ → Prop)

/-- Whatever the other methods do along `Rely`, a method keeps `I`, moves along `Guar` itself
and ends in `Q`, as long as its operations meet `C`. -/
def Keeps (Q : Except ε α → σ → Prop) : Async S ε α → σ → Prop
  | done r, s => Q r s
  | await op resume, s => ∀ s', Rely s s' → I s' → ∀ f, C f op s' →
      I (act f op s').2 ∧ Guar s' (act f op s').2 ∧
        Keeps Q (resume (act f op s').1) (act f op s').2

variable {act C I Rely Guar} {Q : Except ε α → σ → Prop} {s s' : σ}

/-- **`Safe` relies on what it guarantees.** -/
theorem safe_iff_keeps {R : σ → σ → Prop} {m : Async S ε α} :
    Safe act C I R Q m s ↔ Keeps act C I R R Q m s := by
  induction m generalizing s with
  | done r => exact Iff.rfl
  | await op resume ih =>
    constructor
    · intro h s' hR hI f hC
      obtain ⟨hI', hR', hrest⟩ := h s' hR hI f hC
      exact ⟨hI', hR', ih _ |>.mp hrest⟩
    · intro h s' hR hI f hC
      obtain ⟨hI', hR', hrest⟩ := h s' hR hI f hC
      exact ⟨hI', hR', ih _ |>.mpr hrest⟩

namespace Keeps

theorem throw {e : ε} (h : Q (.error e) s) :
    Keeps act C I Rely Guar Q (throw e : Async S ε α) s := h

theorem perform_bind {op : S.Op} {g : S.Answer op → Async S ε α}
    (h : ∀ s', Rely s s' → I s' → ∀ f, C f op s' → I (act f op s').2 ∧ Guar s' (act f op s').2 ∧
      match (act f op s').1 with
      | .ok a => Keeps act C I Rely Guar Q (g a) (act f op s').2
      | .error e => Q (.error e) (act f op s').2) :
    Keeps act C I Rely Guar Q (perform op >>= g) s := by
  intro s' hR hI f hC
  obtain ⟨hI', hG', hrest⟩ := h s' hR hI f hC
  refine ⟨hI', hG', ?_⟩
  show Keeps act C I Rely Guar Q (bind (done (act f op s').1) g) (act f op s').2
  cases hr : (act f op s').1 with
  | ok a =>
    rw [hr] at hrest
    exact hrest
  | error e =>
    rw [hr] at hrest
    exact hrest

theorem read_bind [Std.Refl Guar] {op : S.Op} {g : S.Answer op → Async S ε α}
    (hread : ∀ f t, (act f op t).2 = t)
    (hok : ∀ t, Rely s t → I t → ∀ f a, C f op t → (act f op t).1 = .ok a →
      Keeps act C I Rely Guar Q (g a) t)
    (herror : ∀ t e, Rely s t → I t → Q (.error e) t) :
    Keeps act C I Rely Guar Q (perform op >>= g) s := by
  refine perform_bind fun s' hR hI f hC => ?_
  rw [hread f s']
  refine ⟨hI, Std.Refl.refl s', ?_⟩
  cases hr : (act f op s').1 with
  | ok a => exact hok s' hR hI f a hC hr
  | error e => exact herror s' e hR hI

theorem mono [IsTrans σ Rely] (hQ : ∀ r s s', Rely s s' → I s' → Q r s → Q r s')
    {m : Async S ε α} (hR : Rely s s') (hI : I s') (h : Keeps act C I Rely Guar Q m s) :
    Keeps act C I Rely Guar Q m s' := by
  cases m with
  | done r => exact hQ r s s' hR hI h
  | await op resume => exact fun t hR' => h t (IsTrans.trans _ _ _ hR hR')

theorem of_done {r : Except ε α} {m : Async S ε α} (hm : m = done r)
    (h : Keeps act C I Rely Guar Q m s) : Q r s := by
  subst hm
  exact h

end Keeps

end Keeps

section Pool

variable {ι : Type} [DecidableEq ι] {act : φ → (op : S.Op) → σ → Except ε (S.Answer op) × σ}
  {C : φ → S.Op → σ → Prop} {I : σ → Prop} {Rely Guar : ι → σ → σ → Prop}
  [∀ i, Std.Refl (Rely i)] [∀ i, IsTrans σ (Rely i)] {Q : ι → Except ε α → σ → Prop}

/-- **One turn**: the others rely on what the method guarantees. -/
theorem Pool.step_keeps (hothers : ∀ i j s s', i ≠ j → Guar i s s' → Rely j s s')
    (hQ : ∀ i r s s', Rely i s s' → I s' → Q i r s → Q i r s') {pool : Pool S ε α ι σ}
    {turn : ι × φ} (hI : I pool.store)
    (hkeeps : ∀ i, Keeps act C I (Rely i) (Guar i) (Q i) (pool.method i) pool.store)
    (hC : pool.MeetsTurn C turn) :
    I (pool.step act turn).store ∧
      ∀ i, Keeps act C I (Rely i) (Guar i) (Q i) ((pool.step act turn).method i)
        (pool.step act turn).store := by
  cases hm : pool.method turn.1 with
  | done r =>
    have hstep : pool.step act turn = pool := by
      rw [Pool.step, hm]
    rw [hstep]
    exact ⟨hI, hkeeps⟩
  | await op resume =>
    have hturn := hkeeps turn.1
    rw [hm] at hturn
    obtain ⟨hI', hG', hrest⟩ :=
      hturn pool.store (Std.Refl.refl _) hI turn.2 (hC op resume hm)
    have hstep : pool.step act turn = {
        store := (act turn.2 op pool.store).2
        method := Function.update pool.method turn.1 (resume (act turn.2 op pool.store).1) } := by
      rw [Pool.step, hm]
    rw [hstep]
    refine ⟨hI', fun i => ?_⟩
    by_cases hi : i = turn.1
    · subst hi
      simp only [Function.update_self]
      exact hrest
    · simp only [Function.update_of_ne hi]
      exact (hkeeps i).mono (hQ i) (hothers _ _ _ _ (Ne.symm hi) hG') hI'

/-- **A run** of methods that guarantee what the others rely on. -/
theorem Pool.run_keeps (hothers : ∀ i j s s', i ≠ j → Guar i s s' → Rely j s s')
    (hQ : ∀ i r s s', Rely i s s' → I s' → Q i r s → Q i r s') :
    ∀ (schedule : List (ι × φ)) {pool : Pool S ε α ι σ}, I pool.store →
    (∀ i, Keeps act C I (Rely i) (Guar i) (Q i) (pool.method i) pool.store) →
    pool.Meets act C schedule →
    I (pool.run act schedule).store ∧
      ∀ i, Keeps act C I (Rely i) (Guar i) (Q i) ((pool.run act schedule).method i)
        (pool.run act schedule).store := by
  intro schedule
  induction schedule with
  | nil => exact fun hI hkeeps _ => ⟨hI, hkeeps⟩
  | cons turn schedule ih =>
    rintro pool hI hkeeps ⟨hturn, hrest⟩
    obtain ⟨hI', hkeeps'⟩ := Pool.step_keeps hothers hQ hI hkeeps hturn
    exact ih hI' hkeeps' hrest

/-- **Where a run takes the store**: along any preorder that the guarantees lie in. -/
theorem Pool.run_moves {R : σ → σ → Prop} [Std.Refl R] [IsTrans σ R]
    (hothers : ∀ i j s s', i ≠ j → Guar i s s' → Rely j s s')
    (hQ : ∀ i r s s', Rely i s s' → I s' → Q i r s → Q i r s')
    (hguar : ∀ i s s', Guar i s s' → R s s') :
    ∀ (schedule : List (ι × φ)) {pool : Pool S ε α ι σ}, I pool.store →
    (∀ i, Keeps act C I (Rely i) (Guar i) (Q i) (pool.method i) pool.store) →
    pool.Meets act C schedule → R pool.store (pool.run act schedule).store := by
  intro schedule
  induction schedule with
  | nil => exact fun _ _ _ => Std.Refl.refl _
  | cons turn schedule ih =>
    rintro pool hI hkeeps ⟨hturn, hrest⟩
    obtain ⟨hI', hkeeps'⟩ := Pool.step_keeps hothers hQ hI hkeeps hturn
    refine IsTrans.trans _ _ _ ?_ (ih hI' hkeeps' hrest)
    show R pool.store (pool.step act turn).store
    cases hm : pool.method turn.1 with
    | done r =>
      rw [Pool.step, hm]
      exact Std.Refl.refl _
    | await op resume =>
      have hkeep := hkeeps turn.1
      rw [hm] at hkeep
      rw [Pool.step, hm]
      exact hguar _ _ _ (hkeep pool.store (Std.Refl.refl _) hI turn.2 (hturn op resume hm)).2.1

omit [∀ i, Std.Refl (Rely i)] [∀ i, IsTrans σ (Rely i)] in
theorem Pool.run_append (pool : Pool S ε α ι σ) (schedule schedule' : List (ι × φ)) :
    pool.run act (schedule ++ schedule') = (pool.run act schedule).run act schedule' := by
  rw [Pool.run, Pool.run, Pool.run, List.foldl_append]

omit [∀ i, Std.Refl (Rely i)] [∀ i, IsTrans σ (Rely i)] in
theorem Pool.meets_of_forall (h : ∀ f op s, C f op s) :
    ∀ (schedule : List (ι × φ)) (pool : Pool S ε α ι σ), pool.Meets act C schedule
  | [], _ => trivial
  | turn :: schedule, pool =>
    ⟨fun op _ _ => h turn.2 op pool.store, Pool.meets_of_forall h schedule (pool.step act turn)⟩

end Pool

end Async
