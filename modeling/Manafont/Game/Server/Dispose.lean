import Manafont.Game.Server.LateAccept

/-!
# Disposing of the server without waiting

`Dispose` of `Manafont.Game.Server/ServerConnection.cs` and of its connections, beside the
events of the shutdown.  It does what `DisposeAsync` does in one stretch, so that nothing
comes between its enumerator and the list, and no connection leaves the list, as `_disposing`
is set (`disposeLoop_eq`).

What comes later is the same as before.  The accept loop goes on adding, and unless
`DisposeAsync` is called as well nobody disposes what it adds: behind a `Dispose` the list holds
exactly the connections that were accepted since, and of these only those are disposed that
have failed by themselves (`dispose_of_run`).
-/

namespace Manafont.Game.Server.Shutdown

namespace ServerConnection

/-- The `foreach` of `Dispose`, whose enumerator began with `version` and stands behind `index`
elements.  A pass that does not leave the loop moves on by one, so the length of the list and one
more are enough (`disposeLoop_eq`). -/
def disposeLoop (version : Nat) : Nat → Nat → ServerConnection → ServerConnection
  | 0, _, s => s
  | passes + 1, index, s =>
    if s.version ≠ version then
      { s with dispose := .ended (.error (.invalidOperation
          "Collection was modified; enumeration operation may not execute.")) }
    else
      match s.clients[index]? with
      | some client => disposeLoop version passes (index + 1) (s.close client)
      | none => { s with clients := [], version := s.version + 1, dispose := .ended (.ok ()) }

def disposeNow (s : ServerConnection) : ServerConnection :=
  disposeLoop s.version (s.clients.length + 1) 0 { s with disposing := true, listening := false }

end ServerConnection

inductive SyncEvent where
  | other (e : Event)
  | dispose

/-- One event.  A second call of either disposal is not followed. -/
def stepSync (disposeOnStop : Bool) (s : ServerConnection) : SyncEvent → Option ServerConnection
  | .other e => step disposeOnStop s e
  | .dispose =>
    match s.dispose with
    | .notCalled => some s.disposeNow
    | _ => none

/-! ### The loop -/

def cleared (s : ServerConnection) (clients : List Nat) : ServerConnection :=
  { s with
    clients := [], version := s.version + 1, dispose := .ended (.ok ())
    disposed := fun i => s.disposed i || decide (i ∈ clients) }

theorem cleared_cons (s : ServerConnection) (client : Nat) (rest : List Nat) :
    cleared { s with disposed := Function.update s.disposed client true } rest =
      cleared s (client :: rest) := by
  have hdisposed : (fun i => Function.update s.disposed client true i || decide (i ∈ rest)) =
      fun i => s.disposed i || decide (i ∈ client :: rest) := by
    funext i
    by_cases hi : i = client
    · subst hi
      simp
    · simp [hi]
  rw [cleared, cleared]
  exact congrArg (fun disposed => { s with
    clients := [], version := s.version + 1, dispose := .ended (.ok ()), disposed := disposed })
    hdisposed

/-- **The enumeration is not disturbed**, and comes to its end. -/
theorem disposeLoop_eq : ∀ (rest before : List Nat) (passes : Nat) {s : ServerConnection},
    s.disposing = true → s.clients = before ++ rest → rest.length < passes →
    ServerConnection.disposeLoop s.version passes before.length s = cleared s rest := by
  intro rest
  induction rest with
  | nil =>
    intro before passes s _ hclients hpasses
    obtain ⟨passes, rfl⟩ := Nat.exists_eq_succ_of_ne_zero (Nat.ne_of_gt hpasses)
    have hget : s.clients[before.length]? = none := by
      rw [hclients, List.append_nil, List.getElem?_eq_none (Nat.le_refl _)]
    rw [ServerConnection.disposeLoop, if_neg (fun h => h rfl), hget, cleared]
    simp
  | cons client rest ih =>
    intro before passes s hd hclients hpasses
    obtain ⟨passes, rfl⟩ := Nat.exists_eq_succ_of_ne_zero (Nat.ne_of_gt (Nat.zero_lt_of_lt hpasses))
    have hget : s.clients[before.length]? = some client := by
      rw [hclients, List.getElem?_append_right (Nat.le_refl _), Nat.sub_self]
      rfl
    have hrest := ih (before ++ [client]) passes
      (s := { s with disposed := Function.update s.disposed client true }) hd
      (by rw [List.append_assoc]; exact hclients) (Nat.lt_of_succ_lt_succ hpasses)
    rw [List.length_append] at hrest
    rw [ServerConnection.disposeLoop, if_neg (fun h => h rfl), hget, ← cleared_cons, ← hrest]
    show ServerConnection.disposeLoop s.version passes _ (s.close client) = _
    rw [close_of_disposing hd]
    rfl

theorem disposeNow_eq (s : ServerConnection) :
    s.disposeNow = cleared { s with disposing := true, listening := false } s.clients :=
  disposeLoop_eq s.clients [] _ (s := { s with disposing := true, listening := false }) rfl rfl
    (Nat.lt_succ_self _)

/-! ### Behind a `Dispose` -/

/-- `n` connections had been accepted when `Dispose` was called. -/
structure DisposedAt (n : Nat) (s : ServerConnection) : Prop where
  ended : s.dispose = .ended (.ok ())
  disposing : s.disposing = true
  le_added : n ≤ s.added
  clients : s.clients = List.range' n (s.added - n)
  before : ∀ i < n, s.disposed i = true
  since : ∀ i, n ≤ i → (s.disposed i = true ↔ s.handlers i = .disposed)
  new : ∀ i, s.added ≤ i → s.handlers i = .running

section Steps

variable {disposeOnStop : Bool} {n : Nat} {s s' : ServerConnection}

theorem DisposedAt.of_sameClients (h : DisposedAt n s) (hsame : SameClients s s') :
    DisposedAt n s' := by
  obtain ⟨_, _, _, rfl⟩ := hsame
  exact ⟨h.ended, h.disposing, h.le_added, h.clients, h.before, h.since, h.new⟩

theorem disposedAt_disposeNow (h : Listed s) (hd : s.disposing = false) :
    DisposedAt s.added s.disposeNow := by
  rw [disposeNow_eq]
  have hclients := h.clients hd
  refine ⟨rfl, rfl, Nat.le_refl _, ?_, fun i hi => ?_, fun i hi => ?_, h.new⟩
  · show [] = List.range' s.added (s.added - s.added)
    rw [Nat.sub_self]
    rfl
  · show (s.disposed i || decide (i ∈ s.clients)) = true
    by_cases hdone : s.handlers i = .disposed
    · rw [(h.disposed hd i).mpr hdone, Bool.true_or]
    · have hmem : i ∈ s.clients := by
        rw [hclients]
        exact List.mem_filter.mpr ⟨List.mem_range.mpr hi, decide_eq_true hdone⟩
      rw [decide_eq_true hmem, Bool.or_true]
  · show (s.disposed i || decide (i ∈ s.clients)) = true ↔ s.handlers i = .disposed
    have hmem : i ∉ s.clients := by
      rw [hclients]
      intro hmem
      exact absurd (List.mem_range.mp (List.mem_of_mem_filter hmem)) (Nat.not_lt.mpr hi)
    rw [decide_eq_false hmem, Bool.or_false]
    exact h.disposed hd i

theorem DisposedAt.add (h : DisposedAt n s) : DisposedAt n s.add := by
  refine ⟨h.ended, h.disposing, Nat.le_succ_of_le h.le_added, ?_, h.before, h.since,
    fun i hi => h.new i (Nat.le_of_succ_le hi)⟩
  show s.clients ++ [s.added] = List.range' n (s.added + 1 - n)
  have hle := h.le_added
  rw [h.clients, Nat.succ_sub hle, List.range'_1_concat, Nat.add_sub_cancel' hle]

theorem DisposedAt.fails (h : DisposedAt n s) {i : Nat} (hi : i < s.added)
    (hrunning : s.handlers i = .running) :
    DisposedAt n { s with handlers := Function.update s.handlers i .disposing } := by
  exact ⟨h.ended, h.disposing, h.le_added, h.clients, h.before,
    fun j hj => (h.since j hj).trans (update_disposing_iff hrunning).symm,
    fun _ hj => update_of_new h.new hi .disposing hj⟩

theorem DisposedAt.closes (h : DisposedAt n s) {i : Nat} (hi : s.handlers i = .disposing) :
    DisposedAt n ({ s with handlers := Function.update s.handlers i .disposed }.close i) := by
  rw [close_of_disposing (s := { s with handlers := Function.update s.handlers i .disposed })
    h.disposing]
  exact ⟨h.ended, h.disposing, h.le_added, h.clients, fun j hj => update_disposed (h.before j hj),
    fun j hj => update_disposed_iff (h.since j hj),
    fun _ hj => update_of_new h.new (lt_of_disposing h.new hi) .disposed hj⟩

theorem disposedAt_step {e : SyncEvent} (h : DisposedAt n s)
    (hs : stepSync disposeOnStop s e = some s') : DisposedAt n s' := by
  have hended := h.ended
  cases e with
  | dispose =>
    rw [stepSync, hended] at hs
    cases hs
  | other e =>
    cases exists_change hs with
    | keeps _ hsame => exact h.of_sameClients hsame
    | adds _ hsame => exact h.add.of_sameClients hsame
    | fails _ i hi hrunning hsame => exact (h.fails hi hrunning).of_sameClients hsame
    | closes _ i hi hsame => exact (h.closes hi).of_sameClients hsame
    | addsAndDisposes _ hd _ =>
      rw [hended] at hd
      cases hd
    | disposes _ hd _ =>
      rw [hended] at hd
      cases hd
    | resumes _ index version client hd _ =>
      rw [hended] at hd
      cases hd

theorem listed_stepSync {e : SyncEvent} (h : Numbered s s.dispose ∧ Listed s)
    (hs : stepSync disposeOnStop s e = some s') : Numbered s' s'.dispose ∧ Listed s' := by
  cases e with
  | other e => exact ⟨numbered_step h.1 hs, listed_step h.1 h.2 hs⟩
  | dispose =>
    rw [stepSync] at hs
    split at hs
    · cases hs
      rw [disposeNow_eq]
      exact ⟨rfl, .of_disposing rfl h.2.new⟩
    · cases hs

end Steps

/-- **Behind a `Dispose`**, in every run of a server that does not dispose itself and without a
call of `DisposeAsync`: it has come to its end, every connection accepted before is disposed, and
the list holds exactly those accepted since, which nobody disposes of but their own failed
handshakes. -/
theorem dispose_of_run (before after : List SyncEvent) (t s : ServerConnection)
    (hbefore : Machine.run (stepSync false) .new before = some t)
    (hafter : Machine.run (stepSync false) t (.dispose :: after) = some s) :
    s.dispose = .ended (.ok ()) ∧ (∀ i < t.added, s.disposed i = true) ∧
      s.clients = List.range' t.added (s.added - t.added) ∧
      ∀ i ∈ s.clients, s.disposed i = true ↔ s.handlers i = .disposed := by
  have hkept : Numbered t t.dispose ∧ Listed t :=
    Machine.run_invariant (fun _ _ _ h _ hs => listed_stepSync h hs) before listed_new
      (Machine.along_of_forall (fun _ _ => trivial) _ _) hbefore
  obtain ⟨u, hu, hrun⟩ := Machine.run_cons_eq_some.mp hafter
  have hdisposed : DisposedAt t.added u := by
    rw [stepSync] at hu
    split at hu
    · rename_i hd
      cases hu
      have hphase := hkept.1
      rw [hd] at hphase
      exact disposedAt_disposeNow hkept.2 hphase
    · cases hu
  have hend : DisposedAt t.added s :=
    Machine.run_invariant (fun _ _ _ h _ hs => disposedAt_step h hs) after hdisposed
      (Machine.along_of_forall (fun _ _ => trivial) _ _) hrun
  refine ⟨hend.ended, hend.before, hend.clients, fun i hi => hend.since i ?_⟩
  rw [hend.clients] at hi
  exact (List.mem_range'_1.mp hi).1

/-- Two connections are accepted, the second of them behind a `Dispose`. -/
theorem accepted_since : ∃ t s, Machine.run (stepSync false) .new
      ([.runCalled, .acceptCompletes, .acceptResumes, .acceptCompletes].map .other) = some t ∧
    Machine.run (stepSync false) t [.dispose, .other .acceptResumes] = some s ∧
    s.dispose = .ended (.ok ()) ∧ (∀ i < t.added, s.disposed i = true) ∧
      s.clients = List.range' t.added (s.added - t.added) ∧
      ∀ i ∈ s.clients, s.disposed i = true ↔ s.handlers i = .disposed :=
  ⟨_, _, rfl, rfl, dispose_of_run
    ([.runCalled, .acceptCompletes, .acceptResumes, .acceptCompletes].map .other)
    [.other .acceptResumes] _ _ rfl rfl⟩

end Manafont.Game.Server.Shutdown
