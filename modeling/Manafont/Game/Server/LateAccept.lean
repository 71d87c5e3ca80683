import Manafont.Game.Server.Shutdown

/-!
# The clients of a server, and what a late accept leaves

What an event does to the list `_clients`, to the connections and to `DisposeAsync` is said
once (`Change`, `exists_change`): it adds a connection, a handshake fails, a connection
disposes itself, `DisposeAsync` begins or goes on.

* Until `DisposeAsync` is called the list holds exactly the connections that have not disposed
  themselves, in the order they were accepted (`clients_of_run`).
* A run in which an accept resumes the loop after that never ends well: once `DisposeAsync` has
  ended the enumeration has thrown, or the list is not empty (`ends_well_iff`).
-/

namespace Manafont.Game.Server.Shutdown

/-! ### One event -/

/-- The two differ at most in what the accept loop and the listener do. -/
def SameClients (s s' : ServerConnection) : Prop :=
  ∃ run stop listening, s' = { s with run := run, stop := stop, listening := listening }

/-- What an event does to the connections of a server, and to `DisposeAsync`. -/
inductive Change (s : ServerConnection) (e : Event) (s' : ServerConnection) : Prop
  | keeps (he : e ≠ .acceptResumes) (h : SameClients s s')
  | adds (he : e = .acceptResumes) (h : SameClients s.add s')
  | addsAndDisposes (he : e = .acceptResumes) (hd : s.dispose = .notCalled)
      (h : SameClients s.add.disposeAsync s')
  | fails (he : e ≠ .acceptResumes) (i : Nat) (hi : i < s.added)
      (hrunning : s.handlers i = .running)
      (h : SameClients { s with handlers := Function.update s.handlers i .disposing } s')
  | closes (he : e ≠ .acceptResumes) (i : Nat) (hi : s.handlers i = .disposing)
      (h : SameClients
        ({ s with handlers := Function.update s.handlers i .disposed }.close i) s')
  | disposes (he : e ≠ .acceptResumes) (hd : s.dispose = .notCalled)
      (h : SameClients s.disposeAsync s')
  | resumes (he : e ≠ .acceptResumes) (index version client : Nat)
      (hd : s.dispose = .awaiting index version client)
      (h : SameClients ((s.close client).moveNext index version) s')

section Change

variable {disposeOnStop : Bool} {s s' : ServerConnection} {e : Event}

theorem SameClients.refl (s : ServerConnection) : SameClients s s :=
  ⟨s.run, s.stop, s.listening, rfl⟩

theorem loop_cases (h : s.loop disposeOnStop = some s') : SameClients s s' ∨
    s.dispose = .notCalled ∧ SameClients s.disposeAsync s' := by
  rw [ServerConnection.loop] at h
  split at h
  · rw [ServerConnection.endLoop] at h
    split at h
    · split at h
      · rename_i hdispose
        cases h
        refine .inr ⟨hdispose, ?_⟩
        -- where the run of the loop stands is not looked at
        rw [ServerConnection.disposeAsync, ServerConnection.disposeAsync,
          ServerConnection.moveNext, ServerConnection.moveNext, if_neg (fun h => h rfl),
          if_neg (fun h => h rfl)]
        dsimp only
        cases s.clients[0]? with
        | some client => exact ⟨_, _, _, rfl⟩
        | none => exact ⟨_, _, _, rfl⟩
      · cases h
    · cases h
      exact .inl ⟨_, _, _, rfl⟩
  · split at h
    · cases h
      exact .inl ⟨_, _, _, rfl⟩
    · cases h
      exact .inl ⟨_, _, _, rfl⟩

/-- **Every event is one of these changes.** -/
theorem exists_change (h : step disposeOnStop s e = some s') : Change s e s' := by
  cases e with
  | runCalled =>
    rw [step] at h
    split at h
    · rcases loop_cases h with hsame | ⟨hdispose, hsame⟩
      · obtain ⟨_, _, _, rfl⟩ := hsame
        exact .keeps (by decide) ⟨_, _, _, rfl⟩
      · exact .disposes (by decide) hdispose hsame
    · cases h
  | stop =>
    cases h
    exact .keeps (by decide) ⟨_, _, _, rfl⟩
  | acceptCompletes =>
    rw [step] at h
    split at h
    · cases h
      exact .keeps (by decide) ⟨_, _, _, rfl⟩
    · cases h
  | acceptFails =>
    rw [step] at h
    split at h
    · cases h
      exact .keeps (by decide) ⟨_, _, _, rfl⟩
    · cases h
  | acceptResumes =>
    rw [step] at h
    split at h
    · rcases loop_cases h with hsame | ⟨hdispose, hsame⟩
      · exact .adds rfl hsame
      · exact .addsAndDisposes rfl hdispose hsame
    · cases h
  | clientFails i =>
    rw [step] at h
    split at h
    · rename_i hi
      cases h
      exact .fails (by simp) i hi.1 hi.2 (.refl _)
    · cases h
  | clientResumes i =>
    rw [step] at h
    split at h
    · rename_i hi
      cases h
      exact .closes (by simp) i hi (.refl _)
    · cases h
  | disposeCalled =>
    rw [step] at h
    split at h
    · rename_i hdispose
      cases h
      exact .disposes (by decide) hdispose (.refl _)
    · cases h
  | disposeResumes =>
    rw [step] at h
    split at h
    · rename_i index version client hdispose
      cases h
      exact .resumes (by decide) index version client hdispose (.refl _)
    · cases h

theorem moveNext_cases (s : ServerConnection) (index version : Nat) :
    (s.version ≠ version ∧ ∃ e,
      s.moveNext index version = { s with dispose := .ended (.error e) }) ∨
    (s.version = version ∧ ∃ client, s.clients[index]? = some client ∧
      s.moveNext index version = { s with dispose := .awaiting (index + 1) version client }) ∨
    (s.version = version ∧ s.clients[index]? = none ∧ s.moveNext index version =
      { s with clients := [], version := s.version + 1, dispose := .ended (.ok ()) }) := by
  by_cases hversion : s.version = version
  · cases hget : s.clients[index]? with
    | some client =>
      refine .inr (.inl ⟨hversion, client, rfl, ?_⟩)
      rw [ServerConnection.moveNext, if_neg (fun hne => hne hversion), hget]
    | none =>
      refine .inr (.inr ⟨hversion, rfl, ?_⟩)
      rw [ServerConnection.moveNext, if_neg (fun hne => hne hversion), hget]
  · exact .inl ⟨hversion, _, by rw [ServerConnection.moveNext, if_pos hversion]⟩

end Change

/-! ### The enumerator and its list -/

/-- Where `DisposeAsync` stands: `_disposing` is set from its call on, and the version its
enumerator began with is not ahead of the list. -/
def Numbered (s : ServerConnection) : DisposePhase → Prop
  | .notCalled => s.disposing = false
  | .awaiting _ version _ => s.disposing = true ∧ version ≤ s.version
  | .ended _ => s.disposing = true

section Numbered

variable {disposeOnStop : Bool} {s s' : ServerConnection} {e : Event}

theorem moveNext_frame (s : ServerConnection) (index version : Nat) :
    (s.moveNext index version).disposing = s.disposing ∧
      (s.moveNext index version).added = s.added ∧
      (s.moveNext index version).handlers = s.handlers := by
  rcases moveNext_cases s index version with ⟨-, _, hm⟩ | ⟨-, _, -, hm⟩ | ⟨-, -, hm⟩ <;>
    rw [hm] <;> exact ⟨rfl, rfl, rfl⟩

theorem numbered_moveNext (hd : s.disposing = true) (index version : Nat) :
    Numbered (s.moveNext index version) (s.moveNext index version).dispose := by
  rcases moveNext_cases s index version with ⟨-, _, hm⟩ | ⟨hversion, _, -, hm⟩ | ⟨-, -, hm⟩
  · rw [hm]
    exact hd
  · rw [hm]
    exact ⟨hd, Nat.le_of_eq hversion.symm⟩
  · rw [hm]
    exact hd

theorem Numbered.mono (h : Numbered s s.dispose) (hdisposing : s'.disposing = s.disposing)
    (hversion : s.version ≤ s'.version) (hdispose : s'.dispose = s.dispose) :
    Numbered s' s'.dispose := by
  rw [hdispose]
  cases hphase : s.dispose with
  | notCalled =>
    rw [hphase] at h
    exact hdisposing.trans h
  | awaiting index version client =>
    rw [hphase] at h
    exact ⟨hdisposing.trans h.1, Nat.le_trans h.2 hversion⟩
  | ended result =>
    rw [hphase] at h
    exact hdisposing.trans h

theorem Numbered.disposing (h : Numbered s s.dispose) {index version client : Nat}
    (hd : s.dispose = .awaiting index version client) : s.disposing = true := by
  rw [hd] at h
  exact h.1

theorem numbered_close (h : Numbered s s.dispose) (i : Nat) :
    Numbered (s.close i) (s.close i).dispose := by
  rcases Bool.eq_false_or_eq_true s.disposing with hd | hd
  · rw [close_of_disposing hd]
    exact Numbered.mono h rfl (Nat.le_refl _) rfl
  · have hphase : s.dispose = .notCalled := by
      cases hphase : s.dispose with
      | notCalled => rfl
      | awaiting index version client =>
        rw [h.disposing hphase] at hd
        cases hd
      | ended result =>
        rw [hphase] at h
        rw [show s.disposing = true from h] at hd
        cases hd
    obtain ⟨version, hclose⟩ := close_of_not_disposing hd i
    rw [hclose]
    show Numbered _ s.dispose
    rw [hphase]
    exact hd

theorem numbered_step (h : Numbered s s.dispose) (hs : step disposeOnStop s e = some s') :
    Numbered s' s'.dispose := by
  have hdispose : ∀ t : ServerConnection, Numbered t.disposeAsync t.disposeAsync.dispose :=
    fun t =>
      numbered_moveNext (s := { t with disposing := true, listening := false }) rfl 0 t.version
  have hsame : ∀ {t t' : ServerConnection}, SameClients t t' → Numbered t t.dispose →
      Numbered t' t'.dispose := by
    rintro t t' ⟨_, _, _, rfl⟩ ht
    exact ht.mono rfl (Nat.le_refl _) rfl
  cases exists_change hs with
  | keeps _ hs' => exact hsame hs' h
  | adds _ hs' => exact hsame hs' (h.mono rfl (Nat.le_succ _) rfl)
  | addsAndDisposes _ _ hs' => exact hsame hs' (hdispose _)
  | fails _ i _ _ hs' => exact hsame hs' (h.mono rfl (Nat.le_refl _) rfl)
  | closes _ i _ hs' =>
    exact hsame hs' (numbered_close
      (s := { s with handlers := Function.update s.handlers i .disposed })
      (h.mono rfl (Nat.le_refl _) rfl) i)
  | disposes _ _ hs' => exact hsame hs' (hdispose _)
  | resumes _ index version client hd hs' =>
    refine hsame hs' (numbered_moveNext ?_ _ _)
    rw [close_of_disposing (h.disposing hd)]
    exact h.disposing hd

end Numbered

/-! ### The list before the disposal -/

/-- Until `DisposeAsync` is called the list holds the connections that have not disposed
themselves. -/
structure Listed (s : ServerConnection) : Prop where
  new : ∀ i, s.added ≤ i → s.handlers i = .running
  clients : s.disposing = false →
    s.clients = (List.range s.added).filter fun i => s.handlers i ≠ .disposed
  disposed : s.disposing = false → ∀ i, s.disposed i = true ↔ s.handlers i = .disposed

section Handlers

variable {handlers : Nat → Handler} {disposed : Nat → Bool} {n i j : Nat}

theorem lt_of_disposing (hnew : ∀ j, n ≤ j → handlers j = .running)
    (hi : handlers i = .disposing) : i < n := by
  by_contra hge
  rw [hnew i (Nat.le_of_not_lt hge)] at hi
  cases hi

theorem update_of_new (hnew : ∀ j, n ≤ j → handlers j = .running) (hi : i < n)
    (handler : Handler) (hj : n ≤ j) : Function.update handlers i handler j = .running := by
  have hne : j ≠ i := by
    rintro rfl
    exact absurd hi (Nat.not_lt.mpr hj)
  rw [Function.update_of_ne hne]
  exact hnew j hj

theorem update_disposing_iff (hi : handlers i = .running) :
    Function.update handlers i .disposing j = .disposed ↔ handlers j = .disposed := by
  by_cases hj : j = i
  · subst hj
    rw [Function.update_self, hi]
    simp
  · rw [Function.update_of_ne hj]

theorem update_disposed_iff (h : disposed j = true ↔ handlers j = .disposed) :
    Function.update disposed i true j = true ↔
      Function.update handlers i .disposed j = .disposed := by
  by_cases hj : j = i
  · subst hj
    simp
  · rw [Function.update_of_ne hj, Function.update_of_ne hj]
    exact h

end Handlers

section Listed

variable {disposeOnStop : Bool} {s s' : ServerConnection} {e : Event}

theorem Listed.of_sameClients (h : Listed s) (hsame : SameClients s s') : Listed s' := by
  obtain ⟨_, _, _, rfl⟩ := hsame
  exact ⟨h.new, h.clients, h.disposed⟩

theorem Listed.of_disposing (h : s.disposing = true)
    (hnew : ∀ i, s.added ≤ i → s.handlers i = .running) : Listed s :=
  ⟨hnew, fun hd => absurd (h.symm.trans hd) (by decide),
    fun hd => absurd (h.symm.trans hd) (by decide)⟩

theorem Listed.moveNext (h : Listed s) (hd : s.disposing = true) (index version : Nat) :
    Listed (s.moveNext index version) := by
  obtain ⟨hdisposing, hadded, hhandlers⟩ := moveNext_frame s index version
  refine .of_disposing (hdisposing.trans hd) ?_
  rw [hadded, hhandlers]
  exact h.new

theorem Listed.disposeAsync (h : Listed s) : Listed s.disposeAsync :=
  Listed.moveNext (s := { s with disposing := true, listening := false })
    (.of_disposing rfl h.new) rfl 0 s.version

theorem Listed.add (h : Listed s) : Listed s.add := by
  refine ⟨fun i hi => h.new i (Nat.le_of_succ_le hi), fun hd => ?_, h.disposed⟩
  show s.clients ++ [s.added] = (List.range (s.added + 1)).filter _
  have hnew : s.handlers s.added ≠ .disposed := by
    rw [h.new s.added (Nat.le_refl _)]
    decide
  have hone : [s.added].filter (fun i => s.handlers i ≠ .disposed) = [s.added] :=
    List.filter_cons_of_pos (decide_eq_true hnew)
  rw [h.clients hd, List.range_succ, List.filter_append]
  exact congrArg _ hone.symm

theorem Listed.fails (h : Listed s) {i : Nat} (hi : i < s.added)
    (hrunning : s.handlers i = .running) :
    Listed { s with handlers := Function.update s.handlers i .disposing } := by
  refine ⟨fun _ hj => update_of_new h.new hi .disposing hj, fun hd => ?_,
    fun hd j => (h.disposed hd j).trans (update_disposing_iff hrunning).symm⟩
  show s.clients = _
  rw [h.clients hd]
  refine List.filter_congr fun j _ => ?_
  exact decide_eq_decide.mpr (not_congr (update_disposing_iff hrunning).symm)

theorem erase_listed (handlers : Nat → Handler) (n i : Nat) :
    ((List.range n).filter fun j => handlers j ≠ .disposed).erase i =
      (List.range n).filter fun j => Function.update handlers i .disposed j ≠ .disposed := by
  rw [List.Nodup.erase_eq_filter (List.nodup_range.filter _), List.filter_filter]
  refine List.filter_congr fun j _ => ?_
  by_cases hj : j = i
  · simp [hj]
  · simp [hj]

theorem Listed.closes (h : Listed s) {i : Nat} (hi : s.handlers i = .disposing) :
    Listed ({ s with handlers := Function.update s.handlers i .disposed }.close i) := by
  have hnew : ∀ j, s.added ≤ j → Function.update s.handlers i Handler.disposed j = .running :=
    fun _ hj => update_of_new h.new (lt_of_disposing h.new hi) .disposed hj
  rcases Bool.eq_false_or_eq_true s.disposing with hd | hd
  · rw [close_of_disposing (s := { s with handlers := Function.update s.handlers i .disposed }) hd]
    exact .of_disposing hd hnew
  · obtain ⟨version, hclose⟩ := close_of_not_disposing
      (s := { s with handlers := Function.update s.handlers i .disposed }) hd i
    rw [hclose]
    refine ⟨hnew, fun _ => ?_, fun _ j => update_disposed_iff (h.disposed hd j)⟩
    show s.clients.erase i = _
    rw [h.clients hd]
    exact erase_listed s.handlers s.added i

theorem listed_step (hnumbered : Numbered s s.dispose) (h : Listed s)
    (hs : step disposeOnStop s e = some s') :
    Listed s' := by
  cases exists_change hs with
  | keeps _ hsame => exact h.of_sameClients hsame
  | adds _ hsame => exact h.add.of_sameClients hsame
  | addsAndDisposes _ _ hsame => exact h.add.disposeAsync.of_sameClients hsame
  | fails _ i hi hrunning hsame => exact (h.fails hi hrunning).of_sameClients hsame
  | closes _ i hi hsame => exact (h.closes hi).of_sameClients hsame
  | disposes _ _ hsame => exact h.disposeAsync.of_sameClients hsame
  | resumes _ index version client hd hsame =>
    have hdisposing := hnumbered.disposing hd
    refine Listed.of_sameClients (Listed.moveNext ?_ ?_ _ _) hsame
    · rw [close_of_disposing hdisposing]
      exact .of_disposing hdisposing h.new
    · rw [close_of_disposing hdisposing]
      exact hdisposing

theorem listed_new : Numbered .new ServerConnection.new.dispose ∧ Listed .new :=
  ⟨rfl, fun _ _ => rfl, fun _ => rfl, fun _ i => by simp [ServerConnection.new]⟩

end Listed

/-- **Until `DisposeAsync` is called** `_clients` is exactly the connections that have not disposed
themselves, in the order they were accepted, and exactly the others are disposed. -/
theorem clients_of_run (disposeOnStop : Bool) (es : List Event) (s : ServerConnection)
    (hreach : Machine.Reaches (step disposeOnStop) .new es s) (hdisposing : s.disposing = false) :
    s.clients = ((List.range s.added).filter fun i => s.handlers i ≠ .disposed) ∧
      ∀ i, s.disposed i = true ↔ s.handlers i = .disposed := by
  have hstep : ∀ t e t', (Numbered t t.dispose ∧ Listed t) → True →
      step disposeOnStop t e = some t' → Numbered t' t'.dispose ∧ Listed t' :=
    fun _ _ _ h _ hs => ⟨numbered_step h.1 hs, listed_step h.1 h.2 hs⟩
  obtain ⟨-, hlisted⟩ := Machine.reaches_invariant hstep listed_new
    (Machine.along_of_forall (fun _ _ => trivial) _ _) hreach
  exact ⟨hlisted.clients hdisposing, hlisted.disposed hdisposing⟩

/-- The theorem on the run in which the first of two connections fails. -/
theorem orderly_clients : ∃ s, Machine.run (step false) .new (orderly.take 7) = some s ∧
    s.clients = ((List.range s.added).filter fun i => s.handlers i ≠ .disposed) ∧
    ∀ i, s.disposed i = true ↔ s.handlers i = .disposed :=
  ⟨_, rfl, clients_of_run false orderly _ ⟨7, rfl⟩ rfl⟩

/-! ### A late accept -/

/-- The list has been added to behind the call of `DisposeAsync`: the enumeration will find it
changed, or it is over and the list is not empty. -/
structure Disturbed (s : ServerConnection) : Prop where
  clients : s.clients ≠ []
  phase : match s.dispose with
    | .notCalled => False
    | .awaiting _ version _ => version < s.version
    | .ended _ => True

section Disturbed

variable {disposeOnStop : Bool} {s s' : ServerConnection} {e : Event}

theorem Disturbed.of_sameClients (h : Disturbed s) (hsame : SameClients s s') : Disturbed s' := by
  obtain ⟨_, _, _, rfl⟩ := hsame
  exact ⟨h.clients, h.phase⟩

theorem Disturbed.called (h : Disturbed s) : s.dispose ≠ .notCalled := by
  intro hd
  have hphase := h.phase
  rw [hd] at hphase
  exact hphase

/-- Whatever is added to the list behind the call disturbs it. -/
theorem disturbed_add (h : Numbered s s.dispose) (hdisposing : s.disposing = true) :
    Disturbed s.add := by
  refine ⟨by simp [ServerConnection.add], ?_⟩
  show match s.dispose with
    | .notCalled => False
    | .awaiting _ version _ => version < s.version + 1
    | .ended _ => True
  cases hd : s.dispose with
  | notCalled =>
    rw [hd] at h
    rw [show s.disposing = false from h] at hdisposing
    cases hdisposing
  | awaiting index version client =>
    rw [hd] at h
    exact Nat.lt_succ_of_le h.2
  | ended result => trivial

/-- **A late accept disturbs the list.** -/
theorem disturbed_of_late (h : Numbered s s.dispose) (hlate : ¬ NoLateAccept s e)
    (hs : step disposeOnStop s e = some s') : Disturbed s' := by
  obtain ⟨rfl, hd⟩ := Classical.not_imp.mp hlate
  have hdisposing : s.disposing = true := Bool.eq_true_of_not_eq_false hd
  cases exists_change hs with
  | adds _ hsame => exact (disturbed_add h hdisposing).of_sameClients hsame
  | addsAndDisposes _ hnot _ =>
    rw [hnot] at h
    exact absurd h hd
  | keeps he _ => exact absurd rfl he
  | fails he => exact absurd rfl he
  | closes he => exact absurd rfl he
  | disposes he => exact absurd rfl he
  | resumes he => exact absurd rfl he

theorem disturbed_step (hnumbered : Numbered s s.dispose) (h : Disturbed s)
    (hs : step disposeOnStop s e = some s') : Disturbed s' := by
  have hdisposing : s.disposing = true := by
    have hcalled := h.called
    cases hd : s.dispose with
    | notCalled => exact absurd hd hcalled
    | awaiting index version client => exact hnumbered.disposing hd
    | ended result =>
      rw [hd] at hnumbered
      exact hnumbered
  cases exists_change hs with
  | keeps _ hsame => exact h.of_sameClients hsame
  | adds _ hsame => exact (disturbed_add hnumbered hdisposing).of_sameClients hsame
  | addsAndDisposes _ hnot _ => exact absurd hnot h.called
  | fails _ i _ _ hsame =>
    obtain ⟨_, _, _, rfl⟩ := hsame
    exact ⟨h.clients, h.phase⟩
  | closes _ i _ hsame =>
    rw [close_of_disposing (s := { s with handlers := Function.update s.handlers i .disposed })
      hdisposing] at hsame
    obtain ⟨_, _, _, rfl⟩ := hsame
    exact ⟨h.clients, h.phase⟩
  | disposes _ hnot _ => exact absurd hnot h.called
  | resumes _ index version client hd hsame =>
    have hlt : version < s.version := by
      have hphase := h.phase
      rw [hd] at hphase
      exact hphase
    refine Disturbed.of_sameClients ?_ hsame
    rw [close_of_disposing hdisposing]
    rcases moveNext_cases { s with disposed := Function.update s.disposed client true }
      index version with ⟨-, _, hm⟩ | ⟨hversion, -⟩ | ⟨hversion, -⟩
    · rw [hm]
      exact ⟨h.clients, trivial⟩
    · exact absurd hversion (Nat.ne_of_gt hlt)
    · exact absurd hversion (Nat.ne_of_gt hlt)

end Disturbed

/-- **A shutdown ends well exactly when no accept was late**: once `DisposeAsync` has ended, the
enumeration has come to its end and the list is empty if and only if no accept has resumed the
loop behind the call. -/
theorem ends_well_iff (disposeOnStop : Bool) (es : List Event) (s : ServerConnection)
    (hrun : Machine.run (step disposeOnStop) .new es = some s)
    (hdispose : ∃ result, s.dispose = .ended result) :
    (s.dispose = .ended (.ok ()) ∧ s.clients = []) ↔
      Machine.Along (step disposeOnStop) NoLateAccept .new es := by
  constructor
  · rintro ⟨-, hclients⟩
    by_contra hlate
    have hdisturbed : Disturbed s := Machine.run_breach (I := fun t => Numbered t t.dispose)
      (fun _ _ _ h hs => numbered_step h hs)
      (fun _ _ _ h hlate hs => disturbed_of_late h hlate hs)
      (fun _ _ _ h hJ hs => disturbed_step h hJ hs) es (s := .new) rfl hlate hrun
    exact hdisturbed.clients hclients
  · intro halong
    have hkept : Kept s := Machine.run_invariant (fun _ _ _ hI hC hs => kept_step hI hC hs) es
      kept_new halong hrun
    obtain ⟨result, hresult⟩ := hdispose
    have henum := hkept.enumerates
    rw [hresult] at henum
    cases result with
    | error e => exact henum.elim
    | ok u => exact ⟨hresult, henum.2⟩

/-- The theorem on the run that is orderly. -/
theorem orderly_ends_well : ∃ s, Machine.run (step false) .new orderly = some s ∧
    ((s.dispose = .ended (.ok ()) ∧ s.clients = []) ↔
      Machine.Along (step false) NoLateAccept .new orderly) :=
  ⟨_, rfl, ends_well_iff false orderly _ rfl ⟨.ok (), rfl⟩⟩

end Manafont.Game.Server.Shutdown
