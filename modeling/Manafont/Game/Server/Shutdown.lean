import Manafont.Library.Machine
import Manafont.Game.Server.ServerConnection

/-!
# Shutting the server down

`RunAsync` and `DisposeAsync` of `Manafont.Game.Server/ServerConnection.cs` and the
`DisposeAsync` of its connections, each stretch between two awaits as one event.  Three
kinds of actors share the list `_clients`: the accept loop adds to it, a connection whose
handshake has failed removes itself, and `DisposeAsync` goes through it with `foreach`,
which throws when the list has been changed since it began.

Once `_disposing` is set no connection removes itself, but the accept loop still adds: an
accept that was completed before the listener was stopped resumes the loop.  As long as none
does so after `DisposeAsync` was called (`NoLateAccept`), the enumeration finds the list as it
was and in the end every connection is disposed (`shutdown_of_run`).  One that does so during
the enumeration breaks it, and one after it is never disposed (`late_accepts`).
-/

namespace Manafont.Game.Server.Shutdown

inductive RunPhase where
  | notCalled
  /-- It awaits `AcceptTcpClientAsync`. -/
  | accepting
  /-- The accept has completed, and the loop has not gone on. -/
  | accepted
  | ended
  deriving DecidableEq, Repr

inductive DisposePhase where
  | notCalled
  /-- It awaits `client.DisposeAsync()`.  Its enumerator began with a `version` of the list and
  stands behind `index` elements. -/
  | awaiting (index version client : Nat)
  | ended (result : Except Exn Unit)

inductive Handler where
  | running
  /-- The handshake has failed, and it awaits the disposal of its stream. -/
  | disposing
  | disposed
  deriving DecidableEq, Repr

/-- The server.  Its connections are numbered as they are added. -/
structure ServerConnection where
  clients : List Nat
  /-- `List<T>` counts its changes. -/
  version : Nat
  disposing : Bool
  stop : Bool
  /-- The listener is started and not stopped. -/
  listening : Bool
  /-- How many connections have been added to `_clients`. -/
  added : Nat
  handlers : Nat → Handler
  /-- The connections whose stream and client are disposed. -/
  disposed : Nat → Bool
  run : RunPhase
  dispose : DisposePhase

namespace ServerConnection

def new : ServerConnection where
  clients := []
  version := 0
  disposing := false
  stop := false
  listening := false
  added := 0
  handlers _ := .running
  disposed _ := false
  run := .notCalled
  dispose := .notCalled

/-! ### The connections -/

/-- `_clients.Add(connection)`, and its `HandleAsync` begins. -/
def add (s : ServerConnection) : ServerConnection :=
  { s with clients := s.clients ++ [s.added], version := s.version + 1, added := s.added + 1 }

/-- `if (!_server._disposing) _server._clients.Remove(this)`. -/
def leave (i : Nat) (s : ServerConnection) : ServerConnection :=
  if s.disposing then s
  else if i ∈ s.clients then { s with clients := s.clients.erase i, version := s.version + 1 }
  else s

/-- What the `DisposeAsync` of a connection does behind its await. -/
def close (i : Nat) (s : ServerConnection) : ServerConnection :=
  leave i { s with disposed := Function.update s.disposed i true }

/-! ### `DisposeAsync` -/

def moveNext (index version : Nat) (s : ServerConnection) : ServerConnection :=
  if s.version ≠ version then
    { s with dispose := .ended (.error (.invalidOperation
        "Collection was modified; enumeration operation may not execute.")) }
  else
    match s.clients[index]? with
    | some client => { s with dispose := .awaiting (index + 1) version client }
    | none => { s with clients := [], version := s.version + 1, dispose := .ended (.ok ()) }

/-- `DisposeAsync`, to its first await. -/
def disposeAsync (s : ServerConnection) : ServerConnection :=
  moveNext 0 s.version { s with disposing := true, listening := false }

/-! ### `RunAsync` -/

/-- The end of `RunAsync` behind its loop.  A second call of `DisposeAsync` is not followed. -/
def endLoop (disposeOnStop : Bool) (s : ServerConnection) : Option ServerConnection :=
  if disposeOnStop then
    match s.dispose with
    | .notCalled => some { s with run := .ended }.disposeAsync
    | _ => none
  else some { s with run := .ended }

/-- `while (!_stop)`, to the await in its body.  On a listener that is stopped
`AcceptTcpClientAsync` throws. -/
def loop (disposeOnStop : Bool) (s : ServerConnection) : Option ServerConnection :=
  if s.stop then s.endLoop disposeOnStop
  else if s.listening then some { s with run := .accepting }
  else some { s with run := .ended }

end ServerConnection

inductive Event where
  | runCalled
  | stop
  | acceptCompletes
  | acceptFails
  | acceptResumes
  | clientFails (i : Nat)
  | clientResumes (i : Nat)
  | disposeCalled
  | disposeResumes
  deriving DecidableEq, Repr

def step (disposeOnStop : Bool) (s : ServerConnection) : Event → Option ServerConnection
  | .runCalled =>
    if s.run = .notCalled then { s with listening := true }.loop disposeOnStop else none
  | .stop => some { s with stop := true }
  | .acceptCompletes =>
    if s.run = .accepting ∧ s.listening = true then some { s with run := .accepted } else none
  | .acceptFails => if s.run = .accepting then some { s with run := .ended } else none
  | .acceptResumes => if s.run = .accepted then s.add.loop disposeOnStop else none
  | .clientFails i =>
    if i < s.added ∧ s.handlers i = .running then
      some { s with handlers := Function.update s.handlers i .disposing }
    else none
  | .clientResumes i =>
    if s.handlers i = .disposing then
      some ({ s with handlers := Function.update s.handlers i .disposed }.close i)
    else none
  | .disposeCalled =>
    match s.dispose with
    | .notCalled => some s.disposeAsync
    | _ => none
  | .disposeResumes =>
    match s.dispose with
    | .awaiting index version client => some ((s.close client).moveNext index version)
    | _ => none

/-- A connection leaves the list as its own method says. -/
theorem leave_clients (s : ServerConnection) (i : Nat) (peer : Peer) (w : World)
    (hclients : w.clients = s.clients) (hdisposing : w.disposing = s.disposing) :
    (s.leave i).clients = (act i peer .leaveClients w).2.clients := by
  show _ = if w.disposing then w.clients else w.clients.erase i
  rw [hclients, hdisposing, ServerConnection.leave]
  split
  · rfl
  · split
    · rfl
    · rename_i hmem
      exact (List.erase_of_not_mem hmem).symm

/-! ### What is kept -/

/-- No accept resumes the loop once `DisposeAsync` has been called. -/
def NoLateAccept (s : ServerConnection) (e : Event) : Prop :=
  e = .acceptResumes → s.disposing = false

/-- Where the enumeration stands: the connections before the one it awaits are disposed. -/
def Enumerates (s : ServerConnection) : DisposePhase → Prop
  | .notCalled => s.disposing = false
  | .awaiting index version client => s.disposing = true ∧ version = s.version ∧
      ∃ before rest, s.clients = before ++ client :: rest ∧ index = before.length + 1 ∧
        ∀ i ∈ before, s.disposed i = true
  | .ended (.ok _) => s.disposing = true ∧ s.clients = []
  | .ended (.error _) => False

/-- Every connection is in the list or disposed, and the enumeration has not been disturbed. -/
structure Kept (s : ServerConnection) : Prop where
  listed : ∀ i < s.added, i ∈ s.clients ∨ s.disposed i = true
  enumerates : Enumerates s s.dispose

section Steps

variable {disposeOnStop : Bool} {s s' : ServerConnection}

theorem Kept.notCalled (h : Kept s) (hdisposing : s.disposing = false) :
    s.dispose = .notCalled := by
  have henum := h.enumerates
  cases hdispose : s.dispose with
  | notCalled => rfl
  | awaiting index version client =>
    rw [hdispose] at henum
    rw [henum.1] at hdisposing
    cases hdisposing
  | ended result =>
    rw [hdispose] at henum
    cases result with
    | ok u =>
      rw [henum.1] at hdisposing
      cases hdisposing
    | error e => exact henum.elim

theorem kept_moveNext (before rest : List Nat)
    (hlisted : ∀ i < s.added, i ∈ s.clients ∨ s.disposed i = true) (hdisposing : s.disposing = true)
    (hclients : s.clients = before ++ rest) (hbefore : ∀ i ∈ before, s.disposed i = true) :
    Kept (s.moveNext before.length s.version) := by
  rw [ServerConnection.moveNext, if_neg (fun h => h rfl)]
  cases rest with
  | nil =>
    have hget : s.clients[before.length]? = none := by
      rw [hclients, List.append_nil, List.getElem?_eq_none (Nat.le_refl _)]
    rw [hget]
    refine ⟨fun i hi => .inr ?_, hdisposing, rfl⟩
    rcases hlisted i hi with hmem | hdisposed
    · rw [hclients, List.append_nil] at hmem
      exact hbefore i hmem
    · exact hdisposed
  | cons client rest =>
    have hget : s.clients[before.length]? = some client := by
      rw [hclients, List.getElem?_append_right (Nat.le_refl _), Nat.sub_self]
      rfl
    rw [hget]
    exact ⟨hlisted, hdisposing, rfl, before, rest, hclients, rfl, hbefore⟩

theorem kept_disposeAsync (hlisted : ∀ i < s.added, i ∈ s.clients ∨ s.disposed i = true) :
    Kept s.disposeAsync :=
  kept_moveNext (s := { s with disposing := true, listening := false }) [] s.clients
    hlisted rfl rfl fun _ h => absurd h List.not_mem_nil

theorem kept_loop (h : Kept s) (hs : s.loop disposeOnStop = some s') : Kept s' := by
  rw [ServerConnection.loop] at hs
  split at hs
  · rw [ServerConnection.endLoop] at hs
    split at hs
    · split at hs
      · cases hs
        exact kept_disposeAsync h.listed
      · cases hs
    · cases hs
      exact ⟨h.listed, h.enumerates⟩
  · split at hs
    · cases hs
      exact ⟨h.listed, h.enumerates⟩
    · cases hs
      exact ⟨h.listed, h.enumerates⟩

theorem kept_add (h : Kept s) (hdisposing : s.disposing = false) : Kept s.add := by
  constructor
  · intro i hi
    rcases Nat.lt_succ_iff_lt_or_eq.mp hi with hlt | rfl
    · exact (h.listed i hlt).imp_left (List.mem_append_left _)
    · exact .inl (List.mem_append_right _ (List.mem_singleton_self _))
  · show Enumerates s.add s.dispose
    rw [h.notCalled hdisposing]
    exact hdisposing

theorem update_disposed {i j : Nat} (h : s.disposed j = true) :
    Function.update s.disposed i true j = true := by
  rw [Function.update_apply]
  split
  · rfl
  · exact h

/-- While `DisposeAsync` is under way a connection that is disposed stays in the list. -/
theorem close_of_disposing (h : s.disposing = true) (i : Nat) :
    s.close i = { s with disposed := Function.update s.disposed i true } := if_pos h

theorem close_of_not_disposing (h : s.disposing = false) (i : Nat) :
    ∃ version, s.close i = { s with
      clients := s.clients.erase i, version := version
      disposed := Function.update s.disposed i true } := by
  rw [ServerConnection.close, ServerConnection.leave, if_neg (by simp [h])]
  split
  · exact ⟨_, rfl⟩
  · rename_i hmem
    exact ⟨s.version, by rw [List.erase_of_not_mem hmem]⟩

theorem kept_close (h : Kept s) (i : Nat) : Kept (s.close i) := by
  cases hd : s.disposing with
  | true =>
    rw [close_of_disposing hd]
    refine ⟨fun j hj => (h.listed j hj).imp_right update_disposed, ?_⟩
    have henum := h.enumerates
    show Enumerates { s with disposed := Function.update s.disposed i true } s.dispose
    cases hdispose : s.dispose with
    | notCalled =>
      rw [hdispose] at henum
      exact henum
    | awaiting index version client =>
      rw [hdispose] at henum
      obtain ⟨-, hversion, before, rest, hclients, hindex, hbefore⟩ := henum
      exact ⟨hd, hversion, before, rest, hclients, hindex,
        fun j hj => update_disposed (hbefore j hj)⟩
    | ended result =>
      rw [hdispose] at henum
      cases result with
      | ok u => exact henum
      | error e => exact henum
  | false =>
    obtain ⟨version, hclose⟩ := close_of_not_disposing hd i
    rw [hclose]
    constructor
    · intro j hj
      by_cases hji : j = i
      · subst hji
        exact .inr (Function.update_self _ _ _)
      · exact (h.listed j hj).imp (List.mem_erase_of_ne hji).mpr update_disposed
    · show Enumerates _ s.dispose
      rw [h.notCalled hd]
      exact hd

theorem kept_disposeResumes (h : Kept s) {index version client : Nat}
    (hdispose : s.dispose = .awaiting index version client) :
    Kept ((s.close client).moveNext index version) := by
  have henum := h.enumerates
  rw [hdispose] at henum
  obtain ⟨hdisposing, rfl, before, rest, hclients, rfl, hbefore⟩ := henum
  have hkept := kept_close h client
  rw [close_of_disposing hdisposing] at hkept ⊢
  have hmove := kept_moveNext (s := { s with disposed := Function.update s.disposed client true })
    (before ++ [client]) rest hkept.listed hdisposing
    (by rw [List.append_assoc]; exact hclients)
    (by
      intro j hj
      rcases List.mem_append.mp hj with hj | hj
      · exact update_disposed (hbefore j hj)
      · cases List.mem_singleton.mp hj
        exact Function.update_self _ _ _)
  rwa [List.length_append] at hmove

/-- **An event that is no late accept keeps all that.** -/
theorem kept_step {e : Event} (h : Kept s) (he : NoLateAccept s e)
    (hs : step disposeOnStop s e = some s') : Kept s' := by
  cases e with
  | runCalled =>
    rw [step] at hs
    split at hs
    · exact kept_loop (s := { s with listening := true }) ⟨h.listed, h.enumerates⟩ hs
    · cases hs
  | stop =>
    cases hs
    exact ⟨h.listed, h.enumerates⟩
  | acceptCompletes =>
    rw [step] at hs
    split at hs
    · cases hs
      exact ⟨h.listed, h.enumerates⟩
    · cases hs
  | acceptFails =>
    rw [step] at hs
    split at hs
    · cases hs
      exact ⟨h.listed, h.enumerates⟩
    · cases hs
  | acceptResumes =>
    rw [step] at hs
    split at hs
    · exact kept_loop (kept_add h (he rfl)) hs
    · cases hs
  | clientFails i =>
    rw [step] at hs
    split at hs
    · cases hs
      exact ⟨h.listed, h.enumerates⟩
    · cases hs
  | clientResumes i =>
    rw [step] at hs
    split at hs
    · cases hs
      have hkept : Kept { s with handlers := Function.update s.handlers i .disposed } :=
        ⟨h.listed, h.enumerates⟩
      exact kept_close hkept i
    · cases hs
  | disposeCalled =>
    rw [step] at hs
    split at hs
    · cases hs
      exact kept_disposeAsync h.listed
    · cases hs
  | disposeResumes =>
    rw [step] at hs
    split at hs
    · rename_i hdispose
      cases hs
      exact kept_disposeResumes h hdispose
    · cases hs

end Steps

theorem kept_new : Kept .new := ⟨fun _ hi => absurd hi (Nat.not_lt_zero _), rfl⟩

/-- **A run without a late accept shuts down**: the enumeration is not disturbed, and when both
methods have ended every connection has been disposed and the list is empty. -/
theorem shutdown_of_run (disposeOnStop : Bool) (es : List Event)
    (halong : Machine.Along (step disposeOnStop) NoLateAccept .new es) (s : ServerConnection)
    (hreach : Machine.Reaches (step disposeOnStop) .new es s) :
    (∀ e, s.dispose ≠ .ended (.error e)) ∧
      ∀ result, s.run = .ended → s.dispose = .ended result →
        (∀ i < s.added, s.disposed i = true) ∧ s.clients = [] := by
  have hkept : Kept s := Machine.reaches_invariant (fun _ _ _ hI hC hs => kept_step hI hC hs)
    kept_new halong hreach
  have henum := hkept.enumerates
  constructor
  · intro e he
    rw [he] at henum
    exact henum
  · intro result _ hresult
    rw [hresult] at henum
    cases result with
    | error e => exact henum.elim
    | ok u =>
      refine ⟨fun i hi => (hkept.listed i hi).resolve_left ?_, henum.2⟩
      rw [henum.2]
      exact List.not_mem_nil

/-- Two connections are accepted, the first fails, and the second is there at the shutdown. -/
def orderly : List Event :=
  [.runCalled, .acceptCompletes, .acceptResumes, .acceptCompletes, .acceptResumes, .clientFails 0,
    .clientResumes 0, .disposeCalled, .acceptFails, .disposeResumes]

/-- The theorem on that run. -/
theorem orderly_shutdown : ∃ s, Machine.run (step false) .new orderly = some s ∧ s.added = 2 ∧
    (∀ i < s.added, s.disposed i = true) ∧ s.clients = [] := by
  have hother : ∀ {s : ServerConnection} {e : Event}, e ≠ .acceptResumes → NoLateAccept s e :=
    fun hne heq => absurd heq hne
  have halong : Machine.Along (step false) NoLateAccept .new orderly :=
    .cons (hother (by decide)) rfl <| .cons (hother (by decide)) rfl <|
    .cons (fun _ => rfl) rfl <| .cons (hother (by decide)) rfl <|
    .cons (fun _ => rfl) rfl <| .cons (hother (by decide)) rfl <|
    .cons (hother (by decide)) rfl <| .cons (hother (by decide)) rfl <|
    .cons (hother (by decide)) rfl <| .cons (hother (by decide)) rfl trivial
  refine ⟨_, rfl, rfl, ?_⟩
  exact (shutdown_of_run false orderly halong _ ⟨10, rfl⟩).2 (.ok ()) rfl rfl

/-- **Two late accepts**: the first breaks the enumeration, and the connection of the second is
still in the list when both methods have ended. -/
theorem late_accepts :
    (∃ s e, Machine.Reaches (step false) .new
        [.runCalled, .acceptCompletes, .acceptResumes, .acceptCompletes, .disposeCalled,
          .acceptResumes, .disposeResumes] s ∧ s.dispose = .ended (.error e)) ∧
      ∃ s, Machine.Reaches (step false) .new
        [.runCalled, .acceptCompletes, .disposeCalled, .acceptResumes] s ∧ s.run = .ended ∧
        s.dispose = .ended (.ok ()) ∧ s.added = 1 ∧ s.disposed 0 = false ∧ s.clients = [0] :=
  ⟨⟨_, _, ⟨7, rfl⟩, rfl⟩, _, ⟨4, rfl⟩, rfl, rfl, rfl, rfl, rfl⟩

end Manafont.Game.Server.Shutdown
