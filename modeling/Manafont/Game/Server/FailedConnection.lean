import Manafont.Game.Server.ServerConnection

/-!
# A connection that ends without a session

`HandleAsync` is `async void` and catches one type of exception at one of its awaits.
A run that ends without a session has ended with an exception, since the only way to
end without one is past `_session` (`escapes_of_no_session`).  So no run of this kind
ends cleanly: what fails at the handshake with `AuthenticationException` is cleaned up, but
then the read that follows throws, and what fails anywhere else is not cleaned up.
-/

namespace Manafont.Game.Server

open Packets.IO Session Db Async

/-- The connection is disposed and gone from `_clients`, and no exception has escaped. -/
structure FailsCleanly (client : Nat) (call : Except Halt Unit × World) : Prop where
  stream_disposed : call.2.streamDisposed = true
  conn_disposed : call.2.connDisposed = true
  not_mem_clients : client ∉ call.2.clients
  no_escape : ∀ e, call.1 ≠ .error (.thrown e)

section Failures

variable (self : Nat) (peer : Peer) (protocolVersion : Option Version)

theorem session_of_returns {w w' : World} (hw : w.streamDisposed = false)
    (h : run (act self peer) (handleAsync protocolVersion) w = (.ok (), w')) :
    ∃ session, w'.session = some session := by
  by_cases hfirst : ∃ authPacket, FirstPacket peer w.stream authPacket
  · obtain ⟨authPacket, hfirst⟩ := hfirst
    obtain ⟨s, hrun⟩ := run_handleAsync_of_firstPacket self protocolVersion hw hfirst
    rw [hrun, run_checkVersion] at h
    split at h
    · rename_i session db hcall
      cases h
      exact ⟨session, rfl⟩
    · cases h
  · obtain ⟨e, w'', hrun, -⟩ := run_handleAsync_of_no_firstPacket self protocolVersion hw
      fun authPacket hauth => hfirst ⟨authPacket, hauth⟩
    rw [hrun] at h
    cases h

/-- **An exception escapes from every run that ends without a session.** -/
theorem escapes_of_no_session {w w' : World} {r : Except Halt Unit} (hw : w.streamDisposed = false)
    (h : run (act self peer) (handleAsync protocolVersion) w = (r, w'))
    (hend : r ≠ .error .pending) (hsession : w'.session = none) : ∃ e, r = .error (.thrown e) := by
  cases r with
  | ok u =>
    obtain ⟨session, hs⟩ := session_of_returns self peer protocolVersion hw h
    rw [hsession] at hs
    cases hs
  | error e =>
    cases e with
    | thrown e => exact ⟨e, rfl⟩
    | pending => exact absurd rfl hend

/-- **No run that ends without a session ends cleanly**, on a server that is not being
disposed. -/
theorem not_failsCleanly (stream : Stream) (clients : List Nat) (database : Database)
    (hend : (run (act self peer) (handleAsync protocolVersion)
      (World.accepted stream clients false database)).1 ≠ .error .pending)
    (hsession : (run (act self peer) (handleAsync protocolVersion)
      (World.accepted stream clients false database)).2.session = none) :
    ¬ FailsCleanly self (run (act self peer) (handleAsync protocolVersion)
      (World.accepted stream clients false database)) := by
  intro h
  obtain ⟨e, he⟩ := escapes_of_no_session self peer protocolVersion
    (w := World.accepted stream clients false database) rfl rfl hend hsession
  exact h.no_escape e he

end Failures

/-! ### A stream that is closed, and a handshake that fails -/

/-- A connection whose peer sends nothing and closes the stream. -/
def closedAtOnce : World := .accepted (.ofBytes [] true) [0] false (.issued [0x75] [])

/-- The theorem on a stream that is closed at once. -/
theorem closedAtOnce_not_failsCleanly :
    ¬ FailsCleanly 0 (run (act 0 (.sending .x64 .zeroed)) (handleAsync none) closedAtOnce) :=
  not_failsCleanly 0 (.sending .x64 .zeroed) none (.ofBytes [] true) [0] (.issued [0x75] [])
    (fun h => by cases h) rfl

def turnedDown : Peer :=
  { Peer.sending .x64 .zeroed with
    handshake := .error (.thrown (.authentication "The remote certificate was rejected")) }

/-- **A failed handshake is cleaned up and still ends with an exception; a closed stream is
not even cleaned up.** -/
theorem failures_escape :
    ((run (act 0 turnedDown) (handleAsync none) closedAtOnce).1 =
        .error (.thrown (.objectDisposed "SslStream")) ∧
      ¬ FailsCleanly 0 (run (act 0 turnedDown) (handleAsync none) closedAtOnce)) ∧
      ((run (act 0 (.sending .x64 .zeroed)) (handleAsync none) closedAtOnce).1 =
          .error (.thrown .endOfStream) ∧
        (run (act 0 (.sending .x64 .zeroed)) (handleAsync none) closedAtOnce).2.connDisposed =
          false) :=
  ⟨⟨rfl, fun h => h.no_escape _ rfl⟩, rfl, rfl⟩

end Manafont.Game.Server
