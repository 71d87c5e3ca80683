import Manafont.Game.Server.Gate
import Manafont.Session.History

/-!
# No connection has a session

`Gate.lean` and `FailedConnection.lean` leave open how packets are decoded.  Here the packets
are read as the server reads them, by the `PacketIo` of the container.

What that makes of an `AuthPacket` is the default one (`data_eq_default_of_readPacketAsync`), so
its ticket is null whatever the client wrote, and OpenIddict has no token for a null identifier.
So no stream of bytes is turned into a session: the handler ends with an exception or waits, and
neither the sessions nor the tokens change (`noSession_of_stream`).  The same holds of any number
of connections whose calls of the session manager are interleaved (`noSession_of_run`).
-/

namespace Manafont.Game.Server

open Packets.IO Session Db Async

def Peer.reading (host : Host) (pool : MemoryPool) (peer : Peer) : Peer :=
  { peer with readPacket := (packetIo host).readPacketAsync host pool }

/-- No session is given and none is stored, and at most the null ticket is looked up. -/
structure NoSession (database : Database) (call : Except Halt Unit × World) : Prop where
  not_returns : ∃ e, call.1 = .error e
  session_eq : call.2.session = none
  database_eq : call.2.database = database
  verified_eq : call.2.verified = [] ∨ call.2.verified = [none]

section NoSession

variable {host : Host} {pool : MemoryPool} {peer : Peer}

/-- **An `AuthPacket` that is read has lost its ticket and its version.** -/
theorem eq_default_of_firstPacket {stream : Stream} {authPacket : AuthPacket}
    (h : FirstPacket (peer.reading host pool) stream authPacket) : authPacket = default := by
  obtain ⟨-, opcode, s, hread⟩ := h
  exact data_eq_default_of_readPacketAsync hread

/-- **A null ticket is not redeemed**, whether the look-up fails or is turned down. -/
theorem throws_redeemTicket_default (peer : Peer) (database : Database) :
    ∃ e, redeemTicket peer default database = (.error e, database) :=
  throws_verifyCreateSessionAsync peer.guid fun _ _ _ h => by cases h.ticket_eq

theorem noSession_of_firstPacket (self : Nat) (protocolVersion : Option Version) {stream : Stream}
    {clients : List Nat} {disposing : Bool} {database : Database} {authPacket : AuthPacket}
    (h : FirstPacket (peer.reading host pool) stream authPacket) :
    NoSession database (run (act self (peer.reading host pool)) (handleAsync protocolVersion)
      (.accepted stream clients disposing database)) := by
  obtain rfl := eq_default_of_firstPacket h
  obtain ⟨s, hrun⟩ := run_handleAsync_of_firstPacket self protocolVersion
    (w := .accepted stream clients disposing database) rfl h
  obtain ⟨e, hredeem⟩ := throws_redeemTicket_default (peer.reading host pool) database
  rw [hrun, run_checkVersion]
  dsimp only [World.accepted]
  rw [hredeem]
  exact ⟨⟨_, rfl⟩, rfl, rfl, .inr rfl⟩

end NoSession

/-- **Whatever a client sends, it has no session.** -/
theorem noSession_of_stream (host : Host) (pool : MemoryPool) (self : Nat) (peer : Peer)
    (protocolVersion : Option Version) (stream : Stream) (clients : List Nat) (disposing : Bool)
    (database : Database) :
    NoSession database (run (act self (peer.reading host pool)) (handleAsync protocolVersion)
      (.accepted stream clients disposing database)) := by
  by_cases h : ∃ authPacket, FirstPacket (peer.reading host pool) stream authPacket
  · obtain ⟨authPacket, hfirst⟩ := h
    exact noSession_of_firstPacket self protocolVersion hfirst
  · obtain ⟨e, w', hrun, hdatabase, hverified, hsession⟩ :=
      run_handleAsync_of_no_firstPacket self protocolVersion
        (w := .accepted stream clients disposing database) rfl
        fun authPacket hfirst => h ⟨authPacket, hfirst⟩
    rw [hrun]
    exact ⟨⟨e, rfl⟩, hsession, hdatabase, .inl hverified⟩

/-! ### Many connections -/

/-- **Nor has one of many.**  The calls of the session manager that any number of connections
have come to, interleaved at their awaits and with any faults, change nothing and do not return,
whatever their clients sent. -/
theorem noSession_of_run {ι : Type} [DecidableEq ι] (host : Host) (pools : ι → MemoryPool)
    (peers : ι → Peer) (streams : ι → Stream) (authPackets : ι → AuthPacket)
    (hfirst : ∀ i, FirstPacket ((peers i).reading host (pools i)) (streams i) (authPackets i))
    (backend : Backend) (guids : ι → DotNetString) (db : Database)
    (schedule : List (ι × Option Exn)) :
    ((calls (fun i => (authPackets i).oAuthToken) guids db).run
        (Session.perform backend) schedule).store = db ∧
      ∀ i, ¬ Returned ((calls (fun i => (authPackets i).oAuthToken) guids db).run
        (Session.perform backend) schedule) i := by
  refine idle_of_run ?_ schedule
  intro i token user sessions t h
  have hticket := h.ticket_eq
  rw [eq_default_of_firstPacket (hfirst i)] at hticket
  cases hticket

/-- The theorem on two connections that are sent `zeros`. -/
theorem zeros_noSession :
    ((calls (fun _ : Bool => (default : AuthPacket).oAuthToken)
      (fun i => if i then [0x31] else [0x30]) (.issued [0x75] [[0x74]])).run
        (Session.perform .loading) [(true, none), (false, none)]).store =
      .issued [0x75] [[0x74]] := by
  have hpeer : (Peer.sending .x64 .zeroed).reading .x64 .zeroed = .sending .x64 .zeroed := rfl
  have hfirst : FirstPacket ((Peer.sending .x64 .zeroed).reading .x64 .zeroed) zeros default := by
    rw [hpeer]
    exact zeros_firstPacket
  have h := noSession_of_run .x64 (fun _ : Bool => .zeroed) (fun _ => .sending .x64 .zeroed)
    (fun _ => zeros) (fun _ => default) (fun _ => hfirst) .loading
    (fun i => if i then [0x31] else [0x30]) (.issued [0x75] [[0x74]])
    [(true, none), (false, none)]
  exact h.1

end Manafont.Game.Server
