import Manafont.Game.Program
import Manafont.Session.ManafontSessionManager

/-!
# `ServerConnection`

`HandleAsync` and `DisposeAsync` of the class `ClientConnection` in
`Manafont.Game.Server/ServerConnection.cs`, with `ExpectPacketAsync` of
`Manafont.Game.Common/Extensions.cs`.

What the method touches is a `World`: the stream and the `TcpClient` of the connection,
the `_clients` of the server, `_session` and the database.  Each await and each
statement that changes the world is an operation of `ConnectionOp`.

`Peer` is what the other side and the runtime do: how the handshake ends, what a read
of a packet gives and which awaits of the session manager fail.  The reader is any
program on the stream, so that nothing here depends on how packets are decoded;
`Peer.sending` has the reader of the code.

Every run goes one of two ways.  It comes to the session manager exactly when the
handshake succeeds and the first packet is an `AuthPacket` (`run_handleAsync_of_firstPacket`);
any other run throws or waits before that (`run_handleAsync_of_no_firstPacket`), also the one that
goes on behind the `catch`, where the stream is disposed and the read that comes next throws.
-/

namespace Manafont.Game.Server

open Packets.IO Session Db Async

/-- The awaits and the statements of `HandleAsync` and `DisposeAsync`. -/
inductive ConnectionOp where
  | authenticateAsServer
  | disposeStream
  | disposeConn
  | leaveClients
  | recvPacket
  | verifyCreateSession (ticket : Option DotNetString)
  | setSession (session : ManafontGameSession)

abbrev ConnectionOp.Answer : ConnectionOp → Type
  | recvPacket => IPacket PacketType.Data
  | verifyCreateSession _ => ManafontGameSession
  | _ => Unit

abbrev connection : Signature := { Op := ConnectionOp, Answer := ConnectionOp.Answer }

abbrev ConnectionIo := Async connection Halt

def disposeAsync : ConnectionIo Unit := do
  let _ ← perform (S := connection) .disposeStream
  let _ ← perform (S := connection) .disposeConn
  perform (S := connection) .leaveClients

def unexpectedPacket (pkt : IPacket PacketType.Data) : Exn :=
  let opcode := pkt.packetOpcode.toNat
  .io s!"Unexpected packet kind: {opcode}"

def expectPacketAsync (t : PacketType) : ConnectionIo t.Data := do
  let pkt ← perform (S := connection) .recvPacket
  if h : pkt.packetType = t then return h ▸ pkt.packet.data
  else throw (.thrown (unexpectedPacket pkt))

/-- The `catch` of `HandleAsync`, which is for one type of exception. -/
def catchAuthentication : Halt → ConnectionIo Unit
  | .thrown (.authentication _) => disposeAsync
  | e => throw e

/-- The end of `HandleAsync`.  Nothing is done about a version that is not the server's. -/
def checkVersion (protocolVersion : Option Version) (authPacket : AuthPacket) :
    ConnectionIo Unit := do
  if protocolVersion ≠ authPacket.protocolVersion then pure ()
  let session ← perform (S := connection) (.verifyCreateSession authPacket.oAuthToken)
  perform (S := connection) (.setSession session)

/-- `HandleAsync`, on a server with this `_protocolVersion`. -/
def handleAsync (protocolVersion : Option Version) : ConnectionIo Unit := do
  tryCatch (perform (S := connection) .authenticateAsServer) catchAuthentication
  let authPacket ← expectPacketAsync .auth
  checkVersion protocolVersion authPacket

/-- What `HandleAsync` reads and changes.  `verified` lists the tickets for which
`VerifyCreateSessionAsync` was called. -/
structure World where
  stream : Stream
  streamDisposed : Bool
  connDisposed : Bool
  clients : List Nat
  disposing : Bool
  session : Option ManafontGameSession
  database : Database
  verified : List (Option DotNetString)

/-- A connection that `RunAsync` has just accepted. -/
def World.accepted (stream : Stream) (clients : List Nat) (disposing : Bool)
    (database : Database) : World where
  stream := stream
  streamDisposed := false
  connDisposed := false
  clients := clients
  disposing := disposing
  session := none
  database := database
  verified := []

def World.disposed (self : Nat) (w : World) : World :=
  { w with
    streamDisposed := true
    connDisposed := true
    clients := if w.disposing then w.clients else w.clients.erase self }

structure Peer where
  handshake : Except Halt Unit
  readPacket : EStateM Halt Stream (IPacket PacketType.Data)
  backend : Backend
  faults : Await → Option Exn
  guid : DotNetString

/-- A peer whose handshake succeeds, before the reader of the code and a storage without
faults. -/
def Peer.sending (host : Host) (pool : MemoryPool) : Peer where
  handshake := .ok ()
  readPacket := (packetIo host).readPacketAsync host pool
  backend := .loading
  faults _ := none
  guid := []

def ofSessionManager {α : Type} : Except Exn α → Except Halt α
  | .ok a => .ok a
  | .error e => .error (.thrown e)

/-- What an operation does for the connection `self`.  A read on a disposed stream throws. -/
def act (self : Nat) (peer : Peer) : (op : ConnectionOp) → World → Except Halt op.Answer × World
  | .authenticateAsServer, w => (peer.handshake, w)
  | .disposeStream, w => (.ok (), { w with streamDisposed := true })
  | .disposeConn, w => (.ok (), { w with connDisposed := true })
  | .leaveClients, w =>
    (.ok (), { w with clients := if w.disposing then w.clients else w.clients.erase self })
  | .recvPacket, w =>
    if w.streamDisposed then (.error (.thrown (.objectDisposed "SslStream")), w)
    else
      match peer.readPacket w.stream with
      | .ok packet stream => (.ok packet, { w with stream := stream })
      | .error e stream => (.error e, { w with stream := stream })
  | .verifyCreateSession ticket, w =>
    let call := run (performAlone peer.backend peer.faults)
      (verifyCreateSessionAsync peer.guid ticket) w.database
    (ofSessionManager call.1, { w with database := call.2, verified := w.verified ++ [ticket] })
  | .setSession session, w => (.ok (), { w with session := some session })

/-! ### The paths of `HandleAsync` -/

section Paths

variable {self : Nat} {peer : Peer} {protocolVersion : Option Version} {w : World}

theorem run_disposeAsync_bind {α : Type} (f : Unit → ConnectionIo α) :
    run (act self peer) (disposeAsync >>= f) w = run (act self peer) (f ()) (w.disposed self) :=
  rfl

theorem act_recvPacket_of_disposed (h : w.streamDisposed = true) :
    act self peer .recvPacket w = (.error (.thrown (.objectDisposed "SslStream")), w) := if_pos h

theorem act_recvPacket_of_ok {packet : IPacket PacketType.Data} {s : Stream}
    (hw : w.streamDisposed = false) (h : peer.readPacket w.stream = .ok packet s) :
    act self peer .recvPacket w = (.ok packet, { w with stream := s }) := by
  rw [act, if_neg (by simp [hw]), h]

theorem act_recvPacket_of_error {e : Halt} {s : Stream} (hw : w.streamDisposed = false)
    (h : peer.readPacket w.stream = .error e s) :
    act self peer .recvPacket w = (.error e, { w with stream := s }) := by
  rw [act, if_neg (by simp [hw]), h]

theorem run_expectPacketAsync_bind_of_error {α : Type} {t : PacketType} {e : Halt} {w' : World}
    {f : t.Data → ConnectionIo α} (h : act self peer .recvPacket w = (.error e, w')) :
    run (act self peer) (expectPacketAsync t >>= f) w = (.error e, w') := by
  rw [expectPacketAsync, perform_bind_bind]
  exact run_perform_bind_of_error h

theorem run_expectPacketAsync_bind_of_ne {α : Type} {t : PacketType}
    {packet : IPacket PacketType.Data} {w' : World} {f : t.Data → ConnectionIo α}
    (h : act self peer .recvPacket w = (.ok packet, w')) (ht : packet.packetType ≠ t) :
    run (act self peer) (expectPacketAsync t >>= f) w =
      (.error (.thrown (unexpectedPacket packet)), w') := by
  rw [expectPacketAsync, perform_bind_bind]
  refine (run_perform_bind_of_ok h).trans ?_
  rw [dif_neg ht]
  rfl

theorem run_expectPacketAsync_bind_of_eq {α : Type} {t : PacketType} {packet : BasePacket t.Data}
    {w' : World} {f : t.Data → ConnectionIo α}
    (h : act self peer .recvPacket w = (.ok { packetType := t, packet := packet }, w')) :
    run (act self peer) (expectPacketAsync t >>= f) w = run (act self peer) (f packet.data) w' := by
  rw [expectPacketAsync, perform_bind_bind]
  refine (run_perform_bind_of_ok h).trans ?_
  rw [dif_pos rfl]
  rfl

/-- **A handshake that fails with `AuthenticationException`**: the connection is cleaned up,
and then read from. -/
theorem run_handleAsync_of_authentication {message : String}
    (h : peer.handshake = .error (.thrown (.authentication message))) :
    run (act self peer) (handleAsync protocolVersion) w =
      (.error (.thrown (.objectDisposed "SslStream")), w.disposed self) := by
  have hact : act self peer .authenticateAsServer w =
      (.error (.thrown (.authentication message)), w) := congrArg (·, w) h
  rw [handleAsync]
  refine (run_tryCatch_bind_of_error hact).trans ?_
  refine (run_disposeAsync_bind _).trans ?_
  exact run_expectPacketAsync_bind_of_error (act_recvPacket_of_disposed rfl)

theorem run_handleAsync_of_handshake_error {e : Halt} (h : peer.handshake = .error e)
    (he : ∀ message, e ≠ .thrown (.authentication message)) :
    run (act self peer) (handleAsync protocolVersion) w = (.error e, w) := by
  have hact : act self peer .authenticateAsServer w = (.error e, w) := congrArg (·, w) h
  have hcatch : catchAuthentication e = throw e := by
    rw [catchAuthentication]
    intro message hm
    exact he message hm
  rw [handleAsync]
  refine (run_tryCatch_bind_of_error hact).trans ?_
  rw [hcatch]
  rfl

/-- The handshake succeeds and the first packet is this `AuthPacket`. -/
def FirstPacket (peer : Peer) (stream : Stream) (authPacket : AuthPacket) : Prop :=
  peer.handshake = .ok () ∧ ∃ opcode s, peer.readPacket stream =
    .ok { packetType := .auth, packet := { packetOpcode := opcode, data := authPacket } } s

theorem FirstPacket.unique {stream : Stream} {a b : AuthPacket} (ha : FirstPacket peer stream a)
    (hb : FirstPacket peer stream b) : a = b := by
  obtain ⟨-, _, _, ha⟩ := ha
  obtain ⟨-, _, _, hb⟩ := hb
  rw [ha] at hb
  cases hb
  rfl

theorem run_handleAsync_of_handshake_ok (h : peer.handshake = .ok ()) :
    run (act self peer) (handleAsync protocolVersion) w =
      run (act self peer) (expectPacketAsync .auth >>= checkVersion protocolVersion) w := by
  have hact : act self peer .authenticateAsServer w = (.ok (), w) := congrArg (·, w) h
  exact run_tryCatch_bind_of_ok hact

variable (self protocolVersion) in
/-- **The first packet is an `AuthPacket`**: its ticket is redeemed, whatever its version. -/
theorem run_handleAsync_of_firstPacket {authPacket : AuthPacket} (hw : w.streamDisposed = false)
    (h : FirstPacket peer w.stream authPacket) :
    ∃ s, run (act self peer) (handleAsync protocolVersion) w =
      run (act self peer) (checkVersion protocolVersion authPacket) { w with stream := s } := by
  obtain ⟨hhandshake, opcode, s, hread⟩ := h
  refine ⟨s, (run_handleAsync_of_handshake_ok hhandshake).trans ?_⟩
  exact run_expectPacketAsync_bind_of_eq (act_recvPacket_of_ok hw hread)

variable (self protocolVersion) in
/-- **Any other run throws or waits**, and has not come to the session manager. -/
theorem run_handleAsync_of_no_firstPacket (hw : w.streamDisposed = false)
    (h : ∀ authPacket, ¬ FirstPacket peer w.stream authPacket) :
    ∃ e w', run (act self peer) (handleAsync protocolVersion) w = (.error e, w') ∧
      w'.database = w.database ∧ w'.verified = w.verified ∧ w'.session = w.session := by
  cases hhandshake : peer.handshake with
  | error e =>
    by_cases he : ∃ message, e = .thrown (.authentication message)
    · obtain ⟨message, rfl⟩ := he
      exact ⟨_, _, run_handleAsync_of_authentication hhandshake, rfl, rfl, rfl⟩
    · exact ⟨e, w, run_handleAsync_of_handshake_error hhandshake
        fun message hm => he ⟨message, hm⟩, rfl, rfl, rfl⟩
  | ok u =>
    rw [run_handleAsync_of_handshake_ok hhandshake]
    cases hread : peer.readPacket w.stream with
    | error e s =>
      exact ⟨e, _, run_expectPacketAsync_bind_of_error (act_recvPacket_of_error hw hread),
        rfl, rfl, rfl⟩
    | ok packet s =>
      obtain ⟨t, packet⟩ := packet
      by_cases ht : t = .auth
      · subst ht
        exact absurd ⟨hhandshake, packet.packetOpcode, s, hread⟩ (h packet.data)
      · exact ⟨_, _, run_expectPacketAsync_bind_of_ne (act_recvPacket_of_ok hw hread) ht,
          rfl, rfl, rfl⟩

def redeemTicket (peer : Peer) (authPacket : AuthPacket) (db : Database) :
    Except Exn ManafontGameSession × Database :=
  run (performAlone peer.backend peer.faults)
    (verifyCreateSessionAsync peer.guid authPacket.oAuthToken) db

theorem act_verifyCreateSession_of_ok {authPacket : AuthPacket} {session : ManafontGameSession}
    {db : Database} (h : redeemTicket peer authPacket w.database = (.ok session, db)) :
    act self peer (.verifyCreateSession authPacket.oAuthToken) w =
      (.ok session, { w with
        database := db, verified := w.verified ++ [authPacket.oAuthToken] }) := by
  rw [redeemTicket] at h
  rw [act, h]
  rfl

theorem act_verifyCreateSession_of_error {authPacket : AuthPacket} {e : Exn} {db : Database}
    (h : redeemTicket peer authPacket w.database = (.error e, db)) :
    act self peer (.verifyCreateSession authPacket.oAuthToken) w =
      (.error (.thrown e), { w with
        database := db, verified := w.verified ++ [authPacket.oAuthToken] }) := by
  rw [redeemTicket] at h
  rw [act, h]
  rfl

/-- **The version is compared, and the ticket is redeemed either way.** -/
theorem run_checkVersion {authPacket : AuthPacket} :
    run (act self peer) (checkVersion protocolVersion authPacket) w =
      match redeemTicket peer authPacket w.database with
      | (.ok session, db) => (.ok (), { w with
          database := db, verified := w.verified ++ [authPacket.oAuthToken]
          session := some session })
      | (.error e, db) => (.error (.thrown e), { w with
          database := db, verified := w.verified ++ [authPacket.oAuthToken] }) := by
  have hif : checkVersion protocolVersion authPacket =
      (perform (S := connection) (.verifyCreateSession authPacket.oAuthToken) >>=
        fun session => perform (S := connection) (.setSession session)) := by
    rw [checkVersion]
    split <;> rfl
  rw [hif]
  cases hcall : redeemTicket peer authPacket w.database with
  | mk r db =>
    cases r with
    | ok session => exact (run_perform_bind_of_ok (act_verifyCreateSession_of_ok hcall)).trans rfl
    | error e => exact run_perform_bind_of_error (act_verifyCreateSession_of_error hcall)

end Paths

end Manafont.Game.Server
