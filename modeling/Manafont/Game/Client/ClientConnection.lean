import Manafont.Library.Program
import Manafont.DotNet.Runtime

/-!
# The client's connection

`Connect`, `Dispose` and `DisposeAsync` of `Manafont.Game.Client/ClientConnection.cs`.

The three fields are made when they are first needed and never replaced.  A TCP connection
has a number, and an `SslStream` runs over the connection it was made on for good.
`TcpClient.Connected` is true while the client has a connection; a disposed client or stream
cannot be used again, and a stream runs its handshake once.  A client whose connect was refused
can connect again, but a connect that is cancelled while it is under way disposes the socket.

How a TCP connect and a handshake end is up to the server, the network and the caller's
token (`Server`).  The method itself finds a connection (`connect_of_connected`) or a client
that is disposed (`connect_of_disposed`), or it makes a TCP connect
(`connect_of_unconnected`); after that its stream is new and the handshake decides
(`secure_of_fresh`), or the stream has run a handshake before (`secure_of_used`).
-/

namespace Manafont.Game.Client

open Program

structure TcpClient where
  /-- The number of its connection, while it has one. -/
  connection : Option Nat
  /-- Its socket is disposed. -/
  disposed : Bool
  deriving DecidableEq, Repr

namespace TcpClient

def new : TcpClient := { connection := none, disposed := false }

def connected (client : TcpClient) : Bool := client.connection.isSome

def dispose (_ : TcpClient) : TcpClient := { connection := none, disposed := true }

end TcpClient

inductive Handshake where
  | notRun
  | succeeded
  | failed
  deriving DecidableEq, Repr

structure SslStream where
  /-- The number of the connection it runs over. -/
  connection : Nat
  handshake : Handshake
  disposed : Bool
  deriving DecidableEq, Repr

/-- `ClientConnection`, with certificates of some type. -/
structure ClientConnection (Cert : Type) where
  client : Option TcpClient
  stream : Option SslStream
  certs : List Cert

/-- What the network sees. -/
inductive Effect (Cert : Type) where
  | tcpConnect (connection : Nat)
  | handshake (connection : Nat) (certs : List Cert)
  deriving DecidableEq, Repr

structure World (Cert : Type) extends ClientConnection Cert where
  /-- How many TCP connections have been made. -/
  connections : Nat
  trace : List (Effect Cert)

inductive TcpConnect where
  | connects
  /-- It is refused, or the token was cancelled before it began. -/
  | fails (e : Exn)
  /-- The token is cancelled while it is under way. -/
  | cancelled
  deriving DecidableEq, Repr

structure Server where
  tcp : TcpConnect
  tls : Except Exn Unit

namespace Server

def good : Server := { tcp := .connects, tls := .ok () }

def refusing : Server := { tcp := .fails (.other "SocketException"), tls := .ok () }

/-- A server that does not answer before the token is cancelled. -/
def silent : Server := { tcp := .cancelled, tls := .ok () }

def failing (e : Exn) : Server := { tcp := .connects, tls := .error e }

end Server

abbrev ConnectIo (Cert : Type) := EStateM Exn (World Cert)

section Program

variable {Cert : Type}

def World.new : World Cert :=
  { client := none, stream := none, certs := [], connections := 0, trace := [] }

def connectAsync (server : Server) : ConnectIo Cert Unit := do
  let w ← get
  match w.client with
  | none => throw .nullReference
  | some client =>
    if client.disposed then throw (.objectDisposed "System.Net.Sockets.Socket")
    else
      match server.tcp with
      | .fails e => throw e
      | .cancelled => do
        set { w with client := some client.dispose }
        throw .operationCanceled
      | .connects => set { w with
          client := some { client with connection := some w.connections }
          connections := w.connections + 1
          trace := w.trace ++ [Effect.tcpConnect w.connections] }

/-- `_stream ??= new SslStream(_client.GetStream(), ..)`. -/
def ensureStream : ConnectIo Cert Unit := do
  let w ← get
  match w.stream with
  | some _ => pure ()
  | none =>
    match w.client.bind TcpClient.connection with
    | none => throw (.invalidOperation "The operation is not allowed on non-connected sockets.")
    | some connection => set { w with
        stream := some { connection := connection, handshake := .notRun, disposed := false } }

/-- `if (_certs.Count == 0) _certs.Import(Resources.ClientCert)`. -/
def importCerts (clientCert : List Cert) : ConnectIo Cert Unit :=
  modify fun w => if w.certs.isEmpty then { w with certs := clientCert } else w

def authenticateAsClientAsync (server : Server) : ConnectIo Cert Unit := do
  let w ← get
  match w.stream with
  | none => throw .nullReference
  | some stream =>
    if stream.disposed then throw (.objectDisposed "System.Net.Security.SslStream")
    else if stream.handshake ≠ .notRun then
      throw (.invalidOperation "Authentication has already occurred.")
    else
      let trace := w.trace ++ [Effect.handshake stream.connection w.certs]
      match server.tls with
      | .ok () => set { w with
          stream := some { stream with handshake := .succeeded }, trace := trace }
      | .error e => do
        set { w with stream := some { stream with handshake := .failed }, trace := trace }
        throw e

def disposeAsync : ConnectIo Cert Unit := do
  modify fun w => { w with client := w.client.map TcpClient.dispose }
  modify fun w => { w with stream := w.stream.map fun stream => { stream with disposed := true } }
  modify fun w => { w with certs := [] }

def dispose : ConnectIo Cert Unit := do
  modify fun w => { w with stream := w.stream.map fun stream => { stream with disposed := true } }
  modify fun w => { w with client := w.client.map TcpClient.dispose }
  modify fun w => { w with certs := [] }

def catchAuthentication : Exn → ConnectIo Cert Unit
  | .authentication message => do
    disposeAsync
    throw (.authentication message)
  | e => throw e

def connect (clientCert : List Cert) (server : Server) : ConnectIo Cert Unit := do
  modify fun w => { w with client := some (w.client.getD .new) }
  let w ← get
  if w.client.any TcpClient.connected then return
  connectAsync server
  ensureStream
  importCerts clientCert
  tryCatch (authenticateAsClientAsync server) catchAuthentication

end Program

/-! ### How a connect ends -/

section Connect

variable {Cert : Type} {clientCert : List Cert} {server : Server} {w : World Cert}

/-- `DisposeAsync` and `Dispose` leave the same. -/
def World.disposed (w : World Cert) : World Cert :=
  { w with
    client := w.client.map TcpClient.dispose
    stream := w.stream.map fun stream => { stream with disposed := true }
    certs := [] }

theorem disposeAsync_eq : disposeAsync w = .ok () w.disposed := rfl

theorem dispose_eq : dispose w = .ok () w.disposed := rfl

/-- **A connection that is there is taken to be authenticated.** -/
theorem connect_of_connected {n : Nat} {disposed : Bool}
    (h : w.client = some { connection := some n, disposed := disposed }) :
    connect clientCert server w = .ok () w := by
  obtain ⟨⟨client, stream, certs⟩, connections, trace⟩ := w
  cases h
  rfl

theorem connect_of_disposed (h : w.client = some { connection := none, disposed := true }) :
    connect clientCert server w =
      .error (.objectDisposed "System.Net.Sockets.Socket") w := by
  obtain ⟨⟨client, stream, certs⟩, connections, trace⟩ := w
  cases h
  rfl

/-- The client is new or not there, or it has lost its connection. -/
def World.Unconnected (w : World Cert) : Prop := w.client.getD .new = .new

def World.tcpConnected (w : World Cert) : World Cert :=
  { w with
    client := some { connection := some w.connections, disposed := false }
    connections := w.connections + 1
    trace := w.trace ++ [.tcpConnect w.connections] }

def secure (clientCert : List Cert) (server : Server) : ConnectIo Cert Unit := do
  ensureStream
  importCerts clientCert
  tryCatch (authenticateAsClientAsync server) catchAuthentication

theorem connect_of_unconnected (h : w.Unconnected) : connect clientCert server w =
    match server.tcp with
    | .fails e => .error e { w with client := some .new }
    | .cancelled => .error .operationCanceled { w with client := some TcpClient.new.dispose }
    | .connects => secure clientCert server w.tcpConnected := by
  obtain ⟨⟨client, stream, certs⟩, connections, trace⟩ := w
  obtain ⟨tcp, tls⟩ := server
  have hopened : connect clientCert ⟨tcp, tls⟩ ⟨⟨client, stream, certs⟩, connections, trace⟩ =
      connect clientCert ⟨tcp, tls⟩ ⟨⟨some .new, stream, certs⟩, connections, trace⟩ := by
    have hclient : client.getD .new = .new := h
    show (connect clientCert ⟨tcp, tls⟩ : ConnectIo Cert Unit) _ = _
    cases client with
    | none => rfl
    | some client =>
      cases hclient
      rfl
  rw [hopened]
  cases tcp with
  | fails e => rfl
  | cancelled => rfl
  | connects => rfl

/-- The state after the handshake of a stream that is made for the new TCP connection. -/
def World.handshaken (w : World Cert) (clientCert : List Cert) (handshake : Handshake) :
    World Cert :=
  { w.tcpConnected with
    stream := some { connection := w.connections, handshake := handshake, disposed := false }
    certs := clientCert
    trace := w.tcpConnected.trace ++ [.handshake w.connections clientCert] }

theorem secure_of_fresh (hstream : w.stream = none) (hcerts : w.certs = []) :
    secure clientCert server w.tcpConnected =
      match server.tls with
      | .ok () => .ok () (w.handshaken clientCert .succeeded)
      | .error e => catchAuthentication e (w.handshaken clientCert .failed) := by
  obtain ⟨⟨client, stream, certs⟩, connections, trace⟩ := w
  obtain ⟨tcp, tls⟩ := server
  cases hstream
  cases hcerts
  cases tls with
  | error e => rfl
  | ok u => rfl

/-- The stream has run its handshake over a connection before this one. -/
theorem secure_of_used (clientCert : List Cert) (server : Server) {stream : SslStream}
    (hstream : w.stream = some stream) (hdisposed : stream.disposed = false)
    (hrun : stream.handshake ≠ .notRun) :
    ∃ certs, secure clientCert server w.tcpConnected =
      .error (.invalidOperation "Authentication has already occurred.")
        { w.tcpConnected with certs := certs } := by
  obtain ⟨⟨client, stream', certs⟩, connections, trace⟩ := w
  obtain ⟨n, handshake, disposed⟩ := stream
  cases hstream
  cases hdisposed
  cases handshake with
  | notRun => exact absurd rfl hrun
  | succeeded =>
    cases certs with
    | nil => exact ⟨clientCert, rfl⟩
    | cons cert certs => exact ⟨cert :: certs, rfl⟩
  | failed =>
    cases certs with
    | nil => exact ⟨clientCert, rfl⟩
    | cons cert certs => exact ⟨cert :: certs, rfl⟩

end Connect

end Manafont.Game.Client
