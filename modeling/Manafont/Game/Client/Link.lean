import Manafont.Game.Client.ClientConnection

/-!
# The link behind a client's connection

Seen from outside a `ClientConnection` is a `Link`: nothing has been made yet (`new`), no TCP
connect has succeeded (`idle`), it is authenticated (`up`), a TCP connection is up but the
`Connect` that made it threw (`stranded`), the connection is gone (`down`), or its socket has been
disposed (`dead`).  The link follows from the calls and from how their connects and handshakes
end, and the fields of the connection follow the link (`represents_after`).

* A `Connect` that returns is an authenticated connection unless the link is stranded
  (`connects_authenticated_iff`): only `AuthenticationException` is cleaned up after, and the
  next `Connect` sees a TCP connection and returns.
* After a failure a `Connect` starts afresh exactly when every TCP connect before has failed
  without being cancelled under way (`retries_iff`): the stream of a connection that was made is
  never replaced, and a client whose socket was disposed neither.
-/

namespace Manafont.Game.Client

open Program

/-- A call of the owner, or the peer closing the TCP connection. -/
inductive Event where
  | connect (server : Server)
  | dispose
  | disposeAsync
  | peerCloses

section Runs

variable {Cert : Type} (clientCert : List Cert)

def World.next (w : World Cert) : Event → World Cert
  | .connect server => final (connect clientCert server w)
  | .dispose => final (dispose w)
  | .disposeAsync => final (disposeAsync w)
  | .peerCloses =>
    { w with client := w.client.map fun client => { client with connection := none } }

def after (es : List Event) : World Cert := es.foldl (World.next clientCert) .new

end Runs

/-- `_stream` has completed its handshake and runs over the TCP connection of `_client`. -/
def Authenticated {Cert : Type} (w : World Cert) : Prop :=
  ∃ client stream, w.client = some client ∧ client.connected = true ∧ w.stream = some stream ∧
    stream.handshake = .succeeded ∧ stream.disposed = false ∧
    client.connection = some stream.connection

/-! ### The link -/

inductive Link where
  | new
  | idle
  | up
  | stranded
  | down
  | dead
  deriving DecidableEq, Repr

namespace Link

def next : Link → Event → Link
  | new, .connect server | idle, .connect server =>
    match server.tcp, server.tls with
    | .fails _, _ => idle
    | .cancelled, _ => dead
    | .connects, .ok () => up
    | .connects, .error (.authentication _) => dead
    | .connects, .error _ => stranded
  | down, .connect server =>
    match server.tcp with
    | .fails _ => down
    | .cancelled => dead
    | .connects => stranded
  | up, .connect _ => up
  | stranded, .connect _ => stranded
  | dead, .connect _ => dead
  | new, .dispose | new, .disposeAsync => new
  | _, .dispose | _, .disposeAsync => dead
  | up, .peerCloses | stranded, .peerCloses => down
  | link, .peerCloses => link

def after (es : List Event) : Link := es.foldl next new

/-- No TCP connect has succeeded or disposed the socket. -/
def Unused (link : Link) : Prop := link = new ∨ link = idle

end Link

section Represents

variable {Cert : Type} {clientCert : List Cert} {server : Server} {w : World Cert} {link : Link}

/-- The stream has run its handshake over a connection made before. -/
structure Used (stream : SslStream) (w : World Cert) : Prop where
  stream_eq : w.stream = some stream
  disposed : stream.disposed = false
  run : stream.handshake ≠ .notRun
  connection_lt : stream.connection < w.connections

/-- The fields of a connection whose link is `link`. -/
def Represents (w : World Cert) : Link → Prop
  | .new => w.client = none ∧ w.stream = none ∧ w.certs = []
  | .idle => w.client = some .new ∧ w.stream = none ∧ w.certs = []
  | .up => ∃ stream, w.client = some { connection := some stream.connection, disposed := false } ∧
      Used stream w ∧ stream.handshake = .succeeded
  | .stranded => ∃ n stream, w.client = some { connection := some n, disposed := false } ∧
      Used stream w ∧ (stream.handshake = .failed ∨ stream.connection ≠ n)
  | .down => ∃ stream, w.client = some .new ∧ Used stream w
  | .dead => w.client = some { connection := none, disposed := true }

theorem Used.mono {stream : SslStream} {w' : World Cert} (h : Used stream w)
    (hstream : w'.stream = w.stream) (hconnections : w.connections ≤ w'.connections) :
    Used stream w' where
  stream_eq := hstream.trans h.stream_eq
  disposed := h.disposed
  run := h.run
  connection_lt := Nat.lt_of_lt_of_le h.connection_lt hconnections

theorem Represents.fields_of_unused (h : Represents w link) (hlink : link.Unused) :
    w.Unconnected ∧ w.stream = none ∧ w.certs = [] := by
  rcases hlink with rfl | rfl
  · exact ⟨by rw [World.Unconnected, h.1]; rfl, h.2⟩
  · exact ⟨by rw [World.Unconnected, h.1]; rfl, h.2⟩

theorem connect_of_unused (h : Represents w link) (hlink : link.Unused) :
    connect clientCert server w =
      match server.tcp, server.tls with
      | .fails e, _ => .error e { w with client := some .new }
      | .cancelled, _ => .error .operationCanceled { w with client := some TcpClient.new.dispose }
      | .connects, .ok () => .ok () (w.handshaken clientCert .succeeded)
      | .connects, .error e => catchAuthentication e (w.handshaken clientCert .failed) := by
  obtain ⟨hunconnected, hstream, hcerts⟩ := h.fields_of_unused hlink
  rw [connect_of_unconnected hunconnected, secure_of_fresh hstream hcerts]
  cases server.tcp with
  | fails e => rfl
  | cancelled => rfl
  | connects => cases server.tls <;> rfl

theorem connect_of_down (clientCert : List Cert) (server : Server) {stream : SslStream}
    (hclient : w.client = some .new) (hused : Used stream w) :
    ∃ certs, connect clientCert server w =
      match server.tcp with
      | .fails e => .error e { w with client := some .new }
      | .cancelled => .error .operationCanceled { w with client := some TcpClient.new.dispose }
      | .connects => .error (.invalidOperation "Authentication has already occurred.")
          { w.tcpConnected with certs := certs } := by
  obtain ⟨certs, hsecure⟩ :=
    secure_of_used clientCert server hused.stream_eq hused.disposed hused.run
  have hunconnected : w.Unconnected := by
    rw [World.Unconnected, hclient]
    rfl
  refine ⟨certs, (connect_of_unconnected hunconnected).trans ?_⟩
  cases server.tcp with
  | fails e => rfl
  | cancelled => rfl
  | connects => exact hsecure

theorem represents_connect (h : Represents w link) (server : Server) :
    Represents (final (connect clientCert server w)) (link.next (.connect server)) := by
  have hunused : link.Unused → Represents (final (connect clientCert server w))
      (link.next (.connect server)) := by
    intro hlink
    have hfields := (h.fields_of_unused hlink).2
    have hnext : link.next (.connect server) = Link.next .idle (.connect server) := by
      rcases hlink with rfl | rfl
      · rfl
      · rfl
    have hlt := Nat.lt_succ_self w.connections
    rw [hnext, connect_of_unused h hlink, Link.next]
    cases server.tcp with
    | fails e => exact ⟨rfl, hfields⟩
    | cancelled => exact rfl
    | connects =>
      rcases server.tls with e | u
      · cases e with
        | authentication message => exact rfl
        | _ => exact ⟨_, _, rfl, ⟨rfl, rfl, by simp, hlt⟩, .inl rfl⟩
      · exact ⟨_, rfl, ⟨rfl, rfl, by simp, hlt⟩, rfl⟩
  cases link with
  | new => exact hunused (.inl rfl)
  | idle => exact hunused (.inr rfl)
  | up =>
    obtain ⟨stream, hclient, hrest⟩ := h
    rw [connect_of_connected hclient]
    exact ⟨stream, hclient, hrest⟩
  | stranded =>
    obtain ⟨n, stream, hclient, hrest⟩ := h
    rw [connect_of_connected hclient]
    exact ⟨n, stream, hclient, hrest⟩
  | down =>
    obtain ⟨stream, hclient, hused⟩ := h
    obtain ⟨certs, hconnect⟩ := connect_of_down clientCert server hclient hused
    rw [hconnect, Link.next]
    cases server.tcp with
    | fails e => exact ⟨stream, rfl, hused.mono rfl (Nat.le_refl _)⟩
    | cancelled => exact rfl
    | connects =>
      exact ⟨w.connections, stream, rfl, hused.mono rfl (Nat.le_succ _),
        .inr (Nat.ne_of_lt hused.connection_lt)⟩
  | dead =>
    rw [connect_of_disposed h]
    exact h

theorem exists_client (h : Represents w link) (hlink : link ≠ .new) :
    ∃ client, w.client = some client := by
  cases link with
  | new => exact absurd rfl hlink
  | idle => exact ⟨_, h.1⟩
  | up =>
    obtain ⟨stream, hclient, -⟩ := h
    exact ⟨_, hclient⟩
  | stranded =>
    obtain ⟨n, stream, hclient, -⟩ := h
    exact ⟨_, hclient⟩
  | down =>
    obtain ⟨stream, hclient, -⟩ := h
    exact ⟨_, hclient⟩
  | dead => exact ⟨_, h⟩

theorem represents_disposed (h : Represents w link) :
    Represents w.disposed (link.next .dispose) := by
  by_cases hlink : link = .new
  · subst hlink
    refine ⟨?_, ?_, rfl⟩
    · rw [World.disposed, h.1]
      rfl
    · rw [World.disposed, h.2.1]
      rfl
  · obtain ⟨client, hclient⟩ := exists_client h hlink
    have hnext : link.next .dispose = .dead := by
      cases link with
      | new => exact absurd rfl hlink
      | _ => rfl
    rw [hnext]
    show w.client.map TcpClient.dispose = _
    rw [hclient]
    rfl

theorem represents_peerCloses (h : Represents w link) :
    Represents (w.next clientCert .peerCloses) (link.next .peerCloses) := by
  cases link with
  | new =>
    refine ⟨?_, h.2⟩
    rw [World.next, h.1]
    rfl
  | idle =>
    refine ⟨?_, h.2⟩
    rw [World.next, h.1]
    rfl
  | up =>
    obtain ⟨stream, hclient, hused, -⟩ := h
    refine ⟨stream, ?_, hused.mono rfl (Nat.le_refl _)⟩
    rw [World.next, hclient]
    rfl
  | stranded =>
    obtain ⟨n, stream, hclient, hused, -⟩ := h
    refine ⟨stream, ?_, hused.mono rfl (Nat.le_refl _)⟩
    rw [World.next, hclient]
    rfl
  | down =>
    obtain ⟨stream, hclient, hused⟩ := h
    refine ⟨stream, ?_, hused.mono rfl (Nat.le_refl _)⟩
    rw [World.next, hclient]
    rfl
  | dead =>
    show (w.client.map fun client => { client with connection := none }) = _
    rw [show w.client = _ from h]
    rfl

/-- **The fields follow the link**: one event. -/
theorem represents_next (h : Represents w link) (e : Event) :
    Represents (w.next clientCert e) (link.next e) := by
  cases e with
  | connect server => exact represents_connect h server
  | dispose =>
    rw [World.next, dispose_eq]
    exact represents_disposed h
  | disposeAsync =>
    have hsame : link.next .disposeAsync = link.next .dispose := by cases link <;> rfl
    rw [hsame, World.next, disposeAsync_eq]
    exact represents_disposed h
  | peerCloses => exact represents_peerCloses h

/-- **The fields follow the link**: a whole run. -/
theorem represents_after (clientCert : List Cert) (es : List Event) :
    Represents (after clientCert es) (Link.after es) := by
  induction es using List.reverseRecOn with
  | nil => exact ⟨rfl, rfl, rfl⟩
  | append_singleton es e ih =>
    rw [after, Link.after, List.foldl_append, List.foldl_append]
    exact represents_next ih e

/-- **A connect that returns has authenticated, except on a stranded link.** -/
theorem authenticated_iff_of_represents (clientCert : List Cert) (server : Server)
    (h : Represents w link) :
    (∀ w', connect clientCert server w = .ok () w' → Authenticated w') ↔ link ≠ .stranded := by
  have hunused : link.Unused →
      ∀ w', connect clientCert server w = .ok () w' → Authenticated w' := by
    intro hlink w' hok
    obtain ⟨tcp, tls⟩ := server
    rw [connect_of_unused h hlink] at hok
    cases tcp with
    | fails e => cases hok
    | cancelled => cases hok
    | connects =>
      cases tls with
      | error e => cases e <;> cases hok
      | ok u =>
        cases hok
        exact ⟨_, _, rfl, rfl, rfl, rfl, rfl, rfl⟩
  cases link with
  | new => exact iff_of_true (hunused (.inl rfl)) (by decide)
  | idle => exact iff_of_true (hunused (.inr rfl)) (by decide)
  | up =>
    obtain ⟨stream, hclient, hused, hsucceeded⟩ := h
    refine iff_of_true (fun w' hok => ?_) (by decide)
    rw [connect_of_connected hclient] at hok
    cases hok
    exact ⟨_, stream, hclient, rfl, hused.stream_eq, hsucceeded, hused.disposed, rfl⟩
  | stranded =>
    obtain ⟨n, stream, hclient, hused, hwrong⟩ := h
    refine iff_of_false (fun hauth => ?_) (fun hne => hne rfl)
    obtain ⟨client, stream', hclient', -, hstream, hsucceeded, -, hconnection⟩ :=
      hauth w (connect_of_connected hclient)
    rw [hclient] at hclient'
    rw [hused.stream_eq] at hstream
    cases hclient'
    cases hstream
    rcases hwrong with hfailed | hne
    · rw [hfailed] at hsucceeded
      cases hsucceeded
    · exact hne (Option.some.inj hconnection).symm
  | down =>
    obtain ⟨stream, hclient, hused⟩ := h
    refine iff_of_true (fun w' hok => ?_) (by decide)
    obtain ⟨tcp, tls⟩ := server
    obtain ⟨certs, hconnect⟩ := connect_of_down clientCert ⟨tcp, tls⟩ hclient hused
    rw [hconnect] at hok
    cases tcp with
    | fails e => cases hok
    | cancelled => cases hok
    | connects => cases hok
  | dead =>
    refine iff_of_true (fun w' hok => ?_) (by decide)
    rw [connect_of_disposed h] at hok
    cases hok

/-! ### Trying again -/

/-- A connect to a server that accepts it makes a TCP connection and a handshake over it that
presents the certificate, and returns authenticated. -/
def Retries (clientCert : List Cert) (w : World Cert) : Prop :=
  ∃ w', connect clientCert .good w = .ok () w' ∧ Authenticated w' ∧
    w'.trace = w.trace ++ [.tcpConnect w.connections, .handshake w.connections clientCert]

theorem not_retries_of_error {e : Exn} {w' : World Cert}
    (h : connect clientCert .good w = .error e w') : ¬ Retries clientCert w := by
  rintro ⟨w'', hok, -⟩
  rw [h] at hok
  cases hok

theorem not_retries_of_same (h : connect clientCert .good w = .ok () w) :
    ¬ Retries clientCert w := by
  rintro ⟨w', hok, -, htrace⟩
  rw [h] at hok
  cases hok
  have hlen := congrArg List.length htrace
  simp at hlen

theorem retries_iff_of_represents (clientCert : List Cert) (h : Represents w link) :
    Retries clientCert w ↔ link.Unused := by
  have hunused : link.Unused → Retries clientCert w := by
    intro hlink
    refine ⟨w.handshaken clientCert .succeeded, connect_of_unused h hlink,
      ⟨_, _, rfl, rfl, rfl, rfl, rfl, rfl⟩, ?_⟩
    show (w.trace ++ [_]) ++ [_] = _
    rw [List.append_assoc]
    rfl
  cases link with
  | new => exact iff_of_true (hunused (.inl rfl)) (.inl rfl)
  | idle => exact iff_of_true (hunused (.inr rfl)) (.inr rfl)
  | up =>
    obtain ⟨stream, hclient, -⟩ := h
    exact iff_of_false (not_retries_of_same (connect_of_connected hclient)) (by simp [Link.Unused])
  | stranded =>
    obtain ⟨n, stream, hclient, -⟩ := h
    exact iff_of_false (not_retries_of_same (connect_of_connected hclient)) (by simp [Link.Unused])
  | down =>
    obtain ⟨stream, hclient, hused⟩ := h
    obtain ⟨certs, hconnect⟩ := connect_of_down clientCert .good hclient hused
    exact iff_of_false (not_retries_of_error hconnect) (by simp [Link.Unused])
  | dead =>
    exact iff_of_false (not_retries_of_error (connect_of_disposed h)) (by simp [Link.Unused])

end Represents

namespace Link

theorem unused_next_iff {link : Link} {e : Event} (hdispose : e ≠ .dispose)
    (hdisposeAsync : e ≠ .disposeAsync) :
    (link.next e).Unused ↔
      link.Unused ∧ ∀ server, e = .connect server → ∃ x, server.tcp = .fails x := by
  cases e with
  | dispose => exact absurd rfl hdispose
  | disposeAsync => exact absurd rfl hdisposeAsync
  | peerCloses => cases link <;> simp [next, Unused]
  | connect server =>
    obtain ⟨tcp, tls⟩ := server
    cases tcp with
    | fails x => cases link <;> simp [next, Unused]
    | cancelled => cases link <;> simp [next, Unused]
    | connects =>
      refine iff_of_false ?_ fun h => ?_
      · cases tls with
        | ok u => cases link <;> simp [next, Unused]
        | error e => cases link <;> cases e <;> simp [next, Unused]
      · obtain ⟨x, hx⟩ := h.2 _ rfl
        cases hx

/-- **A link that was not disposed is unused exactly when all its TCP connects failed** and none
was cancelled under way. -/
theorem unused_after_iff {es : List Event} (h : ∀ e ∈ es, e ≠ .dispose ∧ e ≠ .disposeAsync) :
    (after es).Unused ↔ ∀ server, .connect server ∈ es → ∃ x, server.tcp = .fails x := by
  induction es using List.reverseRecOn with
  | nil => exact iff_of_true (.inl rfl) fun _ hmem => absurd hmem List.not_mem_nil
  | append_singleton es e ih =>
    have hlast := h e (List.mem_append_right _ (List.mem_singleton_self e))
    have hstep : after (es ++ [e]) = (after es).next e := by
      rw [after, List.foldl_append]
      rfl
    rw [hstep, unused_next_iff hlast.1 hlast.2,
      ih fun e' he' => h e' (List.mem_append_left _ he')]
    constructor
    · rintro ⟨hbefore, he⟩ server hmem
      rcases List.mem_append.mp hmem with hmem | hmem
      · exact hbefore server hmem
      · exact he server (List.mem_singleton.mp hmem).symm
    · intro hall
      exact ⟨fun server hmem => hall server (List.mem_append_left _ hmem), fun server heq =>
        hall server (List.mem_append_right _ (List.mem_singleton.mpr heq.symm))⟩

end Link

/-! ### Over runs -/

/-- **Every connect of a run that returns is an authenticated connection exactly when none is
made on a stranded link.** -/
theorem connects_authenticated_iff {Cert : Type} (clientCert : List Cert) (es : List Event) :
    (∀ before server w', before ++ [.connect server] <+: es →
      connect clientCert server (after clientCert before) = .ok () w' → Authenticated w') ↔
    ∀ before server, before ++ [.connect server] <+: es → Link.after before ≠ .stranded := by
  have hlink := fun before server =>
    authenticated_iff_of_represents clientCert server (represents_after clientCert before)
  constructor
  · intro h before server hbefore
    exact (hlink before server).mp fun w' hok => h before server w' hbefore hok
  · intro h before server w' hbefore hok
    exact (hlink before server).mpr (h before server hbefore) w' hok

/-- **A handshake that ends with an `IOException` strands the link**: the exception is let
through, and the next `Connect` returns over a stream whose handshake has failed. -/
theorem ioException_strands :
    ∃ w', connect ["client"] .good (after ["client"] [.connect (.failing (.io "EOF"))]) =
        .ok () w' ∧
      ¬ Authenticated w' := by
  refine ⟨_, rfl, ?_⟩
  rintro ⟨client, stream, -, -, hstream, hsucceeded, -⟩
  cases hstream
  cases hsucceeded

/-- **A connection that the owner has not disposed connects again after a `Connect` that threw
exactly when every TCP connect before has failed** and none was cancelled under way. -/
theorem retries_iff {Cert : Type} (clientCert : List Cert) (es : List Event) (server : Server)
    (e : Exn) (w : World Cert) (howner : ∀ event ∈ es, event ≠ .dispose ∧ event ≠ .disposeAsync)
    (hthrow : connect clientCert server (after clientCert es) = .error e w) :
    Retries clientCert w ↔
      ∀ s, .connect s ∈ es ++ [.connect server] → ∃ x, s.tcp = .fails x := by
  have hw : after clientCert (es ++ [.connect server]) = w := by
    rw [after, List.foldl_append]
    show final (connect clientCert server (after clientCert es)) = w
    rw [hthrow, final_error]
  have hrepresents := represents_after clientCert (es ++ [.connect server])
  rw [hw] at hrepresents
  rw [retries_iff_of_represents clientCert hrepresents, Link.unused_after_iff]
  intro event hevent
  rcases List.mem_append.mp hevent with hmem | hmem
  · exact howner event hmem
  · cases List.mem_singleton.mp hmem
    exact ⟨by simp, by simp⟩

/-- The theorem on a connect that is refused, which can be retried, and on one behind it that is
cancelled under way, after which no connect can. -/
theorem refused_retries_iff :
    (Retries ["client"] (after ["client"] [.connect .refusing]) ↔
      ∀ s : Server, .connect s ∈ ([] : List Event) ++ [.connect .refusing] →
        ∃ x, s.tcp = .fails x) ∧
    (Retries ["client"] (after ["client"] [.connect .refusing, .connect .silent]) ↔
      ∀ s : Server, .connect s ∈ [Event.connect .refusing] ++ [.connect .silent] →
        ∃ x, s.tcp = .fails x) :=
  ⟨retries_iff ["client"] [] .refusing (.other "SocketException") _ (by simp) rfl,
    retries_iff ["client"] [.connect .refusing] .silent .operationCanceled _ (by simp) rfl⟩

/-- **After an `AuthenticationException` the client is disposed and stays so.** -/
theorem authentication_not_retries :
    ∃ w, connect ["client"] (.failing (.authentication "rejected")) .new =
        .error (.authentication "rejected") w ∧
      connect ["client"] .good w = .error (.objectDisposed "System.Net.Sockets.Socket") w ∧
      ¬ Retries ["client"] w := by
  have hagain : connect ["client"] .good
      (after ["client"] [.connect (.failing (.authentication "rejected"))]) =
        .error (.objectDisposed "System.Net.Sockets.Socket") _ := rfl
  exact ⟨_, rfl, hagain, not_retries_of_error hagain⟩

end Manafont.Game.Client
