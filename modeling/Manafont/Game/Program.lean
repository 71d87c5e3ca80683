import Manafont.Packets.IO.Coherence
import Manafont.Session.AuthPacketSerializer

/-!
# The packets of the program

`CreateHostBuilder` of `Manafont.Game.Server/Program.cs` and of
`Manafont.Game.Client/Program.cs`, with the two extension methods that register
packets: `AddManafontSession` of `Manafont.Session/Extensions.cs` and
`AddPacketIo` of `Manafont.Packets.Handling/Extensions.cs`.

Three packet types are registered.  `AuthPacket` has fields; `ClosingSessionPacket`
and `SessionRevokedPacket` are an opcode and nothing else.  The registrations are
accepted (`new_registrations`), each opcode leads to the serializer of its own type
(`dispatch_opcodeOf`) and every other opcode to an exception (`dispatch_of_unregistered`).
-/

namespace Manafont.Packets.Handling

open Packets.IO

structure ClosingSessionPacket where
  deriving DecidableEq, Inhabited

def ClosingSessionPacket.opcode : Opcode := 1

end Manafont.Packets.Handling

namespace Manafont.Session

open Packets.IO

structure SessionRevokedPacket where
  deriving DecidableEq, Inhabited

def SessionRevokedPacket.opcode : Opcode := 3

end Manafont.Session

namespace Manafont.Game

open Program Packets.IO Packets.Handling Session

inductive PacketType where
  | closingSession
  | auth
  | sessionRevoked
  deriving DecidableEq, Repr

def PacketType.Data : PacketType → Type
  | closingSession => ClosingSessionPacket
  | auth => AuthPacket
  | sessionRevoked => SessionRevokedPacket

instance : ∀ t : PacketType, Inhabited t.Data
  | .closingSession => inferInstanceAs (Inhabited ClosingSessionPacket)
  | .auth => inferInstanceAs (Inhabited AuthPacket)
  | .sessionRevoked => inferInstanceAs (Inhabited SessionRevokedPacket)

def opcodeOf : PacketType → Opcode
  | .closingSession => ClosingSessionPacket.opcode
  | .auth => AuthPacket.opcode
  | .sessionRevoked => SessionRevokedPacket.opcode

def serializerOf (host : Host) : (t : PacketType) → PacketSerializer t.Data
  | .closingSession => emptyPacketSerializer ClosingSessionPacket ClosingSessionPacket.opcode
  | .auth => authPacketSerializer host
  | .sessionRevoked => emptyPacketSerializer SessionRevokedPacket SessionRevokedPacket.opcode

/-- The serializer classes, one for each type.  The container can make an
`AuthPacketSerializer`; it has no `ushort` for the constructor of the others. -/
def serializerClasses (host : Host) : SerializerClasses PacketType.Data where
  Class := PacketType
  packetType t := t
  activate
    | .auth => .ok (authPacketSerializer host)
    | _ => .error (.invalidOperation "Unable to resolve service for type 'System.UInt16'")

def addManafontSession (host : Host) : List (Registration (serializerClasses host)) :=
  [.ofType PacketType.auth,
    .ofInstance PacketType.sessionRevoked (serializerOf host .sessionRevoked)]

def addPacketIo (host : Host) : List (Registration (serializerClasses host)) :=
  [.ofInstance PacketType.closingSession (serializerOf host .closingSession)]

/-- What `CreateHostBuilder` registers. -/
def registrations (host : Host) : List (Registration (serializerClasses host)) :=
  addManafontSession host ++ addPacketIo host

def serializers (host : Host) : List (IPacketSerializer PacketType.Data) :=
  [PacketType.auth, .sessionRevoked, .closingSession].map fun t =>
    { packetType := t, serializer := serializerOf host t }

def packetIo (host : Host) : PacketIo (serializerClasses host) :=
  { services := serviceCollection (registrations host), options := registerAll (serializers host) }

theorem new_registrations (host : Host) :
    PacketIo.new (serviceCollection (registrations host)) = .ok (packetIo host) := rfl

theorem opcode_serializerOf (host : Host) (t : PacketType) :
    (serializerOf host t).opcode = opcodeOf t := by
  cases t <;> rfl

theorem getRequiredService_registrations (host : Host) (t : PacketType) :
    getRequiredService (packetIo host).services t =
      .ok { packetType := t, serializer := serializerOf host t } := by
  cases t <;> rfl

/-! ### From an opcode to a serializer -/

theorem opcodeRegistry_eq (host : Host) (o : Opcode) :
    (packetIo host).options.opcodeRegistry o =
      if o = opcodeOf .closingSession then some .closingSession
      else if o = opcodeOf .sessionRevoked then some .sessionRevoked
      else if o = opcodeOf .auth then some .auth else none := by
  show Function.update (Function.update (Function.update (fun _ => none) (opcodeOf .auth)
    (some PacketType.auth)) (opcodeOf .sessionRevoked) (some PacketType.sessionRevoked))
      (opcodeOf .closingSession) (some PacketType.closingSession) o = _
  simp only [Function.update_apply]

/-- **The opcode of a type leads to its serializer.** -/
theorem dispatch_opcodeOf (host : Host) (t : PacketType) :
    (packetIo host).dispatch (opcodeOf t) =
      .ok { packetType := t, serializer := serializerOf host t } := by
  have ht : (packetIo host).options.getPacketType (opcodeOf t) = .ok t := by
    rw [PacketIoOptions.getPacketType, opcodeRegistry_eq]
    cases t <;> rfl
  rw [PacketIo.dispatch, ht]
  exact getRequiredService_registrations host t

theorem dispatch_of_unregistered (host : Host) {o : Opcode} (h : ∀ t, o ≠ opcodeOf t) :
    (packetIo host).dispatch o = .error (.keyNotFound o) := by
  have ho : (packetIo host).options.getPacketType o = .error (.keyNotFound o) := by
    rw [PacketIoOptions.getPacketType, opcodeRegistry_eq, if_neg (h _), if_neg (h _), if_neg (h _)]
  rw [PacketIo.dispatch, ho]
  rfl

/-! ### One packet -/

section OnePacket

variable {host : Host} {pool : MemoryPool} {s s' : Stream}

theorem readPacketAsync_of_registered {t : PacketType}
    (h : readNetworkNumberAsync host 2 s = .ok (opcodeOf t) s') :
    (packetIo host).readPacketAsync host pool s =
      PacketIo.readWrapped pool { packetType := t, serializer := serializerOf host t } s' := by
  rw [PacketIo.readPacketAsync, bind_of_ok h, dispatch_opcodeOf]
  rfl

theorem readPacketAsync_of_unregistered {o : Opcode}
    (h : readNetworkNumberAsync host 2 s = .ok o s') (ho : ∀ t, o ≠ opcodeOf t) :
    (packetIo host).readPacketAsync host pool s = .error (.thrown (.keyNotFound o)) s' := by
  rw [PacketIo.readPacketAsync, bind_of_ok h, dispatch_of_unregistered host ho]
  rfl

theorem readPacketAsync_of_error {e : Halt} (h : readNetworkNumberAsync host 2 s = .error e s') :
    (packetIo host).readPacketAsync host pool s = .error e s' := by
  rw [PacketIo.readPacketAsync, bind_of_error h]

theorem readPacketAsync_of_fieldless {t : PacketType} (ht : t ≠ .auth)
    (h : readNetworkNumberAsync host 2 s = .ok (opcodeOf t) s') :
    (packetIo host).readPacketAsync host pool s =
      .ok { packetType := t, packet := { packetOpcode := opcodeOf t, data := default } } s' := by
  rw [readPacketAsync_of_registered h]
  cases t with
  | auth => exact absurd rfl ht
  | closingSession => rfl
  | sessionRevoked => rfl

theorem readPacketAsync_of_auth (h : readNetworkNumberAsync host 2 s = .ok (opcodeOf .auth) s') :
    (packetIo host).readPacketAsync host pool s =
      match (authPacketSerializer host).readAsync pool s' with
      | .ok pkt t => .ok { packetType := .auth, packet := { packetOpcode := 2, data := pkt } } t
      | .error e t => .error e t := by
  rw [readPacketAsync_of_registered h, PacketIo.readWrapped]
  cases hr : (authPacketSerializer host).readAsync pool s' with
  | ok pkt t => exact bind_of_ok (PacketSerializer.readWrappedAsync_of_ok hr)
  | error e t => exact bind_of_error (PacketSerializer.readWrappedAsync_of_error hr)

/-- **Whatever packet is read is the default of its type.** -/
theorem data_eq_default_of_readPacketAsync {packet : IPacket PacketType.Data}
    (h : (packetIo host).readPacketAsync host pool s = .ok packet s') :
    packet.packet.data = default := by
  rw [PacketIo.readPacketAsync] at h
  obtain ⟨opcode, s₁, -, h⟩ := bind_eq_ok_iff.mp h
  obtain ⟨serializer, s₂, -, h⟩ := bind_eq_ok_iff.mp h
  obtain ⟨wrapped, s₃, hwrapped, h⟩ := bind_eq_ok_iff.mp h
  cases h
  obtain ⟨data, s₄, hdata, h⟩ := bind_eq_ok_iff.mp hwrapped
  cases h
  exact PacketSerializer.eq_default_of_readAsync hdata

theorem writePacketAsync_eq (host : Host) (t : PacketType) (packet : t.Data) :
    (packetIo host).writePacketAsync host t packet =
      (serializerOf host t).writeAsync host packet := by
  rw [PacketIo.writePacketAsync, getRequiredService_registrations]
  exact dif_pos rfl

theorem writePacketAsync_eq_ok_iff {t : PacketType} {packet : t.Data} {bytes : List UInt8} :
    (packetIo host).writePacketAsync host t packet [] = .ok () bytes ↔
      ∃ payload, (serializerOf host t).writeFieldsAsync packet [] = .ok () payload ∧
        bytes = networkBytes 2 (opcodeOf t) ++ payload := by
  rw [writePacketAsync_eq, PacketSerializer.writeAsync_eq_ok_iff, opcode_serializerOf]

end OnePacket

end Manafont.Game
