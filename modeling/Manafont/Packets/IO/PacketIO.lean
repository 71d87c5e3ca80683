import Mathlib.Logic.Function.Basic
import Manafont.Packets.IO.ServiceCollection

/-!
# `PacketIo`

`Manafont.Packets.IO/PacketIO.cs`.  `PacketIoOptions` is a dictionary from
opcodes to packet types, filled from the serializers in the order they were
registered: `Register` passes over a packet type it has seen, and the indexer of
the dictionary overwrites the entry of an opcode it has seen.

Reading goes from the opcode to the packet type by the dictionary and from there
to the serializer by the container (`PacketIo.dispatch`).  Writing goes from the
packet type to the serializer by the container alone.
-/

namespace Manafont.Packets.IO

open Program

structure PacketIoOptions (Ty : Type) where
  opcodeRegistry : Opcode → Option Ty
  packetTypes : List Ty

/-- `IPacket`, boxed: a `BasePacket<T>` of some packet type. -/
structure IPacket {Ty : Type} (Data : Ty → Type) where
  packetType : Ty
  packet : BasePacket (Data packetType)

abbrev IPacket.packetOpcode {Ty : Type} {Data : Ty → Type} (p : IPacket Data) : Opcode :=
  p.packet.packetOpcode

/-- An exception of a synchronous call inside an asynchronous method. -/
def ofExcept {σ α : Type} : Except Exn α → EStateM Halt σ α
  | .ok a => pure a
  | .error e => throw (.thrown e)

section Options

variable {Ty : Type} [DecidableEq Ty] {Data : Ty → Type}

namespace PacketIoOptions

def new : PacketIoOptions Ty := { opcodeRegistry := fun _ => none, packetTypes := [] }

def register (o : PacketIoOptions Ty) (serializer : IPacketSerializer Data) :
    PacketIoOptions Ty :=
  if serializer.packetType ∈ o.packetTypes then o
  else {
    opcodeRegistry :=
      Function.update o.opcodeRegistry serializer.opcode (some serializer.packetType)
    packetTypes := serializer.packetType :: o.packetTypes }

def getPacketType (o : PacketIoOptions Ty) (opcode : Opcode) : Except Exn Ty :=
  match o.opcodeRegistry opcode with
  | some t => .ok t
  | none => .error (.keyNotFound opcode)

end PacketIoOptions

end Options

structure PacketIo {Ty : Type} {Data : Ty → Type} (P : SerializerClasses Data) where
  services : List (ServiceDescriptor P)
  options : PacketIoOptions Ty

namespace PacketIo

variable {Ty : Type} [DecidableEq Ty] {Data : Ty → Type} {P : SerializerClasses Data}

def new (services : List (ServiceDescriptor P)) : Except Exn (PacketIo P) :=
  (getServices services).map fun serializers =>
    { services := services, options := serializers.foldl .register .new }

/-- From an opcode to its serializer, as `ReadPacketAsync` goes. -/
def dispatch (io : PacketIo P) (opcode : Opcode) : Except Exn (IPacketSerializer Data) := do
  let packetType ← io.options.getPacketType opcode
  getRequiredService io.services packetType

/-- `ReadWrappedAsync`, through `IPacketSerializer`. -/
def readWrapped [∀ t, Inhabited (Data t)] (pool : MemoryPool) (s : IPacketSerializer Data) :
    EStateM Halt Stream (IPacket Data) := do
  let packet ← s.serializer.readWrappedAsync pool
  return { packetType := s.packetType, packet := packet }

def readPacketAsync [∀ t, Inhabited (Data t)] (host : Host) (pool : MemoryPool)
    (io : PacketIo P) : EStateM Halt Stream (IPacket Data) := do
  let opcode ← readNetworkNumberAsync host 2
  let serializer ← ofExcept (io.dispatch opcode)
  readWrapped pool serializer

/-- `WritePacketAsync<T>`.  The container types its result, so the cast does not fail. -/
def writePacketAsync (host : Host) (io : PacketIo P) (t : Ty) (packet : Data t) : WriteIo Unit :=
  match getRequiredService io.services t with
  | .error e => throw e
  | .ok s =>
    if h : s.packetType = t then s.serializer.writeAsync host (h ▸ packet)
    else throw (.invalidOperation "The service has another type")

end PacketIo

end Manafont.Packets.IO
