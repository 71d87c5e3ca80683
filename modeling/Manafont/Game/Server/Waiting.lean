import Manafont.Game.Framing
import Manafont.Game.Server.ServerConnection

/-!
# A server that waits for its client

The client sends an `AuthPacket` and then waits for the server.  The packet is `0x38`
bytes behind its opcode, and the reader of the server asks for `0x48` before it looks at
any of them.  So on a stream that delivers just what was written and stays open it takes
all there is and waits, for every `AuthPacket` (`readPacketAsync_waits`).
-/

namespace Manafont.Game.Server

open Program Packets.IO Session Async

/-- A run that does not wait for ever: it returns or throws. -/
def Completes {σ α : Type} (run : EStateM.Result Halt σ α) : Prop := outcome run ≠ .error .pending

section Waiting

variable {writer reader : Host} {pool : MemoryPool} {pkt : AuthPacket} {bytes : List UInt8}
  {cut : Nat → Nat}

/-- **The reader takes all that was written and waits for more.** -/
theorem readPacketAsync_waits (reader : Host) (pool : MemoryPool)
    (hw : (packetIo writer).writePacketAsync writer .auth pkt [] = .ok () bytes)
    (hcut : 2 ≤ cut 0) :
    ∃ c, (packetIo reader).readPacketAsync reader pool (.ofPieces bytes cut false) =
      .error .pending ((Stream.ofPieces bytes cut false).after bytes.length c) := by
  obtain ⟨payload, hlen, rfl⟩ := bytes_of_auth hw
  let s := Stream.ofPieces (networkBytes 2 (opcodeOf .auth) ++ payload) cut false
  have hhanded : s.handed 2 = 2 := by
    show min (max 1 (cut 0)) (min 2 (networkBytes 2 (opcodeOf .auth) ++ payload).length) = 2
    rw [List.length_append, length_networkBytes]
    omega
  have hopcode : readNetworkNumberAsync reader 2 s = .ok (opcodeOf .auth) (s.after 2 1) :=
    readNetworkNumberAsync_opcode reader _ rfl hhanded
  have hrest : (s.after 2 1).rest = payload := by
    rw [Stream.after_rest]
    exact List.drop_left' (length_networkBytes 2 _)
  obtain ⟨c, hread⟩ := AuthPacketSerializer.readAsync_of_short reader pool (s := s.after 2 1)
    (by rw [hrest]; omega)
  refine ⟨1 + c, ?_⟩
  rw [readPacketAsync_of_auth hopcode, hread, Stream.after_after, hrest, List.length_append,
    length_networkBytes]
  rfl

theorem handleAsync_waits {self : Nat} {clients : List Nat} {disposing : Bool}
    {database : Db.Database} {protocolVersion : Option Version}
    (hw : (packetIo writer).writePacketAsync writer .auth pkt [] = .ok () bytes)
    (hcut : 2 ≤ cut 0) :
    (run (act self (.sending reader pool)) (handleAsync protocolVersion)
      (.accepted (.ofPieces bytes cut false) clients disposing database)).1 = .error .pending := by
  obtain ⟨c, hread⟩ := readPacketAsync_waits reader pool hw hcut
  have hact : act self (.sending reader pool) .recvPacket
      (.accepted (.ofPieces bytes cut false) clients disposing database) = _ :=
    act_recvPacket_of_error rfl hread
  rw [run_handleAsync_of_handshake_ok rfl]
  exact congrArg Prod.fst (run_expectPacketAsync_bind_of_error hact)

end Waiting

/-- **No `AuthPacket` is read from the bytes that were written for it**, as long as the first
write, the opcode, comes in one piece. -/
theorem authPacket_not_completes (writer reader : Host) (pool : MemoryPool) (pkt : AuthPacket)
    (bytes : List UInt8) (cut : Nat → Nat)
    (hw : (packetIo writer).writePacketAsync writer .auth pkt [] = .ok () bytes)
    (hcut : 2 ≤ cut 0) :
    ¬ Completes ((packetIo reader).readPacketAsync reader pool (.ofPieces bytes cut false)) := by
  obtain ⟨c, hread⟩ := readPacketAsync_waits reader pool hw hcut
  rw [hread]
  exact fun h => h rfl

def writeSizes (call : Nat) : Nat := if call = 0 then 2 else if call = 1 then 0x28 else 4

/-- The theorem on `hello`, each write of it in one piece. -/
theorem hello_not_completes :
    ¬ Completes ((packetIo .x64).readPacketAsync .x64 .zeroed
      (.ofPieces helloBytes writeSizes false)) :=
  authPacket_not_completes .x64 .x64 .zeroed hello helloBytes writeSizes (by rfl) (by decide)

/-- **The reader of `hello` waits**, with every byte of it taken. -/
theorem hello_waits :
    (packetIo .x64).writePacketAsync .x64 .auth hello [] = .ok () helloBytes ∧
      outcome ((packetIo .x64).readPacketAsync .x64 .zeroed
        (.ofPieces helloBytes writeSizes false)) = .error .pending ∧
      (final ((packetIo .x64).readPacketAsync .x64 .zeroed
        (.ofPieces helloBytes writeSizes false))).taken = helloBytes.length ∧
      ¬ Completes ((packetIo .x64).readPacketAsync .x64 .zeroed
        (.ofPieces helloBytes writeSizes false)) := by
  have hw : (packetIo .x64).writePacketAsync .x64 .auth hello [] = .ok () helloBytes := rfl
  obtain ⟨c, hread⟩ := readPacketAsync_waits .x64 .zeroed hw
    (show 2 ≤ writeSizes 0 by decide)
  rw [hread]
  refine ⟨hw, rfl, ?_, fun h => h rfl⟩
  rw [final_error, Stream.after_taken]
  exact Nat.zero_add _

end Manafont.Game.Server
