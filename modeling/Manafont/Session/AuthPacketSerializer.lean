import Manafont.Packets.IO.PacketBuffer
import Manafont.Packets.IO.PacketSerializer

/-!
# `AuthPacket` and its serializer

`Manafont.Session/AuthPacket.cs` and `AuthPacketSerializer.cs`.  The writer emits
`0x28` bytes of text and four integers, `0x38` bytes in all
(`length_writeFieldsAsync`).  The reader is written for any buffer (`readFields`);
on a `StreamReadBuffer` it first asks for `0x48` bytes and then starts over for each
field, so

* it does not return from fewer than `0x48` bytes (`readAsync_of_short`), and
* whatever it does, it takes that many when they are there (`taken_readAsync`).
-/

namespace Manafont.Session

open Program Packets.IO

/-- `AuthPacket`.  Both fields are references. -/
structure AuthPacket where
  oAuthToken : Option DotNetString
  protocolVersion : Option Version
  deriving DecidableEq, Inhabited

def AuthPacket.opcode : Opcode := 2

namespace AuthPacketSerializer

section Fields

variable {σ : Type} (host : Host) (buffer : PacketBuffer σ)

def storeVersion (major minor build rev : BitVec (8 * 4)) :
    StateT (List AuthPacket) (EStateM Halt σ) Unit :=
  match Version.new major minor build rev with
  | .ok version =>
    modify fun pkt => pkt.modify 0 fun p => { p with protocolVersion := some version }
  | .error e => throw (.thrown e)

/-- `ReadFieldsAsync` behind its `EnsureAsync`. -/
def readRest : StateT (List AuthPacket) (EStateM Halt σ) Unit := do
  let token ← buffer.readAnsiCStringAsync host 0x28
  modify fun pkt => pkt.modify 0 fun p => { p with oAuthToken := some token }
  let major ← buffer.readNetworkNumberAsync host 4
  let minor ← buffer.readNetworkNumberAsync host 4
  let build ← buffer.readNetworkNumberAsync host 4
  let rev ← buffer.readNetworkNumberAsync host 4
  storeVersion major minor build rev

/-- `ReadFieldsAsync`, on any buffer. -/
def readFields : StateT (List AuthPacket) (EStateM Halt σ) Unit := do
  let _ ← buffer.ensureAsync 0x48
  readRest host buffer

end Fields

def readFieldsAsync (host : Host) (buffer : StreamReadBuffer) :
    StateT (List AuthPacket) BufferIo Unit := readFields host buffer.toPacketBuffer

/-- `WriteFieldsAsync`.  A null `ProtocolVersion` has no `Major`. -/
def writeFieldsAsync (host : Host) (pkt : AuthPacket) : WriteIo Unit := do
  writeAnsiCStringAsync pkt.oAuthToken 0x28
  match pkt.protocolVersion with
  | none => throw .nullReference
  | some version =>
    writeNetworkNumberAsync host 4 version.major
    writeNetworkNumberAsync host 4 version.minor
    writeNetworkNumberAsync host 4 version.build
    writeNetworkNumberAsync host 4 version.revision

theorem appends_writeFieldsAsync (host : Host) (pkt : AuthPacket) :
    Appends (writeFieldsAsync host pkt) := by
  refine (appends_writeAnsiCStringAsync _ _).bind fun _ => ?_
  cases pkt.protocolVersion with
  | none => exact Appends.throw _
  | some version =>
    exact (appends_writeNetworkNumberAsync _ _ _).bind fun _ =>
      (appends_writeNetworkNumberAsync _ _ _).bind fun _ =>
        (appends_writeNetworkNumberAsync _ _ _).bind fun _ => appends_writeNetworkNumberAsync _ _ _

end AuthPacketSerializer

def authPacketSerializer (host : Host) : PacketSerializer AuthPacket where
  size := 0x48
  opcode := AuthPacket.opcode
  readFieldsAsync := AuthPacketSerializer.readFieldsAsync host
  writeFieldsAsync := AuthPacketSerializer.writeFieldsAsync host
  writeFieldsAsync_appends := AuthPacketSerializer.appends_writeFieldsAsync host

namespace AuthPacketSerializer

/-! ### The writer -/

theorem length_writeFieldsAsync {host : Host} {pkt : AuthPacket} {payload : List UInt8}
    (h : writeFieldsAsync host pkt [] = .ok () payload) : payload.length = 0x38 := by
  obtain ⟨_, out, hToken, hRest⟩ := bind_eq_ok_iff.mp h
  have hout : out.length = 0x28 := by
    obtain ⟨hfits, rfl⟩ := writeAnsiCStringAsync_eq_ok_iff.mp hToken
    rw [List.nil_append]
    exact length_ansiBlock hfits
  cases hv : pkt.protocolVersion with
  | none =>
    rw [hv] at hRest
    cases hRest
  | some version =>
    simp only [hv, writeNetworkNumberAsync_eq] at hRest
    cases hRest
    simp only [List.length_append, length_networkBytes, hout]

/-! ### The reader -/

theorem movesT_readRest (host : Host) (buffer : StreamReadBuffer) :
    MovesT Window.ReadsTo (readRest host buffer.toPacketBuffer) := by
  have hnumber := StreamReadBuffer.moves_readNetworkNumberAsync host 4 buffer
  refine .lift_bind (StreamReadBuffer.moves_readAnsiCStringAsync host buffer _) fun token => ?_
  refine .bind (.modify _) fun _ => ?_
  refine .lift_bind hnumber fun major => .lift_bind hnumber fun minor => ?_
  refine .lift_bind hnumber fun build => .lift_bind hnumber fun rev => ?_
  rw [storeVersion]
  split
  · exact .modify _
  · exact .throw _

section Reading

variable (host : Host) (pool : MemoryPool) {s : Stream}

/-- **Fewer than `0x48` bytes are all taken, and the read does not return**, whatever the
default packet is. -/
theorem readAsync_of_short [Inhabited AuthPacket] (hs : s.rest.length < 0x48) :
    ∃ c, (authPacketSerializer host).readAsync pool s =
      .error (StreamReadBuffer.shortfall s.closed) (s.after s.rest.length c) := by
  have hpool : 0x48 ≤ (pool.rent 0x48).length := pool.le_length_rent 0x48
  obtain ⟨memory, c, hlen, he⟩ := StreamReadBuffer.new.ensureAsync_of_short 0x48
    (w := { memory := pool.rent 0x48, stream := s }) hpool
    (by simpa [StreamReadBuffer.new] using hs)
  cases hc : s.closed with
  | false =>
    rw [hc, if_neg (by simp)] at he
    have hfields : ((authPacketSerializer host).readFieldsAsync .new).run [default]
        { memory := pool.rent 0x48, stream := s } = .error .pending
          { memory := memory, stream := s.after s.rest.length c } := run_lift_bind_of_error he
    exact ⟨c, PacketSerializer.readAsync_of_error hfields⟩
  | true =>
    -- The `false` of `EnsureAsync` is dropped; the first field then asks an empty stream.
    rw [hc, if_pos rfl] at he
    have hroom : 0x28 ≤ memory.length := by
      rw [hlen]
      exact Nat.le_trans (by decide) hpool
    obtain ⟨memory', c', -, he'⟩ := StreamReadBuffer.new_readAsync_of_short
      (w := { memory := memory, stream := s.after s.rest.length c }) hroom (by simp)
    have hfields : ((authPacketSerializer host).readFieldsAsync .new).run [default]
        { memory := pool.rent 0x48, stream := s } = .error (StreamReadBuffer.shortfall true)
          { memory := memory', stream := s.after s.rest.length (c + c') } := by
      refine (run_lift_bind_of_ok he).trans ?_
      refine (run_lift_bind_of_error
        (StreamReadBuffer.readAnsiCStringAsync_of_error host he')).trans ?_
      simp [hc]
    exact ⟨c + c', PacketSerializer.readAsync_of_error hfields⟩

/-- **A read takes `0x48` bytes when they are there**, however it ends. -/
theorem taken_readAsync :
    s.taken + min 0x48 s.rest.length ≤
      (final ((authPacketSerializer host).readAsync pool s)).taken := by
  by_cases hs : s.rest.length < 0x48
  · obtain ⟨c, he⟩ := readAsync_of_short host pool hs
    rw [he, final_error, Stream.after_taken]
    omega
  · have hpool : 0x48 ≤ (pool.rent 0x48).length := pool.le_length_rent 0x48
    obtain ⟨memory, n, c, -, -, hn, he⟩ := StreamReadBuffer.new.ensureAsync_of_enough 0x48
      (w := { memory := pool.rent 0x48, stream := s }) hpool
      (by simp only [StreamReadBuffer.new]; omega)
    have hfields : ((authPacketSerializer host).readFieldsAsync .new).run [default]
        { memory := pool.rent 0x48, stream := s } =
          (readRest host StreamReadBuffer.new.toPacketBuffer).run [default]
            { memory := memory, stream := s.after n c } := run_lift_bind_of_ok he
    have hrest := movesT_readRest host .new [default] { memory := memory, stream := s.after n c }
    have htaken := hrest.1.taken_le
    rw [← hfields] at htaken
    have hfinal : final ((authPacketSerializer host).readAsync pool s) =
        (final (((authPacketSerializer host).readFieldsAsync .new).run [default]
          { memory := pool.rent 0x48, stream := s })).stream := by
      cases hr : ((authPacketSerializer host).readFieldsAsync .new).run [default]
          { memory := pool.rent 0x48, stream := s } with
      | ok r win => rw [PacketSerializer.readAsync_of_ok hr]; rfl
      | error e win => rw [PacketSerializer.readAsync_of_error hr]; rfl
    have hn' : 0x48 ≤ 0 + n := hn
    rw [Stream.after_taken] at htaken
    rw [hfinal]
    omega

end Reading

end AuthPacketSerializer

end Manafont.Session
