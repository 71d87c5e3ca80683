import Manafont.Packets.IO.PacketStreamExtensions

/-!
# `PacketSerializer<T>`

`Manafont.Packets.IO/IPacketSerializer.cs` and `BasePacket.cs`.  A serializer is
a size, an opcode and the two abstract methods; `ReadAsync`, `WriteAsync` and
`ReadWrappedAsync` are built on them.

`ReadFieldsAsync` stores what it decodes in the array `pkt`, here the state of a
`StateT`.  `ReadAsync` makes that array from a local of the struct type `T`, so
the array holds a copy, and it returns the local.  What the fields were decoded
to is lost: a read that returns gives `default(T)` (`eq_default_of_readAsync`).

`default(T)` is `default`, through the `Inhabited` instance of the struct.
-/

namespace Manafont.Packets.IO

open Program

abbrev Opcode := BitVec (8 * 2)

/-- `MemoryPool<byte>.Shared`: a rented memory may be longer than asked for and may
hold anything. -/
structure MemoryPool where
  rent : Nat → List UInt8
  le_length_rent : ∀ n, n ≤ (rent n).length

def MemoryPool.zeroed : MemoryPool where
  rent n := List.replicate n 0
  le_length_rent n := by rw [List.length_replicate]

structure BasePacket (T : Type) where
  packetOpcode : Opcode
  data : T
  deriving DecidableEq, Repr

def Appends {α : Type} (m : WriteIo α) : Prop := ∀ out,
  m out = match m [] with
    | .ok a bytes => .ok a (out ++ bytes)
    | .error e bytes => .error e (out ++ bytes)

structure PacketSerializer (T : Type) where
  size : Nat
  opcode : Opcode
  readFieldsAsync : StreamReadBuffer → StateT (List T) BufferIo Unit
  writeFieldsAsync : T → WriteIo Unit
  writeFieldsAsync_appends : ∀ pkt, Appends (writeFieldsAsync pkt)

namespace PacketSerializer

variable {T : Type}

/-- `ReadAsync`.  `new[] {pkt}` puts a copy of `pkt` into the array. -/
def readAsync [Inhabited T] (pool : MemoryPool) (ser : PacketSerializer T) :
    EStateM Halt Stream T :=
  withMemory (pool.rent ser.size) do
    let buffer := StreamReadBuffer.new
    let pkt : T := default
    let _ ← (ser.readFieldsAsync buffer).run [pkt]
    return pkt

def writeAsync (host : Host) (ser : PacketSerializer T) (pkt : T) : WriteIo Unit := do
  writeNetworkNumberAsync host 2 ser.opcode
  ser.writeFieldsAsync pkt

def readWrappedAsync [Inhabited T] (pool : MemoryPool) (ser : PacketSerializer T) :
    EStateM Halt Stream (BasePacket T) := do
  let data ← ser.readAsync pool
  return { packetOpcode := ser.opcode, data := data }

end PacketSerializer

theorem Appends.pure {α : Type} (a : α) : Appends (pure a) := fun out => by
  show EStateM.Result.ok a out = .ok a (out ++ [])
  rw [List.append_nil]

theorem Appends.throw {α : Type} (e : Exn) : Appends (throw e : WriteIo α) := fun out => by
  show EStateM.Result.error e out = .error e (out ++ [])
  rw [List.append_nil]

theorem appends_writeAsync (bytes : List UInt8) : Appends (writeAsync bytes) := fun _ => rfl

theorem Appends.bind {α β : Type} {x : WriteIo α} {f : α → WriteIo β} (hx : Appends x)
    (hf : ∀ a, Appends (f a)) : Appends (x >>= f) := by
  intro out
  have h := hx out
  cases hr : x [] with
  | ok a bytes =>
    simp only [hr] at h
    rw [bind_of_ok h, bind_of_ok hr, hf a (out ++ bytes), hf a bytes]
    cases f a [] with
    | ok b more => simp only [List.append_assoc]
    | error e more => simp only [List.append_assoc]
  | error e bytes =>
    simp only [hr] at h
    rw [bind_of_error h, bind_of_error hr]

theorem appends_writeNetworkNumberAsync (host : Host) (w : Nat) (v : BitVec (8 * w)) :
    Appends (writeNetworkNumberAsync host w v) := appends_writeAsync _

theorem appends_writeAnsiCStringAsync (value : Option DotNetString) (n : Nat) :
    Appends (writeAnsiCStringAsync value n) := by
  rw [writeAnsiCStringAsync]
  cases asciiGetBytes value n with
  | ok memory => exact appends_writeAsync memory
  | error e => exact Appends.throw e

def emptyPacketSerializer (T : Type) (opcode : Opcode) : PacketSerializer T where
  size := 0
  opcode := opcode
  readFieldsAsync _ := pure ()
  writeFieldsAsync _ := pure ()
  writeFieldsAsync_appends _ := Appends.pure ()

/-! ### The opcode on the wire -/

theorem readNetworkNumberAsync_opcode (host : Host) (opcode : Opcode) {payload : List UInt8}
    {s : Stream} (hr : s.rest = networkBytes 2 opcode ++ payload) (hh : s.handed 2 = 2) :
    readNetworkNumberAsync host 2 s = .ok opcode (s.after 2 1) := by
  rw [readNetworkNumberAsync_of_handed host (by omega) hh, hr,
    List.take_append_of_le_length (by rw [length_networkBytes]),
    List.take_of_length_le (by rw [length_networkBytes]), ofNetworkBytes_networkBytes]

theorem handed_opcode {opcode : Opcode} {payload : List UInt8} {s : Stream}
    (hr : s.rest = networkBytes 2 opcode ++ payload) (hs : s.Greedy) : s.handed 2 = 2 := by
  rw [hs.handed, hr, List.length_append, length_networkBytes]
  omega

namespace PacketSerializer

variable {T : Type}

/-! ### What is written -/

theorem appends_writeAsync (host : Host) (ser : PacketSerializer T) (pkt : T) :
    Appends (ser.writeAsync host pkt) :=
  (appends_writeNetworkNumberAsync host 2 _).bind fun _ => ser.writeFieldsAsync_appends pkt

theorem writeAsync_eq_ok_iff (host : Host) (ser : PacketSerializer T) (pkt : T)
    {bytes : List UInt8} : ser.writeAsync host pkt [] = .ok () bytes ↔
      ∃ payload, ser.writeFieldsAsync pkt [] = .ok () payload ∧
        bytes = networkBytes 2 ser.opcode ++ payload := by
  have ho : writeNetworkNumberAsync host 2 ser.opcode []
      = .ok () (networkBytes 2 ser.opcode) := by
    rw [writeNetworkNumberAsync_eq]
    rfl
  rw [writeAsync, bind_of_ok ho, ser.writeFieldsAsync_appends pkt]
  cases ser.writeFieldsAsync pkt [] with
  | ok u payload =>
    constructor
    · intro h
      cases h
      exact ⟨payload, rfl, rfl⟩
    · rintro ⟨payload', h, rfl⟩
      cases h
      rfl
  | error e payload =>
    constructor
    · intro h
      cases h
    · rintro ⟨payload', h, -⟩
      cases h

/-! ### What is read -/

section Reading

variable [Inhabited T] {pool : MemoryPool} {ser : PacketSerializer T} {s : Stream}

/-- **A read whose fields were decoded returns `default(T)`**, whatever the fields are. -/
theorem readAsync_of_ok {pkt : List T} {win : Window}
    (h : (ser.readFieldsAsync .new).run [default] { memory := pool.rent ser.size, stream := s }
      = .ok ((), pkt) win) :
    ser.readAsync pool s = .ok default win.stream := by
  rw [readAsync, withMemory, within_of_ok (t := win)]
  rw [bind_of_ok h]
  rfl

theorem readAsync_of_error {e : Halt} {win : Window}
    (h : (ser.readFieldsAsync .new).run [default] { memory := pool.rent ser.size, stream := s }
      = .error e win) :
    ser.readAsync pool s = .error e win.stream := by
  rw [readAsync, withMemory, within_of_error (t := win)]
  rw [bind_of_error h]

/-- **Whatever a serializer returns is `default(T)`.** -/
theorem eq_default_of_readAsync {pkt : T} {s' : Stream} (h : ser.readAsync pool s = .ok pkt s') :
    pkt = default := by
  cases hr : (ser.readFieldsAsync .new).run [default]
      { memory := pool.rent ser.size, stream := s } with
  | ok r win =>
    rw [readAsync_of_ok hr] at h
    cases h
    rfl
  | error e win =>
    rw [readAsync_of_error hr] at h
    cases h

theorem readWrappedAsync_of_ok {pkt : T} {s' : Stream} (h : ser.readAsync pool s = .ok pkt s') :
    ser.readWrappedAsync pool s = .ok { packetOpcode := ser.opcode, data := pkt } s' := by
  rw [readWrappedAsync, bind_of_ok h]
  rfl

theorem readWrappedAsync_of_error {e : Halt} {s' : Stream}
    (h : ser.readAsync pool s = .error e s') : ser.readWrappedAsync pool s = .error e s' := by
  rw [readWrappedAsync, bind_of_error h]

end Reading

end PacketSerializer

end Manafont.Packets.IO
