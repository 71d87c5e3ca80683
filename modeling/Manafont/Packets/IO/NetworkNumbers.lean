import Manafont.DotNet.IntegerType
import Manafont.Packets.IO.PacketStreamExtensions

/-!
# Network numbers

`ReadNetworkNumberAsync<T>` and `WriteNetworkNumberAsync<T>` at an integer type `T`, whose
values go through memory as their bits, and the two methods for a `DateTime`, which goes as the
`long` of `ToBinary`.

What is written on any host is the two's-complement form of the value, highest byte first
(`networkBytes_bits`), and any host that receives it in one piece reads the value; and the other
way round for any bytes.  A `DateTime` that comes back from its `long` comes back from the
stream.
-/

namespace Manafont.Packets.IO

open Program

/-! ### Typed numbers -/

section Typed

variable (host : Host) (T : IntegerType)

def StreamReadBuffer.readNetworkNumberAsyncOf (runningBuffer : StreamReadBuffer) :
    BufferIo T.Value := do
  let bits ← runningBuffer.readNetworkNumberAsync host T.size
  return .ofBits bits

def readNetworkNumberAsyncOf : EStateM Halt Stream T.Value := do
  let bits ← readNetworkNumberAsync host T.size
  return .ofBits bits

def writeNetworkNumberAsyncOf (t : T.Value) : WriteIo Unit :=
  writeNetworkNumberAsync host T.size t.bits

end Typed

section DateTimes

variable {DateTime : Type} (host : Host)

/-- `ReadNetworkDateTimeAsync`, with the `DateTime.FromBinary` of the machine. -/
def StreamReadBuffer.readNetworkDateTimeAsync
    (fromBinary : IntegerType.long.Value → Except Exn DateTime)
    (runningBuffer : StreamReadBuffer) : BufferIo DateTime := do
  let binary ← runningBuffer.readNetworkNumberAsyncOf host .long
  match fromBinary binary with
  | .ok dateTime => return dateTime
  | .error e => throw (.thrown e)

/-- `WriteNetworkDateTimeAsync`, with the `ToBinary` of the machine. -/
def writeNetworkDateTimeAsync (toBinary : DateTime → IntegerType.long.Value)
    (dateTime : DateTime) : WriteIo Unit :=
  writeNetworkNumberAsyncOf host .long (toBinary dateTime)

end DateTimes

/-! ### Bits and bytes -/

section Bytes

variable {T : IntegerType}

/-- **The big-endian bytes of a value are its two's-complement form.** -/
theorem networkBytes_bits (v : T.Value) :
    networkBytes T.size v.bits = Positional.twosComplement T.size v.val := by
  have hpow : ((2 ^ (8 * T.size) : Nat) : Int) = 256 ^ T.size := by
    rw [Nat.pow_mul]
    push_cast
    rfl
  rw [networkBytes, IntegerType.Value.bits, BitVec.toNat_ofInt, hpow,
    Positional.reverse_lowFirst_emod]

theorem ofBits_ofNetworkBytes (v : T.Value) :
    .ofBits (ofNetworkBytes T.size (Positional.twosComplement T.size v.val)) = v := by
  rw [← networkBytes_bits, ofNetworkBytes_networkBytes, IntegerType.Value.ofBits_bits]

theorem writeNetworkNumberAsyncOf_eq (host : Host) (v : T.Value) (out : List UInt8) :
    writeNetworkNumberAsyncOf host T v out =
      .ok () (out ++ Positional.twosComplement T.size v.val) := by
  rw [writeNetworkNumberAsyncOf, writeNetworkNumberAsync_eq, networkBytes_bits]
  rfl

theorem readNetworkNumberAsyncOf_of_delivers (host : Host) {bytes : List UInt8}
    (hlen : bytes.length = T.size) {s : Stream} (h : s.Delivers T.size bytes) :
    readNetworkNumberAsyncOf host T s =
      .ok (.ofBits (ofNetworkBytes T.size bytes)) (s.after T.size 1) := by
  have hbytes : s.rest.take T.size = bytes := by
    rw [← hlen]
    exact (List.prefix_iff_eq_take.mp h.1).symm
  have hhanded : s.handed T.size = T.size := by
    rw [← hlen] at h ⊢
    exact h.handed_eq
  have hread := readNetworkNumberAsync_of_handed host T.size_pos hhanded
  rw [hbytes] at hread
  rw [readNetworkNumberAsyncOf, bind_of_ok hread]
  rfl

namespace StreamReadBuffer

theorem readNetworkNumberAsyncOf_of_delivers (host : Host) {bytes : List UInt8}
    (hlen : bytes.length = T.size) {win : Window}
    (h : win.stream.Delivers win.memory.length bytes) :
    ∃ win', new.readNetworkNumberAsyncOf host T win =
      .ok (.ofBits (ofNetworkBytes T.size bytes)) win' := by
  obtain ⟨win₁, hread, hbytes, hroom⟩ := readAsync_of_delivers h
  rw [hlen] at hread hbytes hroom
  obtain ⟨memory, -, hnumber⟩ := readNetworkNumberAsync_of_ok host hread hroom
  rw [hbytes] at hnumber
  exact ⟨_, (bind_of_ok hnumber).trans rfl⟩

end StreamReadBuffer

end Bytes

/-! ### Both directions -/

/-- The numbers of a type between two machines, whatever the order of bytes of each. -/
structure BigEndian (T : IntegerType) (writer reader : Host) : Prop where
  /-- A value is written as its two's-complement form, highest byte first. -/
  writes : ∀ (v : T.Value) out, writeNetworkNumberAsyncOf writer T v out =
    .ok () (out ++ Positional.twosComplement T.size v.val)
  length_eq : ∀ v : T.Value, (Positional.twosComplement T.size v.val).length = T.size
  /-- It is read from a stream whose first read delivers these bytes, and no more is taken. -/
  reads_back : ∀ (v : T.Value) (s : Stream),
    s.Delivers T.size (Positional.twosComplement T.size v.val) →
      readNetworkNumberAsyncOf reader T s = .ok v (s.after T.size 1)
  /-- The value that is read from bytes is written as these bytes. -/
  writes_back : ∀ (bytes : List UInt8) (s : Stream), bytes.length = T.size →
    s.Delivers T.size bytes →
      ∃ v, readNetworkNumberAsyncOf reader T s = .ok v (s.after T.size 1) ∧
        ∀ out, writeNetworkNumberAsyncOf writer T v out = .ok () (out ++ bytes)

/-- **Numbers are big-endian between any two machines.** -/
theorem bigEndian (T : IntegerType) (writer reader : Host) : BigEndian T writer reader where
  writes v out := writeNetworkNumberAsyncOf_eq writer v out
  length_eq v := Positional.length_twosComplement T.size v.val
  reads_back v s hs := by
    rw [readNetworkNumberAsyncOf_of_delivers reader (Positional.length_twosComplement _ _) hs,
      ofBits_ofNetworkBytes]
  writes_back bytes s hlen hs := by
    refine ⟨_, readNetworkNumberAsyncOf_of_delivers reader hlen hs, fun out => ?_⟩
    rw [writeNetworkNumberAsyncOf_eq, ← networkBytes_bits, IntegerType.Value.bits_ofBits,
      networkBytes_ofNetworkBytes hlen]

theorem readNetworkDateTimeAsync_of_delivers {DateTime : Type} (reader : Host)
    {toBinary : DateTime → IntegerType.long.Value}
    {fromBinary : IntegerType.long.Value → Except Exn DateTime} {dateTime : DateTime}
    (h : fromBinary (toBinary dateTime) = .ok dateTime) {win : Window}
    (hwin : win.stream.Delivers win.memory.length
      (Positional.twosComplement 8 (toBinary dateTime).val)) :
    ∃ win', StreamReadBuffer.new.readNetworkDateTimeAsync reader fromBinary win =
      .ok dateTime win' := by
  obtain ⟨win', hread⟩ := StreamReadBuffer.readNetworkNumberAsyncOf_of_delivers
    (T := .long) reader (Positional.length_twosComplement _ _) hwin
  rw [ofBits_ofNetworkBytes (T := .long)] at hread
  refine ⟨win', ?_⟩
  rw [StreamReadBuffer.readNetworkDateTimeAsync, bind_of_ok hread, h]
  rfl

/-- **Numbers of every type are big-endian on every host**, and every `DateTime` that comes back
from its `long` comes back from what is written. -/
theorem networkNumbers (writer reader : Host) :
    (∀ T : IntegerType, BigEndian T writer reader) ∧
      ∀ (DateTime : Type) (toBinary : DateTime → IntegerType.long.Value)
        (fromBinary : IntegerType.long.Value → Except Exn DateTime) (dateTime : DateTime),
        fromBinary (toBinary dateTime) = .ok dateTime →
          ∃ bytes,
            (∀ out, writeNetworkDateTimeAsync writer toBinary dateTime out =
              .ok () (out ++ bytes)) ∧
            ∀ win : Window, win.stream.Delivers win.memory.length bytes →
              ∃ win', StreamReadBuffer.new.readNetworkDateTimeAsync reader fromBinary win =
                .ok dateTime win' := by
  refine ⟨fun T => bigEndian T writer reader, fun DateTime toBinary fromBinary dateTime h => ?_⟩
  exact ⟨_, writeNetworkNumberAsyncOf_eq writer (toBinary dateTime),
    fun win hwin => readNetworkDateTimeAsync_of_delivers reader h hwin⟩

/-- A `DateTime` that is not local: its kind in two bits and its ticks in 62, all of which
`ToBinary` gives. -/
structure RawDateTime where
  dateData : BitVec (8 * 8)
  deriving DecidableEq

namespace RawDateTime

def toBinary (dateTime : RawDateTime) : IntegerType.long.Value := .ofBits dateTime.dateData

def fromBinary (dateData : IntegerType.long.Value) : Except Exn RawDateTime :=
  if 3155378975999999999 < dateData.bits.toNat % 2 ^ 62 then
    .error (.argument ("The binary data must result in a DateTime with ticks between " ++
      "DateTime.MinValue.Ticks and DateTime.MaxValue.Ticks.") "dateData")
  else .ok { dateData := dateData.bits }

def newYear : RawDateTime := { dateData := BitVec.ofNat _ (2 ^ 62 + 637134336000000000) }

end RawDateTime

/-- The theorem on that day, from a big-endian machine to an x64 one. -/
theorem newYear_networkNumbers : ∃ bytes,
    (∀ out, writeNetworkDateTimeAsync { Host.x64 with isLittleEndian := false }
      RawDateTime.toBinary .newYear out = .ok () (out ++ bytes)) ∧
    ∀ win : Window, win.stream.Delivers win.memory.length bytes →
      ∃ win', StreamReadBuffer.new.readNetworkDateTimeAsync .x64 RawDateTime.fromBinary win =
        .ok .newYear win' :=
  (networkNumbers { Host.x64 with isLittleEndian := false } .x64).2 RawDateTime
    RawDateTime.toBinary RawDateTime.fromBinary .newYear (by rfl)

end Manafont.Packets.IO
