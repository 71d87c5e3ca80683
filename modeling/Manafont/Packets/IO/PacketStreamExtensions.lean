import Manafont.Packets.IO.StreamReadBuffer

/-!
# `PacketStreamExtensions`

`Manafont.Packets.IO/PacketStreamExtensions.cs`: integers and fixed blocks of
text on a stream.  The extension methods take a `StreamReadBuffer` by value, as
its own methods do.

`networkBytes` and `ofNetworkBytes` are the big-endian form of an integer of `w`
bytes, signed or not.  On every host the code writes the one
(`writeNetworkNumberAsync_eq`) and reads the other.
-/

namespace Manafont.Packets.IO

open Program

/-- Writing to a stream: the state is what the stream has been given. -/
abbrev WriteIo := EStateM Exn (List UInt8)

def writeAsync (bytes : List UInt8) : WriteIo Unit := modify (· ++ bytes)

/-- Read from a stream through a buffer over `memory`. -/
def withMemory {α : Type} (memory : List UInt8) (m : BufferIo α) : EStateM Halt Stream α :=
  within (fun s => { memory := memory, stream := s }) (fun _ w => w.stream) m

section Numbers

variable (host : Host) (w : Nat)

def StreamReadBuffer.readNetworkNumberAsync (runningBuffer : StreamReadBuffer) :
    BufferIo (BitVec (8 * w)) := do
  let bytes ← runningBuffer.readAsync w
  if host.isLittleEndian then bytes.reverse
  let span ← bytes.span
  return host.readUnaligned w span

def readNetworkNumberAsync : EStateM Halt Stream (BitVec (8 * w)) :=
  withMemory (List.replicate w 0) (StreamReadBuffer.new.readNetworkNumberAsync host w)

def writeNetworkNumberAsync (t : BitVec (8 * w)) : WriteIo Unit :=
  let bytes := host.writeUnaligned w t
  writeAsync (if host.isLittleEndian then bytes.reverse else bytes)

end Numbers

def StreamReadBuffer.readAnsiCStringAsync (host : Host) (buffer : StreamReadBuffer)
    (stringBlockSize : Nat) : BufferIo DotNetString := do
  let memory ← buffer.readAsync stringBlockSize
  let span ← memory.span
  return (host.asciiGetString span).trimEndNul

def writeAnsiCStringAsync (value : Option DotNetString) (stringBlockSize : Nat) : WriteIo Unit :=
  match asciiGetBytes value stringBlockSize with
  | .ok memory => writeAsync memory
  | .error e => throw e

/-! ### Blocks of text -/

def ansiBlock (size : Nat) (text : DotNetString) : List UInt8 :=
  asciiBytes text ++ List.replicate (size - text.length) 0

theorem length_ansiBlock {size : Nat} {text : DotNetString} (h : text.length ≤ size) :
    (ansiBlock size text).length = size := by
  rw [ansiBlock, List.length_append, asciiBytes, List.length_map, List.length_replicate]
  omega

theorem writeAnsiCStringAsync_of_le {value : Option DotNetString} {size : Nat}
    (h : (value.getD []).length ≤ size) (out : List UInt8) :
    writeAnsiCStringAsync value size out = .ok () (out ++ ansiBlock size (value.getD [])) := by
  have hbytes : asciiGetBytes value size = .ok (ansiBlock size (value.getD [])) :=
    if_neg (Nat.not_lt.mpr h)
  rw [writeAnsiCStringAsync, hbytes]
  rfl

theorem writeAnsiCStringAsync_of_lt {value : Option DotNetString} {size : Nat}
    (h : size < (value.getD []).length) (out : List UInt8) :
    writeAnsiCStringAsync value size out = .error (.argument
      "The output byte buffer is too small to contain the encoded data" "bytes") out := by
  have hbytes : asciiGetBytes value size = .error (.argument
      "The output byte buffer is too small to contain the encoded data" "bytes") := if_pos h
  rw [writeAnsiCStringAsync, hbytes]
  rfl

theorem writeAnsiCStringAsync_eq_ok_iff {value : Option DotNetString} {size : Nat}
    {out out' : List UInt8} : writeAnsiCStringAsync value size out = .ok () out' ↔
      (value.getD []).length ≤ size ∧ out' = out ++ ansiBlock size (value.getD []) := by
  by_cases hfits : (value.getD []).length ≤ size
  · rw [writeAnsiCStringAsync_of_le hfits]
    constructor
    · intro h
      cases h
      exact ⟨hfits, rfl⟩
    · rintro ⟨-, rfl⟩
      rfl
  · rw [writeAnsiCStringAsync_of_lt (Nat.not_le.mp hfits)]
    constructor
    · intro h
      cases h
    · rintro ⟨hle, -⟩
      exact absurd hle hfits

/-! ### Big-endian integers -/

/-- The bytes of an integer, highest first. -/
def networkBytes (w : Nat) (v : BitVec (8 * w)) : List UInt8 :=
  (Positional.lowFirst w v.toNat).reverse

/-- The integer with the given bytes, highest first. -/
def ofNetworkBytes (w : Nat) (bytes : List UInt8) : BitVec (8 * w) :=
  BitVec.ofNat (8 * w) (Positional.value bytes.reverse)

@[simp] theorem length_networkBytes (w : Nat) (v : BitVec (8 * w)) :
    (networkBytes w v).length = w := by
  rw [networkBytes, List.length_reverse, Positional.lowFirst_length]

theorem ofNetworkBytes_networkBytes (w : Nat) (v : BitVec (8 * w)) :
    ofNetworkBytes w (networkBytes w v) = v := by
  have hv : v.toNat % 256 ^ w = v.toNat := by
    apply Nat.mod_eq_of_lt
    have h := v.isLt
    rwa [Nat.pow_mul] at h
  rw [ofNetworkBytes, networkBytes, List.reverse_reverse, Positional.value_lowFirst, hv,
    BitVec.ofNat_toNat, BitVec.setWidth_eq]

theorem toNat_ofNetworkBytes {w : Nat} {bytes : List UInt8} (h : bytes.length = w) :
    (ofNetworkBytes w bytes).toNat = Positional.value bytes.reverse := by
  have hlt := Positional.value_lt bytes.reverse
  rw [List.length_reverse, h, show (256 : Nat) = 2 ^ 8 from rfl, ← Nat.pow_mul] at hlt
  rw [ofNetworkBytes, BitVec.toNat_ofNat, Nat.mod_eq_of_lt hlt]

theorem ofNetworkBytes_injective {w : Nat} {bs cs : List UInt8} (hb : bs.length = w)
    (hc : cs.length = w) (h : ofNetworkBytes w bs = ofNetworkBytes w cs) : bs = cs := by
  have hv := congrArg BitVec.toNat h
  rw [toNat_ofNetworkBytes hb, toNat_ofNetworkBytes hc] at hv
  exact List.reverse_injective (Positional.value_injective
    (by rw [List.length_reverse, List.length_reverse, hb, hc]) hv)

theorem networkBytes_ofNetworkBytes {w : Nat} {bytes : List UInt8} (h : bytes.length = w) :
    networkBytes w (ofNetworkBytes w bytes) = bytes :=
  ofNetworkBytes_injective (length_networkBytes w _) h (ofNetworkBytes_networkBytes w _)

/-- **Every host writes the big-endian bytes.** -/
theorem writeNetworkNumberAsync_eq (host : Host) (w : Nat) (v : BitVec (8 * w)) :
    writeNetworkNumberAsync host w v = writeAsync (networkBytes w v) := by
  rw [writeNetworkNumberAsync, networkBytes]
  cases h : host.isLittleEndian with
  | true => simp only [Host.writeUnaligned, h, if_true]
  | false => simp only [Host.writeUnaligned, h, Bool.false_eq_true, if_false]

/-! ### Reading a number -/

theorem span_front (count : Nat) (win : Window) :
    (Slice.mk 0 count).span win = .ok (win.memory.take count) win := rfl

theorem reverse_front (count : Nat) (win : Window) :
    (Slice.mk 0 count).reverse win =
      .ok () { win with memory := (win.memory.take count).reverse ++ win.memory.drop count } := by
  show EStateM.Result.ok () _ = _
  simp

namespace StreamReadBuffer

/-- **A number whose bytes have come is big-endian on every host.**  Its bytes may be
left reversed in the memory. -/
theorem readNetworkNumberAsync_of_ok (host : Host) {w : Nat} {self : StreamReadBuffer}
    {win win' : Window} (h : self.readAsync w win = .ok { start := 0, count := w } win')
    (hl : w ≤ win'.memory.length) :
    ∃ memory, memory.length = win'.memory.length ∧
      self.readNetworkNumberAsync host w win =
        .ok (ofNetworkBytes w (win'.memory.take w)) { win' with memory := memory } := by
  rw [readNetworkNumberAsync, bind_of_ok h]
  cases he : host.isLittleEndian with
  | true =>
    refine ⟨(win'.memory.take w).reverse ++ win'.memory.drop w, ?_, ?_⟩
    · simp only [List.length_append, List.length_reverse, List.length_take, List.length_drop]
      omega
    · have ht : (win'.memory.take w).length = w := by
        rw [List.length_take, Nat.min_eq_left hl]
      simp only [if_true]
      rw [bind_of_ok (reverse_front w win'), bind_of_ok (span_front w _)]
      simp only [Host.readUnaligned, he, if_true]
      rw [List.take_append_of_le_length (by rw [List.length_reverse, ht]),
        List.take_of_length_le (by rw [List.length_reverse, ht])]
      rfl
  | false =>
    refine ⟨win'.memory, rfl, ?_⟩
    simp only [Bool.false_eq_true, if_false]
    rw [bind_of_ok (span_front w win')]
    simp only [Host.readUnaligned, he, Bool.false_eq_true, if_false]
    rfl

theorem readNetworkNumberAsync_of_handed (host : Host) {w : Nat} (win : Window) (hw : 0 < w)
    (hh : w ≤ win.stream.handed win.memory.length) :
    ∃ memory, memory.length = win.memory.length ∧
      new.readNetworkNumberAsync host w win = .ok (ofNetworkBytes w (win.stream.rest.take w)) {
        memory := memory
        stream := win.stream.after (win.stream.handed win.memory.length) 1 } := by
  have hl := win.stream.handed_le_rest win.memory.length
  have hr := win.stream.handed_le_room win.memory.length
  obtain ⟨memory, hlen, he⟩ := readNetworkNumberAsync_of_ok host (new_readAsync_of_handed hw hh)
    (by simp only [List.length_append, List.length_take, List.length_drop]; omega)
  refine ⟨memory, ?_, ?_⟩
  · simp only [hlen, List.length_append, List.length_take, List.length_drop]
    omega
  · rw [he, List.take_append_of_le_length (by rw [List.length_take]; omega), List.take_take,
      Nat.min_eq_left hh]

theorem readNetworkNumberAsync_of_error (host : Host) {w : Nat} {self : StreamReadBuffer}
    {win win' : Window} {e : Halt} (h : self.readAsync w win = .error e win') :
    self.readNetworkNumberAsync host w win = .error e win' := by
  rw [readNetworkNumberAsync, bind_of_error h]

theorem moves_span (slice : Slice) : Moves Window.ReadsTo slice.span :=
  Moves.get.bind fun _ => Moves.pure _

theorem moves_reverse (slice : Slice) : Moves Window.ReadsTo slice.reverse := by
  intro win
  refine ⟨Std.Refl.refl win.stream, ?_⟩
  show (win.memory.take slice.start ++ _ ++ win.memory.drop _).length = win.memory.length
  simp only [List.length_append, List.length_reverse, List.length_take, List.length_drop]
  omega

theorem moves_readNetworkNumberAsync (host : Host) (w : Nat) (self : StreamReadBuffer) :
    Moves Window.ReadsTo (self.readNetworkNumberAsync host w) := by
  refine (self.moves_readAsync w).bind fun slice => ?_
  have hspan : Moves Window.ReadsTo (do
      let span ← slice.span
      return host.readUnaligned w span : BufferIo (BitVec (8 * w))) :=
    (moves_span slice).bind fun _ => Moves.pure _
  cases host.isLittleEndian with
  | true => exact (moves_reverse slice).bind fun _ => hspan
  | false => exact hspan

theorem moves_readAnsiCStringAsync (host : Host) (self : StreamReadBuffer) (n : Nat) :
    Moves Window.ReadsTo (self.readAnsiCStringAsync host n) :=
  (self.moves_readAsync n).bind fun slice => (moves_span slice).bind fun _ => Moves.pure _

theorem readAnsiCStringAsync_of_error (host : Host) {self : StreamReadBuffer} {n : Nat}
    {win win' : Window} {e : Halt} (h : self.readAsync n win = .error e win') :
    self.readAnsiCStringAsync host n win = .error e win' := by
  rw [readAnsiCStringAsync, bind_of_error h]

theorem readAnsiCStringAsync_of_delivers (host : Host) {win : Window} {block : List UInt8}
    (h : win.stream.Delivers win.memory.length block) :
    ∃ win', new.readAnsiCStringAsync host block.length win =
      .ok (host.asciiGetString block).trimEndNul win' := by
  obtain ⟨win', hread, hblock, -⟩ := readAsync_of_delivers h
  refine ⟨win', ?_⟩
  rw [readAnsiCStringAsync, bind_of_ok hread, bind_of_ok (span_front _ _), hblock]
  rfl

end StreamReadBuffer

/-! ### A number straight from a stream -/

theorem readNetworkNumberAsync_of_handed (host : Host) {w : Nat} {s : Stream} (hw : 0 < w)
    (hh : s.handed w = w) :
    readNetworkNumberAsync host w s
      = .ok (ofNetworkBytes w (s.rest.take w)) (s.after w 1) := by
  have hmem : (List.replicate w (0 : UInt8)).length = w := List.length_replicate
  obtain ⟨memory, -, he⟩ := StreamReadBuffer.readNetworkNumberAsync_of_handed host
    { memory := List.replicate w 0, stream := s } hw (by rw [hmem, hh])
  rw [hmem, hh] at he
  rw [readNetworkNumberAsync, withMemory, within_of_ok he]

/-- **A stream with less than the number** is taken to its end. -/
theorem readNetworkNumberAsync_of_short (host : Host) {w : Nat} {s : Stream}
    (hs : s.rest.length < w) :
    ∃ c, readNetworkNumberAsync host w s
      = .error (StreamReadBuffer.shortfall s.closed) (s.after s.rest.length c) := by
  obtain ⟨memory, c, -, he⟩ := StreamReadBuffer.new_readAsync_of_short
    (w := { memory := List.replicate w 0, stream := s }) (Nat.le_of_eq List.length_replicate.symm)
    hs
  refine ⟨c, ?_⟩
  rw [readNetworkNumberAsync, withMemory,
    within_of_error (StreamReadBuffer.readNetworkNumberAsync_of_error host he)]

end Manafont.Packets.IO
