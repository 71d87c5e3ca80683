import Manafont.Packets.IO.PacketStreamExtensions

/-!
# What a reader of fields asks of its buffer

`ReadFieldsAsync` and the extension methods it calls use a `StreamReadBuffer` through four
operations: `EnsureAsync`, `ReadAsync`, and looking at a slice of memory or reversing it.
A `PacketBuffer` is any buffer that has them, and the extension methods are written here
for any such buffer; on a `StreamReadBuffer` they are its own
(`readNetworkNumberAsync_toPacketBuffer`, `readAnsiCStringAsync_toPacketBuffer`).

`InOrder` says that a buffer hands out the bytes it holds one after another.  A
`StreamReadBuffer` does not do so, as each read of it starts over; `cursorBuffer`, which
keeps its position, does.
-/

namespace Manafont.Packets.IO

open Program

structure PacketBuffer (σ : Type) where
  ensureAsync : Nat → EStateM Halt σ Bool
  readAsync : Nat → EStateM Halt σ Slice
  span : Slice → EStateM Halt σ (List UInt8)
  reverse : Slice → EStateM Halt σ Unit

namespace PacketBuffer

variable {σ : Type} (host : Host)

def readNetworkNumberAsync (w : Nat) (buffer : PacketBuffer σ) :
    EStateM Halt σ (BitVec (8 * w)) := do
  let bytes ← buffer.readAsync w
  if host.isLittleEndian then buffer.reverse bytes
  let span ← buffer.span bytes
  return host.readUnaligned w span

def readAnsiCStringAsync (stringBlockSize : Nat) (buffer : PacketBuffer σ) :
    EStateM Halt σ DotNetString := do
  let memory ← buffer.readAsync stringBlockSize
  let span ← buffer.span memory
  return (host.asciiGetString span).trimEndNul

end PacketBuffer

def StreamReadBuffer.toPacketBuffer (self : StreamReadBuffer) : PacketBuffer Window where
  ensureAsync := self.ensureAsync
  readAsync := self.readAsync
  span := Slice.span
  reverse := Slice.reverse

theorem readNetworkNumberAsync_toPacketBuffer (host : Host) (w : Nat) (self : StreamReadBuffer) :
    self.toPacketBuffer.readNetworkNumberAsync host w = self.readNetworkNumberAsync host w := rfl

theorem readAnsiCStringAsync_toPacketBuffer (host : Host) (n : Nat) (self : StreamReadBuffer) :
    self.toPacketBuffer.readAnsiCStringAsync host n = self.readAnsiCStringAsync host n := rfl

/-! ### Bytes in order -/

section InOrder

variable {σ : Type}

/-- The buffer hands out in order the bytes that a state `holds`: a read of some of them
gives a slice that shows these, or shows them reversed once it has been reversed, and
leaves the others. -/
structure InOrder (buffer : PacketBuffer σ) (holds : σ → List UInt8 → Prop) : Prop where
  ensure : ∀ s bytes count, holds s bytes →
    ∃ enough s', buffer.ensureAsync count s = .ok enough s' ∧ holds s' bytes
  read : ∀ s bytes rest, holds s (bytes ++ rest) →
    ∃ slice s', buffer.readAsync bytes.length s = .ok slice s' ∧ holds s' rest ∧
      buffer.span slice s' = .ok bytes s' ∧
      ∃ s'', buffer.reverse slice s' = .ok () s'' ∧ holds s'' rest ∧
        buffer.span slice s'' = .ok bytes.reverse s''

namespace InOrder

variable {buffer : PacketBuffer σ} {holds : σ → List UInt8 → Prop} {s : σ} {rest : List UInt8}

theorem readNetworkNumberAsync (h : InOrder buffer holds) (host : Host) {w : Nat}
    {v : BitVec (8 * w)} (hs : holds s (networkBytes w v ++ rest)) :
    ∃ s', buffer.readNetworkNumberAsync host w s = .ok v s' ∧ holds s' rest := by
  obtain ⟨slice, s', hread, hs', hspan, s'', hreverse, hs'', hspan'⟩ := h.read s _ rest hs
  rw [length_networkBytes] at hread
  rw [PacketBuffer.readNetworkNumberAsync, bind_of_ok hread]
  have hv : BitVec.ofNat (8 * w) (Positional.value (networkBytes w v).reverse) = v :=
    ofNetworkBytes_networkBytes w v
  cases he : host.isLittleEndian with
  | true =>
    refine ⟨s'', ?_, hs''⟩
    simp only [if_true]
    rw [bind_of_ok hreverse, bind_of_ok hspan']
    simp only [Host.readUnaligned, he, if_true, hv]
    rfl
  | false =>
    refine ⟨s', ?_, hs'⟩
    simp only [Bool.false_eq_true, if_false]
    rw [bind_of_ok hspan]
    simp only [Host.readUnaligned, he, Bool.false_eq_true, if_false, hv]
    rfl

theorem readAnsiCStringAsync (h : InOrder buffer holds) (host : Host) {block : List UInt8}
    (hs : holds s (block ++ rest)) :
    ∃ s', buffer.readAnsiCStringAsync host block.length s =
      .ok (host.asciiGetString block).trimEndNul s' ∧ holds s' rest := by
  obtain ⟨slice, s', hread, hs', hspan, -⟩ := h.read s block rest hs
  refine ⟨s', ?_, hs'⟩
  rw [PacketBuffer.readAnsiCStringAsync, bind_of_ok hread, bind_of_ok hspan]
  rfl

end InOrder

end InOrder

/-! ### A buffer that keeps its position -/

structure Cursor where
  memory : List UInt8
  offset : Nat

def cursorBuffer : PacketBuffer Cursor where
  ensureAsync count cursor := .ok (decide (count ≤ cursor.memory.length)) cursor
  readAsync count cursor :=
    if cursor.offset + count ≤ cursor.memory.length then
      .ok { start := cursor.offset, count := count } { cursor with offset := cursor.offset + count }
    else .error (.thrown .endOfStream) cursor
  span slice cursor := .ok ((cursor.memory.drop slice.start).take slice.count) cursor
  reverse slice cursor := .ok () { cursor with
    memory := cursor.memory.take slice.start ++
      ((cursor.memory.drop slice.start).take slice.count).reverse ++
      cursor.memory.drop (slice.start + slice.count) }

def Cursor.Holds (cursor : Cursor) (bytes : List UInt8) : Prop :=
  cursor.offset ≤ cursor.memory.length ∧ cursor.memory.drop cursor.offset = bytes

theorem cursorBuffer_inOrder : InOrder cursorBuffer Cursor.Holds where
  ensure cursor bytes count h := ⟨_, cursor, rfl, h⟩
  read := by
    rintro ⟨memory, offset⟩ bytes rest ⟨hle, hdrop⟩
    obtain ⟨before, rfl, rfl⟩ : ∃ before, memory = before ++ (bytes ++ rest) ∧
        offset = before.length := by
      refine ⟨memory.take offset, ?_, ?_⟩
      · rw [← hdrop, List.take_append_drop]
      · rw [List.length_take, Nat.min_eq_left hle]
    have hfits : before.length + bytes.length ≤ (before ++ (bytes ++ rest)).length := by
      simp only [List.length_append]
      omega
    have hrest : ∀ middle : List UInt8, middle.length = bytes.length →
        (before ++ (middle ++ rest)).drop (before.length + bytes.length) = rest := by
      intro middle hlen
      rw [← hlen, ← List.length_append, ← List.append_assoc, List.drop_left]
    have hshown : ∀ middle : List UInt8, middle.length = bytes.length →
        ((before ++ (middle ++ rest)).drop before.length).take bytes.length = middle := by
      intro middle hlen
      rw [List.drop_left, ← hlen, List.take_left]
    let after : Cursor :=
      { memory := before ++ (bytes ++ rest), offset := before.length + bytes.length }
    let reversed : Cursor :=
      { memory := before ++ (bytes.reverse ++ rest), offset := before.length + bytes.length }
    refine ⟨{ start := before.length, count := bytes.length }, after, if_pos hfits,
      ⟨hfits, hrest bytes rfl⟩, ?_, reversed, ?_, ⟨?_, hrest _ List.length_reverse⟩, ?_⟩
    · exact congrArg (EStateM.Result.ok · after) (hshown bytes rfl)
    · show EStateM.Result.ok () _ = .ok () reversed
      simp only [after, reversed, hshown bytes rfl, hrest bytes rfl, List.take_left,
        List.append_assoc]
    · simp only [reversed, List.length_append, List.length_reverse]
      omega
    · exact congrArg (EStateM.Result.ok · reversed) (hshown _ List.length_reverse)

end Manafont.Packets.IO
