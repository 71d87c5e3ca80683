import Manafont.Packets.IO.PacketStreamExtensions

/-!
# What a block of text keeps

`WriteAnsiCStringAsync` and `ReadAnsiCStringAsync` with a block of any size.  A text that fits
in its block is read as ASCII and the trimming of NULs leave it, so it comes back exactly when
it is ASCII and does not end in a NUL.

From the other side: what was trimmed off a block is padded again, so only the bytes that are
not ASCII are lost (`ansiBlock_trimEndNul`).  A block comes back exactly when it has none.
-/

namespace Manafont.Packets.IO

/-! ### The block of a text that was read -/

/-- **The block of a trimmed text** is the block of the text. -/
theorem ansiBlock_trimEndNul {size : Nat} {text : DotNetString} (h : text.length = size) :
    ansiBlock size text.trimEndNul = asciiBytes text := by
  have hzeros : List.replicate (size - text.trimEndNul.length) 0 =
      asciiBytes (List.replicate (size - text.trimEndNul.length) 0) := by
    rw [asciiBytes, List.map_replicate]
    rfl
  rw [ansiBlock, hzeros, asciiBytes, asciiBytes, ← List.map_append, ← h,
    DotNetString.trimEndNul_append_replicate_self, asciiBytes]

theorem length_trimEndNul_asciiGetString_le (host : Host) (block : List UInt8) :
    (host.asciiGetString block).trimEndNul.length ≤ block.length := by
  have hle : (host.asciiGetString block).trimEndNul.length ≤
      (host.asciiGetString block).length := (List.rdropWhile_prefix _ _).length_le
  rwa [Host.asciiGetString, List.length_map] at hle

theorem ansiBlock_asciiGetString (host : Host) (block : List UInt8) :
    ansiBlock block.length (host.asciiGetString block).trimEndNul =
      asciiBytes (host.asciiGetString block) :=
  ansiBlock_trimEndNul (by rw [Host.asciiGetString, List.length_map])

/-! ### Both directions -/

/-- A block of `size` bytes as a codec of texts, read on `host`. -/
structure FixedBlock (host : Host) (size : Nat) : Prop where
  /-- A text is written exactly when it fits. -/
  writes : ∀ (text : DotNetString) out,
    (∃ out', writeAnsiCStringAsync (some text) size out = .ok () out') ↔ text.length ≤ size
  /-- What is written is one block, and it is read as the same text exactly when the text is
  ASCII and does not end in a NUL. -/
  reads_back : ∀ (text : DotNetString) out out',
    writeAnsiCStringAsync (some text) size out = .ok () out' →
      ∃ block, out' = out ++ block ∧ block.length = size ∧
        ∀ win : Window, win.stream.Delivers win.memory.length block →
          ∃ read win', StreamReadBuffer.new.readAnsiCStringAsync host size win = .ok read win' ∧
            (read = text ↔ text.IsAscii ∧ ¬ text.EndsInNul)
  /-- What is read from a block is written as the same block exactly when its bytes are ASCII. -/
  writes_back : ∀ block : List UInt8, block.length = size →
    ∀ win : Window, win.stream.Delivers win.memory.length block →
      ∃ read win' block', StreamReadBuffer.new.readAnsiCStringAsync host size win = .ok read win' ∧
        (∀ out, writeAnsiCStringAsync (some read) size out = .ok () (out ++ block')) ∧
        (block' = block ↔ ∀ b ∈ block, b < 0x80)

/-- **A block of any size is such a codec**, on every host. -/
theorem fixedBlock (host : Host) (size : Nat) : FixedBlock host size where
  writes text out := by
    constructor
    · rintro ⟨out', hwrite⟩
      exact (writeAnsiCStringAsync_eq_ok_iff.mp hwrite).1
    · intro hfits
      exact ⟨_, writeAnsiCStringAsync_eq_ok_iff.mpr ⟨hfits, rfl⟩⟩
  reads_back text out out' hwrite := by
    obtain ⟨hfits, hout⟩ := writeAnsiCStringAsync_eq_ok_iff.mp hwrite
    have hlen : (ansiBlock size text).length = size := length_ansiBlock hfits
    refine ⟨ansiBlock size text, hout, hlen, fun win hwin => ?_⟩
    obtain ⟨win', hread⟩ := StreamReadBuffer.readAnsiCStringAsync_of_delivers host hwin
    rw [hlen, ansiBlock, trimEndNul_asciiGetString] at hread
    exact ⟨_, win', hread, DotNetString.trimEndNul_toAscii_eq_self_iff⟩
  writes_back block hlen win hwin := by
    subst hlen
    obtain ⟨win', hread⟩ := StreamReadBuffer.readAnsiCStringAsync_of_delivers host hwin
    refine ⟨_, win', asciiBytes (host.asciiGetString block), hread, fun out => ?_,
      asciiBytes_asciiGetString_eq_self_iff host⟩
    refine writeAnsiCStringAsync_eq_ok_iff.mpr
      ⟨length_trimEndNul_asciiGetString_le host block, ?_⟩
    exact congrArg (out ++ ·) (ansiBlock_asciiGetString host block).symm

/-- The theorem on `ab` in a block of four bytes. -/
theorem ab_fixedBlock : ∃ block, writeAnsiCStringAsync (some [0x61, 0x62]) 4 [] = .ok () block ∧
    ∃ win', StreamReadBuffer.new.readAnsiCStringAsync .x64 4
      { memory := List.replicate 4 0, stream := .ofBytes block true } = .ok [0x61, 0x62] win' := by
  have hcodec := fixedBlock .x64 4
  obtain ⟨out, hwrite⟩ := (hcodec.writes [0x61, 0x62] []).mpr (by decide)
  obtain ⟨block, hout, hlen, hread⟩ := hcodec.reads_back [0x61, 0x62] [] out hwrite
  rw [hout, List.nil_append] at hwrite
  have hdelivers : (Stream.ofBytes block true).Delivers (List.replicate 4 (0 : UInt8)).length
      block := by
    rw [List.length_replicate, ← hlen]
    exact Stream.delivers_ofBytes block true
  obtain ⟨text, win', hok, htext⟩ :=
    hread { memory := List.replicate 4 0, stream := .ofBytes block true } hdelivers
  have hsame : text = [0x61, 0x62] :=
    htext.mpr ⟨by simp [DotNetString.IsAscii], by simp [DotNetString.EndsInNul]⟩
  rw [hsame] at hok
  exact ⟨block, hwrite, win', hok⟩

end Manafont.Packets.IO
