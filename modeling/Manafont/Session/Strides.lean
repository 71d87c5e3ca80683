import Manafont.Session.AuthPacketCodec

/-!
# Where the reader of an `AuthPacket` looks for its fields

`ReadFieldsAsync` of `Manafont.Session/AuthPacketSerializer.cs` on a stream that fills every read as
far as bytes remain.

Each of its six steps works on a copy of the buffer that is empty, so each fills the whole memory
again and decodes the front of it.  With a memory of `m` bytes the token is looked for at byte
`m` and the four integers at the bytes `2m` to `5m`, and what lies between is dropped
(`readAsync_of_greedy`).  A packet as it is written, `0x38` bytes, is never read.
-/

namespace Manafont.Packets.IO

open Program

namespace StreamReadBuffer

/-! ### A memory filled again and again -/

/-- The window after `i` fills of its memory from `s`. -/
structure Filled (m i : Nat) (s : Stream) (win : Window) : Prop where
  length_memory : win.memory.length = m
  stream_eq : win.stream = s.after (min (i * m) s.rest.length) i

/-- A method that fills the memory once and decodes `count` bytes at the front of it. -/
def Decodes {α : Type} (count : Nat) (decode : List UInt8 → α) (method : BufferIo α) : Prop :=
  ∀ win : Window, count ≤ win.memory.length → win.stream.Greedy →
    (count ≤ win.stream.rest.length ∧ ∃ memory, memory.length = win.memory.length ∧
      method win = .ok (decode (win.stream.rest.take count)) {
        memory := memory
        stream := win.stream.after (min win.memory.length win.stream.rest.length) 1 }) ∨
    (win.stream.rest.length < count ∧ ∃ memory c, memory.length = win.memory.length ∧
      method win = .error (shortfall win.stream.closed) {
        memory := memory
        stream := win.stream.after win.stream.rest.length c })

theorem decodes_readNetworkNumberAsync (host : Host) {w : Nat} (hw : 0 < w) :
    Decodes w (ofNetworkBytes w) (new.readNetworkNumberAsync host w) := by
  intro win hm hgreedy
  by_cases h : w ≤ win.stream.rest.length
  · obtain ⟨memory, hlength, hread⟩ := readNetworkNumberAsync_of_handed host win hw
      (by rw [hgreedy.handed]; omega)
    rw [hgreedy.handed] at hread
    exact .inl ⟨h, memory, hlength, hread⟩
  · obtain ⟨memory, c, hlength, hread⟩ := new_readAsync_of_short hm (Nat.not_le.mp h)
    exact .inr ⟨Nat.not_le.mp h, memory, c, hlength, readNetworkNumberAsync_of_error host hread⟩

theorem decodes_readAnsiCStringAsync (host : Host) {n : Nat} (hn : 0 < n) :
    Decodes n (fun bytes => (host.asciiGetString bytes).trimEndNul)
      (new.readAnsiCStringAsync host n) := by
  intro win hm hgreedy
  by_cases h : n ≤ win.stream.rest.length
  · have hread := new_readAsync_of_handed (w := win) hn (by rw [hgreedy.handed]; omega)
    rw [hgreedy.handed] at hread
    refine .inl ⟨h, win.stream.rest.take (min win.memory.length win.stream.rest.length) ++
      win.memory.drop (min win.memory.length win.stream.rest.length), ?_, ?_⟩
    · rw [List.length_append, List.length_take, List.length_drop]
      omega
    · rw [readAnsiCStringAsync, bind_of_ok hread, bind_of_ok (span_front _ _),
        List.take_append_of_le_length (by rw [List.length_take]; omega), List.take_take,
        Nat.min_eq_left (by omega)]
      rfl
  · obtain ⟨memory, c, hlength, hread⟩ := new_readAsync_of_short hm (Nat.not_le.mp h)
    exact .inr ⟨Nat.not_le.mp h, memory, c, hlength, readAnsiCStringAsync_of_error host hread⟩

/-- **Field number `i` is decoded at byte `i * m`**, if the stream holds it. -/
theorem Decodes.at {α : Type} {count : Nat} {decode : List UInt8 → α} {method : BufferIo α}
    (h : Decodes count decode method) (hpos : 0 < count) {m i : Nat} {s : Stream} {win : Window}
    (hgreedy : s.Greedy) (hm : count ≤ m) (hwin : Filled m i s win) :
    (i * m + count ≤ s.rest.length ∧ ∃ win', Filled m (i + 1) s win' ∧
      method win = .ok (decode ((s.rest.drop (i * m)).take count)) win') ∨
    (s.rest.length < i * m + count ∧ ∃ memory c,
      method win = .error (shortfall s.closed)
        { memory := memory, stream := s.after s.rest.length c }) := by
  have hlength := hwin.length_memory
  have hnext : (i + 1) * m = i * m + m := Nat.succ_mul i m
  have hleft : win.stream.rest = s.rest.drop (min (i * m) s.rest.length) := by
    rw [hwin.stream_eq, Stream.after_rest]
  have hclosed : win.stream.closed = s.closed := by rw [hwin.stream_eq, Stream.after_closed]
  have hwin_greedy : win.stream.Greedy := by
    rw [hwin.stream_eq]
    exact hgreedy.after _ _
  have hleft_length : win.stream.rest.length = s.rest.length - min (i * m) s.rest.length := by
    rw [hleft, List.length_drop]
  rcases h win (by omega) hwin_greedy with
    ⟨hcount, memory, hmemory, hread⟩ | ⟨hcount, memory, c, -, hread⟩
  · have hmin : min (i * m) s.rest.length = i * m := by omega
    have hfilled : win.stream.after (min win.memory.length win.stream.rest.length) 1 =
        s.after (min ((i + 1) * m) s.rest.length) (i + 1) := by
      rw [hleft_length, hlength, hwin.stream_eq, Stream.after_after, hnext]
      congr 1
      omega
    have hdecode : decode (win.stream.rest.take count) =
        decode ((s.rest.drop (i * m)).take count) := by rw [hleft, hmin]
    rw [hdecode] at hread
    exact .inl ⟨by omega, _, { length_memory := hmemory.trans hlength, stream_eq := hfilled },
      hread⟩
  · refine .inr ⟨by omega, memory, i + c, ?_⟩
    rw [hread, hclosed, hleft_length, hwin.stream_eq, Stream.after_after]
    congr 3
    omega

end StreamReadBuffer

end Manafont.Packets.IO

namespace Manafont.Session

open Program Packets.IO StreamReadBuffer

namespace AuthPacketSerializer

/-! ### The six steps -/

section Steps

variable {host : Host} {pool : MemoryPool} {m : Nat} {s : Stream} {win : Window}

def numberAt (m : Nat) (s : Stream) (i : Nat) : BitVec (8 * 4) :=
  ofNetworkBytes 4 ((s.rest.drop (i * m)).take 4)

theorem ensureAsync_of_greedy (hm : 0x48 ≤ m) (hgreedy : s.Greedy) (hs : 0x48 ≤ s.rest.length)
    (hwin : Filled m 0 s win) :
    ∃ win', Filled m 1 s win' ∧ new.ensureAsync 0x48 win = .ok true win' := by
  have hlength := hwin.length_memory
  have hstream : win.stream = s := by
    rw [hwin.stream_eq, Nat.zero_mul, Nat.zero_min]
    rfl
  have hhanded : win.stream.handed win.memory.length = min m s.rest.length := by
    rw [hstream, hgreedy.handed, hlength]
  have hensure := @ensureAsync_of_handed .new 0x48 win (by decide) (by omega)
    (by rw [hhanded]; exact (Nat.zero_add _).symm ▸ Nat.le_min.mpr ⟨hm, hs⟩)
  refine ⟨_, { length_memory := ?_, stream_eq := ?_ }, hensure⟩
  · rw [hhanded, List.length_append, List.length_take, List.length_drop, hstream]
    omega
  · show win.stream.after _ 1 = _
    rw [hhanded, hstream, Nat.one_mul]

variable (host) in
/-- **The five fields, wherever the first that is missing is.** -/
theorem readRest_of_greedy (hm : 0x48 ≤ m) (hgreedy : s.Greedy) (hwin : Filled m 1 s win) :
    (s.rest.length < 5 * m + 4 ∧ ∃ memory c, (readRest host new.toPacketBuffer).run [default] win =
      .error (shortfall s.closed) { memory := memory, stream := s.after s.rest.length c }) ∨
    (5 * m + 4 ≤ s.rest.length ∧ ∃ pkt win', Filled m 6 s win' ∧
      (readRest host new.toPacketBuffer).run [default] win =
        (storeVersion (numberAt m s 2) (numberAt m s 3) (numberAt m s 4) (numberAt m s 5)).run
          pkt win') := by
  have htoken := decodes_readAnsiCStringAsync host (n := 0x28) (by decide)
  have hnumber := decodes_readNetworkNumberAsync host (w := 4) (by decide)
  have hfour : 4 ≤ m := Nat.le_trans (by decide) hm
  simp only [readRest, readAnsiCStringAsync_toPacketBuffer, readNetworkNumberAsync_toPacketBuffer]
  rcases htoken.at (by decide) hgreedy (Nat.le_trans (by decide) hm) hwin with
    ⟨-, w₂, hw₂, hread⟩ | ⟨hshort, memory, c, hread⟩
  swap
  · exact .inl ⟨by omega, memory, c, run_lift_bind_of_error hread⟩
  rw [run_lift_bind_of_ok hread, run_modify_bind]
  rcases hnumber.at (by decide) hgreedy hfour hw₂ with
    ⟨-, w₃, hw₃, hread⟩ | ⟨hshort, memory, c, hread⟩
  swap
  · exact .inl ⟨by omega, memory, c, run_lift_bind_of_error hread⟩
  rw [run_lift_bind_of_ok hread]
  rcases hnumber.at (by decide) hgreedy hfour hw₃ with
    ⟨-, w₄, hw₄, hread⟩ | ⟨hshort, memory, c, hread⟩
  swap
  · exact .inl ⟨by omega, memory, c, run_lift_bind_of_error hread⟩
  rw [run_lift_bind_of_ok hread]
  rcases hnumber.at (by decide) hgreedy hfour hw₄ with
    ⟨-, w₅, hw₅, hread⟩ | ⟨hshort, memory, c, hread⟩
  swap
  · exact .inl ⟨by omega, memory, c, run_lift_bind_of_error hread⟩
  rw [run_lift_bind_of_ok hread]
  rcases hnumber.at (by decide) hgreedy hfour hw₅ with
    ⟨hlast, w₆, hw₆, hread⟩ | ⟨hshort, memory, c, hread⟩
  swap
  · exact .inl ⟨hshort, memory, c, run_lift_bind_of_error hread⟩
  rw [run_lift_bind_of_ok hread]
  exact .inr ⟨hlast, _, w₆, hw₆, rfl⟩

end Steps

end AuthPacketSerializer

open AuthPacketSerializer

/-- **What the reader of an `AuthPacket` makes of a stream**: it needs the bytes of five memories
and four more, and the integers it looks at decide. -/
theorem readAsync_of_greedy (host : Host) (pool : MemoryPool) (s : Stream) (hgreedy : s.Greedy) :
    ∃ c, (authPacketSerializer host).readAsync pool s =
      if s.rest.length < 5 * (pool.rent 0x48).length + 4 then
        .error (shortfall s.closed) (s.after s.rest.length c)
      else
        match Version.new (numberAt (pool.rent 0x48).length s 2)
            (numberAt (pool.rent 0x48).length s 3) (numberAt (pool.rent 0x48).length s 4)
            (numberAt (pool.rent 0x48).length s 5) with
        | .ok _ => .ok default (s.after (min (6 * (pool.rent 0x48).length) s.rest.length) c)
        | .error e =>
          .error (.thrown e) (s.after (min (6 * (pool.rent 0x48).length) s.rest.length) c) := by
  have hm : 0x48 ≤ (pool.rent 0x48).length := pool.le_length_rent 0x48
  by_cases hs : s.rest.length < 0x48
  · obtain ⟨c, hread⟩ := readAsync_of_short host pool hs
    exact ⟨c, by rw [if_pos (by omega), hread]⟩
  generalize hlength : (pool.rent 0x48).length = m at hm ⊢
  have hstart : Filled m 0 s { memory := pool.rent 0x48, stream := s } := by
    refine ⟨hlength, ?_⟩
    rw [Nat.zero_mul, Nat.zero_min]
    rfl
  obtain ⟨w₁, hw₁, hensure⟩ := ensureAsync_of_greedy hm hgreedy (Nat.not_lt.mp hs) hstart
  have hfields : ((authPacketSerializer host).readFieldsAsync .new).run [default]
      { memory := pool.rent 0x48, stream := s } =
        (readRest host new.toPacketBuffer).run [default] w₁ := run_lift_bind_of_ok hensure
  rcases readRest_of_greedy host hm hgreedy hw₁ with
    ⟨hshort, memory, c, hrest⟩ | ⟨henough, pkt, w₆, hw₆, hrest⟩
  · exact ⟨c, by rw [if_pos hshort, PacketSerializer.readAsync_of_error (hfields.trans hrest)]⟩
  · refine ⟨6, ?_⟩
    rw [if_neg (Nat.not_lt.mpr henough), ← hw₆.stream_eq]
    rw [storeVersion] at hrest
    cases hversion : Version.new (numberAt m s 2) (numberAt m s 3) (numberAt m s 4)
        (numberAt m s 5) with
    | ok version =>
      rw [hversion] at hrest
      exact PacketSerializer.readAsync_of_ok (hfields.trans hrest)
    | error e =>
      rw [hversion] at hrest
      exact PacketSerializer.readAsync_of_error (hfields.trans hrest)

/-- The theorem on as many zeros as a memory of `0x48` bytes needs. -/
theorem zeros_readAsync :
    ∃ c, (authPacketSerializer .x64).readAsync .zeroed (.ofBytes (List.replicate 364 0) true) =
      .ok default ((Stream.ofBytes (List.replicate 364 0) true).after 364 c) := by
  obtain ⟨c, h⟩ := readAsync_of_greedy .x64 .zeroed (.ofBytes (List.replicate 364 0) true)
    (Stream.greedy_ofBytes _ _)
  have hrest : (Stream.ofBytes (List.replicate 364 0) true).rest = List.replicate 364 0 := rfl
  simp only [MemoryPool.zeroed, numberAt, hrest, List.length_replicate, List.drop_replicate,
    List.take_replicate] at h
  exact ⟨c, h.trans rfl⟩

end Manafont.Session
