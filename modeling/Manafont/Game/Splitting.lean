import Manafont.Game.Program

/-!
# One sequence of bytes in different pieces

`ReadPacketAsync` on the same bytes, handed out in the pieces of one schedule or of
another.  A second pass of the loop in `EnsureAsync` writes over the bytes of the
first one, so an opcode that comes in two pieces is lost
(`readNetworkNumberAsync_of_split`): its second byte takes the place of the first,
and the byte behind it, or the zero of a fresh array, the place of the second.

That is seen on every sequence of two bytes or more but `[0, 0]`
(`splitIndependent_iff`).  With the opcode in the first piece a packet without fields
does not depend on the rest of the schedule (`readOutcome_of_first_piece`).
-/

namespace Manafont.Game

open Program Packets.IO

section Splitting

variable (host : Host) (pool : MemoryPool) (closed : Bool)

/-- How `ReadPacketAsync` ends on `bytes` in the pieces of `cut`, and how many bytes it took. -/
def readOutcome (bytes : List UInt8) (cut : Nat → Nat) :
    Except Halt (IPacket PacketType.Data) × Nat :=
  let run := (packetIo host).readPacketAsync host pool (.ofPieces bytes cut closed)
  (outcome run, (final run).taken)

/-- Two schedules give one outcome, and the opcode is always the first two bytes. -/
structure SplitIndependent (bytes : List UInt8) : Prop where
  one_outcome : ∀ cut cut',
    readOutcome host pool closed bytes cut = readOutcome host pool closed bytes cut'
  opcode_first : ∀ cut o s',
    readNetworkNumberAsync host 2 (.ofPieces bytes cut closed) = .ok o s' →
      o = ofNetworkBytes 2 (bytes.take 2)

end Splitting

/-! ### An opcode in two pieces -/

section Opcode

variable (host : Host) {s : Stream} {a b : UInt8} {tail : List UInt8}

/-- **An opcode whose first piece is one byte long.**  The second piece, of `m` bytes,
is written over it. -/
theorem readNetworkNumberAsync_of_split {m : Nat} (hrest : s.rest = a :: b :: tail)
    (hh : s.handed 2 = 1) (hm : (s.after 1 1).handed 2 = m) :
    readNetworkNumberAsync host 2 s =
      .ok (ofNetworkBytes 2 (((b :: tail).take m ++ [a, 0].drop m).take 2))
        (s.after (1 + m) 2) := by
  let w : Window := { memory := [0, 0], stream := s }
  let w₁ : Window := { memory := [a, 0], stream := s.after 1 1 }
  let w₂ : Window := { memory := (b :: tail).take m ++ [a, 0].drop m, stream := s.after (1 + m) 2 }
  have hrest₁ : (s.after 1 1).rest = b :: tail := by
    rw [Stream.after_rest, hrest]
    rfl
  have hm₀ : 0 < m := by
    rw [← hm]
    exact Stream.handed_pos (by omega) (by rw [hrest₁]; simp)
  have hm₁ : m ≤ 2 := by
    rw [← hm]
    exact Stream.handed_le_room _ _
  have hm₂ : m ≤ (b :: tail).length := by
    rw [← hm, ← hrest₁]
    exact Stream.handed_le_rest _ _
  have hpass₁ : StreamReadBuffer.ensureLoop 2 2 .new w =
      StreamReadBuffer.ensureLoop 2 1 { size := 1, offset := 0 } w₁ := by
    rw [StreamReadBuffer.ensureLoop_pass Nat.two_pos (w := w) Nat.two_pos (by simp [w, hrest])]
    simp only [w, w₁, List.length_cons, List.length_nil, Nat.zero_add, Nat.reduceAdd, hh, hrest,
      StreamReadBuffer.new]
    rfl
  have hpass₂ : StreamReadBuffer.ensureLoop 2 1 { size := 1, offset := 0 } w₁ =
      StreamReadBuffer.ensureLoop 2 0 { size := 1 + m, offset := 0 } w₂ := by
    rw [StreamReadBuffer.ensureLoop_pass Nat.one_lt_two (w := w₁) Nat.two_pos
      (by rw [hrest₁]; simp)]
    simp only [w₁, w₂, List.length_cons, List.length_nil, Nat.zero_add, Nat.reduceAdd, hm, hrest₁,
      Stream.after_after]
  have hread : StreamReadBuffer.new.readAsync 2 w = .ok { start := 0, count := 2 } w₂ := by
    have hg : (get : BufferIo Window) w = .ok w w := rfl
    have hensure : StreamReadBuffer.new.ensureAsync 2 w = .ok true w₂ := by
      rw [StreamReadBuffer.ensureAsync, bind_of_ok hg, if_neg (by simp [w]), hpass₁, hpass₂,
        StreamReadBuffer.ensureLoop_of_le (by simp only; omega)]
      rfl
    rw [StreamReadBuffer.readAsync]
    exact bind_of_ok hensure
  obtain ⟨memory, -, he⟩ := StreamReadBuffer.readNetworkNumberAsync_of_ok host hread (by
    simp only [w₂, List.length_append, List.length_take, List.length_drop, List.length_cons,
      List.length_nil] at hm₂ ⊢
    omega)
  rw [readNetworkNumberAsync, withMemory]
  exact within_of_ok he

/-- An opcode of one byte twice is nobody's. -/
theorem ofNetworkBytes_twice_ne (x : UInt8) (t : PacketType) :
    ofNetworkBytes 2 [x, x] ≠ opcodeOf t := by
  intro h
  have hv := congrArg BitVec.toNat h
  rw [toNat_ofNetworkBytes (by rfl)] at hv
  have h257 : Positional.value [x, x].reverse = 257 * x.toNat := by
    simp only [List.reverse_cons, List.reverse_nil, List.nil_append, List.cons_append,
      Positional.value_cons, Positional.value_nil]
    omega
  rw [h257] at hv
  cases t with
  | closingSession =>
    have hone : (opcodeOf .closingSession).toNat = 1 := rfl
    omega
  | auth =>
    have htwo : (opcodeOf .auth).toNat = 2 := rfl
    omega
  | sessionRevoked =>
    have hthree : (opcodeOf .sessionRevoked).toNat = 3 := rfl
    omega

end Opcode

/-! ### When the pieces do not matter -/

section Splitting

variable {host : Host} {pool : MemoryPool} {closed : Bool} {bytes : List UInt8}

theorem readOutcome_of_error {cut : Nat → Nat} {e : Halt} {s' : Stream}
    (h : readNetworkNumberAsync host 2 (.ofPieces bytes cut closed) = .error e s') :
    readOutcome host pool closed bytes cut = (.error e, s'.taken) := by
  simp only [readOutcome, readPacketAsync_of_error h, outcome_error, final_error]

theorem readOutcome_of_unregistered {cut : Nat → Nat} {o : Opcode} {s' : Stream}
    (h : readNetworkNumberAsync host 2 (.ofPieces bytes cut closed) = .ok o s')
    (ho : ∀ t, o ≠ opcodeOf t) :
    readOutcome host pool closed bytes cut = (.error (.thrown (.keyNotFound o)), s'.taken) := by
  simp only [readOutcome, readPacketAsync_of_unregistered h ho, outcome_error, final_error]

theorem readNetworkNumberAsync_of_first_piece (host : Host) (closed : Bool) {cut : Nat → Nat}
    (hb : 2 ≤ bytes.length) (hcut : 2 ≤ cut 0) :
    readNetworkNumberAsync host 2 (.ofPieces bytes cut closed) =
      .ok (ofNetworkBytes 2 (bytes.take 2)) ((Stream.ofPieces bytes cut closed).after 2 1) := by
  refine readNetworkNumberAsync_of_handed host (by omega) ?_
  show min (max 1 (cut 0)) (min 2 bytes.length) = 2
  omega

/-- **With the opcode in the first piece, a packet without fields does not depend on the
pieces**, and neither does an opcode that nobody registered. -/
theorem readOutcome_of_first_piece {cut cut' : Nat → Nat} (hb : 2 ≤ bytes.length)
    (ho : ofNetworkBytes 2 (bytes.take 2) ≠ opcodeOf .auth) (hcut : 2 ≤ cut 0)
    (hcut' : 2 ≤ cut' 0) :
    readOutcome host pool closed bytes cut = readOutcome host pool closed bytes cut' := by
  have h := readNetworkNumberAsync_of_first_piece host closed hb hcut
  have h' := readNetworkNumberAsync_of_first_piece host closed hb hcut'
  by_cases hreg : ∀ t, ofNetworkBytes 2 (bytes.take 2) ≠ opcodeOf t
  · rw [readOutcome_of_unregistered h hreg, readOutcome_of_unregistered h' hreg]
    rfl
  · obtain ⟨t, ht⟩ := not_forall.mp hreg
    rw [not_not] at ht
    have htype : t ≠ .auth := fun hauth => ho (hauth ▸ ht)
    rw [ht] at h h'
    simp only [readOutcome, readPacketAsync_of_fieldless htype h,
      readPacketAsync_of_fieldless htype h', outcome_ok, final_ok]
    rfl

theorem splitIndependent_of_short (hb : bytes.length ≤ 1) :
    SplitIndependent host pool closed bytes := by
  have hshort : ∀ cut, ∃ c, readNetworkNumberAsync host 2 (.ofPieces bytes cut closed) =
      .error (StreamReadBuffer.shortfall closed)
        ((Stream.ofPieces bytes cut closed).after bytes.length c) :=
    fun cut => readNetworkNumberAsync_of_short host (s := .ofPieces bytes cut closed)
      (Nat.lt_succ_of_le hb)
  constructor
  · intro cut cut'
    obtain ⟨c, h⟩ := hshort cut
    obtain ⟨c', h'⟩ := hshort cut'
    rw [readOutcome_of_error h, readOutcome_of_error h']
    rfl
  · intro cut o s' ho
    obtain ⟨c, h⟩ := hshort cut
    rw [h] at ho
    cases ho

/-- **Two zero bytes are one opcode in any pieces**: what is lost is a zero. -/
theorem splitIndependent_of_zeros : SplitIndependent host pool closed [0, 0] := by
  have hread : ∀ cut, ∃ c, readNetworkNumberAsync host 2 (.ofPieces [0, 0] cut closed) =
      .ok (ofNetworkBytes 2 [0, 0]) ((Stream.ofPieces [0, 0] cut closed).after 2 c) := by
    intro cut
    by_cases hcut : 2 ≤ cut 0
    · exact ⟨1, readNetworkNumberAsync_of_first_piece host closed Nat.le.refl hcut⟩
    · refine ⟨2, readNetworkNumberAsync_of_split host (m := 1) (a := 0) (b := 0) rfl ?_ ?_⟩
      · show min (max 1 (cut 0)) 2 = 1
        omega
      · show min (max 1 (cut 1)) (min 2 1) = 1
        omega
  constructor
  · intro cut cut'
    obtain ⟨c, h⟩ := hread cut
    obtain ⟨c', h'⟩ := hread cut'
    have hreg : ∀ t, ofNetworkBytes 2 [0, 0] ≠ opcodeOf t := ofNetworkBytes_twice_ne 0
    rw [readOutcome_of_unregistered h hreg, readOutcome_of_unregistered h' hreg]
    rfl
  · intro cut o s' ho
    obtain ⟨c, h⟩ := hread cut
    rw [h] at ho
    cases ho
    rfl

/-- One byte first, and then as many as fit: the first byte is lost. -/
def oneThenMore (k : Nat) : Nat := if k = 0 then 1 else 2

/-- **The same bytes in any pieces give one outcome exactly when there is no opcode, or
nothing but two zeros.** -/
theorem splitIndependent_iff (host : Host) (pool : MemoryPool) (closed : Bool)
    (bytes : List UInt8) :
    SplitIndependent host pool closed bytes ↔ bytes.length ≤ 1 ∨ bytes = [0, 0] := by
  constructor
  · intro h
    match bytes, h with
    | [], _ => exact Or.inl (by decide)
    | [a], _ => exact Or.inl (Nat.le_refl 1)
    | [a, b], h =>
      -- the second byte, and the zero of the fresh array
      have hsplit := readNetworkNumberAsync_of_split host (m := 1)
        (s := .ofPieces [a, b] (fun _ => 1) closed) rfl rfl rfl
      have heq := ofNetworkBytes_injective (w := 2) rfl rfl (h.opcode_first _ _ _ hsplit)
      obtain ⟨rfl, rfl⟩ : b = a ∧ (0 : UInt8) = b := by simpa using heq
      exact Or.inr rfl
    | a :: b :: c :: tail, h =>
      -- the second byte and the third, of which three were taken
      have hsplit := readNetworkNumberAsync_of_split host (m := 2)
        (s := .ofPieces (a :: b :: c :: tail) oneThenMore closed) rfl
        (by simp [Stream.handed, Stream.ofPieces, oneThenMore])
        (by simp [Stream.handed, Stream.ofPieces, Stream.after, oneThenMore])
      have heq := ofNetworkBytes_injective (w := 2) rfl rfl (h.opcode_first _ _ _ hsplit)
      obtain ⟨rfl, rfl⟩ : b = a ∧ c = b := by simpa using heq
      have hwhole : readNetworkNumberAsync host 2
          (.ofPieces (c :: c :: c :: tail) (fun _ => 2) closed) = _ :=
        readNetworkNumberAsync_of_first_piece host closed (by simp) Nat.le.refl
      have hone := h.one_outcome oneThenMore fun _ => 2
      rw [readOutcome_of_unregistered hsplit (ofNetworkBytes_twice_ne c),
        readOutcome_of_unregistered hwhole (ofNetworkBytes_twice_ne c)] at hone
      exact absurd (congrArg Prod.snd hone) (by simp [Stream.ofPieces])
  · rintro (hshort | rfl)
    · exact splitIndependent_of_short hshort
    · exact splitIndependent_of_zeros

end Splitting

/-- **A `SessionRevokedPacket` in two pieces is read as something else.** -/
theorem sessionRevoked_split :
    readOutcome .x64 .zeroed true [0, 3] (fun _ => 2) =
        (.ok { packetType := .sessionRevoked, packet := { packetOpcode := 3, data := default } },
          2) ∧
      readOutcome .x64 .zeroed true [0, 3] (fun _ => 1) =
        (.error (.thrown (.keyNotFound 0x300)), 2) ∧
      ¬ SplitIndependent .x64 .zeroed true [0, 3] := by
  have hwhole : readOutcome .x64 .zeroed true [0, 3] (fun _ => 2) =
      (.ok { packetType := .sessionRevoked, packet := { packetOpcode := 3, data := default } },
        2) := rfl
  have hsplit : readOutcome .x64 .zeroed true [0, 3] (fun _ => 1) =
      (.error (.thrown (.keyNotFound 0x300)), 2) := rfl
  refine ⟨hwhole, hsplit, fun h => ?_⟩
  have hone := h.one_outcome (fun _ => 2) fun _ => 1
  rw [hwhole, hsplit] at hone
  cases hone

end Manafont.Game
