import Manafont.Library.Program
import Manafont.DotNet.Runtime

/-!
# A stream and the pieces it hands out

`Stream.ReadAsync(memory)` hands out a first piece of what is left: at least one
byte when there is room and a byte, never more than the room.  How long each
piece is, is up to the network: `cut k` is the most that call number `k` hands
out.  When nothing is left the call returns `0` on a `closed` stream and waits
for ever on an open one.

A stream that has been read on is `s.after n c`, with `n` bytes handed out by
`c` calls.  One call of `ReadAsync` does just that (`Stream.readAsync_of_rest`).
-/

namespace Manafont

structure Stream where
  /-- The bytes that have not been handed out. -/
  rest : List UInt8
  /-- How many bytes have been handed out. -/
  taken : Nat
  /-- How many times `ReadAsync` was called. -/
  calls : Nat
  /-- The most bytes each call hands out. -/
  cut : Nat → Nat
  /-- The peer sends no more after `rest`. -/
  closed : Bool

namespace Stream

/-- How many bytes the next call hands out into a memory of `room` bytes. -/
def handed (s : Stream) (room : Nat) : Nat := min (max 1 (s.cut s.calls)) (min room s.rest.length)

/-- The stream after `c` calls that handed out `n` bytes. -/
def after (s : Stream) (n c : Nat) : Stream :=
  { s with rest := s.rest.drop n, taken := s.taken + n, calls := s.calls + c }

def readAsync (room : Nat) : EStateM Halt Stream (List UInt8) := fun s =>
  if s.rest = [] ∧ 0 < room ∧ s.closed = false then .error .pending (s.after 0 1)
  else .ok (s.rest.take (s.handed room)) (s.after (s.handed room) 1)

/-- The stream fills every read as far as bytes remain. -/
def Greedy (s : Stream) : Prop := ∀ k, s.rest.length ≤ s.cut k

/-- The next call, into a memory of `room` bytes, hands out `bytes` and perhaps more. -/
def Delivers (s : Stream) (room : Nat) (bytes : List UInt8) : Prop :=
  bytes <+: s.rest ∧ bytes.length ≤ s.handed room

/-- A stream that holds `bytes` and hands them out as they are asked for. -/
def ofBytes (bytes : List UInt8) (closed : Bool) : Stream :=
  { rest := bytes, taken := 0, calls := 0, cut := fun _ => bytes.length, closed := closed }

/-- A stream that holds `bytes` and hands them out in the pieces of `cut`. -/
def ofPieces (bytes : List UInt8) (cut : Nat → Nat) (closed : Bool) : Stream :=
  { rest := bytes, taken := 0, calls := 0, cut := cut, closed := closed }

/-! ### Reading on -/

@[simp] theorem after_rest (s : Stream) (n c : Nat) : (s.after n c).rest = s.rest.drop n := rfl
@[simp] theorem after_taken (s : Stream) (n c : Nat) : (s.after n c).taken = s.taken + n := rfl
@[simp] theorem after_cut (s : Stream) (n c : Nat) : (s.after n c).cut = s.cut := rfl
@[simp] theorem after_closed (s : Stream) (n c : Nat) : (s.after n c).closed = s.closed := rfl

@[simp] theorem after_after (s : Stream) (n c n' c' : Nat) :
    (s.after n c).after n' c' = s.after (n + n') (c + c') := by
  simp only [after, List.drop_drop, Nat.add_assoc]

/-- `t` is `s` with some bytes handed out. -/
def ReadsTo (s t : Stream) : Prop := ∃ n c, n ≤ s.rest.length ∧ t = s.after n c

instance : Std.Refl ReadsTo where
  refl _ := ⟨0, 0, Nat.zero_le _, rfl⟩

instance : IsTrans Stream ReadsTo where
  trans := by
    rintro s t u ⟨n, c, hn, rfl⟩ ⟨n', c', hn', rfl⟩
    rw [after_rest, List.length_drop] at hn'
    exact ⟨n + n', c + c', by omega, after_after s n c n' c'⟩

theorem ReadsTo.taken_le {s t : Stream} (h : ReadsTo s t) : s.taken ≤ t.taken := by
  obtain ⟨n, c, -, rfl⟩ := h
  rw [after_taken]
  omega

theorem Greedy.after {s : Stream} (h : s.Greedy) (n c : Nat) : (s.after n c).Greedy := by
  intro k
  have := h k
  rw [after_rest, after_cut, List.length_drop]
  omega

theorem greedy_ofBytes (bytes : List UInt8) (closed : Bool) : (ofBytes bytes closed).Greedy :=
  fun _ => Nat.le_refl _

/-! ### One call -/

theorem handed_le_room (s : Stream) (room : Nat) : s.handed room ≤ room := by
  rw [handed]
  omega

theorem handed_le_rest (s : Stream) (room : Nat) : s.handed room ≤ s.rest.length := by
  rw [handed]
  omega

theorem handed_pos {s : Stream} {room : Nat} (hr : 0 < room) (hs : s.rest ≠ []) :
    0 < s.handed room := by
  have := List.length_pos_iff.mpr hs
  rw [handed]
  omega

theorem Greedy.handed {s : Stream} (h : s.Greedy) (room : Nat) :
    s.handed room = min room s.rest.length := by
  have := h s.calls
  rw [Stream.handed]
  omega

theorem Delivers.handed_eq {s : Stream} {bytes : List UInt8} (h : s.Delivers bytes.length bytes) :
    s.handed bytes.length = bytes.length :=
  Nat.le_antisymm (s.handed_le_room _) h.2

theorem delivers_ofBytes (bytes : List UInt8) (closed : Bool) :
    (ofBytes bytes closed).Delivers bytes.length bytes := by
  refine ⟨List.prefix_refl bytes, ?_⟩
  rw [(greedy_ofBytes bytes closed).handed]
  exact Nat.le_of_eq (Nat.min_self _).symm

theorem readAsync_of_rest {s : Stream} (room : Nat) (hs : s.rest ≠ []) :
    readAsync room s = .ok (s.rest.take (s.handed room)) (s.after (s.handed room) 1) := by
  rw [readAsync, if_neg (fun h => hs h.1)]

theorem readAsync_of_closed {s : Stream} {room : Nat} (hs : s.rest = []) (hc : s.closed = true) :
    readAsync room s = .ok [] (s.after 0 1) := by
  have h0 : s.handed room = 0 := by
    have := s.handed_le_rest room
    rw [hs] at this
    exact Nat.le_zero.mp this
  rw [readAsync, if_neg (by simp [hc]), h0, List.take_zero]

theorem readAsync_of_open {s : Stream} {room : Nat} (hr : 0 < room) (hs : s.rest = [])
    (hc : s.closed = false) : readAsync room s = .error .pending (s.after 0 1) := by
  rw [readAsync, if_pos ⟨hs, hr, hc⟩]

end Stream

end Manafont
