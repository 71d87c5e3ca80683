import Manafont.DotNet.Stream

/-!
# `StreamReadBuffer`

`Manafont.Packets.IO/StreamReadBuffer.cs`.  The struct has two references,
`_memory` and `_stream`, and two counters.  What the references point to is the
`Window`, the state of every program here; a copy of the struct shares it.  The
counters are the value `StreamReadBuffer`.

`EnsureAsync` and `ReadAsync` are asynchronous methods of a struct, so each works
on a copy of `this` and the caller's variable keeps its counters.  Here each
takes `self` by value and returns its result alone: nothing a method does to
`Size` or `Offset` is seen by anyone else.  Two things follow:

* every read starts over, at the first byte of the memory and with the next
  bytes of the stream (`readAsync_of_handed`);
* a pass of the loop in `EnsureAsync` stores its piece at the front of the
  memory, over the piece of the pass before (`ensureLoop_pass`).

Whether a call returns depends on how many bytes are left and not on the pieces
they come in: `readAsync_of_enough` and `readAsync_of_short`.  What it shows and
how much it takes do depend on the pieces.
-/

namespace Manafont.Packets.IO

open Program

/-- What the references `_memory` and `_stream` of a buffer point to. -/
structure Window where
  memory : List UInt8
  stream : Stream

abbrev BufferIo := EStateM Halt Window

/-- The counters of the struct. -/
structure StreamReadBuffer where
  size : Nat
  offset : Nat
  deriving DecidableEq, Repr

/-- A `Memory<byte>` cut out of `_memory`. -/
structure Slice where
  start : Nat
  count : Nat
  deriving DecidableEq, Repr

/-- `w'` is `w` with the stream read on, in a memory of the same length. -/
def Window.ReadsTo (w w' : Window) : Prop :=
  w.stream.ReadsTo w'.stream ∧ w'.memory.length = w.memory.length

instance : Std.Refl Window.ReadsTo where
  refl w := ⟨Std.Refl.refl w.stream, rfl⟩

instance : IsTrans Window Window.ReadsTo where
  trans _ _ _ h h' := ⟨IsTrans.trans _ _ _ h.1 h'.1, h'.2.trans h.2⟩

/-- `slice.Span`, as the bytes it shows now. -/
def Slice.span (slice : Slice) : BufferIo (List UInt8) := do
  let w ← get
  return (w.memory.drop slice.start).take slice.count

/-- `slice.Span.Reverse()`, in the memory itself. -/
def Slice.reverse (slice : Slice) : BufferIo Unit :=
  modify fun w =>
    let before := w.memory.take slice.start
    let bytes := (w.memory.drop slice.start).take slice.count
    { w with memory := before ++ bytes.reverse ++ w.memory.drop (slice.start + slice.count) }

namespace StreamReadBuffer

def new : StreamReadBuffer := { size := 0, offset := 0 }

/-- `_stream.ReadAsync(_memory)`: the piece goes to the front of the memory. -/
def fillMemory : BufferIo Nat := fun w =>
  match Stream.readAsync w.memory.length w.stream with
  | .ok piece s =>
    .ok piece.length { memory := piece ++ w.memory.drop piece.length, stream := s }
  | .error e s => .error e { w with stream := s }

/-- The `while` loop of `EnsureAsync`.  A pass that does not leave the loop adds to
`Size`, so `count` passes are enough (`ensureLoop_enough`). -/
def ensureLoop (count : Nat) : Nat → StreamReadBuffer → BufferIo Bool
  | 0, self => pure (decide (count ≤ self.size))
  | passes + 1, self =>
    if self.size < count then do
      let numRead ← fillMemory
      let self := { self with size := self.size + numRead }
      if numRead = 0 ∧ self.size < count then pure false else ensureLoop count passes self
    else pure true

def ensureAsync (self : StreamReadBuffer) (count : Nat) : BufferIo Bool := do
  let w ← get
  if w.memory.length < count then
    throw (.thrown (.argument "Cannot request more data than the buffer can store" "count"))
  else ensureLoop count count self

def readAsync (self : StreamReadBuffer) (count : Nat) : BufferIo Slice := do
  let enough ← self.ensureAsync (self.offset + count)
  if enough then
    let self := { self with offset := self.offset + count }
    pure { start := self.offset - count, count := count }
  else throw (.thrown .endOfStream)

/-! ### The loop -/

theorem fillMemory_of_rest {w : Window} (hs : w.stream.rest ≠ []) :
    fillMemory w = .ok (w.stream.handed w.memory.length)
      { memory := w.stream.rest.take (w.stream.handed w.memory.length)
          ++ w.memory.drop (w.stream.handed w.memory.length)
        stream := w.stream.after (w.stream.handed w.memory.length) 1 } := by
  have hl : (w.stream.rest.take (w.stream.handed w.memory.length)).length
      = w.stream.handed w.memory.length := by
    rw [List.length_take, Nat.min_eq_left (w.stream.handed_le_rest _)]
  rw [fillMemory, Stream.readAsync_of_rest _ hs]
  simp only [hl]

theorem fillMemory_of_closed {w : Window} (hs : w.stream.rest = [])
    (hc : w.stream.closed = true) :
    fillMemory w = .ok 0 { w with stream := w.stream.after 0 1 } := by
  rw [fillMemory, Stream.readAsync_of_closed hs hc]
  rfl

theorem fillMemory_of_open {w : Window} (hm : 0 < w.memory.length) (hs : w.stream.rest = [])
    (hc : w.stream.closed = false) :
    fillMemory w = .error .pending { w with stream := w.stream.after 0 1 } := by
  rw [fillMemory, Stream.readAsync_of_open hm hs hc]

theorem ensureLoop_of_le {count passes : Nat} {self : StreamReadBuffer}
    (h : count ≤ self.size) : ensureLoop count passes self = pure true := by
  cases passes with
  | zero => rw [ensureLoop, decide_eq_true h]
  | succ passes => rw [ensureLoop, if_neg (by omega)]

/-- **One pass on a stream with bytes left**: the piece lies over the front of the
memory, whatever the passes before had put there. -/
theorem ensureLoop_pass {count passes : Nat} {self : StreamReadBuffer} {w : Window}
    (hc : self.size < count) (hm : 0 < w.memory.length) (hs : w.stream.rest ≠ []) :
    ensureLoop count (passes + 1) self w =
      ensureLoop count passes
        { self with size := self.size + w.stream.handed w.memory.length }
        { memory := w.stream.rest.take (w.stream.handed w.memory.length)
            ++ w.memory.drop (w.stream.handed w.memory.length)
          stream := w.stream.after (w.stream.handed w.memory.length) 1 } := by
  have hp := Stream.handed_pos hm hs
  rw [ensureLoop, if_pos hc, bind_of_ok (fillMemory_of_rest hs)]
  exact congrFun (if_neg (by omega)) _

theorem ensureLoop_of_closed {count passes : Nat} {self : StreamReadBuffer} {w : Window}
    (hc : self.size < count) (hs : w.stream.rest = []) (hcl : w.stream.closed = true) :
    ensureLoop count (passes + 1) self w
      = .ok false { w with stream := w.stream.after 0 1 } := by
  rw [ensureLoop, if_pos hc, bind_of_ok (fillMemory_of_closed hs hcl)]
  exact congrFun (if_pos ⟨rfl, hc⟩) _

theorem ensureLoop_of_open {count passes : Nat} {self : StreamReadBuffer} {w : Window}
    (hc : self.size < count) (hm : 0 < w.memory.length) (hs : w.stream.rest = [])
    (hcl : w.stream.closed = false) :
    ensureLoop count (passes + 1) self w
      = .error .pending { w with stream := w.stream.after 0 1 } := by
  rw [ensureLoop, if_pos hc, bind_of_error (fillMemory_of_open hm hs hcl)]

/-- **The passes do not run out**: one more changes nothing. -/
theorem ensureLoop_enough {count : Nat} : ∀ {passes : Nat} {self : StreamReadBuffer} {w : Window},
    0 < w.memory.length → count ≤ self.size + passes →
    ensureLoop count (passes + 1) self w = ensureLoop count passes self w := by
  intro passes
  induction passes with
  | zero =>
    intro self w _ h
    rw [ensureLoop_of_le (by omega), ensureLoop_of_le (by omega)]
  | succ passes ih =>
    intro self w hm h
    by_cases hc : self.size < count
    · by_cases hs : w.stream.rest = []
      · cases hcl : w.stream.closed with
        | true => rw [ensureLoop_of_closed hc hs hcl, ensureLoop_of_closed hc hs hcl]
        | false => rw [ensureLoop_of_open hc hm hs hcl, ensureLoop_of_open hc hm hs hcl]
      · have hp := Stream.handed_pos hm hs
        have hl := w.stream.handed_le_rest w.memory.length
        rw [ensureLoop_pass hc hm hs, ensureLoop_pass hc hm hs]
        refine ih ?_ (by simp only; omega)
        rw [List.length_append, List.length_take]
        omega
    · rw [ensureLoop_of_le (by omega), ensureLoop_of_le (by omega)]

/-! ### Where a call can take the window -/

theorem moves_fillMemory : Moves Window.ReadsTo fillMemory := by
  intro w
  by_cases hs : w.stream.rest = []
  · cases hcl : w.stream.closed with
    | true =>
      rw [fillMemory_of_closed hs hcl]
      exact ⟨⟨0, 1, Nat.zero_le _, rfl⟩, rfl⟩
    | false =>
      by_cases hm : 0 < w.memory.length
      · rw [fillMemory_of_open hm hs hcl]
        exact ⟨⟨0, 1, Nat.zero_le _, rfl⟩, rfl⟩
      · have hnil : w.memory = [] := List.length_eq_zero_iff.mp (by omega)
        rw [fillMemory, Stream.readAsync, if_neg (by rw [hnil]; simp)]
        refine ⟨⟨_, 1, w.stream.handed_le_rest _, rfl⟩, ?_⟩
        simp [hs]
  · have hl := w.stream.handed_le_rest w.memory.length
    have hr := w.stream.handed_le_room w.memory.length
    rw [fillMemory_of_rest hs]
    refine ⟨⟨_, 1, hl, rfl⟩, ?_⟩
    simp only [final_ok, List.length_append, List.length_take, List.length_drop]
    omega

theorem moves_ensureLoop (count : Nat) : ∀ (passes : Nat) (self : StreamReadBuffer),
    Moves Window.ReadsTo (ensureLoop count passes self) := by
  intro passes
  induction passes with
  | zero => intro self; exact Moves.pure _
  | succ passes ih =>
    intro self
    refine Moves.ite ?_ (Moves.pure _)
    exact moves_fillMemory.bind fun _ => Moves.ite (Moves.pure _) (ih _)

theorem moves_ensureAsync (self : StreamReadBuffer) (count : Nat) :
    Moves Window.ReadsTo (self.ensureAsync count) :=
  Moves.get.bind fun _ => Moves.ite (Moves.throw _) (moves_ensureLoop count count self)

theorem moves_readAsync (self : StreamReadBuffer) (count : Nat) :
    Moves Window.ReadsTo (self.readAsync count) :=
  (self.moves_ensureAsync _).bind fun _ => Moves.ite (Moves.pure _) (Moves.throw _)

/-! ### One piece, and too few bytes -/

/-- **A first piece that is long enough ends the loop**, however long it is. -/
theorem ensureAsync_of_handed {self : StreamReadBuffer} {count : Nat} {w : Window}
    (hc : self.size < count) (hm : count ≤ w.memory.length)
    (hh : count ≤ self.size + w.stream.handed w.memory.length) :
    self.ensureAsync count w = .ok true
      { memory := w.stream.rest.take (w.stream.handed w.memory.length)
          ++ w.memory.drop (w.stream.handed w.memory.length)
        stream := w.stream.after (w.stream.handed w.memory.length) 1 } := by
  have hs : w.stream.rest ≠ [] := by
    intro he
    have := w.stream.handed_le_rest w.memory.length
    rw [he, List.length_nil] at this
    omega
  obtain ⟨passes, rfl⟩ : ∃ passes, count = passes + 1 := ⟨count - 1, by omega⟩
  have hg : (get : BufferIo Window) w = .ok w w := rfl
  rw [ensureAsync, bind_of_ok hg, if_neg (by omega), ensureLoop_pass hc (by omega) hs,
    ensureLoop_of_le hh]
  rfl

/-- **A read that one piece fills** shows the bytes at the front of the stream. -/
theorem readAsync_of_handed (self : StreamReadBuffer) (count : Nat) {w : Window}
    (hc : self.size < self.offset + count) (hm : self.offset + count ≤ w.memory.length)
    (hh : self.offset + count ≤ self.size + w.stream.handed w.memory.length) :
    self.readAsync count w = .ok { start := self.offset, count := count }
      { memory := w.stream.rest.take (w.stream.handed w.memory.length)
          ++ w.memory.drop (w.stream.handed w.memory.length)
        stream := w.stream.after (w.stream.handed w.memory.length) 1 } := by
  rw [readAsync, bind_of_ok (ensureAsync_of_handed hc hm hh)]
  simp only [if_true, Nat.add_sub_cancel]
  rfl

theorem new_readAsync_of_handed {count : Nat} {w : Window} (hpos : 0 < count)
    (hh : count ≤ w.stream.handed w.memory.length) :
    new.readAsync count w = .ok { start := 0, count := count }
      { memory := w.stream.rest.take (w.stream.handed w.memory.length)
          ++ w.memory.drop (w.stream.handed w.memory.length)
        stream := w.stream.after (w.stream.handed w.memory.length) 1 } := by
  have hm : count ≤ w.memory.length := Nat.le_trans hh (w.stream.handed_le_room _)
  exact readAsync_of_handed new count (by simpa [new] using hpos) (by simpa [new] using hm)
    (by simpa [new] using hh)

theorem readAsync_of_delivers {w : Window} {bytes : List UInt8}
    (h : w.stream.Delivers w.memory.length bytes) :
    ∃ w', new.readAsync bytes.length w = .ok { start := 0, count := bytes.length } w' ∧
      w'.memory.take bytes.length = bytes ∧ bytes.length ≤ w'.memory.length := by
  rcases Nat.eq_zero_or_pos bytes.length with hnil | hpos
  · rw [List.length_eq_zero_iff.mp hnil]
    exact ⟨w, rfl, List.take_zero, Nat.zero_le _⟩
  · have hpiece : (w.stream.rest.take (w.stream.handed w.memory.length)).take bytes.length =
        bytes := by
      rw [List.take_take, Nat.min_eq_left h.2]
      exact (List.prefix_iff_eq_take.mp h.1).symm
    have hlen := congrArg List.length hpiece
    rw [List.length_take] at hlen
    refine ⟨_, new_readAsync_of_handed hpos h.2, ?_, ?_⟩
    · rw [List.take_append_of_le_length (by omega), hpiece]
    · rw [List.length_append]
      omega

/-- **Enough bytes**: the loop ends well, in whatever pieces they come.  It may have taken
more than it was asked for. -/
theorem ensureLoop_of_enough {count : Nat} : ∀ (passes : Nat) (self : StreamReadBuffer)
    {w : Window}, 0 < w.memory.length → count ≤ self.size + w.stream.rest.length →
    count ≤ self.size + passes →
    ∃ memory n c, memory.length = w.memory.length ∧ n ≤ w.stream.rest.length ∧
      count ≤ self.size + n ∧ ensureLoop count passes self w =
        .ok true { memory := memory, stream := w.stream.after n c } := by
  intro passes
  induction passes with
  | zero =>
    intro self w _ _ h2
    refine ⟨w.memory, 0, 0, rfl, Nat.zero_le _, h2, ?_⟩
    rw [ensureLoop_of_le (by omega)]
    rfl
  | succ passes ih =>
    intro self w hm h1 h2
    by_cases hc : self.size < count
    · have hs : w.stream.rest ≠ [] := by
        intro he
        rw [he, List.length_nil] at h1
        omega
      have hp := Stream.handed_pos hm hs
      have hl := w.stream.handed_le_rest w.memory.length
      have hr := w.stream.handed_le_room w.memory.length
      rw [ensureLoop_pass hc hm hs]
      generalize w.stream.handed w.memory.length = n at hp hl hr ⊢
      obtain ⟨memory, n', c, hlen, hn', hcount, he⟩ := ih { self with size := self.size + n }
        (w := { memory := w.stream.rest.take n ++ w.memory.drop n, stream := w.stream.after n 1 })
        (by simp only [List.length_append, List.length_take, List.length_drop]; omega)
        (by simp only [Stream.after_rest, List.length_drop]; omega) (by simp only; omega)
      simp only [Stream.after_rest, List.length_drop] at hn'
      simp only [List.length_append, List.length_take, List.length_drop] at hlen
      refine ⟨memory, n + n', 1 + c, by omega, by omega, ?_, ?_⟩
      · simp only at hcount
        omega
      · rw [he, Stream.after_after]
    · refine ⟨w.memory, 0, 0, rfl, Nat.zero_le _, by omega, ?_⟩
      rw [ensureLoop_of_le (by omega)]
      rfl

theorem ensureAsync_of_enough (self : StreamReadBuffer) (count : Nat) {w : Window}
    (hm : count ≤ w.memory.length) (hs : count ≤ self.size + w.stream.rest.length) :
    ∃ memory n c, memory.length = w.memory.length ∧ n ≤ w.stream.rest.length ∧
      count ≤ self.size + n ∧ self.ensureAsync count w =
        .ok true { memory := memory, stream := w.stream.after n c } := by
  have hg : (get : BufferIo Window) w = .ok w w := rfl
  rw [ensureAsync, bind_of_ok hg, if_neg (by omega)]
  by_cases hc : self.size < count
  · exact ensureLoop_of_enough count self (by omega) hs (by omega)
  · refine ⟨w.memory, 0, 0, rfl, Nat.zero_le _, by omega, ?_⟩
    rw [ensureLoop_of_le (by omega)]
    rfl

/-- **A read of no more than the stream holds returns.** -/
theorem readAsync_of_enough (self : StreamReadBuffer) (count : Nat) {w : Window}
    (hm : self.offset + count ≤ w.memory.length)
    (hs : self.offset + count ≤ self.size + w.stream.rest.length) :
    ∃ memory n c, memory.length = w.memory.length ∧ n ≤ w.stream.rest.length ∧
      self.offset + count ≤ self.size + n ∧ self.readAsync count w =
        .ok { start := self.offset, count := count }
          { memory := memory, stream := w.stream.after n c } := by
  obtain ⟨memory, n, c, hlen, hn, hcount, he⟩ := self.ensureAsync_of_enough _ hm hs
  refine ⟨memory, n, c, hlen, hn, hcount, ?_⟩
  rw [readAsync, bind_of_ok he]
  simp only [if_true, Nat.add_sub_cancel]
  rfl

/-- **Too few bytes**: the loop takes all there are and then gives up or waits, in
whatever pieces they come. -/
theorem ensureLoop_of_short {count : Nat} : ∀ (passes : Nat) (self : StreamReadBuffer)
    {w : Window}, 0 < w.memory.length → self.size + w.stream.rest.length < count →
    count ≤ self.size + passes →
    ∃ memory c, memory.length = w.memory.length ∧ ensureLoop count passes self w =
      (if w.stream.closed then
        .ok false { memory := memory, stream := w.stream.after w.stream.rest.length c }
      else .error .pending
        { memory := memory, stream := w.stream.after w.stream.rest.length c }) := by
  intro passes
  induction passes with
  | zero =>
    intro self w _ h1 h2
    omega
  | succ passes ih =>
    intro self w hm h1 h2
    by_cases hs : w.stream.rest = []
    · refine ⟨w.memory, 1, rfl, ?_⟩
      rw [hs, List.length_nil]
      cases hcl : w.stream.closed with
      | true =>
        rw [ensureLoop_of_closed (by omega) hs hcl]
        rfl
      | false =>
        rw [ensureLoop_of_open (by omega) hm hs hcl]
        rfl
    · have hp := Stream.handed_pos hm hs
      have hl := w.stream.handed_le_rest w.memory.length
      have hr := w.stream.handed_le_room w.memory.length
      rw [ensureLoop_pass (by omega) hm hs]
      generalize w.stream.handed w.memory.length = n at hp hl hr ⊢
      obtain ⟨memory, c, hlen, he⟩ := ih { self with size := self.size + n }
        (w := { memory := w.stream.rest.take n ++ w.memory.drop n, stream := w.stream.after n 1 })
        (by simp only [List.length_append, List.length_take, List.length_drop]; omega)
        (by simp only [Stream.after_rest, List.length_drop]; omega) (by simp only; omega)
      refine ⟨memory, 1 + c, ?_, ?_⟩
      · simp only [hlen, List.length_append, List.length_take, List.length_drop]
        omega
      · have hn : n + (w.stream.rest.length - n) = w.stream.rest.length := by omega
        rw [he]
        simp only [Stream.after_closed, Stream.after_after, Stream.after_rest, List.length_drop, hn]

theorem ensureAsync_of_short (self : StreamReadBuffer) (count : Nat) {w : Window}
    (hm : count ≤ w.memory.length) (hs : self.size + w.stream.rest.length < count) :
    ∃ memory c, memory.length = w.memory.length ∧ self.ensureAsync count w =
      (if w.stream.closed then
        .ok false { memory := memory, stream := w.stream.after w.stream.rest.length c }
      else .error .pending
        { memory := memory, stream := w.stream.after w.stream.rest.length c }) := by
  have hg : (get : BufferIo Window) w = .ok w w := rfl
  rw [ensureAsync, bind_of_ok hg, if_neg (by omega)]
  exact ensureLoop_of_short count self (by omega) hs (by omega)

def shortfall (closed : Bool) : Halt := if closed then .thrown .endOfStream else .pending

/-- **A read of more than the stream holds takes all of it** and does not return. -/
theorem readAsync_of_short (self : StreamReadBuffer) (count : Nat) {w : Window}
    (hm : self.offset + count ≤ w.memory.length)
    (hs : self.size + w.stream.rest.length < self.offset + count) :
    ∃ memory c, memory.length = w.memory.length ∧ self.readAsync count w =
      .error (shortfall w.stream.closed)
        { memory := memory, stream := w.stream.after w.stream.rest.length c } := by
  obtain ⟨memory, c, hlen, he⟩ := self.ensureAsync_of_short _ hm hs
  refine ⟨memory, c, hlen, ?_⟩
  cases hcl : w.stream.closed with
  | true =>
    rw [hcl, if_pos rfl] at he
    rw [readAsync, bind_of_ok he]
    rfl
  | false =>
    rw [hcl, if_neg (by simp)] at he
    rw [readAsync, bind_of_error he]
    rfl

theorem new_readAsync_of_short {count : Nat} {w : Window} (hm : count ≤ w.memory.length)
    (hs : w.stream.rest.length < count) :
    ∃ memory c, memory.length = w.memory.length ∧ new.readAsync count w =
      .error (shortfall w.stream.closed)
        { memory := memory, stream := w.stream.after w.stream.rest.length c } :=
  readAsync_of_short new count (by simpa [new] using hm) (by simpa [new] using hs)

end StreamReadBuffer

end Manafont.Packets.IO
