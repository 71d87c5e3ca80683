import Manafont.Library.Machine
import Manafont.Packets.IO.PacketStreamExtensions

/-!
# Many calls on one buffer

A variable holds a `StreamReadBuffer` and calls are made on it, one after another: its own
two methods, or the extension methods that take it by value.  Each works on a copy, so the
variable keeps its counters (`step`) and only the memory and the stream move on.

What `ReadAsync` returns is a view of the memory, and shows what lies there when it is looked at
(`Returned`).  The extension methods use theirs up before they return.

The calls see one stretch of the stream after another (`SequentialWindow`) as long as each
read that returns bytes finds the stream where the reads before have left off and all of its
bytes in the next piece, and nothing is taken from the stream any more when a view is held
(`InStep`): `sequentialWindow_of_run`.  A read whose piece was longer than what it returned has
lost the rest of the piece, one whose bytes came in two pieces shows the second over the first,
and any further piece lies over what a view has shown (`reads_not_sequential`).
-/

namespace Manafont.Packets.IO

open Program

/-- A call on a `StreamReadBuffer`.  `ReadNetworkDateTimeAsync` reads a number of 8 bytes. -/
inductive BufferCall where
  | ensureAsync (count : Nat)
  | readAsync (count : Nat)
  | readNetworkNumberAsync (w : Nat)
  | readAnsiCStringAsync (stringBlockSize : Nat)
  deriving DecidableEq, Repr

namespace BufferCall

def act (host : Host) (buffer : StreamReadBuffer) : BufferCall → BufferIo Unit
  | ensureAsync count => discard (buffer.ensureAsync count)
  | readAsync count => discard (buffer.readAsync count)
  | readNetworkNumberAsync w => discard (buffer.readNetworkNumberAsync host w)
  | readAnsiCStringAsync n => discard (buffer.readAnsiCStringAsync host n)

/-- The count of the `EnsureAsync` that a call is or leads to. -/
def asked : BufferCall → Nat
  | ensureAsync count => count
  | readAsync count => count
  | readNetworkNumberAsync w => w
  | readAnsiCStringAsync n => n

/-- The count of the `ReadAsync` that a call is or makes. -/
def count : BufferCall → Option Nat
  | ensureAsync _ => none
  | readAsync count => some count
  | readNetworkNumberAsync w => some w
  | readAnsiCStringAsync n => some n

end BufferCall

/-- What a `ReadAsync` has returned. -/
inductive Returned where
  /-- To the caller: the view itself. -/
  | view (slice : Slice)
  /-- To an extension method, which has used up the bytes that it showed. -/
  | used (bytes : List UInt8)

/-- The bytes that are in it when the memory is this. -/
def Returned.bytes (memory : List UInt8) : Returned → List UInt8
  | view slice => (memory.drop slice.start).take slice.count
  | used bytes => bytes

/-- How many bytes of the memory it still shows. -/
def Returned.held : Returned → Nat
  | view slice => slice.count
  | used _ => 0

theorem Returned.bytes_eq {result : Returned} (h : result.held = 0) (memory memory' : List UInt8) :
    result.bytes memory = result.bytes memory' := by
  cases result with
  | used bytes => rfl
  | view slice =>
    have hcount : slice.count = 0 := h
    rw [bytes, bytes, hcount, List.take_zero, List.take_zero]

namespace BufferCall

/-- What an extension method goes on with. -/
def usedUp (buffer : StreamReadBuffer) (w : Window) (count : Nat) : List Returned :=
  match buffer.readAsync count w with
  | .ok slice w' => [.used ((w'.memory.drop slice.start).take slice.count)]
  | .error _ _ => []

def returned (buffer : StreamReadBuffer) (w : Window) : BufferCall → List Returned
  | ensureAsync _ => []
  | readAsync count =>
    match buffer.readAsync count w with
    | .ok slice _ => [.view slice]
    | .error _ _ => []
  | readNetworkNumberAsync n => usedUp buffer w n
  | readAnsiCStringAsync n => usedUp buffer w n

/-- What that shows when the call has ended. -/
def shown (host : Host) (buffer : StreamReadBuffer) (w : Window) (call : BufferCall) :
    List UInt8 :=
  (call.returned buffer w).flatMap (Returned.bytes (final (call.act host buffer w)).memory)

section Shown

variable {host : Host} {buffer : StreamReadBuffer} {w w' : Window} {call : BufferCall}
  {count : Nat}

theorem shown_of_none (h : call.count = none) : call.shown host buffer w = [] := by
  cases call with
  | ensureAsync n => rfl
  | readAsync n => cases h
  | readNetworkNumberAsync n => cases h
  | readAnsiCStringAsync n => cases h

/-- **A call that reads** shows the bytes of its `ReadAsync` when it ends. -/
theorem shown_of_ok {slice : Slice} (h : call.count = some count)
    (hread : buffer.readAsync count w = .ok slice w') :
    call.shown host buffer w = (w'.memory.drop slice.start).take slice.count := by
  cases call with
  | ensureAsync n => cases h
  | readAsync n =>
    cases h
    rw [shown, act, final_discard, returned]
    simp only [hread]
    exact List.append_nil _
  | readNetworkNumberAsync n =>
    cases h
    rw [shown, returned, usedUp]
    simp only [hread]
    exact List.append_nil _
  | readAnsiCStringAsync n =>
    cases h
    rw [shown, returned, usedUp]
    simp only [hread]
    exact List.append_nil _

theorem shown_of_error {e : Halt} (h : call.count = some count)
    (hread : buffer.readAsync count w = .error e w') : call.shown host buffer w = [] := by
  cases call with
  | ensureAsync n => cases h
  | readAsync n =>
    cases h
    rw [shown, returned]
    simp only [hread]
    rfl
  | readNetworkNumberAsync n =>
    cases h
    rw [shown, returned, usedUp]
    simp only [hread]
    rfl
  | readAnsiCStringAsync n =>
    cases h
    rw [shown, returned, usedUp]
    simp only [hread]
    rfl

theorem shown_zero (h : call.count = some 0) : call.shown host .new w = [] := by
  have hread : StreamReadBuffer.new.readAsync 0 w = .ok { start := 0, count := 0 } w := rfl
  rw [shown_of_ok h hread, List.take_zero]

theorem shown_of_no_room (h : call.count = some count) (hroom : w.memory.length < count) :
    call.shown host .new w = [] := by
  have hensure : StreamReadBuffer.new.ensureAsync (0 + count) w = .error _ w :=
    (bind_of_ok rfl).trans (congrFun (if_pos (by omega)) w)
  exact shown_of_error h (bind_of_error hensure)

theorem shown_of_short (h : call.count = some count) (hroom : count ≤ w.memory.length)
    (hshort : w.stream.rest.length < count) : call.shown host .new w = [] := by
  obtain ⟨memory, c, -, hread⟩ := StreamReadBuffer.new_readAsync_of_short hroom hshort
  exact shown_of_error h hread

theorem shown_of_handed (h : call.count = some count) (hpos : 0 < count)
    (hhanded : count ≤ w.stream.handed w.memory.length) :
    call.shown host .new w = w.stream.rest.take count := by
  have hrest := w.stream.handed_le_rest w.memory.length
  rw [shown_of_ok h (StreamReadBuffer.new_readAsync_of_handed hpos hhanded)]
  show (_ ++ _ : List UInt8).take count = _
  rw [List.take_append_of_le_length (by rw [List.length_take]; omega), List.take_take,
    Nat.min_eq_left hhanded]

end Shown

/-! ### Calls that leave the memory -/

/-- A call has nothing to take: it asks for no byte, for more than the memory has room for, or at
the end of the stream. -/
def Idle (w : Window) (call : BufferCall) : Prop :=
  call.asked = 0 ∨ w.memory.length < call.asked ∨ w.stream.rest = []

instance (w : Window) (call : BufferCall) : Decidable (call.Idle w) :=
  inferInstanceAs (Decidable (_ ∨ _ ∨ _))

section Idle

variable {host : Host} {w : Window} {call : BufferCall}

/-- A read of a byte or more for which there are room and bytes enough has something to take. -/
theorem not_idle {count : Nat} (h : call.count = some count) (hpos : 0 < count)
    (hroom : count ≤ w.memory.length) (hbytes : count ≤ w.stream.rest.length) : ¬ call.Idle w := by
  have hasked : call.asked = count := by
    cases call with
    | ensureAsync n => cases h
    | readAsync n => exact Option.some.inj h
    | readNetworkNumberAsync n => exact Option.some.inj h
    | readAnsiCStringAsync n => exact Option.some.inj h
  rw [Idle, hasked]
  rintro (hzero | hless | hrest)
  · omega
  · omega
  · rw [hrest, List.length_nil] at hbytes
    omega

/-- With nothing to take, `EnsureAsync` leaves the memory, and it does not answer true unless no
byte is asked for. -/
theorem ensureAsync_of_idle {count : Nat}
    (h : count = 0 ∨ w.memory.length < count ∨ w.stream.rest = []) :
    (count = 0 ∧ StreamReadBuffer.new.ensureAsync count w = .ok true w) ∨
      ∃ w', w'.memory = w.memory ∧
        (StreamReadBuffer.new.ensureAsync count w = .ok false w' ∨
          ∃ e, StreamReadBuffer.new.ensureAsync count w = .error e w') := by
  have hg : (get : BufferIo Window) w = .ok w w := rfl
  cases count with
  | zero => exact .inl ⟨rfl, rfl⟩
  | succ n =>
    refine .inr ?_
    rw [StreamReadBuffer.ensureAsync, bind_of_ok hg]
    by_cases hroom : w.memory.length < n + 1
    · rw [if_pos hroom]
      exact ⟨w, rfl, .inr ⟨_, rfl⟩⟩
    · rw [if_neg hroom]
      have hrest : w.stream.rest = [] := (h.resolve_left (Nat.succ_ne_zero n)).resolve_left hroom
      have hsize : StreamReadBuffer.new.size < n + 1 := Nat.succ_pos n
      refine ⟨{ w with stream := w.stream.after 0 1 }, rfl, ?_⟩
      cases hclosed : w.stream.closed with
      | true => exact .inl (StreamReadBuffer.ensureLoop_of_closed hsize hrest hclosed)
      | false =>
        exact .inr ⟨_, StreamReadBuffer.ensureLoop_of_open hsize (by omega) hrest hclosed⟩

theorem memory_readAsync_bind {α : Type} {f : Slice → BufferIo α} {count : Nat}
    (h : count = 0 ∨ w.memory.length < count ∨ w.stream.rest = [])
    (hf : (final (f { start := 0, count := 0 } w)).memory = w.memory) :
    (final ((StreamReadBuffer.new.readAsync count >>= f) w)).memory = w.memory := by
  rw [← Nat.zero_add count] at h
  rcases ensureAsync_of_idle h with ⟨hzero, -⟩ | ⟨w', hmemory, hfalse | ⟨e, herror⟩⟩
  · obtain rfl : count = 0 := by omega
    have hread : StreamReadBuffer.new.readAsync 0 w = .ok { start := 0, count := 0 } w := rfl
    rw [bind_of_ok hread]
    exact hf
  · have hread : StreamReadBuffer.new.readAsync count w = .error _ w' := bind_of_ok hfalse
    rw [bind_of_error hread]
    exact hmemory
  · have hread : StreamReadBuffer.new.readAsync count w = .error e w' := bind_of_error herror
    rw [bind_of_error hread]
    exact hmemory

/-- **A call that has nothing to take** leaves the memory. -/
theorem memory_act (h : call.Idle w) : (final (call.act host .new w)).memory = w.memory := by
  cases call with
  | ensureAsync count =>
    rw [act, final_discard]
    rcases ensureAsync_of_idle h with ⟨-, htrue⟩ | ⟨w', hmemory, hfalse | ⟨e, herror⟩⟩
    · exact congrArg (fun r => (final r).memory) htrue
    · exact (congrArg (fun r => (final r).memory) hfalse).trans hmemory
    · exact (congrArg (fun r => (final r).memory) herror).trans hmemory
  | readAsync count =>
    rw [act, final_discard]
    have hread := memory_readAsync_bind (f := pure) h rfl
    rwa [bind_pure] at hread
  | readNetworkNumberAsync n =>
    rw [act, final_discard]
    refine memory_readAsync_bind h ?_
    cases host.isLittleEndian with
    | true => exact List.nil_append _
    | false => rfl
  | readAnsiCStringAsync n =>
    rw [act, final_discard]
    exact memory_readAsync_bind h rfl

end Idle

theorem moves_act (host : Host) (buffer : StreamReadBuffer) (call : BufferCall) :
    Moves Window.ReadsTo (call.act host buffer) := by
  cases call with
  | ensureAsync count => exact (buffer.moves_ensureAsync count).bind fun _ => Moves.pure _
  | readAsync count => exact (buffer.moves_readAsync count).bind fun _ => Moves.pure _
  | readNetworkNumberAsync w =>
    exact (StreamReadBuffer.moves_readNetworkNumberAsync host w buffer).bind fun _ => Moves.pure _
  | readAnsiCStringAsync n =>
    exact (StreamReadBuffer.moves_readAnsiCStringAsync host buffer n).bind fun _ => Moves.pure _

end BufferCall

/-- A variable that holds a buffer, what its references point to, and what its reads have
returned so far. -/
structure BufferState where
  buffer : StreamReadBuffer
  window : Window
  results : List Returned
  /-- The last call waits for a byte that does not come. -/
  waiting : Bool

namespace BufferState

def new (memory : List UInt8) (stream : Stream) : BufferState :=
  { buffer := .new, window := { memory := memory, stream := stream }, results := []
    waiting := false }

def outcomeOf (host : Host) (s : BufferState) (call : BufferCall) : Except Halt Unit :=
  outcome (call.act host s.buffer s.window)

/-- One call.  It works on a copy of the buffer, so the variable is as it was. -/
def step (host : Host) (s : BufferState) (call : BufferCall) : Option BufferState :=
  if s.waiting then none
  else some {
    buffer := s.buffer
    window := final (call.act host s.buffer s.window)
    results := s.results ++ call.returned s.buffer s.window
    waiting := match s.outcomeOf host call with
      | .error .pending => true
      | _ => false }

def shownIn (s : BufferState) (memory : List UInt8) : List UInt8 :=
  s.results.flatMap (Returned.bytes memory)

/-- What the results show now. -/
def shown (s : BufferState) : List UInt8 := s.shownIn s.window.memory

/-- The window that the calls see is that of `content`. -/
structure SequentialWindow (content : List UInt8) (s : BufferState) : Prop where
  offset_le : s.buffer.offset ≤ s.buffer.size
  size_le : s.buffer.size ≤ s.window.memory.length
  memory_eq : s.window.memory.take s.buffer.size = content.take s.buffer.size
  delivered : s.buffer.size ≤ s.window.stream.taken
  results_prefix : s.shown <+: content

/-- A call that has bytes to take finds that no result is held which still shows the memory; and
if it is a read for which there are bytes enough, it finds that every byte that was taken
has been returned, and all of its own bytes in the next piece. -/
def InStep (s : BufferState) (call : BufferCall) : Prop :=
  ¬ call.Idle s.window →
    (∀ result ∈ s.results, result.held = 0) ∧
      ∀ count ∈ call.count, count ≤ s.window.stream.rest.length →
        s.shown.length = s.window.stream.taken ∧
          count ≤ s.window.stream.handed s.window.memory.length

instance (s : BufferState) (call : BufferCall) : Decidable (InStep s call) :=
  inferInstanceAs (Decidable (_ → _))

/-! ### What a run keeps -/

structure Kept (start : Stream) (s : BufferState) : Prop where
  buffer_eq : s.buffer = .new
  readsTo : start.ReadsTo s.window.stream
  results_prefix : s.shown <+: start.rest

section Step

variable {start : Stream} {s s' : BufferState} {call : BufferCall}

/-- **A call in step leaves what the results show.** -/
theorem shownIn_final {host : Host} (hstep : InStep s call) :
    s.shownIn (final (call.act host .new s.window)).memory = s.shown := by
  by_cases hidle : call.Idle s.window
  · rw [BufferCall.memory_act hidle, shown]
  · exact List.flatMap_congr fun result hresult =>
      Returned.bytes_eq ((hstep hidle).1 result hresult) _ _

/-- **A read in step shows the next stretch of the stream.** -/
theorem shown_prefix {host : Host} (hkept : Kept start s) (htaken : start.taken = 0)
    (hstep : InStep s call) : s.shown ++ call.shown host .new s.window <+: start.rest := by
  obtain ⟨n, c, hn, hstream⟩ := hkept.readsTo
  have hrest : s.window.stream.rest = start.rest.drop n := by rw [hstream, Stream.after_rest]
  have htaken' : s.window.stream.taken = n := by
    rw [hstream, Stream.after_taken, htaken, Nat.zero_add]
  have hnothing : call.shown host .new s.window = [] →
      s.shown ++ call.shown host .new s.window <+: start.rest := by
    intro h
    rw [h, List.append_nil]
    exact hkept.results_prefix
  rcases hcount : call.count with _ | count
  · exact hnothing (BufferCall.shown_of_none hcount)
  rcases Nat.eq_zero_or_pos count with rfl | hpos
  · exact hnothing (BufferCall.shown_zero hcount)
  by_cases hroom : count ≤ s.window.memory.length
  · by_cases hbytes : count ≤ s.window.stream.rest.length
    · have hidle : ¬ call.Idle s.window := BufferCall.not_idle hcount hpos hroom hbytes
      obtain ⟨hreturned, hhanded⟩ := (hstep hidle).2 count hcount hbytes
      have hbefore : s.shown = start.rest.take n := by
        rw [List.prefix_iff_eq_take.mp hkept.results_prefix, hreturned, htaken']
      rw [BufferCall.shown_of_handed hcount hpos hhanded, hbefore, hrest, ← List.take_add]
      exact List.take_prefix _ _
    · exact hnothing (BufferCall.shown_of_short hcount hroom (Nat.not_le.mp hbytes))
  · exact hnothing (BufferCall.shown_of_no_room hcount (Nat.not_le.mp hroom))

theorem kept_step {host : Host} (htaken : start.taken = 0) (hkept : Kept start s)
    (hstep : InStep s call) (hs : step host s call = some s') : Kept start s' := by
  rw [step] at hs
  split at hs
  · cases hs
  · cases hs
    have hmoves := (call.moves_act host s.buffer s.window).1
    exact {
      buffer_eq := hkept.buffer_eq
      readsTo := IsTrans.trans _ _ _ hkept.readsTo hmoves
      results_prefix := by
        show List.flatMap _ (s.results ++ call.returned s.buffer s.window) <+: start.rest
        rw [List.flatMap_append, hkept.buffer_eq]
        show s.shownIn _ ++ call.shown host .new s.window <+: start.rest
        rw [shownIn_final hstep]
        exact shown_prefix hkept htaken hstep }

theorem Kept.sequentialWindow (hkept : Kept start s) : SequentialWindow start.rest s := by
  have hsize : s.buffer.size = 0 := by rw [hkept.buffer_eq]; rfl
  have hoffset : s.buffer.offset = 0 := by rw [hkept.buffer_eq]; rfl
  exact {
    offset_le := by rw [hoffset]; exact Nat.zero_le _
    size_le := by rw [hsize]; exact Nat.zero_le _
    memory_eq := by rw [hsize, List.take_zero, List.take_zero]
    delivered := by rw [hsize]; exact Nat.zero_le _
    results_prefix := hkept.results_prefix }

/-- No call moves the offset of the variable, one that throws included. -/
theorem buffer_step {host : Host} (hs : step host s call = some s') : s'.buffer = s.buffer := by
  rw [step] at hs
  split at hs
  · cases hs
  · cases hs
    rfl

end Step

/-- **A run whose calls are all in step sees the stream through one window**, and a call that
throws leaves the offset. -/
theorem sequentialWindow_of_run (host : Host) (memory content : List UInt8) (cut : Nat → Nat)
    (closed : Bool) (calls : List BufferCall)
    (halong : Machine.Along (step host) InStep (new memory (.ofPieces content cut closed)) calls)
    (s : BufferState)
    (hreach : Machine.Reaches (step host) (new memory (.ofPieces content cut closed)) calls s) :
    SequentialWindow content s ∧
      ∀ call s' e, step host s call = some s' → s.outcomeOf host call = .error (.thrown e) →
        s'.buffer.offset = s.buffer.offset := by
  have hstart : Kept (.ofPieces content cut closed) (new memory (.ofPieces content cut closed)) :=
    { buffer_eq := rfl, readsTo := Std.Refl.refl _, results_prefix := List.nil_prefix }
  have hkept : Kept (.ofPieces content cut closed) s :=
    Machine.reaches_invariant (fun _ _ _ hI hC hs => kept_step rfl hI hC hs) hstart halong hreach
  exact ⟨hkept.sequentialWindow,
    fun call s' e hs _ => congrArg StreamReadBuffer.offset (buffer_step hs)⟩

/-- The theorem on a number, a text and two bytes, each of which comes in a piece of its own, and a
read that the memory has no room for. -/
theorem reads_sequential : ∃ s,
    Machine.run (step .x64) (new [0, 0, 0, 0] (.ofPieces [1, 2, 3, 4, 5, 6, 7] (fun _ => 2) true))
      [.readNetworkNumberAsync 2, .readAnsiCStringAsync 2, .readAsync 2, .readAsync 5] = some s ∧
    s.shown = [1, 2, 3, 4, 5, 6] ∧ SequentialWindow [1, 2, 3, 4, 5, 6, 7] s := by
  refine ⟨_, rfl, rfl, ?_⟩
  refine (sequentialWindow_of_run .x64 [0, 0, 0, 0] [1, 2, 3, 4, 5, 6, 7] (fun _ => 2) true
    [.readNetworkNumberAsync 2, .readAnsiCStringAsync 2, .readAsync 2, .readAsync 5] ?_ _
    ⟨4, rfl⟩).1
  exact .cons (by decide) rfl (.cons (by decide) rfl
    (.cons (by decide) rfl (.cons (by decide) rfl trivial)))

/-- **Two reads of two bytes, and a piece of four for each**: the second goes on behind the
piece and not behind the bytes that were returned, and both show what it has put into the
memory. -/
theorem reads_not_sequential : ∃ s,
    Machine.Reaches (step .x64)
      (new [0, 0, 0, 0] (.ofPieces [1, 2, 3, 4, 5, 6, 7, 8] (fun _ => 4) true))
      [.readAsync 2, .readAsync 2] s ∧
    s.shown = [5, 6, 5, 6] ∧ ¬ SequentialWindow [1, 2, 3, 4, 5, 6, 7, 8] s := by
  refine ⟨_, ⟨2, rfl⟩, rfl, fun h => ?_⟩
  have hprefix : ([5, 6, 5, 6] : List UInt8) <+: [1, 2, 3, 4, 5, 6, 7, 8] := h.results_prefix
  exact absurd hprefix (by decide)

end BufferState

end Manafont.Packets.IO
