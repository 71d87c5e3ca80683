import Manafont.Library.Async
import Manafont.Library.Log
import Manafont.Library.Machine
import Manafont.Packets.IO.PacketIO

/-!
# `PacketHandlerManager`

`RunPacketProcessingLoop` of `Manafont.Packets.Handling/PacketHandlerManager.cs` over the
packets of `ReadPacketsAsync` (`Extensions.cs`), with `BasePacketHandler` (`IPacketHandler.cs`),
`ClosingSessionPacketHandler` (`ClosingSessionPacket.cs`) and the token of
`BasicPacketState.cs`.

A handler is any asynchronous method.  It may cancel the processing of its state, and wait for
whatever else it likes; the operations of the latter kind are those of a signature `W`.  The
state and the caller's token may also be cancelled from outside, at any time.  What the loop
does is written to a log, one entry for each step.
-/

namespace Manafont.Packets.Handling

open Async Log Packets.IO

inductive HandlerOp (Op : Type) where
  /-- `state.CancelProcessing()`. -/
  | cancelProcessing
  | other (op : Op)

abbrev handling (W : Signature) : Signature where
  Op := HandlerOp W.Op
  Answer
    | .cancelProcessing => Unit
    | .other op => W.Answer op

section Handlers

variable {Ty : Type} (Data : Ty → Type) (W : Signature)

/-- `IPacketHandler<TState>`, by its method `HandlePacketAsync`. -/
abbrev IPacketHandler := IPacket Data → Async (handling W) Exn Unit

variable {Data W} [DecidableEq Ty]

/-- `BasePacketHandler<TPacket, TState>`, with its two abstract methods. -/
def basePacketHandler (t : Ty) (checkOpcode : Opcode → Bool)
    (handlePacketAsync : Data t → Async (handling W) Exn Unit) : IPacketHandler Data W :=
  fun packet =>
    if h : packet.packetType = t then
      if checkOpcode packet.packetOpcode then handlePacketAsync (h ▸ packet.packet.data)
      else
        let opcode := packet.packetOpcode.toNat
        throw (.invalidOperation s!"Cannot handle opcode {opcode}")
    else throw (.other "InvalidCastException")

/-- `ClosingSessionPacketHandler`; `t` is the type of `ClosingSessionPacket`. -/
def closingSessionPacketHandler (t : Ty) : IPacketHandler Data W :=
  basePacketHandler t (fun opcode => opcode == 1) fun _ =>
    perform (S := handling W) HandlerOp.cancelProcessing

end Handlers

/-! ### The loop -/

section Loop

variable {Ty : Type} (Data : Ty → Type) (W : Signature)

inductive Entry where
  /-- `IsCancellationRequested` was false. -/
  | tested
  | readBegun
  | read (packet : IPacket Data)
  | readThrew (e : Exn)
  | skipped (packet : IPacket Data)
  | called (handler : IPacketHandler Data W) (packet : IPacket Data)
  /-- The handler goes on behind an await. -/
  | awaited
  | returned
  | threw (e : Exn)
  | cancelledByHandler
  | cancelledOutside
  | finished

inductive Phase where
  /-- Before the test of the token. -/
  | testing
  /-- Before `ReadPacketAsync`. -/
  | tested
  /-- It awaits `ReadPacketAsync`. -/
  | reading
  /-- The packet has been yielded. -/
  | yielded (packet : IPacket Data)
  /-- It awaits a handler, which has this left to do. -/
  | handling (rest : Async (handling W) Exn Unit)
  | ended (result : Except Exn Unit)

structure ProcessingLoop where
  /-- `_endPacketProcessing` of the state. -/
  stateCancelled : Bool
  /-- The token of the caller. -/
  callerCancelled : Bool
  phase : Phase Data W
  log : List (Entry Data W)

inductive Event where
  /-- The loop goes on where it does not wait. -/
  | proceeds
  | readReturns (result : Except Exn (IPacket Data))
  /-- The handler goes on; `answer` is what the operations of `W` would give it. -/
  | handlerProceeds (answer : (op : W.Op) → Except Exn (W.Answer op))
  | stateCancels
  | callerCancels

variable {Data W}

namespace ProcessingLoop

def new : ProcessingLoop Data W :=
  { stateCancelled := false, callerCancelled := false, phase := .testing, log := [] }

def linked (s : ProcessingLoop Data W) : Bool := s.stateCancelled || s.callerCancelled

def goOn (s : ProcessingLoop Data W) (entry : Entry Data W) (phase : Phase Data W) :
    ProcessingLoop Data W :=
  { s with phase := phase, log := s.log ++ [entry] }

end ProcessingLoop

def step (handlers : Opcode → Option (IPacketHandler Data W)) (s : ProcessingLoop Data W) :
    Event Data W → Option (ProcessingLoop Data W)
  | .proceeds =>
    match s.phase with
    | .testing =>
      if s.linked then some (s.goOn .finished (.ended (.ok ())))
      else some (s.goOn .tested .tested)
    | .tested => some (s.goOn .readBegun .reading)
    | .yielded packet =>
      match handlers packet.packetOpcode with
      | none => some (s.goOn (.skipped packet) .testing)
      | some handler => some (s.goOn (.called handler packet) (.handling (handler packet)))
    | _ => none
  | .readReturns result =>
    match s.phase, result with
    | .reading, .ok packet => some (s.goOn (.read packet) (.yielded packet))
    | .reading, .error e => some (s.goOn (.readThrew e) (.ended (.error e)))
    | _, _ => none
  | .handlerProceeds answer =>
    match s.phase with
    | .handling (.done (.ok ())) => some (s.goOn .returned .testing)
    | .handling (.done (.error e)) => some (s.goOn (.threw e) (.ended (.error e)))
    | .handling (.await .cancelProcessing resume) =>
      some ({ s with stateCancelled := true }.goOn .cancelledByHandler (.handling (resume (.ok ()))))
    | .handling (.await (.other op) resume) =>
      some (s.goOn .awaited (.handling (resume (answer op))))
    | _ => none
  | .stateCancels => some ({ s with stateCancelled := true }.goOn .cancelledOutside s.phase)
  | .callerCancels => some ({ s with callerCancelled := true }.goOn .cancelledOutside s.phase)

end Loop

end Manafont.Packets.Handling
