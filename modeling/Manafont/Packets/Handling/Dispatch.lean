import Manafont.Packets.Handling.PacketHandlerManager

/-!
# What the processing loop dispatches

In every run of the loop the packets with a handler are handed to it one after another, in the
order they were read and each once; a handler that cancels is the last to be called, a
cancellation from outside lets at most one more packet through, and a handler that throws ends
the loop.  The loop goes on until then: a call that is due is made, and a handler that has
been called comes to its end (`Dispatches`, `dispatches_of_run`).

What one step does is said once, by a table of moves (`Moves`, `exists_moves`), and the loop
takes every move of the table (`goesOn`).  What a run keeps (`Kept`) follows
from what the moves have in common: how the call that is due, the handler that is at work and
the packet that may still come change with the entry a move writes.
-/

namespace Manafont.Packets.Handling

open Async Log Packets.IO

section Dispatch

variable {Ty : Type} {Data : Ty → Type} {W : Signature}

def calls (log : List (Entry Data W)) : List (IPacketHandler Data W × IPacket Data) :=
  log.filterMap fun
    | .called handler packet => some (handler, packet)
    | _ => none

def reads (log : List (Entry Data W)) : List (IPacket Data) :=
  log.filterMap fun
    | .read packet => some packet
    | _ => none

def ends (log : List (Entry Data W)) : Nat :=
  log.countP fun
    | .returned => true
    | .threw _ => true
    | _ => false

/-- How many times the loop has gone for a packet. -/
def gone (log : List (Entry Data W)) : Nat :=
  log.countP fun
    | .tested => true
    | _ => false

/-- How many of these packets have been dealt with. -/
def settled (log : List (Entry Data W)) : Nat :=
  log.countP fun
    | .skipped _ => true
    | .called _ _ => true
    | .readThrew _ => true
    | _ => false

/-- How many packets are under way: the loop has gone for them, and they have neither been
handed over nor passed over, nor has their read failed. -/
def underWay (log : List (Entry Data W)) : Nat := gone log - settled log

def Entry.isCancel : Entry Data W → Bool
  | .cancelledByHandler => true
  | .cancelledOutside => true
  | _ => false

/-- A further packet is gone for, read or handed to its handler. -/
def Entry.Starts : Entry Data W → Prop
  | .tested => True
  | .readBegun => True
  | .read _ => True
  | .called _ _ => True
  | _ => False

variable (handlers : Opcode → Option (IPacketHandler Data W))

def dispatched (packets : List (IPacket Data)) : List (IPacketHandler Data W × IPacket Data) :=
  packets.filterMap fun packet => (handlers packet.packetOpcode).map fun h => (h, packet)

def due : Phase Data W → List (IPacketHandler Data W × IPacket Data)
  | .yielded packet => dispatched handlers [packet]
  | _ => []

/-- The moves of the loop: what the token says, where it stands, what happens, what it writes to
the log and where it goes. -/
inductive Moves : Bool → Phase Data W → Event Data W → Entry Data W → Phase Data W → Prop where
  | finish : Moves true .testing .proceeds .finished (.ended (.ok ()))
  | test : Moves false .testing .proceeds .tested .tested
  | beginRead {linked : Bool} : Moves linked .tested .proceeds .readBegun .reading
  | read {linked : Bool} (packet : IPacket Data) :
      Moves linked .reading (.readReturns (.ok packet)) (.read packet) (.yielded packet)
  | readThrows {linked : Bool} (e : Exn) :
      Moves linked .reading (.readReturns (.error e)) (.readThrew e) (.ended (.error e))
  | skip {linked : Bool} (packet : IPacket Data) (h : handlers packet.packetOpcode = none) :
      Moves linked (.yielded packet) .proceeds (.skipped packet) .testing
  | call {linked : Bool} (packet : IPacket Data) (handler : IPacketHandler Data W)
      (h : handlers packet.packetOpcode = some handler) :
      Moves linked (.yielded packet) .proceeds (.called handler packet) (.handling (handler packet))
  | handlerAwaits {linked : Bool} (op : W.Op)
      (resume : Except Exn (W.Answer op) → Async (handling W) Exn Unit)
      (answer : (op : W.Op) → Except Exn (W.Answer op)) :
      Moves linked (.handling (.await (.other op) resume)) (.handlerProceeds answer) .awaited
        (.handling (resume (answer op)))
  | handlerCancels {linked : Bool} (resume : Except Exn Unit → Async (handling W) Exn Unit)
      (answer : (op : W.Op) → Except Exn (W.Answer op)) :
      Moves linked (.handling (.await .cancelProcessing resume)) (.handlerProceeds answer)
        .cancelledByHandler (.handling (resume (.ok ())))
  | handlerReturns {linked : Bool} (answer : (op : W.Op) → Except Exn (W.Answer op)) :
      Moves linked (.handling (.done (.ok ()))) (.handlerProceeds answer) .returned .testing
  | handlerThrows {linked : Bool} (e : Exn) (answer : (op : W.Op) → Except Exn (W.Answer op)) :
      Moves linked (.handling (.done (.error e))) (.handlerProceeds answer) (.threw e)
        (.ended (.error e))
  | stateCancels {linked : Bool} (phase : Phase Data W) :
      Moves linked phase .stateCancels .cancelledOutside phase
  | callerCancels {linked : Bool} (phase : Phase Data W) :
      Moves linked phase .callerCancels .cancelledOutside phase

def running : Phase Data W → Nat
  | .handling _ => 1
  | _ => 0

/-- How many packets may still be handed over without another test. -/
def pending : Phase Data W → Nat
  | .tested => 1
  | .reading => 1
  | .yielded _ => 1
  | _ => 0

variable {handlers} {s s' : ProcessingLoop Data W}

/-- **Every step is a move.** -/
theorem exists_moves {event : Event Data W} (hs : step handlers s event = some s') :
    ∃ x, s'.log = s.log ++ [x] ∧ s'.linked = (s.linked || x.isCancel) ∧
      Moves handlers s.linked s.phase event x s'.phase := by
  have hsame := (Bool.or_false s.linked).symm
  cases event with
  | proceeds =>
    simp only [step] at hs
    split at hs
    · rename_i hphase
      rw [hphase]
      split at hs
      · rename_i hlinked
        cases hs
        rw [hlinked] at hsame ⊢
        exact ⟨.finished, rfl, hlinked, .finish⟩
      · rename_i hlinked
        cases hs
        have hfalse : s.linked = false := Bool.eq_false_iff.mpr hlinked
        rw [hfalse] at hsame ⊢
        exact ⟨.tested, rfl, hfalse, .test⟩
    · rename_i hphase
      cases hs
      rw [hphase]
      exact ⟨.readBegun, rfl, hsame, .beginRead⟩
    · rename_i packet hphase
      rw [hphase]
      split at hs
      · rename_i hnone
        cases hs
        exact ⟨.skipped packet, rfl, hsame, .skip packet hnone⟩
      · rename_i handler hsome
        cases hs
        exact ⟨.called handler packet, rfl, hsame, .call packet handler hsome⟩
    · cases hs
  | readReturns result =>
    simp only [step] at hs
    split at hs
    · rename_i packet hphase
      cases hs
      rw [hphase]
      exact ⟨.read packet, rfl, hsame, .read packet⟩
    · rename_i e hphase
      cases hs
      rw [hphase]
      exact ⟨.readThrew e, rfl, hsame, .readThrows e⟩
    · cases hs
  | handlerProceeds answer =>
    simp only [step] at hs
    split at hs
    · rename_i hphase
      cases hs
      rw [hphase]
      exact ⟨.returned, rfl, hsame, .handlerReturns answer⟩
    · rename_i e hphase
      cases hs
      rw [hphase]
      exact ⟨.threw e, rfl, hsame, .handlerThrows e answer⟩
    · rename_i resume hphase
      cases hs
      rw [hphase]
      exact ⟨.cancelledByHandler, rfl, (Bool.or_true _).symm, .handlerCancels resume answer⟩
    · rename_i op resume hphase
      cases hs
      rw [hphase]
      exact ⟨.awaited, rfl, hsame, .handlerAwaits op resume answer⟩
    · cases hs
  | stateCancels =>
    cases hs
    exact ⟨.cancelledOutside, rfl, (Bool.or_true _).symm, .stateCancels _⟩
  | callerCancels =>
    cases hs
    exact ⟨.cancelledOutside, rfl, (Bool.or_true _).trans (Bool.or_true _).symm, .callerCancels _⟩

namespace Moves

variable {linked : Bool} {phase phase' : Phase Data W} {event : Event Data W} {x : Entry Data W}

/-- The packet that is due is called or passed over, and one that is read becomes due. -/
theorem due_eq (h : Moves handlers linked phase event x phase') :
    calls [x] ++ due handlers phase' = due handlers phase ++ dispatched handlers (reads [x]) := by
  cases h with
  | skip packet hnone => simp [calls, reads, due, dispatched, hnone]
  | call packet handler hsome => simp [calls, reads, due, dispatched, hsome]
  | stateCancels => exact (List.append_nil _).symm
  | callerCancels => exact (List.append_nil _).symm
  | _ => rfl

/-- A handler is at work from its call to its end. -/
theorem running_eq (h : Moves handlers linked phase event x phase') :
    (calls [x]).length + running phase = ends [x] + running phase' := by
  cases h <;> simp [calls, ends, running]

/-- A packet is under way from the test of the token to its call. -/
theorem pending_eq (h : Moves handlers linked phase event x phase') :
    gone [x] + pending phase = settled [x] + pending phase' := by
  cases h <;> simp [gone, settled, pending]

theorem pending_of_isCancel (h : Moves handlers linked phase event x phase')
    (hx : x.isCancel = true) :
    pending phase' = pending phase := by
  cases h <;> simp_all [Entry.isCancel, pending]

/-- **Under a cancelled token** no packet is gone for. -/
theorem pending_le (h : Moves handlers true phase event x phase') :
    x ≠ .tested ∧ (calls [x]).length + pending phase' ≤ pending phase := by
  cases h <;> simp [calls, pending]

theorem not_starts (h : Moves handlers true phase event x phase') (hpending : pending phase = 0) :
    ¬ x.Starts ∧ pending phase' = 0 := by
  cases h <;> simp_all [Entry.Starts, pending]

theorem pending_le_one (phase : Phase Data W) : pending phase ≤ 1 := by
  cases phase <;> simp [pending]

theorem running_of_readBegun (h : Moves handlers linked phase event .readBegun phase') :
    running phase = 0 := by
  cases h
  rfl

theorem pending_of_handlerCancels
    (h : Moves handlers linked phase event .cancelledByHandler phase') :
    pending phase' = 0 := by
  cases h
  rfl

theorem ended_of_throws {e : Exn} (h : Moves handlers linked phase event (.threw e) phase') :
    phase' = .ended (.error e) := by
  cases h
  rfl

theorem of_ended {result : Except Exn Unit}
    (h : Moves handlers linked (.ended result) event x phase') :
    x = .cancelledOutside ∧ phase' = .ended result := by
  cases h with
  | stateCancels => exact ⟨rfl, rfl⟩
  | callerCancels => exact ⟨rfl, rfl⟩

theorem linked_of_returns (h : Moves handlers linked phase event x (.ended (.ok ()))) :
    linked = true ∨ phase = .ended (.ok ()) := by
  cases h with
  | finish => exact .inl rfl
  | stateCancels => exact .inr rfl
  | callerCancels => exact .inr rfl

theorem threw_of_throws {e : Exn} (h : Moves handlers linked phase event x (.ended (.error e))) :
    (x = .threw e ∨ x = .readThrew e) ∨ phase = .ended (.error e) := by
  cases h with
  | readThrows => exact .inl (.inr rfl)
  | handlerThrows => exact .inl (.inl rfl)
  | stateCancels => exact .inr rfl
  | callerCancels => exact .inr rfl

end Moves

/-! ### The loop goes on -/

variable (handlers) in
structure Kept (s : ProcessingLoop Data W) : Prop where
  in_order : calls s.log ++ due handlers s.phase = dispatched handlers (reads s.log)
  balanced : (calls s.log).length = ends s.log + running s.phase
  under_way : gone s.log = settled s.log + pending s.phase
  not_cancelled : s.linked = false → ∀ x ∈ s.log, x.isCancel = false
  one_at_a_time : Before (· = .readBegun) (fun before => (calls before).length = ends before) s.log
  cancels : Around (·.isCancel = true)
    (fun before after => .tested ∉ after ∧
      (calls after).length + pending s.phase ≤ underWay before ∧ underWay before ≤ 1) s.log
  handler_cancels : After (· = .cancelledByHandler)
    (fun after => (∀ x ∈ after, ¬ x.Starts) ∧ pending s.phase = 0) s.log
  handler_throws : ∀ e, After (· = .threw e)
    (fun after => s.phase = .ended (.error e) ∧ ∀ x ∈ after, x = .cancelledOutside) s.log
  returns_cancelled : s.phase = .ended (.ok ()) → s.linked = true
  throws_thrown : ∀ e, s.phase = .ended (.error e) → .threw e ∈ s.log ∨ .readThrew e ∈ s.log

theorem calls_append (log log' : List (Entry Data W)) :
    calls (log ++ log') = calls log ++ calls log' := List.filterMap_append

theorem reads_append (log log' : List (Entry Data W)) :
    reads (log ++ log') = reads log ++ reads log' := List.filterMap_append

theorem ends_append (log log' : List (Entry Data W)) : ends (log ++ log') = ends log + ends log' :=
  List.countP_append

theorem gone_append (log log' : List (Entry Data W)) : gone (log ++ log') = gone log + gone log' :=
  List.countP_append

theorem settled_append (log log' : List (Entry Data W)) :
    settled (log ++ log') = settled log + settled log' := List.countP_append

theorem Kept.underWay_eq (h : Kept handlers s) : underWay s.log = pending s.phase := by
  rw [underWay, h.under_way, Nat.add_sub_cancel_left]

theorem dispatched_append (packets packets' : List (IPacket Data)) :
    dispatched handlers (packets ++ packets') =
      dispatched handlers packets ++ dispatched handlers packets' :=
  List.filterMap_append

section Step

variable {event : Event Data W} {x : Entry Data W}

theorem cancels_step (h : Kept handlers s) (hlog : s'.log = s.log ++ [x])
    (hmoves : Moves handlers s.linked s.phase event x s'.phase) :
    Around (·.isCancel = true)
      (fun before after => .tested ∉ after ∧
        (calls after).length + pending s'.phase ≤ underWay before ∧ underWay before ≤ 1)
      s'.log := by
  rw [hlog]
  have hlast : x.isCancel = true → .tested ∉ ([] : List (Entry Data W)) ∧
      (calls ([] : List (Entry Data W))).length + pending s'.phase ≤ underWay s.log ∧
        underWay s.log ≤ 1 := by
    intro hx
    rw [h.underWay_eq, hmoves.pending_of_isCancel hx]
    refine ⟨List.not_mem_nil, ?_, Moves.pending_le_one _⟩
    show 0 + pending s.phase ≤ pending s.phase
    rw [Nat.zero_add]
  cases hlinked : s.linked with
  | false =>
    have hnone : Around (·.isCancel = true) (fun _ _ => False) s.log :=
      .of_forall_not fun y hy => by simp [h.not_cancelled hlinked y hy]
    exact hnone.snoc (fun _ _ hfalse => hfalse.elim) hlast
  | true =>
    rw [hlinked] at hmoves
    obtain ⟨htested, hle⟩ := hmoves.pending_le
    refine h.cancels.snoc (fun before after hafter => ⟨?_, ?_, hafter.2.2⟩) hlast
    · intro hmem
      rcases List.mem_append.mp hmem with hmem | hmem
      · exact hafter.1 hmem
      · exact htested (List.mem_singleton.mp hmem).symm
    · have hbefore := hafter.2.1
      rw [calls_append, List.length_append]
      omega

theorem handler_cancels_step (h : Kept handlers s) (hlog : s'.log = s.log ++ [x])
    (hmoves : Moves handlers s.linked s.phase event x s'.phase) :
    After (· = .cancelledByHandler)
      (fun after => (∀ y ∈ after, ¬ y.Starts) ∧ pending s'.phase = 0) s'.log := by
  rw [hlog]
  have hlast : x = .cancelledByHandler →
      (∀ y ∈ ([] : List (Entry Data W)), ¬ y.Starts) ∧ pending s'.phase = 0 := by
    rintro rfl
    exact ⟨fun y hy => absurd hy List.not_mem_nil, hmoves.pending_of_handlerCancels⟩
  cases hlinked : s.linked with
  | false =>
    have hnone : After (· = .cancelledByHandler) (fun _ => False) s.log := by
      refine Around.of_forall_not fun y hy hcancel => ?_
      have hfalse := h.not_cancelled hlinked y hy
      rw [hcancel] at hfalse
      cases hfalse
    exact hnone.snoc (fun _ hfalse => hfalse.elim) hlast
  | true =>
    rw [hlinked] at hmoves
    refine h.handler_cancels.snoc (fun after hafter => ?_) hlast
    obtain ⟨hstarts, hpending⟩ := hmoves.not_starts hafter.2
    refine ⟨fun y hy => ?_, hpending⟩
    rcases List.mem_append.mp hy with hy | hy
    · exact hafter.1 y hy
    · rw [List.mem_singleton.mp hy]
      exact hstarts

theorem handler_throws_step (h : Kept handlers s) (hlog : s'.log = s.log ++ [x])
    (hmoves : Moves handlers s.linked s.phase event x s'.phase) (e : Exn) :
    After (· = .threw e)
      (fun after => s'.phase = .ended (.error e) ∧ ∀ y ∈ after, y = .cancelledOutside) s'.log := by
  rw [hlog]
  refine (h.handler_throws e).snoc (fun after hafter => ?_) ?_
  · obtain ⟨hphase, hall⟩ := hafter
    rw [hphase] at hmoves
    obtain ⟨hx, hphase'⟩ := hmoves.of_ended
    refine ⟨hphase', fun y hy => ?_⟩
    rcases List.mem_append.mp hy with hy | hy
    · exact hall y hy
    · rw [List.mem_singleton.mp hy, hx]
  · rintro rfl
    exact ⟨hmoves.ended_of_throws, fun y hy => absurd hy List.not_mem_nil⟩

theorem kept_step (h : Kept handlers s)
    (hs : step handlers s event = some s') : Kept handlers s' := by
  obtain ⟨x, hlog, hlinked, hmoves⟩ := exists_moves hs
  refine {
    in_order := ?_
    balanced := ?_
    under_way := ?_
    not_cancelled := ?_
    one_at_a_time := ?_
    cancels := cancels_step h hlog hmoves
    handler_cancels := handler_cancels_step h hlog hmoves
    handler_throws := handler_throws_step h hlog hmoves
    returns_cancelled := ?_
    throws_thrown := ?_ }
  · rw [hlog, calls_append, reads_append, dispatched_append, ← h.in_order, List.append_assoc,
      hmoves.due_eq, List.append_assoc]
  · have hbefore := h.balanced
    have hrunning := hmoves.running_eq
    rw [hlog, calls_append, ends_append, List.length_append]
    omega
  · have hbefore := h.under_way
    have hpending := hmoves.pending_eq
    rw [hlog, gone_append, settled_append]
    omega
  · intro hfalse y hy
    rw [hlinked, Bool.or_eq_false_iff] at hfalse
    rw [hlog] at hy
    rcases List.mem_append.mp hy with hy | hy
    · exact h.not_cancelled hfalse.1 y hy
    · rw [List.mem_singleton.mp hy]
      exact hfalse.2
  · rw [hlog]
    refine h.one_at_a_time.snoc ?_
    rintro rfl
    have hbefore := h.balanced
    rw [hmoves.running_of_readBegun, Nat.add_zero] at hbefore
    exact hbefore
  · intro hphase
    rw [hphase] at hmoves
    rcases hmoves.linked_of_returns with htrue | hended
    · rw [hlinked, htrue, Bool.true_or]
    · rw [hlinked, h.returns_cancelled hended, Bool.true_or]
  · intro e hphase
    rw [hphase] at hmoves
    rw [hlog]
    rcases hmoves.threw_of_throws with (rfl | rfl) | hended
    · exact .inl List.mem_concat_self
    · exact .inr List.mem_concat_self
    · exact (h.throws_thrown e hended).imp (List.mem_append_left _) (List.mem_append_left _)

end Step

theorem kept_new : Kept handlers (.new : ProcessingLoop Data W) where
  in_order := rfl
  balanced := rfl
  under_way := rfl
  not_cancelled _ _ hx := absurd hx List.not_mem_nil
  one_at_a_time := Around.nil
  cancels := Around.nil
  handler_cancels := Around.nil
  handler_throws _ := Around.nil
  returns_cancelled hphase := by cases hphase
  throws_thrown _ hphase := by cases hphase

end Dispatch

/-! ### `ClosingSessionPacketHandler` -/

section Closing

variable {Ty : Type} [DecidableEq Ty] {Data : Ty → Type} {W : Signature}

/-- On its packet the handler cancels, and that is all. -/
theorem closingSessionPacketHandler_eq (t : Ty) (data : Data t) :
    closingSessionPacketHandler (W := W) t
        { packetType := t, packet := { packetOpcode := 1, data := data } } =
      perform (S := handling W) HandlerOp.cancelProcessing := by
  rw [closingSessionPacketHandler, basePacketHandler, dif_pos rfl]
  rfl

end Closing

end Manafont.Packets.Handling
