import Manafont.Game.Program

/-!
# Input that is malformed or cut off

A registry may be built from the serializers of the repository in any way: any packet types,
any opcodes for the types without fields, in any order and number (`OfRepository`).

On a stream that hands out all it has and then ends, no packet is made up from what is not
there (`NothingMadeUp`): `ReadPacketAsync` throws when the opcode is cut off or not
registered, and when fewer bytes follow it than its encoder emits.  The reader of an
`AuthPacket` drops the answer of `EnsureAsync`, but the first field it reads then asks a
stream that has ended (`AuthPacketSerializer.readAsync_of_short`).
-/

namespace Manafont.Game

open Program Packets.IO Session

/-- A serializer of the repository: one for a type without fields, or the one of `AuthPacket`. -/
inductive OfRepository (host : Host) : {T : Type} → PacketSerializer T → Prop
  | empty (T : Type) (opcode : Opcode) : OfRepository host (emptyPacketSerializer T opcode)
  | auth : OfRepository host (authPacketSerializer host)

/-- **Fewer bytes than the encoder emits end the stream.** -/
theorem readAsync_of_truncated {host : Host} {T : Type} [Inhabited T] {ser : PacketSerializer T}
    (hser : OfRepository host ser) {packet : T} {payload : List UInt8}
    (hpayload : ser.writeFieldsAsync packet [] = .ok () payload) (pool : MemoryPool) {s : Stream}
    (hclosed : s.closed = true) (hshort : s.rest.length < payload.length) :
    ∃ s', ser.readAsync pool s = .error (.thrown .endOfStream) s' := by
  cases hser with
  | empty T opcode =>
    cases hpayload
    exact absurd hshort (Nat.not_lt_zero _)
  | auth =>
    have hlen : payload.length = 0x38 := AuthPacketSerializer.length_writeFieldsAsync hpayload
    obtain ⟨c, hread⟩ := AuthPacketSerializer.readAsync_of_short host pool
      (show s.rest.length < 0x48 by omega)
    rw [hclosed] at hread
    exact ⟨_, hread⟩

theorem readWrapped_of_truncated {Ty : Type} {Data : Ty → Type} [∀ t, Inhabited (Data t)]
    {host : Host} {ser : IPacketSerializer Data} (hser : OfRepository host ser.serializer)
    {packet : Data ser.packetType} {payload : List UInt8}
    (hpayload : ser.serializer.writeFieldsAsync packet [] = .ok () payload) (pool : MemoryPool)
    {s : Stream} (hclosed : s.closed = true) (hshort : s.rest.length < payload.length) :
    ∃ s', PacketIo.readWrapped pool ser s = .error (.thrown .endOfStream) s' := by
  obtain ⟨s', hread⟩ := readAsync_of_truncated hser hpayload pool hclosed hshort
  exact ⟨s', bind_of_error (PacketSerializer.readWrappedAsync_of_error hread)⟩

section Registry

variable {Ty : Type} [DecidableEq Ty] {Data : Ty → Type} {P : SerializerClasses Data}

def Emits (io : PacketIo P) (opcode : Opcode) (payload : List UInt8) : Prop :=
  ∃ ser packet, io.dispatch opcode = .ok ser ∧
    ser.serializer.writeFieldsAsync packet [] = .ok () payload

/-- What `ReadPacketAsync` ends with when no packet is made up.  `s` is the stream it found. -/
structure NothingMadeUp (io : PacketIo P) (s : Stream)
    (r : EStateM.Result Halt Stream (IPacket Data)) : Prop where
  opcode_cut_off : s.rest.length < 2 → outcome r = .error (.thrown .endOfStream)
  unregistered : ∀ opcode rest, s.rest = networkBytes 2 opcode ++ rest →
    io.options.opcodeRegistry opcode = none →
      outcome r = .error (.thrown (.keyNotFound opcode)) ∧ (final r).taken = s.taken + 2
  payload_cut_off : ∀ opcode rest payload, s.rest = networkBytes 2 opcode ++ rest →
    Emits io opcode payload → rest.length < payload.length →
      outcome r = .error (.thrown .endOfStream)
  returned : ∀ packet s', r = .ok packet s' → ∃ opcode rest ser,
    s.rest = networkBytes 2 opcode ++ rest ∧ io.dispatch opcode = .ok ser ∧
      ∀ payload, Emits io opcode payload → payload.length ≤ rest.length

theorem exists_dispatch {regs : List (Registration P)} {io : PacketIo P}
    {sers : List (IPacketSerializer Data)}
    (hio : PacketIo.new (serviceCollection regs) = .ok io)
    (hsers : getServices (serviceCollection regs) = .ok sers) {opcode : Opcode} {t : Ty}
    (ht : io.options.opcodeRegistry opcode = some t) :
    ∃ ser ∈ sers, io.dispatch opcode = .ok ser := by
  rw [PacketIo.new, hsers] at hio
  cases hio
  obtain ⟨first, hfirst, -⟩ := find?_of_registry ht
  obtain ⟨ser, hlast⟩ := lastOf_of_firstOf hfirst
  refine ⟨ser, List.mem_reverse.mp (List.mem_of_find?_eq_some hlast), ?_⟩
  have hservice := getRequiredService_eq hsers t
  rw [hlast] at hservice
  have htype : PacketIoOptions.getPacketType (sers.foldl .register .new) opcode = .ok t := by
    rw [PacketIoOptions.getPacketType, ht]
  rw [PacketIo.dispatch, htype]
  exact hservice

theorem dispatch_of_registry_none {io : PacketIo P} {opcode : Opcode}
    (h : io.options.opcodeRegistry opcode = none) :
    io.dispatch opcode = .error (.keyNotFound opcode) := by
  rw [PacketIo.dispatch, PacketIoOptions.getPacketType, h]
  rfl

theorem exists_opcode {bytes : List UInt8} (h : 2 ≤ bytes.length) :
    ∃ opcode rest, bytes = networkBytes 2 opcode ++ rest := by
  refine ⟨ofNetworkBytes 2 (bytes.take 2), bytes.drop 2, ?_⟩
  have hlen : (bytes.take 2).length = 2 := by
    rw [List.length_take, Nat.min_eq_left h]
  rw [networkBytes_ofNetworkBytes hlen, List.take_append_drop]

theorem readPacketAsync_of_opcode [∀ t, Inhabited (Data t)] {host : Host} {pool : MemoryPool}
    {io : PacketIo P} {s : Stream} {opcode : Opcode} {rest : List UInt8}
    (hs : s.rest = networkBytes 2 opcode ++ rest) (hgreedy : s.Greedy) :
    io.readPacketAsync host pool s =
      match io.dispatch opcode with
      | .ok ser => PacketIo.readWrapped pool ser (s.after 2 1)
      | .error e => .error (.thrown e) (s.after 2 1) := by
  rw [PacketIo.readPacketAsync,
    bind_of_ok (readNetworkNumberAsync_opcode host opcode hs (handed_opcode hs hgreedy))]
  cases io.dispatch opcode with
  | ok ser => rfl
  | error e => rfl

/-- **No packet is made up from input that is malformed or cut off**, with any registry of the
repository's serializers and any memory the pool gives out. -/
theorem nothingMadeUp [∀ t, Inhabited (Data t)] (host : Host) (pool : MemoryPool)
    (regs : List (Registration P)) (io : PacketIo P) (sers : List (IPacketSerializer Data))
    (hio : PacketIo.new (serviceCollection regs) = .ok io)
    (hsers : getServices (serviceCollection regs) = .ok sers)
    (hrepository : ∀ ser ∈ sers, OfRepository host ser.serializer) (s : Stream)
    (hgreedy : s.Greedy) (hclosed : s.closed = true) :
    NothingMadeUp io s (io.readPacketAsync host pool s) := by
  have htruncated : ∀ opcode rest payload, s.rest = networkBytes 2 opcode ++ rest →
      Emits io opcode payload → rest.length < payload.length →
      ∃ s', io.readPacketAsync host pool s = .error (.thrown .endOfStream) s' := by
    rintro opcode rest payload hs ⟨ser, packet, hdispatch, hpayload⟩ hshort
    rw [readPacketAsync_of_opcode hs hgreedy, hdispatch]
    have hser : OfRepository host ser.serializer := by
      cases ht : io.options.opcodeRegistry opcode with
      | none =>
        rw [dispatch_of_registry_none ht] at hdispatch
        cases hdispatch
      | some t =>
        obtain ⟨ser', hmem, hdispatch'⟩ := exists_dispatch hio hsers ht
        rw [hdispatch] at hdispatch'
        cases hdispatch'
        exact hrepository ser hmem
    refine readWrapped_of_truncated hser hpayload pool hclosed ?_
    rwa [Stream.after_rest, hs, List.drop_left' (length_networkBytes 2 opcode)]
  constructor
  · intro h
    obtain ⟨c, hread⟩ := readNetworkNumberAsync_of_short host h
    rw [PacketIo.readPacketAsync, bind_of_error hread, hclosed]
    rfl
  · intro opcode rest hs hnone
    rw [readPacketAsync_of_opcode hs hgreedy, dispatch_of_registry_none hnone]
    exact ⟨rfl, rfl⟩
  · intro opcode rest payload hs hemits hshort
    obtain ⟨s', hread⟩ := htruncated opcode rest payload hs hemits hshort
    rw [hread]
    rfl
  · intro packet s' hread
    by_cases hlen : s.rest.length < 2
    · obtain ⟨c, hopcode⟩ := readNetworkNumberAsync_of_short host hlen
      rw [PacketIo.readPacketAsync, bind_of_error hopcode] at hread
      cases hread
    · obtain ⟨opcode, rest, hs⟩ := exists_opcode (Nat.not_lt.mp hlen)
      have hopcode : io.readPacketAsync host pool s = _ := readPacketAsync_of_opcode hs hgreedy
      cases hdispatch : io.dispatch opcode with
      | error e =>
        rw [hread, hdispatch] at hopcode
        cases hopcode
      | ok ser =>
        refine ⟨opcode, rest, ser, hs, hdispatch, fun payload hemits => ?_⟩
        by_contra hshort
        obtain ⟨t, hthrown⟩ := htruncated opcode rest payload hs hemits (Nat.not_le.mp hshort)
        rw [hread] at hthrown
        cases hthrown

end Registry

/-- The theorem on the registry of the program and the opcode of an `AuthPacket` with one byte
behind it. -/
theorem authOpcode_nothingMadeUp :
    NothingMadeUp (packetIo .x64) (.ofBytes [0, 2, 7] true)
      ((packetIo .x64).readPacketAsync .x64 .zeroed (.ofBytes [0, 2, 7] true)) :=
  nothingMadeUp .x64 .zeroed (registrations .x64) (packetIo .x64) (serializers .x64)
    (new_registrations .x64) rfl
    (by
      intro ser hser
      simp only [serializers, List.map_cons, List.map_nil, List.mem_cons, List.not_mem_nil,
        or_false] at hser
      rcases hser with rfl | rfl | rfl
      · exact .auth
      · exact .empty _ _
      · exact .empty _ _)
    (.ofBytes [0, 2, 7] true) (Stream.greedy_ofBytes _ _) rfl

end Manafont.Game
