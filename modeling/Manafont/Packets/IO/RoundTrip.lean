import Manafont.Packets.IO.PacketSerializer

/-!
# A packet through a serializer and back

`FieldsRoundTrip` is what a serializer promises about its own two methods: run
on the bytes that `WriteFieldsAsync` emits for a packet, `ReadFieldsAsync` leaves
that packet in `pkt[0]`.  `RoundTrips` is what a caller of the framework expects
of `WriteAsync`, `ReadAsync` and `ReadWrappedAsync`.

The first does not give the second: `ReadAsync` returns its local and not the
element of the array, so a packet comes back exactly when it is `default(T)`
(`roundTrips_iff_eq_default`).
-/

namespace Manafont.Packets.IO

open Program

namespace PacketSerializer

variable {T : Type} [Inhabited T]

/-- `ReadFieldsAsync`, run on what `WriteFieldsAsync` emits for `p`, leaves `p` in `pkt[0]`. -/
def FieldsRoundTrip (pool : MemoryPool) (ser : PacketSerializer T) (closed : Bool) (p : T) :
    Prop :=
  ∀ payload, ser.writeFieldsAsync p [] = .ok () payload →
    ∀ s : Stream, s.rest = payload → s.Greedy → s.closed = closed →
      ∃ pkt win, (ser.readFieldsAsync .new).run [default]
        { memory := pool.rent ser.size, stream := s } = .ok ((), pkt) win ∧ pkt[0]? = some p

/-- The opcode, the packet and the wrapped packet come back from `bytes`. -/
def RoundTrips (host : Host) (pool : MemoryPool) (ser : PacketSerializer T) (closed : Bool)
    (p : T) (bytes : List UInt8) : Prop :=
  ∃ s, readNetworkNumberAsync host 2 (.ofBytes bytes closed) = .ok ser.opcode s ∧
    (∃ s', ser.readAsync pool s = .ok p s') ∧
    ∃ s', ser.readWrappedAsync pool s = .ok { packetOpcode := ser.opcode, data := p } s'

/-- **A packet comes back exactly when it is `default(T)`**, for every serializer whose
own two methods agree on it. -/
theorem roundTrips_iff_eq_default (host : Host) (pool : MemoryPool) (ser : PacketSerializer T)
    (closed : Bool) (p : T) (bytes : List UInt8)
    (hfields : ser.FieldsRoundTrip pool closed p)
    (hwrite : ser.writeAsync host p [] = .ok () bytes) :
    ser.RoundTrips host pool closed p bytes ↔ p = default := by
  obtain ⟨payload, hp, rfl⟩ := (ser.writeAsync_eq_ok_iff host p).mp hwrite
  let s := Stream.ofBytes (networkBytes 2 ser.opcode ++ payload) closed
  have hgreedy : s.Greedy := Stream.greedy_ofBytes _ _
  have hopcode : readNetworkNumberAsync host 2 s = .ok ser.opcode (s.after 2 1) :=
    readNetworkNumberAsync_opcode host ser.opcode rfl (handed_opcode rfl hgreedy)
  have hrest : (s.after 2 1).rest = payload := by
    rw [Stream.after_rest]
    exact List.drop_left' (length_networkBytes 2 _)
  obtain ⟨pkt, win, hread, -⟩ := hfields payload hp (s.after 2 1) hrest (hgreedy.after 2 1) rfl
  have hdefault := readAsync_of_ok hread
  constructor
  · rintro ⟨t, -, ⟨s', hs'⟩, -⟩
    exact eq_default_of_readAsync hs'
  · rintro rfl
    exact ⟨s.after 2 1, hopcode, ⟨_, hdefault⟩, ⟨_, readWrappedAsync_of_ok hdefault⟩⟩

end PacketSerializer

/-! ### A struct with one integer -/

/-- The serializer of a struct whose one field is an integer of `w` bytes. -/
def integerSerializer (host : Host) (w : Nat) (opcode : Opcode) :
    PacketSerializer (BitVec (8 * w)) where
  size := w
  opcode := opcode
  readFieldsAsync buffer := do
    let field ← buffer.readNetworkNumberAsync host w
    modify fun pkt => pkt.set 0 field
  writeFieldsAsync pkt := writeNetworkNumberAsync host w pkt
  writeFieldsAsync_appends pkt := appends_writeNetworkNumberAsync host w pkt

theorem integerSerializer_fieldsRoundTrip (host : Host) (pool : MemoryPool) {w : Nat} (hw : 0 < w)
    (opcode : Opcode) (closed : Bool) (p : BitVec (8 * w)) :
    (integerSerializer host w opcode).FieldsRoundTrip pool closed p := by
  intro payload hpayload s hrest hgreedy _
  have hp : payload = networkBytes w p := by
    have h : writeNetworkNumberAsync host w p [] = .ok () payload := hpayload
    rw [writeNetworkNumberAsync_eq] at h
    cases h
    rfl
  subst hp
  have hpool := pool.le_length_rent w
  have hhanded : w ≤ s.handed (pool.rent w).length := by
    rw [hgreedy.handed, hrest, length_networkBytes]
    omega
  obtain ⟨memory, -, he⟩ := StreamReadBuffer.readNetworkNumberAsync_of_handed host
    { memory := pool.rent w, stream := s } hw hhanded
  rw [hrest, List.take_of_length_le (by rw [length_networkBytes]),
    ofNetworkBytes_networkBytes] at he
  exact ⟨[p], _, run_lift_bind_of_ok he, rfl⟩

/-- The theorem on a `ushort` that holds `7`. -/
theorem ushortPacket_roundTrips_iff :
    (integerSerializer .x64 2 9).RoundTrips .x64 .zeroed true 7 [0, 9, 0, 7] ↔
      (7 : BitVec (8 * 2)) = default :=
  PacketSerializer.roundTrips_iff_eq_default .x64 .zeroed (integerSerializer .x64 2 9) true 7
    [0, 9, 0, 7] (integerSerializer_fieldsRoundTrip .x64 .zeroed (by omega) 9 true 7) (by rfl)

/-- **A `ushort` that holds `7` does not come back**, though its serializer's methods agree. -/
theorem ushortPacket_lost :
    (integerSerializer .x64 2 9).FieldsRoundTrip .zeroed true 7 ∧
      (integerSerializer .x64 2 9).writeAsync .x64 7 [] = .ok () [0, 9, 0, 7] ∧
      ¬ (integerSerializer .x64 2 9).RoundTrips .x64 .zeroed true 7 [0, 9, 0, 7] := by
  refine ⟨integerSerializer_fieldsRoundTrip .x64 .zeroed (by omega) 9 true 7, by rfl, ?_⟩
  rintro ⟨s, -, ⟨s', h⟩, -⟩
  have h7 : (7 : BitVec (8 * 2)) = default := PacketSerializer.eq_default_of_readAsync h
  exact absurd h7 (by decide)

end Manafont.Packets.IO
