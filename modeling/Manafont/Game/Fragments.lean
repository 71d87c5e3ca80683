import Manafont.Game.Framing
import Manafont.Session.AuthPacketCodec

/-!
# Packets that cannot be encoded

`WritePacketAsync` writes to the stream as it goes, and a conversion that throws comes after
what has been written.  An `AuthPacket` whose token is too long for its block leaves its
opcode, and one without a version its opcode and the block of its token (`fragment`); these
two are all the packets that are refused (`encoding_eq_none_iff`).

Whatever packets are written, the stream holds their encodings and these fragments, in order
(`contentAfter_eq`).
-/

namespace Manafont.Game

open Program Packets.IO Session Session.AuthPacketSerializer

/-- What the stream holds after the packets were written to it one after another.  The
caller goes on after an exception. -/
def contentAfter (host : Host) (content : List UInt8) (ps : List AnyPacket) : List UInt8 :=
  ps.foldl (fun out p => final ((packetIo host).writePacketAsync host p.1 p.2 out)) content

def encoding (host : Host) (p : AnyPacket) : Option (List UInt8) :=
  match (packetIo host).writePacketAsync host p.1 p.2 [] with
  | .ok _ bytes => some bytes
  | .error _ _ => none

/-- The token is too long for its block, or there is no version. -/
def Unencodable : AnyPacket → Prop
  | ⟨.auth, (pkt : AuthPacket)⟩ =>
    0x28 < (pkt.oAuthToken.getD []).length ∨ pkt.protocolVersion = none
  | _ => False

/-- What a packet that cannot be encoded leaves: its opcode, and the block of its token when
the token fits. -/
def fragment : AnyPacket → List UInt8
  | ⟨.auth, (pkt : AuthPacket)⟩ => networkBytes 2 AuthPacket.opcode ++
    if (pkt.oAuthToken.getD []).length ≤ 0x28 then tokenBlock pkt.oAuthToken else []
  | _ => []

section Writing

variable {host : Host}

theorem encoding_eq_some_iff {p : AnyPacket} {bytes : List UInt8} :
    encoding host p = some bytes ↔ ∃ payload,
      (serializerOf host p.1).writeFieldsAsync p.2 [] = .ok () payload ∧
        bytes = networkBytes 2 (opcodeOf p.1) ++ payload := by
  rw [← writePacketAsync_eq_ok_iff, encoding]
  cases (packetIo host).writePacketAsync host p.1 p.2 [] with
  | ok u out => simp
  | error e out => simp

/-- A packet whose fields are refused has no encoding, and leaves its opcode and the fields
before the one that was refused. -/
theorem writePacketAsync_of_error {p : AnyPacket} {e : Exn} {payload : List UInt8}
    (h : (serializerOf host p.1).writeFieldsAsync p.2 [] = .error e payload) :
    (packetIo host).writePacketAsync host p.1 p.2 [] =
      .error e (networkBytes 2 (opcodeOf p.1) ++ payload) := by
  have ho : writeNetworkNumberAsync host 2 (serializerOf host p.1).opcode [] =
      .ok () (networkBytes 2 (opcodeOf p.1)) := by
    rw [writeNetworkNumberAsync_eq, opcode_serializerOf]
    rfl
  rw [writePacketAsync_eq, PacketSerializer.writeAsync, bind_of_ok ho,
    (serializerOf host p.1).writeFieldsAsync_appends p.2, h]

theorem writeFieldsAsync_of_unencodable {pkt : AuthPacket}
    (h : Unencodable ⟨.auth, pkt⟩) : ∃ e, writeFieldsAsync host pkt [] = .error e
      (if (pkt.oAuthToken.getD []).length ≤ 0x28 then tokenBlock pkt.oAuthToken else []) := by
  by_cases htoken : (pkt.oAuthToken.getD []).length ≤ 0x28
  · rw [if_pos htoken]
    exact ⟨_, writeFieldsAsync_of_null htoken (h.resolve_left (Nat.not_lt.mpr htoken))⟩
  · rw [if_neg htoken]
    exact ⟨_, writeFieldsAsync_of_long (Nat.not_le.mp htoken)⟩

/-- **A packet that cannot be encoded leaves its fragment.** -/
theorem writePacketAsync_of_unencodable (host : Host) {p : AnyPacket} (h : Unencodable p) :
    ∃ e, (packetIo host).writePacketAsync host p.1 p.2 [] = .error e (fragment p) := by
  obtain ⟨t, d⟩ := p
  cases t with
  | auth =>
    obtain ⟨e, he⟩ : ∃ e, writeFieldsAsync host d [] = .error e _ :=
      writeFieldsAsync_of_unencodable h
    exact ⟨e, writePacketAsync_of_error (p := ⟨.auth, d⟩) he⟩
  | closingSession => exact h.elim
  | sessionRevoked => exact h.elim

theorem exists_encoding (host : Host) {p : AnyPacket} (h : ¬ Unencodable p) :
    ∃ bytes, encoding host p = some bytes := by
  obtain ⟨t, d⟩ := p
  have hfields : ∃ payload, (serializerOf host t).writeFieldsAsync d [] = .ok () payload := by
    cases t with
    | auth =>
      obtain ⟨htoken, hversion⟩ := not_or.mp h
      obtain ⟨version, hv⟩ := Option.ne_none_iff_exists'.mp hversion
      exact ⟨_, writeFieldsAsync_of_version (Nat.not_lt.mp htoken) hv⟩
    | closingSession => exact ⟨[], rfl⟩
    | sessionRevoked => exact ⟨[], rfl⟩
  obtain ⟨payload, hpayload⟩ := hfields
  exact ⟨_, encoding_eq_some_iff.mpr ⟨payload, hpayload, rfl⟩⟩

theorem encoding_eq_none_iff {p : AnyPacket} : encoding host p = none ↔ Unencodable p := by
  constructor
  · intro h
    by_contra hp
    obtain ⟨bytes, hbytes⟩ := exists_encoding host hp
    rw [h] at hbytes
    cases hbytes
  · intro h
    obtain ⟨e, he⟩ := writePacketAsync_of_unencodable host h
    rw [encoding, he]

theorem final_writePacketAsync (p : AnyPacket) (out : List UInt8) :
    final ((packetIo host).writePacketAsync host p.1 p.2 out) =
      out ++ (encoding host p).getD (fragment p) := by
  rw [appends_writePacketAsync p out]
  by_cases hp : Unencodable p
  · obtain ⟨e, he⟩ := writePacketAsync_of_unencodable host hp
    rw [encoding_eq_none_iff.mpr hp, he]
    rfl
  · obtain ⟨bytes, hbytes⟩ := exists_encoding host hp
    have hw := writePacketAsync_eq_ok_iff.mpr (encoding_eq_some_iff.mp hbytes)
    rw [hbytes, hw]
    rfl

end Writing

/-- **The stream holds the encodings of the packets that were written and the fragments of
those that were refused**, in order; refused is an `AuthPacket` whose token is too long or
that has no version, and its fragment is never empty. -/
theorem contentAfter_eq (host : Host) (content : List UInt8) (ps : List AnyPacket) :
    contentAfter host content ps =
        content ++ (ps.map fun p => (encoding host p).getD (fragment p)).flatten ∧
      ∀ p, (encoding host p = none ↔ Unencodable p) ∧ (Unencodable p → fragment p ≠ []) := by
  constructor
  · induction ps generalizing content with
    | nil => exact (List.append_nil content).symm
    | cons p ps ih =>
      rw [contentAfter, List.foldl_cons, final_writePacketAsync]
      refine (ih _).trans ?_
      rw [List.map_cons, List.flatten_cons, List.append_assoc]
  · intro p
    refine ⟨encoding_eq_none_iff, fun hp => ?_⟩
    obtain ⟨t, d⟩ := p
    cases t with
    | auth => exact List.cons_ne_nil _ _
    | closingSession => exact hp.elim
    | sessionRevoked => exact hp.elim

def unversioned : AuthPacket := { oAuthToken := some [0x74], protocolVersion := none }

/-- **Of an `AuthPacket` without a version 42 bytes stay on the stream**, and the opcode of
the next packet comes behind them. -/
theorem unversioned_leaves_fragment :
    encoding .x64 ⟨.auth, unversioned⟩ = none ∧
      contentAfter .x64 [] [⟨.auth, unversioned⟩] = [0, 2, 0x74] ++ List.replicate 0x27 0 ∧
      contentAfter .x64 [] [⟨.auth, unversioned⟩, ⟨.closingSession, default⟩] ≠
        ([⟨.auth, unversioned⟩, ⟨.closingSession, default⟩].filterMap (encoding .x64)).flatten := by
  refine ⟨rfl, rfl, ?_⟩
  decide

end Manafont.Game
