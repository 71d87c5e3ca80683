import Manafont.Game.Fragments
import Manafont.Library.PrefixCode
import Manafont.Packets.IO.AnsiCString

/-!
# What the bytes of packets tell

The readers of the program do not keep the frames of an `AuthPacket` (`Framing.lean`).  The format
is not the reason: its opcode says how long a packet is, so the bytes of packets that were written
tell where each of them ends.

They tell the types of the packets, the versions and the tokens up to what the conversion to
ASCII and the trimming of NULs leave (`carried`).  What one host has written begins what another
has written exactly when it has written the first of the same packets (`written_prefix_iff`).
-/

namespace Manafont.Game

open Program Packets.IO Session Session.AuthPacketSerializer PrefixCode

/-- A packet as its bytes carry it. -/
def carried : AnyPacket → AnyPacket
  | ⟨.auth, (pkt : AuthPacket)⟩ => ⟨.auth, ({
      oAuthToken := some (marshalled pkt.oAuthToken)
      protocolVersion := pkt.protocolVersion } : AuthPacket)⟩
  | p => p

def payloadLength : PacketType → Nat
  | .auth => 0x38
  | _ => 0

/-! ### The blocks -/

theorem ansiBlock_marshalled {token : Option DotNetString}
    (h : (token.getD []).length ≤ 0x28) :
    ansiBlock 0x28 (marshalled token) = tokenBlock token := by
  have hascii : ∀ b ∈ tokenBlock token, b < 0x80 := by
    intro b hb
    rcases List.mem_append.mp hb with htext | hzeros
    · exact lt_of_mem_asciiBytes htext
    · rw [List.eq_of_mem_replicate hzeros]
      decide
  have hread : (Host.x64.asciiGetString (tokenBlock token)).trimEndNul = marshalled token :=
    trimEndNul_asciiGetString _ _ _
  rw [← hread, ← length_tokenBlock h, ansiBlock_asciiGetString]
  exact (asciiBytes_asciiGetString_eq_self_iff _).mpr hascii

theorem tokenBlock_eq_iff {token token' : Option DotNetString}
    (h : (token.getD []).length ≤ 0x28) (h' : (token'.getD []).length ≤ 0x28) :
    tokenBlock token = tokenBlock token' ↔ marshalled token = marshalled token' := by
  constructor
  · intro hblock
    have hread : ∀ t : Option DotNetString,
        (Host.x64.asciiGetString (tokenBlock t)).trimEndNul = marshalled t :=
      fun t => trimEndNul_asciiGetString _ _ _
    rw [← hread, hblock, hread]
  · intro hmarshalled
    rw [← ansiBlock_marshalled h, hmarshalled, ansiBlock_marshalled h']

theorem networkBytes_injective (w : Nat) : Function.Injective (networkBytes w) :=
  Function.LeftInverse.injective (ofNetworkBytes_networkBytes w)

theorem versionBlock_injective {version version' : Version}
    (h : versionBlock version = versionBlock version') : version = version' := by
  obtain ⟨major, minor, build, revision, _, _, _, _, _⟩ := version
  obtain ⟨major', minor', build', revision', _, _, _, _, _⟩ := version'
  obtain ⟨h, hrevision⟩ := List.append_inj h (by simp [length_networkBytes])
  obtain ⟨h, hbuild⟩ := List.append_inj h (by simp [length_networkBytes])
  obtain ⟨hmajor, hminor⟩ := List.append_inj h (by simp [length_networkBytes])
  cases networkBytes_injective 4 hmajor
  cases networkBytes_injective 4 hminor
  cases networkBytes_injective 4 hbuild
  cases networkBytes_injective 4 hrevision
  rfl

/-! ### The packets -/

section Encodings

variable {host host' : Host} {p q : AnyPacket} {b c : List UInt8}

/-- **A packet is its opcode and as many bytes as its type has.** -/
theorem exists_payload (h : encoding host p = some b) : ∃ payload,
    payload.length = payloadLength p.1 ∧ b = networkBytes 2 (opcodeOf p.1) ++ payload := by
  obtain ⟨payload, hpayload, rfl⟩ := encoding_eq_some_iff.mp h
  obtain ⟨t, d⟩ := p
  refine ⟨payload, ?_, rfl⟩
  cases t with
  | auth => exact length_writeFieldsAsync hpayload
  | closingSession =>
    cases hpayload
    rfl
  | sessionRevoked =>
    cases hpayload
    rfl

theorem opcodeOf_injective : Function.Injective opcodeOf := by
  intro t t' h
  cases t <;> cases t' <;> first | rfl | cases h

/-- **No packet begins another one.** -/
theorem prefixFree_encodings : PrefixFree {b | ∃ host p, encoding host p = some b} where
  nil_not_mem := by
    rintro ⟨host, p, h⟩
    obtain ⟨payload, -, hb⟩ := exists_payload h
    have hlength := congrArg List.length hb
    rw [List.length_append, length_networkBytes] at hlength
    simp at hlength
    omega
  eq_of_begins := by
    rintro b ⟨host, p, hp⟩ c ⟨host', q, hq⟩ hbegins
    obtain ⟨payload, hlength, hb⟩ := exists_payload hp
    obtain ⟨payload', hlength', hc⟩ := exists_payload hq
    obtain ⟨tail, htail⟩ := hbegins
    -- the opcodes are the same, so the packets are as long as each other
    have hopcode : networkBytes 2 (opcodeOf p.1) = networkBytes 2 (opcodeOf q.1) := by
      rw [hb, hc, List.append_assoc] at htail
      exact (List.append_inj htail (by simp [length_networkBytes])).1
    have htype : p.1 = q.1 := opcodeOf_injective (networkBytes_injective 2 hopcode)
    refine List.IsPrefix.eq_of_length ⟨tail, htail⟩ ?_
    rw [hb, hc, List.length_append, List.length_append, hopcode, hlength, hlength', htype]

theorem fst_carried (p : AnyPacket) : (carried p).1 = p.1 := by
  obtain ⟨t, d⟩ := p
  cases t <;> rfl

theorem carried_auth_eq_iff {pkt pkt' : AuthPacket} :
    carried ⟨.auth, pkt⟩ = carried ⟨.auth, pkt'⟩ ↔
      marshalled pkt.oAuthToken = marshalled pkt'.oAuthToken ∧
        pkt.protocolVersion = pkt'.protocolVersion := by
  constructor
  · intro h
    have hpkt : ({ oAuthToken := some (marshalled pkt.oAuthToken)
                   protocolVersion := pkt.protocolVersion } : AuthPacket) =
        { oAuthToken := some (marshalled pkt'.oAuthToken)
          protocolVersion := pkt'.protocolVersion } := eq_of_heq (Sigma.mk.inj h).2
    rw [AuthPacket.mk.injEq] at hpkt
    exact ⟨Option.some.inj hpkt.1, hpkt.2⟩
  · rintro ⟨htoken, hversion⟩
    rw [carried, carried, htoken, hversion]

theorem encoding_auth_eq_iff {pkt pkt' : AuthPacket} (hp : encoding host ⟨.auth, pkt⟩ = some b)
    (hq : encoding host' ⟨.auth, pkt'⟩ = some c) :
    b = c ↔ carried ⟨.auth, pkt⟩ = carried ⟨.auth, pkt'⟩ := by
  obtain ⟨payload, hpayload, rfl⟩ := encoding_eq_some_iff.mp hp
  obtain ⟨payload', hpayload', rfl⟩ := encoding_eq_some_iff.mp hq
  obtain ⟨htoken, version, hversion, rfl⟩ := writeFieldsAsync_eq_ok_iff.mp hpayload
  obtain ⟨htoken', version', hversion', rfl⟩ := writeFieldsAsync_eq_ok_iff.mp hpayload'
  have hversions : pkt.protocolVersion = pkt'.protocolVersion ↔ version = version' := by
    rw [show pkt.protocolVersion = some version from hversion,
      show pkt'.protocolVersion = some version' from hversion', Option.some.injEq]
  rw [carried_auth_eq_iff, hversions, ← tokenBlock_eq_iff htoken htoken']
  constructor
  · intro h
    have hblocks := List.append_cancel_left h
    obtain ⟨htokens, hblocks⟩ := List.append_inj hblocks
      ((length_tokenBlock htoken).trans (length_tokenBlock htoken').symm)
    exact ⟨htokens, versionBlock_injective hblocks⟩
  · rintro ⟨htokens, rfl⟩
    rw [htokens]

theorem encoding_eq_iff (hp : encoding host p = some b) (hq : encoding host' q = some c) :
    b = c ↔ carried p = carried q := by
  obtain ⟨payload, hlength, hb⟩ := exists_payload hp
  obtain ⟨payload', hlength', hc⟩ := exists_payload hq
  by_cases htype : p.1 = q.1
  · obtain ⟨t, d⟩ := p
    obtain ⟨t', d'⟩ := q
    cases htype
    have hsame : payloadLength t = 0 → b = c := by
      intro hzero
      rw [hb, hc, List.eq_nil_of_length_eq_zero (hlength.trans hzero),
        List.eq_nil_of_length_eq_zero (hlength'.trans hzero)]
    cases t with
    | auth => exact encoding_auth_eq_iff hp hq
    | closingSession => exact iff_of_true (hsame rfl) rfl
    | sessionRevoked => exact iff_of_true (hsame rfl) rfl
  · constructor
    · rintro rfl
      rw [hb] at hc
      obtain ⟨hopcode, -⟩ := List.append_inj hc (by simp [length_networkBytes])
      exact absurd (opcodeOf_injective (networkBytes_injective 2 hopcode)) htype
    · intro h
      have hfst := congrArg Sigma.fst h
      rw [fst_carried, fst_carried] at hfst
      exact absurd hfst htype

theorem writePackets_eq_ok_iff {ps : List AnyPacket} : writePackets host ps [] = .ok () b ↔
    ∃ words : List (List UInt8), ps.map (encoding host) = words.map some ∧
      b = words.flatten := by
  have hone : ∀ {p : AnyPacket} {w : List UInt8},
      (packetIo host).writePacketAsync host p.1 p.2 [] = .ok () w ↔ encoding host p = some w :=
    writePacketAsync_eq_ok_iff.trans encoding_eq_some_iff.symm
  induction ps generalizing b with
  | nil =>
    constructor
    · intro h
      cases h
      exact ⟨[], rfl, rfl⟩
    · rintro ⟨words, hwords, rfl⟩
      obtain rfl := List.map_eq_nil_iff.mp hwords.symm
      rfl
  | cons p ps ih =>
    rw [writePackets_cons_eq_ok_iff]
    constructor
    · rintro ⟨b₁, b₂, h₁, h₂, rfl⟩
      obtain ⟨words, hwords, rfl⟩ := ih.mp h₂
      refine ⟨b₁ :: words, ?_, rfl⟩
      rw [List.map_cons, List.map_cons, hone.mp h₁, hwords]
    · rintro ⟨words, hwords, rfl⟩
      cases words with
      | nil => cases hwords
      | cons w words =>
        obtain ⟨hw, hwords⟩ := List.cons_eq_cons.mp hwords
        exact ⟨w, words.flatten, hone.mpr hw, ih.mpr ⟨words, hwords, rfl⟩, rfl⟩

end Encodings

theorem exists_encoding_of_mem {host : Host} {ps : List AnyPacket} {us : List (List UInt8)}
    (h : ps.map (encoding host) = us.map some) :
    (∀ u ∈ us, ∃ host p, encoding host p = some u) ∧
      ∀ p ∈ ps, ∃ u, encoding host p = some u := by
  constructor
  · intro u hu
    have hmem : some u ∈ ps.map (encoding host) := h ▸ List.mem_map_of_mem hu
    obtain ⟨p, -, hp⟩ := List.mem_map.mp hmem
    exact ⟨host, p, hp⟩
  · intro p hp
    have hmem : encoding host p ∈ us.map some := h ▸ List.mem_map_of_mem hp
    obtain ⟨u, -, hu⟩ := List.mem_map.mp hmem
    exact ⟨u, hu.symm⟩

/-- **The bytes tell the packets**: what is written for some packets begins what is written for
others exactly when the packets begin the others, as their bytes carry them. -/
theorem written_prefix_iff (host host' : Host) (ps qs : List AnyPacket) (b c : List UInt8)
    (hps : writePackets host ps [] = .ok () b) (hqs : writePackets host' qs [] = .ok () c) :
    b <+: c ↔ ps.map carried <+: qs.map carried := by
  obtain ⟨us, hus, rfl⟩ := writePackets_eq_ok_iff.mp hps
  obtain ⟨vs, hvs, rfl⟩ := writePackets_eq_ok_iff.mp hqs
  obtain ⟨hus_words, hps_written⟩ := exists_encoding_of_mem hus
  obtain ⟨hvs_words, hqs_written⟩ := exists_encoding_of_mem hvs
  have hsome : us.map some <+: vs.map some ↔ us <+: vs :=
    List.prefix_map_iff_of_injective (Option.some_injective _)
  have hcarried : ∀ p ∈ ps, ∀ q ∈ qs, encoding host p = encoding host' q ↔
      carried p = carried q := by
    intro p hp q hq
    obtain ⟨u, hu⟩ := hps_written p hp
    obtain ⟨v, hv⟩ := hqs_written q hq
    rw [hu, hv, Option.some_inj, encoding_eq_iff hu hv]
  rw [prefixFree_encodings.flatten_prefix_iff hus_words hvs_words, ← map_prefix_map_iff hcarried,
    hus, hvs, hsome]

/-- The bytes of `accented` and of a packet whose token is the `?` that is left of it. -/
theorem accented_written :
    0 :: 2 :: accentedBytes <+: 0 :: 2 :: accentedBytes ++ [0, 1] ↔
      [carried ⟨.auth, accented⟩] <+:
        [carried ⟨.auth, { accented with oAuthToken := some [0x3F] }⟩,
          carried ⟨.closingSession, default⟩] :=
  written_prefix_iff .x64 .x64 [⟨.auth, accented⟩]
    [⟨.auth, { accented with oAuthToken := some [0x3F] }⟩, ⟨.closingSession, default⟩] _ _
    (by rfl) (by rfl)

end Manafont.Game
