import Manafont.Game.Program

/-!
# Packets back to back

A list of packets is written to one stream with `WritePacketAsync` and read from it
with one `ReadPacketAsync` for each packet.

* A packet without fields is its opcode, and its reader takes the opcode and no more
  (`readPackets_of_fieldless`).
* An `AuthPacket` is `2 + 0x38` bytes, and its reader takes `2 + 0x48` or throws
  (`taken_of_auth`): it goes on into the packets behind it.

So the frames of a list are kept exactly when no `AuthPacket` is in it (`framed_iff`).
-/

namespace Manafont.Game

open Program Packets.IO Session

abbrev AnyPacket := Σ t : PacketType, t.Data

def writePackets (host : Host) : List AnyPacket → WriteIo Unit
  | [] => pure ()
  | p :: ps => do
    (packetIo host).writePacketAsync host p.1 p.2
    writePackets host ps

/-- `k` calls of `ReadPacketAsync`.  Each rents its own memory. -/
def readPackets (host : Host) (pools : Nat → MemoryPool) :
    Nat → EStateM Halt Stream (List (IPacket PacketType.Data))
  | 0 => pure []
  | k + 1 => do
    let packets ← readPackets host pools k
    let packet ← (packetIo host).readPacketAsync host (pools k)
    return packets ++ [packet]

/-- After each number of calls the opcodes of as many packets have been read, and the
bytes of just these packets have been taken. -/
def Framed (host : Host) (pools : Nat → MemoryPool) (ps : List AnyPacket) (s : Stream) : Prop :=
  ∀ k ≤ ps.length, ∃ packets s' bytes,
    readPackets host pools k s = .ok packets s' ∧
    packets.map IPacket.packetOpcode = (ps.take k).map (fun p => opcodeOf p.1) ∧
    writePackets host (ps.take k) [] = .ok () bytes ∧ s'.taken = s.taken + bytes.length

/-! ### Writing -/

section Writing

variable {host : Host}

theorem appends_writePacketAsync (p : AnyPacket) :
    Appends ((packetIo host).writePacketAsync host p.1 p.2) := by
  rw [writePacketAsync_eq]
  exact PacketSerializer.appends_writeAsync host _ _

theorem appends_writePackets : ∀ ps : List AnyPacket, Appends (writePackets host ps) := by
  intro ps
  induction ps with
  | nil => exact Appends.pure ()
  | cons p ps ih => exact (appends_writePacketAsync p).bind fun _ => ih

theorem writePackets_cons_eq_ok_iff {p : AnyPacket} {ps : List AnyPacket} {bytes : List UInt8} :
    writePackets host (p :: ps) [] = .ok () bytes ↔
      ∃ b₁ b₂, (packetIo host).writePacketAsync host p.1 p.2 [] = .ok () b₁ ∧
        writePackets host ps [] = .ok () b₂ ∧ bytes = b₁ ++ b₂ := by
  rw [writePackets, bind_eq_ok_iff]
  constructor
  · rintro ⟨_, b₁, h₁, h₂⟩
    rw [appends_writePackets ps b₁] at h₂
    cases hr : writePackets host ps [] with
    | ok u b₂ =>
      rw [hr] at h₂
      cases h₂
      exact ⟨b₁, b₂, h₁, rfl, rfl⟩
    | error e b₂ =>
      rw [hr] at h₂
      cases h₂
  · rintro ⟨b₁, b₂, h₁, h₂, rfl⟩
    refine ⟨(), b₁, h₁, ?_⟩
    rw [appends_writePackets ps b₁, h₂]

theorem writePackets_append_eq_ok_iff {qs : List AnyPacket} : ∀ {ps : List AnyPacket}
    {bytes : List UInt8}, writePackets host (ps ++ qs) [] = .ok () bytes ↔
      ∃ b₁ b₂, writePackets host ps [] = .ok () b₁ ∧ writePackets host qs [] = .ok () b₂ ∧
        bytes = b₁ ++ b₂ := by
  intro ps
  induction ps with
  | nil =>
    intro bytes
    constructor
    · intro h
      exact ⟨[], bytes, rfl, h, rfl⟩
    · rintro ⟨b₁, b₂, h₁, h₂, rfl⟩
      cases h₁
      exact h₂
  | cons p ps ih =>
    intro bytes
    rw [List.cons_append, writePackets_cons_eq_ok_iff]
    constructor
    · rintro ⟨b₁, b, h₁, hb, rfl⟩
      obtain ⟨b₂, b₃, h₂, h₃, rfl⟩ := ih.mp hb
      exact ⟨b₁ ++ b₂, b₃, writePackets_cons_eq_ok_iff.mpr ⟨b₁, b₂, h₁, h₂, rfl⟩, h₃,
        (List.append_assoc _ _ _).symm⟩
    · rintro ⟨b, b₃, hb, h₃, rfl⟩
      obtain ⟨b₁, b₂, h₁, h₂, rfl⟩ := writePackets_cons_eq_ok_iff.mp hb
      exact ⟨b₁, b₂ ++ b₃, h₁, ih.mpr ⟨b₂, b₃, h₂, h₃, rfl⟩, List.append_assoc _ _ _⟩

theorem writePackets_singleton_eq_ok_iff {p : AnyPacket} {bytes : List UInt8} :
    writePackets host [p] [] = .ok () bytes ↔
      (packetIo host).writePacketAsync host p.1 p.2 [] = .ok () bytes := by
  rw [writePackets_cons_eq_ok_iff]
  constructor
  · rintro ⟨b₁, b₂, h₁, h₂, rfl⟩
    cases h₂
    rwa [List.append_nil]
  · intro h
    exact ⟨bytes, [], h, rfl, (List.append_nil _).symm⟩

theorem bytes_of_fieldless {p : AnyPacket} (hp : p.1 ≠ .auth) {bytes : List UInt8}
    (h : (packetIo host).writePacketAsync host p.1 p.2 [] = .ok () bytes) :
    bytes = networkBytes 2 (opcodeOf p.1) := by
  obtain ⟨t, d⟩ := p
  obtain ⟨payload, hpayload, rfl⟩ := writePacketAsync_eq_ok_iff.mp h
  cases t with
  | auth => exact absurd rfl hp
  | closingSession =>
    cases hpayload
    exact List.append_nil _
  | sessionRevoked =>
    cases hpayload
    exact List.append_nil _

theorem bytes_of_auth {pkt : AuthPacket} {bytes : List UInt8}
    (h : (packetIo host).writePacketAsync host .auth pkt [] = .ok () bytes) :
    ∃ payload, payload.length = 0x38 ∧ bytes = networkBytes 2 (opcodeOf .auth) ++ payload := by
  obtain ⟨payload, hpayload, rfl⟩ := writePacketAsync_eq_ok_iff.mp h
  exact ⟨payload, AuthPacketSerializer.length_writeFieldsAsync hpayload, rfl⟩

end Writing

/-! ### Reading -/

section Reading

variable {host : Host} {pools : Nat → MemoryPool}

theorem readPackets_succ_of_ok {k : Nat} {s s' : Stream} {packets : List (IPacket PacketType.Data)}
    (h : readPackets host pools k s = .ok packets s') :
    readPackets host pools (k + 1) s =
      match (packetIo host).readPacketAsync host (pools k) s' with
      | .ok packet t => .ok (packets ++ [packet]) t
      | .error e t => .error e t := by
  rw [readPackets, bind_of_ok h]
  cases hr : (packetIo host).readPacketAsync host (pools k) s' with
  | ok packet t => exact bind_of_ok hr
  | error e t => exact bind_of_error hr

def received (p : AnyPacket) : IPacket PacketType.Data :=
  { packetType := p.1, packet := { packetOpcode := opcodeOf p.1, data := default } }

/-- **Packets without fields are read one by one**, and nothing behind them is taken. -/
theorem readPackets_of_fieldless {ps : List AnyPacket} :
    ∀ {bytes tail : List UInt8} {s : Stream}, (∀ p ∈ ps, p.1 ≠ .auth) →
    writePackets host ps [] = .ok () bytes → s.rest = bytes ++ tail → s.Greedy →
    readPackets host pools ps.length s =
      .ok (ps.map received) (s.after bytes.length ps.length) := by
  induction ps using List.reverseRecOn with
  | nil =>
    intro bytes tail s _ hw _ _
    cases hw
    rfl
  | append_singleton ps p ih =>
    intro bytes tail s hps hw hrest hgreedy
    obtain ⟨b₁, b₂, h₁, h₂, rfl⟩ := writePackets_append_eq_ok_iff.mp hw
    have hp : p.1 ≠ .auth := hps p (by simp)
    rw [writePackets_singleton_eq_ok_iff] at h₂
    have hb₂ : b₂ = networkBytes 2 (opcodeOf p.1) := bytes_of_fieldless hp h₂
    subst hb₂
    have hprefix := ih (fun q hq => hps q (by simp [hq])) h₁
      (hrest.trans (List.append_assoc _ _ _)) hgreedy
    have hrest' : (s.after b₁.length ps.length).rest = networkBytes 2 (opcodeOf p.1) ++ tail := by
      rw [Stream.after_rest, hrest, List.append_assoc, List.drop_left]
    have hopcode := readNetworkNumberAsync_opcode host _ hrest'
      (handed_opcode hrest' (hgreedy.after _ _))
    rw [List.length_append, List.length_singleton, readPackets_succ_of_ok hprefix,
      readPacketAsync_of_fieldless hp hopcode, List.map_append, List.length_append,
      length_networkBytes, Stream.after_after]
    rfl

/-- **The reader of an `AuthPacket` takes `0x48` bytes after the opcode**, or does not return. -/
theorem taken_of_auth {pool : MemoryPool} {payload : List UInt8} {s s' : Stream}
    {packet : IPacket PacketType.Data} (hgreedy : s.Greedy)
    (hrest : s.rest = networkBytes 2 (opcodeOf .auth) ++ payload)
    (h : (packetIo host).readPacketAsync host pool s = .ok packet s') :
    s.taken + 2 + 0x48 ≤ s'.taken := by
  have hopcode := readNetworkNumberAsync_opcode host _ hrest
    (handed_opcode hrest hgreedy)
  rw [readPacketAsync_of_auth hopcode] at h
  have htaken := AuthPacketSerializer.taken_readAsync host pool (s := s.after 2 1)
  cases hr : (authPacketSerializer host).readAsync pool (s.after 2 1) with
  | ok pkt t =>
    rw [hr] at h htaken
    cases h
    by_cases hs : (s.after 2 1).rest.length < 0x48
    · obtain ⟨c, he⟩ := AuthPacketSerializer.readAsync_of_short host pool hs
      rw [he] at hr
      cases hr
    · rw [final_ok, Stream.after_taken] at htaken
      omega
  | error e t =>
    rw [hr] at h
    cases h

/-! ### Frames -/

/-- An `AuthPacket` behind packets without fields breaks the frames. -/
theorem not_framed_of_auth {before behind : List AnyPacket} {pkt : AuthPacket}
    {bytes : List UInt8} {s : Stream} (hbefore : ∀ p ∈ before, p.1 ≠ .auth)
    (hw : writePackets host (before ++ ⟨.auth, pkt⟩ :: behind) [] = .ok () bytes)
    (hrest : s.rest = bytes) (hgreedy : s.Greedy) :
    ¬ Framed host pools (before ++ ⟨.auth, pkt⟩ :: behind) s := by
  intro hframed
  obtain ⟨b₁, b, h₁, hb, rfl⟩ := writePackets_append_eq_ok_iff.mp hw
  obtain ⟨b₂, b₃, h₂, -, rfl⟩ := writePackets_cons_eq_ok_iff.mp hb
  obtain ⟨payload, hlen, rfl⟩ := bytes_of_auth h₂
  obtain ⟨packets, s', bytes', hread, -, hbytes', htaken⟩ :=
    hframed (before.length + 1) (by rw [List.length_append, List.length_cons]; omega)
  have htake : (before ++ (⟨.auth, pkt⟩ : AnyPacket) :: behind).take (before.length + 1) =
      before ++ [⟨.auth, pkt⟩] := by
    rw [List.take_append, List.take_of_length_le (by omega), Nat.add_sub_cancel_left]
    rfl
  have hprefix : readPackets host pools before.length s = _ :=
    readPackets_of_fieldless hbefore h₁ hrest hgreedy
  have hrest' : (s.after b₁.length before.length).rest =
      networkBytes 2 (opcodeOf .auth) ++ (payload ++ b₃) := by
    rw [Stream.after_rest, hrest, List.drop_left, List.append_assoc]
  rw [readPackets_succ_of_ok hprefix] at hread
  cases hr : (packetIo host).readPacketAsync host (pools before.length)
      (s.after b₁.length before.length) with
  | error e t =>
    rw [hr] at hread
    cases hread
  | ok packet t =>
    rw [hr] at hread
    cases hread
    have hover := taken_of_auth (hgreedy.after _ _) hrest' hr
    rw [htake, writePackets_append_eq_ok_iff] at hbytes'
    obtain ⟨c₁, c₂, hc₁, hc₂, rfl⟩ := hbytes'
    rw [h₁] at hc₁
    cases hc₁
    rw [writePackets_singleton_eq_ok_iff, h₂] at hc₂
    cases hc₂
    rw [List.length_append, List.length_append, length_networkBytes, hlen] at htaken
    rw [Stream.after_taken] at hover
    omega

/-- **The frames of a list of packets are kept exactly when no `AuthPacket` is in it.** -/
theorem framed_iff (host : Host) (pools : Nat → MemoryPool) (ps : List AnyPacket)
    (bytes : List UInt8) (s : Stream) (hw : writePackets host ps [] = .ok () bytes)
    (hrest : s.rest = bytes) (hgreedy : s.Greedy) :
    Framed host pools ps s ↔ ∀ p ∈ ps, p.1 ≠ .auth := by
  constructor
  · intro hframed p hp hauth
    have hfind : (ps.find? fun q => q.1 = .auth).isSome :=
      List.find?_isSome.mpr ⟨p, hp, by simpa using hauth⟩
    obtain ⟨q, hq⟩ := Option.isSome_iff_exists.mp hfind
    obtain ⟨hqauth, before, behind, rfl, hbefore⟩ := List.find?_eq_some_iff_append.mp hq
    obtain ⟨t, pkt⟩ := q
    obtain rfl : t = .auth := by simpa using hqauth
    exact not_framed_of_auth (fun r hr => by simpa using hbefore r hr) hw hrest hgreedy hframed
  · intro hps k hk
    obtain ⟨b₁, b₂, h₁, -, rfl⟩ : ∃ b₁ b₂, writePackets host (ps.take k) [] = .ok () b₁ ∧
        writePackets host (ps.drop k) [] = .ok () b₂ ∧ bytes = b₁ ++ b₂ := by
      rwa [← writePackets_append_eq_ok_iff, List.take_append_drop]
    have hread : readPackets host pools (ps.take k).length s = _ :=
      readPackets_of_fieldless (fun p hp => hps p (List.mem_of_mem_take hp)) h₁ hrest hgreedy
    rw [List.length_take, Nat.min_eq_left hk] at hread
    refine ⟨_, _, b₁, hread, ?_, h₁, rfl⟩
    rw [List.map_map]
    rfl

end Reading

/-! ### One `AuthPacket` -/

/-- The first packet of a client of version `1.0.0.0` whose ticket is `t`. -/
def hello : AuthPacket :=
  { oAuthToken := some [0x74], protocolVersion := (Version.new 1 0 0 0).toOption }

def helloBytes : List UInt8 :=
  [0, 2] ++ (0x74 :: List.replicate 0x27 0) ++ [0, 0, 0, 1] ++ List.replicate 12 0

/-- The theorem on a `ClosingSessionPacket` behind `hello`. -/
theorem hello_framed_iff :
    Framed .x64 (fun _ => .zeroed) [⟨.auth, hello⟩, ⟨.closingSession, default⟩]
        (.ofBytes (helloBytes ++ [0, 1]) false) ↔
      ∀ p ∈ ([⟨.auth, hello⟩, ⟨.closingSession, default⟩] : List AnyPacket), p.1 ≠ .auth :=
  framed_iff .x64 (fun _ => .zeroed) [⟨.auth, hello⟩, ⟨.closingSession, default⟩]
    (helloBytes ++ [0, 1]) (.ofBytes (helloBytes ++ [0, 1]) false) (by rfl) rfl
    (Stream.greedy_ofBytes _ _)

/-- **The frames of `hello` and eight packets behind it are lost.** -/
theorem hello_not_framed :
    writePackets .x64 (⟨.auth, hello⟩ :: List.replicate 8 ⟨.closingSession, default⟩) [] =
        .ok () (helloBytes ++ (List.replicate 8 [0, 1]).flatten) ∧
      ¬ Framed .x64 (fun _ => .zeroed)
        (⟨.auth, hello⟩ :: List.replicate 8 ⟨.closingSession, default⟩)
        (.ofBytes (helloBytes ++ (List.replicate 8 [0, 1]).flatten) true) :=
  ⟨by rfl, not_framed_of_auth (List.forall_mem_nil _) (by rfl) rfl (Stream.greedy_ofBytes _ _)⟩

end Manafont.Game
