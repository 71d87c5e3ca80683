import Manafont.Session.AuthPacketSerializer

/-!
# The fields of an `AuthPacket` as bytes

What `WriteFieldsAsync` writes is a block of text and four integers
(`writeFieldsAsync_of_version`), unless the token is too long for its block or there is no
version.  `readFields` is `ReadFieldsAsync` on any buffer.

On a buffer that hands out the bytes in order the version of four components comes back as
it was, and the token as ASCII and the trimming of NULs leave it (`marshalled`): a unit
that is not ASCII as `?`, NULs at its end not at all, and no token as the empty one
(`readFields_of_written`).  The writer also takes a version of two or three components,
whose missing parts it writes as `-1`; no version is made of these
(`readFields_of_undefined`).
-/

namespace Manafont.Session

open Program Packets.IO

namespace AuthPacketSerializer

/-! ### The writer -/

def tokenBlock (token : Option DotNetString) : List UInt8 :=
  ansiBlock 0x28 (token.getD [])

def versionBlock (version : Version) : List UInt8 :=
  networkBytes 4 version.major ++ networkBytes 4 version.minor ++
    networkBytes 4 version.build ++ networkBytes 4 version.revision

theorem length_tokenBlock {token : Option DotNetString} (h : (token.getD []).length ≤ 0x28) :
    (tokenBlock token).length = 0x28 := length_ansiBlock h

section Writer

variable {host : Host} {pkt : AuthPacket}

theorem writeFieldsAsync_of_long (h : 0x28 < (pkt.oAuthToken.getD []).length) :
    writeFieldsAsync host pkt [] = .error (.argument
      "The output byte buffer is too small to contain the encoded data" "bytes") [] := by
  rw [writeFieldsAsync, bind_of_error (writeAnsiCStringAsync_of_lt h [])]

theorem writeAnsiCStringAsync_token {token : Option DotNetString}
    (h : (token.getD []).length ≤ 0x28) :
    writeAnsiCStringAsync token 0x28 [] = .ok () (tokenBlock token) :=
  writeAnsiCStringAsync_of_le h []

theorem writeFieldsAsync_of_null (h : (pkt.oAuthToken.getD []).length ≤ 0x28)
    (hv : pkt.protocolVersion = none) :
    writeFieldsAsync host pkt [] = .error .nullReference (tokenBlock pkt.oAuthToken) := by
  rw [writeFieldsAsync, bind_of_ok (writeAnsiCStringAsync_token h), hv]
  rfl

theorem writeFieldsAsync_of_version {version : Version}
    (h : (pkt.oAuthToken.getD []).length ≤ 0x28) (hv : pkt.protocolVersion = some version) :
    writeFieldsAsync host pkt [] =
      .ok () (tokenBlock pkt.oAuthToken ++ versionBlock version) := by
  rw [writeFieldsAsync, bind_of_ok (writeAnsiCStringAsync_token h), hv]
  simp only [writeNetworkNumberAsync_eq]
  show EStateM.Result.ok () _ = .ok () _
  simp only [versionBlock, List.append_assoc]

theorem writeFieldsAsync_eq_ok_iff {payload : List UInt8} :
    writeFieldsAsync host pkt [] = .ok () payload ↔
      (pkt.oAuthToken.getD []).length ≤ 0x28 ∧ ∃ version, pkt.protocolVersion = some version ∧
        payload = tokenBlock pkt.oAuthToken ++ versionBlock version := by
  by_cases htoken : (pkt.oAuthToken.getD []).length ≤ 0x28
  · cases hv : pkt.protocolVersion with
    | none =>
      rw [writeFieldsAsync_of_null htoken hv]
      constructor
      · intro h
        cases h
      · rintro ⟨-, version, hversion, -⟩
        cases hversion
    | some version =>
      rw [writeFieldsAsync_of_version htoken hv]
      constructor
      · intro h
        cases h
        exact ⟨htoken, version, rfl, rfl⟩
      · rintro ⟨-, version', hversion, rfl⟩
        cases hversion
        rfl
  · rw [writeFieldsAsync_of_long (Nat.not_le.mp htoken)]
    constructor
    · intro h
      cases h
    · rintro ⟨hle, -⟩
      exact absurd hle htoken

end Writer

/-! ### The reader, on any buffer -/

/-- What the two conversions leave of a token. -/
def marshalled (token : Option DotNetString) : DotNetString :=
  (token.getD []).toAscii.trimEndNul

/-- **A token is left as it was exactly when it is ASCII and does not end in a NUL.** -/
theorem marshalled_eq_iff {token : Option DotNetString} :
    some (marshalled token) = token ↔
      ∃ text, token = some text ∧ text.IsAscii ∧ ¬ text.EndsInNul := by
  cases token with
  | none =>
    constructor
    · intro h
      cases h
    · rintro ⟨text, htext, -⟩
      cases htext
  | some text =>
    constructor
    · intro h
      exact ⟨text, rfl, DotNetString.trimEndNul_toAscii_eq_self_iff.mp (Option.some.inj h)⟩
    · rintro ⟨text', htext, h⟩
      cases htext
      exact congrArg some (DotNetString.trimEndNul_toAscii_eq_self_iff.mpr h)

section Reader

variable {σ : Type} {buffer : PacketBuffer σ} {holds : σ → List UInt8 → Prop} {s : σ}
  {tail : List UInt8} {token : Option DotNetString} {version : Version}

/-- **The two blocks, read in order**: the token is stored and the version is to be made. -/
theorem readFields_of_blocks (hbuffer : InOrder buffer holds) (reader : Host)
    (htoken : (token.getD []).length ≤ 0x28)
    (hs : holds s (tokenBlock token ++ versionBlock version ++ tail)) :
    ∃ s', holds s' tail ∧ (readFields reader buffer).run [default] s =
      (storeVersion version.major version.minor version.build version.revision).run
        [{ oAuthToken := some (marshalled token), protocolVersion := none }] s' := by
  obtain ⟨enough, s₁, hensure, hs₁⟩ := hbuffer.ensure s _ 0x48 hs
  rw [List.append_assoc] at hs₁
  obtain ⟨s₂, htext, hs₂⟩ := hbuffer.readAnsiCStringAsync reader hs₁
  rw [length_tokenBlock htoken, tokenBlock, ansiBlock, trimEndNul_asciiGetString] at htext
  simp only [versionBlock, List.append_assoc] at hs₂
  obtain ⟨s₃, hmajor, hs₃⟩ := hbuffer.readNetworkNumberAsync reader hs₂
  obtain ⟨s₄, hminor, hs₄⟩ := hbuffer.readNetworkNumberAsync reader hs₃
  obtain ⟨s₅, hbuild, hs₅⟩ := hbuffer.readNetworkNumberAsync reader hs₄
  obtain ⟨s₆, hrevision, hs₆⟩ := hbuffer.readNetworkNumberAsync reader hs₅
  refine ⟨s₆, hs₆, ?_⟩
  rw [readFields]
  refine (run_lift_bind_of_ok hensure).trans ?_
  refine (run_lift_bind_of_ok htext).trans ?_
  rw [run_modify_bind]
  refine (run_lift_bind_of_ok hmajor).trans ?_
  refine (run_lift_bind_of_ok hminor).trans ?_
  refine (run_lift_bind_of_ok hbuild).trans ?_
  exact (run_lift_bind_of_ok hrevision).trans rfl

theorem new_of_defined (hbuild : 0 ≤ version.build.toInt)
    (hrevision : 0 ≤ version.revision.toInt) :
    Version.new version.major version.minor version.build version.revision = .ok version := by
  have hmajor := version.major_nonneg
  have hminor := version.minor_nonneg
  rw [Version.new, dif_neg (by omega), dif_neg (by omega), dif_neg (by omega), dif_neg (by omega)]

theorem new_of_undefined (h : version.build.toInt < 0 ∨ version.revision.toInt < 0) :
    ∃ name, Version.new version.major version.minor version.build version.revision =
      .error (.argumentOutOfRange name) := by
  have hmajor := version.major_nonneg
  have hminor := version.minor_nonneg
  rw [Version.new, dif_neg (by omega), dif_neg (by omega)]
  by_cases hbuild : version.build.toInt < 0
  · exact ⟨"build", dif_pos hbuild⟩
  · exact ⟨"revision", by rw [dif_neg hbuild, dif_pos (h.resolve_left hbuild)]⟩

/-- **A version of two or three components is written and not read.** -/
theorem readFields_of_undefined (hbuffer : InOrder buffer holds) (writer reader : Host)
    {pkt : AuthPacket} {payload : List UInt8}
    (hw : writeFieldsAsync writer pkt [] = .ok () payload)
    (hversion : pkt.protocolVersion = some version)
    (hundefined : version.build.toInt < 0 ∨ version.revision.toInt < 0)
    (hs : holds s (payload ++ tail)) :
    ∃ name s', (readFields reader buffer).run [default] s =
      .error (.thrown (.argumentOutOfRange name)) s' := by
  obtain ⟨htoken, version', hversion', rfl⟩ := writeFieldsAsync_eq_ok_iff.mp hw
  rw [hversion] at hversion'
  cases hversion'
  obtain ⟨s', -, hread⟩ := readFields_of_blocks hbuffer reader htoken hs
  obtain ⟨name, hnew⟩ := new_of_undefined hundefined
  refine ⟨name, s', hread.trans ?_⟩
  rw [storeVersion, hnew]
  rfl

end Reader

end AuthPacketSerializer

open AuthPacketSerializer

/-- **A written packet with a version of four components is read as ASCII leaves it**, on any
buffer that hands out its bytes in order: with its version, and with its own token exactly
when there is one that is ASCII and does not end in a NUL. -/
theorem readFields_of_written (writer reader : Host) (pkt : AuthPacket) (version : Version)
    (payload : List UInt8) (hw : writeFieldsAsync writer pkt [] = .ok () payload)
    (hversion : pkt.protocolVersion = some version) (hbuild : 0 ≤ version.build.toInt)
    (hrevision : 0 ≤ version.revision.toInt) {σ : Type} (buffer : PacketBuffer σ)
    (holds : σ → List UInt8 → Prop) (hbuffer : InOrder buffer holds) (s : σ) (tail : List UInt8)
    (hs : holds s (payload ++ tail)) :
    ∃ stored s', (readFields reader buffer).run [default] s = .ok ((), [stored]) s' ∧
      holds s' tail ∧ stored.protocolVersion = pkt.protocolVersion ∧
      stored.oAuthToken = some (marshalled pkt.oAuthToken) ∧
      (stored = pkt ↔
        ∃ token, pkt.oAuthToken = some token ∧ token.IsAscii ∧ ¬ token.EndsInNul) := by
  obtain ⟨htoken, version', hversion', rfl⟩ := writeFieldsAsync_eq_ok_iff.mp hw
  rw [hversion] at hversion'
  cases hversion'
  obtain ⟨s', hs', hread⟩ := readFields_of_blocks hbuffer reader htoken hs
  refine ⟨{ oAuthToken := some (marshalled pkt.oAuthToken), protocolVersion := some version }, s',
    hread.trans ?_, hs', hversion.symm, rfl, ?_⟩
  · rw [storeVersion, new_of_defined hbuild hrevision]
    rfl
  · rw [← marshalled_eq_iff]
    obtain ⟨token, protocolVersion⟩ := pkt
    cases hversion
    constructor
    · intro h
      exact congrArg AuthPacket.oAuthToken h
    · intro h
      rw [AuthPacket.mk.injEq]
      exact ⟨h, rfl⟩

/-- `é` as a token, and version 1.0.0.0. -/
def accented : AuthPacket :=
  { oAuthToken := some [0xE9], protocolVersion := some ⟨1, 0, 0, 0, by decide, by decide,
    by decide, by decide, by decide⟩ }

def accentedBytes : List UInt8 :=
  0x3F :: List.replicate 0x27 0 ++ [0, 0, 0, 1, 0, 0, 0, 0, 0, 0, 0, 0, 0, 0, 0, 0]

/-- The theorem on `accented`. -/
theorem accented_readFields :
    ∃ stored s', (readFields .x64 cursorBuffer).run [default] ⟨accentedBytes, 0⟩ =
        .ok ((), [stored]) s' ∧
      s'.Holds [] ∧ stored.protocolVersion = accented.protocolVersion ∧
      stored.oAuthToken = some (marshalled accented.oAuthToken) ∧
      (stored = accented ↔
        ∃ token, accented.oAuthToken = some token ∧ token.IsAscii ∧ ¬ token.EndsInNul) :=
  readFields_of_written .x64 .x64 accented _ accentedBytes (by rfl) rfl (by decide) (by decide)
    cursorBuffer Cursor.Holds cursorBuffer_inOrder ⟨accentedBytes, 0⟩ [] ⟨Nat.zero_le _, rfl⟩

/-- **Another token is read than the one that was written.** -/
theorem accented_not_lossless :
    writeFieldsAsync .x64 accented [] = .ok () accentedBytes ∧
      InOrder cursorBuffer Cursor.Holds ∧ Cursor.Holds ⟨accentedBytes, 0⟩ accentedBytes ∧
      outcome ((readFields .x64 cursorBuffer).run [default] ⟨accentedBytes, 0⟩) =
        .ok ((), [{ accented with oAuthToken := some [0x3F] }]) ∧
      ({ accented with oAuthToken := some [0x3F] } : AuthPacket) ≠ accented :=
  ⟨rfl, cursorBuffer_inOrder, ⟨Nat.zero_le _, rfl⟩, rfl, by decide⟩

end Manafont.Session
