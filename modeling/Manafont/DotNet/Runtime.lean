import Mathlib.Data.List.DropRight
import Manafont.Library.Positional

/-!
# The parts of .NET the code stands on

Exceptions, strings, integers in memory, `Encoding.ASCII` and `System.Version`,
each as far as the code of this repository uses it.

An exception carries what a caller can tell it apart by: its type, and the
parameter, key or text the throwing code puts into it.  A `string` is its list
of UTF-16 units and a reference that may be null is an `Option`.  `Host` is what
differs from one machine or runtime to another: the byte order, and the unit
that `Encoding.ASCII` puts in the place of a byte it cannot decode.
-/

namespace Manafont

inductive Exn where
  | argument (message paramName : String)
  | argumentNull (paramName : String)
  | argumentOutOfRange (paramName : String)
  | nullReference
  | endOfStream
  | keyNotFound (key : BitVec (8 * 2))
  | io (message : String)
  | invalidOperation (message : String)
  | authentication (message : String)
  | security (message : String)
  | objectDisposed (objectName : String)
  | operationCanceled
  | other (typeName : String)
  deriving DecidableEq, Repr

/-- Why an asynchronous method does not return: it threw, or it waits for
something that never comes. -/
inductive Halt where
  | thrown (e : Exn)
  | pending
  deriving DecidableEq, Repr

/-- A `string`: its UTF-16 units. -/
abbrev DotNetString := List UInt16

namespace DotNetString

def trimEndNul (s : DotNetString) : DotNetString := s.rdropWhile (fun c => c == 0)

/-- The text as it stands in a message, one character for each unit. -/
def text (s : DotNetString) : String := String.ofList (s.map fun c => Char.ofNat c.toNat)

end DotNetString

structure Host where
  isLittleEndian : Bool
  replacement : UInt16
  replacement_ne_nul : replacement ≠ 0

namespace Host

def x64 : Host := { isLittleEndian := true, replacement := 0x3F, replacement_ne_nul := by decide }

/-- `Unsafe.WriteUnaligned`: the bytes of an integer in the order of this machine. -/
def writeUnaligned (host : Host) (w : Nat) (v : BitVec (8 * w)) : List UInt8 :=
  if host.isLittleEndian then Positional.lowFirst w v.toNat
  else (Positional.lowFirst w v.toNat).reverse

def readUnaligned (host : Host) (w : Nat) (bytes : List UInt8) : BitVec (8 * w) :=
  BitVec.ofNat (8 * w)
    (Positional.value (if host.isLittleEndian then bytes else bytes.reverse))

def asciiGetString (host : Host) (bytes : List UInt8) : DotNetString :=
  bytes.map fun b => if b < 0x80 then b.toUInt16 else host.replacement

end Host

/-- The bytes `Encoding.ASCII` encodes a string to: a unit that is not ASCII becomes `?`. -/
def asciiBytes (s : DotNetString) : List UInt8 :=
  s.map fun c => if c < 0x80 then c.toUInt8 else 0x3F

/-- `Encoding.ASCII.GetBytes(value, span)` on a zeroed span of `size` bytes.  A null
string converts to the empty `ReadOnlySpan<char>`. -/
def asciiGetBytes (value : Option DotNetString) (size : Nat) : Except Exn (List UInt8) :=
  let s := value.getD []
  if size < s.length then
    .error (.argument "The output byte buffer is too small to contain the encoded data" "bytes")
  else .ok (asciiBytes s ++ List.replicate (size - s.length) 0)

abbrev Int32Bits := BitVec 32

/-- `System.Version`.  A version of two or three components has `-1` for the others. -/
structure Version where
  major : Int32Bits
  minor : Int32Bits
  build : Int32Bits
  revision : Int32Bits
  major_nonneg : 0 ≤ major.toInt
  minor_nonneg : 0 ≤ minor.toInt
  build_ge : -1 ≤ build.toInt
  revision_ge : -1 ≤ revision.toInt
  revision_of_build : build.toInt = -1 → revision.toInt = -1
  deriving DecidableEq

def Version.new (major minor build revision : Int32Bits) : Except Exn Version :=
  if hMajor : major.toInt < 0 then .error (.argumentOutOfRange "major")
  else if hMinor : minor.toInt < 0 then .error (.argumentOutOfRange "minor")
  else if hBuild : build.toInt < 0 then .error (.argumentOutOfRange "build")
  else if hRevision : revision.toInt < 0 then .error (.argumentOutOfRange "revision")
  else .ok {
    major := major, minor := minor, build := build, revision := revision
    major_nonneg := by omega, minor_nonneg := by omega, build_ge := by omega
    revision_ge := by omega, revision_of_build := by omega }

/-! ### Text as bytes and back -/

/-- What is left of a unit that `Encoding.ASCII` encodes. -/
def asciiUnit (c : UInt16) : UInt16 := if c < 0x80 then c else 0x3F

namespace DotNetString

def toAscii (s : DotNetString) : DotNetString := s.map asciiUnit

def IsAscii (s : DotNetString) : Prop := ∀ c ∈ s, c < 0x80

def EndsInNul (s : DotNetString) : Prop := s.getLast? = some 0

theorem trimEndNul_append_replicate (s : DotNetString) (k : Nat) :
    (s ++ List.replicate k 0).trimEndNul = s.trimEndNul := by
  induction k with
  | zero => rw [List.replicate_zero, List.append_nil]
  | succ k ih =>
    rw [List.replicate_succ', ← List.append_assoc, trimEndNul, List.rdropWhile_concat_pos _ _ _ rfl]
    exact ih

theorem trimEndNul_append_replicate_self (s : DotNetString) :
    s.trimEndNul ++ List.replicate (s.length - s.trimEndNul.length) 0 = s := by
  induction s using List.reverseRecOn with
  | nil => rfl
  | append_singleton s c ih =>
    by_cases hc : c = 0
    · subst hc
      have htrim : trimEndNul (s ++ [0]) = trimEndNul s := trimEndNul_append_replicate s 1
      have hle : (trimEndNul s).length ≤ s.length := (List.rdropWhile_prefix _ _).length_le
      have hlen : (s ++ [0]).length - (trimEndNul s).length =
          s.length - (trimEndNul s).length + 1 := by
        rw [List.length_append, List.length_singleton]
        omega
      rw [htrim, hlen, List.replicate_succ', ← List.append_assoc, ih]
    · have htrim : trimEndNul (s ++ [c]) = s ++ [c] :=
        List.rdropWhile_concat_neg (fun c => c == 0) _ _ (by simpa using hc)
      rw [htrim, Nat.sub_self, List.replicate_zero, List.append_nil]

theorem trimEndNul_eq_self_iff {s : DotNetString} : s.trimEndNul = s ↔ ¬ s.EndsInNul := by
  rw [trimEndNul, List.rdropWhile_eq_self_iff, EndsInNul]
  constructor
  · intro h hlast
    have hne : s ≠ [] := by
      rintro rfl
      cases hlast
    rw [List.getLast?_eq_some_getLast hne] at hlast
    exact h hne (by rw [Option.some.inj hlast]; rfl)
  · intro h hne hlast
    refine h ((List.getLast?_eq_some_getLast hne).trans (congrArg some ?_))
    simpa using hlast

theorem toAscii_eq_self_iff {s : DotNetString} : s.toAscii = s ↔ s.IsAscii := by
  have hmap : s.toAscii = s ↔ ∀ c ∈ s, asciiUnit c = c := by
    conv_lhs => rw [toAscii, ← List.map_id s, List.map_map, List.map_inj_left]
    rfl
  rw [hmap, IsAscii]
  refine forall₂_congr fun c _ => ⟨fun h => ?_, fun h => if_pos h⟩
  by_contra hc
  rw [asciiUnit, if_neg hc] at h
  exact hc (h ▸ by decide)

/-- **A text survives ASCII and trimming exactly when it is ASCII and does not end in a NUL.** -/
theorem trimEndNul_toAscii_eq_self_iff {s : DotNetString} :
    s.toAscii.trimEndNul = s ↔ s.IsAscii ∧ ¬ s.EndsInNul := by
  constructor
  · intro h
    have hprefix : s.toAscii.trimEndNul <+: s.toAscii := List.rdropWhile_prefix _ _
    have hmap : s = s.toAscii := by
      rw [h] at hprefix
      exact hprefix.eq_of_length (by rw [toAscii, List.length_map])
    rw [← hmap] at h
    exact ⟨toAscii_eq_self_iff.mp hmap.symm, trimEndNul_eq_self_iff.mp h⟩
  · rintro ⟨hascii, hlast⟩
    rw [toAscii_eq_self_iff.mpr hascii]
    exact trimEndNul_eq_self_iff.mpr hlast

end DotNetString

/-- **What ASCII makes of a text in a block of bytes**, read back on any machine. -/
theorem trimEndNul_asciiGetString (host : Host) (s : DotNetString) (k : Nat) :
    (host.asciiGetString (asciiBytes s ++ List.replicate k 0)).trimEndNul =
      s.toAscii.trimEndNul := by
  have hunits : host.asciiGetString (asciiBytes s) = s.toAscii := by
    rw [Host.asciiGetString, asciiBytes, List.map_map]
    apply List.map_congr_left
    intro c _
    rw [Function.comp_apply, asciiUnit]
    by_cases hc : c < 0x80
    · rw [if_pos hc, if_pos hc]
      have hlt : c.toNat < 0x80 := hc
      have hbyte : c.toUInt8 < 0x80 := by
        show c.toUInt8.toNat < 0x80
        rw [UInt16.toNat_toUInt8]
        omega
      rw [if_pos hbyte]
      apply UInt16.toNat_inj.mp
      rw [UInt8.toNat_toUInt16, UInt16.toNat_toUInt8]
      omega
    · rw [if_neg hc, if_neg hc]
      rfl
  have hzeros : host.asciiGetString (List.replicate k 0) = List.replicate k 0 := by
    rw [Host.asciiGetString, List.map_replicate]
    rfl
  have happend : host.asciiGetString (asciiBytes s ++ List.replicate k 0) =
      s.toAscii ++ List.replicate k 0 := by
    rw [← hunits, ← hzeros]
    exact List.map_append
  rw [happend, DotNetString.trimEndNul_append_replicate]

theorem lt_of_mem_asciiBytes {s : DotNetString} {b : UInt8} (h : b ∈ asciiBytes s) : b < 0x80 := by
  obtain ⟨c, -, rfl⟩ := List.mem_map.mp h
  split
  · rename_i hc
    have hlt : c.toNat < 0x80 := hc
    show c.toUInt8.toNat < 0x80
    rw [UInt16.toNat_toUInt8]
    omega
  · decide

/-- **Bytes come back from the text they are decoded to exactly when they are ASCII.** -/
theorem asciiBytes_asciiGetString_eq_self_iff (host : Host) {bytes : List UInt8} :
    asciiBytes (host.asciiGetString bytes) = bytes ↔ ∀ b ∈ bytes, b < 0x80 := by
  constructor
  · intro h b hb
    rw [← h] at hb
    exact lt_of_mem_asciiBytes hb
  · intro h
    rw [asciiBytes, Host.asciiGetString, List.map_map]
    refine (List.map_congr_left fun b hb => ?_).trans (List.map_id bytes)
    have hlt : b.toNat < 0x80 := h b hb
    have hunit : b.toUInt16 < 0x80 := by
      show b.toUInt16.toNat < 0x80
      rwa [UInt8.toNat_toUInt16]
    rw [Function.comp_apply, if_pos (h b hb), if_pos hunit]
    apply UInt8.toNat_inj.mp
    rw [UInt16.toNat_toUInt8, UInt8.toNat_toUInt16, id_eq]
    omega

end Manafont
