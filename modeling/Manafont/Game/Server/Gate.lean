import Manafont.Game.Server.ServerConnection

/-!
# What stands between a peer and the session manager

Three checks are on the way of `HandleAsync` to `VerifyCreateSessionAsync`: the handshake, the
type of the first packet and its version.  The first two hold up every peer that
fails them.  The body of the third is empty, so a peer of any version comes through
(`gated_iff`).
-/

namespace Manafont.Game.Server

open Packets.IO Session Db Async Program

section Gate

variable (self : Nat) (peer : Peer) (protocolVersion : Option Version)

def Authenticated (stream : Stream) : Prop :=
  ∃ authPacket, FirstPacket peer stream authPacket ∧ authPacket.protocolVersion = protocolVersion

/-- The session manager is called and `_session` is set only for a peer that passes the
checks; any other leaves the sessions and the tokens as they were. -/
structure Gated (w : World) (call : Except Halt Unit × World) : Prop where
  checked : call.2.verified ≠ w.verified ∨ call.2.session ≠ w.session →
    Authenticated peer protocolVersion w.stream
  untouched : ¬ Authenticated peer protocolVersion w.stream →
    call.2.database.sessions = w.database.sessions ∧ call.2.database.tokens = w.database.tokens

variable {self peer protocolVersion}

theorem gated_of_no_firstPacket {w : World} (hw : w.streamDisposed = false)
    (h : ∀ authPacket, ¬ FirstPacket peer w.stream authPacket) :
    Gated peer protocolVersion w (run (act self peer) (handleAsync protocolVersion) w) := by
  obtain ⟨e, w', hrun, hdb, hverified, hsession⟩ :=
    run_handleAsync_of_no_firstPacket self protocolVersion hw h
  rw [hrun]
  refine ⟨?_, fun _ => ⟨by rw [hdb], by rw [hdb]⟩⟩
  rintro (hne | hne)
  · exact absurd hverified hne
  · exact absurd hsession hne

variable (self protocolVersion) in
theorem verified_of_firstPacket {w : World} (hw : w.streamDisposed = false)
    {authPacket : AuthPacket} (h : FirstPacket peer w.stream authPacket) :
    (run (act self peer) (handleAsync protocolVersion) w).2.verified =
      w.verified ++ [authPacket.oAuthToken] := by
  obtain ⟨s, hrun⟩ := run_handleAsync_of_firstPacket self protocolVersion hw h
  rw [hrun, run_checkVersion]
  split <;> rfl

/-- **A connection is gated exactly when its peer does not send an `AuthPacket` of another
version** after a handshake that succeeds. -/
theorem gated_iff (self : Nat) (peer : Peer) (protocolVersion : Option Version) (stream : Stream)
    (clients : List Nat) (disposing : Bool) (database : Database) :
    Gated peer protocolVersion (.accepted stream clients disposing database)
        (run (act self peer) (handleAsync protocolVersion)
          (.accepted stream clients disposing database)) ↔
      ¬ ∃ authPacket, FirstPacket peer stream authPacket ∧
        authPacket.protocolVersion ≠ protocolVersion := by
  by_cases h : ∃ authPacket, FirstPacket peer stream authPacket
  · obtain ⟨authPacket, hfirst⟩ := h
    have hverified := verified_of_firstPacket self protocolVersion
      (w := .accepted stream clients disposing database) rfl hfirst
    constructor
    · rintro hgated ⟨other, hother, hne⟩
      obtain rfl := hother.unique hfirst
      obtain ⟨checked, hchecked, heq⟩ := hgated.checked
        (Or.inl (by rw [hverified]; simp [World.accepted]))
      obtain rfl := hchecked.unique hfirst
      exact hne heq
    · intro hversion
      have hauth : Authenticated peer protocolVersion stream := by
        refine ⟨authPacket, hfirst, ?_⟩
        by_contra hne
        exact hversion ⟨authPacket, hfirst, hne⟩
      exact ⟨fun _ => hauth, fun hno => absurd hauth hno⟩
  · refine iff_of_true (gated_of_no_firstPacket rfl fun authPacket hfirst => h ⟨_, hfirst⟩) ?_
    rintro ⟨authPacket, hfirst, -⟩
    exact h ⟨authPacket, hfirst⟩

end Gate

/-! ### An `AuthPacket` of no version -/

/-- The opcode of an `AuthPacket` and zeros, in the pieces that its reader asks for. -/
def zeros : Stream :=
  .ofPieces ([0, 2] ++ List.replicate 0x80 0)
    (fun k => if k = 0 then 2 else if k = 1 then 0x48 else if k = 2 then 0x28 else 4) false

def versionOne : Option Version := (Version.new 1 0 0 0).toOption

def zerosAccepted : World := .accepted zeros [0] false (.issued [0x75] [[0x74]])

def typeRead : EStateM.Result Halt Stream (IPacket PacketType.Data) → Option PacketType
  | .ok packet _ => some packet.packetType
  | .error _ _ => none

theorem zeros_typeRead :
    typeRead ((packetIo .x64).readPacketAsync .x64 .zeroed zeros) = some .auth := by
  decide +kernel

theorem zeros_firstPacket : FirstPacket (.sending .x64 .zeroed) zeros default := by
  refine ⟨rfl, ?_⟩
  have htype := zeros_typeRead
  cases hread : (packetIo .x64).readPacketAsync .x64 .zeroed zeros with
  | error e s =>
    rw [hread] at htype
    cases htype
  | ok packet s =>
    rw [hread] at htype
    obtain ⟨t, opcode, data⟩ := packet
    obtain rfl : t = .auth := Option.some.inj htype
    have hdata : data = default := data_eq_default_of_readPacketAsync hread
    subst hdata
    exact ⟨opcode, s, hread⟩

/-- **A peer whose packet has no version comes to the session manager** of a server of
version `1.0.0.0`. -/
theorem zeros_not_gated :
    (run (act 0 (.sending .x64 .zeroed)) (handleAsync versionOne) zerosAccepted).2.verified =
        [none] ∧
      ¬ Gated (.sending .x64 .zeroed) versionOne zerosAccepted
        (run (act 0 (.sending .x64 .zeroed)) (handleAsync versionOne) zerosAccepted) := by
  have hverified := verified_of_firstPacket 0 versionOne (w := zerosAccepted) rfl zeros_firstPacket
  refine ⟨hverified, fun h => ?_⟩
  obtain ⟨authPacket, hfirst, hversion⟩ := h.checked (Or.inl (by rw [hverified]; decide))
  obtain rfl := hfirst.unique zeros_firstPacket
  cases hversion

end Manafont.Game.Server
