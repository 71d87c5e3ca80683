import Mathlib.Data.List.Forall2
import Manafont.Packets.IO.PacketIO

/-!
# Do reading and writing agree on a packet type?

Three structures are filled by a sequence of registrations, each by its own rule.
The container resolves `PacketSerializer<T>` to the last serializer of `T`
(`getRequiredService_eq`).  `Register` enters a type with the opcode of its first
serializer (`find?_of_registry`), and an entry is overwritten by a later type whose
first serializer has the same opcode (`registry_of_find?`).

So the opcode that `WritePacketAsync<T>` puts on the wire leads back to `T` for every
registered `T` exactly when the first and the last serializer of each type carry
one opcode and the first serializers of two types carry two: `Coherent`.
-/

namespace Manafont.Packets.IO

open Program

/-! ### The container -/

section Container

variable {Ty : Type} {Data : Ty → Type} {P : SerializerClasses Data}

def Registration.source : (r : Registration P) → Implementation P r.cls
  | ofInstance _ ser => .ofInstance ser
  | ofType _ => .ofFactory

/-- The instance behind an entry does not depend on the service it is asked for as. -/
theorem resolve_serviceType (services : List (ServiceDescriptor P)) (k k' : ServiceType)
    {c : P.Class} (impl : Implementation P c) :
    resolve services { serviceType := k, cls := c, implementation := impl } =
      resolve services { serviceType := k', cls := c, implementation := impl } := by
  cases impl <;> rfl

def instanceOf (services : List (ServiceDescriptor P)) (r : Registration P) :
    Except Exn (IPacketSerializer Data) :=
  resolve services
    { serviceType := .iPacketSerializer, cls := r.cls, implementation := r.source }

theorem Registration.descriptors_eq (r : Registration P) : ∃ impl, r.descriptors =
    [{ serviceType := .self, cls := r.cls, implementation := impl },
      { serviceType := .packetSerializer, cls := r.cls, implementation := r.source },
      { serviceType := .iPacketSerializer, cls := r.cls, implementation := r.source }] := by
  cases r with
  | ofInstance c ser => exact ⟨.ofInstance ser, rfl⟩
  | ofType c => exact ⟨.ofType, rfl⟩

theorem serviceCollection_append (regs : List (Registration P)) (r : Registration P) :
    serviceCollection (regs ++ [r]) = serviceCollection regs ++ r.descriptors := by
  rw [serviceCollection, List.foldl_append]
  rfl

theorem filter_serviceCollection (regs : List (Registration P)) :
    ((serviceCollection regs).filter fun d => d.serviceType = .iPacketSerializer) =
      regs.map fun r =>
        { serviceType := .iPacketSerializer, cls := r.cls, implementation := r.source } := by
  induction regs using List.reverseRecOn with
  | nil => rfl
  | append_singleton regs r ih =>
    obtain ⟨impl, h⟩ := r.descriptors_eq
    rw [serviceCollection_append, List.filter_append, ih, h, List.map_append]
    rfl

/-- `GetServices` lists the instances in the order of registration. -/
theorem getServices_eq (services : List (ServiceDescriptor P)) (regs : List (Registration P))
    (h : services = serviceCollection regs) :
    getServices services = regs.mapM (instanceOf services) := by
  rw [getServices]
  conv_lhs => rw [h, filter_serviceCollection, ← h]
  rw [List.mapM_map]
  rfl

theorem packetType_getRequiredClass {services : List (ServiceDescriptor P)} {c : P.Class}
    {s : IPacketSerializer Data} (h : getRequiredClass services c = .ok s) :
    s.packetType = P.packetType c := by
  rw [getRequiredClass] at h
  split at h
  · cases h
  · rename_i d hd
    have hc : d.cls = c := by
      have := List.find?_some hd
      simp only [decide_eq_true_eq] at this
      exact this.2
    subst hc
    split at h
    · cases h
      rfl
    · cases ha : P.activate d.cls with
      | ok ser =>
        rw [ha] at h
        cases h
        rfl
      | error e =>
        rw [ha] at h
        cases h
    · cases h

theorem packetType_instanceOf {services : List (ServiceDescriptor P)} {r : Registration P}
    {s : IPacketSerializer Data} (h : instanceOf services r = .ok s) :
    s.packetType = r.packetType := by
  cases r with
  | ofInstance c ser =>
    cases h
    rfl
  | ofType c => exact packetType_getRequiredClass h

theorem forall₂_of_mapM {α β ε : Type} {f : α → Except ε β} : ∀ {as : List α} {bs : List β},
    as.mapM f = .ok bs → List.Forall₂ (fun a b => f a = .ok b) as bs := by
  intro as
  induction as with
  | nil =>
    intro bs h
    cases h
    exact .nil
  | cons a as ih =>
    intro bs h
    rw [List.mapM_cons] at h
    cases ha : f a with
    | error e =>
      rw [ha] at h
      cases h
    | ok b =>
      rw [ha] at h
      cases has : as.mapM f with
      | error e =>
        rw [has] at h
        cases h
      | ok bs' =>
        rw [has] at h
        cases h
        exact .cons ha (ih has)

end Container

/-! ### First and last serializers -/

section Coherence

variable {Ty : Type} [DecidableEq Ty] {Data : Ty → Type} {P : SerializerClasses Data}

def firstOf (sers : List (IPacketSerializer Data)) (t : Ty) : Option (IPacketSerializer Data) :=
  sers.find? fun s => s.packetType = t

def lastOf (sers : List (IPacketSerializer Data)) (t : Ty) : Option (IPacketSerializer Data) :=
  sers.reverse.find? fun s => s.packetType = t

/-- The first and the last serializer of each type carry one opcode, and the first
serializers of two types carry two. -/
structure Coherent (sers : List (IPacketSerializer Data)) : Prop where
  one_opcode : ∀ t s s', firstOf sers t = some s → lastOf sers t = some s' → s.opcode = s'.opcode
  two_opcodes : ∀ t t' s s', firstOf sers t = some s → firstOf sers t' = some s' →
    s.opcode = s'.opcode → t = t'

theorem find?_serviceCollection (t : Ty) (regs : List (Registration P)) :
    (serviceCollection regs).reverse.find?
        (fun d => d.serviceType = .packetSerializer ∧ P.packetType d.cls = t) =
      (regs.reverse.find? fun r => r.packetType = t).map fun r =>
        { serviceType := .packetSerializer, cls := r.cls, implementation := r.source } := by
  induction regs using List.reverseRecOn with
  | nil => rfl
  | append_singleton regs r ih =>
    obtain ⟨impl, h⟩ := r.descriptors_eq
    rw [serviceCollection_append, List.reverse_append, List.reverse_append, h]
    by_cases ht : r.packetType = t
    · have ht' : P.packetType r.cls = t := ht
      simp [ht, ht']
    · have ht' : ¬ P.packetType r.cls = t := ht
      simpa [ht, ht'] using ih

theorem find?_of_forall₂ {services : List (ServiceDescriptor P)} (t : Ty) :
    ∀ {regs : List (Registration P)} {sers : List (IPacketSerializer Data)},
    List.Forall₂ (fun r s => instanceOf services r = .ok s) regs sers →
    (regs.find? fun r => r.packetType = t).map (instanceOf services) =
      (sers.find? fun s => s.packetType = t).map .ok := by
  intro regs sers h
  induction h with
  | nil => rfl
  | @cons r s regs sers hr _ ih =>
    have hp := packetType_instanceOf hr
    by_cases ht : r.packetType = t
    · rw [List.find?_cons_of_pos (by simpa using ht),
        List.find?_cons_of_pos (by simpa [hp] using ht), Option.map_some, Option.map_some, hr]
    · rw [List.find?_cons_of_neg (by simpa using ht),
        List.find?_cons_of_neg (by simpa [hp] using ht), ih]

theorem lastOf_of_firstOf {sers : List (IPacketSerializer Data)} {t : Ty}
    {s : IPacketSerializer Data} (h : firstOf sers t = some s) : ∃ s', lastOf sers t = some s' := by
  have hs : s.packetType = t := by simpa using List.find?_some h
  have hmem := List.mem_reverse.mpr (List.mem_of_find?_eq_some h)
  exact Option.isSome_iff_exists.mp (List.find?_isSome.mpr ⟨s, hmem, by simpa using hs⟩)

theorem firstOf_of_lastOf {sers : List (IPacketSerializer Data)} {t : Ty}
    {s : IPacketSerializer Data} (h : lastOf sers t = some s) : ∃ s', firstOf sers t = some s' := by
  have hs : s.packetType = t := by simpa using List.find?_some h
  have hmem := List.mem_reverse.mp (List.mem_of_find?_eq_some h)
  exact Option.isSome_iff_exists.mp (List.find?_isSome.mpr ⟨s, hmem, by simpa using hs⟩)

theorem lastOf_isSome_iff {services : List (ServiceDescriptor P)} {regs : List (Registration P)}
    {sers : List (IPacketSerializer Data)}
    (h : List.Forall₂ (fun r s => instanceOf services r = .ok s) regs sers) (t : Ty) :
    (lastOf sers t).isSome ↔ ∃ r ∈ regs, r.packetType = t := by
  have hf := find?_of_forall₂ t (List.rel_reverse h)
  have hs : (lastOf sers t).isSome = (regs.reverse.find? fun r => r.packetType = t).isSome := by
    have := congrArg Option.isSome hf
    rwa [Option.isSome_map, Option.isSome_map, eq_comm] at this
  rw [hs, List.find?_isSome]
  simp

/-- **The container resolves a packet type to its last serializer.** -/
theorem getRequiredService_eq {regs : List (Registration P)}
    {sers : List (IPacketSerializer Data)}
    (h : getServices (serviceCollection regs) = .ok sers) (t : Ty) :
    getRequiredService (serviceCollection regs) t = match lastOf sers t with
      | none => .error (.invalidOperation "No service for the type has been registered")
      | some s => .ok s := by
  rw [getServices_eq _ regs rfl] at h
  have hf := find?_of_forall₂ t (List.rel_reverse (forall₂_of_mapM h))
  rw [getRequiredService, find?_serviceCollection, lastOf]
  cases hr : regs.reverse.find? fun r => r.packetType = t with
  | none =>
    rw [hr, Option.map_none] at hf
    rw [Option.map_none]
    cases hs : sers.reverse.find? fun s => s.packetType = t with
    | none => rfl
    | some s =>
      rw [hs] at hf
      cases hf
  | some r =>
    rw [hr, Option.map_some] at hf
    rw [Option.map_some]
    cases hs : sers.reverse.find? fun s => s.packetType = t with
    | none =>
      rw [hs] at hf
      cases hf
    | some s =>
      rw [hs] at hf
      exact (resolve_serviceType _ _ _ _).trans (Option.some.inj hf)

/-! ### The dictionary -/

def registerAll (sers : List (IPacketSerializer Data)) : PacketIoOptions Ty :=
  sers.foldl .register .new

theorem registerAll_append (sers : List (IPacketSerializer Data)) (s : IPacketSerializer Data) :
    registerAll (sers ++ [s]) = (registerAll sers).register s := by
  rw [registerAll, List.foldl_append]
  rfl

theorem mem_packetTypes_iff (sers : List (IPacketSerializer Data)) (t : Ty) :
    t ∈ (registerAll sers).packetTypes ↔ (firstOf sers t).isSome := by
  induction sers using List.reverseRecOn with
  | nil => simp [registerAll, PacketIoOptions.new, firstOf]
  | append_singleton sers s ih =>
    rw [registerAll_append, PacketIoOptions.register, firstOf, List.find?_append,
      Option.isSome_or, ← firstOf]
    split
    · rename_i hs
      by_cases ht : s.packetType = t
      · subst ht
        simp [hs, ih.mp hs]
      · simp [ih, ht]
    · rw [List.mem_cons, ih]
      by_cases ht : s.packetType = t
      · simp [ht]
      · simp [ht, Ne.symm ht]

/-- **An entry of the dictionary is the first opcode of its type.** -/
theorem find?_of_registry {sers : List (IPacketSerializer Data)} {o : Opcode} {t : Ty}
    (h : (registerAll sers).opcodeRegistry o = some t) :
    ∃ s, firstOf sers t = some s ∧ s.opcode = o := by
  induction sers using List.reverseRecOn with
  | nil => cases h
  | append_singleton sers s ih =>
    have hold : (registerAll sers).opcodeRegistry o = some t →
        ∃ s', firstOf (sers ++ [s]) t = some s' ∧ s'.opcode = o := by
      intro h'
      obtain ⟨s', hs', ho⟩ := ih h'
      refine ⟨s', ?_, ho⟩
      rw [firstOf] at hs'
      rw [firstOf, List.find?_append, hs', Option.some_or]
    rw [registerAll_append, PacketIoOptions.register] at h
    split at h
    · exact hold h
    · rename_i hs
      by_cases ho : o = s.opcode
      · subst ho
        obtain rfl : s.packetType = t := by simpa using h
        refine ⟨s, ?_, rfl⟩
        have hnone : firstOf sers s.packetType = none := by
          rw [mem_packetTypes_iff] at hs
          simpa using hs
        rw [firstOf] at hnone
        rw [firstOf, List.find?_append, hnone, Option.none_or]
        simp
      · exact hold ((Function.update_of_ne ho _ _).symm.trans h)

/-- **The first opcode of a type has an entry**, though it may be another type's. -/
theorem registry_of_find? {sers : List (IPacketSerializer Data)} {t : Ty}
    {s : IPacketSerializer Data} (h : firstOf sers t = some s) :
    ∃ t', (registerAll sers).opcodeRegistry s.opcode = some t' := by
  induction sers using List.reverseRecOn with
  | nil => cases h
  | append_singleton sers s' ih =>
    rw [registerAll_append, PacketIoOptions.register]
    rw [firstOf, List.find?_append, ← firstOf] at h
    cases hf : firstOf sers t with
    | some s'' =>
      rw [hf, Option.some_or] at h
      obtain rfl := Option.some.inj h
      split
      · exact ih hf
      · by_cases ho : s''.opcode = s'.opcode
        · rw [ho]
          exact ⟨_, Function.update_self _ _ _⟩
        · obtain ⟨t', ht'⟩ := ih hf
          exact ⟨t', (Function.update_of_ne ho _ _).trans ht'⟩
    | none =>
      rw [hf, Option.none_or] at h
      obtain rfl : s = s' := by simpa using List.mem_of_find?_eq_some h
      have ht : s.packetType = t := by simpa using List.find?_some h
      have hmem : s.packetType ∉ (registerAll sers).packetTypes := by
        rw [mem_packetTypes_iff, ht, hf]
        simp
      rw [if_neg hmem]
      exact ⟨_, Function.update_self _ _ _⟩

/-! ### Agreement -/

variable [∀ t, Inhabited (Data t)]

/-- Reading and writing agree on `t`.  There is one serializer `s` that
`WritePacketAsync` uses; its opcode is what goes on the wire, is mapped back to `t`,
leads `ReadPacketAsync` to `s` itself, and is the `PacketOpcode` of what `s` decodes. -/
def PacketIo.Agrees (host : Host) (io : PacketIo P) (t : Ty) : Prop :=
  ∃ s, getRequiredService io.services t = .ok s ∧
    (∀ packet bytes, io.writePacketAsync host t packet [] = .ok () bytes →
      ∃ payload, bytes = networkBytes 2 s.opcode ++ payload) ∧
    io.options.getPacketType s.opcode = .ok t ∧ io.dispatch s.opcode = .ok s ∧
    ∀ pool stream packet stream', PacketIo.readWrapped pool s stream = .ok packet stream' →
      packet.packetOpcode = s.opcode

omit [∀ t, Inhabited (Data t)] in
theorem PacketIo.writePacketAsync_opcode {host : Host} {io : PacketIo P} {t : Ty}
    {s : IPacketSerializer Data} (hs : getRequiredService io.services t = .ok s) {packet : Data t}
    {bytes : List UInt8} (h : io.writePacketAsync host t packet [] = .ok () bytes) :
    ∃ payload, bytes = networkBytes 2 s.opcode ++ payload := by
  rw [writePacketAsync, hs] at h
  simp only at h
  split at h
  · obtain ⟨payload, -, hp⟩ := (s.serializer.writeAsync_eq_ok_iff host _).mp h
    exact ⟨payload, hp⟩
  · cases h

omit [DecidableEq Ty] in
theorem PacketIo.packetOpcode_readWrapped {pool : MemoryPool} {s : IPacketSerializer Data}
    {stream stream' : Stream} {packet : IPacket Data}
    (h : PacketIo.readWrapped pool s stream = .ok packet stream') :
    packet.packetOpcode = s.opcode := by
  obtain ⟨wrapped, t, hw, hp⟩ := bind_eq_ok_iff.mp h
  obtain ⟨data, u, -, hd⟩ := bind_eq_ok_iff.mp hw
  cases hd
  cases hp
  rfl

/-- On a type whose last serializer is known, agreement is a matter of the dictionary. -/
theorem PacketIo.agrees_iff {host : Host} {io : PacketIo P} {t : Ty} {s : IPacketSerializer Data}
    (hs : getRequiredService io.services t = .ok s) :
    io.Agrees host t ↔ io.options.opcodeRegistry s.opcode = some t := by
  have hget : io.options.getPacketType s.opcode = .ok t ↔
      io.options.opcodeRegistry s.opcode = some t := by
    rw [PacketIoOptions.getPacketType]
    cases io.options.opcodeRegistry s.opcode with
    | none => simp
    | some t' => simp
  constructor
  · rintro ⟨s', hs', -, htype, -⟩
    rw [hs] at hs'
    cases hs'
    exact hget.mp htype
  · intro h
    refine ⟨s, hs, fun _ _ => writePacketAsync_opcode hs, hget.mpr h, ?_,
      fun _ _ _ _ => packetOpcode_readWrapped⟩
    rw [dispatch, hget.mpr h]
    exact hs

/-- **Reading and writing agree on every registered type exactly when the serializers
are coherent.** -/
theorem PacketIo.agrees_iff_coherent (host : Host) (regs : List (Registration P))
    (io : PacketIo P) (sers : List (IPacketSerializer Data))
    (hio : PacketIo.new (serviceCollection regs) = .ok io)
    (hsers : getServices (serviceCollection regs) = .ok sers) :
    (∀ r ∈ regs, io.Agrees host r.packetType) ↔ Coherent sers := by
  have hnew : io = { services := serviceCollection regs, options := registerAll sers } := by
    rw [PacketIo.new, hsers] at hio
    exact (Except.ok.inj hio).symm
  subst hnew
  have hall := forall₂_of_mapM ((getServices_eq _ regs rfl).symm.trans hsers)
  have hlast : ∀ t s, lastOf sers t = some s →
      getRequiredService (serviceCollection regs) t = .ok s := by
    intro t s h
    rw [getRequiredService_eq hsers, h]
  have hdict : ∀ t s, lastOf sers t = some s → (PacketIo.Agrees host
      { services := serviceCollection regs, options := registerAll sers } t ↔
        (registerAll sers).opcodeRegistry s.opcode = some t) :=
    fun t s h => PacketIo.agrees_iff (hlast t s h)
  constructor
  · intro h
    have hagree : ∀ t s, lastOf sers t = some s →
        (registerAll sers).opcodeRegistry s.opcode = some t := by
      intro t s hs
      obtain ⟨r, hr, rfl⟩ := (lastOf_isSome_iff hall t).mp (by rw [hs]; rfl)
      exact (hdict _ s hs).mp (h r hr)
    have hone : ∀ t s s', firstOf sers t = some s → lastOf sers t = some s' →
        s.opcode = s'.opcode := by
      intro t s s' hs hs'
      obtain ⟨s'', hf, ho⟩ := find?_of_registry (hagree t s' hs')
      rw [hs] at hf
      cases hf
      exact ho
    refine ⟨hone, ?_⟩
    intro t t' s s' hs hs' ho
    obtain ⟨l, hl⟩ := lastOf_of_firstOf hs
    obtain ⟨l', hl'⟩ := lastOf_of_firstOf hs'
    have h1 := hagree t l hl
    have h2 := hagree t' l' hl'
    rw [← hone t s l hs hl, ho] at h1
    rw [← hone t' s' l' hs' hl', h1] at h2
    exact Option.some.inj h2
  · intro hc r hr
    obtain ⟨s, hs⟩ := Option.isSome_iff_exists.mp ((lastOf_isSome_iff hall _).mpr ⟨r, hr, rfl⟩)
    obtain ⟨f, hf⟩ := firstOf_of_lastOf hs
    rw [hdict _ s hs, ← hc.one_opcode _ f s hf hs]
    obtain ⟨t', ht'⟩ := registry_of_find? hf
    obtain ⟨f', hf', ho⟩ := find?_of_registry ht'
    rw [ht', hc.two_opcodes _ _ f' f hf' hf ho]

end Coherence

/-! ### Two packet types without fields -/

/-- Two packet types with `EmptyPacketSerializer`, which only exists as an instance: the
container has no `ushort` for its constructor. -/
def fieldlessClasses : SerializerClasses (fun _ : Bool => Unit) where
  Class := Bool
  packetType t := t
  activate _ := .error (.invalidOperation "Unable to resolve service for type System.UInt16")

def fieldless (t : Bool) (opcode : Opcode) : IPacketSerializer (fun _ : Bool => Unit) :=
  { packetType := t, serializer := emptyPacketSerializer Unit opcode }

def registerFieldless (t : Bool) (opcode : Opcode) : Registration fieldlessClasses :=
  .ofInstance t (emptyPacketSerializer Unit opcode)

/-- The theorem on two types with an opcode each. -/
theorem fieldless_agree_iff_coherent :
    (∀ r ∈ [registerFieldless true 1, registerFieldless false 3],
      PacketIo.Agrees .x64
        { services := serviceCollection [registerFieldless true 1, registerFieldless false 3]
          options := registerAll [fieldless true 1, fieldless false 3] } r.packetType) ↔
      Coherent [fieldless true 1, fieldless false 3] :=
  PacketIo.agrees_iff_coherent .x64 [registerFieldless true 1, registerFieldless false 3] _ _
    (by rfl) (by rfl)

/-- **Accepted registrations on which reading and writing do not agree**: two types with
one opcode, and one type with two. -/
theorem fieldless_disagree :
    (∃ io, PacketIo.new (serviceCollection [registerFieldless true 1, registerFieldless false 1])
        = .ok io ∧ ¬ io.Agrees .x64 true) ∧
      ∃ io, PacketIo.new (serviceCollection [registerFieldless true 1, registerFieldless true 5])
        = .ok io ∧ ¬ io.Agrees .x64 true := by
  constructor
  · refine ⟨_, rfl, ?_⟩
    rw [PacketIo.agrees_iff (s := fieldless true 1) (by rfl)]
    decide
  · refine ⟨_, rfl, ?_⟩
    rw [PacketIo.agrees_iff (s := fieldless true 5) (by rfl)]
    decide

end Manafont.Packets.IO
