import Manafont.Packets.IO.PacketSerializer

/-!
# Registering serializers

`Manafont.Packets.IO/ReflectExtensions.cs`, on the service collection and the
container of the host.  `Ty` stands for the struct types of a program as run-time
`Type` objects and `Data t` for the values of one; a serializer seen through
`IPacketSerializer` is a serializer together with its `PacketType`.

`AddPacketSerializer` adds three services: the serializer class `TSer`,
`PacketSerializer<TPkt>` and `IPacketSerializer`.  The overload that is given an
instance adds it three times; the other lets the container make the instance and
has the second and the third service fetch it.  The container resolves a service
to the last one added (`getRequiredService`) and lists all of a kind in the order
they were added (`getServices`).
-/

namespace Manafont.Packets.IO

/-- `IPacketSerializer`: a serializer of some packet type. -/
structure IPacketSerializer {Ty : Type} (Data : Ty → Type) where
  packetType : Ty
  serializer : PacketSerializer (Data packetType)

abbrev IPacketSerializer.opcode {Ty : Type} {Data : Ty → Type} (s : IPacketSerializer Data) :
    Opcode := s.serializer.opcode

/-- The serializer classes of a program.  `activate` is how the container makes an
instance, which fails for a class whose constructor asks for what it does not have. -/
structure SerializerClasses {Ty : Type} (Data : Ty → Type) where
  Class : Type
  [decEq : DecidableEq Class]
  packetType : Class → Ty
  activate : (c : Class) → Except Exn (PacketSerializer (Data (packetType c)))

attribute [instance] SerializerClasses.decEq

/-- One call of `AddPacketSerializer<TPkt, TSer>`. -/
inductive Registration {Ty : Type} {Data : Ty → Type} (P : SerializerClasses Data) where
  /-- The overload that takes an instance. -/
  | ofInstance (c : P.Class) (ser : PacketSerializer (Data (P.packetType c)))
  /-- The overload that takes the class alone. -/
  | ofType (c : P.Class)

inductive ServiceType where
  | self
  | packetSerializer
  | iPacketSerializer
  deriving DecidableEq, Repr

/-- Where the instance of a service comes from: it was given, the container makes it,
or `sp.GetRequiredService<TSer>()` fetches it. -/
inductive Implementation {Ty : Type} {Data : Ty → Type} (P : SerializerClasses Data)
    (c : P.Class) where
  | ofInstance (ser : PacketSerializer (Data (P.packetType c)))
  | ofType
  | ofFactory

structure ServiceDescriptor {Ty : Type} {Data : Ty → Type} (P : SerializerClasses Data) where
  serviceType : ServiceType
  cls : P.Class
  implementation : Implementation P cls

section Container

variable {Ty : Type} [DecidableEq Ty] {Data : Ty → Type} {P : SerializerClasses Data}

def Registration.cls : Registration P → P.Class
  | ofInstance c _ => c
  | ofType c => c

def Registration.packetType (r : Registration P) : Ty := P.packetType r.cls

def Registration.descriptors : Registration P → List (ServiceDescriptor P)
  | ofInstance c ser =>
    [{ serviceType := .self, cls := c, implementation := .ofInstance ser },
      { serviceType := .packetSerializer, cls := c, implementation := .ofInstance ser },
      { serviceType := .iPacketSerializer, cls := c, implementation := .ofInstance ser }]
  | ofType c =>
    [{ serviceType := .self, cls := c, implementation := .ofType },
      { serviceType := .packetSerializer, cls := c, implementation := .ofFactory },
      { serviceType := .iPacketSerializer, cls := c, implementation := .ofFactory }]

def addPacketSerializer (services : List (ServiceDescriptor P)) (r : Registration P) :
    List (ServiceDescriptor P) :=
  services ++ r.descriptors

def serviceCollection (regs : List (Registration P)) : List (ServiceDescriptor P) :=
  regs.foldl addPacketSerializer []

/-- `GetRequiredService<TSer>()`. -/
def getRequiredClass (services : List (ServiceDescriptor P)) (c : P.Class) :
    Except Exn (IPacketSerializer Data) :=
  match services.reverse.find? (fun d => d.serviceType = .self ∧ d.cls = c) with
  | none => .error (.invalidOperation "No service for the type has been registered")
  | some d =>
    match d.implementation with
    | .ofInstance ser => .ok { packetType := P.packetType d.cls, serializer := ser }
    | .ofType => (P.activate d.cls).map fun ser =>
      { packetType := P.packetType d.cls, serializer := ser }
    | .ofFactory => .error (.invalidOperation "A class is never registered by a factory")

def resolve (services : List (ServiceDescriptor P)) (d : ServiceDescriptor P) :
    Except Exn (IPacketSerializer Data) :=
  match d.implementation with
  | .ofInstance ser => .ok { packetType := P.packetType d.cls, serializer := ser }
  | .ofType => (P.activate d.cls).map fun ser =>
    { packetType := P.packetType d.cls, serializer := ser }
  | .ofFactory => getRequiredClass services d.cls

def getServices (services : List (ServiceDescriptor P)) :
    Except Exn (List (IPacketSerializer Data)) :=
  (services.filter fun d => d.serviceType = .iPacketSerializer).mapM (resolve services)

/-- `GetRequiredService(typeof(PacketSerializer<T>))`. -/
def getRequiredService (services : List (ServiceDescriptor P)) (t : Ty) :
    Except Exn (IPacketSerializer Data) :=
  match services.reverse.find? (fun d =>
    d.serviceType = .packetSerializer ∧ P.packetType d.cls = t) with
  | none => .error (.invalidOperation "No service for the type has been registered")
  | some d => resolve services d

end Container

end Manafont.Packets.IO
