/-
# Hardware.ExportedInterfaces -- where the exported command interfaces point

`export_command_interfaces` looks the buffer of an interface up by the interface's name and
takes the address of one of its elements, unchecked: for a joint the element at the joint's
position in the list, for a GPIO the one its `index` parameter names.

The loops register one interface after the other (`registrations`), and the first that
throws ends the export.  `exportSound_iff` gives the descriptions whose exports, if they
succeed, stay within the buffers and never meet.
-/
import FrankaRos.Hardware.VersionGate
import Mathlib.Data.List.Forall2

namespace FrankaRos.Hardware

open FrankaRos.Theory

set_option autoImplicit false

/-! ## The export -/

/-- `command_interface_map_`. -/
def commandInterfaceMap : List (String × CommandInterface) :=
  [("effort", .mode .effort), ("position", .mode .jointPosition),
    ("velocity", .mode .jointVelocity), ("cartesian_velocity", .mode .cartesianVelocity),
    ("cartesian_pose_command", .mode .cartesianPose), ("elbow_command", .elbow)]

/-- A command interface with the element it points to. -/
structure ExportedInterface where
  prefixName : String
  interfaceName : String
  buffer : CommandInterface
  index : Nat
  deriving DecidableEq, Repr

def ExportedInterface.name (e : ExportedInterface) : String :=
  e.prefixName ++ "/" ++ e.interfaceName

/-- One turn of an inner loop; the index is an expression that may throw. -/
structure Registration where
  prefixName : String
  interfaceName : String
  index : Except StdException Nat

def Registration.run (r : Registration) : Except StdException ExportedInterface :=
  match r.index with
  | .error e => .error e
  | .ok index =>
      match commandInterfaceMap.lookup r.interfaceName with
      | none => .error .outOfRange
      | some buffer => .ok ⟨r.prefixName, r.interfaceName, buffer, index⟩

/-- `std::stoul(gpio.parameters.at("index"))`. -/
def gpioIndex (gpio : ComponentInfo) : Except StdException Nat :=
  match gpio.parameters "index" with
  | none => .error .outOfRange
  | some text => stoul text.toList

/-- The turns of the two loops, in their order. -/
def registrations (info : HardwareInfo) : List Registration :=
  (info.joints.zipIdx.flatMap fun entry =>
    entry.1.commandInterfaces.map fun interface => ⟨entry.1.name, interface, .ok entry.2⟩) ++
  info.gpios.flatMap fun gpio =>
    gpio.commandInterfaces.map fun interface => ⟨gpio.name, interface, gpioIndex gpio⟩

/-- The loops push each interface back, until one of them throws. -/
def registerAll : List Registration → Except StdException (List ExportedInterface)
  | [] => .ok []
  | r :: rest =>
      match r.run with
      | .error e => .error e
      | .ok interface =>
          match registerAll rest with
          | .error e => .error e
          | .ok interfaces => .ok (interface :: interfaces)

def exportCommandInterfaces (info : HardwareInfo) : Except StdException (List ExportedInterface) :=
  registerAll (registrations info)

/-! ## What is exported -/

/-- The export succeeds when every turn does, and exports what the turns make. -/
theorem registerAll_ok_iff {turns : List Registration} {exported : List ExportedInterface} :
    registerAll turns = .ok exported ↔
      List.Forall₂ (fun r interface => r.run = .ok interface) turns exported := by
  induction turns generalizing exported with
  | nil => cases exported <;> simp [registerAll]
  | cons r turns ih =>
      rw [registerAll]
      cases first : r.run with
      | error e => cases exported <;> simp [first]
      | ok interface =>
          cases rest : registerAll turns with
          | error e => cases exported <;> simp [← ih, rest]
          | ok interfaces => cases exported <;> simp [← ih, rest, first]

theorem registerAll_total {turns : List Registration}
    (succeeds : ∀ r ∈ turns, ∃ interface, r.run = .ok interface) :
    ∃ exported, registerAll turns = .ok exported := by
  induction turns with
  | nil => exact ⟨[], rfl⟩
  | cons r turns ih =>
      rw [List.forall_mem_cons] at succeeds
      obtain ⟨interface, first⟩ := succeeds.1
      obtain ⟨interfaces, rest⟩ := ih succeeds.2
      exact ⟨interface :: interfaces, by rw [registerAll, first, rest]⟩

theorem mem_exported_iff {turns : List Registration} {exported : List ExportedInterface}
    (all : registerAll turns = .ok exported) {e : ExportedInterface} :
    e ∈ exported ↔ ∃ r ∈ turns, r.run = .ok e := by
  rw [registerAll_ok_iff] at all
  induction all with
  | nil => simp
  | cons made _ ih => simp [ih, made, eq_comm]

theorem run_of_exported {turns : List Registration} {exported : List ExportedInterface}
    (all : registerAll turns = .ok exported) {r : Registration} (member : r ∈ turns) :
    ∃ interface, r.run = .ok interface := by
  rw [registerAll_ok_iff] at all
  induction all with
  | nil => cases member
  | cons made _ ih =>
      rcases List.mem_cons.1 member with rfl | later
      · exact ⟨_, made⟩
      · exact ih later

theorem mem_registrations_iff {info : HardwareInfo} {r : Registration} :
    r ∈ registrations info ↔
      (∃ (joint : ComponentInfo) (i : Nat), info.joints[i]? = some joint ∧
        ∃ interface ∈ joint.commandInterfaces, r = ⟨joint.name, interface, .ok i⟩) ∨
      ∃ gpio ∈ info.gpios, ∃ interface ∈ gpio.commandInterfaces,
        r = ⟨gpio.name, interface, gpioIndex gpio⟩ := by
  simp only [registrations, List.mem_append, List.mem_flatMap, List.mem_map, Prod.exists,
    List.mk_mem_zipIdx_iff_getElem?, eq_comm]

theorem run_eq_ok_iff {r : Registration} {e : ExportedInterface} :
    r.run = .ok e ↔ r.prefixName = e.prefixName ∧ r.interfaceName = e.interfaceName ∧
      r.index = .ok e.index ∧ commandInterfaceMap.lookup r.interfaceName = some e.buffer := by
  obtain ⟨prefixName, interfaceName, index⟩ := r
  obtain ⟨prefixName', interfaceName', buffer, index'⟩ := e
  cases index with
  | error e => simp [Registration.run]
  | ok index =>
      cases found : commandInterfaceMap.lookup interfaceName with
      | none => simp [Registration.run, found]
      | some buffer => simp [Registration.run, found]; tauto

/-- Only its own name leads to a buffer. -/
theorem commandInterfaceMap_lookup_iff {name : String} {buffer : CommandInterface} :
    commandInterfaceMap.lookup name = some buffer ↔ name = buffer.interfaceType := by
  constructor
  · intro found
    obtain ⟨before, after, split, -⟩ := List.lookup_eq_some_iff.1 found
    have member : (name, buffer) ∈ commandInterfaceMap := split ▸ by simp
    simp only [commandInterfaceMap, List.mem_cons, Prod.mk.injEq, List.not_mem_nil, or_false]
      at member
    rcases member with
      ⟨rfl, rfl⟩ | ⟨rfl, rfl⟩ | ⟨rfl, rfl⟩ | ⟨rfl, rfl⟩ | ⟨rfl, rfl⟩ | ⟨rfl, rfl⟩ <;> rfl
  · rintro rfl
    rcases buffer with (_ | _ | _ | _ | _) | _ <;> rfl

/-- The buffers are as long as they are constructed. -/
theorem constructed_length {K : Type} [MachineArith K] (exported : List String)
    (i : CommandInterface) :
    ((FrankaHardwareInterface.constructed (K := K) exported).commands i).length = i.size := by
  rcases i with (_ | _ | _ | _ | _) | _ <;>
    simp [FrankaHardwareInterface.constructed, CommandInterface.size, ControlMode.size]

/-! ## Elements that exist and that differ -/

/-- An export that succeeds exports interfaces within their buffers, and no two of different
names at one element. -/
structure ExportSound (info : HardwareInfo) : Prop where
  within : ∀ exported, exportCommandInterfaces info = .ok exported →
    ∀ e ∈ exported, e.index < e.buffer.size
  apart : ∀ exported, exportCommandInterfaces info = .ok exported →
    ∀ e ∈ exported, ∀ e' ∈ exported, e.name ≠ e'.name →
      ¬ (e.buffer = e'.buffer ∧ e.index = e'.index)

/-- Every command interface has a buffer, and the GPIOs that have one have an index. -/
structure Exportable (info : HardwareInfo) : Prop where
  joints : ∀ joint ∈ info.joints, ∀ interface ∈ joint.commandInterfaces,
    ∃ buffer : CommandInterface, interface = buffer.interfaceType
  gpios : ∀ gpio ∈ info.gpios, ∀ interface ∈ gpio.commandInterfaces,
    (∃ buffer : CommandInterface, interface = buffer.interfaceType) ∧
      ∃ index, gpioIndex gpio = .ok index

/-- The positions of the joints and the indices of the GPIOs are within the buffers; two
GPIOs of one index, or a GPIO and the joint at its index, that share an interface have one
name. -/
structure Addressable (info : HardwareInfo) : Prop where
  joints : ∀ i joint, info.joints[i]? = some joint →
    ∀ buffer : CommandInterface, buffer.interfaceType ∈ joint.commandInterfaces → i < buffer.size
  gpios : ∀ gpio ∈ info.gpios, ∀ index, gpioIndex gpio = .ok index →
    ∀ buffer : CommandInterface, buffer.interfaceType ∈ gpio.commandInterfaces →
      index < buffer.size
  twoGpios : ∀ gpio ∈ info.gpios, ∀ gpio' ∈ info.gpios, ∀ index,
    gpioIndex gpio = .ok index → gpioIndex gpio' = .ok index →
      ∀ interface ∈ gpio.commandInterfaces, interface ∈ gpio'.commandInterfaces →
        gpio.name = gpio'.name
  jointAndGpio : ∀ i joint, info.joints[i]? = some joint → ∀ gpio ∈ info.gpios,
    gpioIndex gpio = .ok i → ∀ interface ∈ joint.commandInterfaces,
      interface ∈ gpio.commandInterfaces → joint.name = gpio.name

theorem exportable_iff {info : HardwareInfo} :
    Exportable info ↔ ∃ exported, exportCommandInterfaces info = .ok exported := by
  constructor
  · intro exportable
    refine registerAll_total fun r member => ?_
    rcases mem_registrations_iff.1 member with ⟨joint, i, at_i, interface, listed, rfl⟩ |
        ⟨gpio, listedGpio, interface, listed, rfl⟩
    · obtain ⟨buffer, named⟩ :=
        exportable.joints joint (List.mem_of_getElem? at_i) interface listed
      exact ⟨⟨joint.name, interface, buffer, i⟩,
        run_eq_ok_iff.2 ⟨rfl, rfl, rfl, commandInterfaceMap_lookup_iff.2 named⟩⟩
    · obtain ⟨⟨buffer, named⟩, index, found⟩ := exportable.gpios gpio listedGpio interface listed
      exact ⟨⟨gpio.name, interface, buffer, index⟩,
        run_eq_ok_iff.2 ⟨rfl, rfl, found, commandInterfaceMap_lookup_iff.2 named⟩⟩
  · rintro ⟨exported, all⟩
    refine ⟨fun joint member interface listed => ?_, fun gpio member interface listed => ?_⟩
    · obtain ⟨i, at_i⟩ := List.getElem?_of_mem member
      obtain ⟨e, made⟩ := run_of_exported all
        (mem_registrations_iff.2 (.inl ⟨joint, i, at_i, interface, listed, rfl⟩))
      exact ⟨e.buffer, commandInterfaceMap_lookup_iff.1 (run_eq_ok_iff.1 made).2.2.2⟩
    · obtain ⟨e, made⟩ := run_of_exported all
        (mem_registrations_iff.2 (.inr ⟨gpio, member, interface, listed, rfl⟩))
      obtain ⟨-, -, found, named⟩ := run_eq_ok_iff.1 made
      exact ⟨⟨e.buffer, commandInterfaceMap_lookup_iff.1 named⟩, e.index, found⟩

/-- The exported interfaces: one for each interface of a joint, at the joint's position, and
one for each interface of a GPIO, at its index. -/
theorem mem_exportCommandInterfaces_iff {info : HardwareInfo} {exported : List ExportedInterface}
    (all : exportCommandInterfaces info = .ok exported) {e : ExportedInterface} :
    e ∈ exported ↔ e.interfaceName = e.buffer.interfaceType ∧
      ((∃ joint : ComponentInfo, info.joints[e.index]? = some joint ∧ e.prefixName = joint.name ∧
          e.interfaceName ∈ joint.commandInterfaces) ∨
        ∃ gpio ∈ info.gpios, gpioIndex gpio = .ok e.index ∧ e.prefixName = gpio.name ∧
          e.interfaceName ∈ gpio.commandInterfaces) := by
  rw [mem_exported_iff all]
  constructor
  · rintro ⟨r, member, made⟩
    obtain ⟨named, typed, found, buffer⟩ := run_eq_ok_iff.1 made
    refine ⟨typed ▸ commandInterfaceMap_lookup_iff.1 buffer, ?_⟩
    rcases mem_registrations_iff.1 member with ⟨joint, i, at_i, interface, listed, rfl⟩ |
        ⟨gpio, listedGpio, interface, listed, rfl⟩
    · obtain rfl := Except.ok.inj found
      exact .inl ⟨joint, at_i, named.symm, typed ▸ listed⟩
    · exact .inr ⟨gpio, listedGpio, found, named.symm, typed ▸ listed⟩
  · rintro ⟨typed, ⟨joint, at_i, named, listed⟩ | ⟨gpio, member, found, named, listed⟩⟩
    · exact ⟨_, mem_registrations_iff.2 (.inl ⟨joint, e.index, at_i, e.interfaceName, listed, rfl⟩),
        run_eq_ok_iff.2 ⟨named.symm, rfl, rfl, commandInterfaceMap_lookup_iff.2 typed⟩⟩
    · exact ⟨_, mem_registrations_iff.2 (.inr ⟨gpio, member, e.interfaceName, listed, rfl⟩),
        run_eq_ok_iff.2 ⟨named.symm, rfl, found, commandInterfaceMap_lookup_iff.2 typed⟩⟩

/-- Interfaces of one type have different names when their prefixes differ. -/
theorem name_eq_iff {e e' : ExportedInterface} (typed : e.interfaceName = e'.interfaceName) :
    e.name = e'.name ↔ e.prefixName = e'.prefixName := by
  simp [ExportedInterface.name, typed]

section Sound

variable {info : HardwareInfo} {exported : List ExportedInterface}

/-- The interface a joint exports. -/
theorem joint_exported (all : exportCommandInterfaces info = .ok exported) {i : Nat}
    {joint : ComponentInfo} (at_i : info.joints[i]? = some joint) {buffer : CommandInterface}
    (listed : buffer.interfaceType ∈ joint.commandInterfaces) :
    ⟨joint.name, buffer.interfaceType, buffer, i⟩ ∈ exported :=
  (mem_exportCommandInterfaces_iff all).2 ⟨rfl, .inl ⟨joint, at_i, rfl, listed⟩⟩

theorem gpio_exported (all : exportCommandInterfaces info = .ok exported) {index : Nat}
    {gpio : ComponentInfo} (member : gpio ∈ info.gpios) (found : gpioIndex gpio = .ok index)
    {buffer : CommandInterface} (listed : buffer.interfaceType ∈ gpio.commandInterfaces) :
    ⟨gpio.name, buffer.interfaceType, buffer, index⟩ ∈ exported :=
  (mem_exportCommandInterfaces_iff all).2 ⟨rfl, .inr ⟨gpio, member, found, rfl, listed⟩⟩

/-- Two exported interfaces at one element have one name. -/
theorem ExportSound.one_name (sound : ExportSound info)
    (all : exportCommandInterfaces info = .ok exported) {e e' : ExportedInterface}
    (member : e ∈ exported) (member' : e' ∈ exported)
    (typed : e.interfaceName = e'.interfaceName) (buffer : e.buffer = e'.buffer)
    (index : e.index = e'.index) : e.prefixName = e'.prefixName := by
  by_contra other
  exact sound.apart exported all e member e' member' (mt (name_eq_iff typed).1 other)
    ⟨buffer, index⟩

theorem addressable_of_exportSound (sound : ExportSound info)
    (all : exportCommandInterfaces info = .ok exported) : Addressable info := by
  have exportable := exportable_iff.2 ⟨exported, all⟩
  refine ⟨fun i joint at_i buffer listed => ?_, fun gpio member index found buffer listed => ?_,
    fun gpio member gpio' member' index found found' interface listed listed' => ?_,
    fun i joint at_i gpio member found interface listed listed' => ?_⟩
  · exact sound.within exported all _ (joint_exported all at_i listed)
  · exact sound.within exported all _ (gpio_exported all member found listed)
  · obtain ⟨⟨buffer, rfl⟩, -⟩ := exportable.gpios gpio member interface listed
    exact sound.one_name all (gpio_exported all member found listed)
      (gpio_exported all member' found' listed') rfl rfl rfl
  · obtain ⟨buffer, rfl⟩ :=
      exportable.joints joint (List.mem_of_getElem? at_i) interface listed
    exact sound.one_name all (joint_exported all at_i listed)
      (gpio_exported all member found listed') rfl rfl rfl

theorem exportSound_of_addressable (addressable : Addressable info) : ExportSound info := by
  refine ⟨fun exported all e member => ?_, fun exported all e member e' member' other => ?_⟩
  · obtain ⟨typed, ⟨joint, at_i, -, listed⟩ | ⟨gpio, listedGpio, found, -, listed⟩⟩ :=
      (mem_exportCommandInterfaces_iff all).1 member
    · exact addressable.joints _ joint at_i _ (typed ▸ listed)
    · exact addressable.gpios gpio listedGpio _ found _ (typed ▸ listed)
  · rintro ⟨buffer, index⟩
    obtain ⟨typed, origin⟩ := (mem_exportCommandInterfaces_iff all).1 member
    obtain ⟨typed', origin'⟩ := (mem_exportCommandInterfaces_iff all).1 member'
    have types : e.interfaceName = e'.interfaceName := by rw [typed, typed', buffer]
    refine other ((name_eq_iff types).2 ?_)
    rw [← types, ← index] at origin'
    rcases origin with ⟨joint, at_i, named, listed⟩ | ⟨gpio, listedGpio, found, named, listed⟩
    · rcases origin' with ⟨joint', at_i', named', -⟩ |
          ⟨gpio', listedGpio', found', named', listed'⟩
      · obtain rfl := Option.some.inj (at_i.symm.trans at_i')
        rw [named, named']
      · rw [named, named']
        exact addressable.jointAndGpio _ joint at_i gpio' listedGpio' found' _ listed listed'
    · rcases origin' with ⟨joint', at_i', named', listed'⟩ |
          ⟨gpio', listedGpio', found', named', listed'⟩
      · rw [named, named']
        exact (addressable.jointAndGpio _ joint' at_i' gpio listedGpio found _ listed' listed).symm
      · rw [named, named']
        exact addressable.twoGpios gpio listedGpio gpio' listedGpio' _ found found' _ listed
          listed'

end Sound

/-- The exports of a description are sound exactly when it cannot be exported or keeps to
the buffers and to one name for each of their elements. -/
theorem exportSound_iff (info : HardwareInfo) :
    ExportSound info ↔ (Exportable info → Addressable info) := by
  constructor
  · intro sound exportable
    obtain ⟨exported, all⟩ := exportable_iff.1 exportable
    exact addressable_of_exportSound sound all
  · intro addressable
    refine ⟨fun exported all => ?_, fun exported all => ?_⟩
    · have sound := exportSound_of_addressable (addressable (exportable_iff.2 ⟨exported, all⟩))
      exact sound.within exported all
    · have sound := exportSound_of_addressable (addressable (exportable_iff.2 ⟨exported, all⟩))
      exact sound.apart exported all

/-! ## An index behind the end -/

/-- A GPIO with the interface and the index. -/
def indexedGpio (name interface index : String) : ComponentInfo where
  name := name
  commandInterfaces := [interface]
  parameters key := if key = "index" then some index else none

/-- A description whose only GPIO names the seventh of six Cartesian velocities. -/
def seventhVelocity : HardwareInfo where
  hardwareParameters key := if key = kVersionName then some "0.1.0" else some "fr3"
  joints := []
  gpios := [indexedGpio "vx" "cartesian_velocity" "6"]

theorem supported_one : Supported "0.1.0".toList :=
  ⟨['0'], ['1'], ['0'], rfl, by decide, by decide, by decide, by decide⟩

theorem not_exportSound_seventh :
    (∃ self, onInit leftToRight workingSurroundings seventhVelocity = .success self) ∧
      ¬ ExportSound seventhVelocity := by
  have passed : checkVersion leftToRight seventhVelocity = .passed := supported_one.passed rfl
  refine ⟨⟨⟨seventhVelocity, ["vx/cartesian_velocity"], "fr3"⟩, ?_⟩, fun sound => ?_⟩
  · simp only [onInit, passed]
    rfl
  · have all : exportCommandInterfaces seventhVelocity =
        .ok [⟨"vx", "cartesian_velocity", .mode .cartesianVelocity, 6⟩] := rfl
    exact absurd (sound.within _ all _ List.mem_cons_self) (by decide)

end FrankaRos.Hardware
