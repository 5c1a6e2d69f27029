/-
# Controller.InterfaceMapping -- every joint is read and driven by its name

The controller keeps three index maps into the loaned interfaces, one for the
states and one for the commands of either branch of an update.  Each is built by
a search for names when it is first needed, and then kept.

`Mapped` says that a map that is kept is the one the present names would give.
Activations loan other interfaces, but they forget the maps; within an activation
the names stay (`mapped_step`).  So an update may be read as if it searched anew,
and `interfaces_by_name` is what that comes to: an update that writes torques has
read and written every joint through interfaces of that joint's name, and one for
which an interface is missing writes nothing and returns ERROR.
-/
import FrankaRos.Controller.Course
import FrankaRos.Controller.Lifecycle
import FrankaRos.Theory.Writes

namespace FrankaRos.Controller

open FrankaRos.Theory

set_option autoImplicit false

set_option linter.unusedSectionVars false

/-! ## Searching for names -/

theorem foldl_found (name : String) (entries : List (String × Nat)) (found : Option Nat) :
    match entries.foldl (fun found entry => if entry.1 = name then some entry.2 else found) found with
    | some k => found = some k ∨ (name, k) ∈ entries
    | none => found = none ∧ ∀ k, (name, k) ∉ entries := by
  induction entries generalizing found with
  | nil => cases found <;> simp
  | cons entry entries ih =>
      rw [List.foldl_cons]
      have later := ih (if entry.1 = name then some entry.2 else found)
      split at later
      · rename_i k same
        rcases later with here | later
        · split at here
          · rename_i named
            have head : (name, k) = entry := by rw [← named, ← Option.some.inj here]
            exact .inr (head ▸ List.mem_cons_self)
          · exact .inl here
        · exact .inr (List.mem_cons_of_mem _ later)
      · obtain ⟨here, later⟩ := later
        split at here
        · cases here
        · rename_i other
          refine ⟨here, fun k member => ?_⟩
          rcases List.mem_cons.1 member with head | member
          · exact other (by rw [← head])
          · exact later k member

/-- What a search returns has the name. -/
theorem lastIndex_eq_some {names : List String} {name : String} {k : Nat}
    (found : lastIndex names name = some k) : names[k]? = some name := by
  have search := foldl_found name names.zipIdx none
  rw [show names.zipIdx.foldl _ none = some k from found] at search
  rcases search with none | member
  · cases none
  · exact List.mk_mem_zipIdx_iff_getElem?.1 member

theorem lastIndex_eq_none {names : List String} {name : String} :
    lastIndex names name = none ↔ name ∉ names := by
  have search := foldl_found name names.zipIdx none
  constructor
  · intro missing member
    rw [show names.zipIdx.foldl _ none = none from missing] at search
    obtain ⟨k, here⟩ := List.mem_iff_getElem?.1 member
    exact search.2 k (List.mk_mem_zipIdx_iff_getElem?.2 here)
  · intro absent
    cases found : lastIndex names name with
    | none => rfl
    | some k => exact absurd (List.mem_of_getElem? (lastIndex_eq_some found)) absent

theorem allJoints_eq_some {α : Type} {found : Fin 7 → Option α} {map : Fin 7 → α}
    (complete : allJoints found = some map) (j : Fin 7) : found j = some (map j) := by
  unfold allJoints at complete
  split at complete
  · rw [← Option.some.inj complete, Option.some_get]
  · cases complete

theorem allJoints_eq_none {α : Type} {found : Fin 7 → Option α} :
    allJoints found = none ↔ ∃ j, found j = none := by
  unfold allJoints
  split
  · rename_i complete
    simp only [reduceCtorEq, false_iff, not_exists]
    intro j missing
    simpa [missing] using complete j
  · rename_i incomplete
    simpa using incomplete

/-- The state interfaces of one joint. -/
structure StateIndex.Names (names : List String) (joint : String) (k : StateIndex) : Prop where
  pos : names[k.pos]? = some (joint ++ "/position")
  vel : names[k.vel]? = some (joint ++ "/velocity")
  eff : names[k.eff]? = some (joint ++ "/effort")

theorem buildStateMap_eq_some {names : List String} {jointNames : Fin 7 → String}
    {map : Fin 7 → StateIndex} (built : buildStateMap names jointNames = some map) (j : Fin 7) :
    (map j).Names names (jointNames j) := by
  have found := allJoints_eq_some built j
  simp only [Option.bind_eq_bind, Option.bind_eq_some_iff] at found
  obtain ⟨pos, hpos, vel, hvel, eff, heff, same⟩ := found
  rw [← Option.some.inj same]
  exact ⟨lastIndex_eq_some hpos, lastIndex_eq_some hvel, lastIndex_eq_some heff⟩

theorem buildStateMap_eq_none {names : List String} {jointNames : Fin 7 → String} :
    buildStateMap names jointNames = none ↔
      ∃ j, jointNames j ++ "/position" ∉ names ∨ jointNames j ++ "/velocity" ∉ names ∨
        jointNames j ++ "/effort" ∉ names := by
  unfold buildStateMap
  rw [allJoints_eq_none]
  refine exists_congr fun j => ?_
  simp only [← lastIndex_eq_none]
  cases lastIndex names (jointNames j ++ "/position") <;>
    cases lastIndex names (jointNames j ++ "/velocity") <;>
      cases lastIndex names (jointNames j ++ "/effort") <;> simp

theorem buildCmdMap_eq_some {names : List String} {jointNames : Fin 7 → String}
    {map : Fin 7 → Nat} (built : buildCmdMap names jointNames = some map) (j : Fin 7) :
    names[map j]? = some (jointNames j ++ "/effort") :=
  lastIndex_eq_some (allJoints_eq_some built j)

theorem buildCmdMap_eq_none {names : List String} {jointNames : Fin 7 → String} :
    buildCmdMap names jointNames = none ↔ ∃ j, jointNames j ++ "/effort" ∉ names := by
  unfold buildCmdMap
  rw [allJoints_eq_none]
  exact exists_congr fun j => lastIndex_eq_none

theorem buildCmdMap_complete {names : List String} {jointNames : Fin 7 → String}
    {map : Fin 7 → Nat} (built : buildCmdMap names jointNames = some map) :
    ¬ ∃ j, jointNames j ++ "/effort" ∉ names := by
  rw [← buildCmdMap_eq_none, built]
  exact Option.some_ne_none map

/-! ## Writing joint by joint -/

variable {K : Type} [MachineArith K]

/-- The command interfaces after every joint's value has been written, in joint order. -/
def writeEach (map : Fin 7 → Nat) (tau : Vector7d K) (commands : Nat → Double K) :
    Nat → Double K :=
  writeAll map tau (List.finRange 7) commands

namespace MoveCatersianImpWithGripper

/-! ## What an update does by name -/

/-- A map that has been built is the one the present names would give. -/
structure Mapped (s : MoveCatersianImpWithGripper K) : Prop where
  stateMap : s.interfaces.stateMap = none ∨
    s.interfaces.stateMap = buildStateMap s.interfaces.stateNames s.params.jointNames
  cmdMap : s.interfaces.cmdMap = none ∨
    s.interfaces.cmdMap = buildCmdMap s.interfaces.commandNames s.params.jointNames
  warmupCmdMap : s.interfaces.warmupCmdMap = none ∨
    s.interfaces.warmupCmdMap = buildCmdMap s.interfaces.commandNames s.params.jointNames

/-- An interface the controller needs is not among those it was loaned. -/
def LacksInterface (s : MoveCatersianImpWithGripper K) : Prop :=
  ∃ j, (s.params.jointNames j ++ "/position" ∉ s.interfaces.stateNames ∨
      s.params.jointNames j ++ "/velocity" ∉ s.interfaces.stateNames ∨
      s.params.jointNames j ++ "/effort" ∉ s.interfaces.stateNames) ∨
    s.params.jointNames j ++ "/effort" ∉ s.interfaces.commandNames

/-- An update that takes `s` to `s'` has read every joint from the interfaces of
its name, and has written its torque to the one of its name. -/
structure ByName (s : MoveCatersianImpWithGripper K) (given : Cycle K)
    (s' : MoveCatersianImpWithGripper K) : Prop where
  read : ∀ j, ∃ k : StateIndex, k.Names s.interfaces.stateNames (s.params.jointNames j) ∧
    s'.measured.q j = given.stateValues k.pos ∧ s'.measured.dq j = given.stateValues k.vel ∧
    s'.measured.tauMeas j = given.stateValues k.eff
  written : ∃ map : Fin 7 → Nat,
    (∀ j, s.interfaces.commandNames[map j]? = some (s.params.jointNames j ++ "/effort")) ∧
    s'.interfaces.commands = writeEach map s'.torque.tauToSend s.interfaces.commands

/-- With distinct names, every joint's interface ends up with that joint's torque. -/
theorem ByName.driven {s s' : MoveCatersianImpWithGripper K} {given : Cycle K}
    (byName : ByName s given s') (distinct : s.interfaces.commandNames.Nodup)
    (joints : Function.Injective s.params.jointNames) {j : Fin 7} {k : Nat}
    (named : s.interfaces.commandNames[k]? = some (s.params.jointNames j ++ "/effort")) :
    s'.interfaces.commands k = s'.torque.tauToSend j := by
  obtain ⟨map, names, written⟩ := byName.written
  have here : map j = k := by
    obtain ⟨bound, -⟩ := List.getElem?_eq_some_iff.1 (names j)
    exact List.getElem?_inj bound distinct |>.1 ((names j).trans named.symm)
  rw [written, ← here]
  apply writeAll_at (List.mem_finRange j)
  intro i _ same
  have shared : s.params.jointNames i ++ "/effort" = s.params.jointNames j ++ "/effort" := by
    rw [← Option.some.injEq, ← names i, ← names j, same]
  exact joints (String.append_left_inj _ |>.1 shared)

/-- What an update writes goes to interfaces of the controller's joints. -/
theorem ByName.untouched {s s' : MoveCatersianImpWithGripper K} {given : Cycle K}
    (byName : ByName s given s') {k : Nat}
    (other : ∀ j, s.interfaces.commandNames[k]? ≠ some (s.params.jointNames j ++ "/effort")) :
    s'.interfaces.commands k = s.interfaces.commands k := by
  obtain ⟨map, names, written⟩ := byName.written
  rw [written]
  apply writeAll_other
  intro j _ same
  exact other j (same ▸ names j)

/-! ## An update whose maps are current -/

/-- A search is skipped only where its result is known. -/
theorem built_of_known {α : Type} {cached built : Option α} {map : α}
    (current : cached = none ∨ cached = built) (known : cached = some map) :
    built = some map := by
  rcases current with rfl | rfl
  · cases known
  · exact known

/-- The state in which the joints' own interfaces have been read through a map. -/
def readThrough (map : Fin 7 → StateIndex) (stateValues : Nat → Double K)
    (s : MoveCatersianImpWithGripper K) : MoveCatersianImpWithGripper K :=
  { s with
    interfaces := { s.interfaces with stateMap := some map }
    measured := ⟨fun j => stateValues (map j).pos, fun j => stateValues (map j).vel,
      fun j => stateValues (map j).eff⟩ }

theorem readState_mapped {s t : MoveCatersianImpWithGripper K}
    (current : s.interfaces.stateMap = none ∨
      s.interfaces.stateMap = buildStateMap s.interfaces.stateNames s.params.jointNames)
    {stateValues : Nat → Double K} {read : Bool} (ran : s.readState stateValues = (read, t)) :
    match buildStateMap s.interfaces.stateNames s.params.jointNames with
    | .none => read = false ∧ t = s
    | some map => t = s.readThrough map stateValues := by
  simp only [readState] at ran
  split at ran
  · rename_i search
    obtain ⟨rfl, rfl⟩ := Prod.mk.inj ran
    split at search
    · cases search
    · rw [search]
      exact ⟨rfl, rfl⟩
  · rename_i map search
    obtain ⟨rfl, rfl⟩ := Prod.mk.inj ran
    have built : buildStateMap s.interfaces.stateNames s.params.jointNames = some map := by
      split at search
      · rename_i known
        exact built_of_known current (known.trans search)
      · exact search
    rw [built]
    rfl

/-- The reads of a cycle: they fail where a state interface is missing, and
otherwise leave the measurements of every joint's own interfaces. -/
theorem prepare_mapped {s t : MoveCatersianImpWithGripper K} (mapped : s.Mapped)
    {given : Cycle K} {read : Bool} (prepared : s.prepare given = (read, t)) :
    t.params = s.params ∧
      match buildStateMap s.interfaces.stateNames s.params.jointNames with
      | .none => read = false ∧ t.interfaces = s.interfaces
      | some map => t.interfaces = (s.readThrough map given.stateValues).interfaces ∧
          t.measured = (s.readThrough map given.stateValues).measured := by
  have counted : ∀ c, ({ s.gated with counters := c } : MoveCatersianImpWithGripper K).Mapped := by
    intro c
    have interfaces := gated_interfaces s
    have params := gated_params s
    constructor
    all_goals simp only [interfaces, params]
    · exact mapped.stateMap
    · exact mapped.cmdMap
    · exact mapped.warmupCmdMap
  simp only [prepare] at prepared
  split at prepared
  · rename_i t' unread
    have reads := readState_mapped (counted _).stateMap unread
    obtain ⟨rfl, rfl⟩ := Prod.mk.inj prepared
    simp only [gated_interfaces, gated_params] at reads
    split at reads
    · obtain ⟨-, rfl⟩ := reads
      exact ⟨rfl, rfl, rfl⟩
    · subst reads
      exact ⟨rfl, rfl, rfl⟩
  · rename_i t' done
    have reads := readState_mapped (counted _).stateMap done
    simp only [gated_interfaces, gated_params] at reads
    split at reads
    · cases reads.1
    · subst reads
      split at prepared
      · obtain ⟨rfl, rfl⟩ := Prod.mk.inj prepared
        exact ⟨rfl, rfl, rfl⟩
      · rename_i sample _
        obtain ⟨rfl, rfl⟩ := Prod.mk.inj prepared
        obtain ⟨u, captured⟩ := captureWarmup_frame (pushWrench sample (readThrough _ _ _))
        rw [captured]
        exact ⟨rfl, rfl, rfl⟩

/-- What a branch of an update does to the command interfaces. -/
structure Drives (s : MoveCatersianImpWithGripper K) (r : UpdateResult)
    (t : MoveCatersianImpWithGripper K) : Prop where
  params : t.params = s.params
  measured : t.measured = s.measured
  mapped : t.Mapped
  missing : (∃ j, s.params.jointNames j ++ "/effort" ∉ s.interfaces.commandNames) → r = .error
  silent : r ≠ .ok → t.interfaces.commands = s.interfaces.commands
  written : r = .ok → ∃ map : Fin 7 → Nat,
    (∀ j, s.interfaces.commandNames[map j]? = some (s.params.jointNames j ++ "/effort")) ∧
    t.interfaces.commands = writeEach map t.torque.tauToSend s.interfaces.commands

theorem warmupCycle_drives {s t : MoveCatersianImpWithGripper K} (mapped : s.Mapped)
    {given : Cycle K} {r : UpdateResult} (ran : s.warmupCycle given = (r, t)) :
    Drives s r t := by
  by_cases asks : Double.lit (1 / 5) < s.warmup.elapsed + given.dt ∧
      s.gripper.warmupOpenRequested = false
  all_goals
    simp only [warmupCycle, asks, and_self, if_true, if_false] at ran
    split at ran
    · obtain ⟨rfl, rfl⟩ := Prod.mk.inj ran
      exact ⟨rfl, rfl, ⟨mapped.stateMap, mapped.cmdMap, mapped.warmupCmdMap⟩, fun _ => rfl,
        fun _ => rfl, fun ok => by cases ok⟩
    · rename_i map search
      obtain ⟨rfl, rfl⟩ := Prod.mk.inj ran
      have built : buildCmdMap s.interfaces.commandNames s.params.jointNames = some map := by
        split at search
        · rename_i known
          exact built_of_known mapped.warmupCmdMap (known.trans search)
        · exact search
      exact ⟨rfl, rfl, ⟨mapped.stateMap, mapped.cmdMap, .inr built.symm⟩,
        fun missing => absurd missing (buildCmdMap_complete built), fun failed => absurd rfl failed,
        fun _ => ⟨map, buildCmdMap_eq_some built, rfl⟩⟩

theorem controlCycle_drives {s t : MoveCatersianImpWithGripper K} (mapped : s.Mapped)
    {given : Cycle K} {r : UpdateResult} (ran : s.controlCycle given = (r, t)) :
    Drives s r t := by
  simp only [controlCycle] at ran
  split at ran
  · rename_i search
    obtain ⟨rfl, rfl⟩ := Prod.mk.inj ran
    exact ⟨rfl, rfl, ⟨mapped.stateMap, mapped.cmdMap, mapped.warmupCmdMap⟩, fun _ => rfl,
      fun _ => rfl, fun ok => by cases ok⟩
  · rename_i map search
    have built : buildCmdMap s.interfaces.commandNames s.params.jointNames = some map := by
      split at search
      · rename_i known
        exact built_of_known mapped.cmdMap (known.trans search)
      · exact search
    generalize begun : ({ s with
      counters := { s.counters with nTorque := s.counters.nTorque + 1 }
      interfaces := { s.interfaces with cmdMap := some map } } :
        MoveCatersianImpWithGripper K) = u at ran
    have current : u.Mapped := by
      subst begun
      exact ⟨mapped.stateMap, .inr built.symm, mapped.warmupCmdMap⟩
    obtain ⟨refs, task, gripper, frame⟩ := phase_frame given u
    split at ran
    · rename_i t' threw
      obtain ⟨rfl, rfl⟩ := Prod.mk.inj ran
      rw [threw] at frame
      obtain rfl : t' = _ := frame
      subst begun
      exact ⟨rfl, rfl, ⟨current.stateMap, current.cmdMap, current.warmupCmdMap⟩,
        fun missing => absurd missing (buildCmdMap_complete built), fun _ => rfl, fun ok => by cases ok⟩
    · rename_i t' phased
      obtain ⟨rfl, rfl⟩ := Prod.mk.inj ran
      rw [phased] at frame
      obtain rfl : t' = _ := frame
      subst begun
      exact ⟨rfl, rfl, ⟨current.stateMap, current.cmdMap, current.warmupCmdMap⟩,
        fun missing => absurd missing (buildCmdMap_complete built), fun failed => absurd rfl failed,
        fun _ => ⟨map, buildCmdMap_eq_some built, rfl⟩⟩

theorem appendLogSample_same (s : MoveCatersianImpWithGripper K) :
    s.appendLogSample.params = s.params ∧ s.appendLogSample.interfaces = s.interfaces ∧
      s.appendLogSample.measured = s.measured ∧ s.appendLogSample.torque = s.torque := by
  obtain ⟨steps, logged⟩ := s.appendLogSample_frame
  rw [logged]
  exact ⟨rfl, rfl, rfl, rfl⟩

theorem Mapped.congr {s s' : MoveCatersianImpWithGripper K} (mapped : s.Mapped)
    (params : s'.params = s.params) (interfaces : s'.interfaces = s.interfaces) : s'.Mapped := by
  constructor
  all_goals rw [params, interfaces]
  · exact mapped.stateMap
  · exact mapped.cmdMap
  · exact mapped.warmupCmdMap

/-- Reading through the map that the names give leaves every map current. -/
theorem Mapped.through {s t : MoveCatersianImpWithGripper K} (mapped : s.Mapped)
    {map : Fin 7 → StateIndex} {values : Nat → Double K}
    (built : buildStateMap s.interfaces.stateNames s.params.jointNames = some map)
    (params : t.params = s.params)
    (interfaces : t.interfaces = (s.readThrough map values).interfaces) : t.Mapped := by
  constructor
  all_goals rw [params, interfaces]
  · exact .inr built.symm
  · exact mapped.cmdMap
  · exact mapped.warmupCmdMap

/-- What an update does, and leaves, when its maps are current. -/
structure Serves (s : MoveCatersianImpWithGripper K) (given : Cycle K) (r : UpdateResult)
    (s' : MoveCatersianImpWithGripper K) : Prop where
  byName : r = .ok → ByName s given s'
  silent : r ≠ .ok → s'.interfaces.commands = s.interfaces.commands
  missing : s.LacksInterface → r = .error
  mapped : s'.Mapped

/-- A branch behind a complete reading, with or without a sample for the log. -/
theorem Drives.serves {s t t' u : MoveCatersianImpWithGripper K} {given : Cycle K}
    {r : UpdateResult} {map : Fin 7 → StateIndex} (drives : Drives t r t')
    (built : buildStateMap s.interfaces.stateNames s.params.jointNames = some map)
    (params : t.params = s.params)
    (interfaces : t.interfaces = (s.readThrough map given.stateValues).interfaces)
    (measured : t.measured = (s.readThrough map given.stateValues).measured)
    (same : u.params = t'.params ∧ u.interfaces = t'.interfaces ∧ u.measured = t'.measured ∧
      u.torque = t'.torque) : Serves s given r u := by
  obtain ⟨params', interfaces', measured', torque'⟩ := same
  refine ⟨fun ok => ⟨fun j => ?_, ?_⟩, fun failed => ?_, fun lacks => ?_, ?_⟩
  · refine ⟨map j, buildStateMap_eq_some built j, ?_⟩
    rw [measured', drives.measured, measured]
    exact ⟨rfl, rfl, rfl⟩
  · obtain ⟨cmdMap, names, written⟩ := drives.written ok
    rw [params, interfaces] at names
    rw [interfaces] at written
    refine ⟨cmdMap, names, ?_⟩
    rw [interfaces', torque']
    exact written
  · have silent := drives.silent failed
    rw [interfaces] at silent
    rw [interfaces']
    exact silent
  · obtain ⟨j, state | command⟩ := lacks
    · have none := buildStateMap_eq_none.2 ⟨j, state⟩
      rw [built] at none
      cases none
    · apply drives.missing
      rw [params, interfaces]
      exact ⟨j, command⟩
  · exact drives.mapped.congr params' interfaces'

theorem Mapped.update {s : MoveCatersianImpWithGripper K} (mapped : s.Mapped)
    (given : Cycle K) : Serves s given (s.update given).1 (s.update given).2 := by
  rcases s.update_cases given with ⟨t, prepared, updated⟩ | ⟨t, r, t', prepared, ran, updated⟩
  · obtain ⟨params, reads⟩ := prepare_mapped mapped prepared
    rw [updated]
    refine ⟨fun ok => (by cases ok), fun _ => ?_, fun _ => rfl, ?_⟩
    · split at reads
      · rw [reads.2]
      · rw [reads.1]
        rfl
    · split at reads
      · exact mapped.congr params reads.2
      · rename_i map built
        exact mapped.through built params reads.1
  · obtain ⟨params, reads⟩ := prepare_mapped mapped prepared
    rw [updated]
    split at reads
    · cases reads.1
    · rename_i map built
      obtain ⟨interfaces, measured⟩ := reads
      have current := mapped.through built params interfaces
      have drives : Drives t r t' := by
        split at ran
        · exact warmupCycle_drives current ran
        · exact controlCycle_drives current ran
      apply drives.serves built params interfaces measured
      show (if r = .ok then t'.appendLogSample else t').params = t'.params ∧ _
      split
      · exact appendLogSample_same t'
      · exact ⟨rfl, rfl, rfl, rfl⟩

/-! ## Runs -/

/-- An activation that succeeds has built the state map from the interfaces it was
loaned, and has forgotten the other maps. -/
theorem onActivate_mapped {given : Activation K} {s : MoveCatersianImpWithGripper K}
    (success : (s.onActivate given).1 = .success) : (s.onActivate given).2.Mapped := by
  unfold onActivate at success ⊢
  split at success
  · cases success
  · rename_i t read
    have reads := readState_mapped (.inl rfl) read
    split at reads
    · cases reads.1
    · rename_i map built
      obtain ⟨refs, kinematics, prepared⟩ := prepareActivation_frame given t
      simp only at success ⊢
      split at success
      · cases success
      rename_i state
      split at success
      · cases success
      rename_i pose
      rw [if_neg state, if_neg pose, prepared, reads]
      exact ⟨.inr built.symm, .inl rfl, .inl rfl⟩

theorem mapped_step {s : MoveCatersianImpWithGripper K} (e : Event K)
    (mapped : s.services.lifecycle = .active → s.Mapped) :
    (s.step e).services.lifecycle = .active → (s.step e).Mapped := by
  have quiet : e.IsCallback → Quiet s (s.step e) := quiet_step
  cases e with
  | activate given =>
      simp only [step]
      split
      · intro active
        rcases activated : s.onActivate given with ⟨result, s'⟩
        rw [activated] at active
        cases result with
        | success =>
            have built : (s.onActivate given).2.Mapped :=
              onActivate_mapped (by rw [activated])
            rw [activated] at built
            exact built.congr rfl rfl
        | error => cases active
      · exact mapped
  | update given =>
      simp only [step]
      split
      · rename_i active
        exact fun _ => ((mapped active).update given).mapped
      · exact mapped
  | configure given =>
      simp only [step]
      split
      · intro active
        rcases onConfigure_cases given s with eq | ⟨p, eq⟩ <;> rw [eq] at active <;> cases active
      · exact mapped
  | deactivate | cleanup =>
      simp only [step]
      split
      · exact fun active => by cases active
      · exact mapped
  | taskCmd | gripperTimer | housekeeping | graspResponse | graspResult | moveResponse |
    moveResult =>
      have quiet := quiet trivial
      rw [quiet.services]
      exact fun active => (mapped active).congr quiet.params quiet.interfaces

/-- **Every joint by its name.**  In every run, an update of the active controller
that writes torques has read each joint from the interfaces of its name and has
written its torque to the one of its name (and no other interface); any other
update writes no torque, and one that lacks an interface returns ERROR. -/
theorem interfaces_by_name (p : Params K) (es : List (Event K)) (given : Cycle K)
    (active : (run step (constructed p) es).services.lifecycle = .active) :
    let s := run step (constructed p) es
    let r := (s.update given).1
    let s' := (s.update given).2
    (r = .ok → ByName s given s') ∧ (r ≠ .ok → s'.interfaces.commands = s.interfaces.commands) ∧
      (s.LacksInterface → r = .error ∧ s'.interfaces.commands = s.interfaces.commands) := by
  intro s r s'
  have mapped : s.Mapped :=
    run_invariant step (I := fun s => s.services.lifecycle = .active → s.Mapped)
      (A := fun _ => True) (fun _ e _ => mapped_step e) (fun _ _ => trivial)
      (fun live => by cases live) active
  have serves := mapped.update given
  refine ⟨serves.byName, serves.silent, fun lacks => ?_⟩
  have error : r = .error := serves.missing lacks
  exact ⟨error, serves.silent fun ok => by cases error.symm.trans ok⟩

/-- An activation that delivers the interfaces in the opposite order. -/
def fr3Reversed (q : ℚ) : Activation ℚ :=
  { fr3Activation q with
    stateNames := (fr3Activation q).stateNames.reverse
    commandNames := (fr3Activation q).commandNames.reverse }

/-- The concrete robot, activated in one order and then in the other. -/
theorem interfaces_by_name_reversed :
    let s := run step (constructed fr3Params) [.configure (fr3Configuration fr3Scalars),
      .activate (fr3Activation 0), .update (fr3Cycle 1 0 1), .deactivate,
      .activate (fr3Reversed 0)]
    ByName s (fr3Cycle 1 (1 / 2) 1) (s.update (fr3Cycle 1 (1 / 2) 1)).2 :=
  (interfaces_by_name fr3Params _ (fr3Cycle 1 (1 / 2) 1) (by decide +kernel)).1
    (by decide +kernel)

end MoveCatersianImpWithGripper

end FrankaRos.Controller
