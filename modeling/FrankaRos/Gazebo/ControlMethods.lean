/-
# Gazebo.ControlMethods -- which control methods a joint has

A switch is asked to stop and to start interfaces by their full names.  Stopping one masks the
joint's word of methods with the conjunction of the two others, which is zero: whatever is
stopped of a joint, all of its methods go.  So the word keeps marks, not claims
(`marksOf_switchMethod`), and is what the controllers have claimed exactly as long as nobody
releases a part of a joint (`methods_follow_claims_iff`).

A mimic joint exports its interfaces under another name than the one that a switch compares
with, and keeps the word that `initSim` gave it (`mimic_method`).
-/
import FrankaRos.Gazebo.IgnSystem
import FrankaRos.Theory.Claims

namespace FrankaRos.Gazebo

open FrankaRos.Theory ControlMethod

set_option autoImplicit false

/-! ## Words of methods -/

def Kind.flag : Kind → ControlMethod
  | .position => POSITION
  | .velocity => VELOCITY
  | .effort => EFFORT

/-- The full name of a joint's interface. -/
def interfaceName (name : String) (k : Kind) : String := name ++ "/" ++ k.interface

theorem has_none (f : ControlMethod) : NONE.has f = false := by
  simp [has, NONE]

theorem has_or (m n f : ControlMethod) : (m ||| n).has f = (m.has f || n.has f) := by
  rw [Bool.eq_iff_iff, Bool.or_eq_true]
  simp only [has, bne_iff_ne, ne_eq, BitVec.and_or_distrib_right, BitVec.or_eq_zero_iff]
  exact not_and_or

theorem has_flag : ∀ k j : Kind, k.flag.has j.flag = decide (k = j) := by
  intro k j
  cases k <;> cases j <;> decide

/-- The marks of a word. -/
def marksOf (m : ControlMethod) : Set Kind := {k | m.has k.flag = true}

/-! ## Switches -/

theorem interfaceName_kind {name : String} {k j : Kind}
    (same : interfaceName name k = interfaceName name j) : k = j := by
  have kinds : k.interface = j.interface := (String.append_right_inj _).1 same
  cases k <;> cases j <;> first | rfl | exact absurd kinds (by decide)

/-- The last letter tells the kinds of interface apart. -/
theorem getLast_interfaceName (name : String) (k : Kind) :
    (interfaceName name k).toList.getLast? = k.interface.toList.getLast? := by
  cases k <;> simp [interfaceName, Kind.interface, HW_IF_POSITION, HW_IF_VELOCITY, HW_IF_EFFORT,
    List.getLast?_append]

/-- The joint can be read off the name of its interface. -/
theorem interfaceName_name {name name' : String} {k j : Kind}
    (same : interfaceName name k = interfaceName name' j) : name = name' := by
  have letters := congrArg (fun s : String => s.toList.getLast?) same
  simp only [getLast_interfaceName] at letters
  obtain rfl : k = j := by
    cases k <;> cases j <;> first | rfl | exact absurd letters (by decide)
  exact (String.append_left_inj _).1 ((String.append_left_inj _).1 same)

/-- Stopping any interface of a joint clears the whole word. -/
theorem has_stopInterface (name : String) (m : ControlMethod) (interface : String) (k : Kind) :
    (stopInterface name m interface).has k.flag = true ↔
      m.has k.flag = true ∧ ∀ j, interfaceName name j ≠ interface := by
  have cleared : ∀ mask : ControlMethod, mask = NONE → (m &&& mask).has k.flag = false := by
    rintro _ rfl
    rw [NONE, BitVec.and_zero]
    exact has_none k.flag
  unfold stopInterface
  split
  · rename_i hit
    rw [cleared _ (by decide)]
    simpa using fun _ => ⟨.position, hit.symm⟩
  split
  · rename_i hit
    rw [cleared _ (by decide)]
    simpa using fun _ => ⟨.velocity, hit.symm⟩
  split
  · rename_i hit
    rw [cleared _ (by decide)]
    simpa using fun _ => ⟨.effort, hit.symm⟩
  · rename_i position velocity effort
    refine (and_iff_left ?_).symm
    rintro (_ | _ | _) hit
    · exact position hit.symm
    · exact velocity hit.symm
    · exact effort hit.symm

theorem has_startInterface (name : String) (m : ControlMethod) (interface : String) (k : Kind) :
    (startInterface name m interface).has k.flag = true ↔
      m.has k.flag = true ∨ interfaceName name k = interface := by
  have raised : ∀ j : Kind, interface = interfaceName name j →
      ((m ||| j.flag).has k.flag = true ↔
        m.has k.flag = true ∨ interfaceName name k = interface) := by
    rintro j rfl
    rw [has_or, Bool.or_eq_true, has_flag, decide_eq_true_iff]
    exact or_congr_right ⟨fun same => same ▸ rfl, fun same => (interfaceName_kind same).symm⟩
  unfold startInterface
  split
  · exact raised .position (by assumption)
  split
  · exact raised .velocity (by assumption)
  split
  · exact raised .effort (by assumption)
  · rename_i position velocity effort
    refine (or_iff_left ?_).symm
    intro hit
    cases k with
    | position => exact position hit.symm
    | velocity => exact velocity hit.symm
    | effort => exact effort hit.symm

theorem has_stops (name : String) (m : ControlMethod) (stop : List String) (k : Kind) :
    (stop.foldl (stopInterface name) m).has k.flag = true ↔
      m.has k.flag = true ∧ ∀ j, interfaceName name j ∉ stop := by
  induction stop generalizing m with
  | nil => simp
  | cons interface stop ih =>
      rw [List.foldl_cons, ih, has_stopInterface]
      simp only [List.mem_cons, not_or, forall_and, and_assoc]

theorem has_starts (name : String) (m : ControlMethod) (start : List String) (k : Kind) :
    (start.foldl (startInterface name) m).has k.flag = true ↔
      m.has k.flag = true ∨ interfaceName name k ∈ start := by
  induction start generalizing m with
  | nil => simp
  | cons interface start ih =>
      rw [List.foldl_cons, ih, has_startInterface, List.mem_cons, or_assoc]

/-- What an event asks of the interfaces. -/
def Event.request {K : Type} : Event K → Request String
  | .switch start stop => ⟨{name | name ∈ start}, {name | name ∈ stop}⟩
  | _ => ⟨∅, ∅⟩

/-- An event stops an interface of the joint. -/
def Event.Stops {K : Type} (name : String) (e : Event K) : Prop :=
  ∃ k, interfaceName name k ∈ e.request.stop

theorem stop_comap_eq_empty {K : Type} {name : String} {e : Event K} :
    (e.request.comap (interfaceName name)).stop = ∅ ↔ ¬ e.Stops name := by
  simp [Event.Stops, Request.comap, Set.eq_empty_iff_forall_notMem]

/-- **A word keeps marks.** -/
theorem marksOf_setup {K : Type} (e : Event K) (u : Setup) :
    marksOf (e.setup u).method =
      Request.marks (marksOf u.method) (e.request.comap (interfaceName u.name)) := by
  have still : Request.marks (marksOf u.method) ⟨∅, ∅⟩ = marksOf u.method := by
    simp [Request.marks]
  cases e with
  | switch start stop =>
      ext k
      show (switchMethod start stop u.name u.method).has k.flag = true ↔ _
      rw [switchMethod, has_starts, has_stops]
      simp [Request.marks, Request.comap, marksOf, Event.request, Set.eq_empty_iff_forall_notMem]
  | read => exact still.symm
  | write => exact still.symm
  | command joint kind value => exact still.symm
  | simulate f => exact still.symm

/-! ## Runs -/

/-- The part of a run's requests that is about one joint. -/
def requests {K : Type} (name : String) (es : List (Event K)) : List (Request Kind) :=
  es.map fun e => e.request.comap (interfaceName name)

theorem marksOf_run {K : Type} (es : List (Event K)) (u : Setup) :
    marksOf (run (fun u e => e.setup u) u es).method =
      run Request.marks (marksOf u.method) (requests u.name es) := by
  induction es generalizing u with
  | nil => rfl
  | cons e es ih =>
      rw [run_cons, ih, marksOf_setup, name_setup]
      rfl

section Runs

variable {K : Type} [Zero K] [Add K] [Sub K] [Mul K] [Neg K]
  {gravity : (Fin 7 → K) → Except String (Fin 7 → K)} {updateRate : K}
  {s s' : IgnitionSystem K} {es : List (Event K)} {i : Nat} {joint joint' : JointData K}

theorem marksOf_runs (ran : runs gravity updateRate s es = some s')
    (here : s.joints[i]? = some joint) (there : s'.joints[i]? = some joint') :
    marksOf joint'.jointControlMethod =
      run Request.marks (marksOf joint.jointControlMethod) (requests joint.name es) := by
  obtain ⟨joint'', same, setup⟩ := runs_setup ran here
  obtain rfl := Option.some.inj (there.symm.trans same)
  have behind := marksOf_run es joint.setup
  rw [← setup] at behind
  exact behind

/-- A method that a joint has was started, or is there from the beginning. -/
theorem started_of_has (ran : runs gravity updateRate s es = some s')
    (here : s.joints[i]? = some joint) (there : s'.joints[i]? = some joint') {k : Kind}
    (has : joint'.jointControlMethod.has k.flag = true) :
    (∃ e ∈ es, interfaceName joint.name k ∈ e.request.start) ∨
      joint.jointControlMethod.has k.flag = true := by
  have mark : k ∈ marksOf joint'.jointControlMethod := has
  rw [marksOf_runs ran here there, Request.mem_run_marks_iff] at mark
  rcases mark with ⟨pre, r, post, parts, started, -⟩ | ⟨initially, -⟩
  · have member : r ∈ requests joint.name es := by
      rw [parts]
      exact List.mem_append_right _ List.mem_cons_self
    obtain ⟨e, listed, rfl⟩ := List.mem_map.1 member
    exact .inl ⟨e, listed, started⟩
  · exact .inr initially

/-- **The methods of a joint, behind any run.**  A joint has the method of an interface exactly
if the interface was started when an interface of the joint was last stopped, or since; or if it
had it from the beginning, and none was ever stopped. -/
theorem method_has_iff (ran : runs gravity updateRate s es = some s')
    (here : s.joints[i]? = some joint) (there : s'.joints[i]? = some joint') (k : Kind) :
    joint'.jointControlMethod.has k.flag = true ↔
      (∃ pre e post, es = pre ++ e :: post ∧ interfaceName joint.name k ∈ e.request.start ∧
          ∀ later ∈ post, ¬ later.Stops joint.name) ∨
        joint.jointControlMethod.has k.flag = true ∧ ∀ e ∈ es, ¬ e.Stops joint.name := by
  show k ∈ marksOf joint'.jointControlMethod ↔ _
  rw [marksOf_runs ran here there, Request.mem_run_marks_iff]
  have quiet : ∀ l : List (Event K), (∀ q ∈ requests joint.name l, q.stop = ∅) ↔
      ∀ e ∈ l, ¬ e.Stops joint.name := by
    intro l
    simp only [requests, List.forall_mem_map, stop_comap_eq_empty]
  refine or_congr ?_ (and_congr Iff.rfl (quiet es))
  constructor
  · rintro ⟨pre, r, post, parts, started, later⟩
    obtain ⟨before, rest, rfl, rfl, tail⟩ := List.map_eq_append_iff.1 parts
    obtain ⟨e, after, rfl, rfl, rfl⟩ := List.map_eq_cons_iff.1 tail
    exact ⟨before, e, after, rfl, started, (quiet after).1 later⟩
  · rintro ⟨pre, e, post, rfl, started, later⟩
    refine ⟨requests joint.name pre, e.request.comap (interfaceName joint.name),
      requests joint.name post, ?_, started, (quiet post).2 later⟩
    simp [requests]

/-- A joint named `j`, without methods. -/
def oneJoint : IgnitionSystem Int :=
  ⟨[{ JointData.blank with name := "j" }], [], [], [], fun _ => {}, 1⟩

/-- The position interface gives way to the velocity interface. -/
def handOver : List (Event Int) :=
  [.switch ["j/position"] [], .read, .switch ["j/velocity"] ["j/position"]]

theorem handOver_velocity : ∃ s' joint', runs (fun q => .ok q) 1 oneJoint handOver = some s' ∧
    s'.joints[0]? = some joint' ∧ joint'.jointControlMethod.has Kind.velocity.flag = true := by
  have ran : runs (fun q => .ok q) 1 oneJoint handOver = some _ := rfl
  have here : oneJoint.joints[0]? = some _ := rfl
  refine ⟨_, _, ran, rfl, (method_has_iff ran here rfl .velocity).2 (.inl ?_)⟩
  exact ⟨[.switch ["j/position"] [], .read], .switch ["j/velocity"] ["j/position"], [], rfl,
    List.mem_singleton.2 rfl, by simp⟩

/-- What is claimed behind the requests of a run, if nothing was claimed before. -/
def claimed (es : List (Event K)) : Set String := run Request.claims ∅ (es.map Event.request)

omit [Zero K] [Add K] [Sub K] [Mul K] [Neg K] in
theorem mem_claimed_iff (name : String) (es : List (Event K)) (k : Kind) :
    k ∈ run Request.claims ∅ (requests name es) ↔ interfaceName name k ∈ claimed es := by
  have same := Request.run_claims_comap (interfaceName name) ∅ (es.map Event.request)
  rw [List.map_map] at same
  exact Set.ext_iff.1 same k

theorem runs_append {pre post : List (Event K)} :
    runs gravity updateRate s (pre ++ post) =
      (runs gravity updateRate s pre).bind fun s => runs gravity updateRate s post :=
  List.foldlM_append

/-- **Methods and claims.**  Suppose that every request stops what is claimed, and starts what
is not.  Then a joint's methods are its claimed interfaces throughout a run, and those it had
from the beginning while nothing of it has been stopped, exactly if whoever stops an interface
of the joint stops all of it that is claimed. -/
theorem methods_follow_claims_iff (ran : runs gravity updateRate s es = some s')
    (lawful : Along Request.claims Request.Lawful ∅ (es.map Event.request))
    (here : s.joints[i]? = some joint) :
    (∀ pre post s₁ joint₁, es = pre ++ post → runs gravity updateRate s pre = some s₁ →
        s₁.joints[i]? = some joint₁ → ∀ k, joint₁.jointControlMethod.has k.flag = true ↔
          interfaceName joint.name k ∈ claimed pre ∨
            joint.jointControlMethod.has k.flag = true ∧ ∀ e ∈ pre, ¬ e.Stops joint.name) ↔
      ∀ pre e post, es = pre ++ e :: post → e.Stops joint.name →
        ∀ k, interfaceName joint.name k ∈ claimed pre →
          interfaceName joint.name k ∈ e.request.stop := by
  have part : Along Request.claims Request.Lawful ∅ (requests joint.name es) := by
    have part := Request.along_lawful_comap (interfaceName joint.name) lawful
    rwa [List.map_map] at part
  have exactly := Request.marks_eq_iff (M := marksOf joint.jointControlMethod) part
  rw [along_iff_split] at exactly
  have held : ∀ (pre : List (Event K)) k,
      k ∈ Request.held (marksOf joint.jointControlMethod) (requests joint.name pre) ↔
        joint.jointControlMethod.has k.flag = true ∧ ∀ e ∈ pre, ¬ e.Stops joint.name := by
    intro pre k
    simp only [Request.held, requests, List.forall_mem_map, stop_comap_eq_empty]
    rfl
  constructor
  · intro follow
    have whole := exactly.1 fun pre' post' parts => by
      obtain ⟨pre, post, rfl, rfl, -⟩ := List.map_eq_append_iff.1 parts
      rw [runs_append] at ran
      obtain ⟨s₁, first, -⟩ := Option.bind_eq_some_iff.1 ran
      obtain ⟨joint₁, there, -⟩ := runs_setup first here
      ext k
      show k ∈ run Request.marks _ (requests joint.name pre) ↔
        k ∈ run Request.claims ∅ (requests joint.name pre) ∨ k ∈ Request.held _ (requests _ pre)
      rw [← marksOf_runs first here there, mem_claimed_iff, held]
      exact follow pre post s₁ joint₁ rfl first there k
    rintro pre e post rfl ⟨j, stopped⟩ k claims
    exact whole (requests joint.name pre) (e.request.comap (interfaceName joint.name))
      (requests joint.name post) (by simp [requests]) ⟨j, stopped⟩
      ((mem_claimed_iff joint.name pre k).2 claims)
  · rintro whole pre post s₁ joint₁ rfl first there k
    have marks := exactly.2 (fun pre' r post' parts stops k claims => by
      obtain ⟨j, stopped⟩ := stops
      obtain ⟨before, rest, split, rfl, tail⟩ := List.map_eq_append_iff.1 parts
      obtain ⟨e, after, rfl, rfl, rfl⟩ := List.map_eq_cons_iff.1 tail
      exact whole before e after split ⟨j, stopped⟩ k
        ((mem_claimed_iff joint.name before k).1 claims))
    have here := marks (requests joint.name pre) (requests joint.name post) (by simp [requests])
    rw [← marksOf_runs first (by assumption) there] at here
    rw [← mem_claimed_iff, ← held]
    exact Set.ext_iff.1 here k

/-- The effort interface is started, and stopped again. -/
def claimAndRelease : List (Event Int) :=
  [.switch ["j/effort"] [], .switch [] ["j/effort"]]

theorem claimAndRelease_follows : ∃ s' joint',
    runs (fun q => .ok q) 1 oneJoint claimAndRelease = some s' ∧ s'.joints[0]? = some joint' ∧
      ∀ k, joint'.jointControlMethod.has k.flag = true ↔
        interfaceName "j" k ∈ claimed claimAndRelease ∨
          NONE.has k.flag = true ∧ ∀ e ∈ claimAndRelease, ¬ e.Stops "j" := by
  have ran : runs (fun q => .ok q) 1 oneJoint claimAndRelease = some _ := rfl
  have here : oneJoint.joints[0]? = some _ := rfl
  have lawful : Along Request.claims Request.Lawful ∅ (claimAndRelease.map Event.request) := by
    refine ⟨⟨?_, ?_⟩, ⟨?_, ?_⟩, trivial⟩
    · intro name stopped
      cases stopped
    · exact Set.disjoint_left.2 fun _ _ claimed => claimed.1
    · intro name stopped
      exact .inr stopped
    · exact Set.disjoint_left.2 fun _ started => nomatch started
  refine ⟨_, _, ran, rfl, ?_⟩
  refine (methods_follow_claims_iff ran lawful here).2 ?_ claimAndRelease [] _ _
    (List.append_nil _).symm ran rfl
  intro pre e post parts stops k claims
  match pre, parts with
  | [], _ => cases claims
  | [_], parts =>
      -- what is claimed here was started by the first request, and is all that the second stops
      cases parts
      rcases claims with ⟨none, -⟩ | claims
      · cases none
      · exact claims
  | _ :: _ :: _, parts => simp [claimAndRelease] at parts

end Runs

/-! ## Mimic joints -/

theorem stopInterface_of_ne {name interface : String} (other : ∀ k, interfaceName name k ≠ interface)
    (m : ControlMethod) : stopInterface name m interface = m := by
  unfold stopInterface
  rw [if_neg (fun hit => other .position hit.symm), if_neg (fun hit => other .velocity hit.symm),
    if_neg (fun hit => other .effort hit.symm)]

theorem startInterface_of_ne {name interface : String}
    (other : ∀ k, interfaceName name k ≠ interface) (m : ControlMethod) :
    startInterface name m interface = m := by
  unfold startInterface
  rw [if_neg (fun hit => other .position hit.symm), if_neg (fun hit => other .velocity hit.symm),
    if_neg (fun hit => other .effort hit.symm)]

/-- A fold that leaves a value alone. -/
theorem foldl_fixed {α β : Type} {f : α → β → α} {a : α} {l : List β}
    (fixed : ∀ b ∈ l, f a b = a) : l.foldl f a = a := by
  induction l with
  | nil => rfl
  | cons b l ih =>
      rw [List.foldl_cons, fixed b List.mem_cons_self]
      exact ih fun b member => fixed b (List.mem_cons_of_mem _ member)

/-- A request that is not about a joint leaves its word alone. -/
theorem setup_of_other {K : Type} {e : Event K} {u : Setup}
    (other : ∀ k, interfaceName u.name k ∉ e.request.start ∪ e.request.stop) : e.setup u = u := by
  cases e with
  | switch start stop =>
      have stops : stop.foldl (stopInterface u.name) u.method = u.method :=
        foldl_fixed fun interface member =>
          stopInterface_of_ne (fun k hit => other k (.inr (hit ▸ member))) u.method
      have starts : start.foldl (startInterface u.name) u.method = u.method :=
        foldl_fixed fun interface member =>
          startInterface_of_ne (fun k hit => other k (.inl (hit ▸ member))) u.method
      show Setup.mk _ _ _ (switchMethod start stop u.name u.method) = u
      rw [switchMethod, stops, starts]
  | read => rfl
  | write => rfl
  | command joint kind value => rfl
  | simulate f => rfl

/-- **Mimic joints are never switched.**  Where the controllers ask for exported interfaces
only, and no joint is exported under a mimic joint's own name, the mimic joint keeps the methods
that `initSim` gave it: the effort method if it has an effort interface, and none otherwise. -/
theorem mimic_method {K : Type} [Zero K] [One K] [Add K] [Sub K] [Mul K] [Neg K] [QuietNaN K]
    {stod : String → Except Thrown K} {gain updateRate : K}
    {enableJoints : String → Option Entity} {infos : List ComponentInfo}
    {ecm : EntityComponentManager K} {gravity : (Fin 7 → K) → Except String (Fin 7 → K)}
    {s s' : IgnitionSystem K} {es : List (Event K)} {i : Nat} {info : ComponentInfo}
    {joint' : JointData K}
    (initialised : (initSim stod gain enableJoints infos ecm).run = some (.ok (true, s)))
    (ran : runs gravity updateRate s es = some s')
    (asked : ∀ e ∈ es, ∀ name ∈ e.request.start ∪ e.request.stop,
      ∃ h ∈ s.commandInterfaces, name = h.name)
    (listed : infos[i]? = some info) (apart : ∀ other ∈ infos, other.exportedName ≠ info.name)
    (there : s'.joints[i]? = some joint') :
    joint'.setup = info.initialSetup enableJoints := by
  obtain ⟨setups, exported⟩ := initSim_ok initialised
  obtain ⟨joint, here, setup⟩ := exists_joint setups listed
  obtain ⟨joint'', same, behind⟩ := runs_setup ran here
  obtain rfl := Option.some.inj (there.symm.trans same)
  have name : joint.setup.name = info.name := by
    rw [setup, initialSetup_name]
  rw [behind, ← setup]
  apply run_invariant (I := fun u => u = joint.setup) (A := fun e => e ∈ es) _ _
    (fun e member => member) rfl
  rintro _ e member rfl
  apply setup_of_other
  intro k about
  obtain ⟨h, exports, hit⟩ := asked e member _ about
  obtain ⟨other, place, prefixed, j, kind, -⟩ := exported h exports
  have full : h.name = interfaceName other.exportedName j := by
    rw [Handle.name, prefixed, kind, interfaceName]
  have same := interfaceName_name (hit.trans full)
  exact apart other (List.mem_of_getElem? place) (same.symm.trans name)

/-- An arm joint, and a finger that mimics it. -/
def armAndFinger : List ComponentInfo :=
  [⟨"j", [⟨"effort", ""⟩], [⟨"position", ""⟩], fun _ => none⟩,
    ⟨"f", [⟨"position", ""⟩], [⟨"position", ""⟩], fun name => if name = "mimic" then "j" else none⟩]

def entityOf (name : String) : Option Entity := if name = "j" then some 1 else some 2

def unmoved : EntityComponentManager (Double ℚ) :=
  fun _ => { jointType := some .revolute, jointAxis := some ⟨0, 0, 1⟩ }

theorem finger_method : ∃ s s' joint',
    (initSim (fun _ => .ok 0) 0 entityOf armAndFinger unmoved).run = some (.ok (true, s)) ∧
      runs (fun q => .ok q) 0 s [.switch ["f_mimic/position"] []] = some s' ∧
      s'.joints[1]? = some joint' ∧ joint'.jointControlMethod = NONE := by
  have initialised : (initSim (fun _ => .ok 0) 0 entityOf armAndFinger unmoved).run =
      some (.ok (true, _)) := rfl
  have listed : armAndFinger[1]? = some _ := rfl
  have apart : ∀ other ∈ armAndFinger, other.exportedName ≠ "f" := by decide
  refine ⟨_, _, _, initialised, rfl, rfl, ?_⟩
  refine congrArg Setup.method (mimic_method initialised
    (Eq.refl (runs (fun q => .ok q) 0 _ [.switch ["f_mimic/position"] []])) ?_ listed apart rfl)
  intro e member name asked
  obtain rfl := List.mem_singleton.1 member
  rcases asked with started | stopped
  · exact ⟨⟨"f_mimic", HW_IF_POSITION, 1⟩, .tail _ (.head _), List.mem_singleton.1 started⟩
  · cases stopped

end FrankaRos.Gazebo
