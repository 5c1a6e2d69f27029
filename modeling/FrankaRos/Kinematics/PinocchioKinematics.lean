/-
# Kinematics.PinocchioKinematics -- forward kinematics through index tables

`PinocchioKinematics` looks its seven arm joints up by name when it is initialised,
and builds every configuration it hands to Pinocchio from the neutral one: the arm
through the table of `idx_q`, then the extra joints that were given positions.

Pinocchio itself is a parameter.  `Pinocchio` keeps the two results that are used,
placements and frame Jacobians, and the law that either depends on the entries of the
joints that move the frame only.  `none` is undefined behaviour: an index outside its
vector.  A `double` is only copied here, so any type with a zero and another one will do.
-/
import FrankaRos.Kinematics.PinocchioModel
import FrankaRos.Theory.Writes

namespace FrankaRos.Kinematics

open FrankaRos.Theory

set_option autoImplicit false

/-- `pinocchio::forwardKinematics` with `updateFramePlacements`, and
`pinocchio::computeFrameJacobian`, whose result is a list of columns. -/
structure Pinocchio (K Pose Column : Type) where
  placement : Model → List K → Nat → Pose
  frameJacobian : Model → List K → Nat → List Column
  placement_local : ∀ m frame q q', m.AgreeOn (m.frameSupports frame) q q' →
    placement m q frame = placement m q' frame
  frameJacobian_local : ∀ m frame q q', m.AgreeOn (m.frameSupports frame) q q' →
    frameJacobian m q frame = frameJacobian m q' frame
  length_frameJacobian : ∀ m q frame, (frameJacobian m q frame).length = m.nv

structure Options where
  armId : String := "fr3"
  useRobotHand : Bool := true
  eeFrameOverride : String := ""
  deriving DecidableEq, Repr

structure PinocchioKinematics (K : Type) where
  opt : Options
  initialized : Bool
  model : Model
  eeFrame : String
  eeFrameId : Nat
  qFullNeutral : List K
  qExtraMap : List (String × K)
  armQIdx : Fin 7 → Int
  armVIdx : Fin 7 → Int
  extraQIdxAndPosRt : List (Int × K)

/-- The names of the arm joints count from one. -/
def armJointName (armId : String) (i : Fin 7) : String :=
  armId ++ "_joint" ++ toString (i.val + 1)

theorem toString_succ_injective :
    ∀ i j : Fin 7, toString (i.val + 1) = toString (j.val + 1) → i = j := by decide

theorem armJointName_injective (armId : String) : Function.Injective (armJointName armId) := by
  intro i j same
  exact toString_succ_injective i j ((String.append_right_inj _).1 same)

theorem armJointName_ne_universe (armId : String) (i : Fin 7) :
    armJointName armId i ≠ "universe" := by
  intro same
  have mark : '_' ∈ (armJointName armId i).toList := by simp [armJointName]
  rw [same] at mark
  exact absurd mark (by decide)

namespace PinocchioKinematics

variable {K : Type}

/-- The constructor: a model of the universe alone, and no extra joints. -/
def constructed : PinocchioKinematics K :=
  ⟨{}, false, ⟨[], [⟨"universe", 0⟩]⟩, "", 0, [], [], fun _ => 0, fun _ => 0, []⟩

/-- `q_full[idx] = value`. -/
def store (q : List K) (idx : Int) (value : K) : Option (List K) :=
  if 0 ≤ idx ∧ idx < q.length then some (q.set idx.toNat value) else none

/-! ## Initialisation -/

def resolveEeFrameName (opt : Options) : String :=
  if opt.eeFrameOverride ≠ "" then opt.eeFrameOverride
  else if opt.useRobotHand then opt.armId ++ "_hand_tcp" else opt.armId ++ "_link8"

def resolveFrameIds (s : PinocchioKinematics K) : Bool × PinocchioKinematics K :=
  let eeFrameId := s.model.getFrameId s.eeFrame
  (decide (eeFrameId ≠ Model.noIndex), { s with eeFrameId := eeFrameId })

/-- The second loop of `buildArmIndexMaps`. -/
def lookUpArm (s : PinocchioKinematics K) :
    List (Fin 7) → Option (Bool × PinocchioKinematics K)
  | [] => some (true, s)
  | i :: rest =>
      let jid := s.model.getJointId (armJointName s.opt.armId i)
      if jid = Model.noIndex then some (false, s)
      else
        match s.model.idxQ jid, s.model.idxV jid with
        | some idxQ, some idxV =>
            lookUpArm { s with
              armQIdx := Function.update s.armQIdx i idxQ
              armVIdx := Function.update s.armVIdx i idxV } rest
        | _, _ => none

def buildArmIndexMaps (s : PinocchioKinematics K) : Option (Bool × PinocchioKinematics K) :=
  s.lookUpArm (List.finRange 7)

/-- The entries of the extra joints, in the order in which the map is traversed. -/
def lookUpExtra (m : Model) : List (String × K) → Option (List (Int × K))
  | [] => some []
  | (name, position) :: rest =>
      let jid := m.getJointId name
      if jid = Model.noIndex then lookUpExtra m rest
      else
        match m.idxQ jid, lookUpExtra m rest with
        | some idxQ, some entries =>
            some (if 0 ≤ idxQ ∧ idxQ < m.nq then (idxQ, position) :: entries else entries)
        | _, _ => none

def refreshExtraJointIndexCache (s : PinocchioKinematics K) : Option (PinocchioKinematics K) :=
  (lookUpExtra s.model s.qExtraMap).map fun entries => { s with extraQIdxAndPosRt := entries }

/-- The URDF parser is a parameter; it returns nothing where Pinocchio's throws. -/
def initFromUrdfXml [Zero K] [One K] (buildModelFromXML : String → Option Model) (urdf : String)
    (opt : Options) (s : PinocchioKinematics K) : Option (Bool × PinocchioKinematics K) :=
  let s := { s with opt := opt, eeFrame := resolveEeFrameName opt }
  match buildModelFromXML urdf with
  | none => some (false, { s with model := ⟨[], [⟨"universe", 0⟩]⟩, initialized := false })
  | some model =>
      match { s with model := model, qFullNeutral := model.neutral }.resolveFrameIds with
      | (false, s) => some (false, { s with initialized := false })
      | (true, s) =>
          match s.buildArmIndexMaps with
          | none => none
          | some (false, s) => some (false, { s with initialized := false })
          | some (true, s) =>
              s.refreshExtraJointIndexCache.map fun s => (true, { s with initialized := true })

def initFromURDFString [Zero K] [One K] (buildModelFromXML : String → Option Model)
    (urdf eeFrameName : String) (s : PinocchioKinematics K) : Option (Bool × PinocchioKinematics K) :=
  s.initFromUrdfXml buildModelFromXML urdf { eeFrameOverride := eeFrameName }

def setExtraJointPositions (qExtra : List (String × K)) (s : PinocchioKinematics K) :
    Option (PinocchioKinematics K) :=
  let s := { s with qExtraMap := qExtra }
  if s.initialized then s.refreshExtraJointIndexCache else some s

/-! ## Kinematics -/

def fillQFullFromArmInPlace (qArm : Fin 7 → K) (s : PinocchioKinematics K) : Option (List K) := do
  let qFull ← (List.finRange 7).foldlM (fun q i => store q (s.armQIdx i) (qArm i)) s.qFullNeutral
  s.extraQIdxAndPosRt.foldlM (fun q entry => store q entry.1 entry.2) qFull

def notInitialised (func : String) : String :=
  "PinocchioKinematics::" ++ func ++ " called before initialization"

variable {Pose Column : Type} (lib : Pinocchio K Pose Column)

/-- `fk_rt`; an exception is an `error`. -/
def fkRt (qArm : Fin 7 → K) (s : PinocchioKinematics K) : Option (Except String Pose) :=
  if s.initialized = false then some (.error (notInitialised "fk_rt"))
  else do
    let qFull ← s.fillQFullFromArmInPlace qArm
    if s.eeFrameId < s.model.frames.length then
      some (.ok (lib.placement s.model qFull s.eeFrameId))
    else none

def fk (qArm : Fin 7 → K) (s : PinocchioKinematics K) : Option (Except String Pose) :=
  s.fkRt lib qArm

/-- `J_full.col(idx)`. -/
def col (full : List Column) (idx : Int) : Option Column :=
  if 0 ≤ idx then full[idx.toNat]? else none

def jacobian (qArm : Fin 7 → K) (s : PinocchioKinematics K) :
    Option (Except String (List Column)) :=
  if s.initialized = false then some (.error (notInitialised "jacobian"))
  else do
    let qFull ← s.fillQFullFromArmInPlace qArm
    if s.eeFrameId < s.model.frames.length then
      let full := lib.frameJacobian s.model qFull s.eeFrameId
      let columns ← (List.finRange 7).mapM fun i => col full (s.armVIdx i)
      some (.ok columns)
    else none

/-! ## What an initialisation has looked up -/

theorem lookUpArm_true {l : List (Fin 7)} {s s' : PinocchioKinematics K}
    (ran : s.lookUpArm l = some (true, s')) :
    s' = { s with armQIdx := s'.armQIdx, armVIdx := s'.armVIdx } ∧
      (∀ i ∉ l, s'.armQIdx i = s.armQIdx i ∧ s'.armVIdx i = s.armVIdx i) ∧
      ∀ i ∈ l, s.model.getJointId (armJointName s.opt.armId i) ≠ Model.noIndex ∧
        s.model.idxQ (s.model.getJointId (armJointName s.opt.armId i)) = some (s'.armQIdx i) ∧
        s.model.idxV (s.model.getJointId (armJointName s.opt.armId i)) = some (s'.armVIdx i) := by
  induction l generalizing s with
  | nil =>
      obtain rfl : s = s' := by simpa [lookUpArm] using ran
      simp
  | cons i l ih =>
      simp only [lookUpArm] at ran
      split at ran
      · cases ran
      rename_i present
      split at ran
      · rename_i idxQ idxV foundQ foundV
        obtain ⟨frame, outside, inside⟩ := ih ran
        refine ⟨frame, ?_, ?_⟩
        · intro j absent
          have other : j ≠ i := fun same => absent (same ▸ List.mem_cons_self)
          have absent : j ∉ l := fun member => absent (List.mem_cons_of_mem _ member)
          have kept := outside j absent
          simpa [Function.update_of_ne other] using kept
        · intro j member
          by_cases later : j ∈ l
          · exact inside j later
          · obtain rfl : j = i := (List.mem_cons.1 member).resolve_right later
            have kept := outside j later
            simp only [Function.update_self] at kept
            exact ⟨present, kept.1 ▸ foundQ, kept.2 ▸ foundV⟩
      · cases ran

/-- One key of the map: it leads to a joint, whose entry is cached, or to none. -/
theorem lookUpExtra_cons {m : Model} {key : String} {position : K} {map : List (String × K)}
    {entries : List (Int × K)} (ran : lookUpExtra m ((key, position) :: map) = some entries) :
    ∃ rest, lookUpExtra m map = some rest ∧
      (entries = rest ∧ (m.getJointId key = Model.noIndex ∨ m.getJointId key = 0) ∨
        ∃ k, m.getJointId key = k + 1 ∧ k < m.joints.length ∧
          entries = ((m.qLayout.sizeUpTo k : Int), position) :: rest) := by
  simp only [lookUpExtra] at ran
  split at ran
  · rename_i absent
    exact ⟨entries, ran, .inl ⟨rfl, .inl absent⟩⟩
  split at ran
  · rename_i idxQ rest foundQ cached
    obtain rfl := Option.some.inj ran
    refine ⟨rest, cached, ?_⟩
    cases jid : m.getJointId key with
    | zero =>
        rw [jid] at foundQ
        obtain rfl : (-1 : Int) = idxQ := Option.some.inj foundQ
        exact .inl ⟨if_neg (by omega), .inr rfl⟩
    | succ k =>
        rw [jid] at foundQ
        obtain ⟨inside, rfl⟩ := Model.idxQ_eq_some.1 foundQ
        -- the entry of a joint of the model is always within the configuration
        have room := Model.slot_lt_nq inside m.joints[k].type.nq_pos
        exact .inr ⟨k, rfl, inside, if_pos (by omega)⟩
  · cases ran

/-- Every entry of the cache is the first entry of a joint. -/
theorem lookUpExtra_entry {m : Model} {map : List (String × K)} {entries : List (Int × K)}
    (ran : lookUpExtra m map = some entries) {entry : Int × K} (member : entry ∈ entries) :
    ∃ k, k < m.joints.length ∧ entry.1 = m.qLayout.sizeUpTo k := by
  induction map generalizing entries with
  | nil =>
      obtain rfl : [] = entries := Option.some.inj ran
      cases member
  | cons head map ih =>
      obtain ⟨rest, cached, ⟨rfl, -⟩ | ⟨k, -, inside, rfl⟩⟩ := lookUpExtra_cons ran
      · exact ih cached member
      · rcases List.mem_cons.1 member with rfl | member
        · exact ⟨k, inside, rfl⟩
        · exact ih cached member

/-- The position under a key of the map; of equal keys, which an `unordered_map` does not
have, the last in the order of the traversal. -/
def givenPosition : List (String × K) → String → Option K
  | [], _ => none
  | (key, position) :: rest, name =>
      (givenPosition rest name).or (if key = name then some position else none)

theorem givenPosition_eq_none_iff {map : List (String × K)} {name : String} :
    givenPosition map name = none ↔ name ∉ map.map Prod.fst := by
  induction map with
  | nil => simp [givenPosition]
  | cons head map ih =>
      obtain ⟨key, position⟩ := head
      rw [givenPosition, Option.or_eq_none_iff, ih, List.map_cons, List.mem_cons, not_or, and_comm]
      simp [eq_comm]

/-- The stores of the cache leave a joint of the model with the position the map gives it. -/
theorem lookUpExtra_written {m : Model} {map : List (String × K)} {entries : List (Int × K)}
    (ran : lookUpExtra m map = some entries) {name : String} {k : Nat}
    (found : m.getJointId name = k + 1) (inside : k < m.joints.length)
    (present : m.getJointId name ≠ Model.noIndex) (held : Int → Option K) :
    writeAll Prod.fst (fun entry => some entry.2) entries held (m.qLayout.sizeUpTo k) =
      (givenPosition map name).or (held (m.qLayout.sizeUpTo k)) := by
  induction map generalizing entries held with
  | nil =>
      obtain rfl : [] = entries := Option.some.inj ran
      rfl
  | cons head map ih =>
      obtain ⟨key, position⟩ := head
      rw [givenPosition, Option.or_assoc]
      obtain ⟨rest, cached, ⟨rfl, none⟩ | ⟨j, leads, bound, rfl⟩⟩ := lookUpExtra_cons ran
      · have differ : key ≠ name := by
          rintro rfl
          rcases none with absent | root
          · exact present absent
          · exact absurd (found.symm.trans root) (Nat.succ_ne_zero k)
        rw [ih cached, if_neg differ, Option.none_or]
      · rw [writeAll_cons, ih cached]
        by_cases same : key = name
        · obtain rfl : j = k := Nat.succ.inj (leads.symm.trans (same ▸ found))
          rw [Function.update_self, if_pos same, Option.some_or]
        · -- another joint's block begins elsewhere
          have apart : (m.qLayout.sizeUpTo k : Int) ≠ m.qLayout.sizeUpTo j := by
            intro hit
            have block : k = j := by
              apply sizeUpTo_injOn m.qLayout (by simpa using inside) (by simpa using bound)
              exact Int.ofNat.inj hit
            exact same (Model.getJointId_inj leads (block ▸ found) bound)
          rw [Function.update_of_ne apart, if_neg same, Option.none_or]

section Ready

variable [Zero K] [One K]

/-- An initialised object: the arm joints are the model's blocks `block`, and tables,
neutral configuration and cache are those of the model. -/
structure Ready (m : Model) (opt : Options) (block : Fin 7 → Nat) (s : PinocchioKinematics K) :
    Prop where
  initialized : s.initialized = true
  model : s.model = m
  eeFrameId : s.eeFrameId = m.getFrameId (resolveEeFrameName opt)
  neutral : s.qFullNeutral = m.neutral
  inside : ∀ i, block i < m.joints.length
  found : ∀ i, m.getJointId (armJointName opt.armId i) = block i + 1
  present : ∀ i, m.getJointId (armJointName opt.armId i) ≠ Model.noIndex
  armQIdx : ∀ i, s.armQIdx i = m.qLayout.sizeUpTo (block i)
  armVIdx : ∀ i, s.armVIdx i = m.vLayout.sizeUpTo (block i)
  extra : lookUpExtra m s.qExtraMap = some s.extraQIdxAndPosRt

/-- What a successful initialisation has looked up, and the members it has set. -/
theorem initFromUrdfXml_true {buildModelFromXML : String → Option Model} {urdf : String}
    {opt : Options} {s s' : PinocchioKinematics K}
    (ran : s.initFromUrdfXml buildModelFromXML urdf opt = some (true, s')) :
    ∃ m entries, buildModelFromXML urdf = some m ∧ lookUpExtra m s.qExtraMap = some entries ∧
      (∀ i, m.getJointId (armJointName opt.armId i) ≠ Model.noIndex ∧
        m.idxQ (m.getJointId (armJointName opt.armId i)) = some (s'.armQIdx i) ∧
        m.idxV (m.getJointId (armJointName opt.armId i)) = some (s'.armVIdx i)) ∧
      s' = { s with
        opt := opt, eeFrame := resolveEeFrameName opt, model := m, qFullNeutral := m.neutral
        eeFrameId := m.getFrameId (resolveEeFrameName opt), armQIdx := s'.armQIdx
        armVIdx := s'.armVIdx, extraQIdxAndPosRt := entries, initialized := true } := by
  simp only [initFromUrdfXml, resolveFrameIds] at ran
  split at ran
  · cases ran
  rename_i m parsed
  split at ran
  · cases ran
  rename_i resolved
  obtain rfl := (Prod.mk.inj resolved).2
  split at ran
  · cases ran
  · cases ran
  rename_i t built
  obtain ⟨frame, -, looked⟩ := lookUpArm_true built
  obtain ⟨u, refreshed, done⟩ := Option.map_eq_some_iff.1 ran
  obtain rfl := (Prod.mk.inj done).2
  obtain ⟨entries, cached, rfl⟩ := Option.map_eq_some_iff.1 refreshed
  have model : t.model = m := by rw [frame]
  have extra : t.qExtraMap = s.qExtraMap := by rw [frame]
  rw [model, extra] at cached
  refine ⟨m, entries, parsed, cached, fun i => looked i (List.mem_finRange i), ?_⟩
  rw [frame]

/-- What a successful initialisation leaves. -/
theorem initFromUrdfXml_ready {buildModelFromXML : String → Option Model} {urdf : String}
    {opt : Options} {m : Model} (parsed : buildModelFromXML urdf = some m)
    {s s' : PinocchioKinematics K}
    (ran : s.initFromUrdfXml buildModelFromXML urdf opt = some (true, s')) :
    ∃ block, Ready m opt block s' := by
  obtain ⟨m', entries, parsed', cached, looked, frame⟩ := initFromUrdfXml_true ran
  obtain rfl := Option.some.inj (parsed.symm.trans parsed')
  have place : ∀ i, ∃ k, k < m.joints.length ∧
      m.getJointId (armJointName opt.armId i) = k + 1 := by
    intro i
    obtain ⟨-, foundQ, -⟩ := looked i
    cases jid : m.getJointId (armJointName opt.armId i) with
    | zero =>
        have other := armJointName_ne_universe opt.armId i
        rw [Model.getJointId_succ other] at jid
        cases jid
    | succ k => exact ⟨k, (Model.idxQ_eq_some.1 (jid ▸ foundQ)).1, rfl⟩
  choose block inside found using place
  refine ⟨block, ?_, ?_, ?_, ?_, inside, found, fun i => (looked i).1, fun i => ?_, fun i => ?_, ?_⟩
  · rw [frame]
  · rw [frame]
  · rw [frame]
  · rw [frame]
  · obtain ⟨-, foundQ, -⟩ := looked i
    exact (Model.idxQ_eq_some.1 (found i ▸ foundQ)).2
  · obtain ⟨-, -, foundV⟩ := looked i
    exact (Model.idxV_eq_some.1 (found i ▸ foundV)).2
  · rw [frame]
    exact cached

/-- Extra joint positions given later refresh the cache and nothing else. -/
theorem setExtraJointPositions_ready {m : Model} {opt : Options} {block : Fin 7 → Nat}
    {s s' : PinocchioKinematics K} (ready : Ready m opt block s) {qExtra : List (String × K)}
    (ran : s.setExtraJointPositions qExtra = some s') : Ready m opt block s' := by
  simp only [setExtraJointPositions, ready.initialized, if_true] at ran
  obtain ⟨entries, cached, rfl⟩ := Option.map_eq_some_iff.1 ran
  exact ⟨rfl, ready.model, ready.eeFrameId, ready.neutral, ready.inside, ready.found,
    ready.present, ready.armQIdx, ready.armVIdx, ready.model ▸ cached⟩

theorem setExtraJointPositions_run {m : Model} {opt : Options} {block : Fin 7 → Nat}
    {maps : List (List (String × K))} {s s' : PinocchioKinematics K}
    (ready : Ready m opt block s)
    (ran : maps.foldlM (fun s qExtra => s.setExtraJointPositions qExtra) s = some s') :
    Ready m opt block s' := by
  induction maps generalizing s with
  | nil => exact Option.some.inj ran ▸ ready
  | cons qExtra maps ih =>
      rw [List.foldlM_cons] at ran
      obtain ⟨t, first, rest⟩ := Option.bind_eq_some_iff.1 ran
      exact ih (setExtraJointPositions_ready ready first) rest

end Ready

/-! ## The configuration handed to Pinocchio -/

/-- A sequence of stores that all stay inside the vector. -/
theorem foldlM_store {ι : Type} (key : ι → Int) (value : ι → K) {l : List ι} {q : List K}
    (inside : ∀ a ∈ l, 0 ≤ key a ∧ key a < q.length) :
    ∃ q', l.foldlM (fun q a => store q (key a) (value a)) q = some q' ∧ q'.length = q.length ∧
      ∀ n : Nat, q'[n]? =
        writeAll key (fun a => some (value a)) l (fun k => q[k.toNat]?) n := by
  induction l generalizing q with
  | nil => exact ⟨q, rfl, rfl, fun n => rfl⟩
  | cons a l ih =>
      have here := inside a List.mem_cons_self
      obtain ⟨q', ran, length, entries⟩ := ih (q := q.set (key a).toNat (value a))
        fun b member => by simpa using inside b (List.mem_cons_of_mem a member)
      refine ⟨q', ?_, by simpa using length, fun n => ?_⟩
      · rw [List.foldlM_cons, store, if_pos here]
        exact ran
      · rw [entries n, writeAll_cons]
        apply writeAll_congr
        rw [List.getElem?_set]
        by_cases same : (n : Int) = key a
        · rw [same, Function.update_self, if_pos (by omega), if_pos (by omega)]
        · rw [Function.update_of_ne same, if_neg (by omega)]

variable [Zero K] [One K] {m : Model} {opt : Options} {block : Fin 7 → Nat}
  {s : PinocchioKinematics K}

/-- The arm joints have blocks of their own. -/
theorem Ready.block_injective (ready : Ready m opt block s) : Function.Injective block := by
  intro i j same
  apply armJointName_injective opt.armId
  exact Model.getJointId_inj (ready.found i) (same ▸ ready.found j) (ready.inside i)

/-- Every entry of the configuration, by the last store that hit it. -/
theorem Ready.fillQFull (ready : Ready m opt block s) (q : Fin 7 → K) :
    ∃ full, s.fillQFullFromArmInPlace q = some full ∧ full.length = m.nq ∧
      ∀ n : Nat, full[n]? =
        writeAll Prod.fst (fun entry => some entry.2) s.extraQIdxAndPosRt
          (writeAll s.armQIdx (fun i => some (q i)) (List.finRange 7)
            fun k => (m.neutral (K := K))[k.toNat]?) n := by
  have neutral : s.qFullNeutral.length = m.nq := by rw [ready.neutral, Model.length_neutral]
  obtain ⟨arm, wrote, length, entries⟩ := foldlM_store s.armQIdx q
    (l := List.finRange 7) (q := s.qFullNeutral) (by
      intro i _
      have bound := ready.inside i
      have room := Model.slot_lt_nq bound m.joints[block i].type.nq_pos
      rw [ready.armQIdx, neutral]
      omega)
  obtain ⟨full, wrote', length', entries'⟩ := foldlM_store Prod.fst Prod.snd
    (l := s.extraQIdxAndPosRt) (q := arm) (by
      intro entry member
      obtain ⟨k, bound, begins⟩ := lookUpExtra_entry ready.extra member
      have room := Model.slot_lt_nq bound (m.joints[k].type.nq_pos)
      rw [begins, length, neutral]
      omega)
  refine ⟨full, ?_, by omega, fun n => ?_⟩
  · simp only [fillQFullFromArmInPlace, wrote]
    exact wrote'
  · rw [entries' n]
    apply writeAll_congr
    rw [Int.toNat_natCast, entries n, ready.neutral]

/-- An arm joint's entry: the position it is given, and the requested one otherwise. -/
theorem Ready.evaluated_entry (ready : Ready m opt block s) {q : Fin 7 → K} {full : List K}
    (built : s.fillQFullFromArmInPlace q = some full) (i : Fin 7) :
    full[m.qLayout.sizeUpTo (block i)]? =
      some ((givenPosition s.qExtraMap (armJointName opt.armId i)).getD (q i)) := by
  obtain ⟨_, same, -, entries⟩ := ready.fillQFull q
  obtain rfl := Option.some.inj (built.symm.trans same)
  rw [entries, lookUpExtra_written ready.extra (ready.found i) (ready.inside i) (ready.present i),
    ← ready.armQIdx i, writeAll_at (List.mem_finRange i)]
  · cases givenPosition s.qExtraMap (armJointName opt.armId i) <;> rfl
  · intro j _ hit
    rw [ready.armQIdx, ready.armQIdx] at hit
    apply ready.block_injective
    apply sizeUpTo_injOn m.qLayout (by simpa using ready.inside j) (by simpa using ready.inside i)
    exact Int.ofNat.inj hit

/-- An arm joint that is no extra joint has the value it was given. -/
theorem Ready.arm_entry (ready : Ready m opt block s) {q : Fin 7 → K} {full : List K}
    (built : s.fillQFullFromArmInPlace q = some full) {i : Fin 7}
    (free : armJointName opt.armId i ∉ s.qExtraMap.map Prod.fst) :
    full[m.qLayout.sizeUpTo (block i)]? = some (q i) := by
  rw [ready.evaluated_entry built i, givenPosition_eq_none_iff.2 free, Option.getD_none]

/-- One that is an extra joint has the same value whatever it was given. -/
theorem Ready.extra_entry (ready : Ready m opt block s) {q q' : Fin 7 → K} {full full' : List K}
    (built : s.fillQFullFromArmInPlace q = some full)
    (built' : s.fillQFullFromArmInPlace q' = some full') {i : Fin 7}
    (taken : armJointName opt.armId i ∈ s.qExtraMap.map Prod.fst) :
    full[m.qLayout.sizeUpTo (block i)]? = full'[m.qLayout.sizeUpTo (block i)]? := by
  rw [ready.evaluated_entry built i, ready.evaluated_entry built' i]
  cases given : givenPosition s.qExtraMap (armJointName opt.armId i) with
  | none => exact absurd taken (givenPosition_eq_none_iff.1 given)
  | some position => rfl

/-- The further entries of an arm joint are neutral. -/
theorem Ready.inner_entry (ready : Ready m opt block s) {q : Fin 7 → K} {full : List K}
    (built : s.fillQFullFromArmInPlace q = some full) {k : Nat} (bound : k < m.joints.length)
    {o : Nat} (behind : 0 < o) (entry : o < m.joints[k].type.nq) :
    full[m.qLayout.sizeUpTo k + o]? = m.joints[k].type.neutral[o]? := by
  obtain ⟨_, same, -, entries⟩ := ready.fillQFull q
  obtain rfl := Option.some.inj (built.symm.trans same)
  -- a store hits the first entry of some block, and this is no block's first entry
  have apart : ∀ j, m.qLayout.sizeUpTo j ≠ m.qLayout.sizeUpTo k + o := by
    intro j hit
    obtain rfl := Model.slot_disjoint bound entry hit
    omega
  rw [entries, writeAll_other, writeAll_other, Int.toNat_natCast,
    Model.neutral_getElem? bound entry]
  · intro i _ hit
    rw [ready.armQIdx] at hit
    exact apart _ (Int.ofNat.inj hit)
  · intro extra member hit
    obtain ⟨j, -, begins⟩ := lookUpExtra_entry ready.extra member
    exact apart j (Int.ofNat.inj (begins.symm.trans hit))

/-- The velocity entries of the arm are columns of every frame Jacobian. -/
theorem Ready.armVIdx_inside (ready : Ready m opt block s) (i : Fin 7) :
    0 ≤ s.armVIdx i ∧ (s.armVIdx i).toNat < m.nv := by
  have room := m.vLayout.sizeUpTo_strict_mono (i := block i) (by simpa using ready.inside i)
  have := m.vLayout.sizeUpTo_le (block i + 1)
  rw [ready.armVIdx, Int.toNat_natCast]
  omega

end PinocchioKinematics

end FrankaRos.Kinematics
