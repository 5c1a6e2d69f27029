/-
# StateBroadcaster.LostWakeup -- the destructor's notification and the window before it

Between reading the flags and blocking, `publishRunner` holds the mutex and is not yet
waiting.  A notification in this window wakes nobody, and the flags are written without
the mutex, so nothing keeps them and their notification out of it.

After the destructor's notification there is no other.  `Timely` excludes the runs in
which it falls into the window; in the others the thread is never left `Stranded`, and
the join completes after at most eight actions of the thread (`no_lost_wakeup`).
`stranded_of_untimely` is the converse: the thread that misses it is stranded by its
next action.
-/
import FrankaRos.StateBroadcaster.FrankaRobotStateBroadcaster

namespace FrankaRos.StateBroadcaster

open FrankaRos.Theory

set_option autoImplicit false

/-- The thread holds the mutex before this action. -/
def Runner.holds : Runner → Bool
  | .readPublishNow => true
  | .readRunning => true
  | .block => true
  | .bodyCheck => true
  | .publish => true
  | .clear => true
  | .unlock => true
  | _ => false

/-- The destructor has told the thread to end. -/
def Owner.ending : Owner → Bool
  | .notifyLast => true
  | .join => true
  | .destroyed => true
  | _ => false

/-- The destructor has made its notification. -/
def Owner.notified : Owner → Bool
  | .join => true
  | .destroyed => true
  | _ => false

theorem Owner.notified_iff {o : Owner} : o.notified = true ↔ o = .join ∨ o = .destroyed := by
  cases o <;> simp [notified]

theorem Owner.ending_of_notified {o : Owner} (notified : o.notified = true) : o.ending = true := by
  rcases notified_iff.1 notified with rfl | rfl <;> rfl

namespace FrankaRobotStateBroadcaster

/-- The event is a notification. -/
def Notifies (s : FrankaRobotStateBroadcaster) (e : Event) : Prop :=
  (∃ values, e = .owner values) ∧ (s.owner = .notify ∨ s.owner = .notifyLast)

/-- The thread waits although its predicate holds, and is never notified again. -/
def Stranded (s : FrankaRobotStateBroadcaster) : Prop :=
  s.runner = .blocked ∧ (s.publishNow = true ∨ s.isPublishThreadRunning = false) ∧
    ∀ es, Along step (fun s e => ¬ Notifies s e) s es

/-- The destructor's notification does not fall between the thread's reading of the
predicate and its blocking. -/
def Timely (s : FrankaRobotStateBroadcaster) (e : Event) : Prop :=
  (∃ values, e = .owner values) → s.owner = .notifyLast → s.runner ≠ .block

/-- A destructor that waits for the thread returns as soon as the thread has had eight
turns, whatever else happens in between. -/
def Joins (s : FrankaRobotStateBroadcaster) : Prop :=
  s.owner = .join → ∀ es : List Event, 8 ≤ es.count .runner →
    (run step s (es ++ [.owner true])).owner = .destroyed

/-! ## What every action keeps -/

/-- Who holds the mutex, which of the owner's actions come after the flag, and that
nobody is waiting, or about to, when the last notification has been made. -/
structure Sound (s : FrankaRobotStateBroadcaster) : Prop where
  runnerHolds : s.publishMutex = some .runner ↔ s.runner.holds = true
  ownerHolds : s.publishMutex = some .owner ↔ s.owner = .fill
  running : s.isPublishThreadRunning = false ↔ s.owner.ending = true
  awake : s.owner.notified = true → s.runner ≠ .block ∧ s.runner ≠ .blocked

theorem constructed_sound : Sound constructed := by
  constructor <;> decide

theorem publishRunner_owner (s : FrankaRobotStateBroadcaster) :
    s.publishRunner.owner = s.owner := by
  unfold publishRunner
  split <;> first | rfl | (split <;> rfl)

theorem publishRunner_running (s : FrankaRobotStateBroadcaster) :
    s.publishRunner.isPublishThreadRunning = s.isPublishThreadRunning := by
  unfold publishRunner
  split <;> first | rfl | (split <;> rfl)

theorem publishRunner_sound {s : FrankaRobotStateBroadcaster} (sound : Sound s) :
    Sound s.publishRunner := by
  refine ⟨?_, ?_, ?_, ?_⟩
  · have held := sound.runnerHolds
    cases pc : s.runner <;> simp only [publishRunner, pc] at held ⊢ <;> grind [Runner.holds]
  · have held := sound.runnerHolds
    have held' := sound.ownerHolds
    rw [publishRunner_owner]
    cases pc : s.runner <;> simp only [publishRunner, pc] at held ⊢ <;> grind [Runner.holds]
  · rw [publishRunner_owner, publishRunner_running]
    exact sound.running
  · rw [publishRunner_owner]
    intro notified
    -- the flag is cleared, so the predicate holds and the thread does not go on to block
    have cleared := sound.running.2 (Owner.ending_of_notified notified)
    obtain ⟨notBlock, notBlocked⟩ := sound.awake notified
    cases pc : s.runner <;> simp only [publishRunner, pc] at notBlock notBlocked ⊢ <;> grind

theorem notifyAll_frame (s : FrankaRobotStateBroadcaster) :
    s.notifyAll.owner = s.owner ∧ s.notifyAll.publishMutex = s.publishMutex ∧
      s.notifyAll.isPublishThreadRunning = s.isPublishThreadRunning ∧
      s.notifyAll.publishNow = s.publishNow ∧ s.notifyAll.runner.holds = s.runner.holds := by
  unfold notifyAll
  split
  · rename_i waiting
    exact ⟨rfl, rfl, rfl, rfl, by rw [waiting]; rfl⟩
  · exact ⟨rfl, rfl, rfl, rfl, rfl⟩

/-- Nobody waits behind a notification. -/
theorem notifyAll_not_blocked (s : FrankaRobotStateBroadcaster) :
    s.notifyAll.runner ≠ .blocked ∧ (s.runner ≠ .block → s.notifyAll.runner ≠ .block) := by
  unfold notifyAll
  split
  · exact ⟨by simp, by simp⟩
  · rename_i elsewhere
    exact ⟨elsewhere, id⟩

theorem notifyAll_sound {s : FrankaRobotStateBroadcaster} (sound : Sound s) :
    Sound s.notifyAll := by
  obtain ⟨owner, mutex, running, -, holds⟩ := s.notifyAll_frame
  refine ⟨?_, ?_, ?_, ?_⟩
  · rw [mutex, holds]
    exact sound.runnerHolds
  · rw [mutex, owner]
    exact sound.ownerHolds
  · rw [running, owner]
    exact sound.running
  · rw [owner]
    intro notified
    exact ⟨s.notifyAll_not_blocked.2 (sound.awake notified).1, s.notifyAll_not_blocked.1⟩

/-- The owner goes on without touching the flags, the mutex or the thread. -/
theorem Sound.owner {s : FrankaRobotStateBroadcaster} (sound : Sound s) {o : Owner}
    (free : s.owner ≠ .fill ∧ o ≠ .fill) (ending : o.ending = s.owner.ending)
    (notified : o.notified = true → s.runner ≠ .block ∧ s.runner ≠ .blocked) :
    Sound { s with owner := o } := by
  refine ⟨sound.runnerHolds, ?_, ?_, notified⟩
  · exact ⟨fun held => (free.1 (sound.ownerHolds.1 held)).elim, fun here => (free.2 here).elim⟩
  · rw [ending]
    exact sound.running

theorem ownerAction_sound {s : FrankaRobotStateBroadcaster} (sound : Sound s) (values : Bool)
    (timely : s.owner = .notifyLast → s.runner ≠ .block) : Sound (s.ownerAction values) := by
  unfold ownerAction
  split
  · exact sound
  · rename_i here
    split
    · rename_i free
      refine ⟨?_, ?_, ?_, ?_⟩
      · have := sound.runnerHolds
        simpa [free] using this
      · simp
      · have := sound.running
        simpa [here, Owner.ending] using this
      · simp [Owner.notified]
    · exact sound
  · rename_i here
    have held := sound.ownerHolds.2 here
    refine ⟨?_, ?_, ?_, ?_⟩
    · have := sound.runnerHolds
      simpa [held] using this
    · cases values <;> simp
    · have := sound.running
      cases values <;> simpa [here, Owner.ending] using this
    · cases values <;> simp [Owner.notified]
  · rename_i here
    refine ⟨sound.runnerHolds, ?_, ?_, by simp [Owner.notified]⟩
    · have := sound.ownerHolds
      simpa [here] using this
    · have := sound.running
      simpa [here, Owner.ending] using this
  · rename_i here
    have frame := s.notifyAll_frame.1
    apply (notifyAll_sound sound).owner
    · simp [frame, here]
    · simp [frame, here, Owner.ending]
    · simp [Owner.notified]
  · rename_i here
    refine ⟨sound.runnerHolds, ?_, by simp [Owner.ending], by simp [Owner.notified]⟩
    have := sound.ownerHolds
    simpa [here] using this
  · rename_i here
    have frame := s.notifyAll_frame.1
    apply (notifyAll_sound sound).owner
    · simp [frame, here]
    · simp [frame, here, Owner.ending]
    · exact fun _ => ⟨s.notifyAll_not_blocked.2 (timely here), s.notifyAll_not_blocked.1⟩
  · rename_i here
    split
    · rename_i returned
      apply sound.owner
      · simp [here]
      · simp [here, Owner.ending]
      · simp [returned]
    · exact sound
  · exact sound

/-- Every event that is timely keeps what is sound. -/
theorem step_sound (s : FrankaRobotStateBroadcaster) (e : Event) (timely : Timely s e)
    (sound : Sound s) : Sound (s.step e) := by
  cases e with
  | runner => exact publishRunner_sound sound
  | spuriousWakeup => exact notifyAll_sound sound
  | update locked =>
      simp only [step]
      split
      · rename_i called
        apply sound.owner
        · simp [called.1]
        · simp [called.1, Owner.ending]
        · simp [Owner.notified]
      · exact sound
  | destroy =>
      simp only [step]
      split
      · rename_i idle
        apply sound.owner
        · simp [idle]
        · simp [idle, Owner.ending]
        · simp [Owner.notified]
      · exact sound
  | owner values => exact ownerAction_sound sound values (timely ⟨values, rfl⟩)

/-! ## Behind the last notification -/

theorem step_notified {s : FrankaRobotStateBroadcaster} (notified : s.owner.notified = true)
    (e : Event) : (s.step e).owner.notified = true := by
  cases e with
  | runner => exact (publishRunner_owner s).symm ▸ notified
  | spuriousWakeup => exact s.notifyAll_frame.1.symm ▸ notified
  | update locked =>
      simp only [step]
      split
      · rename_i called
        rw [called.1] at notified
        cases notified
      · exact notified
  | destroy =>
      simp only [step]
      split
      · rename_i idle
        rw [idle] at notified
        cases notified
      · exact notified
  | owner values =>
      rcases Owner.notified_iff.1 notified with here | here
      · simp only [step, ownerAction, here]
        split
        · rfl
        · exact notified
      · simp only [step, ownerAction, here]
        rfl

theorem quiet_of_notified {s : FrankaRobotStateBroadcaster} (notified : s.owner.notified = true)
    (es : List Event) : Along step (fun s e => ¬ Notifies s e) s es := by
  induction es generalizing s with
  | nil => trivial
  | cons e es ih =>
      refine ⟨?_, ih (step_notified notified e)⟩
      rintro ⟨_, here | here⟩ <;> rw [here] at notified <;> cases notified

theorem timely_of_notified {s : FrankaRobotStateBroadcaster} (notified : s.owner.notified = true)
    (e : Event) : Timely s e := by
  intro _ here
  rw [here] at notified
  cases notified

end FrankaRobotStateBroadcaster

/-- The turns the thread still needs to return, when it has been told to end. -/
def Runner.turnsLeft : Runner → Nat
  | .lock => 8
  | .relock => 8
  | .readPublishNow => 7
  | .readRunning => 6
  | .bodyCheck => 5
  | .publish => 4
  | .clear => 3
  | .unlock => 2
  | .loopCheck => 1
  | _ => 0

theorem Runner.turnsLeft_le (r : Runner) : r.turnsLeft ≤ 8 := by
  cases r <;> decide

theorem Runner.exited_of_turnsLeft {r : Runner} (none : r.turnsLeft = 0) (notBlock : r ≠ .block)
    (notBlocked : r ≠ .blocked) : r = .exited := by
  cases r <;> simp_all [turnsLeft]

namespace FrankaRobotStateBroadcaster

/-- Nobody but the thread holds the mutex while the owner waits for it. -/
theorem Sound.mutex_free {s : FrankaRobotStateBroadcaster} (sound : Sound s)
    (outside : s.owner ≠ .fill) (released : s.runner.holds = false) : s.publishMutex = none := by
  cases held : s.publishMutex with
  | none => rfl
  | some thread =>
      cases thread with
      | runner => simp [sound.runnerHolds.1 held] at released
      | owner => exact absurd (sound.ownerHolds.1 held) outside

/-- Every turn of the thread brings it closer to its end. -/
theorem publishRunner_turnsLeft {s : FrankaRobotStateBroadcaster} (sound : Sound s)
    (notified : s.owner.notified = true) :
    s.publishRunner.runner.turnsLeft ≤ s.runner.turnsLeft - 1 := by
  have cleared := sound.running.2 (Owner.ending_of_notified notified)
  have outside : s.owner ≠ .fill := by
    intro here
    rw [here] at notified
    cases notified
  have free := sound.mutex_free outside
  obtain ⟨notBlock, notBlocked⟩ := sound.awake notified
  cases pc : s.runner <;> rw [pc] at free notBlock notBlocked <;>
    simp only [publishRunner, pc] <;> grind [Runner.turnsLeft, Runner.holds]

theorem step_turnsLeft {s : FrankaRobotStateBroadcaster} (sound : Sound s)
    (notified : s.owner.notified = true) (e : Event) :
    (s.step e).runner.turnsLeft ≤ s.runner.turnsLeft - [e].count .runner := by
  cases e with
  | runner => exact publishRunner_turnsLeft sound notified
  | spuriousWakeup =>
      have notBlocked := (sound.awake notified).2
      simp [step, notifyAll, notBlocked]
  | update locked =>
      simp only [step]
      split <;> simp
  | destroy =>
      simp only [step]
      split <;> simp
  | owner values =>
      rcases Owner.notified_iff.1 notified with here | here
      · simp only [step, ownerAction, here]
        split <;> simp
      · simp [step, ownerAction, here]

theorem run_turnsLeft {s : FrankaRobotStateBroadcaster} (sound : Sound s)
    (notified : s.owner.notified = true) (es : List Event) :
    Sound (run step s es) ∧ (run step s es).owner.notified = true ∧
      (run step s es).runner.turnsLeft ≤ s.runner.turnsLeft - es.count .runner := by
  induction es generalizing s with
  | nil => exact ⟨sound, notified, by simp⟩
  | cons e es ih =>
      obtain ⟨sound', notified', left⟩ :=
        ih (step_sound s e (timely_of_notified notified e) sound) (step_notified notified e)
      refine ⟨sound', notified', ?_⟩
      have first := step_turnsLeft sound notified e
      rw [run_cons, ← List.singleton_append, List.count_append]
      omega

theorem Sound.joins {s : FrankaRobotStateBroadcaster} (sound : Sound s) : Joins s := by
  intro here es turns
  obtain ⟨sound', notified, left⟩ := run_turnsLeft sound (by rw [here]; rfl) es
  have bound := s.runner.turnsLeft_le
  obtain ⟨notBlock, notBlocked⟩ := sound'.awake notified
  have returned := Runner.exited_of_turnsLeft (by omega) notBlock notBlocked
  rw [run_append, run_cons, run_nil]
  rcases Owner.notified_iff.1 notified with there | there
  · simp [step, ownerAction, there, returned]
  · simp [step, ownerAction, there]

/-! ## The thread is not left behind -/

/-- A thread that waits before the last notification can still be notified. -/
theorem Sound.not_stranded {s : FrankaRobotStateBroadcaster} (sound : Sound s) : ¬ Stranded s := by
  rintro ⟨blocked, _, quiet⟩
  cases here : s.owner with
  | idle =>
      have last := (quiet [.destroy, .owner true, .owner true]).2.2.1
      exact last ⟨⟨true, rfl⟩, by simp [step, ownerAction, here]⟩
  | lock =>
      have free := sound.mutex_free (by simp [here]) (by simp [blocked, Runner.holds])
      have last := (quiet [.owner true, .owner true, .owner true, .owner true]).2.2.2.1
      exact last ⟨⟨true, rfl⟩, by simp [step, ownerAction, here, free]⟩
  | fill =>
      have last := (quiet [.owner true, .owner true, .owner true]).2.2.1
      exact last ⟨⟨true, rfl⟩, by simp [step, ownerAction, here]⟩
  | setPublishNow =>
      have last := (quiet [.owner true, .owner true]).2.1
      exact last ⟨⟨true, rfl⟩, by simp [step, ownerAction, here]⟩
  | notify => exact (quiet [.owner true]).1 ⟨⟨true, rfl⟩, .inl here⟩
  | clearRunning =>
      have last := (quiet [.owner true, .owner true]).2.1
      exact last ⟨⟨true, rfl⟩, by simp [step, ownerAction, here]⟩
  | notifyLast => exact (quiet [.owner true]).1 ⟨⟨true, rfl⟩, .inr here⟩
  | join => exact (sound.awake (by simp [here, Owner.notified])).2 blocked
  | destroyed => exact (sound.awake (by simp [here, Owner.notified])).2 blocked

/-- The thread that the last notification passes in the window is stranded. -/
theorem stranded_of_untimely {s : FrankaRobotStateBroadcaster} (sound : Sound s)
    (here : s.owner = .notifyLast) (window : s.runner = .block) (values : Bool) :
    Stranded (run step s [.owner values, .runner]) := by
  have cleared := sound.running.2 (by simp [here, Owner.ending])
  refine ⟨?_, .inr ?_, quiet_of_notified ?_⟩
  · simp [step, ownerAction, here, notifyAll, window, publishRunner]
  · simp [step, ownerAction, here, notifyAll, window, publishRunner, cleared]
  · simp [step, ownerAction, here, notifyAll, window, publishRunner, Owner.notified]

/-- In a run in which the destructor's notification does not fall into the window, the
thread is never left waiting for good, and a join that has begun can always complete. -/
theorem no_lost_wakeup {es : List Event} (timely : Along step Timely constructed es) :
    Throughout step (fun s => ¬ Stranded s ∧ Joins s) constructed es := by
  have sound := Along.throughout step step_sound timely constructed_sound
  exact Throughout.mono step (fun s sound => ⟨sound.not_stranded, sound.joins⟩) sound

/-- An update is published and the object destroyed while the thread waits for the next. -/
theorem no_lost_wakeup_published :
    Throughout step (fun s => ¬ Stranded s ∧ Joins s) constructed
      ([.runner, .runner, .runner, .runner, .runner, .update true] ++
        [.owner true, .owner true, .owner true, .owner true] ++
        [.runner, .runner, .runner, .runner, .runner, .runner, .runner, .runner, .runner, .runner] ++
        [.runner, .destroy, .owner true, .owner true]) :=
  no_lost_wakeup (by
    simp [constructed, Timely, step, publishRunner, ownerAction, notifyAll])

/-- The destructor runs between the thread's last look at the flags and its blocking. -/
theorem lost_wakeup_in_window :
    ¬ Throughout step (fun s => ¬ Stranded s) constructed
      [.runner, .runner, .runner, .runner, .destroy, .owner true, .owner true, .runner] := by
  intro throughout
  apply Throughout.last step throughout
  exact ⟨by decide, by decide, quiet_of_notified (by decide)⟩

/-! ## Updates -/

/-- No notification, of an update or the last, falls between the thread's reading of the
flag it is about and its blocking. -/
def Prompt (s : FrankaRobotStateBroadcaster) (e : Event) : Prop :=
  (∃ values, e = .owner values) →
    (s.owner = .notify → s.runner ≠ .readRunning ∧ s.runner ≠ .block) ∧
      (s.owner = .notifyLast → s.runner ≠ .block)

/-- A flag that the thread will not look at before it waits is about to be notified. -/
structure Pending (s : FrankaRobotStateBroadcaster) : Prop where
  update : s.publishNow = true →
    s.runner = .readRunning ∨ s.runner = .block ∨ s.runner = .blocked → s.owner = .notify
  last : s.isPublishThreadRunning = false →
    s.runner = .block ∨ s.runner = .blocked → s.owner = .notifyLast

theorem publishRunner_pending {s : FrankaRobotStateBroadcaster} (pending : Pending s) :
    Pending s.publishRunner := by
  obtain ⟨update, last⟩ := pending
  refine ⟨?_, ?_⟩
  · rw [publishRunner_owner]
    cases pc : s.runner <;> simp only [publishRunner, pc] at update ⊢ <;> grind
  · rw [publishRunner_owner, publishRunner_running]
    cases pc : s.runner <;> simp only [publishRunner, pc] at last ⊢ <;> grind

/-- Behind a notification outside the window nothing is pending. -/
theorem notifyAll_pending {s : FrankaRobotStateBroadcaster} (o : Owner)
    (update : s.publishNow = true → s.runner ≠ .readRunning ∧ s.runner ≠ .block)
    (last : s.isPublishThreadRunning = false → s.runner ≠ .block) :
    Pending { s.notifyAll with owner := o } := by
  obtain ⟨-, -, running, publishNow, -⟩ := s.notifyAll_frame
  have woken := s.notifyAll_not_blocked
  refine ⟨fun flag there => ?_, fun flag there => ?_⟩
  · simp only [publishNow] at flag
    obtain ⟨notReading, notBlock⟩ := update flag
    have notReading' : s.notifyAll.runner ≠ .readRunning := by
      unfold notifyAll
      split
      · simp
      · exact notReading
    rcases there with reading | block | blocked
    · exact absurd reading notReading'
    · exact absurd block (woken.2 notBlock)
    · exact absurd blocked woken.1
  · simp only [running] at flag
    rcases there with block | blocked
    · exact absurd block (woken.2 (last flag))
    · exact absurd blocked woken.1

/-- While nothing is pending the owner may go on to any action that is no store. -/
theorem Pending.owner {s : FrankaRobotStateBroadcaster} (pending : Pending s) {o : Owner}
    (elsewhere : s.owner ≠ .notify ∧ s.owner ≠ .notifyLast) : Pending { s with owner := o } :=
  ⟨fun flag there => absurd (pending.update flag there) elsewhere.1,
    fun flag there => absurd (pending.last flag there) elsewhere.2⟩

theorem ownerAction_pending {s : FrankaRobotStateBroadcaster} (pending : Pending s)
    (values : Bool) (prompt : Prompt s (.owner values)) : Pending (s.ownerAction values) := by
  obtain ⟨notify, notifyLast⟩ := prompt ⟨values, rfl⟩
  unfold ownerAction
  split
  · exact pending
  · rename_i here
    split
    · exact ⟨fun flag there => absurd (pending.update flag there) (by simp [here]),
        fun flag there => absurd (pending.last flag there) (by simp [here])⟩
    · exact pending
  · rename_i here
    exact ⟨fun flag there => absurd (pending.update flag there) (by simp [here]),
      fun flag there => absurd (pending.last flag there) (by simp [here])⟩
  · rename_i here
    exact ⟨fun _ _ => rfl, fun flag there => absurd (pending.last flag there) (by simp [here])⟩
  · rename_i here
    apply notifyAll_pending
    · exact fun _ => notify here
    · exact fun _ => (notify here).2
  · rename_i here
    exact ⟨fun flag there => absurd (pending.update flag there) (by simp [here]), fun _ _ => rfl⟩
  · rename_i here
    apply notifyAll_pending
    · intro flag
      refine ⟨fun reading => ?_, notifyLast here⟩
      have := pending.update flag (.inl reading)
      simp [here] at this
    · exact fun _ => notifyLast here
  · rename_i here
    split
    · exact pending.owner (by simp [here])
    · exact pending
  · exact pending

theorem step_pending (s : FrankaRobotStateBroadcaster) (e : Event) (prompt : Prompt s e)
    (pending : Pending s) : Pending (s.step e) := by
  cases e with
  | runner => exact publishRunner_pending pending
  | spuriousWakeup =>
      simp only [step, notifyAll]
      split
      · exact ⟨by simp, by simp⟩
      · exact pending
  | update locked =>
      simp only [step]
      split
      · rename_i called
        exact pending.owner (by simp [called.1])
      · exact pending
  | destroy =>
      simp only [step]
      split
      · rename_i idle
        exact pending.owner (by simp [idle])
      · exact pending
  | owner values => exact ownerAction_pending pending values prompt

/-- In a run without a notification in the window, a thread that waits although its
predicate holds is about to be notified. -/
theorem waiting_pending {es : List Event} (prompt : Along step Prompt constructed es) :
    Throughout step (fun s => s.runner = .blocked →
      (s.publishNow = true → s.owner = .notify) ∧
        (s.isPublishThreadRunning = false → s.owner = .notifyLast)) constructed es := by
  have start : Pending constructed := ⟨by decide, by decide⟩
  have pending := Along.throughout step step_pending prompt start
  refine Throughout.mono step (fun s pending blocked => ⟨fun flag => ?_, fun flag => ?_⟩) pending
  · exact pending.update flag (.inr (.inr blocked))
  · exact pending.last flag (.inr blocked)

end FrankaRobotStateBroadcaster

end FrankaRos.StateBroadcaster
