import CodexServer.Polling

/-!
# Who polls

A mode's fields name the tasks it has alive: either one that waits for the lock, or one that polls and
one that renews. A token is given up before polling is told to end, so polling that goes on has the
mode's own. Polling that ends unasked leaves an owner that renews the lock and does not poll, and a
command without an answer may leave a lock that nobody knows of.
-/

namespace CodexServer.Polling

open Transition (run RunAllowed)

variable {stopReturns : PollingMode → Bool} {mode next : PollingMode} {id other token : Nat}
  {task : Task} {ids : List Nat}

/-! ### An owner polls -/

inductive Role
  | polling | renew | wait
deriving DecidableEq

def Job.role : Job → Role
  | .polling _ => .polling
  | .renewSleep | .renewEval _ | .lockLost => .renew
  | .waitSleep | .waitAcquire _ => .wait

/-- An owner polls, unless it is being stopped. -/
def Polls (mode : PollingMode) : Prop :=
  mode.isOwner = true → mode.stopping = false →
    ∃ id token, mode.tasks id = some ⟨.polling token, false⟩

/-- A stopped mode has no token in the lock. -/
def Released (mode : PollingMode) : Prop :=
  mode.caller = .idle → ∀ token, mode.key ≠ some (.mine token)

structure Owned (mode : PollingMode) : Prop where
  /-- Polling that has not been told to end has a token that was acquired and not lost. -/
  launched : ∀ {id token}, mode.tasks id = some ⟨.polling token, false⟩ →
    token ∈ mode.acquired ∧ token ∉ mode.lost
  polls : Polls mode
  /-- Waiting and the rest exclude each other. -/
  apart : ∀ {id other task otherTask}, mode.tasks id = some task →
    mode.tasks other = some otherTask → (task.job.role = .wait ↔ otherTask.job.role = .wait)
  alone : ∀ {id other task otherTask}, mode.tasks id = some task →
    mode.tasks other = some otherTask → task.job.role = otherTask.job.role → id = other
  stopped : mode.caller = .idle → ∀ id, mode.tasks id = none
  released : Released mode

/-! ### The invariant -/

def PollingMode.taskOf (mode : PollingMode) : Role → Option Nat
  | .polling => mode.pollingTask
  | .renew => mode.lockRenewTask
  | .wait => mode.lockWaitTask

/-- While `stop` awaits a task, the others are still to be awaited, and what could create a task has
been cancelled. Before and after, there is none. -/
def CallerSound (mode : PollingMode) : Prop :=
  match mode.caller with
  | .started => True
  | .awaiting id rest => ∀ other task, mode.tasks other = some task →
      other ∈ id :: rest ∧ (task.job.role ≠ .polling → task.told = true)
  | .idle | .starting _ | .stoppingPolling | .releasing _ => ∀ other, mode.tasks other = none

/-- Fields that name different tasks. -/
structure Fields (taskOf : Role → Option Nat) (nextTask : Nat) : Prop where
  below : ∀ {role id}, taskOf role = some id → id < nextTask
  distinct : ∀ {role other id}, taskOf role = some id → taskOf other = some id → role = other

structure Sound (mode : PollingMode) : Prop where
  fields : Fields mode.taskOf mode.nextTask
  field : ∀ {id task}, mode.tasks id = some task → mode.taskOf task.job.role = some id
  apart : ∀ {id other task otherTask}, mode.tasks id = some task →
    mode.tasks other = some otherTask → (task.job.role = .wait ↔ otherTask.job.role = .wait)
  caller : CallerSound mode

/-- A token that an `_acquire_lock` has sent. -/
def Pending (mode : PollingMode) (token : Nat) : Prop :=
  mode.caller = .starting token ∨ ∃ id told, mode.tasks id = some ⟨.waitAcquire token, told⟩

/-- There is no token then. -/
def Caller.free : Caller → Bool
  | .idle | .starting _ | .releasing _ => true
  | .started | .awaiting .. | .stoppingPolling => false

structure Tokens (mode : PollingMode) : Prop where
  own : ∀ {token}, mode.lockToken = some token →
    token ∈ mode.acquired ∧ token ∉ mode.lost ∧ token < mode.nextToken
  lost : ∀ {token}, token ∈ mode.lost → token < mode.nextToken
  renewed : ∀ {id token told}, mode.tasks id = some ⟨.renewEval token, told⟩ →
    token < mode.nextToken
  pending : ∀ {token}, Pending mode token → token < mode.nextToken ∧ token ∉ mode.lost
  launched : ∀ {id token}, mode.tasks id = some ⟨.polling token, false⟩ →
    mode.lockToken = some token
  free : mode.caller.free = true → mode.lockToken = none

theorem Sound.alone (h : Sound mode) {otherTask : Task} (htask : mode.tasks id = some task)
    (hother : mode.tasks other = some otherTask) (hrole : task.job.role = otherTask.job.role) :
    id = other := by
  have hfield := h.field htask
  rw [hrole, h.field hother] at hfield
  exact (Option.some.inj hfield).symm

theorem Sound.fresh (h : Sound mode) (hid : mode.nextTask ≤ id) : mode.tasks id = none := by
  by_contra hsome
  obtain ⟨task, htask⟩ := Option.ne_none_iff_exists'.mp hsome
  exact absurd (h.fields.below (h.field htask)) (not_lt.mpr hid)

theorem Sound.started (h : Sound mode) {job : Job} (htask : mode.tasks id = some ⟨job, false⟩)
    (hrole : job.role ≠ .polling) : mode.caller = .started := by
  have hcaller := h.caller
  unfold CallerSound at hcaller
  cases hphase : mode.caller with
  | started => rfl
  | awaiting id rest =>
      rw [hphase] at hcaller
      cases (hcaller _ _ htask).2 hrole
  | idle | starting | stoppingPolling | releasing =>
      rw [hphase] at hcaller
      cases htask.symm.trans (hcaller id)

theorem owned_iff (h : Sound mode) (htokens : Tokens mode) :
    Owned mode ↔ Polls mode ∧ Released mode := by
  constructor
  · exact fun howned => ⟨howned.polls, howned.released⟩
  · rintro ⟨hpolls, hreleased⟩
    refine ⟨fun htask => ?_, hpolls, h.apart, h.alone, fun hidle id => ?_, hreleased⟩
    · have hown := htokens.own (htokens.launched htask)
      exact ⟨hown.1, hown.2.1⟩
    · have hcaller := h.caller
      rw [CallerSound, hidle] at hcaller
      exact hcaller id

theorem fields_start : Fields ({} : PollingMode).taskOf 0 where
  below {role id} h := by cases role <;> cases h
  distinct {role other id} h := by cases role <;> cases h

theorem sound_start : Sound {} where
  fields := fields_start
  field h := by cases h
  apart h := by cases h
  caller _ := rfl

theorem tokens_start : Tokens {} where
  own h := by cases h
  lost h := by cases h
  renewed h := by cases h
  pending h := by rcases h with h | ⟨id, told, h⟩ <;> cases h
  launched h := by cases h
  free _ := rfl

/-! ### The tasks -/

theorem tasks_setTask (task : Option Task) :
    (mode.setTask id task).tasks = Function.update mode.tasks id task := rfl

/-- No task is new, and none is told otherwise. -/
def Fewer (mode next : PollingMode) : Prop :=
  ∀ id task, next.tasks id = some task → ∃ before, mode.tasks id = some before ∧
    task.job.role = before.job.role ∧ (before.told = true → task.told = true)

theorem Fewer.refl (htasks : next.tasks = mode.tasks) : Fewer mode next := by
  intro id task htask
  rw [htasks] at htask
  exact ⟨task, htask, rfl, fun htold => htold⟩

theorem fewer_setTask {job : Job} {told : Bool} (htask : mode.tasks id = some task)
    (hrole : job.role = task.job.role) (htold : task.told = true → told = true) :
    Fewer mode (mode.setTask id (some ⟨job, told⟩)) := by
  intro other found hfound
  simp only [PollingMode.setTask, Function.update_apply] at hfound
  split at hfound
  · next heq =>
      subst heq
      cases hfound
      exact ⟨task, htask, hrole, htold⟩
  · exact ⟨found, hfound, rfl, fun htold => htold⟩

theorem fewer_ends (id : Nat) : Fewer mode (mode.setTask id none) := by
  intro other found hfound
  simp only [PollingMode.setTask, Function.update_apply] at hfound
  split at hfound
  · cases hfound
  · exact ⟨found, hfound, rfl, fun htold => htold⟩

theorem fewer_signalStop : Fewer mode mode.signalStop := by
  intro other found hfound
  obtain ⟨task, htask, rfl⟩ := Option.map_eq_some_iff.mp hfound
  refine ⟨task, htask, ?_, ?_⟩ <;> split <;> simp_all

theorem Fewer.trans {last : PollingMode} (h : Fewer mode next) (hlast : Fewer next last) :
    Fewer mode last := by
  intro id task htask
  obtain ⟨middle, hmiddle, hrole, htold⟩ := hlast id task htask
  obtain ⟨before, hbefore, hrole', htold'⟩ := h id middle hmiddle
  exact ⟨before, hbefore, hrole.trans hrole', fun hyes => htold (htold' hyes)⟩

theorem Sound.fewer (h : Sound mode) (hfewer : Fewer mode next)
    (hfields : next.taskOf = mode.taskOf) (hnext : next.nextTask = mode.nextTask)
    (hcaller : next.caller = mode.caller) : Sound next where
  fields := by
    rw [hfields, hnext]
    exact h.fields
  field {id task} htask := by
    obtain ⟨before, hbefore, hrole, -⟩ := hfewer id task htask
    rw [hfields, hrole]
    exact h.field hbefore
  apart {id other task otherTask} htask hother := by
    obtain ⟨before, hbefore, hrole, -⟩ := hfewer id task htask
    obtain ⟨otherBefore, hotherBefore, hotherRole, -⟩ := hfewer other otherTask hother
    rw [hrole, hotherRole]
    exact h.apart hbefore hotherBefore
  caller := by
    have hbefore := h.caller
    have hempty (hnone : ∀ other, mode.tasks other = none) (other : Nat) :
        next.tasks other = none := by
      by_contra hsome
      obtain ⟨task, htask⟩ := Option.ne_none_iff_exists'.mp hsome
      obtain ⟨before, hfound, -⟩ := hfewer other task htask
      cases hfound.symm.trans (hnone other)
    unfold CallerSound at hbefore ⊢
    rw [hcaller]
    cases hphase : mode.caller with
    | started => trivial
    | awaiting id rest =>
        rw [hphase] at hbefore
        intro other task htask
        obtain ⟨before, hfound, hrole, htold⟩ := hfewer other task htask
        refine ⟨(hbefore other before hfound).1, fun hne => ?_⟩
        exact htold ((hbefore other before hfound).2 (hrole ▸ hne))
    | idle | starting | stoppingPolling | releasing =>
        rw [hphase] at hbefore
        exact hempty hbefore

theorem Fields.update {taskOf : Role → Option Nat} {nextTask : Nat} (h : Fields taskOf nextTask)
    (role : Role) :
    Fields (Function.update taskOf role (some nextTask)) (nextTask + 1) where
  below {found id} hfound := by
    simp only [Function.update_apply] at hfound
    split at hfound
    · cases hfound
      exact Nat.lt_succ_self _
    · exact Nat.lt_succ_of_lt (h.below hfound)
  distinct {found other id} hfound hother := by
    simp only [Function.update_apply] at hfound hother
    split at hfound <;> split at hother
    · next hrole hrole' => rw [hrole, hrole']
    · cases hfound
      exact absurd (h.below hother) (lt_irrefl _)
    · cases hother
      exact absurd (h.below hfound) (lt_irrefl _)
    · exact h.distinct hfound hother

theorem taskOf_createWait :
    mode.createWait.taskOf = Function.update mode.taskOf .wait (some mode.nextTask) := by
  funext role
  cases role <;> rfl

theorem taskOf_launch : (mode.launch token).taskOf =
    Function.update (Function.update mode.taskOf .polling (some mode.nextTask)) .renew
      (some (mode.nextTask + 1)) := by
  funext role
  cases role <;> rfl

theorem sound_createWait (hfields : Fields mode.taskOf mode.nextTask)
    (hempty : ∀ other, mode.tasks other = none) (hcaller : mode.caller = .started) :
    Sound mode.createWait := by
  have htasks {id : Nat} {task : Task} (htask : mode.createWait.tasks id = some task) :
      id = mode.nextTask ∧ task = { job := .waitSleep } := by
    simp only [PollingMode.createWait, Function.update_apply] at htask
    split at htask
    · next heq => exact ⟨heq, (Option.some.inj htask).symm⟩
    · cases htask.symm.trans (hempty id)
  refine ⟨?_, ?_, ?_, ?_⟩
  · rw [taskOf_createWait]
    exact hfields.update .wait
  · intro id task htask
    obtain ⟨rfl, rfl⟩ := htasks htask
    rfl
  · intro id other task otherTask htask hother
    rw [(htasks htask).2, (htasks hother).2]
  · unfold CallerSound
    rw [show mode.createWait.caller = .started from hcaller]
    trivial

theorem launch_tasks (hempty : ∀ other, mode.tasks other = none)
    (htask : (mode.launch token).tasks id = some task) :
    (id = mode.nextTask ∧ task = { job := .polling token }) ∨
      (id = mode.nextTask + 1 ∧ task = { job := .renewSleep }) := by
  simp only [PollingMode.launch, Function.update_apply] at htask
  split at htask
  · next heq => exact .inr ⟨heq, (Option.some.inj htask).symm⟩
  · split at htask
    · next heq => exact .inl ⟨heq, (Option.some.inj htask).symm⟩
    · cases htask.symm.trans (hempty id)

theorem sound_launch (hfields : Fields mode.taskOf mode.nextTask)
    (hempty : ∀ other, mode.tasks other = none) (hcaller : mode.caller = .started) :
    Sound (mode.launch token) := by
  refine ⟨?_, ?_, ?_, ?_⟩
  · rw [taskOf_launch]
    exact (hfields.update .polling).update .renew
  · intro id task htask
    rcases launch_tasks hempty htask with ⟨rfl, rfl⟩ | ⟨rfl, rfl⟩ <;> rfl
  · intro id other task otherTask htask hother
    rcases launch_tasks hempty htask with ⟨-, rfl⟩ | ⟨-, rfl⟩ <;>
      rcases launch_tasks hempty hother with ⟨-, rfl⟩ | ⟨-, rfl⟩ <;> simp [Job.role]
  · unfold CallerSound
    rw [show (mode.launch token).caller = .started from hcaller]
    trivial

/-- Whoever `stop` still has to cancel: who could create a task is told, or is the next. -/
theorem sound_cancelNext (h : Sound mode)
    (halive : ∀ other task, mode.tasks other = some task → other ∈ ids)
    (hfirst : ∀ other task, mode.tasks other = some task → task.job.role ≠ .polling →
      task.told = true ∨ (ids.dropWhile fun id => (mode.tasks id).isNone).head? = some other) :
    Sound (mode.cancelNext ids) := by
  have hleft {other : Nat} {task : Task} (htask : mode.tasks other = some task) :
      other ∈ ids.dropWhile fun id => (mode.tasks id).isNone := by
    have hmem := halive other task htask
    rw [← List.takeWhile_append_dropWhile (p := fun id => (mode.tasks id).isNone) (l := ids),
      List.mem_append] at hmem
    refine hmem.resolve_left fun htake => ?_
    have hnone := List.all_eq_true.mp List.all_takeWhile other htake
    simp [htask] at hnone
  unfold PollingMode.cancelNext
  split
  · next id rest hdrop =>
      have hfewer : Fewer mode (mode.setTask id
          ((mode.tasks id).map fun task => { task with told := true })) := by
        cases htask : mode.tasks id with
        | none => exact fewer_ends id
        | some task => exact fewer_setTask htask rfl fun _ => rfl
      have hsound := h.fewer hfewer rfl rfl rfl
      refine ⟨hsound.fields, hsound.field, hsound.apart, ?_⟩
      intro other task htask
      obtain ⟨before, hbefore, hrole, htold⟩ := hfewer other task htask
      refine ⟨hdrop ▸ hleft hbefore, fun hne => ?_⟩
      rcases hfirst other before hbefore (hrole ▸ hne) with hyes | hhead
      · exact htold hyes
      · rw [hdrop] at hhead
        cases hhead
        change Function.update mode.tasks id _ id = some task at htask
        rw [Function.update_self, hbefore] at htask
        cases htask
        rfl
  · next hdrop =>
      have hempty (other : Nat) : mode.tasks other = none := by
        by_contra hsome
        obtain ⟨task, htask⟩ := Option.ne_none_iff_exists'.mp hsome
        have hmem := hleft htask
        rw [hdrop] at hmem
        cases hmem
      have hnone (other : Nat) : mode.signalStop.tasks other = none := by
        simp [PollingMode.signalStop, hempty]
      refine ⟨⟨?_, ?_⟩, ?_, ?_, hnone⟩
      · intro role id hrole
        cases role <;> cases hrole
      · intro role other id hrole
        cases role <;> cases hrole
      · intro id task htask
        cases htask.symm.trans (hnone id)
      · intro id other task otherTask htask
        cases htask.symm.trans (hnone id)

theorem sound_stop (h : Sound mode) : Sound (mode.cancelNext
    [mode.lockWaitTask, mode.lockRenewTask, mode.pollingTask].reduceOption) := by
  refine sound_cancelNext h (fun other task htask => ?_) (fun other task htask hrole => .inr ?_)
  · have hfield := h.field htask
    rw [List.reduceOption_mem_iff]
    cases hjob : task.job.role <;> rw [hjob] at hfield <;>
      simp only [PollingMode.taskOf] at hfield <;> simp [hfield]
  · have hfield := h.field htask
    cases hjob : task.job.role with
    | polling => exact absurd hjob hrole
    | wait =>
        rw [hjob] at hfield
        change mode.lockWaitTask = some other at hfield
        simp [hfield, htask, List.reduceOption]
    | renew =>
        rw [hjob] at hfield
        change mode.lockRenewTask = some other at hfield
        cases hwait : mode.lockWaitTask with
        | none => simp [hfield, htask, List.reduceOption]
        | some waiting =>
            -- a waiting task would exclude this one
            have hover : mode.tasks waiting = none := by
              by_contra hsome
              obtain ⟨waiter, hwaiter⟩ := Option.ne_none_iff_exists'.mp hsome
              have hrole := h.fields.distinct (h.field hwaiter)
                (show mode.taskOf .wait = some waiting from hwait)
              have hsame := (h.apart hwaiter htask).mp hrole
              rw [hjob] at hsame
              cases hsame
            simp [hfield, htask, hover, List.reduceOption]

theorem sound_resume {rest : List Nat} (h : Sound mode) (hcaller : mode.caller = .awaiting id rest)
    (hover : mode.tasks id = none) : Sound (mode.cancelNext rest) := by
  have hawaited := h.caller
  rw [CallerSound, hcaller] at hawaited
  refine sound_cancelNext h (fun other task htask => ?_) fun other task htask hrole =>
    .inl ((hawaited other task htask).2 hrole)
  rcases List.mem_cons.mp (hawaited other task htask).1 with rfl | hrest
  · cases htask.symm.trans hover
  · exact hrest

/-! ### The tokens -/

/-- A job that a task may go on with. -/
def Issued (mode : PollingMode) : Job → Prop
  | .polling _ => False
  | .renewEval token => token < mode.nextToken
  | .waitAcquire token => token < mode.nextToken ∧ token ∉ mode.lost
  | .renewSleep | .lockLost | .waitSleep => True

/-- What a task has a token from is what it had before, or issued. -/
def SameTokens (mode next : PollingMode) : Prop :=
  ∀ id job told, next.tasks id = some ⟨job, told⟩ → Issued next job ∨
    ∃ before, mode.tasks id = some ⟨job, before⟩ ∧ (before = true → told = true)

theorem Tokens.same (h : Tokens mode) (hsame : SameTokens mode next)
    (hlock : next.lockToken = mode.lockToken) (hacquired : next.acquired = mode.acquired)
    (hlost : next.lost = mode.lost) (hnext : mode.nextToken ≤ next.nextToken)
    (hcaller : next.caller.free = true → next.caller = mode.caller) : Tokens next where
  own hown := by
    rw [hlock] at hown
    rw [hacquired, hlost]
    obtain ⟨hacquired, hkept, hbelow⟩ := h.own hown
    exact ⟨hacquired, hkept, hbelow.trans_le hnext⟩
  lost hgone := by
    rw [hlost] at hgone
    exact (h.lost hgone).trans_le hnext
  renewed {id token told} htask := by
    rcases hsame id _ _ htask with hissued | ⟨before, hbefore, -⟩
    · exact hissued
    · exact (h.renewed hbefore).trans_le hnext
  pending {token} hpending := by
    have hold (hbefore : Pending mode token) : token < next.nextToken ∧ token ∉ next.lost := by
      rw [hlost]
      exact ⟨(h.pending hbefore).1.trans_le hnext, (h.pending hbefore).2⟩
    rcases hpending with hstarting | ⟨id, told, htask⟩
    · rw [hcaller (by rw [hstarting]; rfl)] at hstarting
      exact hold (.inl hstarting)
    · rcases hsame id _ _ htask with hissued | ⟨before, hbefore, -⟩
      · exact hissued
      · exact hold (.inr ⟨id, before, hbefore⟩)
  launched {id token} htask := by
    rcases hsame id _ _ htask with hissued | ⟨before, hbefore, htold⟩
    · cases hissued
    · have hfalse : before = false := by
        cases before with
        | false => rfl
        | true => exact absurd (htold rfl) (by decide)
      rw [hlock]
      exact h.launched (hfalse ▸ hbefore)
  free hphase := by
    rw [hlock]
    rw [hcaller hphase] at hphase
    exact h.free hphase

theorem sameTokens_refl (htasks : next.tasks = mode.tasks) : SameTokens mode next := by
  intro id job told htask
  rw [htasks] at htask
  exact .inr ⟨told, htask, fun htold => htold⟩

theorem sameTokens_ends (id : Nat) : SameTokens mode (mode.setTask id none) := by
  intro other job told htask
  simp only [PollingMode.setTask, Function.update_apply] at htask
  split at htask
  · cases htask
  · exact .inr ⟨told, htask, fun htold => htold⟩

theorem sameTokens_setTask {job : Job} {told : Bool} (hjob : Issued mode job) :
    SameTokens mode (mode.setTask id (some ⟨job, told⟩)) := by
  intro other found told' htask
  simp only [PollingMode.setTask, Function.update_apply] at htask
  split at htask
  · cases htask
    exact .inl hjob
  · exact .inr ⟨told', htask, fun htold => htold⟩

theorem sameTokens_signalStop : SameTokens mode mode.signalStop := by
  intro other job told htask
  obtain ⟨⟨job', told'⟩, hbefore, heq⟩ := Option.map_eq_some_iff.mp htask
  cases job' <;> cases heq <;> exact .inr ⟨_, hbefore, by simp⟩

theorem sameTokens_tell (id : Nat) : SameTokens mode
    (mode.setTask id ((mode.tasks id).map fun task => { task with told := true })) := by
  intro other job told htask
  simp only [PollingMode.setTask, Function.update_apply] at htask
  split at htask
  · next heq =>
      subst heq
      obtain ⟨⟨job', told'⟩, hbefore, heq⟩ := Option.map_eq_some_iff.mp htask
      cases heq
      exact .inr ⟨told', hbefore, fun _ => rfl⟩
  · exact .inr ⟨told, htask, fun htold => htold⟩

theorem sameTokens_cancelNext : SameTokens mode (mode.cancelNext ids) := by
  unfold PollingMode.cancelNext
  split
  · next id rest _ => exact fun other job told htask => sameTokens_tell id other job told htask
  · exact fun other job told htask => sameTokens_signalStop other job told htask

theorem Tokens.cancelNext (h : Tokens mode) : Tokens (mode.cancelNext ids) := by
  refine h.same sameTokens_cancelNext ?_ ?_ ?_ ?_ fun hphase => ?_
  all_goals unfold PollingMode.cancelNext
  any_goals split <;> first | rfl | exact le_rfl
  unfold PollingMode.cancelNext at hphase
  split at hphase <;> cases hphase

theorem stopping_cancelNext : (mode.cancelNext ids).stopping = true := by
  unfold PollingMode.cancelNext
  split <;> rfl

theorem Tokens.createWait (h : Tokens mode) : Tokens mode.createWait := by
  refine h.same (fun id job told htask => ?_) rfl rfl rfl le_rfl fun _ => rfl
  simp only [PollingMode.createWait, Function.update_apply] at htask
  split at htask
  · cases htask
    exact .inl trivial
  · exact .inr ⟨told, htask, fun htold => htold⟩

/-- Polling is launched under the token that has just been acquired. -/
theorem tokens_launch (hempty : ∀ other, mode.tasks other = none)
    (hcaller : mode.caller = .started) (hown : mode.lockToken = some token)
    (hacquired : token ∈ mode.acquired) (htoken : token < mode.nextToken ∧ token ∉ mode.lost)
    (hlost : ∀ gone ∈ mode.lost, gone < mode.nextToken) : Tokens (mode.launch token) where
  own {held} hheld := by
    cases hown.symm.trans hheld
    exact ⟨hacquired, htoken.2, htoken.1⟩
  lost hgone := hlost _ hgone
  renewed htask := by rcases launch_tasks hempty htask with ⟨-, h⟩ | ⟨-, h⟩ <;> cases h
  pending hpending := by
    rcases hpending with hstarting | ⟨id, told, htask⟩
    · cases hcaller.symm.trans hstarting
    · rcases launch_tasks hempty htask with ⟨-, h⟩ | ⟨-, h⟩ <;> cases h
  launched htask := by
    rcases launch_tasks hempty htask with ⟨-, h⟩ | ⟨-, h⟩ <;> cases h
    exact hown
  free hphase := by
    change mode.caller.free = true at hphase
    rw [hcaller] at hphase
    cases hphase

/-! ### Steps -/

/-- At its end `stop` leaves no token in the lock, unless it is one that the worker forgot, or the one
that is released and Redis does not get the command. -/
def Settles (mode : PollingMode) (executed : Bool) : Prop :=
  match mode.caller with
  | .stoppingPolling => mode.lockToken = none → ∀ token, mode.key ≠ some (.mine token)
  | .releasing token => ∀ held, mode.key = some (.mine held) → executed = true ∧ held = token
  | .idle | .starting _ | .started | .awaiting .. => True

def Calm (mode : PollingMode) : Action → Prop
  | .pollingEnds _ => mode.isOwner = true → mode.stopping = true
  | .callerProceeds => Settles mode true
  | .callerFails executed => Settles mode executed
  | _ => True

structure Good (mode next : PollingMode) (calm : Prop) : Prop where
  sound : Sound next
  tokens : Tokens next
  duties : Polls mode → Released mode → (Polls next ∧ Released next ↔ calm)

theorem Good.congr {calm calmer : Prop} (h : Good mode next calm) (hcalm : calm ↔ calmer) :
    Good mode next calmer where
  sound := h.sound
  tokens := h.tokens
  duties hpolls hreleased := (h.duties hpolls hreleased).trans hcalm

theorem Polls.keep (h : Polls mode) (howner : next.isOwner = true → mode.isOwner = true)
    (hstopping : next.stopping = false → mode.stopping = false)
    (htasks : ∀ id token, mode.tasks id = some ⟨.polling token, false⟩ →
      next.tasks id = some ⟨.polling token, false⟩) : Polls next := by
  intro hown hgoes
  obtain ⟨id, token, htask⟩ := h (howner hown) (hstopping hgoes)
  exact ⟨id, token, htasks id token htask⟩

theorem keep_setTask {job : Job} {told : Bool} {task : Option Task}
    (hbefore : mode.tasks id = some ⟨job, told⟩) (hrole : job.role ≠ .polling) (other token : Nat)
    (hother : mode.tasks other = some ⟨.polling token, false⟩) :
    (mode.setTask id task).tasks other = some ⟨.polling token, false⟩ := by
  have hne : other ≠ id := by
    rintro rfl
    cases hbefore.symm.trans hother
    exact hrole rfl
  rw [tasks_setTask, Function.update_of_ne hne]
  exact hother

theorem unanswered_eq (mode : PollingMode) (token : Nat) (executed : Bool) :
    ∃ key, mode.unanswered token executed = { mode with key := key } := by
  cases executed
  · exact ⟨mode.key, rfl⟩
  · exact ⟨_, rfl⟩

theorem Sound.empty (h : Sound mode) {job : Job} (hbefore : mode.tasks id = some ⟨job, false⟩)
    (hrole : job.role = .wait) (other : Nat) : (mode.setTask id none).tasks other = none := by
  simp only [PollingMode.setTask, Function.update_apply]
  split
  · rfl
  · next hne =>
      by_contra hsome
      obtain ⟨task, htask⟩ := Option.ne_none_iff_exists'.mp hsome
      have hwait := (h.apart hbefore htask).mp hrole
      exact hne (h.alone htask hbefore (hwait.trans hrole.symm))

theorem good_quiet (hsound : Sound next) (htokens : Tokens next)
    (hlock : next.lockToken = mode.lockToken) (hcaller : next.caller = mode.caller)
    (htasks : ∀ id token, mode.tasks id = some ⟨.polling token, false⟩ →
      next.tasks id = some ⟨.polling token, false⟩)
    (hkey : mode.caller = .idle → ∀ token, next.key = some (.mine token) →
      mode.key = some (.mine token)) : Good mode next True where
  sound := hsound
  tokens := htokens
  duties hpolls hreleased := by
    refine iff_of_true ⟨hpolls.keep ?_ ?_ htasks, fun hidle token hheld => ?_⟩ trivial
    · unfold PollingMode.isOwner
      rw [hlock]
      exact fun howner => howner
    · unfold PollingMode.stopping
      rw [hcaller]
      exact fun hgoes => hgoes
    · rw [hcaller] at hidle
      exact hreleased hidle token (hkey hidle token hheld)

theorem handleLockLost_tasks {job : Job} {told : Bool}
    (htask : (mode.handleLockLost id token).tasks other = some ⟨job, told⟩)
    (hjob : job ≠ .lockLost) :
    (∃ before, mode.tasks other = some ⟨job, before⟩) ∧ (job.role = .polling → told = true) := by
  obtain ⟨⟨found, before⟩, hfound, heq⟩ := Option.map_eq_some_iff.mp htask
  rw [tasks_setTask, Function.update_apply] at hfound
  split at hfound
  · cases hfound
    cases heq
    exact absurd rfl hjob
  · cases found <;> cases heq <;> exact ⟨⟨_, hfound⟩, by simp [Job.role]⟩

/-- The lock is lost: polling is told so together with the loss of its token. -/
theorem good_handleLockLost (h : Sound mode) (htokens : Tokens mode)
    (hbefore : mode.tasks id = some ⟨.renewEval token, false⟩) :
    Good mode (mode.handleLockLost id token) True := by
  have hstarted := h.started hbefore (by simp [Job.role])
  have hlost : Fewer mode (mode.setTask id (some { job := .lockLost })) :=
    fewer_setTask hbefore rfl fun hno => hno
  have hfewer : Fewer mode (mode.handleLockLost id token) := hlost.trans fewer_signalStop
  refine ⟨h.fewer hfewer rfl rfl rfl, ?_, ?_⟩
  · refine ⟨nofun, fun hgone => ?_, fun htask => ?_, fun hpending => ?_, fun htask => ?_,
      fun _ => rfl⟩
    · rcases List.mem_cons.mp hgone with rfl | hgone
      · exact htokens.renewed hbefore
      · exact htokens.lost hgone
    · obtain ⟨⟨told, hfound⟩, -⟩ := handleLockLost_tasks htask nofun
      exact htokens.renewed hfound
    · rcases hpending with hstarting | ⟨waiting, told, htask⟩
      · cases hstarted.symm.trans hstarting
      · obtain ⟨⟨told, hfound⟩, -⟩ := handleLockLost_tasks htask nofun
        cases (h.apart hfound hbefore).mp rfl
    · cases (handleLockLost_tasks htask nofun).2 rfl
  · intro _ _
    refine iff_of_true ⟨fun howner => ?_, fun hidle => ?_⟩ trivial
    · cases howner
    · cases hstarted.symm.trans hidle

/-- `stop_polling` is back: there is no polling, so there is no task when the wait task is created. -/
theorem good_standBy (h : Sound mode) (htokens : Tokens mode)
    (hbefore : mode.tasks id = some ⟨.lockLost, false⟩)
    (hover : ∀ other token told, mode.tasks other ≠ some ⟨.polling token, told⟩) :
    Good mode (mode.standBy id) True := by
  have hstarted := h.started hbefore (by simp [Job.role])
  have hempty (other : Nat) : (mode.setTask id none).tasks other = none := by
    rw [tasks_setTask, Function.update_apply]
    split
    · rfl
    · next hne =>
        by_contra hsome
        obtain ⟨⟨job, told⟩, htask⟩ := Option.ne_none_iff_exists'.mp hsome
        cases hrole : job.role with
        | wait => cases (h.apart htask hbefore).mp hrole
        | renew => exact hne (h.alone htask hbefore hrole)
        | polling =>
            cases job with
            | polling token => exact hover other token told htask
            | _ => cases hrole
  refine ⟨sound_createWait ⟨?_, ?_⟩ hempty hstarted, ?_, ?_⟩
  · intro role id hrole
    cases role with
    | wait => exact h.fields.below (show mode.taskOf .wait = some id from hrole)
    | polling | renew => cases hrole
  · intro role other id hrole hother
    cases role <;> cases other <;> first | rfl | cases hrole | cases hother
  · have hends : Tokens (mode.setTask id none) :=
      htokens.same (sameTokens_ends id) rfl rfl rfl le_rfl fun _ => rfl
    refine Tokens.createWait (hends.same (sameTokens_refl rfl) rfl rfl rfl le_rfl fun _ => rfl)
  · intro hpolls _
    refine iff_of_true ⟨fun howner _ => ?_, fun hidle => ?_⟩ trivial
    · obtain ⟨polling, token, htask⟩ := hpolls howner (by simp [PollingMode.stopping, hstarted])
      exact absurd htask (hover polling token false)
    · cases hstarted.symm.trans hidle

/-- A task that waits gets the lock, or `start` does. -/
theorem good_launch (mode : PollingMode) {before : PollingMode}
    (hfields : Fields mode.taskOf mode.nextTask) (hempty : ∀ other, mode.tasks other = none)
    (hstarted : mode.caller = .started)
    (htokens : Tokens before) (hpending : Pending before token)
    (hnext : mode.nextToken = before.nextToken) (hlost : mode.lost = before.lost) :
    Good before ((mode.acquire token).launch token) True where
  sound := sound_launch hfields hempty hstarted
  tokens := by
    refine tokens_launch hempty hstarted rfl List.mem_cons_self ?_ fun gone hgone => ?_
    · change token < mode.nextToken ∧ token ∉ mode.lost
      rw [hnext, hlost]
      exact htokens.pending hpending
    · change gone ∈ mode.lost at hgone
      change gone < mode.nextToken
      rw [hlost] at hgone
      rw [hnext]
      exact htokens.lost hgone
  duties _ _ := by
    refine iff_of_true ⟨fun _ _ => ⟨mode.nextTask, token, ?_⟩, fun hidle => ?_⟩ trivial
    · simp [PollingMode.launch, PollingMode.acquire, PollingMode.setLock]
    · cases hstarted.symm.trans hidle

/-- The dispatcher's `stop_polling` is not over before polling is. -/
def StopsPolling (stopReturns : PollingMode → Bool) : Prop :=
  ∀ {mode : PollingMode}, (∀ id, mode.nextTask ≤ id → mode.tasks id = none) →
    stopReturns mode = true → ∀ id token told, mode.tasks id ≠ some ⟨.polling token, told⟩

theorem good_proceed {job : Job} (hstops : StopsPolling stopReturns) (h : Sound mode)
    (htokens : Tokens mode) (hbefore : mode.tasks id = some ⟨job, false⟩)
    (hnext : proceed stopReturns mode id job = some next) : Good mode next True := by
  have hkeeps {after : Option Task} (hrole : job.role ≠ .polling) (other token : Nat)
      (hother : mode.tasks other = some ⟨.polling token, false⟩) :
      (mode.setTask id after).tasks other = some ⟨.polling token, false⟩ :=
    keep_setTask hbefore hrole other token hother
  cases job with
  | polling => cases hnext
  | renewSleep =>
      simp only [proceed] at hnext
      split at hnext <;> cases hnext
      · exact good_quiet (h.fewer (fewer_ends id) rfl rfl rfl)
          (htokens.same (sameTokens_ends id) rfl rfl rfl le_rfl fun _ => rfl) rfl rfl
          (hkeeps (by simp [Job.role])) fun _ _ hheld => hheld
      · next token hlock =>
          exact good_quiet (h.fewer (fewer_setTask hbefore rfl fun hno => hno) rfl rfl rfl)
            (htokens.same (sameTokens_setTask (htokens.own hlock).2.2) rfl rfl rfl le_rfl
              fun _ => rfl) rfl rfl (hkeeps (by simp [Job.role])) fun _ _ hheld => hheld
  | renewEval token =>
      simp only [proceed] at hnext
      split at hnext <;> cases hnext
      · exact good_quiet (h.fewer (fewer_setTask hbefore rfl fun hno => hno) rfl rfl rfl)
          (htokens.same (sameTokens_setTask trivial) rfl rfl rfl le_rfl fun _ => rfl) rfl rfl
          (hkeeps (by simp [Job.role])) fun _ _ hheld => hheld
      · exact good_handleLockLost h htokens hbefore
  | lockLost =>
      simp only [proceed] at hnext
      split at hnext <;> cases hnext
      next hreturns => exact good_standBy h htokens hbefore (hstops (fun _ => h.fresh) hreturns)
  | waitSleep =>
      cases hnext
      have hissued : Issued { mode with nextToken := mode.nextToken + 1 }
          (.waitAcquire mode.nextToken) :=
        ⟨Nat.lt_succ_self _, fun hgone => lt_irrefl _ (htokens.lost hgone)⟩
      exact good_quiet (h.fewer (fewer_setTask hbefore rfl fun hno => hno) rfl rfl rfl)
        (htokens.same (sameTokens_setTask hissued) rfl rfl rfl (Nat.le_succ _) fun _ => rfl) rfl rfl
        (hkeeps (by simp [Job.role])) fun _ _ hheld => hheld
  | waitAcquire token =>
      simp only [proceed] at hnext
      split at hnext <;> cases hnext
      · exact good_launch (mode.setTask id none) h.fields (h.empty hbefore rfl)
          (h.started hbefore (by simp [Job.role])) htokens (.inr ⟨id, false, hbefore⟩) rfl rfl
      · exact good_quiet (h.fewer (fewer_setTask hbefore rfl fun hno => hno) rfl rfl rfl)
          (htokens.same (sameTokens_setTask trivial) rfl rfl rfl le_rfl fun _ => rfl) rfl rfl
          (hkeeps (by simp [Job.role])) fun _ _ hheld => hheld

theorem good_fail {job : Job} {executed : Bool} (h : Sound mode) (htokens : Tokens mode)
    (hbefore : mode.tasks id = some ⟨job, false⟩) (hnext : fail mode id executed job = some next) :
    Good mode next True := by
  cases job with
  | renewEval token =>
      cases hnext
      exact good_handleLockLost h htokens hbefore
  | waitAcquire token =>
      cases hnext
      have hstarted := h.started hbefore (by simp [Job.role])
      obtain ⟨key, hkey⟩ := unanswered_eq mode token executed
      rw [hkey]
      refine good_quiet (h.fewer (fewer_setTask hbefore rfl fun hno => hno) rfl rfl rfl)
        (htokens.same (sameTokens_setTask trivial) rfl rfl rfl le_rfl fun _ => rfl) rfl rfl
        (keep_setTask hbefore (by simp [Job.role])) fun hidle => ?_
      cases hstarted.symm.trans hidle
  | _ => cases hnext

theorem good_cancel {job : Job} {executed : Bool} (h : Sound mode) (htokens : Tokens mode)
    (hbefore : mode.tasks id = some ⟨job, true⟩) (hnext : cancel mode id executed job = some next) :
    Good mode next True := by
  have hends (hrole : job.role ≠ .polling) : Good mode (mode.setTask id none) True :=
    good_quiet (h.fewer (fewer_ends id) rfl rfl rfl)
      (htokens.same (sameTokens_ends id) rfl rfl rfl le_rfl fun _ => rfl) rfl rfl
      (keep_setTask hbefore hrole) fun _ _ hheld => hheld
  cases job with
  | polling => cases hnext
  | waitAcquire token =>
      cases hnext
      obtain ⟨key, hkey⟩ := unanswered_eq mode token executed
      rw [hkey]
      refine good_quiet (h.fewer (fewer_ends id) rfl rfl rfl)
        (htokens.same (sameTokens_ends id) rfl rfl rfl le_rfl fun _ => rfl) rfl rfl
        (keep_setTask hbefore (by simp [Job.role])) fun hidle => ?_
      have hcaller := h.caller
      rw [CallerSound, hidle] at hcaller
      cases hbefore.symm.trans (hcaller id)
  | renewSleep | renewEval | lockLost | waitSleep =>
      cases hnext
      exact hends (by simp [Job.role])

/-- **Polling that ends unasked** leaves an owner that does not poll. -/
theorem good_pollingEnds {told : Bool} (h : Sound mode) (htokens : Tokens mode)
    (hbefore : mode.tasks id = some ⟨.polling token, told⟩) :
    Good mode (mode.setTask id none) (mode.isOwner = true → mode.stopping = true) where
  sound := h.fewer (fewer_ends id) rfl rfl rfl
  tokens := htokens.same (sameTokens_ends id) rfl rfl rfl le_rfl fun _ => rfl
  duties _ hreleased := by
    have hgone (other token : Nat) :
        (mode.setTask id none).tasks other ≠ some ⟨.polling token, false⟩ := by
      intro htask
      rw [tasks_setTask, Function.update_apply] at htask
      split at htask
      · cases htask
      · next hne => exact hne (h.alone htask hbefore rfl)
    constructor
    · rintro ⟨hpolls, -⟩ howner
      by_contra hgoes
      obtain ⟨other, token, htask⟩ :=
        hpolls howner (show mode.stopping = false by simpa using hgoes)
      exact hgone other token htask
    · intro hcalm
      refine ⟨fun howner hgoes => ?_, hreleased⟩
      change mode.stopping = false at hgoes
      cases hgoes.symm.trans (hcalm howner)

theorem good_cancelNext (hsound : Sound (mode.cancelNext ids)) (htokens : Tokens mode) :
    Good mode (mode.cancelNext ids) True where
  sound := hsound
  tokens := htokens.cancelNext
  duties _ _ := by
    refine iff_of_true ⟨fun _ hgoes => ?_, fun hidle => ?_⟩ trivial
    · cases stopping_cancelNext.symm.trans hgoes
    · have hstopping : (mode.cancelNext ids).stopping = true := stopping_cancelNext
      rw [PollingMode.stopping, hidle] at hstopping
      cases hstopping

/-- `stop` is over. -/
theorem good_idle {key : Option Holder} (h : Sound mode) (htokens : Tokens mode)
    (hempty : ∀ other, mode.tasks other = none) (hfree : mode.lockToken = none) :
    Good mode { mode with key := key, caller := .idle } (∀ token, key ≠ some (.mine token)) where
  sound := ⟨h.fields, h.field, h.apart, hempty⟩
  tokens := by
    refine ⟨htokens.own, htokens.lost, htokens.renewed, fun hpending => ?_, htokens.launched,
      fun _ => hfree⟩
    rcases hpending with hstarting | hwaiting
    · cases hstarting
    · exact htokens.pending (.inr hwaiting)
  duties _ _ := by
    refine ⟨fun hduties => hduties.2 rfl, fun hkey => ⟨fun howner => ?_, fun _ => hkey⟩⟩
    change mode.lockToken.isSome = true at howner
    rw [hfree] at howner
    cases howner

/-- `start` has not got the lock. -/
theorem good_startWaits {key : Option Holder} (h : Sound mode) (htokens : Tokens mode)
    (hempty : ∀ other, mode.tasks other = none) (hfree : mode.lockToken = none) :
    Good mode { mode with key := key, caller := .started }.createWait True where
  sound := sound_createWait h.fields hempty rfl
  tokens := by
    refine Tokens.createWait (htokens.same (sameTokens_refl rfl) rfl rfl rfl le_rfl ?_)
    exact fun hphase => by cases hphase
  duties _ _ := by
    refine iff_of_true ⟨fun howner => ?_, fun hidle => by cases hidle⟩ trivial
    change mode.lockToken.isSome = true at howner
    rw [hfree] at howner
    cases howner

theorem good_releaseLock (h : Sound mode) (htokens : Tokens mode)
    (hempty : ∀ other, mode.tasks other = none) :
    Good mode mode.releaseLock
      (mode.lockToken = none → ∀ token, mode.key ≠ some (.mine token)) := by
  unfold PollingMode.releaseLock
  split
  · next hlock =>
      exact (good_idle h htokens hempty hlock).congr ⟨fun hkey _ => hkey, fun hkey => hkey hlock⟩
  · next token hlock =>
      refine ⟨⟨h.fields, h.field, h.apart, hempty⟩, ?_, fun _ _ => ?_⟩
      · refine ⟨nofun, htokens.lost, htokens.renewed, fun hpending => ?_, fun htask => ?_,
          fun _ => rfl⟩
        · rcases hpending with hstarting | hwaiting
          · cases hstarting
          · exact htokens.pending (.inr hwaiting)
        · cases htask.symm.trans (hempty _)
      · refine iff_of_true ⟨nofun, nofun⟩ fun hnone => ?_
        cases hlock.symm.trans hnone

theorem key_deleteLock (token held : Nat) : (mode.deleteLock token).key ≠ some (.mine held) ↔
    (mode.key = some (.mine held) → held = token) := by
  simp only [PollingMode.deleteLock, ne_eq, Option.filter_eq_some_iff, not_and]
  simp

theorem good_callerProceed (h : Sound mode) (htokens : Tokens mode)
    (hnext : callerProceed stopReturns mode mode.caller = some next) :
    Good mode next (Settles mode true) := by
  have hcaller := h.caller
  have hfree := htokens.free
  unfold CallerSound at hcaller
  unfold Settles
  cases hphase : mode.caller with
  | idle | started =>
      rw [hphase] at hnext
      cases hnext
  | starting token =>
      rw [hphase] at hnext hcaller hfree
      simp only [callerProceed] at hnext
      split at hnext <;> cases hnext
      · exact good_launch { mode with caller := .started } h.fields hcaller rfl htokens
          (.inl hphase) rfl rfl
      · exact good_startWaits h htokens hcaller (hfree rfl)
  | awaiting id rest =>
      rw [hphase] at hnext
      simp only [callerProceed] at hnext
      split at hnext <;> cases hnext
      next hover =>
        exact good_cancelNext (sound_resume h hphase (by simpa using hover)) htokens
  | stoppingPolling =>
      rw [hphase] at hnext hcaller
      simp only [callerProceed] at hnext
      split at hnext <;> cases hnext
      exact good_releaseLock h htokens hcaller
  | releasing token =>
      rw [hphase] at hnext hcaller hfree
      cases hnext
      exact (good_idle h htokens hcaller (hfree rfl)).congr
        (forall_congr' fun held => (key_deleteLock token held).trans (by simp))

theorem good_callerFail {executed : Bool} (h : Sound mode) (htokens : Tokens mode)
    (hnext : callerFail mode executed mode.caller = some next) :
    Good mode next (Settles mode executed) := by
  have hcaller := h.caller
  have hfree := htokens.free
  unfold CallerSound at hcaller
  unfold Settles
  cases hphase : mode.caller with
  | idle | started | awaiting | stoppingPolling =>
      rw [hphase] at hnext
      cases hnext
  | starting token =>
      rw [hphase] at hnext hcaller hfree
      cases hnext
      obtain ⟨key, hkey⟩ := unanswered_eq mode token executed
      rw [hkey]
      exact good_startWaits h htokens hcaller (hfree rfl)
  | releasing token =>
      rw [hphase] at hnext hcaller hfree
      cases executed with
      | true =>
          cases hnext
          exact (good_idle h htokens hcaller (hfree rfl)).congr
            (forall_congr' fun held => (key_deleteLock token held).trans (by simp))
      | false =>
          cases hnext
          refine (good_idle h htokens hcaller (hfree rfl)).congr (forall_congr' fun held => ?_)
          simp

/-- **What a step does.** -/
theorem step_good {action : Action} (hstops : StopsPolling stopReturns) (h : Sound mode)
    (htokens : Tokens mode) (hstep : step stopReturns mode action = some next) :
    Good mode next (Calm mode action) := by
  cases action with
  | start =>
      simp only [step] at hstep
      split at hstep <;> cases hstep
      next hidle =>
        have hcaller := h.caller
        rw [CallerSound, hidle] at hcaller
        have hfree := htokens.free (by rw [hidle]; rfl)
        refine ⟨⟨h.fields, h.field, h.apart, hcaller⟩, ?_, fun _ _ => ?_⟩
        · refine ⟨fun hown => ?_, fun hgone => Nat.lt_succ_of_lt (htokens.lost hgone),
            fun htask => ?_, fun hpending => ?_, htokens.launched, fun _ => hfree⟩
          · cases hfree.symm.trans hown
          · cases htask.symm.trans (hcaller _)
          · rcases hpending with hstarting | ⟨id, told, htask⟩
            · cases hstarting
              exact ⟨Nat.lt_succ_self _, fun hgone => lt_irrefl _ (htokens.lost hgone)⟩
            · cases htask.symm.trans (hcaller id)
        · refine iff_of_true ⟨fun howner => ?_, nofun⟩ trivial
          change mode.lockToken.isSome = true at howner
          rw [hfree] at howner
          cases howner
  | stop =>
      simp only [step] at hstep
      split at hstep <;> cases hstep
      exact good_cancelNext (sound_stop h) htokens
  | callerProceeds => exact good_callerProceed h htokens hstep
  | callerFails executed => exact good_callerFail h htokens hstep
  | startCancelled executed =>
      simp only [step] at hstep
      split at hstep <;> cases hstep
      next token hstarting =>
        have hfree := htokens.free (by rw [hstarting]; rfl)
        obtain ⟨key, hkey⟩ := unanswered_eq mode token executed
        rw [hkey]
        refine ⟨⟨h.fields, h.field, h.apart, trivial⟩,
          htokens.same (sameTokens_refl rfl) rfl rfl rfl le_rfl nofun, fun _ _ => ?_⟩
        refine iff_of_true ⟨fun howner => ?_, nofun⟩ trivial
        change mode.lockToken.isSome = true at howner
        rw [hfree] at howner
        cases howner
  | proceeds id =>
      simp only [step] at hstep
      split at hstep
      · next hbefore => exact good_proceed hstops h htokens hbefore hstep
      · cases hstep
  | fails id executed =>
      simp only [step] at hstep
      split at hstep
      · next hbefore => exact good_fail h htokens hbefore hstep
      · cases hstep
  | cancelled id executed =>
      simp only [step] at hstep
      split at hstep
      · next hbefore => exact good_cancel h htokens hbefore hstep
      · cases hstep
  | pollingEnds id =>
      simp only [step] at hstep
      split at hstep <;> cases hstep
      next hbefore => exact good_pollingEnds h htokens hbefore
  | keyExpires =>
      cases hstep
      exact good_quiet (h.fewer (.refl rfl) rfl rfl rfl)
        (htokens.same (sameTokens_refl rfl) rfl rfl rfl le_rfl fun _ => rfl) rfl rfl
        (fun _ _ htask => htask) nofun
  | otherAcquires =>
      cases hstep
      refine good_quiet (h.fewer (.refl rfl) rfl rfl rfl)
        (htokens.same (sameTokens_refl rfl) rfl rfl rfl le_rfl fun _ => rfl) rfl rfl
        (fun _ _ htask => htask) fun _ token hheld => ?_
      cases hkey : mode.key with
      | none => simp [hkey] at hheld
      | some holder => simpa [hkey] using hheld

/-- **Polling ownership.** Every state of a run is as it should be just if polling never ends of itself
while its worker owns the lock, and `stop` never leaves a token in the lock. -/
theorem polling_owned (hstops : StopsPolling stopReturns) {actions : List Action}
    {mode : PollingMode} (hrun : run (step stopReturns) {} actions = some mode) :
    (∀ done middle, done <+: actions → run (step stopReturns) {} done = some middle →
        Owned middle) ↔
      RunAllowed (step stopReturns) Calm {} actions := by
  have hsound {done : List Action} {before : PollingMode}
      (hdone : run (step stopReturns) {} done = some before) : Sound before ∧ Tokens before :=
    (Transition.reach_of_run_all hdone).invariant (fun mode => Sound mode ∧ Tokens mode)
      ⟨sound_start, tokens_start⟩ fun _ _ _ hinv _ hnext =>
        have hgood := step_good hstops hinv.1 hinv.2 hnext
        ⟨hgood.sound, hgood.tokens⟩
  refine Transition.runAllowed_iff ?_ ?_ hrun
  · refine (owned_iff sound_start tokens_start).mpr ⟨nofun, fun _ _ => nofun⟩
  · intro done before action after hdone hbefore hstep
    obtain ⟨h, htokens⟩ := hsound hdone
    have hgood := step_good hstops h htokens hstep
    rw [owned_iff hgood.sound hgood.tokens]
    exact hgood.duties hbefore.polls hbefore.released

/-- No task that was created still polls. -/
def pollingOver (mode : PollingMode) : Bool :=
  (List.range mode.nextTask).all fun id => (mode.tasks id).all fun task => task.job.role ≠ .polling

theorem stopsPolling_pollingOver : StopsPolling pollingOver := by
  intro mode hfresh hover id token told htask
  have hbelow : id < mode.nextTask := by
    by_contra hge
    cases htask.symm.trans (hfresh id (not_lt.mp hge))
  have hrole := List.all_eq_true.mp hover id (List.mem_range.mpr hbelow)
  simp [htask, Job.role] at hrole

/-- The worker polls and loses the lock, waits for it, polls once more, and is stopped. -/
def pollingRun : List Action :=
  [.start, .callerProceeds, .proceeds 1, .keyExpires, .otherAcquires, .proceeds 1,
    .pollingEnds 0, .proceeds 1, .keyExpires, .proceeds 2, .proceeds 2,
    .stop, .cancelled 4 false, .callerProceeds, .pollingEnds 3,
    .callerProceeds, .callerProceeds, .callerProceeds]

theorem polling_owned_executed : ∃ mode, run (step pollingOver) {} pollingRun = some mode ∧
    mode.caller = .idle ∧
    ((∀ done middle, done <+: pollingRun → run (step pollingOver) {} done = some middle →
        Owned middle) ↔
      RunAllowed (step pollingOver) Calm {} pollingRun) := by
  obtain ⟨mode, hrun, hidle⟩ : ∃ mode, run (step pollingOver) {} pollingRun = some mode ∧
      mode.caller = .idle := ⟨_, rfl, rfl⟩
  exact ⟨mode, hrun, hidle, polling_owned stopsPolling_pollingOver hrun⟩

/-- Polling ends with an exception, and the lock is renewed all the same. -/
theorem crashed_owner_renews : ∃ mode,
    run (step pollingOver) {} [.start, .callerProceeds, .pollingEnds 0, .proceeds 1, .proceeds 1] =
      some mode ∧ mode.key = some (.mine 0) ∧ ¬ Owned mode := by
  refine ⟨_, rfl, rfl, fun howned => ?_⟩
  obtain ⟨id, token, htask⟩ := howned.polls rfl rfl
  simp only [PollingMode.launch, PollingMode.acquire, PollingMode.setLock, PollingMode.setTask,
    Function.update_apply] at htask
  split at htask
  · cases htask
  · grind

end CodexServer.Polling
