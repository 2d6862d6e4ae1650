import CodexServer.SessionTasks

/-!
# One session for all callers

A future is live while it is pending or has a session. The live future of a key's current period is
the one in the map, and one that is pending has a creator that is still at work. Both are lost when
a task is cancelled that opens a session or waits for one.
-/

namespace CodexServer.SessionTasks

open Transition (run RunAllowed Reach)

variable {K B : Type} {store : SessionStore K B} {tasks next : Tasks K B}
  {key : K} {id other : Nat}

/-! ### The store, seen through its futures -/

def key? (store : SessionStore K B) (id : Nat) : Option K :=
  (store.attempts[id]?).map SessionAttempt.key

theorem future?_setFuture (future : SessionFuture) (other : Nat) :
    (store.setFuture id future).future? other =
      if other = id then (store.future? id).map fun _ => future else store.future? other := by
  simp only [SessionStore.future?, SessionStore.setFuture, List.getElem?_modify]
  by_cases heq : other = id
  · subst heq
    cases store.attempts[other]? <;> simp
  · have hne : id ≠ other := fun h => heq h.symm
    simp [heq, hne]

@[simp]
theorem key?_setFuture (future : SessionFuture) (other : Nat) :
    key? (store.setFuture id future) other = key? store other := by
  simp only [key?, SessionStore.setFuture, List.getElem?_modify]
  by_cases heq : id = other <;> cases store.attempts[other]? <;> simp [heq]

@[simp]
theorem length_setFuture (future : SessionFuture) :
    (store.setFuture id future).attempts.length = store.attempts.length := by
  simp [SessionStore.setFuture]

theorem key?_of_future {future : SessionFuture} (h : store.future? id = some future) :
    ∃ attempt, store.attempts[id]? = some attempt ∧ attempt.future = future ∧
      key? store id = some attempt.key := by
  obtain ⟨attempt, hattempt, hfuture⟩ := Option.map_eq_some_iff.mp h
  exact ⟨attempt, hattempt, hfuture, by simp [key?, hattempt]⟩

theorem isCached_iff : store.isCached id = true ↔
    ∃ key, key? store id = some key ∧ store.get? key = some id := by
  unfold SessionStore.isCached key?
  cases store.attempts[id]? <;> simp

theorem future?_length : store.future? store.attempts.length = none := by
  simp [SessionStore.future?]

theorem getElem?_concat {α : Type} (entries : List α) (entry : α) (index : Nat) :
    (entries ++ [entry])[index]? = if index = entries.length then some entry else entries[index]? := by
  grind

/-- Pending, or with a session. -/
def live : Option SessionFuture → Bool
  | some .pending | some (.result _) => true
  | some .exception | some .cancelled | none => false

/-! ### The invariant -/

/-- The futures of a key by the periods between its resets. -/
structure StoreSound (tasks : Tasks K B) : Prop where
  length : tasks.periods.length = tasks.store.attempts.length
  entry : ∀ {key id}, tasks.store.get? key = some id → key? tasks.store id = some key ∧
    tasks.periods[id]? = some (tasks.resets key) ∧ live (tasks.store.future? id) = true
  current : ∀ {key id period}, key? tasks.store id = some key →
    live (tasks.store.future? id) = true → tasks.periods[id]? = some period →
    period ≤ tasks.resets key ∧ (period = tasks.resets key → tasks.store.get? key = some id)
  single : ∀ {key id other period}, key? tasks.store id = some key →
    key? tasks.store other = some key → live (tasks.store.future? id) = true →
    live (tasks.store.future? other) = true → tasks.periods[id]? = some period →
    tasks.periods[other]? = some period → id = other
  built : ∀ {id session}, (id, session) ∈ tasks.built →
    tasks.store.future? id = some (.result session)
  once : (tasks.built.map Prod.fst).Nodup

/-- The futures a task is going to await. -/
def held : Task → List Nat
  | .waiting id | .resetting id => [id]
  | .interrupting ids | .cancelling ids => ids
  | .bootstrapping _ | .clearing | .obtained .. | .ended => []

/-- Somebody may still wait for the future. -/
def Wanted (tasks : Tasks K B) (id : Nat) : Prop :=
  tasks.store.isCached id = true ∨ ∃ task ∈ tasks.tasks, id ∈ held task

/-- A future that is waited for has a creator, and who has got a session has that of its future. -/
structure TasksSound (tasks : Tasks K B) : Prop where
  creator : ∀ {id}, tasks.store.future? id = some .pending → Wanted tasks id →
    ∃ index : Nat, tasks.tasks[index]? = some (Task.bootstrapping id)
  running : ∀ {index id : Nat}, tasks.tasks[index]? = some (Task.bootstrapping id) →
    tasks.store.future? id = some .pending
  alone : ∀ {index other id : Nat}, tasks.tasks[index]? = some (Task.bootstrapping id) →
    tasks.tasks[other]? = some (Task.bootstrapping id) → index = other
  obtained : ∀ {index id : Nat} {session : ChatSession},
    tasks.tasks[index]? = some (Task.obtained id session) →
    tasks.store.future? id = some (.result session)

theorem storeSound_start : StoreSound ({} : Tasks K B) where
  length := rfl
  entry h := by cases h
  current h := by cases h
  single h := by cases h
  built h := by cases h
  once := List.nodup_nil

theorem tasksSound_start : TasksSound ({} : Tasks K B) where
  creator h := by cases h
  running h := by cases h
  alone h := by cases h
  obtained h := by cases h

/-! ### What the operations keep -/

theorem StoreSound.congr (h : StoreSound tasks) (hstore : next.store = tasks.store)
    (hresets : next.resets = tasks.resets) (hperiods : next.periods = tasks.periods)
    (hbuilt : next.built = tasks.built) : StoreSound next := by
  constructor <;> simp only [hstore, hresets, hperiods, hbuilt]
  exacts [h.length, h.entry, h.current, h.single, h.built, h.once]

theorem StoreSound.isCached (h : StoreSound tasks) (hget : tasks.store.get? key = some id) :
    tasks.store.isCached id = true := by
  obtain ⟨attempt, hattempt, hkey⟩ := Option.map_eq_some_iff.mp (h.entry hget).1
  simp only [SessionStore.isCached, hattempt, hkey, hget, decide_true]

/-- A slot is claimed as new just if the key has none. -/
theorem StoreSound.claimed (h : StoreSound tasks) (key : K) :
    (tasks.store.get? key = none ∧ tasks.store.claimSlot key = .created tasks.store.attempts.length) ∨
      ∃ id, tasks.store.get? key = some id ∧ tasks.store.claimSlot key = .joined id := by
  unfold SessionStore.claimSlot
  cases hget : tasks.store.get? key with
  | none => exact .inl ⟨rfl, rfl⟩
  | some id =>
      have hlive := (h.entry hget).2.2
      refine .inr ⟨id, rfl, ?_⟩
      cases hfuture : tasks.store.future? id with
      | none => simp [hfuture, live] at hlive
      | some future => cases future <;> simp_all [live]

/-- The creator has opened the session. -/
theorem StoreSound.fulfil (h : StoreSound tasks) (hpending : tasks.store.future? id = some .pending)
    (session : ChatSession) (hstore : next.store = tasks.store.setFuture id (.result session))
    (hresets : next.resets = tasks.resets) (hperiods : next.periods = tasks.periods)
    (hbuilt : next.built = tasks.built ++ [(id, session)]) : StoreSound next := by
  have hfuture : ∀ other, (tasks.store.setFuture id (.result session)).future? other =
      if other = id then some (.result session) else tasks.store.future? other := by
    intro other
    rw [future?_setFuture, hpending, Option.map_some]
  have hlive : ∀ other, live (next.store.future? other) = live (tasks.store.future? other) := by
    intro other
    rw [hstore, hfuture]
    split
    case isTrue heq => simp [heq, hpending, live]
    case isFalse => rfl
  have hget : ∀ other, next.store.get? other = tasks.store.get? other := fun _ => by
    rw [hstore]; rfl
  have hkey : ∀ other, key? next.store other = key? tasks.store other := fun _ => by
    rw [hstore, key?_setFuture]
  constructor
  case length => rw [hperiods, h.length, hstore, length_setFuture]
  case entry =>
    simp only [hlive, hresets, hperiods, hget, hkey]
    exact h.entry
  case current =>
    simp only [hlive, hresets, hperiods, hget, hkey]
    exact h.current
  case single =>
    simp only [hlive, hperiods, hkey]
    exact h.single
  case built =>
    intro other found hmem
    rw [hbuilt, List.mem_append, List.mem_singleton] at hmem
    rw [hstore, hfuture]
    rcases hmem with hmem | heq
    · have hfound := h.built hmem
      have hne : other ≠ id := by
        rintro rfl
        cases hpending.symm.trans hfound
      rw [if_neg hne, hfound]
    · cases heq
      rw [if_pos rfl]
  case once =>
    rw [hbuilt, List.map_append, List.map_singleton, List.nodup_append]
    refine ⟨h.once, by simp, ?_⟩
    rintro other hmem _ hother rfl
    obtain rfl := List.mem_singleton.mp hother
    obtain ⟨⟨_, found⟩, hfound, rfl⟩ := List.mem_map.mp hmem
    cases hpending.symm.trans (h.built hfound)

/-! ### What a step does to the tasks -/

/-- A task is where another was; it gives up its own future only when nobody else can wait for it. -/
theorem TasksSound.advance {index : Nat} {old new : Task} (h : TasksSound tasks)
    (hold : tasks.tasks[index]? = some old) (htasks : next.tasks = tasks.tasks.set index new)
    (hfuture : ∀ id, next.store.future? id = tasks.store.future? id ∨
      old = .bootstrapping id ∧ next.store.future? id ≠ some .pending)
    (hcached : ∀ id, next.store.isCached id = true → tasks.store.isCached id = true)
    (hheld : ∀ id ∈ held new, id ∈ held old) (hnew : ∀ id, new ≠ .bootstrapping id)
    (hobtained : ∀ id session, new = .obtained id session →
      next.store.future? id = some (.result session))
    (hleft : ∀ id, old = .bootstrapping id → next.store.future? id ≠ some .pending ∨
      ¬ Wanted next id) : TasksSound next := by
  have hlt : index < tasks.tasks.length := (List.getElem?_eq_some_iff.mp hold).1
  have hplace : ∀ {other : Nat} {found}, next.tasks[other]? = some found →
      index = other ∧ found = new ∨ index ≠ other ∧ tasks.tasks[other]? = some found := by
    intro other found hother
    rw [htasks, List.getElem?_set] at hother
    split at hother
    case isTrue heq =>
        exact .inl ⟨heq, (Option.some.inj hother).symm⟩
    case isFalse hne => exact .inr ⟨hne, hother⟩
  have hbefore : ∀ {other id : Nat}, next.tasks[other]? = some (.bootstrapping id) →
      index ≠ other ∧ tasks.tasks[other]? = some (.bootstrapping id) := by
    intro other id hother
    rcases hplace hother with ⟨_, heq⟩ | hbefore
    · exact absurd heq.symm (hnew id)
    · exact hbefore
  constructor
  case creator =>
    intro id hpending hwanted
    have hsame : next.store.future? id = tasks.store.future? id :=
      (hfuture id).resolve_right fun hdone => hdone.2 hpending
    have hwas : Wanted tasks id := by
      rcases hwanted with hmap | ⟨task, hmem, hid⟩
      · exact .inl (hcached id hmap)
      · obtain ⟨other, hother⟩ := List.mem_iff_getElem?.mp hmem
        rcases hplace hother with ⟨_, rfl⟩ | ⟨_, hother⟩
        · exact .inr ⟨old, List.mem_of_getElem? hold, hheld id hid⟩
        · exact .inr ⟨task, List.mem_of_getElem? hother, hid⟩
    obtain ⟨other, hother⟩ := h.creator (hsame ▸ hpending) hwas
    refine ⟨other, ?_⟩
    by_cases heq : index = other
    · subst heq
      rcases hleft id (Option.some.inj (hold.symm.trans hother)) with hdone | hunwanted
      · exact absurd hpending hdone
      · exact absurd hwanted hunwanted
    · rw [htasks, List.getElem?_set_ne heq, hother]
  case running =>
    intro other id hother
    obtain ⟨hne, hother⟩ := hbefore hother
    rcases hfuture id with hsame | ⟨rfl, _⟩
    · rw [hsame, h.running hother]
    · exact absurd (h.alone hold hother) hne
  case alone =>
    intro first second id hfirst hsecond
    exact h.alone (hbefore hfirst).2 (hbefore hsecond).2
  case obtained =>
    intro other id session hother
    rcases hplace hother with ⟨_, heq⟩ | ⟨_, hother⟩
    · exact hobtained id session heq.symm
    · rcases hfuture id with hsame | ⟨rfl, _⟩
      · rw [hsame, h.obtained hother]
      · cases (h.running hold).symm.trans (h.obtained hother)

/-- A call begins. -/
theorem TasksSound.spawn {new : Task} (h : TasksSound tasks)
    (htasks : next.tasks = tasks.tasks ++ [new])
    (hfuture : ∀ id, new ≠ .bootstrapping id →
      next.store.future? id = tasks.store.future? id)
    (hcached : ∀ id, new ≠ .bootstrapping id → next.store.isCached id = true →
      tasks.store.isCached id = true)
    (hheld : ∀ id ∈ held new, tasks.store.isCached id = true)
    (hnew : ∀ id, new = .bootstrapping id → tasks.store.future? id = none ∧
      next.store.future? id = some .pending)
    (hobtained : ∀ id session, new = .obtained id session →
      next.store.future? id = some (.result session)) : TasksSound next := by
  have hplace : ∀ {other : Nat} {found}, next.tasks[other]? = some found →
      other = tasks.tasks.length ∧ found = new ∨ tasks.tasks[other]? = some found := by
    intro other found hother
    rw [htasks, getElem?_concat] at hother
    split at hother
    case isTrue heq => exact .inl ⟨heq, (Option.some.inj hother).symm⟩
    case isFalse => exact .inr hother
  have hkept : ∀ {other : Nat} {found}, tasks.tasks[other]? = some found →
      next.tasks[other]? = some found := by
    intro other found hother
    rw [htasks, List.getElem?_append_left (List.getElem?_eq_some_iff.mp hother).1, hother]
  have hfresh : ∀ {other id : Nat}, tasks.tasks[other]? = some (.bootstrapping id) →
      new ≠ .bootstrapping id := by
    rintro other id hother heq
    cases (hnew id heq).1.symm.trans (h.running hother)
  constructor
  case creator =>
    intro id hpending hwanted
    by_cases heq : new = .bootstrapping id
    · refine ⟨tasks.tasks.length, ?_⟩
      rw [htasks, getElem?_concat, if_pos rfl, heq]
    · have hwas : Wanted tasks id := by
        rcases hwanted with hmap | ⟨task, hmem, hid⟩
        · exact .inl (hcached id heq hmap)
        · rw [htasks, List.mem_append, List.mem_singleton] at hmem
          rcases hmem with hmem | rfl
          · exact .inr ⟨task, hmem, hid⟩
          · exact .inl (hheld id hid)
      obtain ⟨other, hother⟩ := h.creator (hfuture id heq ▸ hpending) hwas
      exact ⟨other, hkept hother⟩
  case running =>
    intro other id hother
    rcases hplace hother with ⟨_, heq⟩ | hother
    · exact (hnew id heq.symm).2
    · rw [hfuture id (hfresh hother), h.running hother]
  case alone =>
    intro first second id hfirst hsecond
    rcases hplace hfirst with ⟨rfl, heq⟩ | hfirst <;> rcases hplace hsecond with ⟨rfl, hsame⟩ | hsecond
    · rfl
    · exact absurd heq.symm (hfresh hsecond)
    · exact absurd hsame.symm (hfresh hfirst)
    · exact h.alone hfirst hsecond
  case obtained =>
    intro other id session hother
    rcases hplace hother with ⟨_, heq⟩ | hother
    · exact hobtained id session heq.symm
    · have hresult := h.obtained hother
      by_cases heq : new = .bootstrapping id
      · cases (hnew id heq).1.symm.trans hresult
      · rw [hfuture id heq, hresult]

structure Sound (tasks : Tasks K B) : Prop where
  store : StoreSound tasks
  tasks : TasksSound tasks

theorem sound_start : Sound ({} : Tasks K B) := ⟨storeSound_start, tasksSound_start⟩

/-- A call that leaves the store as it is. -/
theorem Sound.spawn (h : Sound tasks) (new : Task) (hheld : ∀ id ∈ held new,
    tasks.store.isCached id = true) (hnew : ∀ id, new ≠ .bootstrapping id)
    (hobtained : ∀ id session, new = .obtained id session →
      tasks.store.future? id = some (.result session)) : Sound (tasks.spawn new) where
  store := h.store.congr rfl rfl rfl rfl
  tasks := h.tasks.spawn rfl (fun _ _ => rfl) (fun _ _ hmap => hmap) hheld
    (fun id heq => absurd heq (hnew id)) hobtained

theorem Sound.get (h : Sound tasks) (key : K) : Sound (tasks.get key) := by
  have hended : Sound (tasks.spawn .ended) :=
    h.spawn _ (fun _ hmem => by cases hmem) (fun _ heq => by cases heq) (fun _ _ heq => by cases heq)
  unfold Tasks.get
  split
  case h_1 => exact hended
  case h_2 id _ =>
      split
      case h_2 => exact hended
      case h_1 session hfuture =>
          refine h.spawn _ (fun _ hmem => by cases hmem) (fun _ heq => by cases heq) ?_
          intro other found heq
          cases heq
          exact hfuture

theorem Sound.interruptAllTurns (h : Sound tasks) :
    Sound (tasks.spawn (.interrupting tasks.futures)) :=
  h.spawn _ (fun _ hmem => (List.mem_filter.mp hmem).2) (fun _ heq => by cases heq)
    (fun _ _ heq => by cases heq)

theorem Sound.bootstrapped (h : Sound tasks) {index : Nat}
    (htask : tasks.tasks[index]? = some (.bootstrapping id)) (boot : SessionBootstrap) :
    Sound (tasks.bootstrapped index id boot) := by
  have hpending := h.tasks.running htask
  simp only [Tasks.bootstrapped, SessionStore.fulfilSlot, hpending, if_true]
  have hfuture : ∀ other, (tasks.store.setFuture id
      (.result (SessionStore.buildSession boot))).future? other =
      if other = id then some (.result (SessionStore.buildSession boot))
      else tasks.store.future? other := by
    intro other
    rw [future?_setFuture, hpending, Option.map_some]
  refine ⟨h.store.fulfil hpending _ rfl rfl rfl rfl, h.tasks.advance htask rfl ?_ ?_ ?_ ?_ ?_ ?_⟩
  · intro other
    simp only [Tasks.setTask, hfuture]
    by_cases heq : other = id
    · right
      simp [heq]
    · left
      rw [if_neg heq]
  · intro other hmap
    obtain ⟨key, hkey, hmap⟩ := isCached_iff.mp hmap
    simp only [Tasks.setTask, key?_setFuture] at hkey
    exact isCached_iff.mpr ⟨key, hkey, hmap⟩
  · intro other hmem
    cases hmem
  · intro other heq
    cases heq
  · intro other session heq
    cases heq
    simp only [Tasks.setTask, hfuture, if_true]
  · intro other heq
    cases heq
    left
    simp [Tasks.setTask, hfuture]

/-- A task goes on, and leaves the store as it is. -/
theorem Sound.setTask (h : Sound tasks) {index : Nat} {old new : Task}
    (hold : tasks.tasks[index]? = some old) (hheld : ∀ id ∈ held new, id ∈ held old)
    (hnew : ∀ id, new ≠ .bootstrapping id)
    (hobtained : ∀ id session, new = .obtained id session →
      tasks.store.future? id = some (.result session))
    (hleft : ∀ id, old = .bootstrapping id → ¬ Wanted tasks id) :
    Sound (tasks.setTask index new) where
  store := h.store.congr rfl rfl rfl rfl
  tasks := by
    refine h.tasks.advance hold rfl (fun _ => .inl rfl) (fun _ hmap => hmap) hheld hnew hobtained ?_
    intro id heq
    refine .inr fun hwanted => hleft id heq ?_
    rcases hwanted with hmap | ⟨task, hmem, hid⟩
    · exact .inl hmap
    · rcases List.mem_or_eq_of_mem_set hmem with hmem | rfl
      · exact .inr ⟨task, hmem, hid⟩
      · exact .inr ⟨old, List.mem_of_getElem? hold, hheld id hid⟩

theorem Sound.ends (h : Sound tasks) {index : Nat} {old : Task}
    (hold : tasks.tasks[index]? = some old)
    (hleft : ∀ id, old = .bootstrapping id → ¬ Wanted tasks id) :
    Sound (tasks.setTask index .ended) :=
  h.setTask hold (fun _ hmem => by cases hmem) (fun _ heq => by cases heq)
    (fun _ _ heq => by cases heq) hleft

theorem Sound.resume (h : Sound tasks) {index : Nat} {task : Task}
    (htask : tasks.tasks[index]? = some task) (hnext : tasks.resume index task = some next) :
    Sound next := by
  have hended : (∀ id, task ≠ .bootstrapping id) → Sound (tasks.setTask index .ended) :=
    fun hnone => h.ends htask fun id heq => absurd heq (hnone id)
  cases task with
  | waiting id =>
      simp only [Tasks.resume] at hnext
      split at hnext <;> cases hnext
      case h_1 session hfuture =>
        refine h.setTask htask (fun _ hmem => by cases hmem) (fun _ heq => by cases heq) ?_
          (fun _ heq => by cases heq)
        intro other found heq
        cases heq
        exact hfuture
      all_goals exact hended fun _ heq => by cases heq
  | resetting id =>
      simp only [Tasks.resume] at hnext
      split at hnext <;> cases hnext
      case h_3 future _ _ =>
        cases future with
        | result session =>
            exact h.setTask htask (fun _ hmem => by cases hmem) (fun _ heq => by cases heq)
              (fun _ _ heq => by cases heq) (fun _ heq => by cases heq)
        | pending | exception | cancelled => exact hended fun _ heq => by cases heq
  | clearing =>
      cases hnext
      exact hended fun _ heq => by cases heq
  | interrupting ids =>
      cases ids with
      | nil =>
          cases hnext
          exact hended fun _ heq => by cases heq
      | cons id rest =>
          simp only [Tasks.resume] at hnext
          split at hnext <;> cases hnext
          case h_3 => exact hended fun _ heq => by cases heq
          all_goals
            exact h.setTask htask (fun _ hmem => List.mem_cons_of_mem id hmem)
              (fun _ heq => by cases heq) (fun _ _ heq => by cases heq) (fun _ heq => by cases heq)
  | cancelling rest =>
      cases hnext
      exact h.setTask htask (fun _ hmem => hmem) (fun _ heq => by cases heq)
        (fun _ _ heq => by cases heq) (fun _ heq => by cases heq)
  | bootstrapping | obtained | ended => cases hnext

/-! ### What callers can rely on -/

/-- Two futures of one key between the same resets. -/
def SamePeriod (tasks : Tasks K B) (id other : Nat) : Prop :=
  ∃ key period, key? tasks.store id = some key ∧ key? tasks.store other = some key ∧
    tasks.periods[id]? = some period ∧ tasks.periods[other]? = some period

/-- What every caller can rely on. -/
structure Resolved (tasks : Tasks K B) : Prop where
  /-- One bootstrap at most succeeds in a period. -/
  once : ∀ {first second : Nat} {id other found session},
    tasks.built[first]? = some (id, found) → tasks.built[second]? = some (other, session) →
    SamePeriod tasks id other → first = second
  /-- All who get a session in a period get the same. -/
  same : ∀ {first second id other : Nat} {found session : ChatSession},
    tasks.tasks[first]? = some (.obtained id found) →
    tasks.tasks[second]? = some (.obtained other session) → SamePeriod tasks id other →
    id = other ∧ found = session
  /-- A call opens a session unless there is one, or somebody at work, in this period. -/
  claim : ∀ key, tasks.store.claimSlot key = .created tasks.store.attempts.length ∨
    ∃ id, tasks.store.claimSlot key = .joined id ∧ key? tasks.store id = some key ∧
      tasks.periods[id]? = some (tasks.resets key) ∧
      ((∃ session, tasks.store.future? id = some (.result session)) ∨
        ∃ index : Nat, tasks.tasks[index]? = some (Task.bootstrapping id))
  /-- What is in the map, or waited for, and not resolved has a creator at work. -/
  resolved : ∀ {id}, Wanted tasks id → tasks.store.future? id = some .pending →
    ∃ index : Nat, tasks.tasks[index]? = some (Task.bootstrapping id)

theorem Sound.resolved (h : Sound tasks) : Resolved tasks where
  once := by
    intro first second id other found session hfirst hsecond hperiod
    have hone := h.store.built (List.mem_of_getElem? hfirst)
    have htwo := h.store.built (List.mem_of_getElem? hsecond)
    obtain ⟨key, period, hkey, hother, hid, hoid⟩ := hperiod
    have heq : id = other :=
      h.store.single hkey hother (by rw [hone]; rfl) (by rw [htwo]; rfl) hid hoid
    have hfirsts : (tasks.built.map Prod.fst)[first]? = some id := by simp [hfirst]
    have hseconds : (tasks.built.map Prod.fst)[second]? = some id := by simp [hsecond, heq]
    have hlt : first < (tasks.built.map Prod.fst).length :=
      (List.getElem?_eq_some_iff.mp hfirsts).1
    exact (List.getElem?_inj hlt h.store.once).mp (hfirsts.trans hseconds.symm)
  same := by
    intro first second id other found session hfirst hsecond hperiod
    have hone := h.tasks.obtained hfirst
    have htwo := h.tasks.obtained hsecond
    obtain ⟨key, period, hkey, hother, hid, hoid⟩ := hperiod
    have heq : id = other :=
      h.store.single hkey hother (by rw [hone]; rfl) (by rw [htwo]; rfl) hid hoid
    subst heq
    cases hone.symm.trans htwo
    exact ⟨rfl, rfl⟩
  claim := by
    intro key
    rcases h.store.claimed key with ⟨_, hclaim⟩ | ⟨id, hget, hclaim⟩
    · exact .inl hclaim
    · obtain ⟨hkey, hperiod, hlive⟩ := h.store.entry hget
      refine .inr ⟨id, hclaim, hkey, hperiod, ?_⟩
      cases hfuture : tasks.store.future? id with
      | none => simp [hfuture, live] at hlive
      | some future =>
          cases future with
          | pending => exact .inr (h.tasks.creator hfuture (.inl (h.store.isCached hget)))
          | result session => exact .inl ⟨session, rfl⟩
          | exception | cancelled => simp [hfuture, live] at hlive
  resolved hwanted hpending := h.tasks.creator hpending hwanted

/-! ### What a step does to the store -/

variable [DecidableEq K]

theorem future?_insertSlot (arg : B) (other : Nat) :
    (store.insertSlot key arg).future? other =
      if other = store.attempts.length then some .pending else store.future? other := by
  simp only [SessionStore.future?, SessionStore.insertSlot, getElem?_concat]
  split <;> simp

theorem key?_insertSlot (arg : B) (other : Nat) :
    key? (store.insertSlot key arg) other =
      if other = store.attempts.length then some key else key? store other := by
  simp only [key?, SessionStore.insertSlot, getElem?_concat]
  split <;> simp

theorem get?_insertSlot (arg : B) (other : K) :
    (store.insertSlot key arg).get? other =
      if other = key then some store.attempts.length else store.get? other := by
  simp [SessionStore.get?, SessionStore.insertSlot, Function.update_apply]

theorem get?_pop (key other : K) :
    (store.pop key).get? other = if other = key then none else store.get? other := by
  simp [SessionStore.get?, SessionStore.pop, Function.update_apply]

theorem StoreSound.insert (h : StoreSound tasks) (hget : tasks.store.get? key = none) (arg : B)
    (hstore : next.store = tasks.store.insertSlot key arg) (hresets : next.resets = tasks.resets)
    (hperiods : next.periods = tasks.periods ++ [tasks.resets key])
    (hbuilt : next.built = tasks.built) : StoreSound next := by
  have hperiod : ∀ id, next.periods[id]? =
      if id = tasks.store.attempts.length then some (tasks.resets key) else tasks.periods[id]? := by
    intro id
    rw [hperiods, getElem?_concat, h.length]
  -- A future of the key that was live in this period would be in the map.
  have hfirst : ∀ {id}, key? tasks.store id = some key → live (tasks.store.future? id) = true →
      tasks.periods[id]? ≠ some (tasks.resets key) := by
    intro id hkey hlive hid
    cases hget.symm.trans ((h.current hkey hlive hid).2 rfl)
  constructor <;> simp only [hstore, hresets, hbuilt, hperiod, get?_insertSlot, key?_insertSlot,
    future?_insertSlot]
  case length => simp [hperiods, SessionStore.insertSlot, h.length]
  case entry =>
    intro other id hother
    split at hother
    case isTrue heq =>
        cases hother
        simp [heq, live]
    case isFalse hne =>
        have hentry := h.entry hother
        have hlt : id ≠ tasks.store.attempts.length := by
          rintro rfl
          simp [future?_length, live] at hentry
        simpa [hlt] using hentry
  case current =>
    intro other id period hkey hlive hid
    by_cases heq : id = tasks.store.attempts.length
    · rw [if_pos heq] at hkey hid
      cases hkey
      cases hid
      simp [heq]
    · rw [if_neg heq] at hkey hid hlive
      obtain ⟨hle, hcurrent⟩ := h.current hkey hlive hid
      refine ⟨hle, fun hsame => ?_⟩
      have hne : other ≠ key := by
        rintro rfl
        cases hget.symm.trans (hcurrent hsame)
      rw [if_neg hne, hcurrent hsame]
  case single =>
    intro found id other period hkey hother hlive holive hid hoid
    by_cases heq : id = tasks.store.attempts.length <;>
      by_cases hoeq : other = tasks.store.attempts.length <;>
      simp only [heq, hoeq, if_true, if_false, Option.some.injEq] at hkey hother hlive holive hid hoid
    · rw [heq, hoeq]
    · subst hkey hid
      exact absurd hoid (hfirst hother holive)
    · subst hother hoid
      exact absurd hid (hfirst hkey hlive)
    · exact h.single hkey hother hlive holive hid hoid
  case built =>
    intro id session hmem
    have hbuilt := h.built hmem
    have hlt : id ≠ tasks.store.attempts.length := by
      rintro rfl
      cases future?_length.symm.trans hbuilt
    rw [if_neg hlt, hbuilt]
  case once => exact h.once

/-- A reset ends a period. -/
theorem StoreSound.pop (h : StoreSound tasks) (key : K)
    (hstore : next.store = tasks.store.pop key)
    (hresets : next.resets = Function.update tasks.resets key (tasks.resets key + 1))
    (hperiods : next.periods = tasks.periods) (hbuilt : next.built = tasks.built) :
    StoreSound next := by
  constructor <;> simp only [hstore, hresets, hperiods, hbuilt, get?_pop]
  case length => exact h.length
  case entry =>
    intro other id hother
    split at hother
    case isTrue => cases hother
    case isFalse hne =>
        rw [Function.update_of_ne hne]
        exact h.entry hother
  case current =>
    intro other id period hkey hlive hid
    obtain ⟨hle, hcurrent⟩ := h.current hkey hlive hid
    by_cases heq : other = key
    · subst heq
      rw [Function.update_self]
      exact ⟨Nat.le_succ_of_le hle, fun hperiod => by omega⟩
    · rw [Function.update_of_ne heq, if_neg heq]
      exact ⟨hle, hcurrent⟩
  case single => exact h.single
  case built => exact h.built
  case once => exact h.once

theorem get?_failSlot (h : StoreSound tasks) (hkey : key? tasks.store id = some key)
    {other : K} {found : Nat} : (tasks.store.failSlot key id).get? other = some found ↔
      tasks.store.get? other = some found ∧ found ≠ id := by
  have hown : tasks.store.get? other = some id → other = key := by
    intro hget
    exact Option.some.inj ((h.entry hget).1.symm.trans hkey)
  have hpopped : (tasks.store.failSlot key id).get? other =
      if tasks.store.get? key = some id ∧ other = key then none else tasks.store.get? other := by
    simp only [SessionStore.failSlot, SessionStore.get?, SessionStore.pop, SessionStore.setFuture]
    by_cases hentry : tasks.store.sessions key = some id <;>
      by_cases hfuture : tasks.store.future? id = some .pending <;>
      simp [hentry, hfuture, Function.update_apply]
  rw [hpopped]
  split
  case isTrue hboth =>
      obtain ⟨hentry, rfl⟩ := hboth
      simp only [hentry, reduceCtorEq, Option.some.injEq, false_iff, not_and, not_not]
      exact fun heq => heq.symm
  case isFalse hnot =>
      refine ⟨fun hget => ⟨hget, ?_⟩, fun hget => hget.1⟩
      rintro rfl
      obtain rfl := hown hget
      exact hnot ⟨hget, rfl⟩

theorem future?_failSlot (hpending : tasks.store.future? id = some .pending) (key : K)
    (other : Nat) : (tasks.store.failSlot key id).future? other =
      if other = id then some .exception else tasks.store.future? other := by
  have hpopped : ∀ store : SessionStore K B, store.attempts = tasks.store.attempts →
      (store.setFuture id .exception).future? other =
        if other = id then some .exception else tasks.store.future? other := by
    intro store hattempts
    have hsame : store.future? = tasks.store.future? := by
      funext found
      rw [SessionStore.future?, SessionStore.future?, hattempts]
    rw [future?_setFuture, hsame, hpending, Option.map_some]
  simp only [SessionStore.failSlot, hpending, if_true]
  split
  case isTrue => exact hpopped _ rfl
  case isFalse => exact hpopped _ rfl

theorem key?_failSlot (hpending : tasks.store.future? id = some .pending) (key : K) (other : Nat) :
    key? (tasks.store.failSlot key id) other = key? tasks.store other := by
  simp only [SessionStore.failSlot, hpending, if_true, key?_setFuture]
  split <;> rfl

/-- The creator has failed, and the next caller starts again. -/
theorem StoreSound.fail (h : StoreSound tasks) (hpending : tasks.store.future? id = some .pending)
    (hkey : key? tasks.store id = some key) (hstore : next.store = tasks.store.failSlot key id)
    (hresets : next.resets = tasks.resets) (hperiods : next.periods = tasks.periods)
    (hbuilt : next.built = tasks.built) : StoreSound next := by
  have hget : ∀ {other found}, next.store.get? other = some found ↔
      tasks.store.get? other = some found ∧ found ≠ id := by
    rw [hstore]
    exact get?_failSlot h hkey
  have hsame : ∀ other, key? next.store other = key? tasks.store other := by
    rw [hstore]
    exact key?_failSlot hpending key
  have hfuture : ∀ other, other ≠ id → next.store.future? other = tasks.store.future? other := by
    intro other hne
    rw [hstore, future?_failSlot hpending, if_neg hne]
  have hlive : ∀ {other}, live (next.store.future? other) = true →
      live (tasks.store.future? other) = true ∧ other ≠ id := by
    intro other hother
    rw [hstore, future?_failSlot hpending] at hother
    split at hother
    case isTrue => cases hother
    case isFalse hne => exact ⟨hother, hne⟩
  constructor
  case length =>
    rw [hperiods, h.length, hstore]
    simp only [SessionStore.failSlot, hpending, if_true, length_setFuture]
    split <;> rfl
  case entry =>
    intro other found hother
    obtain ⟨hother, hne⟩ := hget.mp hother
    rw [hsame, hperiods, hresets, hfuture found hne]
    exact h.entry hother
  case current =>
    intro other found period hfound hother hperiod
    obtain ⟨hother, hne⟩ := hlive hother
    rw [hsame] at hfound
    rw [hperiods] at hperiod
    rw [hresets]
    obtain ⟨hle, hcurrent⟩ := h.current hfound hother hperiod
    exact ⟨hle, fun heq => hget.mpr ⟨hcurrent heq, hne⟩⟩
  case single =>
    intro found first second period hfirst hsecond hone htwo
    rw [hsame] at hfirst hsecond
    rw [hperiods]
    exact h.single hfirst hsecond (hlive hone).1 (hlive htwo).1
  case built =>
    intro other session hmem
    rw [hbuilt] at hmem
    have hother := h.built hmem
    rw [hfuture other, hother]
    rintro rfl
    cases hpending.symm.trans hother
  case once =>
    rw [hbuilt]
    exact h.once

/-! ### Steps -/

instance (id : Nat) : Decidable (Wanted tasks id) := inferInstanceAs (Decidable (_ ∨ _))

/-- Nobody is cancelled while he waits for a session that is being opened, or while he opens one
that somebody may wait for. -/
def harmless (tasks : Tasks K B) : Action K B → Bool
  | .cancel index =>
      match tasks.tasks[index]? with
      | some (.bootstrapping id) => !decide (Wanted tasks id)
      | some task => (Tasks.awaited task).all fun id => tasks.store.future? id ≠ some .pending
      | none => true
  | _ => true

theorem Sound.getOrOpen (h : Sound tasks) (key : K) (arg : B) : Sound (tasks.getOrOpen key arg) := by
  rcases h.store.claimed key with ⟨hget, hclaim⟩ | ⟨id, hget, hclaim⟩
  · simp only [Tasks.getOrOpen, hclaim]
    refine ⟨h.store.insert hget arg rfl rfl rfl rfl, h.tasks.spawn rfl ?_ ?_ ?_ ?_ ?_⟩
    · intro id hne
      rw [future?_insertSlot, if_neg]
      rintro rfl
      exact hne rfl
    · intro id hne hmap
      have hold : id ≠ tasks.store.attempts.length := by
        rintro rfl
        exact hne rfl
      obtain ⟨other, hkey, hmap⟩ := isCached_iff.mp hmap
      rw [key?_insertSlot, if_neg hold] at hkey
      rw [get?_insertSlot] at hmap
      split at hmap
      case isTrue => exact absurd (Option.some.inj hmap).symm hold
      case isFalse => exact isCached_iff.mpr ⟨other, hkey, hmap⟩
    · intro id hmem
      cases hmem
    · intro id heq
      cases heq
      exact ⟨future?_length, by rw [future?_insertSlot, if_pos rfl]⟩
    · intro id session heq
      cases heq
  · have hmap := h.store.isCached hget
    simp only [Tasks.getOrOpen, hclaim]
    split
    case h_1 session hfuture =>
        refine h.spawn _ (fun _ hmem => by cases hmem) (fun _ heq => by cases heq) ?_
        intro other found heq
        cases heq
        exact hfuture
    case h_2 =>
        refine h.spawn _ ?_ (fun _ heq => by cases heq) (fun _ _ heq => by cases heq)
        intro other hmem
        rwa [List.mem_singleton.mp hmem]

theorem Sound.reset (h : Sound tasks) (key : K) : Sound (tasks.reset key) := by
  have hcached : ∀ {id}, (tasks.store.pop key).isCached id = true →
      tasks.store.isCached id = true := by
    intro id hmap
    obtain ⟨other, hkey, hmap⟩ := isCached_iff.mp hmap
    rw [get?_pop] at hmap
    split at hmap
    case isTrue => cases hmap
    case isFalse => exact isCached_iff.mpr ⟨other, hkey, hmap⟩
  have hcall : ∀ new, (∀ id ∈ held new, tasks.store.get? key = some id) →
      (∀ id, new ≠ .bootstrapping id) → (∀ id session, new ≠ .obtained id session) →
      Sound ({ tasks with
        store := tasks.store.pop key
        resets := Function.update tasks.resets key (tasks.resets key + 1) }.spawn new) := by
    intro new hheld hnew hobtained
    exact ⟨h.store.pop key rfl rfl rfl rfl,
      h.tasks.spawn rfl (fun _ _ => rfl) (fun _ _ => hcached)
        (fun id hmem => h.store.isCached (hheld id hmem)) (fun id heq => absurd heq (hnew id))
        (fun id session heq => absurd heq (hobtained id session))⟩
  have hafter : ∀ new, held new = [] → (∀ id, new ≠ .bootstrapping id) →
      (∀ id session, new ≠ .obtained id session) → Sound ({ tasks with
        store := tasks.store.pop key
        resets := Function.update tasks.resets key (tasks.resets key + 1) }.spawn new) := by
    intro new hheld
    refine hcall new fun id hmem => ?_
    rw [hheld] at hmem
    cases hmem
  unfold Tasks.reset
  cases hget : tasks.store.get? key with
  | none => exact hafter _ rfl (fun _ heq => by cases heq) (fun _ _ heq => by cases heq)
  | some id =>
      cases hfuture : tasks.store.future? id with
      | none =>
          simp only [hfuture]
          exact hafter _ rfl (fun _ heq => by cases heq) (fun _ _ heq => by cases heq)
      | some future =>
          cases future <;> simp only [hfuture]
          case pending =>
            refine hcall _ (fun other hmem => ?_) (fun _ heq => by cases heq)
              (fun _ _ heq => by cases heq)
            rw [List.mem_singleton.mp hmem, hget]
          all_goals
            exact hafter _ rfl (fun _ heq => by cases heq) (fun _ _ heq => by cases heq)

theorem Sound.bootstrapFails (h : Sound tasks) {index : Nat}
    (htask : tasks.tasks[index]? = some (.bootstrapping id)) :
    Sound (tasks.bootstrapFails index id) := by
  have hpending := h.tasks.running htask
  obtain ⟨attempt, hattempt, _, hkey⟩ := key?_of_future hpending
  simp only [Tasks.bootstrapFails, hattempt]
  refine ⟨h.store.fail hpending hkey rfl rfl rfl rfl, h.tasks.advance htask rfl ?_ ?_ ?_ ?_ ?_ ?_⟩
  · intro other
    simp only [Tasks.setTask, future?_failSlot hpending]
    by_cases heq : other = id
    · right
      simp [heq]
    · left
      rw [if_neg heq]
  · intro other hmap
    obtain ⟨key, hother, hmap⟩ := isCached_iff.mp hmap
    simp only [Tasks.setTask, key?_failSlot hpending] at hother
    exact isCached_iff.mpr ⟨key, hother, ((get?_failSlot h.store hkey).mp hmap).1⟩
  · intro other hmem
    cases hmem
  · intro other heq
    cases heq
  · intro other session heq
    cases heq
  · intro other heq
    cases heq
    left
    simp [Tasks.setTask, future?_failSlot hpending]

theorem Sound.step {action : Action K B} (h : Sound tasks) (hharmless : harmless tasks action = true)
    (hstep : step tasks action = some next) : Sound next := by
  cases action with
  | getOrOpen key arg =>
      cases hstep
      exact h.getOrOpen key arg
  | get key =>
      cases hstep
      exact h.get key
  | reset key =>
      cases hstep
      exact h.reset key
  | interruptAllTurns =>
      cases hstep
      exact h.interruptAllTurns
  | bootstrapped index boot =>
      simp only [SessionTasks.step] at hstep
      split at hstep <;> cases hstep
      case h_1 id htask => exact h.bootstrapped htask boot
  | bootstrapFails index =>
      simp only [SessionTasks.step] at hstep
      split at hstep <;> cases hstep
      case h_1 id htask => exact h.bootstrapFails htask
  | resume index =>
      obtain ⟨task, htask, hnext⟩ := Option.bind_eq_some_iff.mp hstep
      exact h.resume htask hnext
  | cancel index =>
      cases htask : tasks.tasks[index]? with
      | none =>
          simp only [SessionTasks.step, htask] at hstep
          cases hstep
      | some task =>
          have hdone : ∀ id, Tasks.awaited task = some id →
              tasks.store.future? id ≠ some .pending := by
            intro id hawaited
            cases task <;> simp_all [harmless, Tasks.awaited]
          have hleft : ∀ id, task = .bootstrapping id → ¬ Wanted tasks id := by
            rintro id rfl
            simpa [harmless, htask] using hharmless
          have hcancel : tasks.cancel index task = tasks.setTask index .ended := by
            unfold Tasks.cancel
            split
            case h_1 id hawaited =>
                rw [SessionStore.cancelWaiter, if_neg (hdone id hawaited)]
            case h_2 => rfl
          simp only [SessionTasks.step, htask] at hstep
          split at hstep <;> cases hstep
          rename_i task _ _ _ heq
          cases heq
          rw [hcancel]
          exact h.ends htask hleft

/-! ### Every schedule -/

/-- **Sessions resolve and are unique.** In every state of every schedule in which nobody is
cancelled while he waits for a session that is being opened, or opens one that may be waited for. -/
theorem sessions_resolved
    (hreach : Reach step (fun tasks action => harmless tasks action = true) {} tasks) :
    Resolved tasks :=
  (hreach.invariant Sound sound_start fun _ _ _ h hharmless hstep =>
    h.step hharmless hstep).resolved

/-- Two callers for one session, one of them cancelled when it has it, and one after a reset. -/
def sessionsRun : List (Action Nat Unit) :=
  [.getOrOpen 7 (), .getOrOpen 7 (), .bootstrapped 0 ⟨1, 2, false⟩, .resume 1, .reset 7,
    .cancel 2, .getOrOpen 7 (), .bootstrapFails 3, .getOrOpen 7 (), .bootstrapped 4 ⟨1, 3, true⟩]

theorem sessions_resolved_executed : ∃ tasks : Tasks Nat Unit,
    run step {} sessionsRun = some tasks ∧ Resolved tasks := by
  have hdefined : (run step ({} : Tasks Nat Unit) sessionsRun).isSome = true := by
    decide +kernel
  obtain ⟨tasks, hrun⟩ := Option.isSome_iff_exists.mp hdefined
  exact ⟨tasks, hrun, sessions_resolved (Transition.reach_of_run hrun (by decide +kernel))⟩

/-- The creator is cancelled: its future stays in the map, with nobody at work. -/
theorem cancelled_creator_leaves_future :
    (run step ({} : Tasks Nat Unit) [.getOrOpen 7 (), .cancel 0]).any (fun tasks =>
      tasks.store.get? 7 = some 0 && tasks.store.future? 0 = some .pending &&
        tasks.tasks = [.ended]) = true := by
  decide +kernel

end CodexServer.SessionTasks
