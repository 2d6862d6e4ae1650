import CodexServer.RuntimeLimits

/-!
# The runtime limits do not go back

A cached value is at least as new as what the updates of the process have returned, as long as no
call remembers an older one. Both callers of `remember` can: they hold their value over a wait.
-/

open Transition

namespace CodexServer.RuntimeLimits

open RateLimit (RuntimeSettings)

/-! ### The versions of the row -/

theorem load_eq_valueAt (table : Table) : table.load = table.valueAt table.version := by
  obtain ⟨versions, writer⟩ := table
  cases versions using List.reverseRecOn with
  | nil => rfl
  | append_singleton versions row =>
      simp [Table.load, Table.row, Table.version, Table.valueAt]

section

variable {table later : Table}

theorem valueAt_eq (hgrows : table.versions <+: later.versions) {version : Nat}
    (hle : version ≤ table.version) : later.valueAt version = table.valueAt version := by
  obtain ⟨more, hmore⟩ := hgrows
  cases version with
  | zero => rfl
  | succ version =>
      simp only [Table.valueAt, ← hmore]
      rw [List.getElem?_append_left (Nat.lt_of_succ_le hle)]

theorem valueAt_last {data : RuntimeSettings}
    (hversions : later.versions = table.versions ++ [data.applyTo]) :
    later.valueAt later.version = data := by
  simp [Table.version, Table.valueAt, hversions]

/-- The value is that of the row at the version. -/
def Seen.Of (seen : Seen) (table : Table) : Prop :=
  seen.version ≤ table.version ∧ seen.value = table.valueAt seen.version

theorem Seen.Of.grown {seen : Seen} (h : seen.Of table)
    (hgrows : table.versions <+: later.versions) : seen.Of later :=
  ⟨h.1.trans hgrows.length_le, h.2.trans (valueAt_eq hgrows h.1).symm⟩

/-- A call of `get` has what the row was since it began, or will have. -/
def GetCall.Current (call : GetCall) (table : Table) : Prop :=
  match call.phase with
  | .loading => ∀ version ∈ call.after, version ≤ table.version
  | .loaded seen | .returned seen => seen.Of table ∧ ∀ version ∈ call.after, version ≤ seen.version
  | .failed => True

theorem GetCall.Current.grown {call : GetCall} (h : call.Current table)
    (hgrows : table.versions <+: later.versions) : call.Current later := by
  unfold GetCall.Current at h ⊢
  split at h
  · exact fun version hversion => (h version hversion).trans hgrows.length_le
  · exact ⟨h.1.grown hgrows, h.2⟩
  · exact ⟨h.1.grown hgrows, h.2⟩
  · trivial

/-- An update that is committed made the row what it asked for. -/
def UpdateCall.Current (call : UpdateCall) (table : Table) : Prop :=
  match call.phase with
  | .committed version | .returned version => Seen.Of ⟨call.data, version⟩ table
  | _ => True

theorem UpdateCall.Current.grown {call : UpdateCall} (h : call.Current table)
    (hgrows : table.versions <+: later.versions) : call.Current later := by
  unfold UpdateCall.Current at h ⊢
  split at h
  · exact Seen.Of.grown h hgrows
  · exact Seen.Of.grown h hgrows
  · trivial

end

/-! ### What the process has seen -/

/-- Every value in the process is one of the row, and the cached one is not older than any that an
update has returned. -/
structure Current (process : Process) : Prop where
  gets : ∀ call ∈ process.gets, call.Current process.table
  updates : ∀ call ∈ process.updates, call.Current process.table
  cached : ∀ seen ∈ process.service.cached,
    seen.Of process.table ∧ ∀ version ∈ process.returned, version ≤ seen.version

section

variable {process next : Process} {ttl : ℚ}

theorem mem_returned {version : Nat} : version ∈ process.returned ↔
    ∃ call ∈ process.updates, call.phase = .returned version := by
  simp only [Process.returned, List.mem_filterMap]
  constructor
  · rintro ⟨call, hcall, hphase⟩
    split at hphase
    · rename_i heq
      cases hphase
      exact ⟨call, hcall, heq⟩
    · cases hphase
  · rintro ⟨call, hcall, hphase⟩
    exact ⟨call, hcall, by simp [hphase]⟩

theorem Current.returned_le (h : Current process) {version : Nat}
    (hversion : version ∈ process.returned) : version ≤ process.table.version := by
  obtain ⟨call, hcall, hphase⟩ := mem_returned.mp hversion
  have hcurrent := h.updates call hcall
  simp only [UpdateCall.Current, hphase] at hcurrent
  exact hcurrent.1

theorem mem_set_cases {α : Type} {items : List α} {id : Nat} {item other : α}
    (h : other ∈ items.set id item) : other = item ∨ other ∈ items :=
  (List.mem_or_eq_of_mem_set h).symm

/-- The process after a call of `get` has gone on. -/
theorem Current.setGet (h : Current process) (id : Nat) {call : GetCall}
    (hcall : call.Current process.table) : Current (process.setGet id call) := by
  refine ⟨fun other hother => ?_, h.updates, h.cached⟩
  rcases mem_set_cases hother with rfl | hold
  · exact hcall
  · exact h.gets other hold

/-- The process after an update has gone on, with more commits than before. -/
theorem Current.grow (h : Current process) (id : Nat) {call : UpdateCall} {table : Table}
    (hgrows : process.table.versions <+: table.versions) (hcall : call.Current table)
    (hphase : ∀ version, call.phase ≠ .returned version) :
    Current { process.setUpdate id call with table := table } := by
  refine ⟨fun other hother => (h.gets other hother).grown hgrows, fun other hother => ?_, ?_⟩
  · rcases mem_set_cases hother with rfl | hold
    · exact hcall
    · exact (h.updates other hold).grown hgrows
  · intro seen hseen
    refine ⟨(h.cached seen hseen).1.grown hgrows, fun version hversion => ?_⟩
    obtain ⟨other, hother, hreturned⟩ := mem_returned.mp hversion
    rcases mem_set_cases hother with rfl | hold
    · exact absurd hreturned (hphase version)
    · exact (h.cached seen hseen).2 version (mem_returned.mpr ⟨other, hold, hreturned⟩)

theorem Current.setUpdate (h : Current process) (id : Nat) {call : UpdateCall}
    (hcall : call.Current process.table) (hphase : ∀ version, call.phase ≠ .returned version) :
    Current (process.setUpdate id call) :=
  h.grow id List.prefix_rfl hcall hphase

/-- No call remembers a version older than one that an update of this process has returned. -/
def keepsUp (process : Process) : Action → Bool
  | .get id .remember => process.gets[id]?.all fun call => match call.phase with
      | .loaded seen => process.returned.all fun version => decide (version ≤ seen.version)
      | _ => true
  | .update id .remember => process.updates[id]?.all fun call => match call.phase with
      | .committed saved => process.returned.all fun version => decide (version ≤ saved)
      | _ => true
  | _ => true

theorem beginGet_current (h : Current process) : (beginGet process).Current process.table := by
  simp only [GetCall.Current, beginGet]
  cases hfresh : process.service.fresh process.clock with
  | none => exact fun version hversion => h.returned_le hversion
  | some seen => exact h.cached seen (Option.filter_eq_some_iff.mp hfresh).1

theorem Current.stepGet (h : Current process) {id : Nat} {call : GetCall} {action : GetAction}
    (hcall : process.gets[id]? = some call)
    (hallowed : keepsUp process (.get id action) = true)
    (hstep : stepGet ttl process id call action = some next) : Current next := by
  have hcurrent : call.Current process.table := h.gets call (List.mem_of_getElem? hcall)
  obtain ⟨after, phase⟩ := call
  cases action with
  | load =>
      cases phase with
      | loading =>
          cases hstep
          exact h.setGet id ⟨⟨le_rfl, load_eq_valueAt process.table⟩, hcurrent⟩
      | loaded seen => cases hstep
      | returned seen => cases hstep
      | failed => cases hstep
  | remember =>
      cases phase with
      | loaded seen =>
          cases hstep
          have hset : Current (process.setGet id ⟨after, .returned seen⟩) := h.setGet id hcurrent
          refine ⟨hset.gets, hset.updates, ?_⟩
          rintro _ ⟨⟩
          have hnew : process.returned.all fun version => decide (version ≤ seen.version) := by
            simpa only [keepsUp, hcall, Option.all_some] using hallowed
          exact ⟨hcurrent.1, fun version hversion =>
            of_decide_eq_true (List.all_eq_true.mp hnew version hversion)⟩
      | loading => cases hstep
      | returned seen => cases hstep
      | failed => cases hstep
  | fail =>
      cases phase with
      | loading =>
          cases hstep
          exact h.setGet id trivial
      | loaded seen =>
          cases hstep
          exact h.setGet id trivial
      | returned seen => cases hstep
      | failed => cases hstep

theorem Current.stepUpdate (h : Current process) {id : Nat} {call : UpdateCall}
    {action : UpdateAction} (hcall : process.updates[id]? = some call)
    (hallowed : keepsUp process (.update id action) = true)
    (hstep : stepUpdate ttl process id call action = some next) : Current next := by
  have hcurrent : call.Current process.table := h.updates call (List.mem_of_getElem? hcall)
  obtain ⟨data, phase⟩ := call
  cases action with
  | lock =>
      cases phase with
      | begun =>
          simp only [RuntimeLimits.stepUpdate] at hstep
          split at hstep
          · cases hstep
            exact h.setUpdate id trivial nofun
          · split at hstep
            · cases hstep
              exact h.grow id List.prefix_rfl trivial nofun
            · cases hstep
      | _ => cases hstep
  | flush =>
      cases phase with
      | locked =>
          cases hstep
          exact h.setUpdate id trivial nofun
      | missing =>
          simp only [RuntimeLimits.stepUpdate] at hstep
          split at hstep
          · cases hstep
            exact h.setUpdate id trivial nofun
          · split at hstep
            · cases hstep
              exact h.grow id List.prefix_rfl trivial nofun
            · cases hstep
      | _ => cases hstep
  | commit =>
      cases phase with
      | flushed =>
          cases hstep
          refine h.grow id (List.prefix_append _ _) ⟨?_, ?_⟩ nofun
          · exact le_rfl
          · exact (valueAt_last rfl).symm
      | _ => cases hstep
  | remember =>
      cases phase with
      | committed saved =>
          cases hstep
          have hnew : process.returned.all fun version => decide (version ≤ saved) := by
            simpa only [keepsUp, hcall, Option.all_some] using hallowed
          refine ⟨h.gets, fun other hother => ?_, ?_⟩
          · rcases mem_set_cases hother with rfl | hold
            · exact hcurrent
            · exact h.updates other hold
          · rintro _ ⟨⟩
            refine ⟨hcurrent, fun version hversion => ?_⟩
            obtain ⟨other, hother, hreturned⟩ := mem_returned.mp hversion
            rcases mem_set_cases hother with rfl | hold
            · cases hreturned
              exact le_rfl
            · exact of_decide_eq_true (List.all_eq_true.mp hnew version
                (mem_returned.mpr ⟨other, hold, hreturned⟩))
      | _ => cases hstep
  | fail =>
      cases phase with
      | returned version => cases hstep
      | failed => cases hstep
      | _ =>
          cases hstep
          exact h.grow id List.prefix_rfl trivial nofun

theorem Current.step (h : Current process) {action : Action}
    (hallowed : keepsUp process action = true) (hstep : step ttl process action = some next) :
    Current next := by
  cases action with
  | elapse duration =>
      simp only [RuntimeLimits.step] at hstep
      split at hstep
      · cases hstep
        exact ⟨h.gets, h.updates, h.cached⟩
      · cases hstep
  | commitElsewhere data =>
      simp only [RuntimeLimits.step] at hstep
      split at hstep
      · cases hstep
        have hgrows := List.prefix_append process.table.versions [data.applyTo]
        exact ⟨fun call hcall => (h.gets call hcall).grown hgrows,
          fun call hcall => (h.updates call hcall).grown hgrows,
          fun seen hseen => ⟨(h.cached seen hseen).1.grown hgrows, (h.cached seen hseen).2⟩⟩
      · cases hstep
  | beginGet =>
      cases hstep
      refine ⟨fun call hcall => ?_, h.updates, h.cached⟩
      rcases List.mem_append.mp hcall with hold | hnew
      · exact h.gets call hold
      · obtain rfl := List.mem_singleton.mp hnew
        exact beginGet_current h
  | beginUpdate data =>
      cases hstep
      refine ⟨h.gets, fun call hcall => ?_, fun seen hseen => ?_⟩
      · rcases List.mem_append.mp hcall with hold | hnew
        · exact h.updates call hold
        · obtain rfl := List.mem_singleton.mp hnew
          trivial
      · refine ⟨(h.cached seen hseen).1, fun version hversion => ?_⟩
        obtain ⟨call, hcall, hreturned⟩ := mem_returned.mp hversion
        rcases List.mem_append.mp hcall with hold | hnew
        · exact (h.cached seen hseen).2 version (mem_returned.mpr ⟨call, hold, hreturned⟩)
        · obtain rfl := List.mem_singleton.mp hnew
          cases hreturned
  | get id action =>
      obtain ⟨call, hcall, hstep⟩ := Option.bind_eq_some_iff.mp hstep
      exact h.stepGet hcall hallowed hstep
  | update id action =>
      obtain ⟨call, hcall, hstep⟩ := Option.bind_eq_some_iff.mp hstep
      exact h.stepUpdate hcall hallowed hstep

/-- A call of `get` that has returned: its value is one that the row had, not before any that an
update of the process had returned when the call began. -/
def Forward (process : Process) : Prop :=
  ∀ call ∈ process.gets, ∀ seen, call.phase = .returned seen →
    seen.value = process.table.valueAt seen.version ∧
      ∀ version ∈ call.after, version ≤ seen.version

/-- **The limits never go back.** When no call remembers a version older than one that an update of
the process has returned, a `get` that begins after an update does not return what was there
before it. -/
theorem limits_never_go_back (versions : List RuntimeSetting)
    (hreach : Reach (step ttl) (fun process action => keepsUp process action = true)
      (Process.start versions) process) : Forward process := by
  have hcurrent : Current process := by
    refine hreach.invariant Current ?_ ?_
    · exact ⟨nofun, nofun, nofun⟩
    · intro before action after h hallowed hstep
      exact h.step hallowed hstep
  intro call hcall seen hphase
  have hsound := hcurrent.gets call hcall
  simp only [GetCall.Current, hphase] at hsound
  exact ⟨hsound.1.2, hsound.2⟩

/-- The row as it is seeded. -/
def seeded : List RuntimeSetting := [RuntimeSettings.default.applyTo]

/-- One turn at a time for everybody. -/
def single : RuntimeSettings := ⟨⟨1, 0⟩, ⟨1, 0⟩, 20⟩

/-- A `get` that is over before an update, and one after it. -/
def readAroundUpdate : List Action :=
  [.beginGet, .get 0 .load, .get 0 .remember, .beginUpdate single, .update 0 .lock,
    .update 0 .flush, .update 0 .commit, .update 0 .remember, .elapse 1, .beginGet]

theorem limits_never_go_back_around_update :
    ∃ process, run (step 30) (Process.start seeded) readAroundUpdate = some process ∧
      Forward process := by
  have hallowed : RunAllowed (step 30) (fun process action => keepsUp process action = true)
      (Process.start seeded) readAroundUpdate := by decide +kernel
  have hruns : (run (step 30) (Process.start seeded) readAroundUpdate).isSome = true := by
    decide +kernel
  obtain ⟨process, hrun⟩ := Option.isSome_iff_exists.mp hruns
  exact ⟨process, hrun, limits_never_go_back seeded (reach_of_run hrun hallowed)⟩

/-- A `get` has read the row when the update begins, and remembers it when that has returned: the
next `get` finds two turns at a time again. -/
theorem limits_go_back :
    (run (step 30) (Process.start seeded)
      [.beginGet, .get 0 .load, .beginUpdate single, .update 0 .lock, .update 0 .flush,
        .update 0 .commit, .update 0 .remember, .get 0 .remember, .elapse 1, .beginGet]).any
      (fun process => process.gets[1]?.any fun call => call.result.any fun seen =>
        call.after = [2] && seen.version = 1 && seen.value.webUser.active = 2) = true := by
  decide +kernel

end
end CodexServer.RuntimeLimits
