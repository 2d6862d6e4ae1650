import Mathlib.Tactic.Linarith
import CodexServer.CodexPrefs

/-!
# Which turn options are valid

A saved effort is checked when it is saved, and never again; everything else is checked against the
catalog the turn uses.
-/

open Transition

namespace CodexServer.CodexPrefs

/-! ### One resolution -/

/-- A model that is not known, or a model of the catalog with an effort it supports. -/
def Valid (models : List CodexModel) : Except PrefsError TurnOptions → Prop
  | .error (.unknownModel _) => True
  | .error (.unsupportedReasoningEffort _ _) => False
  | .ok options => ∃ model ∈ models, options.model = some model.id ∧
      ∀ effort, options.reasoningEffort = some effort → supports model effort = true

/-- The saved effort is one that the model of the preference supports in this catalog. -/
def EffortHeld (models : List CodexModel) (prefs : CodexPreferences) : Prop :=
  ∀ effort, prefs.reasoningEffort = some effort →
    ∀ model, effectiveModel models prefs.model = some model →
      ∃ other ∈ models, other.id = model.id ∧ supports other effort = true

theorem effectiveModel_mem {models : List CodexModel} {wanted : Option String} {model : CodexModel}
    (h : effectiveModel models wanted = some model) : model ∈ models := by
  cases wanted with
  | none => exact List.mem_of_find?_eq_some h
  | some modelId => exact List.mem_of_find?_eq_some h

/-- The fallback is dropped when the model does not support it. -/
theorem valid_of_no_effort {setting : String} {models : List CodexModel} {prefs : CodexPreferences}
    (hnone : prefs.reasoningEffort = none) : Valid models (resolve setting models prefs) := by
  unfold resolve
  cases hmodel : effectiveModel models prefs.model with
  | none => trivial
  | some model =>
      simp only [hnone]
      cases fallbackReasoningEffort setting with
      | none => exact ⟨model, effectiveModel_mem hmodel, rfl, nofun⟩
      | some fallback =>
          refine ⟨model, effectiveModel_mem hmodel, rfl, fun effort heffort => ?_⟩
          obtain ⟨hsupports, hsame⟩ := Option.ite_none_right_eq_some.mp heffort
          cases hsame
          exact hsupports

theorem resolve_valid_iff (setting : String) (models : List CodexModel) (prefs : CodexPreferences) :
    Valid models (resolve setting models prefs) ↔ EffortHeld models prefs := by
  obtain ⟨wanted, effort⟩ := prefs
  cases effort with
  | none =>
      constructor
      · intro _ effort heffort
        cases heffort
      · intro _
        exact valid_of_no_effort rfl
  | some effort =>
      cases hmodel : effectiveModel models wanted with
      | none =>
          have hresolve : resolve setting models ⟨wanted, some effort⟩ =
              .error (.unknownModel (modelOrDefault wanted)) := by
            simp only [resolve, hmodel]
          rw [hresolve]
          refine iff_of_true trivial fun _ _ model heffective => ?_
          rw [hmodel] at heffective
          cases heffective
      | some model =>
          have hresolve : resolve setting models ⟨wanted, some effort⟩ =
              .ok ⟨some model.id, some effort⟩ := by
            simp only [resolve, hmodel]
          rw [hresolve]
          constructor
          · rintro ⟨other, hother, hid, hsupports⟩ _ ⟨⟩ chosen hchosen
            cases hmodel.symm.trans hchosen
            exact ⟨other, hother, (Option.some.inj hid).symm, hsupports effort rfl⟩
          · intro hheld
            obtain ⟨other, hother, hid, hsupports⟩ := hheld effort rfl model hmodel
            refine ⟨other, hother, congrArg some hid.symm, ?_⟩
            rintro _ ⟨⟩
            exact hsupports

/-! ### The catalog that is listed -/

section

variable {Raw : Type} {validate : Raw → Option CodexModelIn} {setting : String}
variable {world next : World Raw}

/-- What is cached is an answer, and runs out within ten minutes of the next one. -/
structure Cached (validate : Raw → Option CodexModelIn) (world : World Raw) (sidecar : SidecarName)
    (entry : CacheEntry) : Prop where
  read : ∃ report, (world.reports sidecar)[entry.report]? = some report ∧
    entry.models = parse validate report.raw
  soon : entry.deadline ≤ world.clock + cacheTtl
  next : ∀ report, (world.reports sidecar)[entry.report + 1]? = some report →
    entry.deadline ≤ report.since + cacheTtl

structure Sound (validate : Raw → Option CodexModelIn) (world : World Raw) : Prop where
  answers : ∀ sidecar, world.reports sidecar ≠ []
  cached : ∀ sidecar entry, world.cache sidecar = some entry → Cached validate world sidecar entry

theorem answer_eq {sidecar : SidecarName} (h : world.reports sidecar ≠ []) :
    ∃ report, (world.reports sidecar)[(world.reports sidecar).length - 1]? = some report ∧
      world.answer sidecar = report.raw := by
  refine ⟨(world.reports sidecar).getLast h, ?_, ?_⟩
  · rw [← List.getLast?_eq_getElem?, List.getLast?_eq_some_getLast h]
  · simp [World.answer, List.getLast?_eq_some_getLast h]

theorem Sound.listed (h : Sound validate world) (redis : Redis) (sidecar : SidecarName) :
    Sound validate (world.listed validate redis sidecar) := by
  unfold World.listed
  split
  · refine ⟨h.answers, fun other entry hentry => ?_⟩
    by_cases hsame : other = sidecar
    · subst hsame
      simp only [Function.update_self, Option.some.injEq] at hentry
      subst hentry
      obtain ⟨report, hreport, hanswer⟩ := answer_eq (h.answers other)
      refine ⟨⟨report, hreport, congrArg (parse validate) hanswer⟩, le_rfl, ?_⟩
      intro later hlater
      have hpos := List.length_pos_of_ne_nil (h.answers other)
      have hlt : (world.reports other).length - 1 + 1 < (world.reports other).length :=
        (List.getElem?_eq_some_iff.mp hlater).1
      omega
    · simp only [Function.update_of_ne hsame] at hentry
      obtain ⟨hread, hsoon, hnext⟩ := h.cached other entry hentry
      exact ⟨hread, hsoon, hnext⟩
  · exact h

theorem Sound.rows (h : Sound validate world) (rows : Nat → Option CodexPreferences) :
    Sound validate { world with rows := rows } :=
  ⟨h.answers, fun sidecar entry hentry =>
    ⟨(h.cached sidecar entry hentry).read, (h.cached sidecar entry hentry).soon,
      (h.cached sidecar entry hentry).next⟩⟩

theorem Sound.report (h : Sound validate world) (sidecar : SidecarName) (raw : List Raw) :
    Sound validate { world with
      reports := Function.update world.reports sidecar
        (world.reports sidecar ++ [⟨raw, world.clock⟩]) } := by
  constructor
  · intro other
    by_cases hsame : other = sidecar
    · subst hsame
      simp
    · simp only [Function.update_of_ne hsame]
      exact h.answers other
  · intro other entry hentry
    obtain ⟨⟨report, hreport, hmodels⟩, hsoon, hnext⟩ := h.cached other entry hentry
    by_cases hsame : other = sidecar
    · subst hsame
      have hlt := (List.getElem?_eq_some_iff.mp hreport).1
      refine ⟨⟨report, ?_, hmodels⟩, hsoon, fun later hlater => ?_⟩
      · simp only [Function.update_self]
        exact (List.getElem?_append_left hlt).trans hreport
      · simp only [Function.update_self] at hlater
        by_cases hold : entry.report + 1 < (world.reports other).length
        · exact hnext later ((List.getElem?_append_left hold).symm.trans hlater)
        · have hlast : entry.report + 1 = (world.reports other).length := by omega
          rw [hlast, List.getElem?_concat_length] at hlater
          cases hlater
          exact hsoon
    · refine ⟨⟨report, ?_, hmodels⟩, hsoon, ?_⟩
      · simp only [Function.update_of_ne hsame]
        exact hreport
      · simp only [Function.update_of_ne hsame]
        exact hnext

theorem Sound.step (h : Sound validate world) {action : Action Raw}
    (hstep : step validate world action = some next) : Sound validate next := by
  cases action with
  | elapse duration =>
      simp only [CodexPrefs.step] at hstep
      split at hstep
      · rename_i hpos
        cases hstep
        refine ⟨h.answers, fun sidecar entry hentry => ?_⟩
        obtain ⟨hread, hsoon, hnext⟩ := h.cached sidecar entry hentry
        refine ⟨hread, ?_, hnext⟩
        show entry.deadline ≤ world.clock + duration + cacheTtl
        linarith
      · cases hstep
  | report sidecar raw =>
      cases hstep
      exact h.report sidecar raw
  | list redis sidecar =>
      cases hstep
      exact h.listed redis sidecar
  | resolve redis sidecar user =>
      cases hstep
      exact h.listed redis sidecar
  | update redis sidecar user prefs =>
      cases hstep
      unfold World.update
      split
      · exact h.listed redis sidecar
      · exact (h.listed redis sidecar).rows _

/-- The models are an answer of the sidecar that it still gave less than ten minutes ago. -/
def Recent (validate : Raw → Option CodexModelIn) (world : World Raw) (sidecar : SidecarName)
    (models : List CodexModel) : Prop :=
  ∃ position report, (world.reports sidecar)[position]? = some report ∧
    models = parse validate report.raw ∧
    ∀ later, (world.reports sidecar)[position + 1]? = some later →
      world.clock < later.since + cacheTtl

theorem Sound.recent (h : Sound validate world) (redis : Redis) (sidecar : SidecarName) :
    Recent validate world sidecar (world.list validate redis sidecar) := by
  unfold World.list
  cases hcache : world.readCache redis sidecar with
  | none =>
      obtain ⟨report, hreport, hanswer⟩ := answer_eq (h.answers sidecar)
      refine ⟨_, report, hreport, congrArg (parse validate) hanswer, fun later hlater => ?_⟩
      have hpos := List.length_pos_of_ne_nil (h.answers sidecar)
      have hlt := (List.getElem?_eq_some_iff.mp hlater).1
      omega
  | some models =>
      obtain ⟨entry, hentry, rfl⟩ : ∃ entry, (world.cache sidecar).filter
          (fun entry => world.clock < entry.deadline) = some entry ∧ entry.models = models := by
        unfold World.readCache at hcache
        split at hcache
        · exact Option.map_eq_some_iff.mp hcache
        · cases hcache
      obtain ⟨hmem, hfresh⟩ := Option.filter_eq_some_iff.mp hentry
      obtain ⟨⟨report, hreport, hmodels⟩, -, hnext⟩ := h.cached sidecar entry hmem
      exact ⟨_, report, hreport, hmodels,
        fun later hlater => (of_decide_eq_true hfresh).trans_le (hnext later hlater)⟩

/-- A sidecar that has changed nothing for ten minutes is listed as it answers. -/
theorem Recent.eq_answer {sidecar : SidecarName} {models : List CodexModel}
    (h : Recent validate world sidecar models)
    (hsettled : ∀ position later, (world.reports sidecar)[position + 1]? = some later →
      later.since + cacheTtl ≤ world.clock) : models = parse validate (world.answer sidecar) := by
  obtain ⟨position, report, hreport, rfl, hlater⟩ := h
  have hlt := (List.getElem?_eq_some_iff.mp hreport).1
  have hlast : (world.reports sidecar)[position + 1]? = none := by
    cases hnext : (world.reports sidecar)[position + 1]? with
    | none => rfl
    | some later => exact absurd (hsettled position later hnext) (not_le.mpr (hlater later hnext))
  have hend : position = (world.reports sidecar).length - 1 := by
    have := List.getElem?_eq_none_iff.mp hlast
    omega
  have hanswer : (world.reports sidecar).getLast? = some report := by
    rw [List.getLast?_eq_getElem?, ← hend]
    exact hreport
  simp [World.answer, hanswer]

/-- **When the options of a turn are valid.** In every world that can come about, they are if and
only if the saved effort, if there is one, is supported by the model of the preference in the
catalog that is listed. That is one the sidecar gave less than ten minutes ago, and the one it gives
now if it has changed nothing since. -/
theorem turn_options_valid (answers : SidecarName → List Raw) (setting : String) (redis : Redis)
    (sidecar : SidecarName) (user : Nat)
    (hreach : Reach (step validate) (fun _ _ => True) (World.start answers) world) :
    Recent validate world sidecar (world.list validate redis sidecar) ∧
      (Valid (world.list validate redis sidecar)
          (world.resolveTurnOptions validate setting redis sidecar user) ↔
        EffortHeld (world.list validate redis sidecar) (world.prefs user)) ∧
      ((∀ position later, (world.reports sidecar)[position + 1]? = some later →
          later.since + cacheTtl ≤ world.clock) →
        (Valid (parse validate (world.answer sidecar))
            (world.resolveTurnOptions validate setting redis sidecar user) ↔
          EffortHeld (parse validate (world.answer sidecar)) (world.prefs user))) := by
  have hsound : Sound validate world := by
    refine hreach.invariant (Sound validate) ?_ ?_
    · exact ⟨fun _ => List.cons_ne_nil _ _, nofun⟩
    · intro before action after h _ hstep
      exact h.step hstep
  have hrecent := hsound.recent redis sidecar
  have hvalid := resolve_valid_iff setting (world.list validate redis sidecar) (world.prefs user)
  refine ⟨hrecent, hvalid, fun hsettled => ?_⟩
  rw [← hrecent.eq_answer hsettled]
  exact hvalid

end

/-- A default model with these efforts. -/
def defaultModel (id : String) (efforts : List String) : CodexModelIn :=
  ⟨id, id, "", false, true, "low", efforts.map fun effort => ⟨effort, ""⟩⟩

/-- A user asks for much effort of the default model, and the default moves. -/
def defaultMoves : List (Action CodexModelIn) :=
  [.update ⟨true, true⟩ .admin 1 ⟨none, some "high"⟩, .elapse 60,
    .report .admin [defaultModel "small" ["low"]], .elapse 600]

/-- Every sidecar has one model, for little and for much effort. -/
def oneModel : SidecarName → List CodexModelIn := fun _ => [defaultModel "large" ["low", "high"]]

theorem turn_options_valid_before_move :
    ∃ world, run (step some) (World.start oneModel)
        [.update ⟨true, true⟩ .admin 1 ⟨none, some "high"⟩, .elapse 60] = some world ∧
      Recent some world .admin (world.list some ⟨true, true⟩ .admin) ∧
      (Valid (world.list some ⟨true, true⟩ .admin)
          (world.resolveTurnOptions some "medium" ⟨true, true⟩ .admin 1) ↔
        EffortHeld (world.list some ⟨true, true⟩ .admin) (world.prefs 1)) ∧
      (Valid (parse some (world.answer .admin))
          (world.resolveTurnOptions some "medium" ⟨true, true⟩ .admin 1) ↔
        EffortHeld (parse some (world.answer .admin)) (world.prefs 1)) := by
  have hruns : (run (step some) (World.start oneModel)
      [.update ⟨true, true⟩ .admin 1 ⟨none, some "high"⟩, .elapse 60]).any
      (fun world => (world.reports .admin).length == 1) = true := by
    decide +kernel
  obtain ⟨world, hrun, hlength⟩ := (Option.any_eq_true _ _).mp hruns
  obtain ⟨hrecent, hlisted, hcurrent⟩ := turn_options_valid oneModel "medium" ⟨true, true⟩ .admin 1
    (reach_of_run_all hrun)
  refine ⟨world, hrun, hrecent, hlisted, hcurrent fun position later hlater => ?_⟩
  -- the sidecar has answered one list only
  have hbound := (List.getElem?_eq_some_iff.mp hlater).1
  have hone := beq_iff_eq.mp hlength
  omega

theorem turn_options_unsupported :
    (run (step some) (World.start oneModel) defaultMoves).any (fun world =>
      decide (world.resolveTurnOptions some "medium" ⟨true, true⟩ .admin 1 =
        .ok ⟨some "small", some "high"⟩) &&
      decide (world.list some ⟨true, true⟩ .admin = parse some (world.answer .admin)) &&
      (world.list some ⟨true, true⟩ .admin).all fun model => !supports model "high") = true := by
  decide +kernel

end CodexServer.CodexPrefs
