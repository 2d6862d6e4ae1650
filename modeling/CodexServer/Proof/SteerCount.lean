import Mathlib.Tactic.Linarith
import CodexServer.SteerCount
import CodexServer.Proof.RateLimit

/-!
# Which steers cut a segment

A check cuts when the count it reads is above the highest it has seen. That is so after every steer,
as long as the key does not expire under one that no check has seen, and does not begin again below
the mark of the loop.
-/

open Transition

namespace CodexServer.SteerCount

open RateLimit (Counter incr alive)

/-! ### The code of a check -/

section

variable (cfg : ExecConfig) (row : TurnRow) {state : StreamState}

theorem checkSteerBoundary_asks (state : StreamState) : ∃ next : Except Fault Nat → CheckCode,
    checkSteerBoundary cfg row state = .call (.peekSteer cfg.turnId) next ∧
      ∀ count, next (.ok count) = noteSteerCount cfg row count state :=
  ⟨_, rfl, fun _ => rfl⟩

variable {cfg row}

theorem noteSteerCount_seen {count : Nat} (hle : count ≤ state.seenSteerCount) :
    noteSteerCount cfg row count state = .ret (.ok (), state) := by
  have hif : noteSteerCount cfg row count state =
      (if count ≤ state.seenSteerCount then (pure () : StreamCode Unit) else (do
        Async.modifyLocal fun state => { state with seenSteerCount := count }
        persistSegment cfg row)) state := rfl
  rw [hif, if_pos hle]
  rfl

theorem noteSteerCount_above {count : Nat} (hlt : ¬count ≤ state.seenSteerCount) :
    noteSteerCount cfg row count state =
      persistSegment cfg row { state with seenSteerCount := count } := by
  have hif : noteSteerCount cfg row count state =
      (if count ≤ state.seenSteerCount then (pure () : StreamCode Unit) else (do
        Async.modifyLocal fun state => { state with seenSteerCount := count }
        persistSegment cfg row)) state := rfl
  rw [hif, if_neg hlt]
  rfl

theorem persistSegment_blank (hblank : state.segmentDelta.1 = "") :
    persistSegment cfg row state = .ret (.ok (), state) := by
  have hif : persistSegment cfg row state =
      (if state.segmentDelta.1 = "" then (pure () : StreamCode Unit)
        else persistPartialSegment cfg row false) state := rfl
  rw [hif, if_pos hblank]
  rfl

/-- The state after a cut with this row. -/
def afterCut (state : StreamState) (id : Nat) : StreamState :=
  { state with partialMsgIds := state.partialMsgIds ++ [id] }.cutSegment

variable (cfg row) in
theorem persistSegment_text (state : StreamState) (htext : state.segmentDelta.1 ≠ "") :
    ∃ (draft : MessageDraft) (next : Except Fault Nat → CheckCode),
      persistSegment cfg row state = .call (.persistPartial cfg.turnId draft false) next ∧
        draft.text = state.segmentDelta.1 ∧ ∀ id, ∃ last : Except Fault Unit → CheckCode,
          next (.ok id) = .call .refresh last ∧
            last (.ok ()) = .ret (.ok (), afterCut state id) := by
  have hif : persistSegment cfg row state =
      (if state.segmentDelta.1 = "" then (pure () : StreamCode Unit)
        else persistPartialSegment cfg row false) state := rfl
  rw [hif, if_neg htext]
  exact ⟨_, _, rfl, rfl, fun _ => ⟨_, rfl, rfl⟩⟩

end

/-! ### Where a check stands -/

/-- The rows of the checks say what was in the buffer up to the last cut. -/
structure Joined (checks : List Check) (state : StreamState) : Prop where
  within : state.segmentBufferOffset ≤ state.collector.buffer.toList.length
  joined : (checks.filterMap Check.row).flatMap (fun row => row.2.toList) =
    state.collector.buffer.toList.take state.segmentBufferOffset

/-- What a check is for: a row just when a steer is new and there is text. -/
structure Check.Right (check : Check) : Prop where
  cuts : check.row.isSome = true ↔ check.unseen = true ∧ check.before.segmentDelta.1 ≠ ""
  text : ∀ id text, check.row = some (id, text) → text = check.before.segmentDelta.1
  after : ∀ id text, check.row = some (id, text) → ∀ steer ∈ check.counted, steer < id

/-- The code of a check that is going on. -/
inductive Going (cfg : ExecConfig) (row : TurnRow) (mark : Nat) (checks : List Check)
    (check : Check) : CheckCode → Prop
  | asking (hbefore : check.before.seenSteerCount = mark) (hrow : check.row = none)
      (hjoined : Joined checks check.before) :
      Going cfg row mark checks check (checkSteerBoundary cfg row check.before)
  | writing (hrow : check.row = none) (hunseen : check.unseen = true)
      (htext : check.before.segmentDelta.1 ≠ "") (hjoined : Joined checks check.before) :
      Going cfg row mark checks check
        (persistSegment cfg row { check.before with seenSteerCount := mark })
  | refreshing {id : Nat} {last : Except Fault Unit → CheckCode} (hright : check.Right)
      (hrow : check.row = some (id, check.before.segmentDelta.1))
      (hjoined : Joined checks check.before)
      (hlast : last (.ok ()) =
        .ret (.ok (), afterCut { check.before with seenSteerCount := mark } id)) :
      Going cfg row mark checks check (.call .refresh last)

/-- Where the loop stands. -/
def Standing (cfg : ExecConfig) (row : TurnRow) (mark : Nat) (checks : List Check) : Phase → Prop
  | .looping state => state.seenSteerCount = mark ∧ Joined checks state
  | .checking check code => Going cfg row mark checks check code
  | .ended => True

/-- The mark of the loop and the count, which is above it just when a steer is new. -/
structure Sound (cfg : ExecConfig) (row : TurnRow) (turn : Turn) : Prop where
  standing : Standing cfg row turn.mark turn.checks turn.phase
  right : ∀ check ∈ turn.checks, check.Right
  steers : ∀ steer ∈ turn.steers, steer.row < turn.nextId
  counted : ∀ id ∈ turn.counted, id < turn.nextId
  nonneg : ∀ counter, turn.key = some counter → 0 ≤ counter.value
  observed : turn.observed ≤ turn.counted.length
  old : turn.observed = turn.counted.length → peeked turn.key ≤ turn.mark
  fresh : turn.observed < turn.counted.length → turn.mark < peeked turn.key

section

variable {cfg : ExecConfig} {row : TurnRow} {ttl : ℚ} {turn next : Turn}

theorem Sound.start (nextId : Nat) : Sound cfg row (Turn.start nextId) := by
  refine ⟨⟨rfl, Nat.zero_le _, rfl⟩, nofun, nofun, nofun, nofun, le_rfl, fun _ => le_rfl, ?_⟩
  intro hlt
  exact absurd hlt (lt_irrefl 0)

theorem peeked_incr {key : Option Counter}
    (hnonneg : ∀ counter, key = some counter → 0 ≤ counter.value) :
    peeked (incr key).2 = peeked key + 1 := by
  cases key with
  | none => rfl
  | some counter =>
      have hpos := hnonneg counter rfl
      show (counter.value + 1).toNat = counter.value.toNat + 1
      omega

/-! ### The steps of a check -/

theorem absorb_buffer (collector : StreamCollector) (event : CodexEvent) :
    ∃ more, (collector.absorb event).buffer.toList = collector.buffer.toList ++ more := by
  cases event with
  | token delta => exact ⟨delta.toList, String.toList_append⟩
  | _ => exact ⟨[], (List.append_nil _).symm⟩

theorem Joined.absorb {checks : List Check} {state : StreamState} (h : Joined checks state)
    (event : CodexEvent) :
    Joined checks { state with collector := state.collector.absorb event } := by
  obtain ⟨more, hmore⟩ := absorb_buffer state.collector event
  constructor
  · simp only [hmore, List.length_append]
    exact h.within.trans (Nat.le_add_right _ _)
  · simp only [hmore, List.take_append_of_le_length h.within]
    exact h.joined

/-- A check without a row leaves the cuts as they are. -/
theorem Joined.skip {checks : List Check} {state : StreamState} (h : Joined checks state)
    {check : Check} (hrow : check.row = none) : Joined (checks ++ [check]) state := by
  refine ⟨h.within, ?_⟩
  simp only [List.filterMap_append, List.filterMap_cons, hrow, List.filterMap_nil, List.append_nil]
  exact h.joined

/-- A row of everything since the last cut brings the next cut to the end of the buffer. -/
theorem Joined.cut {checks : List Check} {state : StreamState} (h : Joined checks state)
    {check : Check} {id : Nat} (hrow : check.row = some (id, state.segmentDelta.1)) (mark : Nat) :
    Joined (checks ++ [check]) (afterCut { state with seenSteerCount := mark } id) := by
  constructor
  · exact le_rfl
  · show _ = state.collector.buffer.toList.take state.collector.buffer.toList.length
    rw [List.take_length, List.filterMap_append, List.flatMap_append, h.joined]
    simp [hrow, StreamState.segmentDelta]

theorem Sound.peek (h : Sound cfg row turn) {check : Check}
    {answered : Except Fault Nat → CheckCode} {turnId : Nat}
    (hphase : turn.phase = .checking check (.call (.peekSteer turnId) answered)) :
    Sound cfg row (({ turn with
        observed := turn.counted.length
        mark := max turn.mark (peeked turn.key) }).goOn
      { check with
        unseen := decide (turn.observed < turn.counted.length)
        counted := turn.counted } (answered (.ok (peeked turn.key)))) := by
  have hgoing := h.standing
  rw [hphase] at hgoing
  obtain ⟨hbefore, hrow, hjoined, hnext⟩ : check.before.seenSteerCount = turn.mark ∧
      check.row = none ∧ Joined turn.checks check.before ∧
      ∀ count, answered (.ok count) = noteSteerCount cfg row count check.before := by
    generalize hcode : (Program.call (.peekSteer turnId) answered : CheckCode) = code at hgoing
    cases hgoing with
    | asking hbefore hrow hjoined =>
        obtain ⟨asked, hasks, hasked⟩ := checkSteerBoundary_asks cfg row check.before
        cases hcode.trans hasks
        exact ⟨hbefore, hrow, hjoined, hasked⟩
    | writing hrow hunseen htext hjoined =>
        obtain ⟨draft, written, hcall, -⟩ := persistSegment_text cfg row
          { check.before with seenSteerCount := turn.mark } htext
        cases hcode.trans hcall
    | refreshing hright hrow hjoined hlast => cases hcode
  rw [hnext]
  by_cases hle : peeked turn.key ≤ turn.mark
  · have hold : turn.observed = turn.counted.length := by
      by_contra hne
      have := h.fresh (lt_of_le_of_ne h.observed hne)
      omega
    rw [noteSteerCount_seen (hbefore ▸ hle), max_eq_left hle]
    refine ⟨⟨hbefore, hjoined.skip hrow⟩, ?_, h.steers, h.counted, h.nonneg, le_rfl,
      fun _ => hle, fun hlt => absurd hlt (lt_irrefl _)⟩
    intro other hother
    rcases List.mem_append.mp hother with hbefore | hnew
    · exact h.right other hbefore
    · obtain rfl := List.mem_singleton.mp hnew
      simp only [hold, lt_self_iff_false, decide_false]
      refine ⟨by simp [hrow], ?_, ?_⟩
      · intro id text hsome
        cases hrow.symm.trans hsome
      · intro id text hsome
        cases hrow.symm.trans hsome
  · have hnew : turn.observed < turn.counted.length :=
      lt_of_le_of_ne h.observed fun hsame => hle (h.old hsame)
    have hmark : max turn.mark (peeked turn.key) = peeked turn.key :=
      max_eq_right (not_le.mp hle).le
    rw [noteSteerCount_above (hbefore ▸ hle), hmark, decide_eq_true hnew]
    by_cases htext : check.before.segmentDelta.1 = ""
    · have hblank : persistSegment cfg row
          { check.before with seenSteerCount := peeked turn.key } =
            .ret (.ok (), { check.before with seenSteerCount := peeked turn.key }) :=
        persistSegment_blank htext
      have hskip : Joined
          (turn.checks ++ [{ check with unseen := true, counted := turn.counted }]) check.before :=
        hjoined.skip hrow
      rw [hblank]
      refine ⟨⟨rfl, { hskip with }⟩, ?_, h.steers, h.counted, h.nonneg, le_rfl,
        fun _ => le_rfl, fun hlt => absurd hlt (lt_irrefl _)⟩
      intro other hother
      rcases List.mem_append.mp hother with hbefore | hlast
      · exact h.right other hbefore
      · obtain rfl := List.mem_singleton.mp hlast
        refine ⟨by simp [hrow, htext], ?_, ?_⟩
        · intro id text hsome
          cases hrow.symm.trans hsome
        · intro id text hsome
          cases hrow.symm.trans hsome
    · have hgoing : Going cfg row (peeked turn.key) turn.checks
          { check with unseen := true, counted := turn.counted }
          (persistSegment cfg row { check.before with seenSteerCount := peeked turn.key }) :=
        .writing hrow rfl htext { hjoined with }
      obtain ⟨draft, written, hcall, -⟩ := persistSegment_text cfg row
        { check.before with seenSteerCount := peeked turn.key } htext
      rw [hcall] at hgoing ⊢
      exact ⟨hgoing, h.right, h.steers, h.counted, h.nonneg, le_rfl,
        fun _ => le_rfl, fun hlt => absurd hlt (lt_irrefl _)⟩

theorem Sound.persist (h : Sound cfg row turn) {check : Check} {draft : MessageDraft}
    {written : Except Fault Nat → CheckCode} {turnId : Nat} {emitJournal : Bool}
    (hphase : turn.phase = .checking check (.call (.persistPartial turnId draft emitJournal)
      written)) :
    Sound cfg row (({ turn with nextId := turn.nextId + 1 }).goOn
      { check with counted := turn.counted, row := some (turn.nextId, draft.text) }
      (written (.ok turn.nextId))) := by
  have hgoing := h.standing
  rw [hphase] at hgoing
  obtain ⟨hunseen, htext, hjoined, hdraft, last, hrefresh, hlast⟩ : check.unseen = true ∧
      check.before.segmentDelta.1 ≠ "" ∧ Joined turn.checks check.before ∧
      draft.text = check.before.segmentDelta.1 ∧ ∃ last : Except Fault Unit → CheckCode,
        written (.ok turn.nextId) = .call .refresh last ∧ last (.ok ()) = .ret (.ok (),
          afterCut { check.before with seenSteerCount := turn.mark } turn.nextId) := by
    generalize hcode : (Program.call (.persistPartial turnId draft emitJournal) written :
      CheckCode) = code at hgoing
    cases hgoing with
    | asking hbefore hrow hjoined =>
        obtain ⟨asked, hasks, -⟩ := checkSteerBoundary_asks cfg row check.before
        cases hcode.trans hasks
    | writing hrow hunseen htext hjoined =>
        obtain ⟨_, _, hcall, hdraft, hwritten⟩ := persistSegment_text cfg row
          { check.before with seenSteerCount := turn.mark } htext
        cases hcode.trans hcall
        exact ⟨hunseen, htext, hjoined, hdraft, hwritten turn.nextId⟩
    | refreshing hright hrow hjoined hlast => cases hcode
  rw [hrefresh, hdraft]
  refine ⟨.refreshing ⟨by simp [hunseen, htext], ?_, ?_⟩ rfl hjoined hlast, h.right,
    fun steer hsteer => (h.steers steer hsteer).trans (Nat.lt_succ_self _),
    fun id hid => (h.counted id hid).trans (Nat.lt_succ_self _), h.nonneg, h.observed, h.old,
    h.fresh⟩
  · rintro id text ⟨⟩
    rfl
  · rintro id text ⟨⟩ steer hsteer
    exact h.counted steer hsteer

theorem Sound.refresh (h : Sound cfg row turn) {check : Check}
    {last : Except Fault Unit → CheckCode}
    (hphase : turn.phase = .checking check (.call .refresh last)) :
    Sound cfg row (turn.goOn check (last (.ok ()))) := by
  have hgoing := h.standing
  rw [hphase] at hgoing
  obtain ⟨id, hright, hrow, hjoined, hlast⟩ : ∃ id, check.Right ∧
      check.row = some (id, check.before.segmentDelta.1) ∧ Joined turn.checks check.before ∧
      last (.ok ()) =
        .ret (.ok (), afterCut { check.before with seenSteerCount := turn.mark } id) := by
    generalize hcode : (Program.call .refresh last : CheckCode) = code at hgoing
    cases hgoing with
    | asking hbefore hrow hjoined =>
        obtain ⟨asked, hasks, -⟩ := checkSteerBoundary_asks cfg row check.before
        cases hcode.trans hasks
    | writing hrow hunseen htext hjoined =>
        obtain ⟨_, _, hcall, -⟩ := persistSegment_text cfg row
          { check.before with seenSteerCount := turn.mark } htext
        cases hcode.trans hcall
    | refreshing hright hrow hjoined hlast =>
        cases hcode
        exact ⟨_, hright, hrow, hjoined, hlast⟩
  rw [hlast]
  refine ⟨⟨rfl, hjoined.cut hrow turn.mark⟩, ?_, h.steers, h.counted, h.nonneg, h.observed, h.old,
    h.fresh⟩
  intro other hother
  rcases List.mem_append.mp hother with hbefore | hnew
  · exact h.right other hbefore
  · obtain rfl := List.mem_singleton.mp hnew
    exact hright

/-! ### The steps of a steer -/

/-- The key does not expire under a steer that no check has seen, and when a steer is counted the
count has not fallen below the mark of the loop. -/
def steady (turn : Turn) : Action → Bool
  | .elapse duration => decide (turn.observed = turn.counted.length) ||
      turn.key.all fun counter => alive (turn.clock + duration) counter.deadline
  | .count _ => decide (turn.mark ≤ peeked turn.key)
  | _ => true

theorem Sound.elapse (h : Sound cfg row turn) {duration : ℚ}
    (hallowed : steady turn (.elapse duration) = true) :
    Sound cfg row { turn with
      clock := turn.clock + duration
      key := turn.key.filter fun counter => alive (turn.clock + duration) counter.deadline } := by
  have hnonneg : ∀ counter, turn.key.filter
      (fun counter => alive (turn.clock + duration) counter.deadline) = some counter →
        0 ≤ counter.value :=
    fun counter hcounter => h.nonneg counter (Option.filter_eq_some_iff.mp hcounter).1
  have hle : peeked (turn.key.filter fun counter =>
      alive (turn.clock + duration) counter.deadline) ≤ peeked turn.key := by
    cases hkey : turn.key with
    | none => exact le_rfl
    | some counter =>
        cases halive : alive (turn.clock + duration) counter.deadline with
        | true => simp [Option.filter, halive]
        | false => simp [Option.filter, halive, peeked]
  refine ⟨h.standing, h.right, h.steers, h.counted, hnonneg, h.observed,
    fun hsame => hle.trans (h.old hsame), fun hlt => ?_⟩
  have hkept : (turn.key.filter fun counter =>
      alive (turn.clock + duration) counter.deadline) = turn.key := by
    have hall : (turn.key.all fun counter =>
        alive (turn.clock + duration) counter.deadline) = true := by
      simpa [steady, hlt.ne] using hallowed
    cases hkey : turn.key with
    | none => rfl
    | some counter =>
        rw [hkey] at hall
        have halive : alive (turn.clock + duration) counter.deadline = true := hall
        simp [Option.filter, halive]
  show turn.mark < peeked (turn.key.filter _)
  rw [hkept]
  exact h.fresh hlt

theorem Sound.steer (h : Sound cfg row turn) :
    Sound cfg row { turn with
      steers := turn.steers ++ [⟨turn.nextId, .accepted⟩]
      nextId := turn.nextId + 1 } := by
  refine ⟨h.standing, h.right, fun steer hsteer => ?_,
    fun id hid => (h.counted id hid).trans (Nat.lt_succ_self _), h.nonneg, h.observed, h.old,
    h.fresh⟩
  rcases List.mem_append.mp hsteer with hold | hnew
  · exact (h.steers steer hold).trans (Nat.lt_succ_self _)
  · obtain rfl := List.mem_singleton.mp hnew
    exact Nat.lt_succ_self _

theorem Sound.count (h : Sound cfg row turn) {index steer : Nat}
    (hsteer : turn.steers[index]? = some ⟨steer, .accepted⟩)
    (hallowed : steady turn (.count index) = true) :
    Sound cfg row { turn with
      key := (incr turn.key).2
      steers := turn.steers.set index ⟨steer, .counted⟩
      counted := turn.counted ++ [steer] } := by
  have hmore : peeked (incr turn.key).2 = peeked turn.key + 1 := peeked_incr h.nonneg
  have hid : steer < turn.nextId := h.steers _ (List.mem_of_getElem? hsteer)
  have hlength : (turn.counted ++ [steer]).length = turn.counted.length + 1 := by simp
  have hmark : turn.mark ≤ peeked turn.key := of_decide_eq_true hallowed
  refine ⟨h.standing, h.right, fun other hother => ?_, fun id hmem => ?_, ?_, ?_, fun hsame => ?_,
    fun _ => ?_⟩
  · rcases List.mem_or_eq_of_mem_set hother with hold | rfl
    · exact h.steers other hold
    · exact hid
  · rcases List.mem_append.mp hmem with hold | hnew
    · exact h.counted id hold
    · obtain rfl := List.mem_singleton.mp hnew
      exact hid
  · intro counter hcounter
    cases hkey : turn.key with
    | none =>
        rw [hkey] at hcounter
        cases hcounter
        exact Int.one_nonneg
    | some before =>
        rw [hkey] at hcounter
        cases hcounter
        exact add_nonneg (h.nonneg before hkey) Int.one_nonneg
  · rw [hlength]
    exact h.observed.trans (Nat.le_succ _)
  · have hobserved := h.observed
    simp only [hlength] at hsame
    omega
  · simp only [hmore]
    omega

theorem Sound.prolong (h : Sound cfg row turn) {index steer : Nat}
    (hsteer : turn.steers[index]? = some ⟨steer, .counted⟩) (deadline : ℚ) :
    Sound cfg row { turn with
      key := turn.key.map (Counter.expireAt deadline)
      steers := turn.steers.set index ⟨steer, .bumped⟩ } := by
  have hsame : peeked (turn.key.map (Counter.expireAt deadline)) = peeked turn.key := by
    cases turn.key with
    | none => rfl
    | some counter => rfl
  refine ⟨h.standing, h.right, fun other hother => ?_, h.counted, ?_, h.observed,
    fun hall => hsame.le.trans (h.old hall), fun hlt => (h.fresh hlt).trans_eq hsame.symm⟩
  · rcases List.mem_or_eq_of_mem_set hother with hold | rfl
    · exact h.steers other hold
    · exact h.steers ⟨steer, .counted⟩ (List.mem_of_getElem? hsteer)
  · intro counter hcounter
    obtain ⟨before, hbefore, rfl⟩ := Option.map_eq_some_iff.mp hcounter
    exact h.nonneg before hbefore

/-! ### Runs -/

theorem Sound.step (h : Sound cfg row turn) {action : Action}
    (hallowed : steady turn action = true) (hstep : step cfg row ttl turn action = some next) :
    Sound cfg row next := by
  cases action with
  | elapse duration =>
      simp only [SteerCount.step] at hstep
      split at hstep
      · cases hstep
        exact h.elapse hallowed
      · cases hstep
  | append =>
      cases hstep
      exact { h with
        steers := fun steer hsteer => (h.steers steer hsteer).trans (Nat.lt_succ_self _)
        counted := fun id hid => (h.counted id hid).trans (Nat.lt_succ_self _) }
  | event event =>
      simp only [SteerCount.step] at hstep
      split at hstep
      · rename_i state hphase
        cases hstep
        have hstanding := h.standing
        rw [hphase] at hstanding
        exact { h with standing := ⟨hstanding.1, hstanding.2.absorb event⟩ }
      · cases hstep
  | steer =>
      cases hstep
      exact h.steer
  | count index =>
      simp only [SteerCount.step] at hstep
      split at hstep
      · rename_i steer hsteer
        cases hstep
        exact h.count hsteer hallowed
      · cases hstep
  | prolong index =>
      simp only [SteerCount.step] at hstep
      split at hstep
      · rename_i steer hsteer
        cases hstep
        exact h.prolong hsteer _
      · cases hstep
  | check =>
      simp only [SteerCount.step] at hstep
      split at hstep
      · rename_i state hphase
        cases hstep
        have hstanding := h.standing
        rw [hphase] at hstanding
        have hgoing : Going cfg row turn.mark turn.checks ⟨state, false, [], none⟩
            (checkSteerBoundary cfg row state) := .asking hstanding.1 rfl hstanding.2
        obtain ⟨asked, hasks, -⟩ := checkSteerBoundary_asks cfg row state
        rw [hasks] at hgoing ⊢
        exact { h with standing := hgoing }
      · cases hstep
  | peek =>
      simp only [SteerCount.step] at hstep
      split at hstep
      · rename_i check turnId answered hphase
        cases hstep
        exact h.peek hphase
      · cases hstep
  | persist =>
      simp only [SteerCount.step] at hstep
      split at hstep
      · rename_i check turnId draft emitJournal written hphase
        cases hstep
        exact h.persist hphase
      · cases hstep
  | refresh =>
      simp only [SteerCount.step] at hstep
      split at hstep
      · rename_i check last hphase
        cases hstep
        exact h.refresh hphase
      · cases hstep

/-- Every check has cut just when a steer was new and there was text, with a row after those of the
steers; and between two checks the rows and the tail are the whole buffer. -/
structure Cuts (turn : Turn) : Prop where
  checks : ∀ check ∈ turn.checks, check.Right
  whole : ∀ state, turn.phase = .looping state →
    (turn.checks.filterMap Check.row).flatMap (fun row => row.2.toList) ++
      state.segmentDelta.1.toList = state.collector.buffer.toList

/-- **Every accepted steer cuts a segment**, when the key of the count does not expire under a steer
that no check has seen, nor the count begin again below the mark of the loop. -/
theorem steer_cuts_segment (cfg : ExecConfig) (row : TurnRow) (ttl : ℚ) (nextId : Nat)
    (hreach : Reach (step cfg row ttl) (fun turn action => steady turn action = true)
      (Turn.start nextId) turn) : Cuts turn := by
  have hsound : Sound cfg row turn := by
    refine hreach.invariant (Sound cfg row) (Sound.start nextId) ?_
    intro before action after h hallowed hstep
    exact h.step hallowed hstep
  refine ⟨hsound.right, fun state hphase => ?_⟩
  have hstanding := hsound.standing
  rw [hphase] at hstanding
  rw [hstanding.2.joined]
  simp [StreamState.segmentDelta]

end

def someConfig : ExecConfig := ⟨1, 1, none, 0, 300, 1, ⟨.ok ("thread", "turn"), []⟩⟩

def someRow : TurnRow := .starting 1 ⟨1, 1, 1, .admin⟩ 0

/-- Text, a steer, and the check that cuts. -/
def steered : List Action :=
  [.event (.token "a"), .steer, .count 0, .prolong 0, .check, .peek, .persist, .refresh]

theorem steer_cuts_segment_once :
    ∃ turn, run (step someConfig someRow (ttlS 300 300)) (Turn.start 7) steered = some turn ∧
      Cuts turn := by
  have hallowed : RunAllowed (step someConfig someRow (ttlS 300 300))
      (fun turn action => steady turn action = true) (Turn.start 7) steered := by decide +kernel
  have hruns : (run (step someConfig someRow (ttlS 300 300)) (Turn.start 7) steered).isSome =
      true := by decide +kernel
  obtain ⟨turn, hrun⟩ := Option.isSome_iff_exists.mp hruns
  exact ⟨turn, hrun, steer_cuts_segment someConfig someRow _ 7 (reach_of_run hrun hallowed)⟩

/-- The key has expired since the last steer: the next one is counted as the first again, and the
check does not see it. -/
theorem steer_not_cut :
    (run (step someConfig someRow (ttlS 300 300)) (Turn.start 7)
      (steered ++ [.event (.token "b"), .elapse 400, .steer, .count 1, .prolong 1, .check,
        .peek])).any (fun turn => turn.checks.any fun check =>
          check.unseen && check.before.segmentDelta.1 = "b" && check.row.isNone) = true := by
  decide +kernel

end CodexServer.SteerCount
