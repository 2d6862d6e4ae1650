import CodexServer.Usage
import CodexServer.Library.Noninterference
import CodexServer.Library.Fallible

/-!
# The side channel and the turn

What is raised while the usage panel is served goes up into the turn, unless it is one of the three
exceptions that are caught. A turn does not notice its account notifications just if nothing else is
raised at those that are read.
-/

open Noninterference

namespace CodexServer.Usage

/-! ### When nothing is raised -/

/-- It has a `datetime`. -/
def PyFloat.Dated : PyFloat → Prop
  | .finite value =>
      -62135596800000000 ≤ roundHalfEven (value * 1000000) ∧
        roundHalfEven (value * 1000000) < 253402300800000000
  | .infinite _ | .nan => False

/-- The reset of a window in use has one. -/
def Resettable (window : Option RateLimitWindowIn) : Prop :=
  ∀ found ∈ window, found.usedPercent ≠ none → ∀ timestamp ∈ found.resetsAt, timestamp.Dated

/-- Redis does the two commands, or raises its own error. -/
def Behaviour.RedisQuiet (behaviour : Behaviour) : Prop :=
  behaviour.set = .error .redisError ∨
    behaviour.set = .ok () ∧ (behaviour.publish = .ok () ∨ behaviour.publish = .error .redisError)

/-- A snapshot is refused as invalid, or published. -/
def PublishQuiet (libraries : Libraries) (behaviour : Behaviour)
    (snapshot : List (String × Json)) : Prop :=
  ∀ validated ∈ libraries.validate snapshot,
    Resettable validated.primary ∧ Resettable validated.secondary ∧
      (∀ usage, parseUsage behaviour.now validated = .ok usage →
        (libraries.dumps usage).isSome) ∧
      behaviour.RedisQuiet

def CallbackQuiet (options : Options) (behaviour : Behaviour)
    (snapshot : List (String × Json)) : Prop :=
  options.hasSidecar = true → PublishQuiet options.libraries behaviour snapshot

/-- The sidecar does not know the method, or answers with an object. -/
def ReadQuiet (options : Options) (behaviour : Behaviour) : Prop :=
  behaviour.read = .error (.appServerError (-32601)) ∨
    ∃ fields, behaviour.read = .ok (.object fields) ∧
      ∀ rateLimits ∈ (fields.lookup "rateLimits").bind Json.object?,
        CallbackQuiet options behaviour rateLimits

/-- Nothing is raised at an account notification. -/
def Quiet (options : Options) (arrival : Arrival) : Prop :=
  options.hasRateLimits = true →
    if arrival.note.method = Method.accountRateLimitsUpdated then
      ∀ rateLimits ∈ (arrival.note.params.lookup "rateLimits").bind Json.object?,
        CallbackQuiet options arrival.behaviour rateLimits
    else ReadQuiet options arrival.behaviour

theorem fromtimestamp_ok (timestamp : PyFloat) :
    (∃ date, fromtimestamp timestamp = .ok date) ↔ timestamp.Dated := by
  cases timestamp with
  | finite value =>
      unfold fromtimestamp PyFloat.Dated
      dsimp only
      split
      · next hrange => exact iff_of_true ⟨_, rfl⟩ hrange
      · next houtside => exact iff_of_false (fun ⟨_, hok⟩ => by cases hok) houtside
  | infinite | nan => exact iff_of_false (fun ⟨_, hok⟩ => by cases hok) id

theorem toWindow_ok {window : Option RateLimitWindowIn} :
    (∃ usage, toWindow window = .ok usage) ↔ Resettable window := by
  cases window with
  | none => exact iff_of_true ⟨none, rfl⟩ fun _ found => by cases found
  | some found =>
      unfold toWindow Resettable
      cases hused : found.usedPercent with
      | none => simp [hused]
      | some usedPercent =>
          cases hresets : found.resetsAt with
          | none => simp [hused, hresets, pure, Except.pure, bind, Except.bind]
          | some timestamp =>
              simp only [Option.mem_def, Option.some.injEq, forall_eq', hused, hresets, ne_eq,
                reduceCtorEq, not_false_eq_true, forall_const, ← fromtimestamp_ok, Option.mapM_some]
              cases fromtimestamp timestamp with
              | error raised => exact iff_of_false (fun ⟨_, hok⟩ => by cases hok) (by simp)
              | ok date => exact iff_of_true ⟨_, rfl⟩ ⟨date, rfl⟩

theorem parseUsage_ok {now : Datetime} {snapshot : RateLimitSnapshot} :
    (∃ usage, parseUsage now snapshot = .ok usage) ↔
      Resettable snapshot.primary ∧ Resettable snapshot.secondary := by
  rw [← toWindow_ok, ← toWindow_ok]
  unfold parseUsage
  cases toWindow snapshot.primary with
  | error raised => exact iff_of_false (fun ⟨_, hok⟩ => by cases hok) (by simp)
  | ok primary =>
      cases toWindow snapshot.secondary with
      | error raised => exact iff_of_false (fun ⟨_, hok⟩ => by cases hok) (by simp)
      | ok secondary => exact iff_of_true ⟨_, rfl⟩ ⟨⟨primary, rfl⟩, secondary, rfl⟩

theorem publish_ok {libraries : Libraries} {behaviour : Behaviour} {usage : CodexUsage} :
    publish libraries behaviour usage = .ok () ↔
      (libraries.dumps usage).isSome ∧ behaviour.RedisQuiet := by
  unfold publish Behaviour.RedisQuiet
  cases libraries.dumps usage with
  | none => simp
  | some payload =>
      rcases behaviour.set with raised | ⟨⟩
      · by_cases hcaught : raised = .redisError <;>
          simp [hcaught, bind, Except.bind, tryCatch, tryCatchThe, MonadExceptOf.tryCatch,
            Except.tryCatch]
      · rcases behaviour.publish with raised | ⟨⟩
        · by_cases hcaught : raised = .redisError <;>
            simp [hcaught, bind, Except.bind, tryCatch, tryCatchThe, MonadExceptOf.tryCatch,
              Except.tryCatch]
        · simp [bind, Except.bind, tryCatch, tryCatchThe, MonadExceptOf.tryCatch,
            Except.tryCatch]

theorem publishRateLimits_ok {libraries : Libraries} {behaviour : Behaviour}
    {snapshot : List (String × Json)} :
    publishRateLimits libraries behaviour snapshot = .ok () ↔
      PublishQuiet libraries behaviour snapshot := by
  unfold publishRateLimits PublishQuiet
  cases libraries.validate snapshot with
  | none => simp
  | some validated =>
      simp only [Option.mem_def, Option.some.injEq, forall_eq']
      rw [← and_assoc, ← parseUsage_ok]
      cases parseUsage behaviour.now validated with
      | error raised => exact iff_of_false (fun hok => by cases hok) (by simp)
      | ok usage =>
          simp only [Except.ok.injEq, exists_eq', forall_eq', true_and]
          exact publish_ok

theorem onRateLimitsUpdate_ok {options : Options} {behaviour : Behaviour}
    {snapshot : List (String × Json)} :
    onRateLimitsUpdate options behaviour snapshot = .ok () ↔
      CallbackQuiet options behaviour snapshot := by
  unfold onRateLimitsUpdate CallbackQuiet
  cases options.hasSidecar with
  | false => simp
  | true => simp [publishRateLimits_ok]

section

variable {options : Options} {arrival : Arrival} {reader reached : Reader}

theorem handle_updated (hupdated : arrival.note.method = Method.accountRateLimitsUpdated) :
    handleAccountNotification options arrival = .ok true ↔ Quiet options arrival := by
  unfold handleAccountNotification Quiet
  rw [if_pos hupdated, if_pos hupdated]
  cases options.hasRateLimits with
  | false =>
      refine iff_of_true ?_ (by simp)
      split <;> rfl
  | true =>
      cases (arrival.note.params.lookup "rateLimits").bind Json.object? with
      | none => exact iff_of_true rfl (by simp)
      | some rateLimits =>
          simp only [if_true, Option.mem_def, Option.some.injEq, forall_eq', forall_const]
          rw [Except.bind_eq_ok, ← onRateLimitsUpdate_ok]
          exact ⟨fun ⟨_, hok, _⟩ => hok, fun hok => ⟨(), hok, rfl⟩⟩

theorem readRateLimits_quiet {behaviour : Behaviour} :
    (∃ rateLimits, readRateLimits behaviour = .ok rateLimits ∧
        ∀ snapshot ∈ rateLimits, CallbackQuiet options behaviour snapshot) ↔
      ReadQuiet options behaviour := by
  unfold readRateLimits ReadQuiet
  cases behaviour.read with
  | error raised =>
      by_cases hunknown : raised = .appServerError (-32601) <;> simp [hunknown]
  | ok result =>
      cases result with
      | object fields => simp [Json.get]
      | null | bool | number | string | array => simp [Json.get]

theorem handle_tokenUsage (husage : arrival.note.method = Method.threadTokenUsageUpdated) :
    handleAccountNotification options arrival = .ok true ↔ Quiet options arrival := by
  have hother : ¬arrival.note.method = Method.accountRateLimitsUpdated := by
    rw [husage]
    decide
  unfold handleAccountNotification Quiet
  rw [if_neg hother, if_neg hother, if_neg (not_not.2 husage), ← readRateLimits_quiet]
  cases options.hasRateLimits with
  | false => simp [pure, Except.pure]
  | true =>
      simp only [if_true, forall_const]
      rw [Except.bind_eq_ok]
      refine exists_congr fun rateLimits => and_congr_right fun _ => ?_
      cases rateLimits with
      | none => exact iff_of_true rfl (by simp)
      | some snapshot =>
          simp only [Option.mem_def, Option.some.injEq, forall_eq']
          rw [Except.bind_eq_ok, ← onRateLimitsUpdate_ok]
          exact ⟨fun ⟨_, hok, _⟩ => hok, fun hok => ⟨(), hok, rfl⟩⟩

/-- An account notification never goes on to the turn: it is handled, or raises. -/
theorem handle_account (haccount : arrival.note.isAccount = true) :
    handleAccountNotification options arrival = .ok true ↔ Quiet options arrival := by
  rcases Bool.or_eq_true_iff.1 haccount with hupdated | husage
  · exact handle_updated (of_decide_eq_true hupdated)
  · exact handle_tokenUsage (of_decide_eq_true husage)

theorem handle_not_false (haccount : arrival.note.isAccount = true) :
    handleAccountNotification options arrival ≠ .ok false := by
  intro hpassed
  unfold handleAccountNotification at hpassed
  split at hpassed
  · split at hpassed
    · split at hpassed
      · obtain ⟨_, _, hreturned⟩ := Except.bind_eq_ok.1 hpassed
        cases hreturned
      · cases hpassed
    · cases hpassed
  · next hother =>
      rw [if_neg (by simpa [Notification.isAccount, hother] using haccount)] at hpassed
      split at hpassed
      · obtain ⟨rateLimits, _, hreturned⟩ := Except.bind_eq_ok.1 hpassed
        cases rateLimits with
        | none => cases hreturned
        | some snapshot =>
            obtain ⟨_, _, hreturned⟩ := Except.bind_eq_ok.1 hreturned
            cases hreturned
      · cases hpassed

theorem handle_other (hother : arrival.note.isAccount = false) :
    handleAccountNotification options arrival = .ok false := by
  obtain ⟨hupdated, husage⟩ := Bool.or_eq_false_iff.1 hother
  unfold handleAccountNotification
  rw [if_neg (of_decide_eq_false hupdated), if_pos (of_decide_eq_false husage)]
  rfl

/-! ### What one note does to a reader -/

theorem read_account (haccount : arrival.note.isAccount = true) :
    reader.read options arrival = .ok reader ∧ Quiet options arrival ∨
      ∃ raised, reader.read options arrival = .error ⟨reader.yielded, .raised raised⟩ ∧
        ¬Quiet options arrival := by
  rw [← handle_account haccount]
  unfold Reader.read
  cases hhandled : handleAccountNotification options arrival with
  | error raised => exact .inr ⟨raised, rfl, fun hok => by cases hok⟩
  | ok value =>
      cases value with
      | true => exact .inl ⟨rfl, rfl⟩
      | false => exact absurd hhandled (handle_not_false haccount)

theorem read_other (hother : arrival.note.isAccount = false) :
    reader.read options arrival =
      if arrival.note.isStale options.turnId then reader.recordStale options
      else if arrival.note.isSessionNoise then .ok reader
      else reader.yield options arrival.note := by
  unfold Reader.read
  rw [handle_other hother]

/-- The end of a run at something that the side channel raised. -/
def Outcome.Raised (outcome : Outcome) : Prop :=
  ∃ raised, outcome.ending = .raised raised

theorem read_aside (options : Options) :
    Aside (Reader.read options) (fun arrival => arrival.note.isAccount) Outcome.Raised where
  passes reader arrival haccount := by
    rcases read_account haccount with ⟨hpasses, -⟩ | ⟨raised, hends, -⟩
    · exact .inl hpasses
    · exact .inr ⟨_, hends, raised, rfl⟩
  others := by
    rintro reader arrival ending hother hends ⟨raised, hmarked⟩
    rw [read_other hother] at hends
    split at hends
    · unfold Reader.recordStale at hends
      dsimp only at hends
      split at hends <;> cases hends
      cases hmarked
    · split at hends
      · cases hends
      · unfold Reader.yield at hends
        dsimp only at hends
        split at hends <;> cases hends
        cases hmarked

/-! ### How far a turn is read -/

/-- The notifications that are not about the account. -/
def turnNotes (arrivals : List Arrival) : List Notification :=
  (rest (fun arrival => arrival.note.isAccount) arrivals).map Arrival.note

/-- The notes for the turn. -/
def passing (options : Options) (notes : List Notification) : List Notification :=
  notes.filter fun note => note.passes options.turnId

def staleCount (options : Options) (notes : List Notification) : Nat :=
  notes.countP fun note => note.isStale options.turnId

/-- The turn is read beyond these notes: its reader has wanted more after each that is for the turn,
and before the first of them there was no storm of stale ones. -/
structure ReadsOn (options : Options) (notes : List Notification) : Prop where
  wanted : ∀ yielded, yielded <+: passing options notes → yielded ≠ [] →
    options.wants yielded = true
  calm : ∀ first, first <+: notes → passing options first = [] →
    staleCount options first < max 1 options.stormThreshold

/-- A reader that has read these notes. -/
structure Reader.Follows (options : Options) (reader : Reader) (notes : List Notification) :
    Prop where
  yielded : reader.yielded = passing options notes
  raw : reader.diagnostics.rawCount = (passing options notes).length
  stale : reader.diagnostics.staleRawCount = staleCount options notes

variable {notes : List Notification} {note : Notification}

theorem readsOn_nil : ReadsOn options [] where
  wanted yielded hbefore hsome := absurd (List.prefix_nil.1 hbefore) hsome
  calm first hbefore _ := by
    rw [List.prefix_nil.1 hbefore]
    exact lt_max_of_lt_left Nat.zero_lt_one

theorem follows_nil : Reader.Follows options {} [] where
  yielded := rfl
  raw := rfl
  stale := rfl

theorem passing_concat (hpasses : note.passes options.turnId = true) :
    passing options (notes ++ [note]) = passing options notes ++ [note] := by
  simp [passing, hpasses]

theorem passing_concat_skip (hskips : note.passes options.turnId = false) :
    passing options (notes ++ [note]) = passing options notes := by
  simp [passing, hskips]

theorem staleCount_concat :
    staleCount options (notes ++ [note]) =
      staleCount options notes + (note.isStale options.turnId).toNat := by
  cases hstale : note.isStale options.turnId <;> simp [staleCount, hstale]

theorem readsOn_concat :
    ReadsOn options (notes ++ [note]) ↔
      ReadsOn options notes ∧
        (note.passes options.turnId = true →
          options.wants (passing options notes ++ [note]) = true) ∧
        (passing options (notes ++ [note]) = [] →
          staleCount options (notes ++ [note]) < max 1 options.stormThreshold) := by
  constructor
  · rintro ⟨hwanted, hcalm⟩
    refine ⟨⟨fun yielded hbefore => hwanted yielded ?_, fun first hbefore => hcalm first ?_⟩,
      ?_, ?_⟩
    · exact hbefore.trans (List.IsPrefix.filter _ (List.prefix_append _ _))
    · exact hbefore.trans (List.prefix_append _ _)
    · intro hpasses
      exact hwanted _ (by rw [passing_concat hpasses]) (by simp)
    · exact hcalm _ (List.prefix_refl _)
  · rintro ⟨⟨hwanted, hcalm⟩, hlast, hall⟩
    refine ⟨fun yielded hbefore hsome => ?_, fun first hbefore => ?_⟩
    · cases hpasses : note.passes options.turnId with
      | false => exact hwanted yielded (by rwa [passing_concat_skip hpasses] at hbefore) hsome
      | true =>
          rw [passing_concat hpasses, List.prefix_concat_iff] at hbefore
          rcases hbefore with rfl | hbefore
          · exact hlast hpasses
          · exact hwanted yielded hbefore hsome
    · rcases List.prefix_concat_iff.1 hbefore with rfl | hbefore
      · exact hall
      · exact hcalm first hbefore

theorem absorbRaw_counts (python : Python) (note : Notification)
    (diagnostics : CodexTurn.Diagnostics) :
    (diagnostics.absorbRaw python note).rawCount = diagnostics.rawCount + 1 ∧
      (diagnostics.absorbRaw python note).staleRawCount = diagnostics.staleRawCount := by
  unfold CodexTurn.Diagnostics.absorbRaw
  dsimp only
  split
  · exact ⟨rfl, rfl⟩
  · split
    · exact ⟨rfl, rfl⟩
    · split <;> exact ⟨rfl, rfl⟩

/-- A stale note is counted, or makes the storm. -/
theorem recordStale_step (hskips : note.passes options.turnId = false)
    (hstale : note.isStale options.turnId = true) (hfollows : reader.Follows options notes) :
    (∃ next, reader.recordStale options = .ok next ∧ next.Follows options (notes ++ [note]) ∧
        (passing options (notes ++ [note]) = [] →
          staleCount options (notes ++ [note]) < max 1 options.stormThreshold)) ∨
      (∃ ended, reader.recordStale options = .error ended) ∧
        passing options (notes ++ [note]) = [] ∧
        ¬staleCount options (notes ++ [note]) < max 1 options.stormThreshold := by
  obtain ⟨hyielded, hraw, hstaleRaw⟩ := hfollows
  have hcounted : staleCount options (notes ++ [note]) = staleCount options notes + 1 := by
    rw [staleCount_concat, hstale]
    rfl
  have hnone : passing options notes = [] ↔ reader.diagnostics.rawCount = 0 := by
    rw [hraw, List.length_eq_zero_iff]
  unfold Reader.recordStale CodexTurn.Diagnostics.absorbStaleRaw
  dsimp only
  rw [passing_concat_skip hskips, hcounted, hnone, hstaleRaw]
  by_cases hstorm : reader.diagnostics.rawCount = 0 ∧
      options.stormThreshold ≤ staleCount options notes + 1
  · rw [if_pos hstorm]
    refine .inr ⟨⟨_, rfl⟩, hstorm.1, ?_⟩
    omega
  · rw [if_neg hstorm]
    refine .inl ⟨_, rfl, ⟨?_, ?_, ?_⟩, fun hfirst => ?_⟩
    · rw [passing_concat_skip hskips, hyielded]
    · rw [passing_concat_skip hskips, hraw]
    · rw [hcounted]
    · have hbelow : ¬options.stormThreshold ≤ staleCount options notes + 1 :=
        fun hreached => hstorm ⟨hfirst, hreached⟩
      omega

/-- One more note: the reader follows, or the reading ends. -/
theorem read_step (hother : arrival.note.isAccount = false)
    (hfollows : reader.Follows options notes) (hreadsOn : ReadsOn options notes) :
    (∃ next, reader.read options arrival = .ok next ∧
        next.Follows options (notes ++ [arrival.note]) ∧
        ReadsOn options (notes ++ [arrival.note])) ∨
      (∃ ended, reader.read options arrival = .error ended) ∧
        ¬ReadsOn options (notes ++ [arrival.note]) := by
  rw [read_other hother, readsOn_concat]
  cases hstale : arrival.note.isStale options.turnId with
  | true =>
      have hskips : arrival.note.passes options.turnId = false := by
        simp [Notification.passes, hstale]
      rw [if_pos rfl]
      rcases recordStale_step hskips hstale hfollows with
        ⟨next, hok, hfollows, hcalm⟩ | ⟨ended, hstorm⟩
      · exact .inl ⟨next, hok, hfollows, hreadsOn, by simp [hskips], hcalm⟩
      · exact .inr ⟨ended, fun ⟨_, _, hcalm⟩ => hstorm.2 (hcalm hstorm.1)⟩
  | false =>
      obtain ⟨hyielded, hraw, hstaleRaw⟩ := hfollows
      cases hnoise : arrival.note.isSessionNoise with
      | true =>
          have hskips : arrival.note.passes options.turnId = false := by
            simp [Notification.passes, hnoise]
          refine .inl ⟨reader, by simp, ⟨?_, ?_, ?_⟩, hreadsOn, by simp [hskips], ?_⟩
          · rw [passing_concat_skip hskips, hyielded]
          · rw [passing_concat_skip hskips, hraw]
          · rw [staleCount_concat, hstale, hstaleRaw]
            rfl
          · rw [passing_concat_skip hskips, staleCount_concat, hstale]
            exact hreadsOn.calm notes (List.prefix_refl _)
      | false =>
          have hpasses : arrival.note.passes options.turnId = true := by
            simp [Notification.passes, hstale, hnoise, hother]
          rw [if_neg Bool.false_ne_true, if_neg Bool.false_ne_true, passing_concat hpasses]
          unfold Reader.yield
          dsimp only
          rw [hyielded]
          by_cases hwants : options.wants (passing options notes ++ [arrival.note]) = true
          · rw [if_pos hwants]
            refine .inl ⟨_, rfl, ⟨?_, ?_, ?_⟩, hreadsOn, fun _ => hwants, by simp⟩
            · rw [passing_concat hpasses]
            · rw [passing_concat hpasses, List.length_append, ← hraw]
              exact (absorbRaw_counts _ _ _).1
            · rw [staleCount_concat, hstale, ← hstaleRaw]
              exact (absorbRaw_counts _ _ _).2
          · rw [if_neg hwants]
            exact .inr ⟨⟨_, rfl⟩, fun ⟨_, hlast, _⟩ => hwants (hlast hpasses)⟩

/-- Notifications that are not about the account are all read, just if the turn is read on. -/
theorem foldlM_reads (arrivals : List Arrival)
    (hothers : ∀ arrival ∈ arrivals, arrival.note.isAccount = false) :
    (∃ reached, arrivals.foldlM (Reader.read options) {} = .ok reached ∧
        reached.Follows options (arrivals.map Arrival.note) ∧
        ReadsOn options (arrivals.map Arrival.note)) ∨
      (∃ ended, arrivals.foldlM (Reader.read options) {} = .error ended) ∧
        ¬ReadsOn options (arrivals.map Arrival.note) := by
  induction arrivals using List.reverseRecOn with
  | nil => exact .inl ⟨{}, rfl, follows_nil, readsOn_nil⟩
  | append_singleton arrivals arrival ih =>
      rw [List.foldlM_append, List.map_append]
      rcases ih fun other hmem => hothers other (by simp [hmem]) with
        ⟨reached, hreads, hfollows, hreadsOn⟩ | ⟨⟨ended, hends⟩, hstops⟩
      · have hstep := read_step (hothers arrival (by simp)) hfollows hreadsOn
        rw [hreads]
        rcases hstep with ⟨next, hok, hfollows, hreadsOn⟩ | ⟨⟨ended, herror⟩, hstops⟩
        · refine .inl ⟨next, ?_, hfollows, hreadsOn⟩
          change reached.read options arrival >>= pure = _
          rw [hok]
          rfl
        · refine .inr ⟨⟨ended, ?_⟩, hstops⟩
          change reached.read options arrival >>= pure = _
          rw [herror]
          rfl
      · rw [hends]
        exact .inr ⟨⟨ended, rfl⟩, fun hreadsOn => hstops (readsOn_concat.1 hreadsOn).1⟩

theorem rest_reads {arrivals : List Arrival} :
    (∃ reached, (rest (fun arrival => arrival.note.isAccount) arrivals).foldlM
        (Reader.read options) {} = .ok reached) ↔ ReadsOn options (turnNotes arrivals) := by
  have hothers : ∀ arrival ∈ rest (fun arrival => arrival.note.isAccount) arrivals,
      arrival.note.isAccount = false := by
    intro arrival hmem
    simpa using (List.mem_filter.1 hmem).2
  rcases foldlM_reads _ hothers with
    ⟨reached, hreads, -, hreadsOn⟩ | ⟨⟨ended, hends⟩, hstops⟩
  · exact iff_of_true ⟨reached, hreads⟩ hreadsOn
  · refine iff_of_false (fun ⟨reached, hreads⟩ => ?_) hstops
    rw [hends] at hreads
    cases hreads

/-- Whatever the usage panel is told, a turn is read as if its account notifications were not there,
just if nothing is raised at those that are read. -/
theorem usage_unnoticed (options : Options) (arrivals : List Arrival) :
    currentTurnNotifications options arrivals =
        currentTurnNotifications options
          (arrivals.filter fun arrival => !arrival.note.isAccount) ↔
      ∀ before arrival after, arrivals = before ++ arrival :: after →
        arrival.note.isAccount = true → ReadsOn options (turnNotes before) →
          Quiet options arrival := by
  have hsilent : Silent (Reader.read options) (fun arrival => arrival.note.isAccount) {} arrivals ↔
      ∀ before arrival after, arrivals = before ++ arrival :: after →
        arrival.note.isAccount = true → ReadsOn options (turnNotes before) →
          Quiet options arrival := by
    refine forall₄_congr fun before arrival after hsplit => ?_
    refine forall_congr' fun haccount => ?_
    rw [← rest_reads]
    constructor
    · rintro hpasses ⟨reached, hreads⟩
      rcases read_account haccount with ⟨-, hquiet⟩ | ⟨raised, hends, -⟩
      · exact hquiet
      · rw [hpasses reached hreads] at hends
        cases hends
    · intro hquiet reached hreads
      rcases read_account haccount with ⟨hpasses, -⟩ | ⟨raised, -, hloud⟩
      · exact hpasses
      · exact absurd (hquiet ⟨reached, hreads⟩) hloud
  rw [← hsilent]
  constructor
  · intro hsame
    by_contra hloud
    obtain ⟨ended, hends, raised, hmarked⟩ := (read_aside options).ends hloud
    change outcome (arrivals.foldlM (Reader.read options) {}) = outcome
      ((rest (fun arrival => arrival.note.isAccount) arrivals).foldlM (Reader.read options) {})
      at hsame
    rw [hends] at hsame
    cases hothers : (rest (fun arrival => arrival.note.isAccount) arrivals).foldlM
        (Reader.read options) {} with
    | ok reader =>
        rw [hothers] at hsame
        obtain rfl : ended = ⟨reader.yielded, .returned⟩ := hsame
        cases hmarked
    | error other =>
        rw [hothers] at hsame
        obtain rfl : ended = other := hsame
        exact (read_aside options).rest_ends hothers ⟨raised, hmarked⟩
  · intro hsilent
    exact congrArg outcome hsilent.foldlM_eq

/-- Web turn `t`, whose snapshots are all empty. -/
def plain : Options where
  turnId := "t"
  stormThreshold := 25
  python := { str _ := "", dumps _ := "", loads _ := none, isImage _ := false }
  hasRateLimits := true
  hasSidecar := true
  libraries := { validate _ := some ⟨none, none, none⟩, dumps _ := some "" }
  wants _ := true

/-- The sidecar reports token usage and completes the turn, but does not answer in time when it is
asked for the limits. -/
def unanswered : List Arrival :=
  let behaviour : Behaviour :=
    { now := ⟨0, by decide⟩, read := .error .timeoutError, set := .ok (), publish := .ok () }
  [⟨⟨Method.threadTokenUsageUpdated, [("turnId", .string "t")]⟩, behaviour⟩,
    ⟨⟨CodexNotif.turnCompleted, [("turnId", .string "t")]⟩, behaviour⟩]

/-- The turn ends with a timeout, and is not told that it is completed. -/
theorem usage_timeout_ends_turn :
    currentTurnNotifications plain unanswered ≠
      currentTurnNotifications plain
        (unanswered.filter fun arrival => !arrival.note.isAccount) := by
  have hends : (currentTurnNotifications plain unanswered).ending = .raised .timeoutError := by
    decide
  have hreturns : (currentTurnNotifications plain
      (unanswered.filter fun arrival => !arrival.note.isAccount)).ending = .returned := by
    decide
  intro hsame
  rw [hsame, hreturns] at hends
  cases hends

end
end CodexServer.Usage
