import CodexServer.LeaseListener

/-!
# One listener leads

The leader key outlives the lead of its holder as long as the awaits of the holder are over in time:
between two refreshes lie the interval and the awaits from one to the other. So the lead is exclusive,
and a message that reaches several subscriptions is handed over by one of them.
-/

open Transition

namespace CodexServer.LeaseListener

/-! ### The names of the keys -/

theorem decimal_digit {c : Char} (h : c.isDigit = true) : decimal c = some (c.toNat - 48) := by
  have hrange : 48 ≤ c.toNat ∧ c.toNat < 58 := by
    simp only [Char.isDigit, Bool.and_eq_true, decide_eq_true_eq] at h
    exact ⟨h.1, Nat.lt_succ_of_le h.2⟩
  unfold decimal zeros
  rw [List.find?_cons_of_pos (by simpa using hrange)]
  rfl

theorem moreDigits_digits {digits : List Char} (h : ∀ c ∈ digits, c.isDigit = true) (number : Nat) :
    moreDigits number digits = some (Nat.ofDigitChars 10 digits number) := by
  induction digits generalizing number with
  | nil => rfl
  | cons c rest ih =>
      have hc := h c List.mem_cons_self
      have hplain : c ≠ '_' := fun heq => absurd (heq ▸ hc) (by decide)
      have hrest := ih (fun d hd => h d (List.mem_cons_of_mem _ hd)) (10 * number + (c.toNat - 48))
      unfold moreDigits
      split
      · rename_i hnil
        cases hnil
      · rename_i heq
        exact absurd (List.cons.inj heq).1 hplain
      · rename_i heq
        obtain ⟨rfl, rfl⟩ := List.cons.inj heq
        rw [decimal_digit hc, Nat.ofDigitChars_cons]
        exact hrest

theorem isIntSpace_digit {c : Char} (h : c.isDigit = true) : isIntSpace c = false := by
  have hrange : 48 ≤ c.toNat ∧ c.toNat ≤ 57 := by
    simp only [Char.isDigit, Bool.and_eq_true, decide_eq_true_eq] at h
    exact h
  simp only [isIntSpace, Bool.or_eq_false_iff, Bool.and_eq_false_iff, decide_eq_false_iff_not,
    beq_eq_false_iff_ne]
  omega

theorem intOf_digits {number : Nat} (h : (Nat.toDigits 10 number).length ≤ 4300) :
    intOf (Nat.toDigits 10 number) = some (number : Int) := by
  have hdigits : ∀ c ∈ Nat.toDigits 10 number, c.isDigit = true := fun c hc =>
    Nat.isDigit_of_mem_toDigits (by omega) (Nat.le_refl 10) hc
  have hleft : (Nat.toDigits 10 number).dropWhile isIntSpace = Nat.toDigits 10 number :=
    List.dropWhile_eq_self_iff.mpr fun hpos => by
      simp [isIntSpace_digit (hdigits _ (List.getElem_mem hpos))]
  have hright : (Nat.toDigits 10 number).rdropWhile isIntSpace = Nat.toDigits 10 number :=
    List.rdropWhile_eq_self_iff.mpr fun hne => by
      simp [isIntSpace_digit (hdigits _ (List.getLast_mem hne))]
  have hvalue : natOf (Nat.toDigits 10 number) = some number := by
    have hcount := (List.countP_le_length (p := fun c => c ≠ '_')).trans h
    have hread : Nat.ofDigitChars 10 (Nat.toDigits 10 number) 0 = number :=
      Nat.ofDigitChars_ten_toDigits
    cases htext : Nat.toDigits 10 number with
    | nil => exact absurd htext Nat.toDigits_ne_nil
    | cons c rest =>
        rw [htext] at hdigits hcount hread
        have hmore := moreDigits_digits (fun d hd => hdigits d (List.mem_cons_of_mem c hd)) (c.toNat - 48)
        rw [Nat.ofDigitChars_cons, Nat.mul_zero, Nat.zero_add] at hread
        rw [natOf, if_pos hcount, decimal_digit (hdigits c List.mem_cons_self)]
        exact hmore.trans (congrArg some hread)
  unfold intOf
  rw [hleft, hright]
  split
  · rename_i heq
    exact absurd (hdigits '-' (heq ▸ List.mem_cons_self)) (by decide)
  · rename_i heq
    exact absurd (hdigits '+' (heq ▸ List.mem_cons_self)) (by decide)
  · rw [hvalue]
    rfl

/-- The key of a lease names its turn. -/
theorem turnIdFromKey_leaseKey {turnId : Nat} (h : (Nat.toDigits 10 turnId).length ≤ 4300) :
    turnIdFromKey (leaseKey turnId) = some (turnId : Int) := by
  have hbegins : leaseKeyPrefix.isPrefixOf (leaseKey turnId) = true :=
    List.isPrefixOf_iff_prefix.mpr (List.prefix_append _ _)
  rw [turnIdFromKey, if_pos hbegins, leaseKey, List.drop_left, intOf_digits h]

/-! ### The lead -/

namespace Listener

/-- The listener takes itself for the leader: it is about to subscribe, or handles what it reads. -/
def leads (listener : Listener) : Bool :=
  listener.crashed.isNone &&
    match listener.point with
    | .acquiring (some true) _ | .subscribing _ => true
    | .listening | .handling .. => listener.refresher ≠ .done
    | _ => false

end Listener

/-- The refreshing task has not been late for `latency`, nor waited so long for Redis. -/
def Refresher.prompt (latency now : Nat) : Refresher → Bool
  | .waiting due => now < due + latency
  | .refreshing _ since => now < since + latency
  | .done => true

/-- No await that the lead depends on has taken `latency`. -/
def Listener.prompt (latency now : Nat) (listener : Listener) : Bool :=
  match listener.point with
  | .acquiring (some true) since | .subscribing since => now < since + latency
  | .listening | .handling .. => listener.refresher.prompt latency now
  | _ => true

/-- The clock goes on only while every leader is prompt. -/
def Listeners.prompt (latency : Nat) (world : Listeners) : Action → Bool
  | .tick => world.listeners.all fun listener =>
      !listener.leads || listener.prompt latency world.now
  | _ => true

/-- How the deadline of the key lies to the time of the refreshing task. -/
def Refresher.Fresh (latency now deadline : Nat) : Refresher → Prop
  | .waiting due => due + 20 ≤ deadline + 2 * latency ∧ now ≤ due + latency
  | .refreshing none since => since + 20 ≤ deadline + 3 * latency ∧ now ≤ since + latency
  | .refreshing (some true) since => since + leaderTtl ≤ deadline ∧ now ≤ since + latency
  | .refreshing (some false) _ | .done => False

/-- How the deadline of the key lies to the time of a leader. -/
def Listener.Fresh (latency now deadline : Nat) (listener : Listener) : Prop :=
  match listener.point with
  | .acquiring _ since => since + leaderTtl ≤ deadline ∧ now ≤ since + latency
  | .subscribing since => since + leaderTtl ≤ deadline + latency ∧ now ≤ since + latency
  | _ => listener.refresher.Fresh latency now deadline

section

variable {latency now deadline later : Nat} {listener after : Listener} {refresher : Refresher}

theorem Refresher.Fresh.mono (h : refresher.Fresh latency now deadline) (hle : deadline ≤ later) :
    refresher.Fresh latency now later := by
  unfold Refresher.Fresh at h ⊢
  split at h <;> simp_all <;> omega

theorem Listener.Fresh.mono (h : listener.Fresh latency now deadline) (hle : deadline ≤ later) :
    listener.Fresh latency now later := by
  unfold Listener.Fresh at h ⊢
  split at h
  · exact ⟨h.1.trans hle, h.2⟩
  · exact ⟨h.1.trans (Nat.add_le_add_right hle _), h.2⟩
  · exact Refresher.Fresh.mono h hle

/-- The clock does not reach the deadline of a refreshing task that is prompt. -/
theorem Refresher.Fresh.tick (h : refresher.Fresh latency now deadline) (hlatency : 4 * latency < 20)
    (hprompt : refresher.prompt latency now = true) :
    now + 1 < deadline ∧ refresher.Fresh latency (now + 1) deadline := by
  unfold Refresher.Fresh at h ⊢
  unfold Refresher.prompt at hprompt
  split at h <;> simp only [decide_eq_true_eq, leaderTtl] at h hprompt ⊢ <;> omega

/-- The clock does not reach the deadline of a leader that is prompt. -/
theorem Listener.Fresh.tick (h : listener.Fresh latency now deadline) (hlatency : 4 * latency < 20)
    (hleads : listener.leads = true) (hprompt : listener.prompt latency now = true) :
    now + 1 < deadline ∧ listener.Fresh latency (now + 1) deadline := by
  obtain ⟨point, refresher, inbox, backoff, stop, crashed⟩ := listener
  cases point with
  | acquiring served since =>
      cases served with
      | none => simp [Listener.leads] at hleads
      | some answer =>
          cases answer with
          | false => simp [Listener.leads] at hleads
          | true =>
              simp only [Listener.Fresh, Listener.prompt, leaderTtl, decide_eq_true_eq] at h hprompt ⊢
              omega
  | subscribing since =>
      simp only [Listener.Fresh, Listener.prompt, leaderTtl, decide_eq_true_eq] at h hprompt ⊢
      omega
  | listening => exact Refresher.Fresh.tick h hlatency hprompt
  | handling => exact Refresher.Fresh.tick h hlatency hprompt
  | _ => simp [Listener.leads] at hleads

end

/-! ### What an await does to the lead -/

/-- The number of a message. -/
def Item.serial : Item → Option Nat
  | .subscribed => none
  | .message serial _ => some serial

namespace Listener

/-- The messages it has still to read in this subscription. -/
def serials (listener : Listener) : List Nat :=
  match listener.point with
  | .acquiring .. => []
  | _ => (listener.inbox.getD []).filterMap Item.serial

/-- No lead is gained, none that is kept grows older, and no message comes in. -/
structure Follows (now : Nat) (listener after : Listener) : Prop where
  leads : after.leads = true → listener.leads = true
  fresh : after.leads = true → ∀ latency deadline, listener.Fresh latency now deadline →
    after.Fresh latency now deadline
  serials : after.leads = true → after.serials.Sublist listener.serials

/-- A listener that is there neither has the lead nor reads messages. -/
def idle (listener : Listener) : Bool :=
  match listener.point with
  | .acquiring (some true) _ | .subscribing _ | .listening | .handling .. => false
  | _ => true

variable {now : Nat} {listener after : Listener}

theorem leads_of_idle (h : listener.idle = true) : listener.leads = false := by
  unfold idle at h
  unfold leads
  split at h <;> simp_all

theorem Follows.of_idle (h : after.idle = true) : listener.Follows now after := by
  constructor <;> simp [leads_of_idle h]

theorem takes_of_idle (h : after.idle = true) : Listeners.takes after = [] := by
  unfold idle at h
  unfold Listeners.takes
  split <;> simp_all

theorem loop_idle : (listener.loop now).idle = true := by
  unfold loop
  cases listener.stop <;> rfl

theorem consumed_idle (exit : Option Failure) : (listener.consumed now exit).idle = true := by
  cases exit with
  | none => rfl
  | some failure => cases failure <;> cases hstop : listener.stop <;> simp [consumed, idle, hstop]

theorem refreshLeadership_fresh {latency deadline : Nat}
    (h : now + leaderTtl ≤ deadline + 2 * latency) (hgoes : listener.refreshLeadership now ≠ .done) :
    (listener.refreshLeadership now).Fresh latency now deadline := by
  unfold refreshLeadership at hgoes ⊢
  split
  · simp_all
  · simp only [Refresher.Fresh, refreshInterval, leaderTtl] at h ⊢
    omega

/-- A message that is read by a leader is handed over, or passed by. -/
theorem consume_follows {item : Item} {rest : List Item} (hpoint : listener.point = .listening)
    (hinbox : listener.inbox = some (item :: rest)) :
    listener.Follows now (listener.consume rest item) ∧
      (Listeners.takes (listener.consume rest item) ≠ [] → listener.leads = listener.crashed.isNone ∧
        (listener.consume rest item).leads = listener.crashed.isNone ∧
        (Listeners.takes (listener.consume rest item) ++
          (listener.consume rest item).serials).Sublist listener.serials) := by
  obtain ⟨point, refresher, inbox, backoff, stop, crashed⟩ := listener
  obtain rfl : point = .listening := hpoint
  obtain rfl : inbox = some (item :: rest) := hinbox
  unfold consume
  dsimp only
  split
  · exact ⟨.of_idle rfl, fun htakes => absurd rfl htakes⟩
  · rename_i hgoes
    obtain ⟨_, hgoes⟩ := not_or.mp hgoes
    have hrest : (rest.filterMap Item.serial).Sublist ((item :: rest).filterMap Item.serial) :=
      (List.sublist_cons_self item rest).filterMap _
    cases item with
    | subscribed =>
        exact ⟨⟨fun h => h, fun _ _ _ h => h, fun _ => hrest⟩, fun htakes => absurd rfl htakes⟩
    | message serial key =>
        cases hid : turnIdFromKey key with
        | none =>
            simp only [hid]
            exact ⟨⟨fun h => h, fun _ _ _ h => h, fun _ => hrest⟩, fun htakes => absurd rfl htakes⟩
        | some turnId =>
            simp only [hid]
            refine ⟨⟨fun h => h, fun _ _ _ h => h, fun _ => hrest⟩, fun _ => ⟨?_, ?_, ?_⟩⟩
            · simp [leads, hgoes]
            · simp [leads, hgoes]
            · exact List.Sublist.refl _

/-- Messages are read at one point only. -/
theorem resume_other (hpoint : listener.point ≠ .listening) (h : listener.resume now = some after) :
    listener.Follows now after ∧ Listeners.takes after = [] := by
  have hidle : ∀ {after : Listener}, after.idle = true →
      listener.Follows now after ∧ Listeners.takes after = [] := fun hidle =>
    ⟨.of_idle hidle, takes_of_idle hidle⟩
  unfold resume at h
  split at h
  · cases h
  · rename_i since hat
    cases h
    refine ⟨⟨fun hleads => ?_, fun _ latency deadline hfresh => ?_, fun _ => ?_⟩, rfl⟩
    · simpa [leads, hat] using hleads
    · simp only [Fresh, hat, leaderTtl] at hfresh ⊢
      omega
    · simp [serials]
  · cases h
    exact hidle rfl
  · split at h
    · cases h
      exact hidle rfl
    · obtain ⟨_, hafter⟩ := Option.ite_none_right_eq_some.mp h
      cases hafter
      exact hidle loop_idle
  · rename_i since hat
    obtain ⟨_, hafter⟩ := Option.ite_none_right_eq_some.mp h
    cases hafter
    refine ⟨⟨fun hleads => ?_, fun hleads latency deadline hfresh => ?_, fun _ => ?_⟩, rfl⟩
    · simp only [leads, Bool.and_eq_true] at hleads
      simp [leads, hat, hleads.1]
    · have hgoes : listener.refreshLeadership now ≠ .done := by
        simp only [leads, Bool.and_eq_true, decide_eq_true_eq] at hleads
        exact hleads.2
      refine refreshLeadership_fresh ?_ hgoes
      simp only [Fresh, hat] at hfresh
      omega
    · simp [serials, hat]
  · exact absurd ‹_› hpoint
  · rename_i serial turnId hat
    cases h
    refine ⟨⟨fun hleads => ?_, fun _ _ _ hfresh => ?_, fun _ => ?_⟩, rfl⟩
    · simpa [leads, hat] using hleads
    · simpa [Fresh, hat] using hfresh
    · simp [serials, hat]
  · cases h
    exact hidle rfl
  · cases h
    exact hidle rfl
  · cases h
    exact hidle (consumed_idle _)
  · obtain ⟨_, hafter⟩ := Option.ite_none_right_eq_some.mp h
    cases hafter
    exact hidle rfl
  · cases h
  · cases h
    exact hidle loop_idle
  · cases h
    exact hidle rfl
  · cases h

theorem resume_follows (h : listener.resume now = some after) : listener.Follows now after ∧
    (Listeners.takes after ≠ [] → listener.leads = listener.crashed.isNone ∧
      after.leads = listener.crashed.isNone ∧
      (Listeners.takes after ++ after.serials).Sublist listener.serials) := by
  by_cases hpoint : listener.point = .listening
  · unfold resume at h
    rw [hpoint] at h
    dsimp only at h
    split at h
    · cases h
      exact consume_follows hpoint ‹_›
    · cases h
  · obtain ⟨hfollows, htakes⟩ := resume_other hpoint h
    exact ⟨hfollows, fun hnot => absurd htakes hnot⟩

theorem raise_follows {failure : Failure} (h : listener.raise now failure = some after) :
    listener.Follows now after := by
  unfold raise at h
  split at h
  · split at h <;> cases h <;> exact .of_idle rfl
  · obtain ⟨_, hafter⟩ := Option.ite_none_right_eq_some.mp h
    cases hafter
    exact .of_idle rfl
  · cases h
    exact .of_idle (consumed_idle _)
  · cases h
    exact .of_idle rfl
  · rename_i serial turnId hat
    split at h <;> cases h
    · exact .of_idle rfl
    · constructor <;> simp [leads, Fresh, serials, hat]
  · cases h
    exact .of_idle rfl
  · split at h <;> cases h
    · exact .of_idle (consumed_idle _)
    · exact .of_idle rfl
  · split at h <;> cases h <;> exact .of_idle (consumed_idle _)
  · obtain ⟨_, hafter⟩ := Option.ite_none_right_eq_some.mp h
    cases hafter
    exact .of_idle rfl
  · split at h <;> cases h
    · split
      · exact .of_idle loop_idle
      · exact .of_idle rfl
    · exact .of_idle rfl
  · cases h

theorem subscribe_follows (h : listener.subscribe = some after) : listener.Follows now after := by
  unfold subscribe at h
  split at h
  · rename_i since hat _
    cases h
    refine ⟨fun hleads => ?_, fun _ _ _ hfresh => ?_, fun _ => ?_⟩
    · simpa [leads, hat] using hleads
    · simpa [Fresh, hat] using hfresh
    · simp [serials, hat, List.filterMap_cons, Item.serial]
  · cases h

theorem leads_of_refresher {refresher : Refresher}
    (hgoes : refresher ≠ .done → listener.refresher ≠ .done)
    (h : { listener with refresher := refresher }.leads = true) : listener.leads = true := by
  obtain ⟨point, before, inbox, backoff, stop, crashed⟩ := listener
  cases point with
  | listening | handling =>
      simp only [leads, Bool.and_eq_true, decide_eq_true_eq] at h ⊢
      exact ⟨h.1, hgoes h.2⟩
  | acquiring served since => rcases served with _ | _ | _ <;> exact h
  | _ => exact h

/-- A leader after an await of its refreshing task. -/
theorem fresh_of_refresher {refresher : Refresher} {latency deadline later : Nat}
    (h : { listener with refresher := refresher }.leads = true) (hle : deadline ≤ later)
    (hrefresher : refresher ≠ .done → listener.refresher.Fresh latency now deadline →
      refresher.Fresh latency now later)
    (hfresh : listener.Fresh latency now deadline) :
    { listener with refresher := refresher }.Fresh latency now later := by
  obtain ⟨point, before, inbox, backoff, stop, crashed⟩ := listener
  cases point with
  | acquiring | subscribing => exact Listener.Fresh.mono hfresh hle
  | listening | handling =>
      simp only [leads, Bool.and_eq_true, decide_eq_true_eq] at h
      exact hrefresher h.2 hfresh
  | _ => simp [leads] at h

/-- The refreshing task after an await that leaves it its place, or ends it. -/
theorem Follows.of_refresher {refresher : Refresher}
    (hgoes : refresher ≠ .done → listener.refresher ≠ .done)
    (hfresh : refresher ≠ .done → ∀ latency deadline,
      listener.refresher.Fresh latency now deadline → refresher.Fresh latency now deadline) :
    listener.Follows now { listener with refresher := refresher } :=
  ⟨leads_of_refresher hgoes, fun h latency deadline =>
    fresh_of_refresher h le_rfl fun hdone => hfresh hdone latency deadline,
    fun _ => List.Sublist.refl _⟩

theorem resumeRefresher_follows (h : listener.resumeRefresher now = some after) :
    listener.Follows now after := by
  unfold resumeRefresher at h
  split at h
  · rename_i due hat
    split at h
    · cases h
      exact .of_refresher (fun hgoes => absurd rfl hgoes) fun hgoes => absurd rfl hgoes
    · obtain ⟨_, hafter⟩ := Option.ite_none_right_eq_some.mp h
      cases hafter
      refine .of_refresher (fun _ => by simp [hat]) fun _ latency deadline hfresh => ?_
      simp only [hat, Refresher.Fresh] at hfresh ⊢
      omega
  · cases h
  · rename_i since hat
    cases h
    refine .of_refresher (fun _ => by simp [hat]) fun hgoes latency deadline hfresh => ?_
    refine refreshLeadership_fresh ?_ hgoes
    simp only [hat, Refresher.Fresh] at hfresh
    omega
  · cases h
    exact .of_refresher (fun hgoes => absurd rfl hgoes) fun hgoes => absurd rfl hgoes
  · cases h

theorem raiseRefresher_follows (h : listener.raiseRefresher = some after) :
    listener.Follows now after := by
  obtain ⟨_, hafter⟩ := Option.ite_none_left_eq_some.mp h
  cases hafter
  exact .of_refresher (fun hgoes => absurd rfl hgoes) fun hgoes => absurd rfl hgoes

theorem stop_follows : listener.Follows now { listener with stop := true } :=
  ⟨fun h => h, fun _ _ _ h => h, fun _ => List.Sublist.refl _⟩

theorem crash_follows : listener.Follows now { listener with crashed := some now } := by
  have hleads : ({ listener with crashed := some now } : Listener).leads = false := rfl
  constructor <;> simp [hleads]

/-! ### What an await leaves alone -/

theorem consumed_crashed (exit : Option Failure) :
    (listener.consumed now exit).crashed = listener.crashed := by
  cases exit with
  | none => rfl
  | some failure => cases failure <;> rfl

theorem consume_crashed (item : Item) (rest : List Item) :
    (listener.consume rest item).crashed = listener.crashed := by
  unfold consume
  dsimp only
  split
  · rfl
  · split
    · rfl
    · split <;> rfl

theorem resume_crashed (h : listener.resume now = some after) :
    after.crashed = listener.crashed := by
  unfold resume at h
  cases hpoint : listener.point with
  | acquiring served since =>
      rw [hpoint] at h
      rcases served with _ | _ | _
      · cases h
      · cases h
        rfl
      · cases h
        rfl
  | retrying due =>
      simp only [hpoint] at h
      split at h
      · cases h
        rfl
      · obtain ⟨_, hafter⟩ := Option.ite_none_right_eq_some.mp h
        cases hafter
        rfl
  | subscribing since | backingOff due =>
      simp only [hpoint] at h
      obtain ⟨_, hafter⟩ := Option.ite_none_right_eq_some.mp h
      cases hafter
      rfl
  | listening =>
      simp only [hpoint] at h
      split at h
      · cases h
        exact consume_crashed _ _
      · cases h
  | handling | joining | unsubscribing =>
      simp only [hpoint] at h
      cases h
      rfl
  | closing exit =>
      simp only [hpoint] at h
      cases h
      exact consumed_crashed exit
  | releasing served again =>
      rw [hpoint] at h
      cases served with
      | false => cases h
      | true =>
          cases again with
          | false | true =>
              cases h
              rfl
  | ended =>
      simp only [hpoint] at h
      cases h

theorem raise_crashed {failure : Failure} (h : listener.raise now failure = some after) :
    after.crashed = listener.crashed := by
  unfold raise at h
  cases hpoint : listener.point with
  | acquiring | handling =>
      simp only [hpoint] at h
      split at h
      · cases h
        rfl
      · cases h
        rfl
  | releasing served again =>
      simp only [hpoint] at h
      split at h
      · cases h
        cases again <;> rfl
      · cases h
        rfl
  | retrying | backingOff =>
      simp only [hpoint] at h
      obtain ⟨_, hafter⟩ := Option.ite_none_right_eq_some.mp h
      cases hafter
      rfl
  | subscribing =>
      simp only [hpoint] at h
      cases h
      exact consumed_crashed _
  | listening | joining =>
      simp only [hpoint] at h
      cases h
      rfl
  | unsubscribing exit =>
      simp only [hpoint] at h
      split at h
      · cases h
        exact consumed_crashed _
      · cases h
        rfl
  | closing exit =>
      simp only [hpoint] at h
      split at h
      · cases h
        exact consumed_crashed _
      · cases h
        exact consumed_crashed exit
  | ended =>
      simp only [hpoint] at h
      cases h

theorem served_crashed (answer : Bool) :
    (listener.served now answer).crashed = listener.crashed := by
  unfold served
  split <;> rfl

theorem subscribe_crashed (h : listener.subscribe = some after) :
    after.crashed = listener.crashed := by
  unfold subscribe at h
  split at h <;> cases h
  rfl

theorem resumeRefresher_crashed (h : listener.resumeRefresher now = some after) :
    after.crashed = listener.crashed := by
  unfold resumeRefresher at h
  split at h
  · split at h
    · cases h
      rfl
    · obtain ⟨_, hafter⟩ := Option.ite_none_right_eq_some.mp h
      cases hafter
      rfl
  · cases h
  · cases h
    rfl
  · cases h
    rfl
  · cases h

theorem raiseRefresher_crashed (h : listener.raiseRefresher = some after) :
    after.crashed = listener.crashed := by
  obtain ⟨_, hafter⟩ := Option.ite_none_left_eq_some.mp h
  cases hafter
  rfl

end Listener

/-! ### A step of the system -/

namespace Listeners

variable {workerId : Nat → List Char} {world next : Listeners} {id : Nat} {holder : List Char}
  {listener : Listener}

theorem alive_eq_some : world.alive id = some listener ↔
    world.listeners[id]? = some listener ∧ listener.crashed = none := by
  simp [alive, Option.filter_eq_some_iff]

/-- What a step can do. -/
inductive Steps (workerId : Nat → List Char) (world : Listeners) : Action → Listeners → Prop
  | tick : Steps workerId world .tick
      { world with now := world.now + 1, leader := world.leader.expire (world.now + 1) }
  | start : Steps workerId world .start
      { world with listeners := world.listeners ++ [{ point := .acquiring none world.now }] }
  | publish (key : List Char) (missed : List Nat) : Steps workerId world (.publish key missed)
      { world with
        listeners := world.listeners.mapIdx fun id listener =>
          if id ∈ missed then listener else listener.hear (.message world.published key)
        published := world.published + 1 }
  /-- A listener goes on, and may hand a message over. -/
  | moved (action : Action) (id : Nat) (listener after : Listener) (handed : List Nat)
      (hlistener : world.listeners[id]? = some listener) (halive : listener.crashed = none)
      (hfollows : listener.Follows world.now after)
      (hcrashed : after.crashed = none ∨ after.crashed = some world.now)
      (hhanded : handed ≠ [] → listener.leads = true ∧ after.leads = true ∧
        (handed ++ after.serials).Sublist listener.serials) :
      Steps workerId world action { world.put id after with handled := world.handled ++ handed }
  /-- Redis carries a command of it out. -/
  | served (id : Nat) (listener : Listener) (command : StoreCommand Unit (List Char))
      (hlistener : world.listeners[id]? = some listener) (halive : listener.crashed = none)
      (hcommand : listener.command (workerId id) = some command) :
      Steps workerId world (.serve id) ((world.perform command).2.put id
        (listener.served world.now (world.perform command).1))
  /-- Redis carries the command of its refreshing task out. -/
  | refreshed (id since : Nat) (listener : Listener)
      (hlistener : world.listeners[id]? = some listener) (halive : listener.crashed = none)
      (hrefresher : listener.refresher = .refreshing none since) :
      Steps workerId world (.serveRefresh id) ((world.perform (.touchIfEq () (workerId id))).2.put id
        { listener with
          refresher := .refreshing (some (world.perform (.touchIfEq () (workerId id))).1) world.now })

theorem steps_of_step {action : Action} (hstep : step workerId world action = some next) :
    Steps workerId world action next := by
  have hquiet : ∀ {id : Nat} {listener after : Listener}, world.alive id = some listener →
      listener.Follows world.now after →
      after.crashed = none ∨ after.crashed = some world.now →
      Steps workerId world action (world.put id after) := by
    intro id listener after halive hfollows hcrashed
    obtain ⟨hlistener, hnone⟩ := alive_eq_some.mp halive
    have hmoved : Steps workerId world action
        { world.put id after with handled := world.handled ++ [] } :=
      .moved action id listener after [] hlistener hnone hfollows hcrashed fun hnot => absurd rfl hnot
    simpa [put] using hmoved
  cases action with
  | tick =>
      cases hstep
      exact .tick
  | start =>
      cases hstep
      exact .start
  | publish key missed =>
      cases hstep
      exact .publish key missed
  | stop id =>
      obtain ⟨listener, halive, hnext⟩ := Option.bind_eq_some_iff.mp hstep
      cases hnext
      exact hquiet halive Listener.stop_follows (.inl (alive_eq_some.mp halive).2)
  | crash id =>
      obtain ⟨listener, halive, hnext⟩ := Option.bind_eq_some_iff.mp hstep
      cases hnext
      exact hquiet halive Listener.crash_follows (.inr rfl)
  | subscribe id =>
      obtain ⟨listener, halive, hrest⟩ := Option.bind_eq_some_iff.mp hstep
      obtain ⟨after, hafter, hnext⟩ := Option.bind_eq_some_iff.mp hrest
      cases hnext
      exact hquiet halive (Listener.subscribe_follows hafter)
        (.inl ((Listener.subscribe_crashed hafter).trans (alive_eq_some.mp halive).2))
  | raise id failure =>
      obtain ⟨listener, halive, hrest⟩ := Option.bind_eq_some_iff.mp hstep
      obtain ⟨after, hafter, hnext⟩ := Option.bind_eq_some_iff.mp hrest
      cases hnext
      exact hquiet halive (Listener.raise_follows hafter)
        (.inl ((Listener.raise_crashed hafter).trans (alive_eq_some.mp halive).2))
  | resumeRefresher id =>
      obtain ⟨listener, halive, hrest⟩ := Option.bind_eq_some_iff.mp hstep
      obtain ⟨after, hafter, hnext⟩ := Option.bind_eq_some_iff.mp hrest
      cases hnext
      exact hquiet halive (Listener.resumeRefresher_follows hafter)
        (.inl ((Listener.resumeRefresher_crashed hafter).trans (alive_eq_some.mp halive).2))
  | raiseRefresher id =>
      obtain ⟨listener, halive, hrest⟩ := Option.bind_eq_some_iff.mp hstep
      obtain ⟨after, hafter, hnext⟩ := Option.bind_eq_some_iff.mp hrest
      cases hnext
      exact hquiet halive (Listener.raiseRefresher_follows hafter)
        (.inl ((Listener.raiseRefresher_crashed hafter).trans (alive_eq_some.mp halive).2))
  | resume id =>
      obtain ⟨listener, halive, hrest⟩ := Option.bind_eq_some_iff.mp hstep
      obtain ⟨after, hafter, hnext⟩ := Option.bind_eq_some_iff.mp hrest
      cases hnext
      obtain ⟨hlistener, hnone⟩ := alive_eq_some.mp halive
      obtain ⟨hfollows, hhanded⟩ := Listener.resume_follows hafter
      refine .moved _ id listener after _ hlistener hnone hfollows
        (.inl ((Listener.resume_crashed hafter).trans hnone)) fun htakes => ?_
      obtain ⟨hleads, hafter, hsublist⟩ := hhanded htakes
      rw [hnone] at hleads hafter
      exact ⟨hleads, hafter, hsublist⟩
  | serve id =>
      obtain ⟨listener, halive, hrest⟩ := Option.bind_eq_some_iff.mp hstep
      obtain ⟨command, hcommand, hnext⟩ := Option.bind_eq_some_iff.mp hrest
      cases hnext
      obtain ⟨hlistener, hnone⟩ := alive_eq_some.mp halive
      exact .served id listener command hlistener hnone hcommand
  | serveRefresh id =>
      obtain ⟨listener, halive, hrest⟩ := Option.bind_eq_some_iff.mp hstep
      obtain ⟨hlistener, hnone⟩ := alive_eq_some.mp halive
      split at hrest
      · cases hrest
        exact .refreshed id _ listener hlistener hnone ‹_›
      · cases hrest

/-! ### The listeners after a step -/

theorem getElem?_start {id : Nat} {listener new : Listener}
    (h : (world.listeners ++ [new])[id]? = some listener) :
    world.listeners[id]? = some listener ∨ listener = new := by
  by_cases hid : id < world.listeners.length
  · exact .inl (by rwa [List.getElem?_append_left hid] at h)
  · rw [List.getElem?_append_right (by omega), List.getElem?_singleton] at h
    exact .inr (Option.some.inj (Option.ite_none_right_eq_some.mp h).2).symm

theorem getElem?_publish {id : Nat} {listener : Listener} {key : List Char} {missed : List Nat}
    (h : (world.listeners.mapIdx fun id listener => if id ∈ missed then listener
      else listener.hear (.message world.published key))[id]? = some listener) :
    ∃ before, world.listeners[id]? = some before ∧
      (listener = before ∨ listener = before.hear (.message world.published key)) := by
  rw [List.getElem?_mapIdx] at h
  obtain ⟨before, hbefore, hafter⟩ := Option.map_eq_some_iff.mp h
  refine ⟨before, hbefore, ?_⟩
  split at hafter
  · exact .inl hafter.symm
  · exact .inr hafter.symm

theorem getElem?_put {id other : Nat} {after found : Listener}
    (h : (world.listeners.set id after)[other]? = some found) :
    (other = id ∧ found = after) ∨ (other ≠ id ∧ world.listeners[other]? = some found) := by
  by_cases hown : other = id
  · subst hown
    rw [List.getElem?_set_self'] at h
    obtain ⟨_, _, hfound⟩ := Option.map_eq_some_iff.mp h
    exact .inl ⟨rfl, hfound.symm⟩
  · rw [List.getElem?_set_ne (Ne.symm hown)] at h
    exact .inr ⟨hown, h⟩

/-! ### The key -/

/-- Commands about the leader key give the holder as value. -/
theorem command_value {command : StoreCommand Unit (List Char)}
    (h : listener.command holder = some command) :
    (∃ since, listener.point = .acquiring none since ∧ command = .setNx () holder) ∨
      (∃ again, listener.point = .releasing false again ∧ command = .delIfEq () holder) := by
  unfold Listener.command at h
  split at h <;> cases h
  · exact .inl ⟨_, ‹_›, rfl⟩
  · exact .inr ⟨_, ‹_›, rfl⟩

/-- What a listener's command does to the key. -/
inductive Turns (world : Listeners) (holder : List Char) : StoreCommand Unit (List Char) → Bool →
    Option (StoreEntry (List Char) Unit) → Prop
  | taken (hfree : world.leader () = none) :
      Turns world holder (.setNx () holder) true (some ⟨holder, world.now + leaderTtl, ()⟩)
  | touched (entry : StoreEntry (List Char) Unit) (hentry : world.leader () = some entry)
      (hvalue : entry.value = holder) :
      Turns world holder (.touchIfEq () holder) true
        (some { entry with deadline := world.now + leaderTtl })
  | deleted (entry : StoreEntry (List Char) Unit) (hentry : world.leader () = some entry)
      (hvalue : entry.value = holder) : Turns world holder (.delIfEq () holder) true none
  | refused (command : StoreCommand Unit (List Char))
      (hrefused : ∀ entry ∈ world.leader (), command = .setNx () holder ∨ entry.value ≠ holder) :
      Turns world holder command false (world.leader ())

theorem perform_turns {command : StoreCommand Unit (List Char)}
    (hcommand : command = .setNx () holder ∨ command = .touchIfEq () holder ∨
      command = .delIfEq () holder) :
    world.Turns holder command (world.perform command).1 ((world.perform command).2.leader ()) := by
  have hsteps := StoreCommand.run_steps world.leader (world.now + leaderTtl) () () command
  change world.Turns holder command (command.run world.leader (world.now + leaderTtl) ()).1
    ((command.run world.leader (world.now + leaderTtl) ()).2 ())
  generalize (command.run world.leader (world.now + leaderTtl) ()).1 = answer at hsteps ⊢
  generalize (command.run world.leader (world.now + leaderTtl) ()).2 () = after at hsteps ⊢
  generalize hbefore : world.leader () = before at hsteps
  cases hsteps with
  | other _ _ _ hother =>
      rcases hcommand with rfl | rfl | rfl
      · exact absurd rfl (hother holder).1
      · exact absurd rfl (hother holder).2.1
      · exact absurd rfl (hother holder).2.2
  | taken value =>
      obtain rfl : value = holder := by simpa using hcommand
      exact .taken hbefore
  | busy value entry =>
      obtain rfl : value = holder := by simpa using hcommand
      rw [← hbefore]
      exact .refused _ fun _ _ => .inl rfl
  | touched entry =>
      obtain rfl : entry.value = holder := by simpa using hcommand
      exact .touched entry hbefore rfl
  | deleted entry =>
      obtain rfl : entry.value = holder := by simpa using hcommand
      exact .deleted entry hbefore rfl
  | refused _ value hrefused _ hentry =>
      obtain rfl : value = holder := by
        rcases hrefused with rfl | rfl <;> simpa using hcommand
      rw [← hbefore]
      exact .refused command fun held hheld => .inr (hentry held (hbefore ▸ hheld))

/-- What is in the key after a command of `holder`. -/
theorem Turns.entry {command : StoreCommand Unit (List Char)} {answer : Bool}
    {later : Option (StoreEntry (List Char) Unit)} (h : world.Turns holder command answer later)
    {entry : StoreEntry (List Char) Unit} (hentry : later = some entry) :
    world.leader () = some entry ∨
      (entry.value = holder ∧ entry.deadline = world.now + leaderTtl) := by
  cases h with
  | taken =>
      cases hentry
      exact .inr ⟨rfl, rfl⟩
  | touched held _ hvalue =>
      cases hentry
      exact .inr ⟨hvalue, rfl⟩
  | deleted => cases hentry
  | refused => exact .inl hentry

/-- A command of `holder` leaves the key alone when another listener has it. -/
theorem Turns.foreign {command : StoreCommand Unit (List Char)} {answer : Bool}
    {later : Option (StoreEntry (List Char) Unit)} (h : world.Turns holder command answer later)
    {entry : StoreEntry (List Char) Unit} (hentry : world.leader () = some entry)
    (hforeign : entry.value ≠ holder) : later = some entry := by
  cases h with
  | taken hfree => cases hfree.symm.trans hentry
  | touched held hheld hvalue =>
      cases hheld.symm.trans hentry
      exact absurd hvalue hforeign
  | deleted held hheld hvalue =>
      cases hheld.symm.trans hentry
      exact absurd hvalue hforeign
  | refused => exact hentry

/-! ### How long the key is held -/

/-- The key runs out within its time, and within that time after the death of its holder. -/
structure Leased (workerId : Nat → List Char) (world : Listeners) : Prop where
  bounded : ∀ entry, world.leader () = some entry →
    world.now < entry.deadline ∧ entry.deadline ≤ world.now + leaderTtl
  crashed : ∀ entry id listener time, world.leader () = some entry → entry.value = workerId id →
    world.listeners[id]? = some listener → listener.crashed = some time →
    entry.deadline ≤ time + leaderTtl

theorem Leased.command (h : Leased workerId world) (hworkers : Function.Injective workerId)
    {command : StoreCommand Unit (List Char)} {answer : Bool} (after : Listener)
    (halive : after.crashed = none) {store : ExpiringStore Unit (List Char) Unit}
    (hturns : world.Turns (workerId id) command answer (store ())) :
    Leased workerId { world with leader := store, listeners := world.listeners.set id after } := by
  refine ⟨fun entry hentry => ?_, fun entry other found time hentry hvalue hfound hcrashed => ?_⟩
  · rcases hturns.entry hentry with hkept | ⟨_, hdeadline⟩
    · exact h.bounded entry hkept
    · change world.now < entry.deadline ∧ entry.deadline ≤ world.now + leaderTtl
      rw [hdeadline]
      exact ⟨Nat.lt_add_of_pos_right (by decide), le_rfl⟩
  · rcases getElem?_put hfound with ⟨_, rfl⟩ | ⟨hother, hbefore⟩
    · rw [halive] at hcrashed
      cases hcrashed
    · rcases hturns.entry hentry with hkept | ⟨hown, _⟩
      · exact h.crashed entry other found time hkept hvalue hbefore hcrashed
      · exact absurd (hworkers (hvalue.symm.trans hown)) hother

theorem Leased.step (h : Leased workerId world) (hworkers : Function.Injective workerId)
    {action : Action} (hsteps : Steps workerId world action next) : Leased workerId next := by
  cases hsteps with
  | tick =>
      refine ⟨fun entry hentry => ?_,
        fun entry id listener time hentry hvalue hlistener hcrashed => ?_⟩
      · obtain ⟨hbefore, hlater⟩ := ExpiringStore.expire_eq_some.mp hentry
        have hbounded := (h.bounded entry hbefore).2
        change world.now + 1 < entry.deadline ∧ entry.deadline ≤ world.now + 1 + leaderTtl
        omega
      · have hbefore := (ExpiringStore.expire_eq_some.mp hentry).1
        exact h.crashed entry id listener time hbefore hvalue hlistener hcrashed
  | start =>
      refine ⟨h.bounded, fun entry id listener time hentry hvalue hlistener hcrashed => ?_⟩
      rcases getElem?_start hlistener with hbefore | rfl
      · exact h.crashed entry id listener time hentry hvalue hbefore hcrashed
      · cases hcrashed
  | publish key missed =>
      refine ⟨h.bounded, fun entry id listener time hentry hvalue hlistener hcrashed => ?_⟩
      obtain ⟨before, hbefore, rfl | rfl⟩ := getElem?_publish hlistener
      · exact h.crashed entry id _ time hentry hvalue hbefore hcrashed
      · exact h.crashed entry id before time hentry hvalue hbefore hcrashed
  | moved action id listener after handed hlistener halive hfollows hstays hhanded =>
      refine ⟨h.bounded, fun entry other found time hentry hvalue hfound hcrashed => ?_⟩
      rcases getElem?_put hfound with ⟨_, rfl⟩ | ⟨_, hbefore⟩
      · rcases hstays with hnone | hnow
        · cases hnone.symm.trans hcrashed
        · cases hnow.symm.trans hcrashed
          exact (h.bounded entry hentry).2
      · exact h.crashed entry other found time hentry hvalue hbefore hcrashed
  | served id listener command hlistener halive hcommand =>
      refine h.command hworkers _ ?_ (perform_turns ?_)
      · rw [Listener.served_crashed]
        exact halive
      · rcases command_value hcommand with ⟨_, _, rfl⟩ | ⟨_, _, rfl⟩
        · exact .inl rfl
        · exact .inr (.inr rfl)
  | refreshed id since listener hlistener halive hrefresher =>
      refine h.command hworkers _ ?_ (perform_turns (.inr (.inl rfl)))
      exact halive

/-! ### The lead is exclusive -/

/-- Each leader has the key, and time enough. -/
def Led (workerId : Nat → List Char) (latency : Nat) (world : Listeners) : Prop :=
  ∀ id listener, world.listeners[id]? = some listener → listener.leads = true →
    ∃ entry, world.leader () = some entry ∧ entry.value = workerId id ∧
      listener.Fresh latency world.now entry.deadline

variable {latency : Nat}

theorem Led.exclusive (h : Led workerId latency world) (hworkers : Function.Injective workerId)
    {first second : Nat} {one other : Listener} (hone : world.listeners[first]? = some one)
    (hother : world.listeners[second]? = some other)
    (hfirst : one.leads = true) (hsecond : other.leads = true) : first = second := by
  obtain ⟨entry, hentry, hvalue, _⟩ := h first one hone hfirst
  obtain ⟨held, hheld, howner, _⟩ := h second other hother hsecond
  rw [hentry] at hheld
  cases hheld
  exact hworkers (hvalue.symm.trans howner)

/-- A command of one listener leaves the other leaders their key. -/
theorem Led.command (h : Led workerId latency world) (hworkers : Function.Injective workerId)
    {command : StoreCommand Unit (List Char)} {answer : Bool} (after : Listener)
    {store : ExpiringStore Unit (List Char) Unit}
    (hturns : world.Turns (workerId id) command answer (store ()))
    (hself : after.leads = true → ∃ entry, store () = some entry ∧ entry.value = workerId id ∧
      after.Fresh latency world.now entry.deadline) :
    Led workerId latency { world with
      leader := store, listeners := world.listeners.set id after } := by
  intro other listener hlistener hleads
  rcases getElem?_put hlistener with ⟨rfl, rfl⟩ | ⟨hother, hbefore⟩
  · exact hself hleads
  · obtain ⟨entry, hentry, hvalue, hfresh⟩ := h other listener hbefore hleads
    have hforeign : entry.value ≠ workerId id := fun hown =>
      hother (hworkers (hvalue.symm.trans hown))
    exact ⟨entry, hturns.foreign hentry hforeign, hvalue, hfresh⟩

theorem Led.step (h : Led workerId latency world) (hworkers : Function.Injective workerId)
    (hleased : Leased workerId world) (hlatency : 4 * latency < 20) {action : Action}
    (hprompt : world.prompt latency action = true) (hsteps : Steps workerId world action next) :
    Led workerId latency next := by
  cases hsteps with
  | tick =>
      intro id listener hlistener hleads
      obtain ⟨entry, hentry, hvalue, hfresh⟩ := h id listener hlistener hleads
      have hmem := List.mem_of_getElem? hlistener
      have hawaits : listener.prompt latency world.now = true := by
        simpa [hleads] using List.all_eq_true.mp hprompt listener hmem
      obtain ⟨hbefore, hlater⟩ := hfresh.tick hlatency hleads hawaits
      exact ⟨entry, ExpiringStore.expire_eq_some.mpr ⟨hentry, hbefore⟩, hvalue, hlater⟩
  | start =>
      intro id listener hlistener hleads
      rcases getElem?_start hlistener with hbefore | rfl
      · exact h id listener hbefore hleads
      · cases hleads
  | publish key missed =>
      intro id listener hlistener hleads
      obtain ⟨before, hbefore, rfl | rfl⟩ := getElem?_publish hlistener
      · exact h id _ hbefore hleads
      · exact h id before hbefore hleads
  | moved action id listener after handed hlistener halive hfollows hstays hhanded =>
      intro other found hfound hleads
      rcases getElem?_put hfound with ⟨rfl, rfl⟩ | ⟨_, hbefore⟩
      · obtain ⟨entry, hentry, hvalue, hfresh⟩ := h other listener hlistener (hfollows.leads hleads)
        exact ⟨entry, hentry, hvalue, hfollows.fresh hleads latency entry.deadline hfresh⟩
      · exact h other found hbefore hleads
  | served id listener command hlistener halive hcommand =>
      rcases command_value hcommand with ⟨since, hat, rfl⟩ | ⟨again, hat, rfl⟩
      · have hturns : world.Turns (workerId id) (.setNx () (workerId id)) _ _ :=
          perform_turns (.inl rfl)
        refine h.command hworkers _ hturns fun hleads => ?_
        generalize (world.perform (.setNx () (workerId id))).1 = answer at hturns hleads ⊢
        generalize (world.perform (.setNx () (workerId id))).2.leader () = later at hturns ⊢
        cases hturns with
        | taken =>
            refine ⟨_, rfl, rfl, ?_⟩
            simp [Listener.served, hat, Listener.Fresh]
        | refused => simp [Listener.served, hat, Listener.leads] at hleads
      · refine h.command hworkers _ (perform_turns (.inr (.inr rfl))) fun hleads => ?_
        simp [Listener.served, hat, Listener.leads] at hleads
  | refreshed id since listener hlistener halive hrefresher =>
      have hturns : world.Turns (workerId id) (.touchIfEq () (workerId id))
        (world.perform (.touchIfEq () (workerId id))).1
        ((world.perform (.touchIfEq () (workerId id))).2.leader ()) := perform_turns (.inr (.inl rfl))
      refine h.command hworkers _ hturns fun hleads => ?_
      generalize (world.perform (.touchIfEq () (workerId id))).1 = answer at hturns hleads ⊢
      generalize (world.perform (.touchIfEq () (workerId id))).2.leader () = later at hturns ⊢
      have hbefore := Listener.leads_of_refresher (fun _ => by simp [hrefresher]) hleads
      obtain ⟨entry, hentry, hvalue, hfresh⟩ := h id listener hlistener hbefore
      cases hturns with
      | touched held hheld hown =>
          obtain rfl := Option.some.inj (hentry.symm.trans hheld)
          refine ⟨_, rfl, hown, Listener.fresh_of_refresher hleads
            (hleased.bounded entry hentry).2 (fun _ _ => ?_) hfresh⟩
          exact ⟨le_rfl, Nat.le_add_right _ _⟩
      | refused _ hrefused =>
          rcases hrefused entry hentry with hcommand | hforeign
          · cases hcommand
          · exact absurd hvalue hforeign

/-! ### A message is handed over once -/

/-- A message joins those it has still to read, if it has a subscription. -/
theorem serials_hear (listener : Listener) (serial : Nat) (key : List Char) :
    (listener.hear (.message serial key)).serials.Sublist (listener.serials ++ [serial]) := by
  obtain ⟨point, refresher, inbox, backoff, stop, crashed⟩ := listener
  cases inbox with
  | none =>
      cases point <;> simp [Listener.hear, Listener.serials]
  | some items =>
      cases point <;> simp [Listener.hear, Listener.serials, Item.serial]

/-- What a leader has still to read has not been handed over. -/
structure Unrepeated (world : Listeners) : Prop where
  handled : world.handled.Nodup
  below : ∀ serial ∈ world.handled, serial < world.published
  inbox : ∀ (id : Nat) (listener : Listener), world.listeners[id]? = some listener →
    listener.leads = true → listener.serials.Nodup ∧
      ∀ serial ∈ listener.serials, serial < world.published ∧ serial ∉ world.handled

/-- A message is handed over by the leader. -/
theorem Unrepeated.hand (h : world.Unrepeated) (hworkers : Function.Injective workerId)
    (hled : Led workerId latency world) {after : Listener} {handed : List Nat}
    (hlistener : world.listeners[id]? = some listener) (hleads : listener.leads = true)
    (hsublist : (handed ++ after.serials).Sublist listener.serials) :
    Unrepeated { world.put id after with handled := world.handled ++ handed } := by
  obtain ⟨hnodup, hinbox⟩ := h.inbox id listener hlistener hleads
  obtain ⟨hhanded, hserials, hapart⟩ := List.nodup_append.mp (hnodup.sublist hsublist)
  have hmem : ∀ serial ∈ handed, serial ∈ listener.serials := fun serial hserial =>
    hsublist.subset (List.mem_append_left _ hserial)
  refine ⟨?_, fun serial hserial => ?_, fun other found hfound hother => ?_⟩
  · refine List.nodup_append.mpr ⟨h.handled, hhanded, fun old hold new hnew heq => ?_⟩
    subst heq
    exact (hinbox old (hmem old hnew)).2 hold
  · rcases List.mem_append.mp hserial with hold | hnew
    · exact h.below serial hold
    · exact (hinbox serial (hmem serial hnew)).1
  · rcases getElem?_put hfound with ⟨rfl, rfl⟩ | ⟨hne, hbefore⟩
    · refine ⟨hserials, fun serial hserial => ?_⟩
      obtain ⟨hbelow, hunhandled⟩ :=
        hinbox serial (hsublist.subset (List.mem_append_right _ hserial))
      refine ⟨hbelow, fun hdone => ?_⟩
      rcases List.mem_append.mp hdone with hold | hnew
      · exact hunhandled hold
      · exact hapart serial hnew serial hserial rfl
    · -- there is no other leader
      exact absurd (hled.exclusive hworkers hbefore hlistener hother hleads) hne

theorem Unrepeated.step (h : world.Unrepeated) (hworkers : Function.Injective workerId)
    (hled : Led workerId latency world) {action : Action} (hsteps : Steps workerId world action next) :
    next.Unrepeated := by
  cases hsteps with
  | tick => exact ⟨h.handled, h.below, h.inbox⟩
  | start =>
      refine ⟨h.handled, h.below, fun id listener hlistener hleads => ?_⟩
      rcases getElem?_start hlistener with hbefore | rfl
      · exact h.inbox id listener hbefore hleads
      · cases hleads
  | publish key missed =>
      have hlater : ∀ serial, serial < world.published → serial < world.published + 1 :=
        fun serial hlt => hlt.trans (Nat.lt_succ_self _)
      refine ⟨h.handled, fun serial hmem => hlater serial (h.below serial hmem),
        fun id listener hlistener hleads => ?_⟩
      obtain ⟨before, hbefore, rfl | rfl⟩ := getElem?_publish hlistener
      · obtain ⟨hnodup, hinbox⟩ := h.inbox id _ hbefore hleads
        exact ⟨hnodup, fun serial hmem => ⟨hlater serial (hinbox serial hmem).1, (hinbox serial hmem).2⟩⟩
      · obtain ⟨hnodup, hinbox⟩ := h.inbox id before hbefore hleads
        have hsublist := serials_hear before world.published key
        constructor
        · refine List.Nodup.sublist hsublist (List.nodup_append.mpr ⟨hnodup, by simp, ?_⟩)
          rintro old hold new hnew rfl
          rw [List.mem_singleton] at hnew
          exact absurd (hinbox old hold).1 (by omega)
        · intro serial hmem
          rcases List.mem_append.mp (hsublist.subset hmem) with hold | hnew
          · exact ⟨hlater serial (hinbox serial hold).1, (hinbox serial hold).2⟩
          · obtain rfl := List.mem_singleton.mp hnew
            exact ⟨Nat.lt_succ_self _, fun hdone => Nat.lt_irrefl _ (h.below _ hdone)⟩
  | moved action id listener after handed hlistener halive hfollows hstays hhanded =>
      by_cases hnot : handed = []
      · subst hnot
        rw [List.append_nil]
        refine ⟨h.handled, h.below, fun other found hfound hleads => ?_⟩
        rcases getElem?_put hfound with ⟨rfl, rfl⟩ | ⟨_, hbefore⟩
        · obtain ⟨hnodup, hinbox⟩ := h.inbox other listener hlistener (hfollows.leads hleads)
          have hsublist := hfollows.serials hleads
          exact ⟨hnodup.sublist hsublist, fun serial hmem => hinbox serial (hsublist.subset hmem)⟩
        · exact h.inbox other found hbefore hleads
      · obtain ⟨hleads, _, hsublist⟩ := hhanded hnot
        exact h.hand hworkers hled hlistener hleads hsublist
  | served id listener command hlistener halive hcommand =>
      refine ⟨h.handled, h.below, fun other found hfound hleads => ?_⟩
      rcases getElem?_put hfound with ⟨rfl, rfl⟩ | ⟨_, hbefore⟩
      · rcases command_value hcommand with ⟨since, hat, _⟩ | ⟨again, hat, _⟩
        · simp [Listener.served, hat, Listener.serials]
        · simp [Listener.served, hat, Listener.leads] at hleads
      · exact h.inbox other found hbefore hleads
  | refreshed id since listener hlistener halive hrefresher =>
      refine ⟨h.handled, h.below, fun other found hfound hleads => ?_⟩
      rcases getElem?_put hfound with ⟨rfl, rfl⟩ | ⟨_, hbefore⟩
      · exact h.inbox other listener hlistener
          (Listener.leads_of_refresher (fun _ => by simp [hrefresher]) hleads)
      · exact h.inbox other found hbefore hleads

/-! ### Runs -/

theorem reach_leased (hworkers : Function.Injective workerId)
    {Allowed : Listeners → Action → Prop}
    (hreach : Reach (Listeners.step workerId) Allowed init world) : Leased workerId world := by
  refine hreach.invariant (Leased workerId) ⟨fun _ hentry => ?_, fun _ _ _ _ hentry => ?_⟩
    fun before action after h _ hstep => h.step hworkers (steps_of_step hstep)
  · cases hentry
  · cases hentry

theorem reach_led (hworkers : Function.Injective workerId) (hlatency : 4 * latency < 20)
    (hreach : Reach (Listeners.step workerId)
      (fun world action => world.prompt latency action = true) init world) :
    Led workerId latency world := by
  refine hreach.invariant_with (Led workerId latency) (reach_leased hworkers) ?_
    fun before action after hleased h hprompt hstep =>
      h.step hworkers hleased hlatency hprompt (steps_of_step hstep)
  intro id listener hlistener
  simp [init] at hlistener

theorem reach_unrepeated (hworkers : Function.Injective workerId) (hlatency : 4 * latency < 20)
    (hreach : Reach (Listeners.step workerId)
      (fun world action => world.prompt latency action = true) init world) : world.Unrepeated := by
  refine hreach.invariant_with Listeners.Unrepeated (reach_led hworkers hlatency) ?_
    fun before action after hled h _ hstep => h.step hworkers hled (steps_of_step hstep)
  refine ⟨List.nodup_nil, fun _ hmem => absurd hmem List.not_mem_nil, fun id listener hlistener => ?_⟩
  simp [init] at hlistener

/-- The listener of this process takes itself for the leader. -/
def isLeader (world : Listeners) (id : Nat) : Bool := world.listeners[id]?.any Listener.leads

/-- **One listener leads.** While the processes have different holder ids and the awaits of a leader are
over in less than 5 s, there is one at most, a message is handed over by the listener whose id is in
the key, and no message is handed over twice. -/
theorem one_listener_leads (hworkers : Function.Injective workerId) (hlatency : 4 * latency < 20)
    (hreach : Reach (Listeners.step workerId)
      (fun world action => world.prompt latency action = true) init world) :
    (∀ first second, world.isLeader first = true → world.isLeader second = true →
      first = second) ∧
    (∀ (id : Nat) (listener after : Listener), world.alive id = some listener →
      listener.resume world.now = some after → takes after ≠ [] →
        ∃ entry, world.leader () = some entry ∧ entry.value = workerId id) ∧
    world.handled.Nodup := by
  have hled := reach_led hworkers hlatency hreach
  refine ⟨fun first second hfirst hsecond => ?_, fun id listener after halive hresume htakes => ?_,
    (reach_unrepeated hworkers hlatency hreach).handled⟩
  · obtain ⟨one, hone, hleads⟩ := (Option.any_eq_true ..).mp hfirst
    obtain ⟨other, hother, hclaims⟩ := (Option.any_eq_true ..).mp hsecond
    exact hled.exclusive hworkers hone hother hleads hclaims
  · obtain ⟨hlistener, hnone⟩ := alive_eq_some.mp halive
    have hleads := ((Listener.resume_follows hresume).2 htakes).1
    rw [hnone] at hleads
    obtain ⟨entry, hentry, hvalue, _⟩ := hled id listener hlistener hleads
    exact ⟨entry, hentry, hvalue⟩

/-- The id of a process that has imported the module itself. -/
def ownId (id : Nat) : List Char := "web:".toList ++ Nat.toDigits 10 id

theorem ownId_injective : Function.Injective ownId := by
  intro first second heq
  have hdigits : Nat.toDigits 10 first = Nat.toDigits 10 second := List.append_cancel_left heq
  have hvalue := congrArg (fun digits => Nat.ofDigitChars 10 digits 0) hdigits
  simpa only [Nat.ofDigitChars_ten_toDigits] using hvalue

/-- Two web processes. The first subscribes and hands a message over. -/
def handedOver : List Action :=
  [.start, .start, .serve 0, .resume 0, .serve 1, .resume 1, .subscribe 0, .resume 0, .resume 0,
    .publish (leaseKey 7) [], .resume 0]

/-- Ten seconds, and the key is refreshed. -/
def refreshed : List Action :=
  List.replicate 10 .tick ++ [.resumeRefresher 0, .serveRefresh 0, .resumeRefresher 0]

structure Overview where
  leading : List Bool
  handled : List Nat
  holder : Option (List Char)
deriving DecidableEq

def overview (world : Listeners) : Overview where
  leading := world.listeners.map Listener.leads
  handled := world.handled
  holder := (world.leader ()).map StoreEntry.value

theorem one_listener_leads_refreshed : ∃ world,
    run (step ownId) init (handedOver ++ refreshed) = some world ∧
    world.overview = ⟨[true, false], [0], some "web:0".toList⟩ ∧ world.handled.Nodup := by
  have hallowed : RunAllowed (step ownId) (fun world action => world.prompt 4 action = true) init
      (handedOver ++ refreshed) := by decide
  have hseen : (run (step ownId) init (handedOver ++ refreshed)).map overview =
      some ⟨[true, false], [0], some "web:0".toList⟩ := by decide
  obtain ⟨world, hrun, hworld⟩ := Option.map_eq_some_iff.mp hseen
  have hlatency : 4 * 4 < 20 := by decide
  exact ⟨world, hrun, hworld,
    (one_listener_leads ownId_injective hlatency (reach_of_run hrun hallowed)).2.2⟩

/-- The refreshing task sleeps too long: the second process takes the key, and both hand the next
message over. -/
example : (run (step ownId) init (handedOver ++ List.replicate 30 .tick ++
    [.resume 1, .serve 1, .resume 1, .subscribe 1, .resume 1, .resume 1, .resume 0,
      .publish (leaseKey 8) [], .resume 0, .resume 1])).map overview =
    some ⟨[true, true], [0, 1, 1], some "web:1".toList⟩ := by
  decide

/-- The module is imported before the fork, and all processes have one id. The first has lost the lead
and not noticed, the second has taken the key; the first gives up the key of the second, and takes it
again. -/
def forked : List Action :=
  [.start, .start, .serve 0, .resume 0, .serve 1, .resume 1, .subscribe 0, .resume 0, .resume 0] ++
    List.replicate 10 .tick ++ [.resumeRefresher 0, .raiseRefresher 0] ++ List.replicate 20 .tick ++
    [.resume 1, .serve 1, .resume 1, .subscribe 1, .resume 1, .resume 1, .publish (leaseKey 8) [],
      .resume 0, .resume 0, .resume 0, .resume 0, .serve 0, .resume 0, .serve 0, .resume 0,
      .subscribe 0, .resume 0, .resume 0, .resume 1, .resume 1, .publish (leaseKey 9) [], .resume 0,
      .resume 1]

/-- With one id for all, two listeners lead. -/
example : RunAllowed (step fun _ => ownId 0) (fun world action => world.prompt 4 action = true) init
      forked ∧
    (run (step fun _ => ownId 0) init forked).map overview =
      some ⟨[true, true], [0, 1, 1], some "web:0".toList⟩ := by
  decide +kernel

/-- **The lead of a dead process ends.** The key is free for others when the process has been dead for
`LEADER_TTL_S`. -/
theorem dead_leader_goes (hworkers : Function.Injective workerId)
    {Allowed : Listeners → Action → Prop}
    (hreach : Reach (Listeners.step workerId) Allowed init world) {time : Nat}
    (hlistener : world.listeners[id]? = some listener) (hcrashed : listener.crashed = some time)
    (htime : time + leaderTtl ≤ world.now) {entry : StoreEntry (List Char) Unit}
    (hentry : world.leader () = some entry) : entry.value ≠ workerId id := by
  intro hvalue
  have hleased := reach_leased hworkers hreach
  have hlater := (hleased.bounded entry hentry).1
  have hsoon := hleased.crashed entry id listener time hentry hvalue hlistener hcrashed
  omega

end Listeners

end CodexServer.LeaseListener
