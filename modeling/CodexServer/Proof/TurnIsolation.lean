import CodexServer.Proof.CodexTurn

/-!
# Turns that share a thread

The notes of every turn of a thread come through one queue. The filters of a turn let its own notes
through, and what they let through of another turn names it only where they do not look. So a turn
that takes nothing of that kind, and that is not cut short before its own end, translates what is its
own and nothing else.
-/

namespace CodexServer.CodexTurn

open Transition

section

variable {options : Options} {session next : Session} {queue : List (Option Notification)}
  {turnStartedAt now : ℚ}

/-! ### Notes of other turns -/

/-- The turn a note belongs to. -/
def belongsTo (note : Notification) : Option String :=
  note.turnId.or <|
    (((note.params.lookup "turn").bind Json.object?).bind (·.lookup "id")).bind Json.string?

/-- The note belongs to another turn. -/
def foreign (turnId : String) (note : Notification) : Bool :=
  (belongsTo note).any fun owner => owner ≠ turnId

/-- A note of this turn about an item or about its end. -/
def isOwn (turnId : String) (note : Notification) : Bool :=
  belongsTo note = some turnId && (note.isItem || note.method = CodexNotif.turnCompleted)

/-- A note of another turn that names it only in `turn.id`, where no filter looks. -/
def slips (turnId : String) (note : Notification) : Bool :=
  note.turnId.isNone && (note.isItem || note.method = CodexNotif.turnCompleted) &&
    foreign turnId note

/-- One note of another turn too many, before any of this one. -/
def storms (options : Options) (session : Session) (note : Notification) : Bool :=
  note.isStale options.turnId && session.diagnostics.rawCount = 0 &&
    options.stormThreshold ≤ session.diagnostics.staleRawCount + 1

/-- The turn's own end. -/
def isOwnEnd (turnId : String) (note : Notification) : Bool :=
  isOwn turnId note && note.method = CodexNotif.turnCompleted

/-- What has to be translated of the entries of the queue: the turn's own notes up to its own end. -/
def due (turnId : String) : List (Option Notification) → List Notification
  | [] => []
  | none :: rest => due turnId rest
  | some note :: rest =>
      if isOwnEnd turnId note then [note]
      else if isOwn turnId note then note :: due turnId rest
      else due turnId rest

/-- The turn's own end is among the entries. -/
def isOver (turnId : String) (entries : List (Option Notification)) : Bool :=
  entries.any fun entry => entry.any (isOwnEnd turnId)

/-- A note of the turn is among the entries. -/
def waits (turnId : String) (entries : List (Option Notification)) : Bool :=
  entries.any fun entry => entry.any (isOwn turnId)

/-- Translating the note ends the turn: with a done or an error event, or because it raises. -/
def endsTurn (python : Python) (note : Notification) (accumulated : String) : Bool :=
  match translateNotification python note accumulated with
  | .error _ | .ok (some (.done _)) | .ok (some (.error _ _)) => true
  | .ok _ => false

/-- A note that is let through and ends the turn without being its own end. -/
def cutsShort (options : Options) (session : Session) (note : Notification) : Bool :=
  note.passes options.turnId && endsTurn options.python note session.accumulated &&
    !isOwnEnd options.turnId note

/-- The turn takes no note that slips through, none too many, and none that cuts it short. Its clock,
a callback that raises and the end of the transport do not stop it while a note of its own is waiting,
and none of its own comes once it has been stopped. -/
def shielded (options : Options) (session : Session) : Action → Bool
  | .arrive entry =>
      !entry.any (isOwn options.turnId) || isOver options.turnId session.taken ||
        (!session.exhausted && session.exit?.isNone)
  | .resume =>
      match session.point, session.queue with
      | .waiting _, some note :: _ =>
          session.exhausted || (!slips options.turnId note && !storms options session note &&
            !cutsShort options session note)
      | .waiting _, none :: rest => !waits options.turnId rest
      | .checking, entries =>
          !waits options.turnId entries || !session.idleDue ||
            (options.hasOnIdle && session.clock - session.turnStartedAt < options.hardCapS)
      | _, _ => true
  | .timeOut | .answerIdle _ false | .raise _ => !waits options.turnId session.queue
  | _ => true

/-- No note about an item or the end of a turn is about the account. -/
theorem not_account {note : Notification}
    (hkind : (note.isItem || note.method = CodexNotif.turnCompleted) = true) :
    note.isAccount = false := by
  by_contra haccount
  rw [Bool.not_eq_false] at haccount
  have hmethod : note.method = Method.accountRateLimitsUpdated ∨
      note.method = Method.threadTokenUsageUpdated := by
    simpa only [Notification.isAccount, Bool.or_eq_true, decide_eq_true_eq] using haccount
  rcases hmethod with hmethod | hmethod <;>
    (simp only [Notification.isItem, hmethod] at hkind; revert hkind; decide)

theorem passes_of_isOwn {turnId : String} {note : Notification} (h : isOwn turnId note = true) :
    note.passes turnId = true := by
  simp only [isOwn, Bool.and_eq_true, decide_eq_true_eq] at h
  obtain ⟨howner, hkind⟩ := h
  have haccount := not_account hkind
  have hnoise : note.isSessionNoise = false := by
    rcases Bool.or_eq_true_iff.mp hkind with hitem | hcompleted
    · simp [Notification.isSessionNoise, hitem]
    · simp [Notification.isSessionNoise, of_decide_eq_true hcompleted]
  have hstale : note.isStale turnId = false := by
    cases hnamed : note.turnId with
    | none => simp [Notification.isStale, hnamed]
    | some owner =>
        have hsame : owner = turnId := by simpa [belongsTo, hnamed] using howner
        simp [Notification.isStale, hnamed, hsame]
  simp [Notification.passes, haccount, hstale, hnoise]

theorem due_append {turnId : String} {entries rest : List (Option Notification)}
    (h : isOver turnId entries = false) :
    due turnId (entries ++ rest) =
      entries.reduceOption.filter (isOwn turnId) ++ due turnId rest := by
  induction entries with
  | nil => rfl
  | cons entry entries ih =>
      simp only [isOver, List.any_cons, Bool.or_eq_false_iff] at h
      have hrest := ih h.2
      cases entry with
      | none => simpa [due] using hrest
      | some note =>
          have hgoes : isOwnEnd turnId note = false := h.1
          cases hown : isOwn turnId note with
          | false => simpa [due, hgoes, hown] using hrest
          | true => simpa [due, hgoes, hown] using hrest

theorem due_of_not_waits {turnId : String} {entries : List (Option Notification)}
    (h : waits turnId entries = false) : due turnId entries = [] := by
  induction entries with
  | nil => rfl
  | cons entry entries ih =>
      simp only [waits, List.any_cons, Bool.or_eq_false_iff] at h
      cases entry with
      | none => simpa [due] using ih h.2
      | some note =>
          have hother : isOwn turnId note = false := h.1
          have hgoes : isOwnEnd turnId note = false := by simp [isOwnEnd, hother]
          simpa [due, hgoes, hother] using ih h.2

/-- Nothing that comes after the turn's own end is due. -/
theorem due_concat {turnId : String} {entries rest : List (Option Notification)}
    {note : Notification} (h : isOver turnId entries = false) (hend : isOwnEnd turnId note = true) :
    due turnId (entries ++ [some note] ++ rest) =
      (entries ++ [some note]).reduceOption.filter (isOwn turnId) := by
  have hown : isOwn turnId note = true := by
    simp only [isOwnEnd, Bool.and_eq_true] at hend
    exact hend.1
  rw [List.append_assoc, due_append h]
  simp [due, hend, hown, List.reduceOption_append]

theorem endsTurn_of_end {turnId : String} {note : Notification} {python : Python}
    {accumulated : String} (h : isOwnEnd turnId note = true) :
    endsTurn python note accumulated = true := by
  have hmethod : note.method = CodexNotif.turnCompleted := by
    simp only [isOwnEnd, Bool.and_eq_true, decide_eq_true_eq] at h
    exact h.2
  have htranslate : translateNotification python note accumulated =
      (onTurnCompleted note.params accumulated).map some := by
    simp only [translateNotification, hmethod]
    rfl
  rw [endsTurn, htranslate]
  cases hevent : onTurnCompleted note.params accumulated with
  | error error => rfl
  | ok event => rcases onTurnCompleted_cases hevent with ⟨text, rfl⟩ | ⟨code, detail, rfl⟩ <;> rfl

theorem Session.translate_ends (note : Notification) :
    (session.translate options note).exit?.isSome =
      endsTurn options.python note session.accumulated := by
  unfold translate endsTurn
  cases htranslate : translateNotification options.python note session.accumulated with
  | error error => rfl
  | ok event =>
      cases event with
      | none => rfl
      | some event => cases event <;> rfl

/-- A note that is let through ends the turn just if its translation does. -/
theorem Session.handle_ends {note : Notification} (hpasses : note.passes options.turnId = true) :
    (session.handle options note).exit?.isSome =
      endsTurn options.python note session.accumulated := by
  simp only [Notification.passes, Bool.and_eq_true, Bool.not_eq_true'] at hpasses
  obtain ⟨⟨haccount, hstale⟩, hnoise⟩ := hpasses
  have haccumulated : (session.extendIdleDeadline options).accumulated = session.accumulated :=
    congrArg Ledger.accumulated extendIdleDeadline_ledger
  unfold handle
  simp only [haccount, hstale, hnoise, Bool.false_eq_true, if_false]
  rw [translate_ends, haccumulated]

/-! ### One turn -/

/-- Nothing that is the turn's own is filtered out. -/
theorem Ledger.Kept.own {ledger : Ledger} (h : ledger.Kept options) :
    ledger.yielded.filter (isOwn options.turnId) =
      ledger.taken.reduceOption.filter (isOwn options.turnId) := by
  rw [h.filtered, List.filter_filter]
  refine List.filter_congr fun note _ => ?_
  cases hown : isOwn options.turnId note with
  | false => rfl
  | true => simp [passes_of_isOwn hown]

/-- The turn is after its own end, or before it; and then, once nothing more is taken, nothing of it is
left in the queue. -/
inductive Caught (options : Options) (session : Session) : Prop
  | before (hgoes : isOver options.turnId session.taken = false)
      (hstopped : session.exhausted = true ∨ session.exit?.isSome = true →
        waits options.turnId session.queue = false)
  | after (hended : session.exit?.isSome = true) (entries : List (Option Notification))
      (note : Notification) (htaken : session.taken = entries ++ [some note])
      (hfirst : isOver options.turnId entries = false) (hend : isOwnEnd options.turnId note = true)

/-- What stops the turn without a note being taken is allowed only when none of its own is waiting. -/
theorem not_waits_of_lapses {action : Action} (hlapses : Session.Lapses options session action)
    (hallowed : shielded options session action = true) :
    waits options.turnId session.queue = false := by
  cases action with
  | resume =>
      obtain ⟨hdue, hwhy⟩ := hlapses
      have hpoint : session.point = .checking := by
        simp only [Session.idleDue, Bool.and_eq_true, decide_eq_true_eq] at hdue
        exact hdue.1
      simp only [shielded, hpoint, hdue, Bool.or_eq_true, Bool.not_eq_true', Bool.and_eq_true,
        decide_eq_true_eq, Bool.true_eq_false, or_false] at hallowed
      rcases hallowed with hquiet | ⟨hcallback, hearly⟩
      · exact hquiet
      · rcases hwhy with hcap | hnone
        · exact absurd hcap (not_le.mpr hearly)
        · simp [hcallback] at hnone
  | timeOut => simpa [shielded] using hallowed
  | answerIdle moves answer =>
      have hanswer : answer = false := hlapses
      simpa [shielded, hanswer] using hallowed
  | _ => exact hlapses.elim

theorem Caught.took {timer : Option ℚ} {note : Notification} {rest : List (Option Notification)}
    (hpoint : session.point = .waiting timer) (hopen : session.exhausted = false)
    (hqueue : session.queue = some note :: rest)
    (hallowed : shielded options session .resume = true) (h : Caught options session) :
    Caught options ((session.takes note rest).handle options note) := by
  have hshield : slips options.turnId note = false ∧ storms options session note = false ∧
      cutsShort options session note = false := by
    simpa [shielded, hpoint, hqueue, hopen, and_assoc] using hallowed
  have htaken : ((session.takes note rest).handle options note).taken =
      session.taken ++ [some note] := Session.handle_taken note
  cases h with
  | after hended => simp [Session.exit?, hpoint] at hended
  | before hgoes _ =>
      cases hend : isOwnEnd options.turnId note with
      | true =>
          refine .after ?_ session.taken note htaken hgoes hend
          have hown : isOwn options.turnId note = true := by
            simp only [isOwnEnd, Bool.and_eq_true] at hend
            exact hend.1
          rw [Session.handle_ends (passes_of_isOwn hown)]
          exact endsTurn_of_end hend
      | false =>
          refine .before ?_ fun hstopped => ?_
          · rw [htaken]
            simpa [isOver, hend] using hgoes
          -- a note that is not the turn's own end does not stop it
          exfalso
          rw [Session.handle_exhausted] at hstopped
          rcases hstopped with hexhausted | hended
          · exact Bool.false_ne_true (hopen.symm.trans hexhausted)
          obtain ⟨exit, hexit⟩ := Option.isSome_iff_exists.mp hended
          rcases Session.handle_exit hexit with ⟨-, hstale, hfresh, hmany⟩ | ⟨hpasses, -⟩
          · have hstorms : storms options session note = true := by
              simp [storms, hstale, show session.diagnostics.rawCount = 0 from hfresh,
                show options.stormThreshold ≤ session.diagnostics.staleRawCount + 1 from hmany]
            simp [hshield.2.1] at hstorms
          · rw [Session.handle_ends hpasses] at hended
            have hcuts : cutsShort options session note = true := by
              simp only [cutsShort, hpasses, hend, Bool.not_false, Bool.and_true, Bool.true_and]
              exact hended
            simp [hshield.2.2] at hcuts

theorem Session.Moves.caught {action : Action} (hmoves : Session.Moves options session action next)
    (hallowed : shielded options session action = true) (h : Caught options session) :
    Caught options next := by
  cases hmoves with
  | arrive entry =>
      cases h with
      | after hended entries note htaken hfirst hend =>
          exact .after hended entries note htaken hfirst hend
      | before hgoes hstopped =>
          refine .before hgoes fun hover => ?_
          have hquiet : waits options.turnId session.queue = false := hstopped hover
          have hother : entry.any (isOwn options.turnId) = false := by
            by_contra hown
            rw [Bool.not_eq_false] at hown
            have hopen : session.exhausted = false ∧ session.exit? = none := by
              simpa [shielded, hown, hgoes] using hallowed
            rcases hover with hexhausted | hended
            · exact Bool.false_ne_true (hopen.1.symm.trans hexhausted)
            · have hnone : (none : Option Exit).isSome = true := hopen.2 ▸ hended
              cases hnone
          simp only [waits, List.any_append, List.any_cons, List.any_nil, hother, Bool.or_false]
          exact hquiet
  | quiet hledger hexit hexhausted =>
      have htaken : next.taken = session.taken := congrArg Ledger.taken hledger
      have hqueue : next.queue = session.queue := congrArg Ledger.queue hledger
      cases h with
      | after hended entries note htaken' hfirst hend =>
          exact .after (hexit ▸ hended) entries note (htaken.trans htaken') hfirst hend
      | before hgoes hstopped =>
          refine .before (htaken ▸ hgoes) fun hover => ?_
          rw [hqueue]
          rcases hover with hover | hover
          · rcases hexhausted hover with hexhausted | rfl
            · exact hstopped (.inl hexhausted)
            · simpa [shielded] using hallowed
          · exact hstopped (.inr (hexit ▸ hover))
  | lapse hlapses hledger hexit =>
      have htaken : next.taken = session.taken := congrArg Ledger.taken hledger
      have hqueue : next.queue = session.queue := congrArg Ledger.queue hledger
      cases h with
      | after hended entries note htaken' hfirst hend =>
          exact .after (by simp [hexit]) entries note (htaken.trans htaken') hfirst hend
      | before hgoes =>
          exact .before (htaken ▸ hgoes) fun _ => hqueue ▸ not_waits_of_lapses hlapses hallowed
  | raised error =>
      cases h with
      | after hended entries note htaken hfirst hend => exact .after rfl entries note htaken hfirst hend
      | before hgoes =>
          have hquiet : waits options.turnId session.queue = false := by
            simpa [shielded] using hallowed
          exact .before hgoes fun _ => hquiet
  | exhausted hexhausted =>
      cases h with
      | after hended entries note htaken hfirst hend => exact .after rfl entries note htaken hfirst hend
      | before hgoes hstopped => exact .before hgoes fun _ => hstopped (.inl hexhausted)
  | @sentinel _ rest hpoint hqueue =>
      cases h with
      | after hended => simp [Session.exit?, hpoint] at hended
      | before hgoes =>
          have hquiet : waits options.turnId rest = false := by
            simpa [shielded, hpoint, hqueue] using hallowed
          refine .before ?_ fun _ => hquiet
          simpa [Session.endWith, isOver] using hgoes
  | took hpoint hopen hqueue => exact h.took hpoint hopen hqueue hallowed

/-- All that is due and has been taken is yielded; and all that is due, when nothing is left to take. -/
theorem Caught.due {options : Options} {session : Session} (h : Caught options session)
    (hkept : session.ledger.Kept options) :
    session.yielded.filter (isOwn options.turnId) <+: due options.turnId session.arrived ∧
      (session.exit?.isSome = true ∨ session.queue = [] →
        session.yielded.filter (isOwn options.turnId) =
          CodexTurn.due options.turnId session.arrived) := by
  have hyielded : session.yielded.filter (isOwn options.turnId) =
      session.taken.reduceOption.filter (isOwn options.turnId) := hkept.own
  have hqueued : session.arrived = session.taken ++ session.queue := hkept.queued
  rw [hyielded, hqueued]
  cases h with
  | before hgoes hstopped =>
      rw [due_append hgoes]
      refine ⟨List.prefix_append _ _, fun hdone => ?_⟩
      have hnothing : CodexTurn.due options.turnId session.queue = [] := by
        rcases hdone with hended | hempty
        · exact due_of_not_waits (hstopped (.inr hended))
        · rw [hempty]
          rfl
      rw [hnothing, List.append_nil]
  | after hended entries note htaken hfirst hend =>
      rw [htaken, due_concat hfirst hend]
      exact ⟨List.prefix_rfl, fun _ => rfl⟩

end
end CodexServer.CodexTurn
