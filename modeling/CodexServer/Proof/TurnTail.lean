import CodexServer.TurnStream
import CodexServer.Library.Transition

/-!
# What `tail` yields

The frames of a cursor are the entries after it, up to and with the first terminal one. `tail` goes
through them in order and keeps its place by the id of the last entry it has yielded; it can only
leave early between an empty read and the row it reads after it.
-/

namespace CodexServer

/-! ### Cursors -/

namespace EntryId

theorem parseDigits_digits (value : Fin (2 ^ 64)) : parseDigits (digits value) = some value := by
  have hnonempty : digits value ≠ [] := Nat.toDigits_ne_nil
  have hall : (digits value).all Char.isDigit = true :=
    List.all_eq_true.mpr fun char hchar => Nat.isDigit_of_mem_toDigits (by omega) le_rfl hchar
  have hvalue : Nat.ofDigitChars 10 (digits value) 0 = value.val := Nat.ofDigitChars_ten_toDigits
  simp [parseDigits, hnonempty, hall, hvalue]

theorem ne_dash_of_mem_digits {value : Fin (2 ^ 64)} {char : Char} (h : char ∈ digits value) :
    char ≠ '-' := by
  rintro rfl
  have := Nat.isDigit_of_mem_toDigits (b := 10) (by omega) le_rfl h
  simp at this

/-- An id read back from its text. -/
theorem parse_text (id : EntryId) : parse id.text = some id := by
  have htake : id.text.toList.takeWhile (· ≠ '-') = digits (ofLex id).1 := by
    rw [text, String.toList_ofList, List.takeWhile_append_of_pos]
    · simp
    · simpa using fun char hchar => ne_dash_of_mem_digits hchar
  have hdrop : id.text.toList.dropWhile (· ≠ '-') = '-' :: digits (ofLex id).2 := by
    rw [text, String.toList_ofList, List.dropWhile_append_of_pos]
    · simp
    · simpa using fun char hchar => ne_dash_of_mem_digits hchar
  simp only [parse, htake, hdrop, parseDigits_digits, Option.bind_some, Option.map_some]
  rfl

end EntryId

/-- Cursors XREAD does not answer with an error. -/
def AcceptedCursor (cursor : String) : Prop :=
  cursor = "$" ∨ cursor = "+" ∨ (EntryId.parse cursor).isSome

theorem readBound_isSome {cursor : String} (log : TurnLog) (h : AcceptedCursor cursor) :
    (readBound log cursor).isSome := by
  unfold readBound
  split_ifs with hdollar hplus
  · rfl
  · rfl
  · simpa using (h.resolve_left hdollar).resolve_left hplus

theorem AcceptedCursor.text (id : EntryId) : AcceptedCursor id.text :=
  Or.inr (Or.inr (by simp [EntryId.parse_text]))

theorem AcceptedCursor.zero : AcceptedCursor "0" := Or.inr (Or.inr (by decide))

/-- Where a cursor stands in a log: at the start, or at an entry it is the id of. -/
def CursorAt (log : TurnLog) (cursor : String) (id : EntryId) : Prop :=
  (cursor = "0" ∧ id = ⊥) ∨ (cursor = id.text ∧ ∃ event, (id, event) ∈ log.entries)

theorem CursorAt.readBound {log : TurnLog} {cursor : String} {id : EntryId}
    (h : CursorAt log cursor id) : readBound log cursor = some (.exclusive id) := by
  obtain ⟨hparse, hdollar, hplus⟩ :
      EntryId.parse cursor = some id ∧ cursor ≠ "$" ∧ cursor ≠ "+" := by
    rcases h with ⟨rfl, rfl⟩ | ⟨rfl, -⟩
    · decide
    · refine ⟨EntryId.parse_text id, ?_, ?_⟩ <;>
      · intro htext
        have hparse := EntryId.parse_text id
        rw [htext] at hparse
        revert hparse
        exact ne_of_beq_false rfl
  simp [CodexServer.readBound, hparse, hdollar, hplus]

theorem CursorAt.append {log : TurnLog} {cursor : String} {id new : EntryId} {event : ChatEvent}
    (h : CursorAt log cursor id) (hnew : log.Admits new) :
    CursorAt (log.append new event hnew) cursor id ∧
      (log.append new event hnew).after id = log.after id ++ [(new, event)] := by
  have hlt : id < new := hnew.cursor_lt (h.imp And.right And.right)
  refine ⟨h.imp_right fun ⟨htext, old, hmem⟩ => ⟨htext, old, ?_⟩, EventLog.after_append hnew hlt⟩
  exact List.mem_append_left _ hmem

/-! ### The frames of a cursor -/

/-- The frames of some entries, up to and with the first terminal one. -/
def upToTerminal : List (EntryId × ChatEvent) → List ChatEvent
  | [] => []
  | entry :: rest =>
      if (Tail.frame entry).isTerminal then [Tail.frame entry]
      else Tail.frame entry :: upToTerminal rest

def NoTerminalEntry (entries : List (EntryId × ChatEvent)) : Prop :=
  ∀ entry ∈ entries, (Tail.frame entry).isTerminal = false

theorem upToTerminal_append {entries rest : List (EntryId × ChatEvent)}
    (h : NoTerminalEntry entries) :
    upToTerminal (entries ++ rest) = entries.map Tail.frame ++ upToTerminal rest := by
  induction entries with
  | nil => rfl
  | cons entry entries ih =>
      have hentry := h entry List.mem_cons_self
      have hrest := ih fun other hother => h other (List.mem_cons_of_mem _ hother)
      simp [upToTerminal, hentry, hrest]

theorem upToTerminal_cons_of_isTerminal {entry : EntryId × ChatEvent}
    {rest : List (EntryId × ChatEvent)} (h : (Tail.frame entry).isTerminal = true) :
    upToTerminal (entry :: rest) = [Tail.frame entry] := by
  simp [upToTerminal, h]

theorem upToTerminal_eq_map {entries : List (EntryId × ChatEvent)}
    (h : (entries.map Prod.snd).Pairwise fun earlier _ => earlier.isTerminal = false) :
    upToTerminal entries = entries.map Tail.frame := by
  induction entries with
  | nil => rfl
  | cons entry rest ih =>
      obtain ⟨hentry, hrest⟩ := List.pairwise_cons.mp h
      cases rest with
      | nil => simp [upToTerminal]
      | cons next rest =>
          have hgoes : (Tail.frame entry).isTerminal = false :=
            hentry next.2 (List.mem_map_of_mem List.mem_cons_self)
          rw [upToTerminal, hgoes, if_neg Bool.false_ne_true, ih hrest, List.map_cons (l := next :: rest)]

/-- What `tail` from `start` has done: the entries it has seen, and the cursor it is at. -/
structure Progress (start : EntryId) (log : TurnLog) (yields : List ChatEvent)
    (seen : List (EntryId × ChatEvent)) (cursor : String) (id : EntryId) : Prop where
  cursorAt : CursorAt log cursor id
  split : log.after start = seen ++ log.after id
  yields_eq : yields = seen.map Tail.frame
  noTerminal : NoTerminalEntry seen

/-- The invariant of a run of `tail`. -/
def TailInv (start : EntryId) (system : StreamSystem Tail) : Prop :=
  let log := system.world.log
  let isOver := system.world.turn.status.isTerminal = true
  match system.reader with
  | .reading cursor => ∃ seen id, Progress start log system.yields seen cursor id
  | .blocked cursor bound =>
      ∃ seen id, bound = .exclusive id ∧ Progress start log system.yields seen cursor id
  | .checking cursor =>
      ∃ seen id, Progress start log system.yields seen cursor id ∧ (isOver → log.after id = [])
  | .yielding cursor entries =>
      ∃ seen id, Progress start log system.yields seen cursor id ∧ entries <+: log.after id
  | .returned =>
      (∃ seen last rest, log.after start = seen ++ last :: rest ∧ NoTerminalEntry seen ∧
        (Tail.frame last).isTerminal = true ∧
        system.yields = seen.map Tail.frame ++ [Tail.frame last]) ∨
      (∃ seen cursor id, Progress start log system.yields seen cursor id ∧ isOver ∧
        log.after id = [])
  | .raised => False

/-- The worker has published all it had when the row is terminal. -/
def WorkerInv (world : StreamWorld) : Prop :=
  world.turn.status.isTerminal = true → world.pending = []

/-- No frame follows a terminal one, among those in the stream and those still to be published. -/
def NoneAfterTerminal (world : StreamWorld) : Prop :=
  (world.log.entries.map Prod.snd ++ world.pending).Pairwise fun earlier _ =>
    earlier.isTerminal = false

/-- The outcome is not committed between an empty read of `tail` and the row it reads next, when
something was published in between. -/
def CommitOutsideWindow (system : StreamSystem Tail) : StreamSystem.Action → Bool
  | .finalize _ =>
      match system.reader with
      | .checking cursor => (readBound system.world.log cursor).all fun bound =>
          (bound.after system.world.log).isEmpty
      | _ => true
  | _ => true

/-! ### Steps -/

theorem StreamWorld.publish_cases {world next : StreamWorld} {id : EntryId}
    (h : world.publish id = some next) : ∃ event rest hid, world.pending = event :: rest ∧
      next = { world with log := world.log.append id event hid, pending := rest } := by
  unfold publish at h
  cases hpending : world.pending with
  | nil => simp [hpending] at h
  | cons event rest =>
      simp only [hpending] at h
      split_ifs at h with hid
      exact ⟨event, rest, hid, rfl, (Option.some.inj h).symm⟩

theorem StreamWorld.finalize_cases {world next : StreamWorld} {now : Nat}
    (h : world.finalize now = some next) : ∃ turn, world.pending = [] ∧
      world.turn.status.isTerminal = false ∧ turn.status.isTerminal = true ∧
      next = { world with turn := turn } := by
  unfold finalize at h
  split_ifs at h with hpending
  obtain ⟨turn, hturn, rfl⟩ := Option.map_eq_some_iff.mp h
  simp only [TurnRow.finalizeOnce, Option.ite_none_right_eq_some, Option.some.injEq] at hturn
  obtain ⟨hactive, rfl⟩ := hturn
  exact ⟨_, hpending, by simpa using hactive, world.outcome.1.property, rfl⟩

theorem Progress.publish {start : EntryId} {before after : StreamWorld} {yields : List ChatEvent}
    {seen : List (EntryId × ChatEvent)} {cursor : String} {id new : EntryId}
    (hstart : ∃ text, CursorAt before.log text start)
    (hprogress : Progress start before.log yields seen cursor id)
    (hpublish : before.publish new = some after) :
    Progress start after.log yields seen cursor id ∧
      ∃ event, after.log.after id = before.log.after id ++ [(new, event)] := by
  obtain ⟨event, rest, hid, -, rfl⟩ := StreamWorld.publish_cases hpublish
  obtain ⟨text, hstart⟩ := hstart
  obtain ⟨hcursor, hafter⟩ := hprogress.cursorAt.append hid
  refine ⟨⟨hcursor, ?_, hprogress.yields_eq, hprogress.noTerminal⟩, event, hafter⟩
  simp only
  rw [(hstart.append hid).2, hafter, hprogress.split, List.append_assoc]

section Steps

variable {start : EntryId} {system : StreamSystem Tail}

theorem TailInv.publish {world : StreamWorld} {new : EntryId}
    (hstart : ∃ text, CursorAt system.world.log text start) (hworker : WorkerInv system.world)
    (hinv : TailInv start system) (hpublish : system.world.publish new = some world) :
    TailInv start { system with world := world } := by
  have hactive : system.world.turn.status.isTerminal = false := by
    obtain ⟨event, rest, -, hpending, -⟩ := StreamWorld.publish_cases hpublish
    by_contra hterminal
    simp [hworker (by simpa using hterminal)] at hpending
  have hturn : world.turn = system.world.turn := by
    obtain ⟨_, _, _, -, rfl⟩ := StreamWorld.publish_cases hpublish
    rfl
  unfold TailInv at hinv ⊢
  cases hreader : system.reader with
  | reading cursor =>
      simp only [hreader] at hinv ⊢
      obtain ⟨seen, id, hprogress⟩ := hinv
      exact ⟨seen, id, (hprogress.publish hstart hpublish).1⟩
  | blocked cursor bound =>
      simp only [hreader] at hinv ⊢
      obtain ⟨seen, id, hbound, hprogress⟩ := hinv
      exact ⟨seen, id, hbound, (hprogress.publish hstart hpublish).1⟩
  | checking cursor =>
      simp only [hreader] at hinv ⊢
      obtain ⟨seen, id, hprogress, -⟩ := hinv
      exact ⟨seen, id, (hprogress.publish hstart hpublish).1, by simp [hturn, hactive]⟩
  | yielding cursor entries =>
      simp only [hreader] at hinv ⊢
      obtain ⟨seen, id, hprogress, hpre⟩ := hinv
      obtain ⟨hnext, event, hafter⟩ := hprogress.publish hstart hpublish
      exact ⟨seen, id, hnext, hafter ▸ hpre.trans (List.prefix_append _ _)⟩
  | returned =>
      simp only [hreader] at hinv ⊢
      rcases hinv with ⟨seen, last, rest, hsplit, hseen, hlast, hyields⟩ | ⟨_, _, _, -, hterminal, -⟩
      · obtain ⟨event, _, hid, -, rfl⟩ := StreamWorld.publish_cases hpublish
        obtain ⟨text, hcursor⟩ := hstart
        refine Or.inl ⟨seen, last, rest ++ [(new, event)], ?_, hseen, hlast, hyields⟩
        simp [(hcursor.append hid).2, hsplit]
      · simp [hactive] at hterminal
  | raised => simp [hreader] at hinv

theorem TailInv.finalize {world : StreamWorld} {now : Nat} (hinv : TailInv start system)
    (hallowed : CommitOutsideWindow system (.finalize now))
    (hfinalize : system.world.finalize now = some world) :
    TailInv start { system with world := world } := by
  obtain ⟨turn, -, hactive, -, rfl⟩ := StreamWorld.finalize_cases hfinalize
  unfold TailInv at hinv ⊢
  cases hreader : system.reader with
  | reading cursor =>
      simp only [hreader] at hinv ⊢
      obtain ⟨seen, id, hprogress⟩ := hinv
      exact ⟨seen, id, hprogress⟩
  | blocked cursor bound =>
      simp only [hreader] at hinv ⊢
      obtain ⟨seen, id, hbound, hprogress⟩ := hinv
      exact ⟨seen, id, hbound, hprogress⟩
  | checking cursor =>
      simp only [hreader] at hinv ⊢
      obtain ⟨seen, id, hprogress, -⟩ := hinv
      exact ⟨seen, id, hprogress,
        fun _ => by simpa [CommitOutsideWindow, hreader, hprogress.cursorAt.readBound,
          ReadBound.after] using hallowed⟩
  | yielding cursor entries =>
      simp only [hreader] at hinv ⊢
      obtain ⟨seen, id, hprogress, hpre⟩ := hinv
      exact ⟨seen, id, hprogress, hpre⟩
  | returned =>
      simp only [hreader] at hinv ⊢
      rcases hinv with hleft | ⟨_, _, _, -, hterminal, -⟩
      · exact Or.inl hleft
      · simp [hactive] at hterminal
  | raised => simp [hreader] at hinv

theorem TailInv.read {tail : Tail} {event : Option ChatEvent} (hinv : TailInv start system)
    (hstep : system.reader.step system.world.log (some system.world.turn.status)
      = some (tail, event)) :
    TailInv start
      { system with reader := tail, yields := system.yields ++ event.toList } := by
  unfold TailInv at hinv
  cases hreader : system.reader with
  | reading cursor =>
      simp only [hreader] at hinv
      obtain ⟨seen, id, hprogress⟩ := hinv
      simp only [hreader, Tail.step, hprogress.cursorAt.readBound, Option.some.injEq,
        Prod.mk.injEq] at hstep
      obtain ⟨rfl, rfl⟩ := hstep
      exact ⟨seen, id, rfl, by simpa using hprogress⟩
  | blocked cursor bound =>
      simp only [hreader] at hinv
      obtain ⟨seen, id, rfl, hprogress⟩ := hinv
      cases hentries : (system.world.log.after id).take 64 with
      | nil =>
          simp only [hreader, Tail.step, ReadBound.after, hentries, Option.some.injEq,
            Prod.mk.injEq] at hstep
          obtain ⟨rfl, rfl⟩ := hstep
          exact ⟨seen, id, by simpa using hprogress, fun _ => by simpa using hentries⟩
      | cons entry rest =>
          simp only [hreader, Tail.step, ReadBound.after, hentries, Option.some.injEq,
            Prod.mk.injEq] at hstep
          obtain ⟨rfl, rfl⟩ := hstep
          exact ⟨seen, id, by simpa using hprogress, hentries ▸ List.take_prefix _ _⟩
  | checking cursor =>
      simp only [hreader] at hinv
      obtain ⟨seen, id, hprogress, hempty⟩ := hinv
      simp only [hreader, Tail.step, Option.all_some] at hstep
      split_ifs at hstep with hterminal <;> simp only [Option.some.injEq, Prod.mk.injEq] at hstep <;>
        obtain ⟨rfl, rfl⟩ := hstep
      · exact Or.inr ⟨seen, cursor, id, by simpa using hprogress, hterminal, hempty hterminal⟩
      · exact ⟨seen, id, by simpa using hprogress⟩
  | yielding cursor entries =>
      simp only [hreader] at hinv
      obtain ⟨seen, id, hprogress, hpre⟩ := hinv
      cases entries with
      | nil =>
          simp only [hreader, Tail.step, Option.some.injEq, Prod.mk.injEq] at hstep
          obtain ⟨rfl, rfl⟩ := hstep
          exact ⟨seen, id, by simpa using hprogress⟩
      | cons entry rest =>
          obtain ⟨later, hlater⟩ := hpre
          have hafter : system.world.log.after entry.1 = rest ++ later :=
            EventLog.after_of_after_cons hlater.symm
          have hmem : entry ∈ system.world.log.after id := by
            rw [← hlater]
            exact List.mem_cons_self
          simp only [hreader, Tail.step] at hstep
          split_ifs at hstep with hterminal <;>
            simp only [Option.some.injEq, Prod.mk.injEq] at hstep <;> obtain ⟨rfl, rfl⟩ := hstep
          · exact Or.inl ⟨seen, entry, rest ++ later, by simp [hprogress.split, ← hlater],
              hprogress.noTerminal, hterminal, by simp [hprogress.yields_eq]⟩
          · have hcursor : CursorAt system.world.log entry.1.text entry.1 :=
              Or.inr ⟨rfl, entry.2, (EventLog.mem_after.mp hmem).1⟩
            refine ⟨seen ++ [entry], entry.1, ⟨hcursor, ?_, ?_, ?_⟩, ?_⟩
            · simp [hafter, hprogress.split, ← hlater]
            · simp [hprogress.yields_eq]
            · intro other hother
              rcases List.mem_append.mp hother with hold | hlast
              · exact hprogress.noTerminal other hold
              · rw [List.mem_singleton.mp hlast]
                simpa using hterminal
            · simp [hafter]
  | returned => simp [hreader, Tail.step] at hstep
  | raised => simp [hreader] at hinv

/-- Every step of the system, under the condition on commits, keeps the invariant. -/
theorem tailInv_step {action : StreamSystem.Action} {next : StreamSystem Tail}
    (hstart : ∃ text, CursorAt system.world.log text start) (hworker : WorkerInv system.world)
    (hinv : TailInv start system) (hallowed : CommitOutsideWindow system action)
    (hstep : system.tailStep action = some next) :
    (∃ text, CursorAt next.world.log text start) ∧ WorkerInv next.world ∧ TailInv start next := by
  cases action with
  | publish id =>
      obtain ⟨world, hpublish, rfl⟩ := Option.map_eq_some_iff.mp hstep
      refine ⟨?_, ?_, hinv.publish hstart hworker hpublish⟩
      · obtain ⟨event, rest, hid, -, rfl⟩ := StreamWorld.publish_cases hpublish
        obtain ⟨text, hcursor⟩ := hstart
        exact ⟨text, (hcursor.append hid).1⟩
      · obtain ⟨event, rest, hid, hpending, rfl⟩ := StreamWorld.publish_cases hpublish
        intro hterminal
        simp [hworker hterminal] at hpending
  | finalize now =>
      obtain ⟨world, hfinalize, rfl⟩ := Option.map_eq_some_iff.mp hstep
      refine ⟨?_, ?_, hinv.finalize hallowed hfinalize⟩ <;>
        obtain ⟨turn, hpending, -, -, rfl⟩ := StreamWorld.finalize_cases hfinalize
      · exact hstart
      · exact fun _ => hpending
  | read =>
      obtain ⟨⟨tail, event⟩, htail, rfl⟩ := Option.map_eq_some_iff.mp hstep
      exact ⟨hstart, hworker, hinv.read htail⟩

end Steps

/-! ### Runs -/

/-- A cursor a client may resume from: empty, or the id of an entry. -/
def ValidCursor (log : TurnLog) (cursor : String) (start : EntryId) : Prop :=
  (cursor = "" ∧ start = ⊥) ∨ (cursor = start.text ∧ ∃ event, (start, event) ∈ log.entries)

theorem EntryId.text_ne_empty (id : EntryId) : id.text ≠ "" := by
  intro htext
  have hparse := parse_text id
  rw [htext] at hparse
  revert hparse
  exact ne_of_beq_false rfl

/-- `tail` of a cursor in a world, before its first step. -/
def tailFrom (world : StreamWorld) (cursor : String) : StreamSystem Tail :=
  ⟨world, .start cursor, []⟩

theorem ValidCursor.cursorAt {log : TurnLog} {cursor : String} {start : EntryId}
    (h : ValidCursor log cursor start) :
    CursorAt log (if cursor = "" then "0" else cursor) start := by
  rcases h with ⟨rfl, rfl⟩ | ⟨rfl, hmem⟩
  · exact Or.inl ⟨rfl, rfl⟩
  · rw [if_neg start.text_ne_empty]
    exact Or.inr ⟨rfl, hmem⟩

theorem tailInv_start {world : StreamWorld} {cursor : String} {start : EntryId}
    (h : ValidCursor world.log cursor start) : TailInv start (tailFrom world cursor) :=
  ⟨[], start, h.cursorAt, rfl, rfl, by simp [NoTerminalEntry]⟩

theorem tailInv_reach {world : StreamWorld} {cursor : String} {start : EntryId}
    {system : StreamSystem Tail} (hworker : WorkerInv world)
    (hcursor : ValidCursor world.log cursor start)
    (hreach : Transition.Reach StreamSystem.tailStep (CommitOutsideWindow · ·)
      (tailFrom world cursor) system) :
    WorkerInv system.world ∧ TailInv start system :=
  (hreach.invariant
    (fun system => (∃ text, CursorAt system.world.log text start) ∧ WorkerInv system.world ∧
      TailInv start system)
    ⟨⟨_, hcursor.cursorAt⟩, hworker, tailInv_start hcursor⟩
    fun _ _ _ ⟨hstart, hworker, hinv⟩ hallowed hstep =>
      tailInv_step hstart hworker hinv hallowed hstep).2

/-- Wherever `tail` is, it has yielded the frames of the entries it has seen, and it has only returned
when there is nothing more to yield. -/
theorem TailInv.seen {start : EntryId} {system : StreamSystem Tail}
    (hinv : TailInv start system) :
    ∃ seen later, system.world.log.after start = seen ++ later ∧
      system.yields = seen.map Tail.frame ∧
      system.yields <+: upToTerminal (system.world.log.after start) ∧
      (system.reader = .returned →
        system.yields = upToTerminal (system.world.log.after start)) := by
  have hstill : ∀ {seen cursor id}, Progress start system.world.log system.yields seen cursor id →
      (system.reader = .returned → system.world.log.after id = []) →
      ∃ seen later, system.world.log.after start = seen ++ later ∧
        system.yields = seen.map Tail.frame ∧
        system.yields <+: upToTerminal (system.world.log.after start) ∧
        (system.reader = .returned →
          system.yields = upToTerminal (system.world.log.after start)) := by
    intro seen cursor id hprogress hreturned
    have hframes : upToTerminal (system.world.log.after start) =
        system.yields ++ upToTerminal (system.world.log.after id) := by
      rw [hprogress.split, upToTerminal_append hprogress.noTerminal, hprogress.yields_eq]
    refine ⟨seen, _, hprogress.split, hprogress.yields_eq, hframes ▸ List.prefix_append _ _,
      fun hreader => ?_⟩
    rw [hframes, hreturned hreader]
    simp [upToTerminal]
  unfold TailInv at hinv
  cases hreader : system.reader with
  | reading cursor =>
      obtain ⟨seen, id, hprogress⟩ := by simpa only [hreader] using hinv
      exact hreader ▸ hstill hprogress (by simp [hreader])
  | blocked cursor bound =>
      obtain ⟨seen, id, -, hprogress⟩ := by simpa only [hreader] using hinv
      exact hreader ▸ hstill hprogress (by simp [hreader])
  | checking cursor =>
      obtain ⟨seen, id, hprogress, -⟩ := by simpa only [hreader] using hinv
      exact hreader ▸ hstill hprogress (by simp [hreader])
  | yielding cursor entries =>
      obtain ⟨seen, id, hprogress, -⟩ := by simpa only [hreader] using hinv
      exact hreader ▸ hstill hprogress (by simp [hreader])
  | returned =>
      simp only [hreader] at hinv
      rcases hinv with ⟨seen, last, rest, hsplit, hseen, hlast, hyields⟩ |
        ⟨seen, cursor, id, hprogress, -, hempty⟩
      · have hframes : upToTerminal (system.world.log.after start) = system.yields := by
          rw [hsplit, upToTerminal_append hseen, upToTerminal_cons_of_isTerminal hlast, hyields]
        exact ⟨seen ++ [last], rest, by simp [hsplit], by simp [hyields],
          hframes ▸ List.prefix_refl _, fun _ => hframes.symm⟩
      · exact hreader ▸ hstill hprogress fun _ => hempty
  | raised => simp [hreader] at hinv

/-- A frame that was yielded is an entry's; after its id comes what follows it. -/
theorem resume_of_seen {start : EntryId} {log : TurnLog} {seen later : List (EntryId × ChatEvent)}
    {before rest : List ChatEvent} {frame : ChatEvent} (hsplit : log.after start = seen ++ later)
    (hseen : seen.map Tail.frame = before ++ frame :: rest) :
    ∃ entry ∈ log.entries, frame = Tail.frame entry ∧
      (log.after start).map Tail.frame = before ++ frame :: (log.after entry.1).map Tail.frame := by
  obtain ⟨earlier, tail, rfl, rfl, htail⟩ := List.map_eq_append_iff.mp hseen
  obtain ⟨entry, tail, rfl, rfl, -⟩ := List.map_eq_cons_iff.mp htail
  have hwhole : log.after start = earlier ++ entry :: (tail ++ later) := by simp [hsplit]
  have hmem : entry ∈ log.after start := by simp [hwhole]
  refine ⟨entry, (EventLog.mem_after.mp hmem).1, rfl, ?_⟩
  rw [EventLog.after_of_after_append hwhole, hwhole, List.map_append, List.map_cons]

/-! ### Nothing after the terminal frame -/

theorem NoneAfterTerminal.step {system next : StreamSystem Tail} {action : StreamSystem.Action}
    (h : NoneAfterTerminal system.world) (hstep : system.tailStep action = some next) :
    NoneAfterTerminal next.world := by
  cases action with
  | publish id =>
      obtain ⟨world, hpublish, rfl⟩ := Option.map_eq_some_iff.mp hstep
      obtain ⟨event, rest, hid, hpending, rfl⟩ := StreamWorld.publish_cases hpublish
      rw [NoneAfterTerminal, hpending] at h
      simpa [NoneAfterTerminal, EventLog.append] using h
  | finalize now =>
      obtain ⟨world, hfinalize, rfl⟩ := Option.map_eq_some_iff.mp hstep
      obtain ⟨turn, -, -, -, rfl⟩ := StreamWorld.finalize_cases hfinalize
      exact h
  | read =>
      obtain ⟨_, _, rfl⟩ := Option.map_eq_some_iff.mp hstep
      exact h

/-- Then the frames of a cursor are all of its entries. -/
theorem NoneAfterTerminal.upToTerminal {world : StreamWorld} (h : NoneAfterTerminal world)
    (start : EntryId) :
    CodexServer.upToTerminal (world.log.after start) = (world.log.after start).map Tail.frame := by
  refine upToTerminal_eq_map ((List.pairwise_append.mp h).1.sublist ?_)
  exact List.Sublist.map _ List.filter_sublist

/-! ### `tail` ends when the turn has -/

/-- Steps of `tail` alone lead to its end. -/
def Returns (system : StreamSystem Tail) : Prop :=
  ∃ steps final, Transition.run StreamSystem.tailStep system (List.replicate steps .read) =
    some final ∧ final.reader = .returned

theorem Returns.of_step {system : StreamSystem Tail} {tail : Tail} {event : Option ChatEvent}
    (hstep : system.reader.step system.world.log (some system.world.turn.status)
      = some (tail, event))
    (h : Returns { system with reader := tail, yields := system.yields ++ event.toList }) :
    Returns system := by
  obtain ⟨steps, final, hrun, hfinal⟩ := h
  refine ⟨steps + 1, final, ?_, hfinal⟩
  simp [List.replicate_succ, Transition.run, StreamSystem.tailStep, StreamSystem.step, hstep,
    ← hrun]

namespace Tail

variable {log : TurnLog} {status : TurnStatus} {cursor : String} {bound : ReadBound}
  {entry : EntryId × ChatEvent} {rest : List (EntryId × ChatEvent)}

theorem step_reading (h : readBound log cursor = some bound) :
    step log (some status) (reading cursor) = some (blocked cursor bound, none) := by
  simp [step, h]

theorem step_blocked_nil (h : bound.after log = []) :
    step log (some status) (blocked cursor bound) = some (checking cursor, none) := by
  simp [step, h]

theorem step_blocked_cons (h : bound.after log = entry :: rest) :
    step log (some status) (blocked cursor bound) =
      some (yielding cursor (entry :: rest.take 63), none) := by
  simp [step, h]

theorem step_checking_of_isTerminal (h : status.isTerminal = true) :
    step log (some status) (checking cursor) = some (returned, none) := by
  simp [step, h]

theorem step_yielding_nil :
    step log (some status) (yielding cursor []) = some (reading cursor, none) := rfl

theorem step_yielding_of_isTerminal (h : (frame entry).isTerminal = true) :
    step log (some status) (yielding cursor (entry :: rest)) =
      some (returned, some (frame entry)) := by
  simp [step, h]

theorem step_yielding (h : (frame entry).isTerminal = false) :
    step log (some status) (yielding cursor (entry :: rest)) =
      some (yielding entry.1.text rest, some (frame entry)) := by
  simp [step, h]

end Tail

/-- With the turn over, `tail` goes through the rest of the log and leaves. The induction is on the
length of this rest; from one entry to the next it goes at most once around its loop. -/
theorem returns_of_over {world : StreamWorld} (hover : world.turn.status.isTerminal = true)
    (count : Nat) : ∀ {id : EntryId}, (world.log.after id).length = count →
    (∀ cursor entries yields, CursorAt world.log cursor id → entries <+: world.log.after id →
      Returns ⟨world, .yielding cursor entries, yields⟩) ∧
    (∀ cursor yields, CursorAt world.log cursor id →
      Returns ⟨world, .blocked cursor (.exclusive id), yields⟩) := by
  induction count with
  | zero =>
      intro id hlength
      have hempty : world.log.after id = [] := List.eq_nil_of_length_eq_zero hlength
      have hblocked : ∀ cursor yields, CursorAt world.log cursor id →
          Returns ⟨world, .blocked cursor (.exclusive id), yields⟩ := by
        intro cursor yields hcursor
        refine .of_step (Tail.step_blocked_nil hempty) ?_
        refine .of_step (Tail.step_checking_of_isTerminal hover) ?_
        exact ⟨0, _, rfl, rfl⟩
      refine ⟨fun cursor entries yields hcursor hpre => ?_, hblocked⟩
      rw [hempty, List.prefix_nil] at hpre
      subst hpre
      refine .of_step Tail.step_yielding_nil ?_
      exact .of_step (Tail.step_reading hcursor.readBound) (hblocked cursor _ hcursor)
  | succ count ih =>
      intro id hlength
      have hentry : ∀ cursor entry rest yields, entry :: rest <+: world.log.after id →
          Returns ⟨world, .yielding cursor (entry :: rest), yields⟩ := by
        rintro cursor entry rest yields ⟨later, hlater⟩
        have hafter : world.log.after entry.1 = rest ++ later :=
          EventLog.after_of_after_cons hlater.symm
        have hmem : entry ∈ world.log.after id := by
          rw [← hlater]
          exact List.mem_cons_self
        have hshorter : (world.log.after entry.1).length = count := by
          rw [hafter]
          rw [← hlater] at hlength
          simpa using hlength
        cases hterminal : (Tail.frame entry).isTerminal with
        | true =>
            refine .of_step (Tail.step_yielding_of_isTerminal hterminal) ?_
            exact ⟨0, _, rfl, rfl⟩
        | false =>
            refine .of_step (Tail.step_yielding hterminal) ?_
            exact (ih hshorter).1 _ _ _ (Or.inr ⟨rfl, entry.2, (EventLog.mem_after.mp hmem).1⟩)
              (hafter ▸ List.prefix_append _ _)
      have hblocked : ∀ cursor yields, CursorAt world.log cursor id →
          Returns ⟨world, .blocked cursor (.exclusive id), yields⟩ := by
        intro cursor yields hcursor
        obtain ⟨entry, rest, hentries⟩ := List.exists_cons_of_length_eq_add_one hlength
        refine .of_step (Tail.step_blocked_cons hentries) ?_
        refine hentry cursor entry (rest.take 63) _ ?_
        rw [hentries]
        exact List.take_prefix 64 (entry :: rest)
      refine ⟨fun cursor entries yields hcursor hpre => ?_, hblocked⟩
      cases entries with
      | nil =>
          refine .of_step Tail.step_yielding_nil ?_
          exact .of_step (Tail.step_reading hcursor.readBound) (hblocked cursor _ hcursor)
      | cons entry rest => exact hentry cursor entry rest yields hpre

theorem TailInv.returns {start : EntryId} {system : StreamSystem Tail}
    (hinv : TailInv start system) (hover : system.world.turn.status.isTerminal = true) :
    Returns system := by
  obtain ⟨world, reader, yields⟩ := system
  cases reader with
  | reading cursor =>
      obtain ⟨seen, id, hprogress⟩ := hinv
      exact .of_step (Tail.step_reading hprogress.cursorAt.readBound)
        ((returns_of_over hover _ rfl).2 cursor _ hprogress.cursorAt)
  | blocked cursor bound =>
      obtain ⟨seen, id, rfl, hprogress⟩ := hinv
      exact (returns_of_over hover _ rfl).2 cursor _ hprogress.cursorAt
  | checking cursor =>
      exact .of_step (Tail.step_checking_of_isTerminal hover) ⟨0, _, rfl, rfl⟩
  | yielding cursor entries =>
      obtain ⟨seen, id, hprogress, hpre⟩ := hinv
      exact (returns_of_over hover _ rfl).1 cursor entries _ hprogress.cursorAt hpre
  | returned => exact ⟨0, _, rfl, rfl⟩
  | raised => exact hinv.elim

/-- **`tail` is complete and resumable.** When no frame follows a terminal one, and no outcome is
committed between an empty read and the row it is followed by, what `tail` has yielded is the frames
of its cursor from the first on, and all of them when it returns: no entry is left unread. From any
frame on, the last one too, it goes on as a `tail` resumed from that frame's id. Once the turn is over
it returns. -/
theorem tail_complete_resumable {world : StreamWorld} {cursor : String} {start : EntryId}
    {system : StreamSystem Tail} (hworker : WorkerInv world) (hlast : NoneAfterTerminal world)
    (hcursor : ValidCursor world.log cursor start)
    (hreach : Transition.Reach StreamSystem.tailStep (CommitOutsideWindow · ·)
      (tailFrom world cursor) system) :
    system.yields <+: upToTerminal (system.world.log.after start) ∧
    (system.reader = .returned →
      system.yields = upToTerminal (system.world.log.after start) ∧
      system.yields = (system.world.log.after start).map Tail.frame) ∧
    (∀ before frame rest, system.yields = before ++ frame :: rest →
      ∃ entry ∈ system.world.log.entries, frame = Tail.frame entry ∧
        ValidCursor system.world.log frame.eventId entry.1 ∧
        upToTerminal (system.world.log.after start) =
          before ++ frame :: upToTerminal (system.world.log.after entry.1)) ∧
    (system.world.turn.status.isTerminal = true → Returns system) := by
  obtain ⟨-, hinv⟩ := tailInv_reach hworker hcursor hreach
  obtain ⟨seen, later, hsplit, hyields, hpre, hreturned⟩ := hinv.seen
  have hwhole : NoneAfterTerminal system.world :=
    hreach.invariant (fun system => NoneAfterTerminal system.world) hlast fun _ _ _ h _ hstep =>
      h.step hstep
  refine ⟨hpre, fun hreader => ?_, fun before frame rest hframes => ?_, hinv.returns⟩
  · have hall := hreturned hreader
    exact ⟨hall, hall.trans (hwhole.upToTerminal start)⟩
  · obtain ⟨entry, hmem, rfl, hresume⟩ := resume_of_seen hsplit (hyields ▸ hframes)
    refine ⟨entry, hmem, rfl, Or.inr ⟨rfl, entry.2, hmem⟩, ?_⟩
    rw [hwhole.upToTerminal, hwhole.upToTerminal]
    exact hresume

/-- A running turn whose worker has a token and the done frame left to publish. -/
def twoFrameWorld : StreamWorld where
  log := .empty
  messages := fun _ => none
  turn := { TurnRow.starting 1 ⟨7, 1, 30, .admin⟩ 100 with status := .running }
  pending := [⟨.token "hi", ""⟩, ⟨.done 7 "hi" none false, ""⟩]
  outcome := (.completed, none, none)

def twoFrameSchedule : List StreamSystem.Action :=
  [.publish (toLex (1, 0)), .read, .read, .read, .publish (toLex (1, 1)), .finalize 103, .read,
    .read, .read, .read]

theorem tail_complete_resumable_two_frames : ∃ system,
    Transition.run StreamSystem.tailStep (tailFrom twoFrameWorld "") twoFrameSchedule
      = some system ∧ system.yields.length = 2 ∧
    system.yields = upToTerminal (system.world.log.after ⊥) := by
  have hallowed : Transition.RunAllowed StreamSystem.tailStep (CommitOutsideWindow · ·)
      (tailFrom twoFrameWorld "") twoFrameSchedule := by decide
  have hlast : NoneAfterTerminal twoFrameWorld := by
    simp [NoneAfterTerminal, twoFrameWorld, EventLog.empty, ChatEvent.isTerminal, ChatEvent.isDone,
      ChatEvent.isError]
  refine ⟨_, rfl, rfl, ((tail_complete_resumable ?_ hlast (Or.inl ⟨rfl, rfl⟩)
    (Transition.reach_of_run rfl hallowed)).2.1 rfl).1⟩
  simp [WorkerInv, twoFrameWorld, TurnStatus.isTerminal]

/-- Both the done frame and the outcome come between an empty read and the row. -/
def lateScheduleOfTwoFrames : List StreamSystem.Action :=
  [.publish (toLex (1, 0)), .read, .read, .read, .read, .read, .read, .publish (toLex (1, 1)),
    .finalize 103, .read]

/-- The done frame stays unread: `tail` returns without it. -/
theorem tail_not_complete : ∃ system,
    Transition.run StreamSystem.tailStep (tailFrom twoFrameWorld "") lateScheduleOfTwoFrames
      = some system ∧ system.reader = .returned ∧
    system.yields ≠ upToTerminal (system.world.log.after ⊥) := by
  refine ⟨_, rfl, rfl, ?_⟩
  decide

end CodexServer
