import CodexServer.TurnCreation
import CodexServer.Proof.TurnLifecycle

/-!
# All or nothing

A row belongs to the request that has stored the message it names. What a request has committed can
be told from where it stands; only in Telegram is there a place between the message and the row.
-/

open Versioned

namespace CodexServer.TurnCreation

open Transition (run RunAllowed)

variable {system next : System} {index : Nat} {request new : Request}

/-! ### Where a request stands -/

namespace Phase

/-- Whether the message and the entry are committed; `none` when a request has ended without its
turn. -/
def saved : Phase → Option Bool
  | checking | appending | webCreating _ | webEmitting _ _ | webCommitting _ _
  | telegramEmitting _ | telegramCommitting _ _ => some false
  | telegramCreating _ | turnCommitting _ | created => some true
  | answered | failed => none

/-- It has inserted the row, and has not committed it. -/
def writing : Phase → Bool
  | webEmitting _ _ | webCommitting _ _ | turnCommitting _ => true
  | _ => false

/-- What its transaction is to commit. -/
def message : Phase → Option UserMessage
  | webCreating message | webEmitting message _ | webCommitting message _
  | telegramEmitting message | telegramCommitting message _ => some message
  | _ => none

def entry : Phase → Option TurnStarted
  | webCommitting _ entry | telegramCommitting _ entry => some entry
  | _ => none

/-- The message it has stored. -/
def messageId : Phase → Option Nat
  | webCreating message | webEmitting message _ | webCommitting message _
  | telegramEmitting message | telegramCommitting message _ => some message.id
  | telegramCreating id | turnCommitting id => some id
  | checking | appending | created | answered | failed => none

end Phase

/-- The rows a request has in the tables. -/
def HasMessage (system : System) (index : Nat) : Prop :=
  ∃ message ∈ system.messages, message.request = index

def HasEntry (system : System) (index : Nat) : Prop :=
  ∃ entry ∈ system.journal, entry.request = index

def HasRow (system : System) (request : Request) : Prop :=
  ∃ turnId row, system.turns.committed turnId = some row ∧
    request.messageId = some row.userMessageId

/-- **All or nothing.** Whoever has ended has all three, or none. -/
def AllOrNothing (system : System) : Prop :=
  ∀ (index : Nat) (request : Request), system.requests[index]? = some request →
    request.phase.ended = true →
    (HasRow system request ∧ HasMessage system index ∧ HasEntry system index) ∨
      (¬HasRow system request ∧ ¬HasMessage system index ∧ ¬HasEntry system index)

/-! ### The invariant -/

structure RequestSound (system : System) (index : Nat) (request : Request) : Prop where
  message : ∀ {saved}, request.phase.saved = some saved →
    (HasMessage system index ↔ saved = true)
  entry : HasMessage system index ↔ HasEntry system index
  pending : (∀ message, request.phase.message = some message → message.request = index) ∧
    ∀ entry, request.phase.entry = some entry → entry.request = index
  created : request.phase = .created → HasRow system request
  writing : request.phase.writing = true → ∃ turnId draft,
    system.turns.draft turnId = some draft ∧ draft.owner = .request index ∧
      request.messageId = some draft.row.userMessageId
  messageId : ∀ {id}, request.phase.messageId = some id → request.messageId = some id
  below : ∀ {id}, request.messageId = some id → id < system.nextMessage

structure Sound (system : System) : Prop where
  fresh : Schema.Fresh system.turns
  /-- A committed row is that of a request that has created it. -/
  row : ∀ {turnId row}, system.turns.committed turnId = some row →
    ∃ (index : Nat) (request : Request), system.requests[index]? = some request ∧
      request.messageId = some row.userMessageId ∧ request.phase = .created
  /-- A row that is being written is a new one, or another session is at it. -/
  draft : ∀ {turnId draft}, system.turns.draft turnId = some draft →
    (∃ row id, system.turns.committed turnId = some row ∧ draft.owner = .other id ∧
      draft.row.userMessageId = row.userMessageId) ∨
    ∃ (index : Nat) (request : Request), system.turns.committed turnId = none ∧
      draft.owner = .request index ∧ system.requests[index]? = some request ∧
      request.messageId = some draft.row.userMessageId ∧ request.phase.writing = true
  requests : ∀ {index : Nat} {request}, system.requests[index]? = some request →
    RequestSound system index request
  distinct : ∀ {index other : Nat} {request found : Request} {id : Nat},
    system.requests[index]? = some request → system.requests[other]? = some found →
    request.messageId = some id → found.messageId = some id → index = other
  authors : (∀ message ∈ system.messages, message.request < system.requests.length) ∧
    ∀ entry ∈ system.journal, entry.request < system.requests.length

theorem sound_start : Sound {} where
  fresh _ _ := ⟨rfl, rfl⟩
  row h := by cases h
  draft h := by cases h
  requests h := by simp at h
  distinct h := by simp at h
  authors := ⟨(fun _ h => by cases h), (fun _ h => by cases h)⟩

/-- A row is there just if its request has created it. -/
theorem Sound.hasRow_iff (hsound : Sound system)
    (hrequest : system.requests[index]? = some request) :
    HasRow system request ↔ request.phase = .created := by
  constructor
  · rintro ⟨turnId, row, hrow, hid⟩
    obtain ⟨other, found, hfound, hfoundId, hcreated⟩ := hsound.row hrow
    obtain rfl := hsound.distinct hrequest hfound hid hfoundId
    cases hrequest.symm.trans hfound
    exact hcreated
  · exact (hsound.requests hrequest).created

/-- **All or nothing** is that nobody who ends without a turn has stored a message. -/
theorem Sound.allOrNothing_iff (hsound : Sound system) :
    AllOrNothing system ↔ ∀ {index : Nat} {request}, system.requests[index]? = some request →
      request.phase.ended = true → request.phase ≠ .created → ¬HasMessage system index := by
  constructor
  · intro hall index request hrequest hended hcreated
    rcases hall index request hrequest hended with ⟨hrow, _⟩ | ⟨_, hmessage, _⟩
    · exact absurd ((hsound.hasRow_iff hrequest).mp hrow) hcreated
    · exact hmessage
  · intro hnone index request hrequest hended
    have hentry := (hsound.requests hrequest).entry
    by_cases hcreated : request.phase = .created
    · have hmessage : HasMessage system index :=
        ((hsound.requests hrequest).message (by rw [hcreated]; rfl)).mpr rfl
      exact .inl ⟨(hsound.hasRow_iff hrequest).mpr hcreated, hmessage, hentry.mp hmessage⟩
    · have hmessage := hnone hrequest hended hcreated
      exact .inr ⟨fun hrow => hcreated ((hsound.hasRow_iff hrequest).mp hrow), hmessage,
        fun hhas => hmessage (hentry.mpr hhas)⟩

/-! ### A step of a request -/

/-- What a step of one request leaves alone. -/
structure Steps (system next : System) (index : Nat) (new : Request) : Prop where
  requests : next.requests = system.requests.set index new
  fresh : Schema.Fresh next.turns
  committed : next.turns.committed = system.turns.committed
  drafts : ∀ turnId draft, draft.owner ≠ .request index →
    (next.turns.draft turnId = some draft ↔ system.turns.draft turnId = some draft)
  draft : ∀ {turnId draft}, next.turns.draft turnId = some draft → draft.owner = .request index →
    system.turns.committed turnId = none ∧ new.messageId = some draft.row.userMessageId ∧
      new.phase.writing = true
  messages : next.messages = system.messages
  journal : next.journal = system.journal
  nextMessage : system.nextMessage ≤ next.nextMessage
  messageId : ∀ {id}, new.messageId = some id → ∀ {other : Nat} {found : Request}, other ≠ index →
    system.requests[other]? = some found → found.messageId ≠ some id

theorem Steps.others (h : Steps system next index new) {other : Nat} {found : Request}
    (hne : other ≠ index) (hfound : RequestSound system other found) :
    RequestSound next other found where
  message := by
    rw [HasMessage, h.messages]
    exact hfound.message
  entry := by
    rw [HasMessage, HasEntry, h.messages, h.journal]
    exact hfound.entry
  pending := hfound.pending
  created := by
    rw [HasRow, h.committed]
    exact hfound.created
  writing hwriting := by
    obtain ⟨turnId, draft, hdraft, howner, hid⟩ := hfound.writing hwriting
    refine ⟨turnId, draft, (h.drafts turnId draft ?_).mpr hdraft, howner, hid⟩
    rw [howner]
    exact fun heq => hne (Session.request.inj heq)
  messageId := hfound.messageId
  below hid := (hfound.below hid).trans_le h.nextMessage

theorem requests_set (hrequest : system.requests[index]? = some request) (new : Request)
    {other : Nat} {found : Request} (hfound : (system.requests.set index new)[other]? = some found) :
    (other = index ∧ found = new) ∨ (other ≠ index ∧ system.requests[other]? = some found) := by
  have hlt : index < system.requests.length := (List.getElem?_eq_some_iff.mp hrequest).1
  by_cases heq : other = index
  · subst heq
    rw [List.getElem?_set_self hlt] at hfound
    exact .inl ⟨rfl, (Option.some.inj hfound).symm⟩
  · rw [List.getElem?_set_ne (Ne.symm heq)] at hfound
    exact .inr ⟨heq, hfound⟩

theorem Sound.steps (hsound : Sound system) (hrequest : system.requests[index]? = some request)
    (hended : request.phase.ended = false) (h : Steps system next index new)
    (hnew : RequestSound next index new) : Sound next := by
  have hlt : index < system.requests.length := (List.getElem?_eq_some_iff.mp hrequest).1
  have hother : ∀ {other}, other ≠ index → next.requests[other]? = system.requests[other]? := by
    intro other hne
    rw [h.requests, List.getElem?_set_ne hne.symm]
  have hself : next.requests[index]? = some new := by
    rw [h.requests, List.getElem?_set_self hlt]
  refine ⟨h.fresh, ?row, ?draft, ?requests, ?distinct, ?authors⟩
  case row =>
    intro turnId row hrow
    rw [h.committed] at hrow
    obtain ⟨other, found, hfound, hid, hcreated⟩ := hsound.row hrow
    have hne : other ≠ index := by
      rintro rfl
      cases hrequest.symm.trans hfound
      rw [hcreated] at hended
      cases hended
    exact ⟨other, found, (hother hne).trans hfound, hid, hcreated⟩
  case draft =>
    intro turnId draft hdraft
    by_cases howner : draft.owner = .request index
    · obtain ⟨hnone, hid, hwriting⟩ := h.draft hdraft howner
      exact .inr ⟨index, new, by rw [h.committed, hnone], howner, hself, hid, hwriting⟩
    · rw [h.committed]
      rcases hsound.draft ((h.drafts turnId draft howner).mp hdraft) with hold |
        ⟨other, found, hnone, hfoundOwner, hfound, hrest⟩
      · exact .inl hold
      · have hne : other ≠ index := by
          rintro rfl
          exact howner hfoundOwner
        exact .inr ⟨other, found, hnone, hfoundOwner, (hother hne).trans hfound, hrest⟩
  case requests =>
    intro other found hfound
    rw [h.requests] at hfound
    rcases requests_set hrequest new hfound with ⟨rfl, rfl⟩ | ⟨hne, hfound⟩
    · exact hnew
    · exact h.others hne (hsound.requests hfound)
  case distinct =>
    intro one two first second id hfirst hsecond hone htwo
    rw [h.requests] at hfirst hsecond
    rcases requests_set hrequest new hfirst with ⟨hone', rfl⟩ | ⟨hne, hold⟩ <;>
      rcases requests_set hrequest _ hsecond with ⟨htwo', rfl⟩ | ⟨hne', hold'⟩
    · rw [hone', htwo']
    · exact absurd htwo (h.messageId hone hne' hold')
    · exact absurd hone (h.messageId htwo hne hold)
    · exact hsound.distinct hold hold' hone htwo
  case authors =>
    rw [h.messages, h.journal, h.requests, List.length_set]
    exact hsound.authors

/-- What belongs to a request is what its transaction is writing. -/
theorem Sound.mine (hsound : Sound system) (hrequest : system.requests[index]? = some request)
    {turnId : Nat} {draft : Draft Session TurnRow TurnEffect}
    (hdraft : system.turns.draft turnId = some draft) (howner : draft.owner = .request index) :
    system.turns.committed turnId = none ∧ request.messageId = some draft.row.userMessageId ∧
      request.phase.writing = true := by
  rcases hsound.draft hdraft with ⟨_, _, _, hother, _⟩ | ⟨other, found, hnone, hmine, hfound, hid, hw⟩
  · cases howner.symm.trans hother
  · cases howner.symm.trans hmine
    cases hrequest.symm.trans hfound
    exact ⟨hnone, hid, hw⟩

/-- A request goes on, and the tables stay as they are. -/
theorem Sound.setRequest (hsound : Sound system)
    (hrequest : system.requests[index]? = some request) (hended : request.phase.ended = false)
    (phase : Phase) (hwriting : phase.writing = request.phase.writing)
    (hsaved : phase.saved = request.phase.saved ∨ phase.saved = none)
    (hpending : (∀ message, phase.message = some message → message.request = index) ∧
      ∀ entry, phase.entry = some entry → entry.request = index)
    (hcreated : phase ≠ .created)
    (hid : ∀ {id}, phase.messageId = some id → request.phase.messageId = some id) :
    Sound (system.setRequest index { request with phase := phase }) := by
  have hmine := hsound.requests hrequest
  refine hsound.steps hrequest hended ⟨rfl, hsound.fresh, rfl, fun _ _ _ => Iff.rfl, ?_, rfl, rfl,
    le_rfl, ?_⟩ ⟨?_, hmine.entry, hpending, fun heq => absurd heq hcreated, ?_, ?_, hmine.below⟩
  · intro turnId draft hdraft howner
    rw [hwriting]
    exact hsound.mine hrequest hdraft howner
  · intro id hrequestId other found hne hfound hfoundId
    exact hne (hsound.distinct hfound hrequest hfoundId hrequestId)
  · intro saved hphase
    rcases hsaved with hsame | hnone
    · exact hmine.message (hsame.symm.trans hphase)
    · cases hnone.symm.trans hphase
  · intro htrue
    rw [hwriting] at htrue
    exact hmine.writing htrue
  · intro id hphase
    exact hmine.messageId (hid hphase)

theorem Sound.append (hsound : Sound system) (hrequest : system.requests[index]? = some request)
    (hphase : request.phase = .appending) : Sound (system.append index request) := by
  have hmine := hsound.requests hrequest
  have hnone : ∀ {turnId draft}, system.turns.draft turnId = some draft →
      draft.owner ≠ .request index := by
    intro turnId draft hdraft howner
    have hwriting := (hsound.mine hrequest hdraft howner).2.2
    rw [hphase] at hwriting
    cases hwriting
  have hsteps : ∀ phase : Phase, phase.writing = false → phase.saved = some false →
      phase ≠ .created → (∀ message, phase.message = some message → message.request = index) →
      phase.entry = none →
      (∀ {id}, phase.messageId = some id → id = system.nextMessage) →
      Sound { system.setRequest index { request with
        phase := phase, messageId := some system.nextMessage } with
        nextMessage := system.nextMessage + 1 } := by
    intro phase hwriting hsaved hcreated hmessage hentry hid
    refine hsound.steps hrequest (by rw [hphase]; rfl) ⟨rfl, hsound.fresh, rfl,
      fun _ _ _ => Iff.rfl, fun hdraft howner => absurd howner (hnone hdraft), rfl, rfl,
      Nat.le_succ _, ?_⟩ ⟨?_, hmine.entry, ⟨hmessage, fun _ heq => by cases hentry.symm.trans heq⟩,
      fun heq => absurd heq hcreated, ?_, ?_, ?_⟩
    · intro id hsome other found _ hfound hfoundId
      cases hsome
      exact absurd ((hsound.requests hfound).below hfoundId) (lt_irrefl _)
    · intro saved hsome
      cases hsaved.symm.trans hsome
      exact hmine.message (by rw [hphase]; rfl)
    · intro htrue
      cases hwriting.symm.trans htrue
    · intro id hsome
      rw [hid hsome]
    · intro id hsome
      cases hsome
      exact Nat.lt_succ_self _
  have hmessage : ∀ {id : Nat}, some system.nextMessage = some id → id = system.nextMessage :=
    fun h => (Option.some.inj h).symm
  unfold System.append
  simp only
  split
  case h_1 =>
      exact hsteps (.webCreating ⟨system.nextMessage, request.prepared.chatId,
        request.prepared.text, index⟩) rfl rfl (by simp) (fun _ h => by cases h; rfl) rfl hmessage
  case h_2 =>
      exact hsteps (.telegramEmitting ⟨system.nextMessage, request.prepared.chatId,
        request.prepared.text, index⟩) rfl rfl (by simp) (fun _ h => by cases h; rfl) rfl hmessage

/-- A request that loses what it has written. -/
theorem Sound.rollback (hsound : Sound system) (hrequest : system.requests[index]? = some request)
    (hended : request.phase.ended = false) {nextId : Nat} (hnext : system.turns.nextId ≤ nextId)
    {phase : Phase} (hphase : phase = .answered ∨ phase = .failed) :
    Sound { system.setRequest index { request with phase := phase } with
      turns := { system.turns.rollback (.request index) with nextId := nextId } } := by
  have hmine := hsound.requests hrequest
  have hrollback : ∀ turnId draft, (system.turns.rollback (.request index)).draft turnId =
      some draft ↔ system.turns.draft turnId = some draft ∧ draft.owner ≠ .request index := by
    intro turnId draft
    simp [Table.rollback, Option.filter_eq_some_iff]
  refine hsound.steps hrequest hended ⟨rfl,
    hsound.fresh.moves (show turns.Moves _ _ from .rollback (.request index) nextId hnext), rfl,
    fun turnId draft hne => (hrollback turnId draft).trans (and_iff_left hne), ?_, rfl, rfl, le_rfl,
    ?_⟩ ⟨?_, hmine.entry, ?_, ?_, ?_, ?_, hmine.below⟩
  · intro turnId draft hdraft howner
    exact absurd howner ((hrollback turnId draft).mp hdraft).2
  · intro id hrequestId other found hne hfound hfoundId
    exact hne (hsound.distinct hfound hrequest hfoundId hrequestId)
  all_goals rcases hphase with rfl | rfl
  all_goals simp [Phase.saved, Phase.writing, Phase.messageId, Phase.message, Phase.entry]

/-- The row of a request is inserted. -/
theorem Sound.insertRow (hsound : Sound system) (hrequest : system.requests[index]? = some request)
    (hended : request.phase.ended = false) {row : TurnRow} {effects : List TurnEffect}
    {phase : Phase} (hrow : request.messageId = some row.userMessageId)
    (hidle : request.phase.writing = false) (hwriting : phase.writing = true)
    (hsaved : phase.saved = request.phase.saved)
    (hmessage : ∀ message, phase.message = some message → request.phase.message = some message)
    (hentry : phase.entry = none)
    (hcreated : phase ≠ .created)
    (hkept : ∀ {id}, phase.messageId = some id → request.phase.messageId = some id) :
    Sound { system.setRequest index { request with phase := phase } with
      turns := { system.turns.write system.turns.nextId ⟨.request index, row, effects⟩ with
        nextId := system.turns.nextId + 1 } } := by
  have hmine := hsound.requests hrequest
  obtain ⟨hfree, hnew⟩ := hsound.fresh _ (le_refl system.turns.nextId)
  have hnone : ∀ {turnId draft}, system.turns.draft turnId = some draft →
      draft.owner ≠ .request index := by
    intro turnId draft hdraft howner
    cases hidle.symm.trans (hsound.mine hrequest hdraft howner).2.2
  refine hsound.steps hrequest hended ⟨rfl, ?_, rfl, ?_, ?_, rfl, rfl, le_rfl, ?_⟩
    ⟨?_, hmine.entry, ?_, fun heq => absurd heq hcreated, ?_, ?_, hmine.below⟩
  · exact hsound.fresh.write (Nat.lt_succ_self _) (Nat.le_succ _)
  · intro turnId draft hne
    by_cases heq : turnId = system.turns.nextId
    · subst heq
      constructor
      · intro hdraft
        rcases Table.draft_write_cases hdraft with ⟨_, rfl⟩ | ⟨hother, _⟩
        · exact absurd rfl hne
        · exact absurd rfl hother
      · intro hdraft
        cases hnew.symm.trans hdraft
    · simp [Table.write, heq]
  · intro turnId draft hdraft howner
    rcases Table.draft_write_cases hdraft with ⟨rfl, rfl⟩ | ⟨_, hold⟩
    · exact ⟨hfree, hrow, hwriting⟩
    · exact absurd howner (hnone hold)
  · intro id hrequestId other found hne hfound hfoundId
    exact hne (hsound.distinct hfound hrequest hfoundId hrequestId)
  · intro saved hphase
    exact hmine.message (hsaved.symm.trans hphase)
  · refine ⟨fun message heq => hmine.pending.1 message (hmessage message heq), fun entry heq => ?_⟩
    cases hentry.symm.trans heq
  · intro _
    exact ⟨_, _, Function.update_self .., rfl, hrow⟩
  · intro id hphase
    exact hmine.messageId (hkept hphase)

theorem Sound.create (hsound : Sound system) (hrequest : system.requests[index]? = some request)
    (hended : request.phase.ended = false) {messageId now : Nat} {created : TurnRow → Phase}
    (hid : request.phase.messageId = some messageId) (hidle : request.phase.writing = false)
    (hwriting : ∀ row, (created row).writing = true)
    (hsaved : ∀ row, (created row).saved = request.phase.saved)
    (hmessage : ∀ row message, (created row).message = some message →
      request.phase.message = some message)
    (hentry : ∀ row, (created row).entry = none)
    (hcreated : ∀ row, created row ≠ .created)
    (hkept : ∀ row, (created row).messageId = some messageId)
    (hnext : system.create index request messageId now created = some next) : Sound next := by
  have hmine := hsound.requests hrequest
  have hrequestId := hmine.messageId hid
  unfold System.create at hnext
  simp only at hnext
  split at hnext
  case h_3 => cases hnext
  case h_2 table hcreate =>
      cases hnext
      rcases (TurnService.tryCreateStarting_cases hcreate).2 with ⟨_, nextId, hle, rfl⟩ | ⟨hsome, _⟩
      · exact hsound.rollback hrequest hended hle (.inl rfl)
      · cases hsome
  case h_1 row table hcreate =>
      cases hnext
      rcases (TurnService.tryCreateStarting_cases hcreate).2 with ⟨hnone, _⟩ | ⟨hsome, rfl⟩
      · cases hnone
      · cases hsome
        exact hsound.insertRow hrequest hended hrequestId hidle (hwriting _) (hsaved _)
          (hmessage _) (hentry _) (hcreated _)
          fun h => (hkept _ ▸ h : some messageId = some _) ▸ hid

/-! ### A commit of a request -/

theorem commit_kept (hsound : Sound system) (hrequest : system.requests[index]? = some request)
    {turnId : Nat} {row : TurnRow} (hrow : system.turns.committed turnId = some row) :
    (system.turns.commit (.request index)).committed turnId = some row := by
  rcases system.turns.commit_at (.request index) turnId with ⟨draft, hdraft, howner, _⟩ |
    ⟨_, hsame, _⟩
  · cases hrow.symm.trans (hsound.mine hrequest hdraft howner).1
  · exact hsame.trans hrow

theorem Sound.commit_others (hsound : Sound system)
    (hrequest : system.requests[index]? = some request) {messages : List UserMessage}
    {journal : List TurnStarted} {phase : Phase} (hmessages : ∀ message ∈ messages,
      message.request = index) (hjournal : ∀ entry ∈ journal, entry.request = index) {other : Nat}
    {found : Request} (hne : other ≠ index) (hfound : RequestSound system other found) :
    RequestSound (system.commit index request messages journal phase) other found := by
  have hmessage : HasMessage (system.commit index request messages journal phase) other ↔
      HasMessage system other := by
    constructor
    · rintro ⟨message, hmem, hauthor⟩
      rcases List.mem_append.mp hmem with hmem | hmem
      · exact ⟨message, hmem, hauthor⟩
      · exact absurd (hauthor.symm.trans (hmessages message hmem)) hne
    · rintro ⟨message, hmem, hauthor⟩
      exact ⟨message, List.mem_append_left _ hmem, hauthor⟩
  have hentry : HasEntry (system.commit index request messages journal phase) other ↔
      HasEntry system other := by
    constructor
    · rintro ⟨entry, hmem, hauthor⟩
      rcases List.mem_append.mp hmem with hmem | hmem
      · exact ⟨entry, hmem, hauthor⟩
      · exact absurd (hauthor.symm.trans (hjournal entry hmem)) hne
    · rintro ⟨entry, hmem, hauthor⟩
      exact ⟨entry, List.mem_append_left _ hmem, hauthor⟩
  refine ⟨?_, ?_, hfound.pending, ?_, ?_, hfound.messageId, hfound.below⟩
  · rw [hmessage]
    exact hfound.message
  · rw [hmessage, hentry]
    exact hfound.entry
  · intro hcreated
    obtain ⟨turnId, row, hrow, hid⟩ := hfound.created hcreated
    exact ⟨turnId, row, commit_kept hsound hrequest hrow, hid⟩
  · intro hwriting
    obtain ⟨turnId, draft, hdraft, howner, hid⟩ := hfound.writing hwriting
    refine ⟨turnId, draft, (Table.commit_foreign hdraft ?_).2, howner, hid⟩
    rw [howner]
    exact fun heq => hne (Session.request.inj heq)

theorem Sound.commit (hsound : Sound system) (hrequest : system.requests[index]? = some request)
    (hended : request.phase.ended = false) {messages : List UserMessage}
    {journal : List TurnStarted} {phase : Phase} (hmessages : ∀ message ∈ messages,
      message.request = index) (hjournal : ∀ entry ∈ journal, entry.request = index)
    (hboth : messages = [] ↔ journal = [])
    (hsaved : request.phase.saved = some true ∨ messages ≠ []) (hphase : phase.saved = some true)
    (hcreated : request.phase.writing = true ↔ phase = .created) (hidle : phase.writing = false)
    (hkept : ∀ {id}, phase.messageId = some id → request.phase.messageId = some id) :
    Sound (system.commit index request messages journal phase) := by
  have hmine := hsound.requests hrequest
  have hlt : index < system.requests.length := (List.getElem?_eq_some_iff.mp hrequest).1
  have hself : (system.requests.set index { request with phase := phase })[index]? =
      some { request with phase := phase } := List.getElem?_set_self hlt
  have hother : ∀ {other}, other ≠ index → (system.requests.set index { request with
      phase := phase })[other]? = system.requests[other]? :=
    fun hne => List.getElem?_set_ne hne.symm
  have hmessage : HasMessage (system.commit index request messages journal phase) index := by
    rcases hsaved with hsaved | hsome
    · obtain ⟨message, hmem, hauthor⟩ := (hmine.message hsaved).mpr rfl
      exact ⟨message, List.mem_append_left _ hmem, hauthor⟩
    · obtain ⟨message, hmem⟩ := List.exists_mem_of_ne_nil _ hsome
      exact ⟨message, List.mem_append_right _ hmem, hmessages message hmem⟩
  have hentry : HasEntry (system.commit index request messages journal phase) index := by
    rcases hsaved with hsaved | hsome
    · obtain ⟨entry, hmem, hauthor⟩ := hmine.entry.mp ((hmine.message hsaved).mpr rfl)
      exact ⟨entry, List.mem_append_left _ hmem, hauthor⟩
    · obtain ⟨entry, hmem⟩ := List.exists_mem_of_ne_nil _ (fun hnil => hsome (hboth.mpr hnil))
      exact ⟨entry, List.mem_append_right _ hmem, hjournal entry hmem⟩
  refine ⟨hsound.fresh.moves (show turns.Moves _ _ from .commit (Session.request index)), ?row, ?draft,
    ?requests, ?distinct, ?authors⟩
  case row =>
    intro turnId row hrow
    rcases system.turns.commit_at (.request index) turnId with ⟨draft, hdraft, howner, hafter, _⟩ |
      ⟨_, hsame, _⟩
    · obtain ⟨_, hid, hwriting⟩ := hsound.mine hrequest hdraft howner
      cases hafter.symm.trans hrow
      exact ⟨index, _, hself, hid, hcreated.mp hwriting⟩
    · obtain ⟨other, found, hfound, hid, hdone⟩ := hsound.row (hsame.symm.trans hrow)
      have hne : other ≠ index := by
        rintro rfl
        cases hrequest.symm.trans hfound
        rw [hdone] at hended
        cases hended
      exact ⟨other, found, (hother hne).trans hfound, hid, hdone⟩
  case draft =>
    intro turnId draft hdraft
    obtain ⟨hdraft, hne⟩ := Table.draft_commit_cases hdraft
    simp only [System.commit, (Table.commit_foreign hdraft hne).1]
    rcases hsound.draft hdraft with hold | ⟨other, found, hnone, howner, hfound, hrest⟩
    · exact .inl hold
    · have hdifferent : other ≠ index := by
        rintro rfl
        exact hne howner
      exact .inr ⟨other, found, hnone, howner, (hother hdifferent).trans hfound, hrest⟩
  case requests =>
    intro other found hfound
    rcases requests_set hrequest _ hfound with ⟨rfl, rfl⟩ | ⟨hne, hfound⟩
    · refine ⟨?_, iff_of_true hmessage hentry, ?_, ?_, ?_, ?_, hmine.below⟩
      · intro saved hsome
        cases hphase.symm.trans hsome
        exact iff_of_true hmessage rfl
      · constructor
        · intro message hpending
          cases phase <;> simp_all [Phase.message, Phase.saved]
        · intro entry hpending
          cases phase <;> simp_all [Phase.entry, Phase.saved]
      · intro hdone
        obtain ⟨turnId, draft, hdraft, howner, hid⟩ := hmine.writing (hcreated.mpr hdone)
        refine ⟨turnId, draft.row, ?_, hid⟩
        simp [System.commit, Table.commit, hdraft, howner]
      · intro htrue
        cases hidle.symm.trans htrue
      · intro id hsome
        exact hmine.messageId (hkept hsome)
    · exact hsound.commit_others hrequest hmessages hjournal hne (hsound.requests hfound)
  case distinct =>
    intro one two first second id hfirst hsecond hone htwo
    have hbefore : ∀ {other : Nat} {found : Request}, (system.requests.set index { request with
        phase := phase })[other]? = some found → found.messageId = some id →
        ∃ before, system.requests[other]? = some before ∧ before.messageId = some id := by
      intro other found hfound hid
      rcases requests_set hrequest _ hfound with ⟨rfl, rfl⟩ | ⟨_, hfound⟩
      · exact ⟨request, hrequest, hid⟩
      · exact ⟨found, hfound, hid⟩
    obtain ⟨before, hbefore1, hid1⟩ := hbefore hfirst hone
    obtain ⟨after, hbefore2, hid2⟩ := hbefore hsecond htwo
    exact hsound.distinct hbefore1 hbefore2 hid1 hid2
  case authors =>
    simp only [System.commit, System.setRequest, List.length_set, List.mem_append]
    constructor
    · rintro message (hmem | hmem)
      · exact hsound.authors.1 message hmem
      · rw [hmessages message hmem]
        exact hlt
    · rintro entry (hmem | hmem)
      · exact hsound.authors.2 entry hmem
      · rw [hjournal entry hmem]
        exact hlt

theorem Sound.goOn (hsound : Sound system) (hrequest : system.requests[index]? = some request)
    {now : Nat} {proceeds : Bool} (hnext : system.goOn index request now proceeds = some next) :
    Sound next := by
  have hmine := hsound.requests hrequest
  cases hphase : request.phase with
  | checking =>
      simp only [System.goOn, hphase, Option.some.injEq] at hnext
      subst hnext
      cases proceeds <;>
        exact hsound.setRequest hrequest (by rw [hphase]; rfl) _ (by rw [hphase]; rfl)
          (by simp [hphase, Phase.saved]) (by simp [Phase.message, Phase.entry]) (by simp)
          (fun h => by cases h)
  | appending =>
      simp only [System.goOn, hphase, Option.some.injEq] at hnext
      subst hnext
      exact hsound.append hrequest hphase
  | webCreating message =>
      simp only [System.goOn, hphase] at hnext
      exact hsound.create hrequest (by rw [hphase]; rfl) (by rw [hphase]; rfl) (by rw [hphase]; rfl)
        (fun _ => rfl) (fun _ => by rw [hphase]; rfl) (fun _ _ h => by rw [hphase]; exact h)
        (fun _ => rfl) (fun _ => by simp) (fun _ => rfl) hnext
  | webEmitting message turnId =>
      simp only [System.goOn, hphase, Option.some.injEq] at hnext
      subst hnext
      refine hsound.setRequest hrequest (by rw [hphase]; rfl) _ (by rw [hphase]; rfl)
        (.inl (by rw [hphase]; rfl)) ⟨fun found h => ?_, fun _ h => ?_⟩ (by simp)
        (fun h => by rw [hphase]; exact h)
      · exact hmine.pending.1 found (by rw [hphase]; exact h)
      · cases h
        rfl
  | webCommitting message entry =>
      simp only [System.goOn, hphase, Option.some.injEq] at hnext
      subst hnext
      have hmessage := hmine.pending.1 message (by rw [hphase]; rfl)
      have hentry := hmine.pending.2 entry (by rw [hphase]; rfl)
      exact hsound.commit hrequest (by rw [hphase]; rfl) (by simpa using hmessage)
        (by simpa using hentry) (by simp) (.inr (by simp)) rfl (by simp [hphase, Phase.writing]) rfl
        (fun h => by cases h)
  | telegramEmitting message =>
      simp only [System.goOn, hphase, Option.some.injEq] at hnext
      subst hnext
      refine hsound.setRequest hrequest (by rw [hphase]; rfl) _ (by rw [hphase]; rfl)
        (.inl (by rw [hphase]; rfl)) ⟨fun found h => ?_, fun _ h => ?_⟩ (by simp)
        (fun h => by rw [hphase]; exact h)
      · exact hmine.pending.1 found (by rw [hphase]; exact h)
      · cases h
        rfl
  | telegramCommitting message entry =>
      simp only [System.goOn, hphase, Option.some.injEq] at hnext
      subst hnext
      have hmessage := hmine.pending.1 message (by rw [hphase]; rfl)
      have hentry := hmine.pending.2 entry (by rw [hphase]; rfl)
      exact hsound.commit hrequest (by rw [hphase]; rfl) (by simpa using hmessage)
        (by simpa using hentry) (by simp) (.inr (by simp)) rfl (by simp [hphase, Phase.writing]) rfl
        (fun h => by rw [hphase]; exact h)
  | telegramCreating messageId =>
      simp only [System.goOn, hphase] at hnext
      exact hsound.create hrequest (by rw [hphase]; rfl) (by rw [hphase]; rfl) (by rw [hphase]; rfl)
        (fun _ => rfl) (fun _ => by rw [hphase]; rfl) (fun _ _ h => by cases h) (fun _ => rfl)
        (fun _ => by simp) (fun _ => rfl) hnext
  | turnCommitting messageId =>
      simp only [System.goOn, hphase, Option.some.injEq] at hnext
      subst hnext
      exact hsound.commit hrequest (by rw [hphase]; rfl) (by simp) (by simp) (by simp)
        (.inl (by rw [hphase]; rfl)) rfl (by simp [hphase, Phase.writing]) rfl (fun h => by cases h)
  | created | answered | failed => simp [System.goOn, hphase] at hnext

/-! ### Other sessions -/

theorem apply_userMessageId {update : TurnUpdate} {row changed : TurnRow}
    (h : update.apply row = some changed) : changed.userMessageId = row.userMessageId := by
  cases update with
  | setStreamKey | attachAssistantMessage | updateLastEvent =>
      cases h
      rfl
  | markRunning =>
      simp only [TurnUpdate.apply, TurnRow.markRunning] at h
      split at h <;> cases h
      rfl
  | heartbeat =>
      simp only [TurnUpdate.apply, TurnRow.heartbeat] at h
      split at h <;> cases h
      rfl
  | finalizeOnce =>
      simp only [TurnUpdate.apply, TurnRow.finalizeOnce] at h
      split at h <;> cases h
      rfl

/-- Other sessions leave every row to the message it names, and what requests write alone. -/
theorem Sound.world (hsound : Sound system) {table : TurnTable Session} (id : Nat)
    (hmoves : turns.Moves system.turns table)
    (hrows : ∀ turnId, (table.committed turnId).map TurnRow.userMessageId =
      (system.turns.committed turnId).map TurnRow.userMessageId)
    (hothers : ∀ turnId draft, draft.owner ≠ .other id →
      (table.draft turnId = some draft ↔ system.turns.draft turnId = some draft))
    (hmine : ∀ turnId draft, table.draft turnId = some draft → draft.owner = .other id →
      ∃ row, system.turns.committed turnId = some row ∧
        draft.row.userMessageId = row.userMessageId) :
    Sound { system with turns := table } := by
  have hback : ∀ {turnId row}, table.committed turnId = some row →
      ∃ before, system.turns.committed turnId = some before ∧
        before.userMessageId = row.userMessageId := by
    intro turnId row hrow
    have hsame := hrows turnId
    rw [hrow] at hsame
    exact Option.map_eq_some_iff.mp hsame.symm
  have hon : ∀ {turnId row}, system.turns.committed turnId = some row →
      ∃ after, table.committed turnId = some after ∧ after.userMessageId = row.userMessageId := by
    intro turnId row hrow
    have hsame := hrows turnId
    rw [hrow] at hsame
    exact Option.map_eq_some_iff.mp hsame
  have hnone : ∀ {turnId}, system.turns.committed turnId = none → table.committed turnId = none := by
    intro turnId hempty
    have hsame := hrows turnId
    rw [hempty] at hsame
    exact Option.map_eq_none_iff.mp hsame
  refine ⟨hsound.fresh.moves hmoves, ?_, ?_, ?_, hsound.distinct, hsound.authors⟩
  · intro turnId row hrow
    obtain ⟨before, hbefore, hid⟩ := hback hrow
    rw [← hid]
    exact hsound.row hbefore
  · intro turnId draft hdraft
    by_cases howner : draft.owner = .other id
    · obtain ⟨row, hrow, hid⟩ := hmine turnId draft hdraft howner
      obtain ⟨after, hafter, hsame⟩ := hon hrow
      exact .inl ⟨after, id, hafter, howner, hid.trans hsame.symm⟩
    · rcases hsound.draft ((hothers turnId draft howner).mp hdraft) with
        ⟨row, other, hrow, hother, hid⟩ | ⟨index, request, hempty, hrest⟩
      · obtain ⟨after, hafter, hsame⟩ := hon hrow
        exact .inl ⟨after, other, hafter, hother, hid.trans hsame.symm⟩
      · exact .inr ⟨index, request, hnone hempty, hrest⟩
  · intro index request hrequest
    have hold := hsound.requests hrequest
    refine { hold with created := ?_, writing := ?_ }
    · intro hcreated
      obtain ⟨turnId, row, hrow, hid⟩ := hold.created hcreated
      obtain ⟨after, hafter, hsame⟩ := hon hrow
      exact ⟨turnId, after, hafter, by rw [hid, hsame]⟩
    · intro hwriting
      obtain ⟨turnId, draft, hdraft, howner, hid⟩ := hold.writing hwriting
      exact ⟨turnId, draft, (hothers turnId draft (by rw [howner]; simp)).mpr hdraft, howner, hid⟩

theorem Sound.statement (hsound : Sound system) {id turnId : Nat} {update : TurnUpdate}
    {changed : Bool} {table : TurnTable Session}
    (h : turns.execUpdate system.turns (.other id) turnId update = some (changed, table)) :
    Sound { system with turns := table } := by
  have hmoves := turns.execUpdate_moves h
  have hwrite : ∀ {row : TurnRow} {effects : List TurnEffect} {before : TurnRow},
      table = system.turns.write turnId ⟨.other id, row, effects⟩ →
      (∀ draft, system.turns.draft turnId = some draft → draft.owner = .other id) →
      system.turns.committed turnId = some before → row.userMessageId = before.userMessageId →
      Sound { system with turns := table } := by
    rintro row effects before rfl hfree hbefore hid
    refine hsound.world id hmoves (fun _ => rfl) ?_ ?_
    · intro other draft hne
      by_cases heq : other = turnId
      · subst heq
        constructor
        · intro hdraft
          rcases Table.draft_write_cases hdraft with ⟨_, rfl⟩ | ⟨hother, _⟩
          · exact absurd rfl hne
          · exact absurd rfl hother
        · intro hdraft
          exact absurd (hfree draft hdraft) hne
      · simp [Table.write, heq]
    · intro other draft hdraft howner
      rcases Table.draft_write_cases hdraft with ⟨rfl, rfl⟩ | ⟨_, hdraft⟩
      · exact ⟨before, hbefore, hid⟩
      · rcases hsound.draft hdraft with ⟨row, _, hrow, _, hsame⟩ | ⟨_, _, _, hrequest, _⟩
        · exact ⟨row, hrow, hsame⟩
        · cases howner.symm.trans hrequest
  rcases turns.execUpdate_cases h with ⟨_, rfl⟩ | ⟨draft, row, effect, _, hdraft, howner, hrow, htable⟩ |
    ⟨before, row, effect, _, hdraft, hbefore, hrow, htable⟩
  · exact hsound
  · obtain ⟨changed, happly, hpair⟩ := Option.map_eq_some_iff.mp hrow
    cases hpair
    rcases hsound.draft hdraft with ⟨before, _, hbefore, _, hid⟩ | ⟨_, _, _, hrequest, _⟩
    · refine hwrite htable (fun other hother => ?_) hbefore ((apply_userMessageId happly).trans hid)
      cases hdraft.symm.trans hother
      exact howner
    · cases howner.symm.trans hrequest
  · obtain ⟨changed, happly, hpair⟩ := Option.map_eq_some_iff.mp hrow
    cases hpair
    refine hwrite htable (fun other hother => ?_) hbefore (apply_userMessageId happly)
    cases hdraft.symm.trans hother

theorem Sound.commitOther (hsound : Sound system) (id : Nat) :
    Sound { system with turns := system.turns.commit (.other id) } := by
  refine hsound.world id (show turns.Moves _ _ from .commit (Session.other id)) ?_ ?_ ?_
  · intro turnId
    rcases system.turns.commit_at (.other id) turnId with ⟨draft, hdraft, howner, hafter, _⟩ |
      ⟨_, hsame, _⟩
    · rcases hsound.draft hdraft with ⟨row, _, hrow, _, hid⟩ | ⟨_, _, _, hrequest, _⟩
      · rw [hafter, hrow, Option.map_some, Option.map_some, hid]
      · cases howner.symm.trans hrequest
    · rw [hsame]
  · intro turnId draft hne
    exact ⟨fun hdraft => (Table.draft_commit_cases hdraft).1,
      fun hdraft => (Table.commit_foreign hdraft hne).2⟩
  · intro turnId draft hdraft howner
    exact absurd howner (Table.draft_commit_cases hdraft).2

theorem Sound.rollbackOther (hsound : Sound system) (id : Nat) :
    Sound { system with turns := system.turns.rollback (.other id) } := by
  refine hsound.world id (show turns.Moves _ _ from .rollback (Session.other id) _ le_rfl)
    (fun _ => rfl) ?_ ?_
  · intro turnId draft hne
    simp [Table.rollback, Option.filter_eq_some_iff, hne]
  · intro turnId draft hdraft howner
    exact absurd howner (Table.draft_rollback_cases hdraft).2

/-! ### Steps -/

theorem Sound.begin (hsound : Sound system) (surface : Surface) (prepared : Prepared) :
    Sound { system with
      requests := system.requests ++ [⟨surface, prepared, .checking, none⟩] } := by
  have hkeeps : ∀ {other : Nat} {found}, system.requests[other]? = some found →
      (system.requests ++ [⟨surface, prepared, .checking, none⟩])[other]? = some found := by
    intro other found hfound
    rw [List.getElem?_append_left (List.getElem?_eq_some_iff.mp hfound).1, hfound]
  have hcases : ∀ {other : Nat} {found},
      (system.requests ++ [⟨surface, prepared, .checking, none⟩])[other]? = some found →
      (system.requests.length ≤ other ∧ found = ⟨surface, prepared, .checking, none⟩) ∨
        system.requests[other]? = some found := by
    intro other found hfound
    rw [List.getElem?_append] at hfound
    split at hfound
    case isTrue => exact .inr hfound
    case isFalse hge =>
        exact .inl ⟨not_lt.mp hge, List.mem_singleton.mp (List.mem_of_getElem? hfound)⟩
  refine ⟨hsound.fresh, ?_, ?_, ?_, ?_, ?_⟩
  · intro turnId row hrow
    obtain ⟨index, request, hrequest, hrest⟩ := hsound.row hrow
    exact ⟨index, request, hkeeps hrequest, hrest⟩
  · intro turnId draft hdraft
    rcases hsound.draft hdraft with hold | ⟨index, request, hnone, howner, hrequest, hrest⟩
    · exact .inl hold
    · exact .inr ⟨index, request, hnone, howner, hkeeps hrequest, hrest⟩
  · intro index request hrequest
    rcases hcases hrequest with ⟨hge, rfl⟩ | hrequest
    · have hmessage : ¬HasMessage system index := by
        rintro ⟨message, hmem, hauthor⟩
        have hlt := hsound.authors.1 message hmem
        omega
      have hentry : ¬HasEntry system index := by
        rintro ⟨entry, hmem, hauthor⟩
        have hlt := hsound.authors.2 entry hmem
        omega
      refine ⟨?_, iff_of_false hmessage hentry, by simp [Phase.message, Phase.entry],
        (fun h => by cases h), (fun h => by cases h), (fun h => by cases h), (fun h => by cases h)⟩
      intro saved hsaved
      cases hsaved
      exact iff_of_false hmessage Bool.false_ne_true
    · exact { hsound.requests hrequest with }
  · intro one two first second id hfirst hsecond hone htwo
    rcases hcases hfirst with ⟨_, rfl⟩ | hfirst
    · cases hone
    · rcases hcases hsecond with ⟨_, rfl⟩ | hsecond
      · cases htwo
      · exact hsound.distinct hfirst hsecond hone htwo
  · rw [List.length_append]
    exact ⟨fun message hmem => Nat.lt_add_right _ (hsound.authors.1 message hmem),
      fun entry hmem => Nat.lt_add_right _ (hsound.authors.2 entry hmem)⟩

theorem Sound.raise (hsound : Sound system) (hrequest : system.requests[index]? = some request)
    (hended : request.phase.ended = false) : Sound (system.raise index request) :=
  hsound.rollback hrequest hended (le_refl system.turns.nextId) (.inr rfl)

theorem Sound.step {action : Action} (hsound : Sound system)
    (hstep : step system action = some next) : Sound next := by
  cases action with
  | request surface prepared =>
      cases hstep
      exact hsound.begin surface prepared
  | goOn index now proceeds =>
      obtain ⟨request, hrequest, hnext⟩ := Option.bind_eq_some_iff.mp hstep
      exact hsound.goOn hrequest hnext
  | raise index =>
      obtain ⟨request, hfound, rfl⟩ := Option.map_eq_some_iff.mp hstep
      obtain ⟨hrequest, hended⟩ := Option.filter_eq_some_iff.mp hfound
      exact hsound.raise hrequest (by simpa using hended)
  | statement id turnId update =>
      obtain ⟨⟨changed, table⟩, hexec, rfl⟩ := Option.map_eq_some_iff.mp hstep
      exact hsound.statement hexec
  | commit id =>
      cases hstep
      exact hsound.commitOther id
  | rollback id =>
      cases hstep
      exact hsound.rollbackOther id

/-! ### Every schedule -/

/-- The chat has an active turn, as the request's transaction sees it. -/
def fenced (system : System) (index chatId : Nat) : Bool :=
  (List.range system.turns.nextId).any fun turnId =>
    (system.turns.view (.request index) turnId).any fun row =>
      row.status.isActive && row.chatId = chatId

/-- A Telegram request that has its message stored finds no active turn, and nothing it awaits
raises before the row is committed. -/
def undivided (system : System) : Action → Bool
  | .goOn index _ _ => (system.requests[index]?).all fun request => match request.phase with
      | .telegramCreating _ => !fenced system index request.prepared.chatId
      | _ => true
  | .raise index => (system.requests[index]?).all fun request => match request.phase with
      | .telegramCreating _ | .turnCommitting _ => false
      | _ => true
  | .request _ _ | .statement _ _ _ | .commit _ | .rollback _ => true

/-- Who ends without a turn has stored nothing. -/
def Ends (system : System) (index : Nat) (request : Request) : Prop :=
  request.phase.ended = true → request.phase ≠ .created → ¬HasMessage system index

theorem Sound.ends_iff (hsound : Sound system) : AllOrNothing system ↔
    ∀ {index : Nat} {request}, system.requests[index]? = some request → Ends system index request :=
  hsound.allOrNothing_iff

/-- A step of one request is judged by that request. -/
theorem Sound.allOrNothing_set (hsound : Sound system) (hnext : Sound next)
    (hall : AllOrNothing system) (hrequest : system.requests[index]? = some request)
    (hrequests : next.requests = system.requests.set index new)
    (hothers : ∀ {other}, other ≠ index → HasMessage next other → HasMessage system other) :
    AllOrNothing next ↔ Ends next index new := by
  have hlt : index < system.requests.length := (List.getElem?_eq_some_iff.mp hrequest).1
  rw [hnext.ends_iff]
  constructor
  · intro hends
    exact hends (by rw [hrequests, List.getElem?_set_self hlt])
  · intro hself other found hfound
    rw [hrequests] at hfound
    rcases requests_set hrequest new hfound with ⟨rfl, rfl⟩ | ⟨hne, hfound⟩
    · exact hself
    · intro hended hcreated hmessage
      exact hsound.ends_iff.mp hall hfound hended hcreated (hothers hne hmessage)

theorem create_cases {messageId now : Nat} {created : TurnRow → Phase}
    (hnext : system.create index request messageId now created = some next) :
    ∃ phase, next.requests = system.requests.set index { request with phase := phase } ∧
      next.messages = system.messages ∧
      ((fenced system index request.prepared.chatId = true ∧ phase = .answered) ∨
        (fenced system index request.prepared.chatId = false ∧ ∃ row, phase = created row)) := by
  unfold System.create at hnext
  simp only at hnext
  split at hnext
  case h_3 => cases hnext
  case h_2 table hcreate =>
      cases hnext
      exact ⟨_, rfl, rfl, .inl ⟨(TurnService.tryCreateStarting_cases hcreate).1, rfl⟩⟩
  case h_1 row table hcreate =>
      cases hnext
      exact ⟨_, rfl, rfl, .inr ⟨(TurnService.tryCreateStarting_cases hcreate).1, row, rfl⟩⟩

theorem allOrNothing_goOn (hsound : Sound system) (hall : AllOrNothing system)
    (hrequest : system.requests[index]? = some request) {now : Nat} {proceeds : Bool}
    (hgoOn : system.goOn index request now proceeds = some next) :
    AllOrNothing next ↔ undivided system (.goOn index now proceeds) = true := by
  have hnext := hsound.goOn hrequest hgoOn
  have hmine := hsound.requests hrequest
  have hunsaved : request.phase.saved = some false → ¬HasMessage system index := fun hsaved hmessage =>
    Bool.false_ne_true ((hmine.message hsaved).mp hmessage)
  -- The messages are those of before, or with the one of this request.
  have hjudge : ∀ {new : Request}, next.requests = system.requests.set index new →
      next.messages = system.messages → (AllOrNothing next ↔ Ends next index new) :=
    fun hrequests hmessages => hsound.allOrNothing_set hnext hall hrequest hrequests
      fun _ hmessage => by rwa [HasMessage, hmessages] at hmessage
  have hopen : ∀ {new : Request}, next.requests = system.requests.set index new →
      (∀ {other}, other ≠ index → HasMessage next other → HasMessage system other) →
      (new.phase.ended = false ∨ new.phase = .created) → AllOrNothing next := by
    intro new hrequests hothers hphase
    refine (hsound.allOrNothing_set hnext hall hrequest hrequests hothers).mpr ?_
    intro hended hcreated
    rcases hphase with hopen | hdone
    · cases hopen.symm.trans hended
    · exact absurd hdone hcreated
  have hadded : ∀ {messages : List UserMessage} {journal : List TurnStarted} {phase : Phase},
      (∀ message ∈ messages, message.request = index) → ∀ {other}, other ≠ index →
      HasMessage (system.commit index request messages journal phase) other →
      HasMessage system other := by
    rintro messages journal phase hmessages other hne ⟨message, hmem, hauthor⟩
    rcases List.mem_append.mp hmem with hmem | hmem
    · exact ⟨message, hmem, hauthor⟩
    · exact absurd (hauthor.symm.trans (hmessages message hmem)) hne
  cases hphase : request.phase with
  | checking =>
      simp only [System.goOn, hphase, Option.some.injEq] at hgoOn
      subst hgoOn
      refine iff_of_true ((hjudge rfl rfl).mpr fun _ _ => hunsaved (by rw [hphase]; rfl)) ?_
      simp [undivided, hrequest, hphase]
  | appending =>
      simp only [System.goOn, hphase, Option.some.injEq] at hgoOn
      subst hgoOn
      refine iff_of_true (hopen rfl (fun _ h => h) (.inl ?_)) (by simp [undivided, hrequest, hphase])
      cases request.surface <;> rfl
  | webCreating message =>
      simp only [System.goOn, hphase] at hgoOn
      refine iff_of_true ?_ (by simp [undivided, hrequest, hphase])
      obtain ⟨phase, hrequests, hmessages, _⟩ := create_cases hgoOn
      refine (hjudge hrequests hmessages).mpr fun _ _ => ?_
      rw [HasMessage, hmessages]
      exact hunsaved (by rw [hphase]; rfl)
  | webEmitting message turnId =>
      simp only [System.goOn, hphase, Option.some.injEq] at hgoOn
      subst hgoOn
      exact iff_of_true (hopen rfl (fun _ h => h) (.inl rfl)) (by simp [undivided, hrequest, hphase])
  | webCommitting message entry =>
      simp only [System.goOn, hphase, Option.some.injEq] at hgoOn
      subst hgoOn
      have hmessage := hmine.pending.1 message (by rw [hphase]; rfl)
      exact iff_of_true (hopen rfl (fun hne => hadded (by simpa using hmessage) hne) (.inr rfl))
        (by simp [undivided, hrequest, hphase])
  | telegramEmitting message =>
      simp only [System.goOn, hphase, Option.some.injEq] at hgoOn
      subst hgoOn
      exact iff_of_true (hopen rfl (fun _ h => h) (.inl rfl)) (by simp [undivided, hrequest, hphase])
  | telegramCommitting message entry =>
      simp only [System.goOn, hphase, Option.some.injEq] at hgoOn
      subst hgoOn
      have hmessage := hmine.pending.1 message (by rw [hphase]; rfl)
      exact iff_of_true (hopen rfl (fun hne => hadded (by simpa using hmessage) hne) (.inl rfl))
        (by simp [undivided, hrequest, hphase])
  | telegramCreating messageId =>
      simp only [System.goOn, hphase] at hgoOn
      obtain ⟨phase, hrequests, hmessages, ⟨hfenced, rfl⟩ | ⟨hfenced, row, rfl⟩⟩ := create_cases hgoOn
      · refine iff_of_false (fun honce => ?_) (by simp [undivided, hrequest, hphase, hfenced])
        have hhas := (hmine.message (by rw [hphase]; rfl)).mpr rfl
        refine (hjudge hrequests hmessages).mp honce rfl (by simp) ?_
        rwa [HasMessage, hmessages]
      · exact iff_of_true ((hjudge hrequests hmessages).mpr fun h => by cases h)
          (by simp [undivided, hrequest, hphase, hfenced])
  | turnCommitting messageId =>
      simp only [System.goOn, hphase, Option.some.injEq] at hgoOn
      subst hgoOn
      exact iff_of_true (hopen rfl (fun hne => hadded (by simp) hne) (.inr rfl))
        (by simp [undivided, hrequest, hphase])
  | created | answered | failed => simp [System.goOn, hphase] at hgoOn

theorem undivided_raise (hrequest : system.requests[index]? = some request)
    (hopen : request.phase.ended = false) : ∃ saved, request.phase.saved = some saved ∧
      undivided system (.raise index) = !saved := by
  simp only [undivided, hrequest, Option.all_some]
  cases hphase : request.phase with
  | created | answered | failed =>
      rw [hphase] at hopen
      cases hopen
  | _ => exact ⟨_, rfl, rfl⟩

theorem allOrNothing_step {action : Action} (hsound : Sound system) (hall : AllOrNothing system)
    (hstep : step system action = some next) :
    AllOrNothing next ↔ undivided system action = true := by
  have hnext := hsound.step hstep
  cases action with
  | request surface prepared =>
      cases hstep
      refine iff_of_true (hnext.ends_iff.mpr ?_) rfl
      intro index request hrequest hended
      rw [List.getElem?_append] at hrequest
      split at hrequest
      case isTrue => exact hsound.ends_iff.mp hall hrequest hended
      case isFalse =>
          obtain rfl := List.mem_singleton.mp (List.mem_of_getElem? hrequest)
          cases hended
  | goOn index now proceeds =>
      obtain ⟨request, hrequest, hgoOn⟩ := Option.bind_eq_some_iff.mp hstep
      exact allOrNothing_goOn hsound hall hrequest hgoOn
  | raise index =>
      obtain ⟨request, hfound, rfl⟩ := Option.map_eq_some_iff.mp hstep
      obtain ⟨hrequest, hopen⟩ := Option.filter_eq_some_iff.mp hfound
      have hmine := hsound.requests hrequest
      rw [hsound.allOrNothing_set hnext hall hrequest rfl fun _ hmessage => hmessage]
      have hends : Ends (system.raise index request) index { request with phase := .failed } ↔
          ¬HasMessage system index :=
        ⟨fun h => h rfl (by simp), fun h _ _ => h⟩
      obtain ⟨saved, hsaved, hundivided⟩ := undivided_raise hrequest (by simpa using hopen)
      rw [hends, hundivided, hmine.message hsaved]
      simp
  | statement id turnId update =>
      obtain ⟨result, _, rfl⟩ := Option.map_eq_some_iff.mp hstep
      refine iff_of_true (hnext.ends_iff.mpr ?_) rfl
      exact hsound.ends_iff.mp hall
  | commit id =>
      cases hstep
      exact iff_of_true (hnext.ends_iff.mpr (hsound.ends_iff.mp hall)) rfl
  | rollback id =>
      cases hstep
      exact iff_of_true (hnext.ends_iff.mpr (hsound.ends_iff.mp hall)) rfl

/-- **Turn creation is all or nothing**, in every state of a run, just if no Telegram request is
stopped between its two transactions, by an active turn or by an exception. -/
theorem turn_created_whole {actions : List Action} {system : System}
    (hrun : run step {} actions = some system) :
    (∀ done middle, done <+: actions → run step {} done = some middle → AllOrNothing middle) ↔
      RunAllowed step (fun system action => undivided system action = true) {} actions := by
  have hstart : AllOrNothing {} := by
    intro index request h
    cases h
  refine Transition.runAllowed_iff hstart ?_ hrun
  intro done before action after hdone hbefore hstep
  have hsound : Sound before :=
    (Transition.reach_of_run_all hdone).invariant Sound sound_start
      fun _ _ _ hinv _ hnext => hinv.step hnext
  exact allOrNothing_step hsound hbefore hstep

def telegramPrepared : Prepared := ⟨7, 1, .guest, "hello", 0, 0⟩

/-- A web turn is created and finalised, then a Telegram turn is. -/
def creationRun : List Action :=
  [.request .web ⟨7, 1, .guest, "hi", 0, 0⟩, .goOn 0 1 true, .goOn 0 1 true, .goOn 0 1 true,
    .goOn 0 1 true, .goOn 0 1 true, .statement 0 1 (.finalizeOnce .completed none none 2),
    .commit 0, .request .telegram telegramPrepared, .goOn 1 3 true, .goOn 1 3 true, .goOn 1 3 true,
    .goOn 1 3 true, .goOn 1 3 true, .goOn 1 3 true]

theorem turn_created_whole_executed :
    ∃ system, run step {} creationRun = some system ∧
      ((∀ done middle, done <+: creationRun → run step {} done = some middle →
          AllOrNothing middle) ↔
        RunAllowed step (fun system action => undivided system action = true) {} creationRun) := by
  have hdefined : (run step {} creationRun).isSome = true := by decide +kernel
  obtain ⟨system, hrun⟩ := Option.isSome_iff_exists.mp hdefined
  exact ⟨system, hrun, turn_created_whole hrun⟩

/-- Two Telegram requests on one chat: the second has stored its message when it finds the turn of
the first, and leaves it without a turn. -/
theorem message_without_turn :
    (run step {} [.request .telegram telegramPrepared, .request .telegram telegramPrepared,
      .goOn 0 1 true, .goOn 1 1 true, .goOn 0 1 true, .goOn 0 1 true, .goOn 0 1 true, .goOn 1 1 true,
      .goOn 1 1 true, .goOn 1 1 true, .goOn 0 1 true, .goOn 0 1 true, .goOn 1 1 true]).any
        (fun system => system.requests.map Request.phase = [.created, .answered] &&
          system.messages.map UserMessage.request = [0, 1] &&
          system.journal.map TurnStarted.request = [0, 1] &&
          (system.turns.committed 1).map TurnRow.userMessageId = some 1 &&
          (system.turns.committed 2).isNone) = true := by
  decide +kernel

end CodexServer.TurnCreation
