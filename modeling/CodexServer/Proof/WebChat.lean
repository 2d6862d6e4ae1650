import CodexServer.WebChat
import CodexServer.Library.Transition

/-!
# The views of two chats do not mix

As long as no chat is selected over an await after which nothing looks at the selected chat, every
flow either belongs to the selected chat or finds out that it does not. The list may be of another
chat only while the one of the selected chat is on its way.
-/

open Transition (run reach_of_run Reach RunAllowed)

namespace CodexServer.WebChat

variable {draws : Nat → Option Nat} {page next : Page} {selected resumeAbort : Option Nat}
  {activeTurnId generation nextFlow id : Nat} {flows : Nat → Option Flow} {flow old new : Flow}

/-! ### What belongs to a chat -/

/-- The chat that a client id is used in; a uuid is drawn for one. -/
def ClientId.chatId (draws : Nat → Option Nat) : ClientId → Option Nat
  | resume chatId _ => some chatId
  | uuid value => draws value

/-- The client id of a row is not one of another chat. -/
def Row.Formed (draws : Nat → Option Nat) (row : Row) : Prop :=
  ∀ chatId, row.chatId = some chatId → ∀ clientId, row.clientId = some clientId →
    clientId.chatId draws = some chatId ∨ clientId.chatId draws = none

/-- A row of the selected chat. -/
def Row.Fits (draws : Nat → Option Nat) (selected : Option Nat) (row : Row) : Prop :=
  row.Formed draws ∧ ∀ chatId, selected = some chatId → row.chatId = some chatId

theorem Row.Fits.setText {row : Row} (h : row.Fits draws selected) (text : Text) :
    { row with text := text }.Fits draws selected := h

/-- The rows are all of the selected chat. -/
def Fresh (selected : Option Nat) (rows : List Row) : Prop :=
  ∀ chatId, selected = some chatId → ∀ row ∈ rows, row.chatId = some chatId

def Phase.Drains : Phase → Prop
  | draining .. | drained .. => True
  | awaiting | ticking => False

def Phase.message : Phase → Option Row
  | draining _ message | drained _ message => message
  | awaiting | ticking => none

/-- The message of a done frame that a flow holds. -/
def Flow.message : Flow → Option Row
  | resume flow => flow.phase.message
  | send flow => flow.phase.message
  | _ => none

/-- After its await the flow does not look at the selected chat. -/
def Flow.Blind : Flow → Prop
  | listing .. | older .. | steering .. | interrupting .. => True
  | resume flow => flow.phase.Drains
  | send flow => flow.phase.Drains
  | stopping _ | typing .. => False

def Send.Ok (draws : Nat → Option Nat) (selected : Option Nat) (activeTurnId : Nat)
    (flow : Send) : Prop :=
  flow.clientId.chatId draws = flow.chatAtSend ∧ flow.turnId ≤ activeTurnId ∧
    (flow.turnId = activeTurnId → flow.chatAtSend = selected)

/-- A flow that is blind belongs to the selected chat, and so does the current turn. -/
structure Flow.Ok (draws : Nat → Option Nat) (selected : Option Nat) (activeTurnId generation : Nat)
    (flow : Flow) : Prop where
  blind : flow.Blind → flow.chatId = selected
  resume : ∀ tail, flow = .resume tail → tail.clientId.chatId draws = some tail.chatId
  send : ∀ turn, flow = .send turn → turn.Ok draws selected activeTurnId
  caller : ∀ chatId turn, flow = .listing chatId (some turn) → turn.Ok draws selected activeTurnId
  typing : ∀ started chatId, flow = .typing started chatId →
    started ≤ generation ∧ (started = generation → chatId = selected)
  message : ∀ row, flow.message = some row → row.Fits draws flow.chatId

/-- The flows are in order, and one tail is open at most. -/
structure Base (draws : Nat → Option Nat) (selected : Option Nat) (activeTurnId : Nat)
    (resumeAbort : Option Nat) (generation nextFlow : Nat) (flows : Nat → Option Flow) : Prop where
  ok : ∀ {id flow}, flows id = some flow → flow.Ok draws selected activeTurnId generation
  unused : ∀ {id}, nextFlow ≤ id → flows id = none
  tails : ∀ {id tail}, flows id = some (.resume tail) → tail.aborted = false →
    resumeAbort = some id

/-- The open tail is that of the selected chat, unless its list is on its way. -/
def Opened (selected : Option Nat) (flows : Nat → Option Flow) : Prop :=
  ∀ id tail, flows id = some (.resume tail) → tail.aborted = false →
    some tail.chatId = selected ∨ ∃ other chatId caller, flows other = some (.listing chatId caller)

abbrev Page.Base (draws : Nat → Option Nat) (page : Page) : Prop :=
  WebChat.Base draws page.selected page.activeTurnId page.resumeAbort page.typer.generation
    page.nextFlow page.flows

theorem flows_setFlow (page : Page) (id : Nat) (flow : Option Flow) :
    (page.setFlow id flow).flows = Function.update page.flows id flow := rfl

theorem Base.lt (h : Base draws selected activeTurnId resumeAbort generation nextFlow flows)
    (hflow : flows id = some flow) : id < nextFlow := by
  by_contra hle
  rw [h.unused (Nat.le_of_not_lt hle)] at hflow
  cases hflow

/-! ### Changing a flow -/

/-- What a flow may become without a word to the others. -/
structure Flow.Leads (draws : Nat → Option Nat) (selected : Option Nat)
    (activeTurnId generation : Nat) (old new : Flow) : Prop where
  ok : new.Ok draws selected activeTurnId generation
  resume : ∀ tail, new = .resume tail → tail.aborted = false →
    ∃ before, old = .resume before ∧ before.aborted = false ∧ before.chatId = tail.chatId
  listing : ∀ chatId caller, old = .listing chatId caller → new = old

theorem Base.replace (h : Base draws selected activeTurnId resumeAbort generation nextFlow flows)
    (hold : flows id = some old)
    (hnew : Flow.Leads draws selected activeTurnId generation old new) :
    Base draws selected activeTurnId resumeAbort generation nextFlow
      (Function.update flows id (some new)) := by
  constructor
  · intro other flow hother
    by_cases hsame : other = id
    · subst hsame
      rw [Function.update_self] at hother
      exact Option.some.inj hother ▸ hnew.ok
    · rw [Function.update_of_ne hsame] at hother
      exact h.ok hother
  · intro other hle
    have hne : other ≠ id := fun hsame => absurd (h.lt hold) (by omega)
    rw [Function.update_of_ne hne]
    exact h.unused hle
  · intro other tail hother haborted
    by_cases hsame : other = id
    · subst hsame
      rw [Function.update_self] at hother
      obtain ⟨before, rfl, hbefore, -⟩ := hnew.resume tail (Option.some.inj hother) haborted
      exact h.tails hold hbefore
    · rw [Function.update_of_ne hsame] at hother
      exact h.tails hother haborted

/-- A list that was on its way still is. -/
theorem Flow.Leads.listing_kept (hold : flows id = some old)
    (hnew : Flow.Leads draws selected activeTurnId generation old new)
    (hlisting : ∃ other chatId caller, flows other = some (.listing chatId caller)) :
    ∃ other chatId caller,
      Function.update flows id (some new) other = some (.listing chatId caller) := by
  obtain ⟨other, chatId, caller, hother⟩ := hlisting
  refine ⟨other, chatId, caller, ?_⟩
  by_cases hsame : other = id
  · subst hsame
    rw [Function.update_self, hnew.listing chatId caller (Option.some.inj (hold.symm.trans hother))]
    exact hold.symm.trans hother
  · rw [Function.update_of_ne hsame]
    exact hother

theorem Opened.replace (h : Opened selected flows) (hold : flows id = some old)
    (hnew : Flow.Leads draws selected activeTurnId generation old new) :
    Opened selected (Function.update flows id (some new)) := by
  intro other tail hother haborted
  by_cases hsame : other = id
  · subst hsame
    rw [Function.update_self] at hother
    obtain ⟨before, rfl, hbefore, hchat⟩ := hnew.resume tail (Option.some.inj hother) haborted
    exact (h other before hold hbefore).imp (fun hselected => hchat ▸ hselected)
      (hnew.listing_kept hold)
  · rw [Function.update_of_ne hsame] at hother
    exact (h other tail hother haborted).imp_right (hnew.listing_kept hold)

theorem of_update_none {other : Nat} (hother : Function.update flows id none other = some flow) :
    other ≠ id ∧ flows other = some flow := by
  by_cases hsame : other = id
  · rw [hsame, Function.update_self] at hother
    cases hother
  · rw [Function.update_of_ne hsame] at hother
    exact ⟨hsame, hother⟩

theorem Base.remove (h : Base draws selected activeTurnId resumeAbort generation nextFlow flows)
    (id : Nat) : Base draws selected activeTurnId resumeAbort generation nextFlow
      (Function.update flows id none) := by
  refine ⟨fun hother => h.ok (of_update_none hother).2, fun {other} hle => ?_,
    fun hother haborted => h.tails (of_update_none hother).2 haborted⟩
  by_cases hsame : other = id
  · rw [hsame, Function.update_self]
  · rw [Function.update_of_ne hsame]
    exact h.unused hle

/-- A list that does not come must not have been waited for. -/
theorem Opened.remove (h : Opened selected flows)
    (hlisting : (∃ chatId caller, flows id = some (.listing chatId caller)) →
      ∀ other tail, flows other = some (.resume tail) → tail.aborted = false →
        some tail.chatId = selected) : Opened selected (Function.update flows id none) := by
  intro other tail hother haborted
  have hbefore := (of_update_none hother).2
  rcases h other tail hbefore haborted with hselected | ⟨list, chatId, caller, hlist⟩
  · exact .inl hselected
  · by_cases hsame : list = id
    · subst hsame
      exact .inl (hlisting ⟨chatId, caller, hlist⟩ other tail hbefore haborted)
    · exact .inr ⟨list, chatId, caller, by rwa [Function.update_of_ne hsame]⟩

theorem of_update_some {other : Nat}
    (hother : Function.update flows id (some new) other = some flow) :
    (other = id ∧ flow = new) ∨ (other ≠ id ∧ flows other = some flow) := by
  by_cases hsame : other = id
  · rw [hsame, Function.update_self] at hother
    exact .inl ⟨hsame, (Option.some.inj hother).symm⟩
  · rw [Function.update_of_ne hsame] at hother
    exact .inr ⟨hsame, hother⟩

/-- A flow begins. -/
theorem Base.spawn (h : Base draws selected activeTurnId resumeAbort generation nextFlow flows)
    (hnew : new.Ok draws selected activeTurnId generation)
    (hresume : ∀ tail, new = .resume tail → tail.aborted = false → resumeAbort = some nextFlow) :
    Base draws selected activeTurnId resumeAbort generation (nextFlow + 1)
      (Function.update flows nextFlow (some new)) := by
  constructor
  · intro other flow hother
    rcases of_update_some hother with ⟨-, rfl⟩ | ⟨-, hbefore⟩
    · exact hnew
    · exact h.ok hbefore
  · intro other hle
    rw [Function.update_of_ne (by omega)]
    exact h.unused (by omega)
  · intro other tail hother haborted
    rcases of_update_some hother with ⟨rfl, hsame⟩ | ⟨-, hbefore⟩
    · exact hresume tail hsame.symm haborted
    · exact h.tails hbefore haborted

theorem Opened.spawn (h : Opened selected flows) (hunused : flows id = none)
    (hresume : ∀ tail, new = .resume tail → some tail.chatId = selected) :
    Opened selected (Function.update flows id (some new)) := by
  intro other tail hother haborted
  rcases of_update_some hother with ⟨rfl, hsame⟩ | ⟨-, hbefore⟩
  · exact .inl (hresume tail hsame.symm)
  · rcases h other tail hbefore haborted with hselected | ⟨list, chatId, caller, hlist⟩
    · exact .inl hselected
    · have hne : list ≠ id := by
        rintro rfl
        rw [hunused] at hlist
        cases hlist
      exact .inr ⟨list, chatId, caller, by rwa [Function.update_of_ne hne]⟩

/-! ### Resolving and aborting -/

theorem Phase.drains_resolve {phase : Phase} : phase.resolve.Drains ↔ phase.Drains := by
  cases phase <;> exact Iff.rfl

theorem Flow.blind_resolve : flow.resolve.Blind ↔ flow.Blind := by
  cases flow with
  | resume tail => exact Phase.drains_resolve
  | send turn => exact Phase.drains_resolve
  | _ => exact Iff.rfl

theorem Flow.chatId_resolve : flow.resolve.chatId = flow.chatId := by
  cases flow <;> rfl

theorem Flow.message_resolve : flow.resolve.message = flow.message := by
  have hphase : ∀ phase : Phase, phase.resolve.message = phase.message := by
    intro phase
    cases phase <;> rfl
  cases flow with
  | resume tail => exact hphase tail.phase
  | send turn => exact hphase turn.phase
  | _ => rfl

theorem Flow.resolve_resolve : flow.resolve.resolve = flow.resolve := by
  have hphase : ∀ phase : Phase, phase.resolve.resolve = phase.resolve := by
    intro phase
    cases phase <;> rfl
  cases flow with
  | resume tail => simp only [Flow.resolve, hphase]
  | send turn => simp only [Flow.resolve, hphase]
  | _ => rfl

theorem Flow.Ok.resolve (h : flow.Ok draws selected activeTurnId generation) :
    flow.resolve.Ok draws selected activeTurnId generation := by
  refine ⟨fun hblind => ?_, ?_, ?_, ?_, ?_, ?_⟩
  · rw [Flow.chatId_resolve]
    exact h.blind (Flow.blind_resolve.mp hblind)
  · intro tail htail
    cases flow <;> cases htail
    rename_i before
    exact h.resume before rfl
  · intro turn hturn
    cases flow <;> cases hturn
    rename_i before
    exact h.send before rfl
  · intro chatId turn hturn
    cases flow <;> cases hturn
    exact h.caller _ _ rfl
  · intro started chatId hstarted
    cases flow <;> cases hstarted
    exact h.typing _ _ rfl
  · rw [Flow.message_resolve, Flow.chatId_resolve]
    exact h.message

theorem Flow.Ok.leads_resolve (h : flow.Ok draws selected activeTurnId generation) :
    Flow.Leads draws selected activeTurnId generation flow flow.resolve := by
  refine ⟨h.resolve, ?_, ?_⟩
  · intro tail htail haborted
    cases flow <;> cases htail
    exact ⟨_, rfl, haborted, rfl⟩
  · rintro chatId caller rfl
    rfl

theorem Flow.Ok.leads_abort (h : flow.Ok draws selected activeTurnId generation) :
    Flow.Leads draws selected activeTurnId generation flow flow.abort := by
  refine ⟨⟨?_, ?_, ?_, ?_, ?_, ?_⟩, ?_, ?_⟩
  · intro hblind
    cases flow <;> exact h.blind hblind
  · intro tail htail
    cases flow <;> cases htail
    rename_i before
    exact h.resume before rfl
  · intro turn hturn
    cases flow <;> cases hturn
    exact h.send _ rfl
  · intro chatId turn hturn
    cases flow <;> cases hturn
    exact h.caller _ _ rfl
  · intro started chatId hstarted
    cases flow <;> cases hstarted
    exact h.typing _ _ rfl
  · cases flow <;> exact h.message
  · intro tail htail haborted
    cases flow <;> cases htail
    cases haborted
  · rintro chatId caller rfl
    rfl

theorem update_map_kept {change : Flow → Flow} {other : Nat} (hflow : flows other = some flow) :
    Function.update flows id ((flows id).map change) other = some flow ∨
      Function.update flows id ((flows id).map change) other = some (change flow) := by
  by_cases hsame : other = id
  · subst hsame
    exact .inr (by rw [Function.update_self, hflow, Option.map_some])
  · exact .inl (by rwa [Function.update_of_ne hsame])

theorem update_map_known {change : Flow → Flow} {other : Nat}
    (hflow : Function.update flows id ((flows id).map change) other = some flow) :
    ∃ old, flows other = some old ∧ (flow = old ∨ flow = change old) := by
  by_cases hsame : other = id
  · subst hsame
    rw [Function.update_self] at hflow
    obtain ⟨old, hold, hchanged⟩ := Option.map_eq_some_iff.mp hflow
    exact ⟨old, hold, .inr hchanged.symm⟩
  · rw [Function.update_of_ne hsame] at hflow
    exact ⟨flow, hflow, .inl rfl⟩

theorem Base.map (h : Base draws selected activeTurnId resumeAbort generation nextFlow flows)
    {change : Flow → Flow} (hchange : ∀ {flow : Flow},
      flow.Ok draws selected activeTurnId generation →
        Flow.Leads draws selected activeTurnId generation flow (change flow)) (id : Nat) :
    Base draws selected activeTurnId resumeAbort generation nextFlow
      (Function.update flows id ((flows id).map change)) := by
  cases hflow : flows id with
  | none =>
      have hsame : Function.update flows id (Option.map change none) = flows := by
        rw [Option.map_none, ← hflow, Function.update_eq_self]
      rwa [hsame]
  | some flow => exact h.replace hflow (hchange (h.ok hflow))

theorem Opened.map (h : Opened selected flows)
    (hbase : Base draws selected activeTurnId resumeAbort generation nextFlow flows)
    {change : Flow → Flow} (hchange : ∀ {flow : Flow},
      flow.Ok draws selected activeTurnId generation →
        Flow.Leads draws selected activeTurnId generation flow (change flow)) (id : Nat) :
    Opened selected (Function.update flows id ((flows id).map change)) := by
  cases hflow : flows id with
  | none =>
      have hsame : Function.update flows id (Option.map change none) = flows := by
        rw [Option.map_none, ← hflow, Function.update_eq_self]
      rwa [hsame]
  | some flow => exact h.replace hflow (hchange (hbase.ok hflow))

/-- What the abort leaves: no tail is open. -/
structure Closed (draws : Nat → Option Nat) (page : Page) (flows : Nat → Option Flow) : Prop where
  eq : page.abortResume = { page with flows := flows, resumeAbort := none }
  base : ∀ resumeAbort, Base draws page.selected page.activeTurnId resumeAbort
    page.typer.generation page.nextFlow flows
  closed : ∀ {id tail}, flows id = some (.resume tail) → tail.aborted = true
  kept : ∀ {id flow}, page.flows id = some flow → flows id = some flow ∨ flows id = some flow.abort
  known : ∀ {id flow}, flows id = some flow →
    ∃ old, page.flows id = some old ∧ (flow = old ∨ flow = old.abort)

theorem Page.Base.abortResume (h : page.Base draws) : ∃ flows, Closed draws page flows := by
  have hany : ∀ {flows : Nat → Option Flow}, WebChat.Base draws page.selected page.activeTurnId
      page.resumeAbort page.typer.generation page.nextFlow flows →
      (∀ {id tail}, flows id = some (.resume tail) → tail.aborted = true) →
      ∀ resumeAbort, WebChat.Base draws page.selected page.activeTurnId resumeAbort
        page.typer.generation page.nextFlow flows := by
    intro flows hbase hall resumeAbort
    refine ⟨hbase.ok, hbase.unused, fun htail haborted => ?_⟩
    rw [hall htail] at haborted
    cases haborted
  cases hid : page.resumeAbort with
  | none =>
      have hall : ∀ {id tail}, page.flows id = some (.resume tail) → tail.aborted = true := by
        intro id tail htail
        by_contra haborted
        have hsome := h.tails htail (Bool.eq_false_iff.mpr haborted)
        rw [hid] at hsome
        cases hsome
      refine ⟨page.flows, ?_, hany h hall, hall, fun hflow => .inl hflow,
        fun hflow => ⟨_, hflow, .inl rfl⟩⟩
      have hsame : page = { page with resumeAbort := none } := by
        rw [← hid]
      unfold Page.abortResume
      rw [hid]
      exact hsame
  | some id =>
      have hmapped : WebChat.Base draws page.selected page.activeTurnId page.resumeAbort
          page.typer.generation page.nextFlow
          (Function.update page.flows id ((page.flows id).map Flow.abort)) :=
        Base.map h (fun hok => hok.leads_abort) id
      have hall : ∀ {other tail}, Function.update page.flows id ((page.flows id).map Flow.abort)
          other = some (.resume tail) → tail.aborted = true := by
        intro other tail htail
        by_contra haborted
        have hopen := hmapped.tails htail (Bool.eq_false_iff.mpr haborted)
        obtain rfl := Option.some.inj (hid.symm.trans hopen)
        rw [Function.update_self] at htail
        obtain ⟨flow, -, hflow⟩ := Option.map_eq_some_iff.mp htail
        cases flow <;> cases hflow
        exact haborted rfl
      refine ⟨_, ?_, hany hmapped hall, hall, fun hflow => update_map_kept hflow,
        fun hflow => update_map_known hflow⟩
      unfold Page.abortResume
      rw [hid]

/-! ### The typewriter -/

/-- A change that no flow hears of, but for a promise that is resolved. -/
structure Steady (draws : Nat → Option Nat) (before after : Page) : Prop where
  base : before.Base draws → after.Base draws
  opened : before.Base draws → Opened before.selected before.flows →
    Opened after.selected after.flows
  selected : after.selected = before.selected
  activeTurnId : after.activeTurnId = before.activeTurnId
  resumeAbort : after.resumeAbort = before.resumeAbort
  kept : before.Base draws → ∀ {id flow}, before.flows id = some flow →
    after.flows id = some flow ∨ after.flows id = some flow.resolve
  known : ∀ {id flow}, after.flows id = some flow →
    (∃ started chatId, flow = .typing started chatId) ∨
      ∃ old, before.flows id = some old ∧ (flow = old ∨ flow = old.resolve)

/-- What the typewriter does to the rest of the page. -/
structure Types (draws : Nat → Option Nat) (before after : Page) : Prop
    extends Steady draws before after where
  messages : after.messages = before.messages
  streaming : after.streamingClientId = before.streamingClientId
  drafts : after.liveDrafts = before.liveDrafts

variable {before middle after : Page}

theorem Steady.of_same (hselected : after.selected = before.selected)
    (hactive : after.activeTurnId = before.activeTurnId)
    (hresume : after.resumeAbort = before.resumeAbort)
    (hgeneration : after.typer.generation = before.typer.generation)
    (hnext : after.nextFlow = before.nextFlow) (hflows : after.flows = before.flows) :
    Steady draws before after where
  base := fun h => by
    rw [Page.Base, hselected, hactive, hresume, hgeneration, hnext, hflows]
    exact h
  opened := fun _ h => by
    rw [hselected, hflows]
    exact h
  selected := hselected
  activeTurnId := hactive
  resumeAbort := hresume
  kept := fun _ _ _ hflow => .inl (hflows ▸ hflow)
  known := fun hflow => .inr ⟨_, hflows ▸ hflow, .inl rfl⟩

theorem Types.refl (draws : Nat → Option Nat) (page : Page) : Types draws page page :=
  ⟨.of_same rfl rfl rfl rfl rfl rfl, rfl, rfl, rfl⟩

theorem Steady.trans (h : Steady draws before middle) (hlater : Steady draws middle after) :
    Steady draws before after where
  base := hlater.base ∘ h.base
  opened := fun hbase hopened => hlater.opened (h.base hbase) (h.opened hbase hopened)
  selected := hlater.selected.trans h.selected
  activeTurnId := hlater.activeTurnId.trans h.activeTurnId
  resumeAbort := hlater.resumeAbort.trans h.resumeAbort
  kept := by
    intro hbase id flow hflow
    rcases h.kept hbase hflow with hsame | hresolved
    · exact hlater.kept (h.base hbase) hsame
    · rcases hlater.kept (h.base hbase) hresolved with hsame | hagain
      · exact .inr hsame
      · exact .inr (hagain.trans (congrArg some Flow.resolve_resolve))
  known := by
    intro id flow hflow
    rcases hlater.known hflow with htyping | ⟨old, hold, hsame⟩
    · exact .inl htyping
    · rcases h.known hold with ⟨started, chatId, rfl⟩ | ⟨first, hfirst, hbecame⟩
      · rcases hsame with rfl | rfl <;> exact .inl ⟨started, chatId, rfl⟩
      · refine .inr ⟨first, hfirst, ?_⟩
        rcases hsame with rfl | rfl <;> rcases hbecame with rfl | rfl
        · exact .inl rfl
        · exact .inr rfl
        · exact .inr rfl
        · exact .inr Flow.resolve_resolve

theorem Types.trans (h : Types draws before middle) (hlater : Types draws middle after) :
    Types draws before after :=
  ⟨h.toSteady.trans hlater.toSteady, hlater.messages.trans h.messages,
    hlater.streaming.trans h.streaming, hlater.drafts.trans h.drafts⟩

/-- A flow that waits for no promise stays as it is. -/
theorem Steady.lookup (h : Steady draws before after) (hbase : before.Base draws)
    (hflow : before.flows id = some flow) (hresolve : flow.resolve = flow) :
    after.flows id = some flow := by
  rcases h.kept hbase hflow with hsame | hresolved
  · exact hsame
  · rw [hresolved, hresolve]

theorem Base.later {later : Nat}
    (h : Base draws selected activeTurnId resumeAbort generation nextFlow flows)
    (hle : generation ≤ later) :
    Base draws selected activeTurnId resumeAbort later nextFlow flows := by
  rcases Nat.eq_or_lt_of_le hle with rfl | hlt
  · exact h
  refine ⟨fun hflow => ?_, h.unused, h.tails⟩
  have hok := h.ok hflow
  refine ⟨hok.blind, hok.resume, hok.send, hok.caller, fun started chatId hstarted => ?_,
    hok.message⟩
  have hbefore := (hok.typing started chatId hstarted).1
  exact ⟨by omega, by omega⟩

/-- A change of the typewriter that no flow hears of. -/
theorem types_setTyper (page : Page) (typer : Typewriter)
    (hle : page.typer.generation ≤ typer.generation) :
    Types draws page (page.setTyper typer) :=
  ⟨⟨fun h => Base.later h hle, fun _ h => h, rfl, rfl, rfl, fun _ _ _ hflow => .inl hflow,
    fun hflow => .inr ⟨_, hflow, .inl rfl⟩⟩, rfl, rfl, rfl⟩

theorem types_resolveDone (page : Page) : Types draws page page.resolveDone := by
  unfold Page.resolveDone
  split
  · exact Types.refl draws page
  · next id hid =>
      exact ⟨⟨fun h => Base.map h (fun hok => hok.leads_resolve) id,
        fun h hopened => hopened.map h (fun hok => hok.leads_resolve) id, rfl, rfl, rfl,
        fun _ _ _ hflow => update_map_kept hflow, fun hflow => .inr (update_map_known hflow)⟩,
        rfl, rfl, rfl⟩

theorem types_typerReset (page : Page) : Types draws page page.typerReset :=
  (types_setTyper page _ (Nat.le_succ _)).trans (types_resolveDone _)

theorem types_typerFlush (page : Page) : Types draws page page.typerFlush := by
  unfold Page.typerFlush
  split
  · exact Types.refl draws page
  · exact (types_setTyper page page.typer.flushed le_rfl).trans (types_resolveDone _)

theorem Typewriter.generation_typeFirst (typer : Typewriter) :
    typer.typeFirst.generation = typer.generation := by
  unfold Typewriter.typeFirst
  split <;> rfl

/-- A loop begins under the chat that is selected. -/
theorem types_spawn_typing (page : Page) (hgeneration : generation = page.typer.generation) :
    Types draws page (page.spawn (.typing generation page.selected)) := by
  have hok : (Flow.typing generation page.selected).Ok draws page.selected page.activeTurnId
      page.typer.generation := by
    constructor
    · exact False.elim
    · rintro tail ⟨⟩
    · rintro turn ⟨⟩
    · rintro chatId turn ⟨⟩
    · rintro started chatId ⟨⟩
      exact ⟨hgeneration.le, fun _ => rfl⟩
    · rintro row ⟨⟩
  have hspawn (h : page.Base draws) :
      (page.spawn (.typing generation page.selected)).Base draws := by
    refine Base.spawn h hok ?_
    rintro tail ⟨⟩
  have hopened (h : page.Base draws) (hbefore : Opened page.selected page.flows) :
      Opened page.selected (page.spawn (.typing generation page.selected)).flows := by
    refine hbefore.spawn (h.unused le_rfl) ?_
    rintro tail ⟨⟩
  refine ⟨⟨hspawn, hopened, rfl, rfl, rfl, fun h id flow hflow => ?_, fun {id flow} hflow => ?_⟩,
    rfl, rfl, rfl⟩
  · have hne : id ≠ page.nextFlow := (Base.lt h hflow).ne
    exact .inl ((Function.update_of_ne hne _ _).trans hflow)
  · by_cases hsame : id = page.nextFlow
    · have hspawned : some (Flow.typing generation page.selected) = some flow := by
        rw [← hflow, hsame]
        exact (Function.update_self page.nextFlow _ page.flows).symm
      exact .inl ⟨_, _, (Option.some.inj hspawned).symm⟩
    · have hbefore : page.flows id = some flow := by
        rw [← hflow]
        exact (Function.update_of_ne hsame _ page.flows).symm
      exact .inr ⟨flow, hbefore, .inl rfl⟩

theorem types_typerPush (page : Page) (delta : Text) : Types draws page (page.typerPush delta) := by
  unfold Page.typerPush
  split
  · exact Types.refl draws page
  · dsimp only
    split
    · exact types_setTyper page _ le_rfl
    · have hsame := Typewriter.generation_typeFirst
        { page.typer with buffer := page.typer.buffer ++ delta, typing := true }
      exact (types_setTyper page _ hsame.ge).trans (types_spawn_typing _ hsame.symm)

/-! ### The invariant -/

structure LiveDraft.Ok (draws : Nat → Option Nat) (chatId : Nat) (draft : LiveDraft) : Prop where
  clientId : draft.clientId.chatId draws = some chatId
  rows : ∀ row ∈ draft.messages, row.Fits draws (some chatId)

def DraftsOk (draws : Nat → Option Nat) (liveDrafts : Nat → Option LiveDraft) : Prop :=
  ∀ chatId draft, liveDrafts chatId = some draft → draft.Ok draws chatId

/-- The list is of the selected chat. -/
structure Kept (draws : Nat → Option Nat) (page : Page) : Prop where
  base : page.Base draws
  opened : Opened page.selected page.flows
  rows : ∀ row ∈ page.messages, row.Fits draws page.selected
  drafts : DraftsOk draws page.liveDrafts
  streaming : ∀ {clientId}, page.streamingClientId = some clientId →
    clientId.chatId draws = page.selected

/-- The flow does nothing to a list that is not of its chat. -/
def Flow.Idle (selected : Option Nat) (activeTurnId : Nat) : Flow → Prop
  | listing _ none | older .. | stopping _ | typing .. => True
  | listing _ (some turn) => turn.turnId ≠ activeTurnId
  | steering .. | interrupting .. => False
  | resume tail => ¬tail.phase.Drains ∧ (tail.aborted = false → some tail.chatId ≠ selected)
  | send turn => ¬turn.phase.Drains ∧ turn.turnId ≠ activeTurnId

/-- The list of the selected chat is on its way. -/
structure Stale (draws : Nat → Option Nat) (page : Page) : Prop where
  base : page.Base draws
  opened : Opened page.selected page.flows
  formed : ∀ row ∈ page.messages, row.Formed draws
  drafts : DraftsOk draws page.liveDrafts
  streaming : page.streamingClientId = none
  listing : ∃ id chatId caller, page.flows id = some (.listing chatId caller)
  idle : ∀ {id flow}, page.flows id = some flow → flow.Idle page.selected page.activeTurnId

def Inv (draws : Nat → Option Nat) (page : Page) : Prop := Kept draws page ∨ Stale draws page

theorem Kept.steady (h : Kept draws before) (hsteady : Steady draws before after)
    (hrows : ∀ row ∈ after.messages, row.Fits draws before.selected)
    (hdrafts : DraftsOk draws after.liveDrafts)
    (hstreaming : ∀ {clientId}, after.streamingClientId = some clientId →
      clientId.chatId draws = before.selected) : Kept draws after :=
  ⟨hsteady.base h.base, hsteady.opened h.base h.opened, hsteady.selected ▸ hrows, hdrafts,
    fun hclient => hsteady.selected ▸ hstreaming hclient⟩

theorem Kept.types (h : Kept draws before) (htypes : Types draws before after) :
    Kept draws after := by
  refine h.steady htypes.toSteady ?_ ?_ ?_
  · rw [htypes.messages]
    exact h.rows
  · rw [htypes.drafts]
    exact h.drafts
  · rw [htypes.streaming]
    exact h.streaming

theorem Flow.Idle.resolve (h : flow.Idle selected activeTurnId) :
    flow.resolve.Idle selected activeTurnId := by
  cases flow with
  | resume tail => exact ⟨fun hdrains => h.1 (Phase.drains_resolve.mp hdrains), h.2⟩
  | send turn => exact ⟨fun hdrains => h.1 (Phase.drains_resolve.mp hdrains), h.2⟩
  | _ => exact h

theorem Stale.types (h : Stale draws before) (htypes : Types draws before after) :
    Stale draws after := by
  refine ⟨htypes.base h.base, htypes.opened h.base h.opened, ?_, ?_, ?_, ?_,
    fun {id flow} hflow => ?_⟩
  · rw [htypes.messages]
    exact h.formed
  · rw [htypes.drafts]
    exact h.drafts
  · rw [htypes.streaming]
    exact h.streaming
  · obtain ⟨id, chatId, caller, hlisting⟩ := h.listing
    exact ⟨id, chatId, caller, htypes.lookup h.base hlisting rfl⟩
  · rw [htypes.selected, htypes.activeTurnId]
    rcases htypes.known hflow with ⟨started, chatId, rfl⟩ | ⟨old, hold, rfl | rfl⟩
    · trivial
    · exact h.idle hold
    · exact (h.idle hold).resolve

/-- A stale list that happens to be of the selected chat. -/
theorem Inv.kept (h : Inv draws page) (hfresh : Fresh page.selected page.messages) :
    Kept draws page := by
  rcases h with hkept | hstale
  · exact hkept
  · refine ⟨hstale.base, hstale.opened, fun row hrow => ⟨hstale.formed row hrow, ?_⟩, hstale.drafts,
      fun hclient => ?_⟩
    · exact fun chatId hselected => hfresh chatId hselected row hrow
    · rw [hstale.streaming] at hclient
      cases hclient

theorem Inv.base (h : Inv draws page) : page.Base draws := h.elim Kept.base Stale.base

/-! ### Rows -/

theorem dropRows_rows {P : Row → Prop} (hrows : ∀ row ∈ page.messages, P row)
    (clientId : ClientId) : ∀ row ∈ (page.dropRows clientId).messages, P row := fun row hrow =>
  hrows row (List.mem_of_mem_filter hrow)

theorem map_rows {P : Row → Prop} {rows : List Row} {change : Row → Row}
    (hrows : ∀ row ∈ rows, P row) (hchange : ∀ row, P row → P (change row)) :
    ∀ row ∈ rows.map change, P row := by
  intro row hrow
  obtain ⟨old, hold, rfl⟩ := List.mem_map.mp hrow
  exact hchange old (hrows old hold)

theorem commitDone_rows {message : Option Row} {doneText : Text} {clientId : ClientId}
    (hrows : ∀ row ∈ page.messages, row.Fits draws selected)
    (hmessage : ∀ row ∈ message, row.Fits draws selected) :
    ∀ row ∈ (page.commitDone message doneText clientId).messages, row.Fits draws selected := by
  unfold Page.commitDone
  cases message with
  | none =>
      refine map_rows hrows fun row hrow => ?_
      split
      · exact hrow.setText doneText
      · exact hrow
  | some persisted =>
      have hrendered : { persisted with text := doneText }.Fits draws selected :=
        (hmessage persisted rfl).setText doneText
      dsimp only
      split
      · split
        · exact dropRows_rows hrows clientId
        · refine map_rows hrows fun row hrow => ?_
          split
          · exact hrendered
          · exact hrow
      · split
        · intro row hrow
          rcases List.mem_append.mp hrow with hbefore | hlast
          · exact hrows row hbefore
          · exact List.mem_singleton.mp hlast ▸ hrendered
        · exact hrows

theorem commitDone_steady (page : Page) (message : Option Row) (doneText : Text)
    (clientId : ClientId) : Steady draws page (page.commitDone message doneText clientId) := by
  unfold Page.commitDone
  cases message with
  | none => exact .of_same rfl rfl rfl rfl rfl rfl
  | some persisted => dsimp only; split <;> split <;> exact .of_same rfl rfl rfl rfl rfl rfl

theorem commitDone_view (page : Page) (message : Option Row) (doneText : Text)
    (clientId : ClientId) :
    (page.commitDone message doneText clientId).streamingClientId = page.streamingClientId ∧
      (page.commitDone message doneText clientId).liveDrafts = page.liveDrafts := by
  unfold Page.commitDone
  cases message with
  | none => exact ⟨rfl, rfl⟩
  | some persisted => dsimp only; split <;> split <;> exact ⟨rfl, rfl⟩

/-! ### Drafts -/

theorem DraftsOk.save {liveDrafts : Nat → Option LiveDraft} (h : DraftsOk draws liveDrafts)
    {chatId : Nat} {draft : LiveDraft} (hdraft : draft.Ok draws chatId) :
    DraftsOk draws (Function.update liveDrafts chatId (some draft)) := by
  intro other found hfound
  by_cases hsame : other = chatId
  · subst hsame
    rw [Function.update_self] at hfound
    exact Option.some.inj hfound ▸ hdraft
  · rw [Function.update_of_ne hsame] at hfound
    exact h other found hfound

theorem DraftsOk.drop {liveDrafts : Nat → Option LiveDraft} (h : DraftsOk draws liveDrafts)
    (chatId : Nat) : DraftsOk draws (Function.update liveDrafts chatId none) := by
  intro other found hfound
  by_cases hsame : other = chatId
  · rw [hsame, Function.update_self] at hfound
    cases hfound
  · rw [Function.update_of_ne hsame] at hfound
    exact h other found hfound

theorem Kept.saveLiveDraft (h : Kept draws page) {chatId : Nat} {clientId : ClientId}
    (hselected : page.selected = some chatId) (hclient : clientId.chatId draws = some chatId)
    (lastEventId : String) (serverTurnId : Option Nat) :
    Kept draws (page.saveLiveDraft chatId clientId lastEventId serverTurnId) :=
  ⟨h.base, h.opened, h.rows, h.drafts.save ⟨hclient, hselected ▸ h.rows⟩, h.streaming⟩

theorem Kept.dropLiveDraft (h : Kept draws page) (chatId : Option Nat) :
    Kept draws (page.dropLiveDraft chatId) := by
  cases chatId with
  | none => exact h
  | some chatId => exact ⟨h.base, h.opened, h.rows, h.drafts.drop chatId, h.streaming⟩

theorem dropLiveDraft_steady (page : Page) (chatId : Option Nat) :
    Steady draws page (page.dropLiveDraft chatId) := by
  cases chatId <;> exact .of_same rfl rfl rfl rfl rfl rfl

theorem Kept.dropRows (h : Kept draws page) (clientId : ClientId) :
    Kept draws (page.dropRows clientId) :=
  ⟨h.base, h.opened, dropRows_rows h.rows clientId, h.drafts, h.streaming⟩

/-! ### Flows that go on or end -/

theorem Flow.Ok.leads_resume {old new : Resume}
    (h : (Flow.resume old).Ok draws selected activeTurnId generation)
    (hchat : new.chatId = old.chatId) (hclient : new.clientId = old.clientId)
    (haborted : new.aborted = old.aborted)
    (hdrains : new.phase.Drains → some new.chatId = selected)
    (hmessage : ∀ row, new.phase.message = some row → row.Fits draws (some new.chatId)) :
    Flow.Leads draws selected activeTurnId generation (.resume old) (.resume new) := by
  refine ⟨⟨hdrains, ?_, ?_, ?_, ?_, hmessage⟩, ?_, ?_⟩
  · rintro tail ⟨⟩
    rw [hclient, hchat]
    exact h.resume old rfl
  · rintro turn ⟨⟩
  · rintro chatId turn ⟨⟩
  · rintro started chatId ⟨⟩
  · rintro tail ⟨⟩ hopen
    exact ⟨old, rfl, haborted ▸ hopen, hchat.symm⟩
  · rintro chatId caller ⟨⟩

theorem Flow.Ok.leads_send {old new : Send}
    (h : (Flow.send old).Ok draws selected activeTurnId generation)
    (hturn : new.turnId = old.turnId) (hchat : new.chatAtSend = old.chatAtSend)
    (hclient : new.clientId = old.clientId)
    (hdrains : new.phase.Drains → new.chatAtSend = selected)
    (hmessage : ∀ row, new.phase.message = some row → row.Fits draws new.chatAtSend) :
    Flow.Leads draws selected activeTurnId generation (.send old) (.send new) := by
  refine ⟨⟨hdrains, ?_, ?_, ?_, ?_, hmessage⟩, ?_, ?_⟩
  · rintro tail ⟨⟩
  · rintro turn ⟨⟩
    rw [Send.Ok, hturn, hchat, hclient]
    exact h.send old rfl
  · rintro chatId turn ⟨⟩
  · rintro started chatId ⟨⟩
  · rintro tail ⟨⟩
  · rintro chatId caller ⟨⟩

theorem Kept.setFlow (h : Kept draws page) (hold : page.flows id = some old)
    (hleads : Flow.Leads draws page.selected page.activeTurnId page.typer.generation old new) :
    Kept draws (page.setFlow id (some new)) :=
  ⟨Base.replace h.base hold hleads, h.opened.replace hold hleads, h.rows, h.drafts, h.streaming⟩

theorem Kept.removeFlow (h : Kept draws page) (hold : page.flows id = some old)
    (hnot : ∀ chatId caller, old ≠ .listing chatId caller) : Kept draws (page.setFlow id none) := by
  refine ⟨Base.remove h.base id, h.opened.remove ?_, h.rows, h.drafts, h.streaming⟩
  rintro ⟨chatId, caller, hlisting⟩
  exact absurd (Option.some.inj (hold.symm.trans hlisting)) (hnot chatId caller)

theorem Stale.removeFlow (h : Stale draws page) (hold : page.flows id = some old)
    (hnot : ∀ chatId caller, old ≠ .listing chatId caller) :
    Stale draws (page.setFlow id none) := by
  refine ⟨Base.remove h.base id, h.opened.remove ?_, h.formed, h.drafts, h.streaming, ?_,
    fun hother => h.idle (of_update_none hother).2⟩
  · rintro ⟨chatId, caller, hlisting⟩
    exact absurd (Option.some.inj (hold.symm.trans hlisting)) (hnot chatId caller)
  · obtain ⟨list, chatId, caller, hlisting⟩ := h.listing
    refine ⟨list, chatId, caller, ?_⟩
    have hne : list ≠ id := by
      rintro rfl
      exact hnot chatId caller (Option.some.inj (hold.symm.trans hlisting))
    rw [flows_setFlow, Function.update_of_ne hne]
    exact hlisting

/-! ### `resumeActiveTurn` -/

theorem ensurePlaceholder_steady (page : Page) (tail : Resume) :
    Steady draws page (page.ensurePlaceholder tail) := by
  unfold Page.ensurePlaceholder
  split
  · exact (Types.refl draws page).toSteady
  · refine Steady.trans ?_ (types_typerReset _).toSteady
    exact .of_same rfl rfl rfl rfl rfl rfl

theorem Kept.ensurePlaceholder (h : Kept draws page) {tail : Resume}
    (hselected : page.selected = some tail.chatId)
    (hclient : tail.clientId.chatId draws = some tail.chatId) :
    Kept draws (page.ensurePlaceholder tail) := by
  unfold Page.ensurePlaceholder
  split
  · exact h
  · refine Kept.types ?_ (types_typerReset _)
    refine ⟨h.base, h.opened, fun row hrow => ?_, h.drafts, fun hstreaming => ?_⟩
    · rcases List.mem_append.mp hrow with hbefore | hplaceholder
      · exact h.rows row hbefore
      · obtain rfl := List.mem_singleton.mp hplaceholder
        refine ⟨?_, fun chatId hchat => hselected.symm.trans hchat⟩
        rintro chatId ⟨⟩ clientId ⟨⟩
        exact .inl hclient
    · cases hstreaming
      exact hclient.trans hselected.symm

/-- A tail that goes on to the next frame. -/
theorem Kept.checkpoint (h : Kept draws page) {old tail : Resume}
    (hold : page.flows id = some (.resume old)) (hchat : tail.chatId = old.chatId)
    (hclient : tail.clientId = old.clientId) (haborted : tail.aborted = old.aborted)
    (hselected : page.selected = some old.chatId) : Kept draws (page.checkpoint id tail) := by
  have hok := h.base.ok hold
  have hsame : tail.clientId.chatId draws = some tail.chatId := by
    rw [hclient, hchat]
    exact hok.resume old rfl
  have hsaved := h.saveLiveDraft (hselected.trans (congrArg some hchat.symm)) hsame
    tail.lastEventId tail.serverTurnId
  refine hsaved.setFlow hold (hok.leads_resume hchat hclient haborted ?_ ?_)
  · exact False.elim
  · rintro row ⟨⟩

theorem Kept.cleanupResumeState (h : Kept draws page) (clientId : ClientId) :
    Kept draws (page.cleanupResumeState clientId) := by
  unfold Page.cleanupResumeState
  split
  · exact h
  · refine Kept.types ?_ (types_typerReset _)
    refine ⟨h.base, h.opened, h.rows, h.drafts, ?_⟩
    rintro clientId ⟨⟩

theorem cleanupResumeState_steady (page : Page) (clientId : ClientId) :
    Steady draws page (page.cleanupResumeState clientId) := by
  unfold Page.cleanupResumeState
  split
  · exact (Types.refl draws page).toSteady
  · refine Steady.trans ?_ (types_typerReset _).toSteady
    exact .of_same rfl rfl rfl rfl rfl rfl

/-- A flow that is over after what it has done. -/
theorem Kept.removeAfter (h : Kept draws before) (hsteady : Steady draws before after)
    (hafter : Kept draws after) (hold : before.flows id = some old)
    (hnot : ∀ chatId caller, old ≠ .listing chatId caller) :
    Kept draws (after.setFlow id none) := by
  rcases hsteady.kept h.base hold with hsame | hresolved
  · exact hafter.removeFlow hsame hnot
  · refine hafter.removeFlow hresolved fun chatId caller hlisting => ?_
    cases old <;> cases hlisting
    exact hnot chatId caller rfl

theorem drain_types (page : Page) (id : Nat) (finalText : Text) (message : Option Row) :
    Types draws page (page.drain id finalText message).1 := by
  unfold Page.drain
  split
  · exact Types.refl draws page
  · exact types_setTyper page _ le_rfl

theorem drain_phase (page : Page) (id : Nat) (finalText : Text) (message : Option Row) :
    (page.drain id finalText message).2.message = message := by
  unfold Page.drain
  split <;> rfl

theorem Flow.resume_ne_listing (tail : Resume) :
    ∀ chatId caller, Flow.resume tail ≠ .listing chatId caller := by
  rintro chatId caller ⟨⟩

theorem Flow.send_ne_listing (turn : Send) :
    ∀ chatId caller, Flow.send turn ≠ .listing chatId caller := by
  rintro chatId caller ⟨⟩

theorem Flow.resolve_resume {tail : Resume} (h : tail.phase = .awaiting) :
    (Flow.resume tail).resolve = .resume tail := by
  cases tail
  cases h
  rfl

theorem Kept.resumeFrame (h : Kept draws page) {tail : Resume} {eventId : String} {frame : Frame}
    (hold : page.flows id = some (.resume tail)) (hphase : tail.phase = .awaiting)
    (hmessage : ∀ finalText row steered, frame = .done finalText (some row) steered →
      row.Fits draws (some tail.chatId)) :
    Kept draws (page.resumeFrame id tail eventId frame) := by
  have hok := h.base.ok hold
  unfold Page.resumeFrame
  by_cases hselected : page.selected = some tail.chatId
  · rw [if_neg (by simpa using hselected)]
    have hclient := hok.resume tail rfl
    -- the tail once it has read the event's id
    obtain ⟨later, hlater, hchat, hsame, haborted, hwaits⟩ : ∃ later : Resume,
        (if eventId = "" then tail else { tail with lastEventId := eventId }) = later ∧
          later.chatId = tail.chatId ∧ later.clientId = tail.clientId ∧
          later.aborted = tail.aborted ∧ later.phase = tail.phase := by
      refine ⟨_, rfl, ?_⟩
      split <;> exact ⟨rfl, rfl, rfl, rfl⟩
    dsimp only
    rw [hlater]
    have hlaterClient : later.clientId.chatId draws = some later.chatId := by
      rw [hsame, hchat]
      exact hclient
    have hplaced : Kept draws (page.ensurePlaceholder later) :=
      h.ensurePlaceholder (hselected.trans (congrArg some hchat.symm)) hlaterClient
    have hsteady : Steady draws page (page.ensurePlaceholder later) :=
      ensurePlaceholder_steady page later
    have hfound := hsteady.lookup h.base hold (Flow.resolve_resume hphase)
    have hthere := hsteady.selected.trans hselected
    cases frame with
    | turnStarted turnId => exact hplaced.checkpoint hfound hchat hsame haborted hthere
    | token delta =>
        have htypes : Types draws _ ((page.ensurePlaceholder later).typerPush delta) :=
          types_typerPush _ delta
        exact (hplaced.types htypes).checkpoint
          (htypes.lookup hplaced.base hfound (Flow.resolve_resume hphase)) hchat hsame haborted
          (htypes.selected.trans hthere)
    | toolCall name args =>
        refine Kept.checkpoint ?_ hfound hchat hsame haborted hthere
        exact ⟨hplaced.base, hplaced.opened, hplaced.rows, hplaced.drafts, hplaced.streaming⟩
    | toolResult name text attachments error =>
        refine Kept.checkpoint ?_ hfound hchat hsame haborted hthere
        exact ⟨hplaced.base, hplaced.opened, hplaced.rows, hplaced.drafts, hplaced.streaming⟩
    | done finalText message steered =>
        have htypes : Types draws page (page.drain id finalText message).1 :=
          drain_types page id finalText message
        have hdrained := htypes.lookup h.base hold (Flow.resolve_resume hphase)
        refine (h.types htypes).setFlow hdrained
          (Flow.Ok.leads_resume ?_ hchat hsame haborted ?_ ?_)
        · exact (h.types htypes).base.ok hdrained
        · exact fun _ => (congrArg some hchat).trans (htypes.selected.trans hselected).symm
        · intro row hrow
          rw [drain_phase] at hrow
          subst hrow
          rw [hchat]
          exact hmessage finalText row steered rfl
    | error code detail =>
        have hdropped := ((h.dropLiveDraft (some later.chatId)).dropRows later.clientId)
        refine Kept.removeAfter h ?_ (hdropped.cleanupResumeState later.clientId) hold
          (Flow.resume_ne_listing tail)
        refine Steady.trans ?_ (cleanupResumeState_steady _ later.clientId)
        exact .of_same rfl rfl rfl rfl rfl rfl
  · rw [if_pos hselected]
    exact h.removeFlow hold (Flow.resume_ne_listing tail)

theorem Kept.commitDone (h : Kept draws page) {message : Option Row} (doneText : Text)
    (clientId : ClientId) (hmessage : ∀ row ∈ message, row.Fits draws page.selected) :
    Kept draws (page.commitDone message doneText clientId) := by
  obtain ⟨hstreaming, hdrafts⟩ := commitDone_view page message doneText clientId
  refine h.steady (commitDone_steady page message doneText clientId)
    (commitDone_rows h.rows hmessage) ?_ ?_
  · rw [hdrafts]
    exact h.drafts
  · rw [hstreaming]
    exact h.streaming

theorem Kept.resumeDone (h : Kept draws page) {tail : Resume} {finalText : Text}
    {message : Option Row} (hold : page.flows id = some (.resume tail))
    (hphase : tail.phase = .drained finalText message) :
    Kept draws (page.resumeDone id tail finalText message) := by
  have hok := h.base.ok hold
  have hselected : some tail.chatId = page.selected :=
    hok.blind (by simp [Flow.Blind, hphase, Phase.Drains])
  have hmessage : ∀ row ∈ message, row.Fits draws page.selected := fun row hrow =>
    hselected ▸ hok.message row (by simpa [Flow.message, hphase, Phase.message] using hrow)
  have hcommitted := h.commitDone (page.doneText finalText message) tail.clientId hmessage
  have hdropped := hcommitted.dropLiveDraft (some tail.chatId)
  refine Kept.removeAfter h ?_ (hdropped.cleanupResumeState tail.clientId) hold
    (Flow.resume_ne_listing tail)
  refine Steady.trans ?_ (cleanupResumeState_steady _ tail.clientId)
  exact (commitDone_steady page message _ tail.clientId).trans (dropLiveDraft_steady _ _)

theorem Kept.resumeFailed (h : Kept draws page) {tail : Resume}
    (hold : page.flows id = some (.resume tail)) :
    Kept draws (page.resumeFailed id tail) := by
  refine Kept.removeAfter h ?_ ((h.dropRows tail.clientId).cleanupResumeState tail.clientId) hold
    (Flow.resume_ne_listing tail)
  refine Steady.trans ?_ (cleanupResumeState_steady _ tail.clientId)
  exact .of_same rfl rfl rfl rfl rfl rfl

/-! ### `send` -/

theorem Flow.resolve_send {turn : Send} (h : turn.phase.resolve = turn.phase) :
    (Flow.send turn).resolve = .send turn := by
  rw [Flow.resolve, h]

/-- A `send` that goes on. -/
theorem Kept.goOn (h : Kept draws page) {old turn : Send} (hold : page.flows id = some (.send old))
    (hturn : turn.turnId = old.turnId) (hchat : turn.chatAtSend = old.chatAtSend)
    (hclient : turn.clientId = old.clientId) : Kept draws (page.goOn id turn) := by
  refine h.setFlow hold ((h.base.ok hold).leads_send hturn hchat hclient ?_ ?_)
  · exact False.elim
  · rintro row ⟨⟩

theorem Kept.sendCheckpoint (h : Kept draws page) {old turn : Send}
    (hold : page.flows id = some (.send old)) (hturn : turn.turnId = old.turnId)
    (hchat : turn.chatAtSend = old.chatAtSend) (hclient : turn.clientId = old.clientId)
    (hselected : old.chatAtSend = page.selected) : Kept draws (page.sendCheckpoint id turn) := by
  unfold Page.sendCheckpoint
  cases hat : turn.chatAtSend with
  | none => exact h.goOn hold hturn hchat hclient
  | some chatId =>
      have hthere : page.selected = some chatId := by rw [← hselected, ← hchat, hat]
      have hsame : turn.clientId.chatId draws = some chatId := by
        rw [hclient, ((h.base.ok hold).send old rfl).1, ← hchat, hat]
      exact (h.saveLiveDraft hthere hsame turn.lastEventId turn.serverTurnId).goOn hold hturn hchat
        hclient

theorem Kept.clearStream (h : Kept draws page) : Kept draws page.clearStream := by
  refine ⟨h.base, h.opened, h.rows, h.drafts, ?_⟩
  rintro clientId ⟨⟩

theorem Kept.clear (h : Kept draws page) : Kept draws page.clearStream.clearTools := by
  refine ⟨h.base, h.opened, h.rows, h.drafts, ?_⟩
  rintro clientId ⟨⟩

theorem clear_steady (page : Page) : Steady draws page page.clearStream.clearTools :=
  .of_same rfl rfl rfl rfl rfl rfl

theorem Kept.abandon (h : Kept draws page) (turn : Send) : Kept draws (page.abandon turn) :=
  ((h.dropRows turn.clientId).dropLiveDraft turn.chatAtSend).clearStream

theorem abandon_steady (page : Page) (turn : Send) : Steady draws page (page.abandon turn) := by
  unfold Page.abandon Page.dropLiveDraft
  cases turn.chatAtSend <;> exact .of_same rfl rfl rfl rfl rfl rfl

/-- What `steeredFallback` and the reload do to the view. -/
theorem Kept.abandonAll (h : Kept draws page) (turn : Send) :
    Kept draws (page.abandon turn).clearTools.typerReset ∧
      Steady draws page (page.abandon turn).clearTools.typerReset := by
  have hleft := h.abandon turn
  have hreset : Types draws (page.abandon turn).clearTools
      (page.abandon turn).clearTools.typerReset := types_typerReset _
  refine ⟨Kept.types ?_ hreset, Steady.trans ?_ hreset.toSteady⟩
  · exact ⟨hleft.base, hleft.opened, hleft.rows, hleft.drafts, hleft.streaming⟩
  · exact (abandon_steady page turn).trans (.of_same rfl rfl rfl rfl rfl rfl)

theorem pushFinal_types (page : Page) (finalText : Text) :
    Types draws page (page.pushFinal finalText) := by
  unfold Page.pushFinal
  generalize (if (!page.streamedPrefix.isEmpty && page.streamedPrefix.isPrefixOf finalText) = true
    then finalText.drop page.streamedPrefix.length else finalText) = rest
  dsimp only
  split
  · exact types_typerPush page _
  · exact Types.refl draws page

theorem Kept.finish (h : Kept draws page) (caller : Option Send) :
    Kept draws (page.finish caller) := by
  unfold Page.finish
  cases caller with
  | none => exact h
  | some turn =>
      dsimp only
      split
      · exact ⟨h.base, h.opened, h.rows, h.drafts, h.streaming⟩
      · exact h

theorem Kept.sendFrame (h : Kept draws page) {turn : Send} {eventId : String} {frame : Frame}
    (hold : page.flows id = some (.send turn)) (hphase : turn.phase = .awaiting)
    (hmessage : ∀ finalText row steered, frame = .done finalText (some row) steered →
      row.Fits draws turn.chatAtSend) :
    Kept draws (page.sendFrame id turn eventId frame) := by
  have hok := h.base.ok hold
  unfold Page.sendFrame
  by_cases hactive : turn.turnId = page.activeTurnId
  · rw [if_neg (by simpa using hactive)]
    have hselected := (hok.send turn rfl).2.2 hactive
    have hfound (changed : Page) (hsteady : Steady draws page changed) :
        changed.flows id = some (.send turn) :=
      hsteady.lookup h.base hold (Flow.resolve_send (by rw [hphase]; rfl))
    -- the turn once it has read the event's id
    obtain ⟨later, hlater, hturn, hchat, hclient⟩ : ∃ later : Send,
        (if eventId = "" then turn else { turn with lastEventId := eventId }) = later ∧
          later.turnId = turn.turnId ∧ later.chatAtSend = turn.chatAtSend ∧
          later.clientId = turn.clientId := by
      refine ⟨_, rfl, ?_⟩
      split <;> exact ⟨rfl, rfl, rfl⟩
    dsimp only
    rw [hlater]
    cases frame with
    | turnStarted turnId => exact h.sendCheckpoint hold hturn hchat hclient hselected
    | token delta =>
        have htypes : Types draws page (page.typerPush delta) := types_typerPush page delta
        exact (h.types htypes).sendCheckpoint (hfound _ htypes.toSteady) hturn hchat hclient
          (hselected.trans htypes.selected.symm)
    | toolCall name args =>
        refine Kept.sendCheckpoint ?_ hold hturn hchat hclient hselected
        exact ⟨h.base, h.opened, h.rows, h.drafts, h.streaming⟩
    | toolResult name text attachments error =>
        refine Kept.sendCheckpoint ?_ hold hturn hchat hclient hselected
        exact ⟨h.base, h.opened, h.rows, h.drafts, h.streaming⟩
    | done finalText message steered =>
        dsimp only
        split
        · obtain ⟨hleft, hsteady⟩ := h.abandonAll later
          exact hleft.goOn (hfound _ hsteady) hturn hchat hclient
        · have htypes : Types draws page
              ((page.pushFinal finalText).drain id finalText message).1 :=
            (pushFinal_types page finalText).trans (drain_types _ id finalText message)
          refine (h.types htypes).setFlow (hfound _ htypes.toSteady)
            (Flow.Ok.leads_send ?_ hturn hchat hclient ?_ ?_)
          · exact (h.types htypes).base.ok (hfound _ htypes.toSteady)
          · exact fun _ => (hchat.trans hselected).trans htypes.selected.symm
          · intro row hrow
            rw [drain_phase] at hrow
            subst hrow
            rw [hchat]
            exact hmessage finalText row steered rfl
    | error code detail =>
        exact (h.abandon later).goOn (hfound _ (abandon_steady page later)) hturn hchat hclient
  · rw [if_pos hactive]
    exact h.removeFlow hold (Flow.send_ne_listing turn)

theorem Kept.sendDone (h : Kept draws page) {turn : Send} {finalText : Text}
    {message : Option Row} (hold : page.flows id = some (.send turn))
    (hphase : turn.phase = .drained finalText message) :
    Kept draws (page.sendDone id turn finalText message) := by
  have hok := h.base.ok hold
  have hselected : turn.chatAtSend = page.selected :=
    hok.blind (by simp [Flow.Blind, hphase, Phase.Drains])
  have hmessage : ∀ row ∈ message, row.Fits draws page.selected := fun row hrow =>
    hselected ▸ hok.message row (by simpa [Flow.message, hphase, Phase.message] using hrow)
  have hcommitted := h.commitDone (page.doneText finalText message) turn.clientId hmessage
  have hsteady : Steady draws page _ :=
    commitDone_steady page message (page.doneText finalText message) turn.clientId
  unfold Page.sendDone
  generalize page.commitDone message (page.doneText finalText message) turn.clientId = done
    at hcommitted hsteady
  have hdropped := hcommitted.dropLiveDraft turn.chatAtSend
  replace hsteady := hsteady.trans (dropLiveDraft_steady done turn.chatAtSend)
  have hleft : Types draws (done.dropLiveDraft turn.chatAtSend).clearStream.clearTools _ :=
    types_typerReset _
  have hfound := (hsteady.trans ((clear_steady _).trans hleft.toSteady)).lookup h.base hold
    (Flow.resolve_send (by rw [hphase]; rfl))
  exact (hdropped.clear.types hleft).goOn hfound rfl rfl rfl

/-! ### The list of the selected chat -/

theorem Kept.sendOver (h : Kept draws page) {turn : Send}
    (hold : page.flows id = some (.send turn)) : Kept draws (page.sendOver id turn) :=
  (h.removeFlow hold (Flow.send_ne_listing turn)).finish (some turn)

/-- A tail is opened in place of the one before. -/
theorem kept_startResume (hbase : page.Base draws) {chatId : Nat} {draft : Option LiveDraft}
    (hselected : page.selected = some chatId)
    (hrows : ∀ row ∈ page.messages, row.Fits draws page.selected)
    (hdrafts : DraftsOk draws page.liveDrafts)
    (hstreaming : ∀ {clientId}, page.streamingClientId = some clientId →
      clientId.chatId draws = page.selected)
    (hdraft : ∀ found ∈ draft, found.Ok draws chatId) (stamp : Nat) :
    Kept draws (page.startResume chatId draft stamp) := by
  obtain ⟨flows, hclosed⟩ := hbase.abortResume
  unfold Page.startResume
  rw [hclosed.eq]
  generalize htail : Resume.start chatId draft stamp = tail
  have hchat : tail.chatId = chatId ∧ tail.clientId.chatId draws = some chatId ∧
      tail.phase = .awaiting := by
    subst htail
    cases draft with
    | none => exact ⟨rfl, rfl, rfl⟩
    | some draft => exact ⟨rfl, (hdraft draft rfl).clientId, rfl⟩
  have hok : (Flow.resume tail).Ok draws page.selected page.activeTurnId
      page.typer.generation := by
    refine ⟨fun hblind => ?_, ?_, ?_, ?_, ?_, fun row hrow => ?_⟩
    · rw [Flow.Blind, hchat.2.2] at hblind
      exact hblind.elim
    · rintro _ ⟨⟩
      rw [hchat.1]
      exact hchat.2.1
    · rintro turn ⟨⟩
    · rintro other turn ⟨⟩
    · rintro started other ⟨⟩
    · rw [Flow.message, hchat.2.2] at hrow
      cases hrow
  have hopened : Opened page.selected flows := fun id before hopen haborted => by
    rw [hclosed.closed hopen] at haborted
    cases haborted
  refine ⟨(hclosed.base _).spawn hok fun _ _ _ => rfl, ?_, hrows, hdrafts, hstreaming⟩
  refine hopened.spawn ((hclosed.base none).unused le_rfl) ?_
  rintro _ ⟨⟩
  rw [hchat.1, hselected]

theorem kept_loadDraft (hbase : page.Base draws) {chatId : Nat} {draft : LiveDraft}
    (hselected : page.selected = some chatId) (hdrafts : DraftsOk draws page.liveDrafts)
    (hdraft : draft.Ok draws chatId) :
    Kept draws ((page.restoreLiveDraft draft).startResume chatId (some draft) 0) := by
  have htypes : Types draws
      { page with
        messages := draft.messages
        streamingClientId := some draft.clientId
        streamedPrefix := draft.streamedPrefix
        tools := draft.tools
        attachments := draft.attachments
        busy := true } (page.restoreLiveDraft draft) :=
    ((types_typerReset _).trans (types_typerPush _ _)).trans (types_typerFlush _)
  have hthere : (page.restoreLiveDraft draft).selected = some chatId :=
    htypes.selected.trans hselected
  refine kept_startResume (htypes.base hbase) hthere ?_ ?_ ?_ ?_ 0
  · rw [htypes.messages, hthere]
    exact hdraft.rows
  · rw [htypes.drafts]
    exact hdrafts
  · rw [htypes.streaming, hthere]
    rintro clientId ⟨⟩
    exact hdraft.clientId
  · rintro found ⟨⟩
    exact hdraft

theorem Kept.spawn (h : Kept draws page)
    (hnew : new.Ok draws page.selected page.activeTurnId page.typer.generation)
    (hnot : ∀ tail, new ≠ .resume tail) : Kept draws (page.spawn new) := by
  refine ⟨Base.spawn h.base hnew fun tail hsame => absurd hsame (hnot tail), ?_, h.rows, h.drafts,
    h.streaming⟩
  exact h.opened.spawn (h.base.unused le_rfl) fun tail hsame => absurd hsame (hnot tail)

theorem Flow.ok_listing {chatId : Nat} {caller : Option Send} (hselected : some chatId = selected)
    (hcaller : ∀ turn ∈ caller, turn.Ok draws selected activeTurnId) :
    (Flow.listing chatId caller).Ok draws selected activeTurnId generation := by
  refine ⟨fun _ => hselected, ?_, ?_, ?_, ?_, ?_⟩
  · rintro tail ⟨⟩
  · rintro turn ⟨⟩
  · rintro other turn ⟨⟩
    exact hcaller turn rfl
  · rintro started other ⟨⟩
  · rintro row ⟨⟩

theorem loadChatMessages_some {chatId : Nat} {draft : LiveDraft} {caller : Option Send}
    (hdraft : page.liveDrafts chatId = some draft) : page.loadChatMessages chatId caller =
      ((({ page with selected := some chatId } : Page).restoreLiveDraft draft).startResume chatId
        (some draft) 0).finish caller := by
  simp only [Page.loadChatMessages, hdraft]

theorem loadChatMessages_none {chatId : Nat} {caller : Option Send}
    (hdraft : page.liveDrafts chatId = none) : page.loadChatMessages chatId caller =
      ({ page with selected := some chatId, streamingClientId := none } : Page).spawn
        (.listing chatId caller) := by
  simp only [Page.loadChatMessages, hdraft]

theorem Kept.loadChatMessages (h : Kept draws page) {chatId : Nat} {caller : Option Send}
    (hselected : page.selected = some chatId)
    (hcaller : ∀ turn ∈ caller, turn.Ok draws page.selected page.activeTurnId) :
    Kept draws (page.loadChatMessages chatId caller) := by
  have hsame : ({ page with selected := some chatId } : Page) = page := by rw [← hselected]
  cases hdraft : page.liveDrafts chatId with
  | some draft =>
      rw [loadChatMessages_some hdraft, hsame]
      exact (kept_loadDraft h.base hselected h.drafts (h.drafts chatId draft hdraft)).finish caller
  | none =>
      have hcleared : Kept draws
          ({ page with selected := some chatId, streamingClientId := none } : Page) := by
        refine ⟨hselected ▸ h.base, hselected ▸ h.opened, hselected ▸ h.rows, h.drafts, ?_⟩
        rintro clientId ⟨⟩
      rw [loadChatMessages_none hdraft]
      refine hcleared.spawn (Flow.ok_listing rfl ?_) ?_
      · rw [← hselected]
        exact hcaller
      · rintro tail ⟨⟩

/-! ### The end of a stream of `send` -/

theorem Kept.recoverSilentEof (h : Kept draws page) {turn : Send}
    (hold : page.flows id = some (.send turn)) (hphase : turn.phase = .awaiting) :
    Kept draws (page.recoverSilentEof id turn) := by
  obtain ⟨hleft, hsteady⟩ := h.abandonAll turn
  have hfound := hsteady.lookup h.base hold (Flow.resolve_send (by rw [hphase]; rfl))
  unfold Page.recoverSilentEof
  dsimp only
  cases hselected : page.selected with
  | none => exact hleft.sendOver hfound
  | some chatId =>
      refine (hleft.removeFlow hfound (Flow.send_ne_listing turn)).loadChatMessages
        (hsteady.selected.trans hselected) ?_
      rintro _ ⟨⟩
      exact (hleft.base.ok hfound).send turn rfl

theorem Kept.sendEnded (h : Kept draws page) {turn : Send}
    (hold : page.flows id = some (.send turn)) (hphase : turn.phase = .awaiting) :
    Kept draws (page.sendEnded id turn) := by
  have hok := h.base.ok hold
  unfold Page.sendEnded
  split
  · exact h.sendOver hold
  · cases turn.stage with
    | run =>
        dsimp only
        split
        · exact h.sendOver hold
        · refine h.setFlow hold (hok.leads_send rfl rfl rfl ?_ ?_)
          · exact False.elim
          · rintro row ⟨⟩
    | tail => exact h.recoverSilentEof hold hphase
    | retry => exact h.recoverSilentEof hold hphase

theorem Kept.sendFailed (h : Kept draws page) {turn : Send}
    (hold : page.flows id = some (.send turn)) (hphase : turn.phase = .awaiting) :
    Kept draws (page.sendFailed id turn) := by
  have hok := h.base.ok hold
  unfold Page.sendFailed
  split
  · exact h.sendOver hold
  · split
    · refine h.setFlow hold (hok.leads_send rfl rfl rfl ?_ ?_)
      · exact False.elim
      · rintro row ⟨⟩
    · refine (h.abandon turn).sendOver ?_
      exact (abandon_steady page turn).lookup h.base hold
        (Flow.resolve_send (by rw [hphase]; rfl))

/-! ### Selecting -/

theorem Kept.saveCurrentLiveDraft (h : Kept draws page) : Kept draws page.saveCurrentLiveDraft := by
  unfold Page.saveCurrentLiveDraft
  split
  · next chatId clientId hselected hstreaming =>
      have htypes : Types draws page page.typerFlush := types_typerFlush page
      refine (h.types htypes).saveLiveDraft (htypes.selected.trans hselected) ?_ _ _
      exact (h.streaming hstreaming).trans hselected
  · exact h

theorem saveCurrentLiveDraft_steady (page : Page) :
    Steady draws page page.saveCurrentLiveDraft := by
  unfold Page.saveCurrentLiveDraft
  split
  · exact (types_typerFlush page).toSteady.trans (.of_same rfl rfl rfl rfl rfl rfl)
  · exact (Types.refl draws page).toSteady

theorem saveCurrentLiveDraft_messages (page : Page) :
    page.saveCurrentLiveDraft.messages = page.messages := by
  unfold Page.saveCurrentLiveDraft
  split
  · have htypes : Types (fun _ => none) page page.typerFlush := types_typerFlush page
    exact htypes.messages
  · rfl

theorem resolveDone_selected (page : Page) (selected : Option Nat) :
    ({ page.resolveDone with selected := selected } : Page) =
      ({ page with selected := selected } : Page).resolveDone := by
  unfold Page.resolveDone
  cases page.typer.resolveDone <;> rfl

/-- A new chat is selected over no await that is blind to it. -/
theorem Base.select (h : Base draws selected activeTurnId resumeAbort generation nextFlow flows)
    (chatId : Nat) (hblind : ∀ {id flow}, flows id = some flow → flow.Blind →
      flow.chatId = some chatId) :
    Base draws (some chatId) (activeTurnId + 1) resumeAbort (generation + 1) nextFlow flows := by
  refine ⟨fun hflow => ?_, h.unused, h.tails⟩
  have hok := h.ok hflow
  have hturn {turn : Send} (hturn : turn.Ok draws selected activeTurnId) :
      turn.Ok draws (some chatId) (activeTurnId + 1) := by
    have hle := hturn.2.1
    exact ⟨hturn.1, by omega, by omega⟩
  refine ⟨hblind hflow, hok.resume, fun turn hsame => hturn (hok.send turn hsame),
    fun other turn hsame => hturn (hok.caller other turn hsame), fun started other hsame => ?_,
    hok.message⟩
  have hbefore := (hok.typing started other hsame).1
  exact ⟨by omega, by omega⟩

theorem Flow.Idle.blind (h : flow.Idle selected activeTurnId) (hblind : flow.Blind) :
    ∃ listed caller, flow = .listing listed caller ∨ ∃ beforeId, flow = .older listed beforeId := by
  cases flow with
  | listing listed caller => exact ⟨listed, caller, .inl rfl⟩
  | older listed beforeId => exact ⟨listed, none, .inr ⟨beforeId, rfl⟩⟩
  | resume tail => exact absurd hblind h.1
  | send turn => exact absurd hblind h.1
  | steering other text => exact h.elim
  | interrupting other text => exact h.elim
  | stopping other => exact hblind.elim
  | typing started other => exact hblind.elim

/-- No flow that stays behind does anything to the list of the chat before. -/
theorem idle_select (hbase : page.Base draws) {chatId : Nat}
    (hopened : ∀ {id tail}, page.flows id = some (.resume tail) → tail.aborted = false →
      some tail.chatId ≠ some chatId)
    (hblind : ∀ {id flow}, page.flows id = some flow → flow.Blind → ∃ listed caller,
      flow = .listing listed caller ∨ ∃ beforeId, flow = .older listed beforeId)
    (hflow : page.flows id = some flow) : flow.Idle (some chatId) (page.activeTurnId + 1) := by
  have hok := hbase.ok hflow
  cases flow with
  | listing listed caller =>
      cases caller with
      | none => trivial
      | some turn =>
          have hle := (hok.caller listed turn rfl).2.1
          exact fun hsame => absurd (hsame ▸ hle) (by omega)
  | older listed beforeId => trivial
  | resume tail =>
      refine ⟨fun hdrains => ?_, hopened hflow⟩
      obtain ⟨listed, caller, hlisting | ⟨beforeId, holder⟩⟩ := hblind hflow hdrains
      · cases hlisting
      · cases holder
  | steering other text =>
      obtain ⟨listed, caller, hlisting | ⟨beforeId, holder⟩⟩ := hblind hflow trivial
      · cases hlisting
      · cases holder
  | interrupting other text =>
      obtain ⟨listed, caller, hlisting | ⟨beforeId, holder⟩⟩ := hblind hflow trivial
      · cases hlisting
      · cases holder
  | send turn =>
      have hle := (hok.send turn rfl).2.1
      refine ⟨fun hdrains => ?_, fun hsame => absurd (hsame ▸ hle) (by omega)⟩
      obtain ⟨listed, caller, hlisting | ⟨beforeId, holder⟩⟩ := hblind hflow hdrains
      · cases hlisting
      · cases holder
  | stopping other => trivial
  | typing started other => trivial

theorem Inv.formed (h : Inv draws page) : ∀ row ∈ page.messages, row.Formed draws := by
  rcases h with hkept | hstale
  · exact fun row hrow => (hkept.rows row hrow).1
  · exact hstale.formed

theorem Inv.drafts (h : Inv draws page) : DraftsOk draws page.liveDrafts :=
  h.elim Kept.drafts Stale.drafts

theorem Inv.drafts_saved (h : Inv draws page) :
    DraftsOk draws page.saveCurrentLiveDraft.liveDrafts := by
  rcases h with hkept | hstale
  · exact hkept.saveCurrentLiveDraft.drafts
  · have hsame : page.saveCurrentLiveDraft = page := by
      unfold Page.saveCurrentLiveDraft
      rw [hstale.streaming]
      cases page.selected <;> rfl
    rw [hsame]
    exact hstale.drafts

/-- The flows that are blind are those of the chat to be selected, so they keep within bounds if the
list has to be asked for. -/
theorem Inv.idle (h : Inv draws page) {chatId : Nat}
    (hblind : ∀ {id flow}, page.flows id = some flow → flow.Blind → flow.chatId = some chatId)
    (hother : page.selected = some chatId → Stale draws page)
    (hflow : page.flows id = some flow) : flow.Idle (some chatId) (page.activeTurnId + 1) := by
  by_cases hselected : page.selected = some chatId
  · have hstale := hother hselected
    refine idle_select h.base (fun htail haborted => ?_) (fun hfound hisBlind => ?_) hflow
    · exact hselected ▸ (hstale.idle htail).2 haborted
    · exact (hstale.idle hfound).blind hisBlind
  · have hnone : ∀ {id flow}, page.flows id = some flow → ¬flow.Blind := fun hfound hisBlind =>
      hselected (((h.base.ok hfound).blind hisBlind).symm.trans (hblind hfound hisBlind))
    refine idle_select h.base (fun htail haborted hsame => ?_)
      (fun hfound hisBlind => absurd hisBlind (hnone hfound)) hflow
    have hopened : Opened page.selected page.flows := h.elim Kept.opened Stale.opened
    rcases hopened _ _ htail haborted with hthere | ⟨list, listed, caller, hlisting⟩
    · exact hselected (hthere.symm.trans hsame)
    · exact hnone hlisting trivial

theorem Inv.selectChat (h : Inv draws page) {chatId : Nat}
    (hblind : ∀ {id flow}, page.flows id = some flow → flow.Blind → flow.chatId = some chatId) :
    Inv draws (page.selectChat chatId) := by
  have hsteady : Steady draws page page.saveCurrentLiveDraft := saveCurrentLiveDraft_steady page
  have hmessages := saveCurrentLiveDraft_messages page
  have hsaved := h.drafts_saved
  unfold Page.selectChat
  generalize page.saveCurrentLiveDraft = saved at hsteady hmessages hsaved
  dsimp only
  generalize hleft : ({ saved with activeTurnId := page.activeTurnId + 1, busy := false } :
    Page).clearStream.clearTools = left
  have hfields : left.liveDrafts = saved.liveDrafts ∧ left.messages = page.messages ∧
      left.activeTurnId = page.activeTurnId + 1 ∧ left.flows = saved.flows := by
    subst hleft
    exact ⟨rfl, hmessages, rfl, rfl⟩
  have hflows : ∀ {id flow}, left.flows id = some flow →
      (∃ started other, flow = .typing started other) ∨
        ∃ old, page.flows id = some old ∧ (flow = old ∨ flow = old.resolve) := by
    rw [hfields.2.2.2]
    exact hsteady.known
  -- the page with the new chat, before its promise is resolved
  let chosen : Page := { left.setTyper left.typer.cleared with selected := some chatId }
  have hchosen : chosen.Base draws := by
    have hselect := Base.select (hsteady.base h.base) chatId fun hfound hisBlind => by
      rcases hsteady.known hfound with ⟨started, other, rfl⟩ | ⟨old, hold, rfl | rfl⟩
      · exact hisBlind.elim
      · exact hblind hold hisBlind
      · rw [Flow.chatId_resolve]
        exact hblind hold (Flow.blind_resolve.mp hisBlind)
    rw [hsteady.activeTurnId] at hselect
    subst hleft
    exact hselect
  have htypes : Types draws chosen chosen.resolveDone := types_resolveDone chosen
  have heq : ({ left.typerReset with selected := some chatId } : Page) = chosen.resolveDone :=
    resolveDone_selected _ _
  have hreset : Types draws left left.typerReset := types_typerReset left
  have hdrafts : left.typerReset.liveDrafts = saved.liveDrafts := hreset.drafts.trans hfields.1
  cases hdraft : left.typerReset.liveDrafts chatId with
  | some draft =>
      rw [loadChatMessages_some hdraft, heq]
      refine .inl (kept_loadDraft (htypes.base hchosen) htypes.selected ?_ ?_)
      · rw [htypes.drafts]
        exact hfields.1 ▸ hsaved
      · exact hsaved chatId draft (hdrafts ▸ hdraft)
  | none =>
      have hspawned : left.typerReset.loadChatMessages chatId none =
          ({ chosen.resolveDone with streamingClientId := none } : Page).spawn
            (.listing chatId none) := by
        rw [loadChatMessages_none hdraft, ← heq]
      rw [hspawned]
      have hlisting : (Flow.listing chatId none).Ok draws chosen.resolveDone.selected
          chosen.resolveDone.activeTurnId chosen.resolveDone.typer.generation := by
        refine Flow.ok_listing htypes.selected.symm ?_
        rintro turn ⟨⟩
      have hbase := Base.spawn (htypes.base hchosen) hlisting (by rintro tail ⟨⟩)
      have hopened : Opened chosen.resolveDone.selected
          (chosen.resolveDone.spawn (.listing chatId none)).flows := fun _ _ _ _ =>
        .inr ⟨chosen.resolveDone.nextFlow, chatId, none, Function.update_self _ _ _⟩
      have hshown : chosen.resolveDone.messages = page.messages :=
        htypes.messages.trans hfields.2.1
      have hstored : DraftsOk draws chosen.resolveDone.liveDrafts := by
        rw [htypes.drafts]
        exact hfields.1 ▸ hsaved
      by_cases hkept : page.selected = some chatId ∧ Kept draws page
      · refine .inl ⟨hbase, hopened, ?_, hstored, by rintro clientId ⟨⟩⟩
        intro row hrow
        exact (htypes.selected.trans hkept.1.symm) ▸ hkept.2.rows row (hshown ▸ hrow)
      · refine .inr ⟨hbase, hopened, ?_, hstored, rfl, ⟨_, _, _, Function.update_self _ _ _⟩, ?_⟩
        · intro row hrow
          exact h.formed row (hshown ▸ hrow)
        · intro id flow hflow
          have hidle {old : Flow} {other : Nat} (hold : page.flows other = some old) :
              old.Idle (some chatId) (page.activeTurnId + 1) := by
            refine h.idle hblind (fun hselected => ?_) hold
            exact h.resolve_left fun hshows => hkept ⟨hselected, hshows⟩
          have hthere : chosen.resolveDone.activeTurnId = page.activeTurnId + 1 :=
            htypes.activeTurnId.trans hfields.2.2.1
          change flow.Idle chosen.resolveDone.selected chosen.resolveDone.activeTurnId
          rw [htypes.selected, hthere]
          rcases of_update_some hflow with ⟨-, rfl⟩ | ⟨-, hbefore⟩
          · trivial
          · have hresolved {old : Flow} (hold : left.flows id = some old) :
                old.Idle (some chatId) (page.activeTurnId + 1) := by
              rcases hflows hold with ⟨started, other, rfl⟩ | ⟨first, hfirst, rfl | rfl⟩
              · trivial
              · exact hidle hfirst
              · exact (hidle hfirst).resolve
            rcases htypes.known hbefore with ⟨started, other, rfl⟩ | ⟨old, hold, rfl | rfl⟩
            · trivial
            · exact hresolved hold
            · exact (hresolved hold).resolve

/-! ### Opening a turn -/

theorem Inv.streaming (h : Inv draws page) {clientId : ClientId}
    (hstreaming : page.streamingClientId = some clientId) :
    clientId.chatId draws = page.selected := by
  rcases h with hkept | hstale
  · exact hkept.streaming hstreaming
  · rw [hstale.streaming] at hstreaming
    cases hstreaming

theorem Base.nextTurn (h : Base draws selected activeTurnId resumeAbort generation nextFlow flows) :
    Base draws selected (activeTurnId + 1) resumeAbort generation nextFlow flows := by
  refine ⟨fun hflow => ?_, h.unused, h.tails⟩
  have hok := h.ok hflow
  have hturn {turn : Send} (hturn : turn.Ok draws selected activeTurnId) :
      turn.Ok draws selected (activeTurnId + 1) := by
    have hle := hturn.2.1
    exact ⟨hturn.1, by omega, by omega⟩
  exact ⟨hok.blind, hok.resume, fun turn hsame => hturn (hok.send turn hsame),
    fun other turn hsame => hturn (hok.caller other turn hsame), hok.typing, hok.message⟩

theorem Closed.opened (h : Closed draws page flows) (selected : Option Nat) :
    Opened selected flows := by
  intro id tail htail haborted
  rw [h.closed htail] at haborted
  cases haborted

theorem Kept.abortResume (h : Kept draws page) : Kept draws page.abortResume := by
  obtain ⟨flows, hclosed⟩ := Page.Base.abortResume h.base
  rw [hclosed.eq]
  exact ⟨hclosed.base none, hclosed.opened page.selected, h.rows, h.drafts, h.streaming⟩

theorem Flow.Ok.nextTurn_send {turn : Send} (hclient : turn.clientId.chatId draws = selected)
    (hchat : turn.chatAtSend = selected) (hturn : turn.turnId = activeTurnId)
    (hphase : turn.phase = .awaiting) :
    (Flow.send turn).Ok draws selected activeTurnId generation := by
  refine ⟨fun hblind => ?_, ?_, ?_, ?_, ?_, fun row hrow => ?_⟩
  · rw [Flow.Blind, hphase] at hblind
    exact hblind.elim
  · rintro tail ⟨⟩
  · rintro _ ⟨⟩
    exact ⟨hclient.trans hchat.symm, hturn.le, fun _ => hchat⟩
  · rintro other _ ⟨⟩
  · rintro started other ⟨⟩
  · rw [Flow.message, hphase] at hrow
    cases hrow

theorem abortResume_fields (page : Page) : page.abortResume.selected = page.selected ∧
    page.abortResume.activeTurnId = page.activeTurnId ∧
    page.abortResume.messages = page.messages ∧
    page.abortResume.streamingClientId = page.streamingClientId ∧
    page.abortResume.liveDrafts = page.liveDrafts ∧
    page.abortResume.typer = page.typer := by
  unfold Page.abortResume
  split <;> exact ⟨rfl, rfl, rfl, rfl, rfl, rfl⟩

theorem Kept.openTurn (h : Kept draws page) {clientId : ClientId} {rows : List Row}
    (hclient : clientId.chatId draws = page.selected)
    (hrows : ∀ row ∈ rows, row.Fits draws page.selected) :
    Kept draws (page.openTurn clientId rows) := by
  refine ⟨Base.nextTurn h.base, h.opened, fun row hrow => ?_, h.drafts, ?_⟩
  · rcases List.mem_append.mp hrow with hbefore | hadded
    · exact h.rows row hbefore
    · exact hrows row hadded
  · rintro _ ⟨⟩
    exact hclient

theorem Kept.launch (h : Kept draws page) {text : Text} {uuid stamp : Nat}
    (huuid : draws uuid = page.selected) : Kept draws (page.launch text uuid stamp) := by
  obtain ⟨hselected, hactive, -⟩ := abortResume_fields page
  have hrows : ∀ row ∈ [({ id := stamp, chatId := page.selected, role := 1, text := text } : Row),
      { id := page.placeholderSeq, chatId := page.selected, role := 2, text := []
        clientId := some (.uuid uuid) }], row.Fits draws page.selected := by
    intro row hadded
    rcases List.mem_pair.mp hadded with rfl | rfl
    · refine ⟨?_, fun chatId hthere => hthere⟩
      rintro chatId - clientId ⟨⟩
    · refine ⟨fun chatId hchat clientId hclient => .inl ?_, fun chatId hthere => hthere⟩
      cases hclient
      exact huuid.trans hchat
  unfold Page.launch
  dsimp only
  generalize [({ id := stamp, chatId := page.selected, role := 1, text := text } : Row), _] = rows
    at hrows ⊢
  have hopening : Kept draws (page.abortResume.openTurn (.uuid uuid) rows) :=
    h.abortResume.openTurn (huuid.trans hselected.symm) (hselected.symm ▸ hrows)
  have htypes : Types draws (page.abortResume.openTurn (.uuid uuid) rows) _ :=
    types_typerReset _
  have hthere := htypes.selected.trans hselected
  refine (hopening.types htypes).spawn (Flow.Ok.nextTurn_send ?_ hthere.symm ?_ rfl) ?_
  · exact huuid.trans hthere.symm
  · exact (htypes.activeTurnId.trans (congrArg (· + 1) hactive)).symm
  · rintro tail ⟨⟩

/-- A flow that is neither a stream, a list nor a loop. -/
theorem Flow.ok_of_plain (hblind : new.Blind → new.chatId = selected)
    (hresume : ∀ tail, new ≠ .resume tail) (hsend : ∀ turn, new ≠ .send turn)
    (hlisting : ∀ chatId caller, new ≠ .listing chatId caller)
    (htyping : ∀ started chatId, new ≠ .typing started chatId) :
    new.Ok draws selected activeTurnId generation := by
  refine ⟨hblind, fun tail hsame => absurd hsame (hresume tail),
    fun turn hsame => absurd hsame (hsend turn),
    fun chatId turn hsame => absurd hsame (hlisting chatId (some turn)),
    fun started chatId hsame => absurd hsame (htyping started chatId), fun row hrow => ?_⟩
  cases new with
  | resume tail => exact absurd rfl (hresume tail)
  | send turn => exact absurd rfl (hsend turn)
  | _ => cases hrow

theorem Kept.send (h : Kept draws page) {text : Text} {hasUploads : Bool} {uuid stamp : Nat}
    (huuid : draws uuid = page.selected) : Kept draws (page.send text hasUploads uuid stamp) := by
  unfold Page.send
  split
  · next chatId hselected hbusy =>
      split
      · have hthere := (abortResume_fields page).1.trans hselected
        refine h.abortResume.spawn (Flow.ok_of_plain (fun _ => hthere.symm) ?_ ?_ ?_ ?_) ?_ <;> simp
      · refine h.spawn (Flow.ok_of_plain (fun _ => hselected.symm) ?_ ?_ ?_ ?_) ?_ <;> simp
  · exact h.launch huuid

/-! ### A steered message -/

theorem insertSteered_rows (partialAssistant : Option Row) (userMessage : Row)
    (hrows : ∀ row ∈ page.messages, row.Fits draws selected)
    (hsplit : ∀ row ∈ partialAssistant, row.Fits draws selected)
    (huser : userMessage.Fits draws selected) :
    ∀ row ∈ page.insertSteered partialAssistant userMessage, row.Fits draws selected := by
  unfold Page.insertSteered
  dsimp only
  split
  · next index hindex =>
      intro row hrow
      rcases List.mem_append.mp hrow with hbefore | hrow
      · exact hrows row (List.mem_of_mem_take hbefore)
      · rcases List.mem_append.mp hrow with hfirst | hrow
        · exact hsplit row (Option.mem_toList.mp hfirst)
        · rcases List.mem_cons.mp hrow with rfl | hafter
          · exact huser
          · exact hrows row (List.mem_of_mem_drop hafter)
  · intro row hrow
    rcases List.mem_append.mp hrow with hbefore | hlast
    · exact hrows row hbefore
    · exact List.mem_singleton.mp hlast ▸ huser

theorem Kept.steered (h : Kept draws page) {chatId : Nat} (hselected : page.selected = some chatId)
    (text : Text) (stamp : Nat) : Kept draws (page.steered chatId text stamp) := by
  have htypes : Types draws page page.typerFlush := types_typerFlush page
  have hflushed := h.types htypes
  have hfits {row : Row} (hchat : row.chatId = some chatId) (hclient : row.clientId = none) :
      row.Fits draws page.typerFlush.selected := by
    refine ⟨fun other _ clientId hsome => ?_, fun other hother => ?_⟩
    · rw [hclient] at hsome
      cases hsome
    · exact hchat.trans ((hselected.symm.trans htypes.selected.symm).trans hother)
  unfold Page.steered
  dsimp only
  split
  · have hinserted := insertSteered_rows none
      { id := stamp, chatId := some chatId, role := 1, text := text } hflushed.rows
      (by rintro row ⟨⟩) (hfits rfl rfl)
    exact Kept.saveCurrentLiveDraft ⟨hflushed.base, hflushed.opened, hinserted, hflushed.drafts,
      hflushed.streaming⟩
  · have hinserted := insertSteered_rows
      (some { id := page.typerFlush.placeholderSeq, chatId := some chatId, role := 2
              text := page.typerFlush.typer.displayed, isPartial := true })
      { id := stamp, chatId := some chatId, role := 1, text := text } hflushed.rows
      (by rintro row ⟨⟩; exact hfits rfl rfl) (hfits rfl rfl)
    refine Kept.saveCurrentLiveDraft (Kept.types ?_ (types_typerReset _))
    exact ⟨hflushed.base, hflushed.opened, hinserted, hflushed.drafts, hflushed.streaming⟩

/-! ### The stale list -/

theorem Flow.Idle.abort (h : flow.Idle selected activeTurnId) :
    flow.abort.Idle selected activeTurnId := by
  cases flow with
  | resume tail => exact ⟨h.1, by rintro ⟨⟩⟩
  | _ => exact h

theorem Flow.Idle.nextTurn (h : flow.Idle selected activeTurnId)
    (hok : flow.Ok draws selected activeTurnId generation) :
    flow.Idle selected (activeTurnId + 1) := by
  cases flow with
  | listing chatId caller =>
      cases caller with
      | none => trivial
      | some turn =>
          have hle := (hok.caller chatId turn rfl).2.1
          exact fun hsame => absurd (hsame ▸ hle) (by omega)
  | send turn =>
      have hle := (hok.send turn rfl).2.1
      exact ⟨h.1, fun hsame => absurd (hsame ▸ hle) (by omega)⟩
  | _ => exact h

theorem Stale.spawn (h : Stale draws page)
    (hnew : new.Ok draws page.selected page.activeTurnId page.typer.generation)
    (hnot : ∀ tail, new ≠ .resume tail) (hidle : new.Idle page.selected page.activeTurnId) :
    Stale draws (page.spawn new) := by
  refine ⟨Base.spawn h.base hnew fun tail hsame => absurd hsame (hnot tail), ?_, h.formed, h.drafts,
    h.streaming, ?_, fun hflow => ?_⟩
  · exact h.opened.spawn (h.base.unused le_rfl) fun tail hsame => absurd hsame (hnot tail)
  · obtain ⟨list, chatId, caller, hlisting⟩ := h.listing
    have hne : list ≠ page.nextFlow := (Base.lt h.base hlisting).ne
    exact ⟨list, chatId, caller, (Function.update_of_ne hne _ _).trans hlisting⟩
  · rcases of_update_some hflow with ⟨-, rfl⟩ | ⟨-, hbefore⟩
    · exact hidle
    · exact h.idle hbefore

theorem Stale.abortResume (h : Stale draws page) : Stale draws page.abortResume := by
  obtain ⟨flows, hclosed⟩ := Page.Base.abortResume h.base
  rw [hclosed.eq]
  refine ⟨hclosed.base none, hclosed.opened page.selected, h.formed, h.drafts, h.streaming, ?_,
    fun hflow => ?_⟩
  · obtain ⟨list, chatId, caller, hlisting⟩ := h.listing
    exact ⟨list, chatId, caller, (hclosed.kept hlisting).elim id id⟩
  · obtain ⟨old, hold, rfl | rfl⟩ := hclosed.known hflow
    · exact h.idle hold
    · exact (h.idle hold).abort

/-! ### The other actions -/

theorem snapshot_rows (h : Kept draws page) :
    ∀ row ∈ page.snapshot, row.Fits draws page.selected := by
  unfold Page.snapshot
  split
  · exact h.rows
  · split
    · exact fun row hrow => h.rows row (List.mem_of_mem_filter hrow)
    · refine map_rows h.rows fun row hrow => ?_
      split
      · exact hrow.setText _
      · exact hrow

theorem Inv.closeTurn (h : Inv draws page) : Inv draws page.closeTurn := by
  rcases h with hkept | hstale
  · refine .inl ⟨Base.nextTurn hkept.base, hkept.opened, snapshot_rows hkept, hkept.drafts, ?_⟩
    rintro clientId ⟨⟩
  · have hsame : page.snapshot = page.messages := by
      unfold Page.snapshot
      rw [hstale.streaming]
    refine .inr ⟨Base.nextTurn hstale.base, hstale.opened, fun row hrow => ?_, hstale.drafts, rfl,
      hstale.listing, fun hflow => (hstale.idle hflow).nextTurn (hstale.base.ok hflow)⟩
    exact hstale.formed row (hsame ▸ hrow)

theorem Inv.types (h : Inv draws before) (htypes : Types draws before after) : Inv draws after :=
  h.imp (fun hkept => hkept.types htypes) fun hstale => hstale.types htypes

theorem Inv.abortResume (h : Inv draws page) : Inv draws page.abortResume :=
  h.imp Kept.abortResume Stale.abortResume

theorem Inv.spawn (h : Inv draws page)
    (hnew : new.Ok draws page.selected page.activeTurnId page.typer.generation)
    (hnot : ∀ tail, new ≠ .resume tail) (hidle : new.Idle page.selected page.activeTurnId) :
    Inv draws (page.spawn new) :=
  h.imp (fun hkept => hkept.spawn hnew hnot) fun hstale => hstale.spawn hnew hnot hidle

theorem Inv.removeFlow (h : Inv draws page) (hold : page.flows id = some old)
    (hnot : ∀ chatId caller, old ≠ .listing chatId caller) : Inv draws (page.setFlow id none) :=
  h.imp (fun hkept => hkept.removeFlow hold hnot) fun hstale => hstale.removeFlow hold hnot

theorem Inv.interrupt (h : Inv draws page) (hnext : page.interrupt = some next) :
    Inv draws next := by
  obtain ⟨chatId, hselected, rfl⟩ := Option.map_eq_some_iff.mp hnext
  refine ((h.abortResume.closeTurn).types (types_typerReset _)).spawn
    (Flow.ok_of_plain ?_ ?_ ?_ ?_ ?_) ?_ trivial
  · exact False.elim
  all_goals simp

theorem Inv.loadOlderMessages (h : Inv draws page) (hnext : page.loadOlderMessages = some next) :
    Inv draws next := by
  unfold Page.loadOlderMessages at hnext
  split at hnext
  · next chatId oldest rest hselected hmessages =>
      split at hnext
      · cases hnext
      · cases hnext
        have hasked : Inv draws ({ page with loadingOlder := true } : Page) := by
          refine h.imp (fun hkept => ?_) fun hstale => ?_
          · exact ⟨hkept.base, hkept.opened, hkept.rows, hkept.drafts, hkept.streaming⟩
          · exact ⟨hstale.base, hstale.opened, hstale.formed, hstale.drafts, hstale.streaming,
              hstale.listing, hstale.idle⟩
        refine hasked.spawn (Flow.ok_of_plain (fun _ => hselected.symm) ?_ ?_ ?_ ?_) ?_ trivial
        all_goals simp
  · cases hnext

/-! ### The answers of `listMessages` -/

theorem Inv.listed (h : Inv draws page) {chatId : Nat} {caller : Option Send} {rows : List Row}
    (hold : page.flows id = some (.listing chatId caller))
    (hrows : ∀ row ∈ rows, row.Fits draws (some chatId)) (stamp : Nat) :
    Kept draws (page.listed id chatId caller rows stamp) := by
  have hselected : page.selected = some chatId := ((h.base.ok hold).blind trivial).symm
  unfold Page.listed
  dsimp only
  generalize hshown : ({ page with
      messages := rows, hasMoreOlder := decide (Page.pageSize ≤ rows.length) } : Page).setFlow id
    none = shown
  have hbase : shown.Base draws := by
    subst hshown
    exact Base.remove h.base id
  have hfields : shown.selected = page.selected ∧ shown.messages = rows ∧
      shown.liveDrafts = page.liveDrafts ∧
      shown.streamingClientId = page.streamingClientId := by
    subst hshown
    exact ⟨rfl, rfl, rfl, rfl⟩
  obtain ⟨hthere, hmessages, hdrafts, hstreaming⟩ := hfields
  refine Kept.finish (kept_startResume hbase (hthere.trans hselected) ?_ ?_ ?_ ?_ stamp) caller
  · rw [hmessages, hthere, hselected]
    exact hrows
  · rw [hdrafts]
    exact h.drafts
  · rw [hstreaming, hthere]
    exact h.streaming
  · rintro draft ⟨⟩

theorem Inv.olderListed (h : Inv draws page) {chatId : Nat} {beforeId : Int} {rows : List Row}
    (hold : page.flows id = some (.older chatId beforeId))
    (hrows : ∀ row ∈ rows, row.Fits draws (some chatId)) :
    Inv draws (page.olderListed id rows) := by
  have hselected : some chatId = page.selected := (h.base.ok hold).blind trivial
  have hshown : Inv draws ({ page with
      messages := rows ++ page.messages
      hasMoreOlder := decide (Page.pageSize ≤ rows.length)
      loadingOlder := false } : Page) := by
    refine h.imp (fun hkept => ?_) fun hstale => ?_
    · refine ⟨hkept.base, hkept.opened, fun row hrow => ?_, hkept.drafts, hkept.streaming⟩
      rcases List.mem_append.mp hrow with hadded | hbefore
      · exact hselected ▸ hrows row hadded
      · exact hkept.rows row hbefore
    · refine ⟨hstale.base, hstale.opened, fun row hrow => ?_, hstale.drafts, hstale.streaming,
        hstale.listing, hstale.idle⟩
      rcases List.mem_append.mp hrow with hadded | hbefore
      · exact (hrows row hadded).1
      · exact hstale.formed row hbefore
  exact hshown.removeFlow hold (by rintro _ _ ⟨⟩)

/-! ### What goes on while the list is on its way -/

theorem Stale.setFlow (h : Stale draws page) (hold : page.flows id = some old)
    (hleads : Flow.Leads draws page.selected page.activeTurnId page.typer.generation old new)
    (hidle : new.Idle page.selected page.activeTurnId) :
    Stale draws (page.setFlow id (some new)) := by
  refine ⟨Base.replace h.base hold hleads, h.opened.replace hold hleads, h.formed, h.drafts,
    h.streaming, hleads.listing_kept hold h.listing, fun hother => ?_⟩
  rcases of_update_some hother with ⟨-, rfl⟩ | ⟨-, hbefore⟩
  · exact hidle
  · exact h.idle hbefore

theorem Inv.setFlow (h : Inv draws page) (hold : page.flows id = some old)
    (hleads : Flow.Leads draws page.selected page.activeTurnId page.typer.generation old new)
    (hidle : Stale draws page → new.Idle page.selected page.activeTurnId) :
    Inv draws (page.setFlow id (some new)) :=
  h.imp (fun hkept => hkept.setFlow hold hleads) fun hstale =>
    hstale.setFlow hold hleads (hidle hstale)

/-- What the page shows of a request to come does not matter. -/
theorem Inv.setFlags (h : Inv draws page) (busy loadingOlder : Bool) :
    Inv draws { page with busy := busy, loadingOlder := loadingOlder } := by
  refine h.imp (fun hkept => ?_) fun hstale => ?_
  · exact ⟨hkept.base, hkept.opened, hkept.rows, hkept.drafts, hkept.streaming⟩
  · exact ⟨hstale.base, hstale.opened, hstale.formed, hstale.drafts, hstale.streaming,
      hstale.listing, hstale.idle⟩

theorem resumeFrame_other {tail : Resume} (hother : page.selected ≠ some tail.chatId)
    (eventId : String) (frame : Frame) :
    page.resumeFrame id tail eventId frame = page.setFlow id none := by
  rw [Page.resumeFrame, if_pos hother]

theorem resumeFailed_other {tail : Resume}
    (hrows : ∀ row ∈ page.messages, row.clientId ≠ some tail.clientId)
    (hstreaming : page.streamingClientId ≠ some tail.clientId) :
    page.resumeFailed id tail = page.setFlow id none := by
  have hdropped : page.dropRows tail.clientId = page := by
    unfold Page.dropRows
    rw [List.filter_eq_self.mpr (by simpa using hrows)]
  unfold Page.resumeFailed Page.cleanupResumeState
  rw [hdropped, if_pos hstreaming]

theorem sendOver_other {turn : Send} (hother : turn.turnId ≠ page.activeTurnId) :
    page.sendOver id turn = page.setFlow id none := by
  unfold Page.sendOver Page.finish
  exact if_neg hother

theorem sendFrame_other {turn : Send} (hother : turn.turnId ≠ page.activeTurnId)
    (eventId : String) (frame : Frame) :
    page.sendFrame id turn eventId frame = page.setFlow id none := by
  rw [Page.sendFrame, if_pos hother]

theorem sendEnded_other {turn : Send} (hother : turn.turnId ≠ page.activeTurnId) :
    page.sendEnded id turn = page.setFlow id none := by
  rw [Page.sendEnded, if_pos (by simp [hother]), sendOver_other hother]

theorem sendFailed_other {turn : Send} (hother : turn.turnId ≠ page.activeTurnId) :
    page.sendFailed id turn = page.setFlow id none := by
  rw [Page.sendFailed, if_pos hother, sendOver_other hother]

theorem Inv.resumeFrame (h : Inv draws page) {tail : Resume} {eventId : String} {frame : Frame}
    (hold : page.flows id = some (.resume tail)) (hphase : tail.phase = .awaiting)
    (haborted : tail.aborted = false)
    (hmessage : ∀ finalText row steered, frame = .done finalText (some row) steered →
      row.Fits draws (some tail.chatId)) :
    Inv draws (page.resumeFrame id tail eventId frame) := by
  rcases h with hkept | hstale
  · exact .inl (hkept.resumeFrame hold hphase hmessage)
  · have hother : page.selected ≠ some tail.chatId := fun hsame =>
      (hstale.idle hold).2 haborted hsame.symm
    rw [resumeFrame_other hother]
    exact .inr (hstale.removeFlow hold (Flow.resume_ne_listing tail))

theorem Inv.resumeDone (h : Inv draws page) {tail : Resume} {finalText : Text}
    {message : Option Row} (hold : page.flows id = some (.resume tail))
    (hphase : tail.phase = .drained finalText message) :
    Inv draws (page.resumeDone id tail finalText message) := by
  rcases h with hkept | hstale
  · exact .inl (hkept.resumeDone hold hphase)
  · have hdrains : tail.phase.Drains := by
      rw [hphase]
      trivial
    exact absurd hdrains (hstale.idle hold).1

theorem Inv.resumeFailed (h : Inv draws page) {tail : Resume}
    (hold : page.flows id = some (.resume tail)) : Inv draws (page.resumeFailed id tail) := by
  rcases h with hkept | hstale
  · exact .inl (hkept.resumeFailed hold)
  · have hdropped : Stale draws (page.dropRows tail.clientId) :=
      ⟨hstale.base, hstale.opened, dropRows_rows hstale.formed tail.clientId, hstale.drafts,
        hstale.streaming, hstale.listing, hstale.idle⟩
    have hsame : (page.dropRows tail.clientId).cleanupResumeState tail.clientId =
        page.dropRows tail.clientId := by
      unfold Page.cleanupResumeState
      rw [hdropped.streaming]
      rfl
    unfold Page.resumeFailed
    rw [hsame]
    exact .inr (hdropped.removeFlow hold (Flow.resume_ne_listing tail))

theorem Inv.sendFrame (h : Inv draws page) {turn : Send} {eventId : String} {frame : Frame}
    (hold : page.flows id = some (.send turn)) (hphase : turn.phase = .awaiting)
    (hmessage : ∀ finalText row steered, frame = .done finalText (some row) steered →
      row.Fits draws turn.chatAtSend) :
    Inv draws (page.sendFrame id turn eventId frame) := by
  rcases h with hkept | hstale
  · exact .inl (hkept.sendFrame hold hphase hmessage)
  · rw [sendFrame_other (hstale.idle hold).2]
    exact .inr (hstale.removeFlow hold (Flow.send_ne_listing turn))

theorem Inv.sendDone (h : Inv draws page) {turn : Send} {finalText : Text}
    {message : Option Row} (hold : page.flows id = some (.send turn))
    (hphase : turn.phase = .drained finalText message) :
    Inv draws (page.sendDone id turn finalText message) := by
  rcases h with hkept | hstale
  · exact .inl (hkept.sendDone hold hphase)
  · have hdrains : turn.phase.Drains := by
      rw [hphase]
      trivial
    exact absurd hdrains (hstale.idle hold).1

theorem Inv.sendEnded (h : Inv draws page) {turn : Send}
    (hold : page.flows id = some (.send turn)) (hphase : turn.phase = .awaiting) :
    Inv draws (page.sendEnded id turn) := by
  rcases h with hkept | hstale
  · exact .inl (hkept.sendEnded hold hphase)
  · rw [sendEnded_other (hstale.idle hold).2]
    exact .inr (hstale.removeFlow hold (Flow.send_ne_listing turn))

theorem Inv.sendFailed (h : Inv draws page) {turn : Send}
    (hold : page.flows id = some (.send turn)) (hphase : turn.phase = .awaiting) :
    Inv draws (page.sendFailed id turn) := by
  rcases h with hkept | hstale
  · exact .inl (hkept.sendFailed hold hphase)
  · rw [sendFailed_other (hstale.idle hold).2]
    exact .inr (hstale.removeFlow hold (Flow.send_ne_listing turn))

theorem Inv.typeOn (h : Inv draws page) {started : Nat} {chatId : Option Nat}
    (hold : page.flows id = some (.typing started chatId)) :
    Inv draws (page.typeOn id started) := by
  unfold Page.typeOn
  split
  · exact h.removeFlow hold (by rintro _ _ ⟨⟩)
  · split
    · exact h.types (types_setTyper page _ (Typewriter.generation_typeFirst page.typer).ge)
    · have hover : Inv draws (page.setTyper { page.typer with typing := false }) :=
        h.types (types_setTyper page _ le_rfl)
      exact (hover.removeFlow hold (by rintro _ _ ⟨⟩)).types (types_resolveDone _)

/-! ### A list that does not come -/

/-- Another list is on its way, or what is shown and the open tail are of the selected chat. -/
def Page.Spares (page : Page) (id : Nat) : Prop :=
  (∃ other chatId caller, other ≠ id ∧ page.flows other = some (.listing chatId caller)) ∨
    Fresh page.selected page.messages ∧
      ∀ other tail, page.flows other = some (.resume tail) → tail.aborted = false →
        some tail.chatId = page.selected

theorem Page.Spares.opened (h : page.Spares id) (hopened : Opened page.selected page.flows) :
    Opened page.selected (page.setFlow id none).flows := by
  rcases h with ⟨other, chatId, caller, hne, hlisting⟩ | ⟨-, htails⟩
  · intro _ _ _ _
    exact .inr ⟨other, chatId, caller, (Function.update_of_ne hne _ _).trans hlisting⟩
  · exact hopened.remove fun _ => htails

theorem Inv.spare (h : Inv draws page) (hspares : page.Spares id) :
    Inv draws (page.setFlow id none) := by
  have hopened := hspares.opened (h.elim Kept.opened Stale.opened)
  rcases h with hkept | hstale
  · exact .inl ⟨Base.remove hkept.base id, hopened, hkept.rows, hkept.drafts, hkept.streaming⟩
  · rcases hspares with ⟨other, chatId, caller, hne, hlisting⟩ | ⟨hfresh, -⟩
    · refine .inr ⟨Base.remove hstale.base id, hopened, hstale.formed, hstale.drafts,
        hstale.streaming, ⟨other, chatId, caller, ?_⟩,
        fun hother => hstale.idle (of_update_none hother).2⟩
      exact (Function.update_of_ne hne _ _).trans hlisting
    · have hkept := Inv.kept (.inr hstale) hfresh
      exact .inl ⟨Base.remove hkept.base id, hopened, hkept.rows, hkept.drafts, hkept.streaming⟩

/-- A flow begins in the place of one that is over. -/
theorem Base.put (h : Base draws selected activeTurnId resumeAbort generation nextFlow flows)
    (hlt : id < nextFlow) (hnew : new.Ok draws selected activeTurnId generation)
    (hnot : ∀ tail, new ≠ .resume tail) :
    Base draws selected activeTurnId resumeAbort generation nextFlow
      (Function.update flows id (some new)) := by
  refine ⟨fun {other flow} hother => ?_, fun {other} hle => ?_,
    fun {other tail} hother haborted => ?_⟩
  · rcases of_update_some hother with ⟨-, rfl⟩ | ⟨-, hbefore⟩
    · exact hnew
    · exact h.ok hbefore
  · rw [Function.update_of_ne (by omega)]
    exact h.unused hle
  · rcases of_update_some hother with ⟨-, hsame⟩ | ⟨-, hbefore⟩
    · exact absurd hsame.symm (hnot tail)
    · exact h.tails hbefore haborted

/-- The reload of the list fails: its `send` tries again or gives up. -/
theorem Inv.reloadFailed (h : Inv draws page) {chatId : Nat} {turn : Send}
    (hold : page.flows id = some (.listing chatId (some turn))) (hspares : page.Spares id) :
    Inv draws (page.sendFailed id turn) := by
  have hturn := (h.base.ok hold).caller chatId turn rfl
  by_cases hactive : turn.turnId = page.activeTurnId
  · have hkept : Kept draws page := h.resolve_right fun hstale => hstale.idle hold hactive
    have hleft : Kept draws (page.setFlow id none) :=
      ⟨Base.remove h.base id, hspares.opened hkept.opened, hkept.rows, hkept.drafts,
        hkept.streaming⟩
    unfold Page.sendFailed
    rw [if_neg (by simpa using hactive)]
    split
    · generalize hagain : ({ turn with
        stage := .retry, terminalSeen := false, phase := .awaiting } : Send) = again
      have hnew : (Flow.send again).Ok draws page.selected page.activeTurnId
          page.typer.generation := by
        subst hagain
        refine ⟨False.elim, ?_, ?_, ?_, ?_, ?_⟩
        · rintro tail ⟨⟩
        · rintro _ ⟨⟩
          exact hturn
        · rintro other _ ⟨⟩
        · rintro started other ⟨⟩
        · rintro row ⟨⟩
      have hput := Base.put hleft.base (Base.lt h.base hold) hnew (by rintro tail ⟨⟩)
      have hgone : (page.setFlow id none).flows id = none := by
        rw [flows_setFlow, Function.update_self]
      have hopened : Opened page.selected
          (Function.update (page.setFlow id none).flows id (some (.send again))) :=
        hleft.opened.spawn hgone (by rintro tail ⟨⟩)
      rw [flows_setFlow, Function.update_idem] at hput hopened
      exact .inl ⟨hput, hopened, hkept.rows, hkept.drafts, hkept.streaming⟩
    · have hcomm : (page.abandon turn).setFlow id none = (page.setFlow id none).abandon turn := by
        unfold Page.abandon Page.dropLiveDraft
        cases turn.chatAtSend <;> rfl
      unfold Page.sendOver
      rw [hcomm]
      exact .inl ((hleft.abandon turn).finish (some turn))
  · rw [sendFailed_other hactive]
    exact h.spare hspares

/-! ### Every run -/

/-- What the server sends is of the chat it is asked for, and a uuid is drawn for one chat. -/
def Served (draws : Nat → Option Nat) (page : Page) : Action → Prop
  | .send _ _ uuid _ | .steered _ _ uuid _ => draws uuid = page.selected
  | .listed id rows _ => ∀ flow, page.flows id = some flow →
      ∀ row ∈ rows, row.Fits draws flow.chatId
  | .frame id _ frame => ∀ flow, page.flows id = some flow →
      ∀ finalText row steered, frame = .done finalText (some row) steered →
        row.Fits draws flow.chatId
  | _ => True

/-- No chat is selected over an await that is blind to it, nothing is sent under the list of another
chat, and what fails leaves nothing of another chat. -/
def Careful (page : Page) : Action → Prop
  | .select chatId => ∀ id flow, page.flows id = some flow → flow.Blind → flow.chatId = some chatId
  | .send .. => Fresh page.selected page.messages
  | .listFailed id => ∀ chatId caller, page.flows id = some (.listing chatId caller) →
      page.Spares id
  | .failed id => ∀ tail, page.flows id = some (.resume tail) →
      some tail.chatId = page.selected ∨ ∀ row ∈ page.messages, row.clientId ≠ some tail.clientId
  | _ => True

theorem inv_init (draws : Nat → Option Nat) : Inv draws {} := by
  refine .inl ⟨⟨?_, fun _ => rfl, ?_⟩, ?_, ?_, ?_, ?_⟩
  · rintro id flow ⟨⟩
  · rintro id tail ⟨⟩
  · rintro id tail ⟨⟩
  · rintro row ⟨⟩
  · rintro chatId draft ⟨⟩
  · rintro clientId ⟨⟩

/-- A stream that awaits its next frame. -/
theorem Inv.awaitResume (h : Inv draws page) {tail : Resume}
    (hold : page.flows id = some (.resume tail)) :
    Inv draws (page.setFlow id (some (.resume { tail with phase := .awaiting }))) := by
  refine h.setFlow hold ((h.base.ok hold).leads_resume rfl rfl rfl ?_ ?_) fun hstale => ?_
  · exact False.elim
  · rintro row ⟨⟩
  · exact ⟨False.elim, (hstale.idle hold).2⟩

theorem Inv.awaitSend (h : Inv draws page) {turn : Send}
    (hold : page.flows id = some (.send turn)) :
    Inv draws (page.setFlow id (some (.send { turn with phase := .awaiting }))) := by
  refine h.setFlow hold ((h.base.ok hold).leads_send rfl rfl rfl ?_ ?_) fun hstale => ?_
  · exact False.elim
  · rintro row ⟨⟩
  · exact ⟨False.elim, (hstale.idle hold).2⟩

/-- While a message is under way, the list is of the selected chat. -/
theorem Inv.kept_of_not_idle (h : Inv draws page) (hold : page.flows id = some flow)
    (hidle : ¬flow.Idle page.selected page.activeTurnId) : Kept draws page :=
  h.resolve_right fun hstale => hidle (hstale.idle hold)

theorem Inv.steerAnswered (h : Inv draws page) {chatId : Nat} {text : Text} {accepted : Bool}
    {uuid stamp : Nat} (hold : page.flows id = some (.steering chatId text))
    (huuid : draws uuid = page.selected)
    (hnext : resumed page id (.steering chatId text) (.steered id accepted uuid stamp) =
      some next) : Inv draws next := by
  have hkept := h.kept_of_not_idle hold False.elim
  have hleft := hkept.removeFlow hold (by rintro _ _ ⟨⟩)
  have hselected : page.selected = some chatId := ((h.base.ok hold).blind trivial).symm
  cases accepted with
  | true =>
      have hsteered : (page.setFlow id none).steered chatId text stamp = next := by
        simpa [resumed, Page.setFlow, hselected] using hnext
      exact hsteered ▸ .inl (hleft.steered hselected text stamp)
  | false =>
      have hlaunched : (page.setFlow id none).launch text uuid stamp = next := by
        simpa [resumed] using hnext
      exact hlaunched ▸ .inl (hleft.launch huuid)

theorem Inv.resumed (h : Inv draws page) {action : Action} (hold : page.flows id = some flow)
    (hflow : action.flow = some id) (hserved : Served draws page action)
    (hcareful : Careful page action) (hnext : resumed page id flow action = some next) :
    Inv draws next := by
  unfold WebChat.resumed at hnext
  split at hnext
  · next chatId caller _ rows stamp =>
      cases hflow
      cases hnext
      exact .inl (h.listed hold (hserved _ hold) stamp)
  · next chatId _ =>
      cases hflow
      cases hnext
      exact h.spare (hcareful chatId none hold)
  · next chatId turn _ =>
      cases hflow
      cases hnext
      exact h.reloadFailed hold (hcareful chatId (some turn) hold)
  · cases hflow
    cases hnext
    exact h.olderListed hold (hserved _ hold)
  · cases hnext
    exact (h.setFlags page.busy false).removeFlow hold (by rintro _ _ ⟨⟩)
  · cases hflow
    exact h.steerAnswered hold hserved hnext
  · cases hnext
    have hleft := (h.kept_of_not_idle hold False.elim).removeFlow hold (by rintro _ _ ⟨⟩)
    exact .inl (hleft.launch hserved)
  · next chatId _ succeeds =>
      cases hnext
      exact (h.setFlags (page.busy && !succeeds) page.loadingOlder).removeFlow hold
        (by rintro _ _ ⟨⟩)
  · next tail _ eventId frame =>
      split at hnext
      · next hopen =>
          cases hflow
          cases hnext
          obtain ⟨hphase, haborted⟩ : tail.phase = .awaiting ∧ tail.aborted = false := by
            simpa using hopen
          exact h.resumeFrame hold hphase haborted (hserved _ hold)
      · cases hnext
  · next tail _ =>
      split at hnext
      · cases hnext
        exact h.removeFlow hold (Flow.resume_ne_listing tail)
      · cases hnext
  · split at hnext
    · cases hnext
      exact h.resumeFailed hold
    · cases hnext
  · split at hnext
    · cases hnext
      exact h.awaitResume hold
    · cases hnext
  · next tail _ =>
      split at hnext
      · next finalText message hphase =>
          cases hnext
          exact h.resumeDone hold hphase
      · cases hnext
  · next turn _ eventId frame =>
      split at hnext
      · next hphase =>
          cases hflow
          cases hnext
          exact h.sendFrame hold hphase (hserved _ hold)
      · cases hnext
  · split at hnext
    · next hphase =>
        cases hnext
        exact h.sendEnded hold hphase
    · cases hnext
  · split at hnext
    · next hphase =>
        cases hnext
        exact h.sendFailed hold hphase
    · cases hnext
  · split at hnext
    · cases hnext
      exact h.awaitSend hold
    · cases hnext
  · split at hnext
    · next finalText message hphase =>
        cases hnext
        exact h.sendDone hold hphase
    · cases hnext
  · cases hnext
    exact h.typeOn hold
  · cases hnext

theorem step_resumed {action : Action} (hflow : action.flow = some id)
    (hnext : step page action = some next) :
    ∃ flow, page.flows id = some flow ∧ resumed page id flow action = some next := by
  have hbind : (action.flow.bind fun id => (page.flows id).bind fun flow =>
      resumed page id flow action) = some next := by
    cases action with
    | select chatId => cases hflow
    | send text hasUploads uuid stamp => cases hflow
    | loadOlder => cases hflow
    | interrupt => cases hflow
    | _ => exact hnext
  rw [hflow] at hbind
  exact Option.bind_eq_some_iff.mp hbind

/-- **The step lemma.** -/
theorem Inv.step (h : Inv draws page) {action : Action} (hserved : Served draws page action)
    (hcareful : Careful page action) (hnext : step page action = some next) : Inv draws next := by
  cases hflow : action.flow with
  | some id =>
      obtain ⟨flow, hold, hresumed⟩ := step_resumed hflow hnext
      exact h.resumed hold hflow hserved hcareful hresumed
  | none =>
      cases action with
      | select chatId =>
          cases hnext
          exact h.selectChat fun hfound hisBlind => hcareful _ _ hfound hisBlind
      | send text hasUploads uuid stamp =>
          cases hnext
          exact .inl ((h.kept hcareful).send hserved)
      | loadOlder => exact h.loadOlderMessages hnext
      | interrupt => exact h.interrupt hnext
      | _ => cases hflow

/-! ### What is shown -/

/-- A flow of another chat changes nothing that is shown. -/
theorem Inv.resumed_other (h : Inv draws page) {action : Action} (hold : page.flows id = some flow)
    (hother : flow.chatId ≠ page.selected) (hflow : action.flow = some id)
    (hcareful : Careful page action) (hnext : WebChat.resumed page id flow action = some next) :
    next.toView = page.toView := by
  have hok := h.base.ok hold
  have hsighted : ¬flow.Blind := fun hblind => hother (hok.blind hblind)
  have hturn {turn : Send} (hsame : flow = .send turn) : turn.turnId ≠ page.activeTurnId := by
    subst hsame
    exact fun hactive => hother ((hok.send turn rfl).2.2 hactive)
  unfold WebChat.resumed at hnext
  split at hnext
  · exact absurd trivial hsighted
  · exact absurd trivial hsighted
  · exact absurd trivial hsighted
  · exact absurd trivial hsighted
  · exact absurd trivial hsighted
  · exact absurd trivial hsighted
  · exact absurd trivial hsighted
  · cases hnext
    rfl
  · next tail _ eventId frame =>
      split at hnext
      · cases hnext
        rw [resumeFrame_other (fun hsame => hother hsame.symm)]
        rfl
      · cases hnext
  · split at hnext
    · cases hnext
      rfl
    · cases hnext
  · next tail _ =>
      split at hnext
      · cases hflow
        cases hnext
        have hstreaming : page.streamingClientId ≠ some tail.clientId := fun hsame =>
          hother ((hok.resume tail rfl).symm.trans (h.streaming hsame))
        rcases hcareful tail hold with hselected | hrows
        · exact absurd hselected hother
        · rw [resumeFailed_other hrows hstreaming]
          rfl
      · cases hnext
  · split at hnext
    · cases hnext
      rfl
    · cases hnext
  · split at hnext
    · next hphase => exact absurd (by rw [Flow.Blind, hphase]; trivial) hsighted
    · cases hnext
  · split at hnext
    · cases hnext
      rw [sendFrame_other (hturn rfl)]
      rfl
    · cases hnext
  · split at hnext
    · cases hnext
      rw [sendEnded_other (hturn rfl)]
      rfl
    · cases hnext
  · split at hnext
    · cases hnext
      rw [sendFailed_other (hturn rfl)]
      rfl
    · cases hnext
  · split at hnext
    · cases hnext
      rfl
    · cases hnext
  · split at hnext
    · next hphase => exact absurd (by rw [Flow.Blind, hphase]; trivial) hsighted
    · cases hnext
  · next started chatId _ =>
      cases hnext
      have hlate : started ≠ page.typer.generation := fun hsame =>
        hother ((hok.typing started chatId rfl).2 hsame)
      rw [Page.typeOn, if_pos hlate]
      rfl
  · cases hnext

theorem displayMessages_fresh {view : View} (hfresh : Fresh selected view.messages) :
    Fresh selected view.displayMessages := by
  intro chatId hselected
  have hrows := hfresh chatId hselected
  unfold View.displayMessages
  dsimp only
  split
  · exact fun row hrow => hrows row (List.mem_of_mem_filter hrow)
  · refine map_rows (fun row hrow => hrows row (List.mem_of_mem_filter hrow)) fun row hrow => ?_
    split <;> exact hrow

/-- What belongs to another chat changes nothing that is shown, and unless a list is on its way the
rows drawn are those of the selected chat. -/
def Unmixed (Allowed : Page → Action → Prop) (page : Page) : Prop :=
  (∀ action next id flow, Allowed page action → action.flow = some id →
    page.flows id = some flow → flow.chatId ≠ page.selected → step page action = some next →
      next.toView = page.toView) ∧
  ((∀ id chatId caller, page.flows id ≠ some (.listing chatId caller)) →
    Fresh page.selected page.displayMessages)

theorem Inv.unmixed (h : Inv draws page) :
    Unmixed (fun page action => Served draws page action ∧ Careful page action) page := by
  constructor
  · intro action next id flow hallowed hflow hold hother hnext
    obtain ⟨found, hfound, hresumed⟩ := step_resumed hflow hnext
    cases hold.symm.trans hfound
    exact h.resumed_other hold hother hflow hallowed.2 hresumed
  · intro hlisted
    rcases h with hkept | hstale
    · exact displayMessages_fresh fun chatId hselected row hrow =>
        (hkept.rows row hrow).2 chatId hselected
    · obtain ⟨id, chatId, caller, hlisting⟩ := hstale.listing
      exact absurd hlisting (hlisted id chatId caller)

/-- **The views of two chats do not mix** in a run that takes care. -/
theorem views_do_not_mix (hreach : Reach step
      (fun page action => Served draws page action ∧ Careful page action) {} page) :
    Unmixed (fun page action => Served draws page action ∧ Careful page action) page := by
  refine Inv.unmixed (hreach.invariant (Inv draws) (inv_init draws) ?_)
  intro before action after hbefore hallowed hnext
  exact hbefore.step hallowed.1 hallowed.2 hnext

/-- An answer of a chat, as the server lists it. -/
def answerOf (chatId : Nat) : Row :=
  { id := chatId, chatId := some chatId, role := 2, text := "Hi".toList }

theorem answerOf_fits (draws : Nat → Option Nat) (chatId : Nat) :
    ∀ row ∈ [answerOf chatId], row.Fits draws (some chatId) := by
  intro row hrow
  obtain rfl := List.mem_singleton.mp hrow
  refine ⟨fun other _ clientId hclient => ?_, fun other hsame => hsame⟩
  cases hclient

/-- The second chat is selected once the list of the first is there. -/
def inTurn : List Action :=
  [.select 1, .listed 0 [answerOf 1] 0, .select 2, .listed 2 [answerOf 2] 0]

/-- The second chat is selected first, and the list of the first comes last. -/
def outOfTurn : List Action :=
  [.select 1, .select 2, .listed 1 [answerOf 2] 0, .listed 0 [answerOf 1] 0, .ended 3, .failed 2]

theorem chats_in_turn : ∃ page, run step {} inTurn = some page ∧
    page.displayMessages = [answerOf 2] ∧ Unmixed (fun page action =>
      Served (fun _ => none) page action ∧ Careful page action) page := by
  have hallowed : RunAllowed step (fun page action =>
      Served (fun _ => none) page action ∧ Careful page action) {} inTurn := by
    refine ⟨⟨trivial, ?_⟩, ?_⟩
    · rintro id flow ⟨⟩
    rintro _ ⟨⟩
    refine ⟨⟨?_, trivial⟩, ?_⟩
    · rintro _ ⟨⟩
      exact answerOf_fits _ 1
    rintro _ ⟨⟩
    refine ⟨⟨trivial, fun id flow hflow hblind => ?_⟩, ?_⟩
    · -- the tail of the first chat awaits its next frame
      rcases id with _ | _ | id
      · cases hflow
      · cases hflow
        exact hblind.elim
      · cases hflow
    rintro _ ⟨⟩
    refine ⟨⟨?_, trivial⟩, fun _ _ => trivial⟩
    rintro _ ⟨⟩
    exact answerOf_fits _ 2
  exact ⟨_, rfl, rfl, views_do_not_mix (reach_of_run rfl hallowed)⟩

theorem late_list_shown : ¬∀ draws page, Reach step (Served draws) {} page →
    Unmixed (Served draws) page := by
  have hallowed : RunAllowed step (Served fun _ => none) {} outOfTurn := by
    refine ⟨trivial, ?_⟩
    rintro _ ⟨⟩
    refine ⟨trivial, ?_⟩
    rintro _ ⟨⟩
    refine ⟨?_, ?_⟩
    · rintro _ ⟨⟩
      exact answerOf_fits _ 2
    rintro _ ⟨⟩
    refine ⟨?_, ?_⟩
    · rintro _ ⟨⟩
      exact answerOf_fits _ 1
    rintro _ ⟨⟩
    refine ⟨trivial, ?_⟩
    rintro _ ⟨⟩
    exact ⟨trivial, fun _ _ => trivial⟩
  -- every await is over, and what is left is the first chat's under the second
  have hrest : ∃ page, run step {} outOfTurn = some page ∧ page.selected = some 2 ∧
      page.displayMessages = [answerOf 1] ∧ ∀ id, page.flows id = none := by
    refine ⟨_, rfl, rfl, rfl, fun id => ?_⟩
    rcases id with _ | _ | _ | _ | id <;> rfl
  obtain ⟨page, hrun, hselected, hshown, hover⟩ := hrest
  intro hall
  have hfresh := (hall _ page (reach_of_run hrun hallowed)).2 fun id chatId caller hlisting => by
    rw [hover id] at hlisting
    cases hlisting
  have hrow : (answerOf 1).chatId = some 2 := by
    refine hfresh 2 hselected (answerOf 1) ?_
    rw [hshown]
    exact List.mem_singleton_self _
  exact absurd hrow (by decide)

end CodexServer.WebChat
