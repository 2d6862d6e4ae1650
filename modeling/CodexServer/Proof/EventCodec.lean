import CodexServer.EventCodec
import CodexServer.Proof.JsonTree
import CodexServer.Proof.Surfaces

/-!
# Events come back from the bus

Validation undoes the dump of each class, and the discriminator alone says which class that is. So
a frame that is accepted means what the frame of its event means. The translator takes the arguments
of a tool call from the notification as they are; what was read as JSON can be written as JSON.
-/

open CodexServer.Outcome (isOutput onItemCompleted_isOutput onTurnCompleted_failure)

namespace CodexServer.EventCodec

variable {isNumber : ℚ → Prop} {python : Python} {event : TypedEvent}
  {frame payload fields : Fields} {item value : Json}

/-! ### The two directions -/

theorem validateAttachment_dump (attachment : Attachment) :
    validateAttachment (dumpAttachment attachment) = some attachment := by
  obtain ⟨kind, source, caption⟩ := attachment
  cases kind <;> rfl

theorem validateAttachments_dump (attachments : List Attachment) :
    validateAttachments (some (.array (attachments.map dumpAttachment))) = some attachments := by
  unfold validateAttachments
  induction attachments with
  | nil => rfl
  | cons attachment attachments ih =>
      dsimp only at ih ⊢
      rw [List.map_cons, List.mapM_cons, validateAttachment_dump, ih]
      rfl

theorem coerceError_dump (error : Option ToolError) :
    coerceError (some (error.elim .null dumpError)) = .ok error := by
  cases error with
  | none => rfl
  | some error =>
      obtain ⟨message, code⟩ := error
      cases code <;> rfl

theorem validateToolResult_dump (name text : String) (attachments : List Attachment)
    (error : Option ToolError) :
    validateToolResult (modelDump (.toolResult name text attachments error)) =
      some (.toolResult name text attachments error) := by
  have hname : required "name" (modelDump (.toolResult name text attachments error)) = some name :=
    rfl
  have htext : defaulted "text" "" (modelDump (.toolResult name text attachments error)) =
      some text := rfl
  have hattachments : validateAttachments
      ((modelDump (.toolResult name text attachments error)).lookup "attachments") =
        some attachments := validateAttachments_dump attachments
  have herror : coerceError ((modelDump (.toolResult name text attachments error)).lookup "error") =
      .ok error := coerceError_dump error
  have honly : onlyFields ["name", "text", "attachments", "error"]
      (modelDump (.toolResult name text attachments error)) = true := rfl
  unfold validateToolResult
  rw [if_pos honly, hname, htext, hattachments, herror]
  rfl

theorem validateError_dump (code : String) (detail : Option String) :
    validateError (modelDump (.error code detail)) = some (.error code detail) := by
  cases detail <;> rfl

/-- The class under the tag of an event undoes its dump. -/
theorem validate_modelDump (event : TypedEvent) : ∃ modelValidate,
    tagToClass.lookup event.typeTag = some modelValidate ∧
      modelValidate (modelDump event) = some event := by
  cases event with
  | token delta => exact ⟨validateToken, rfl, rfl⟩
  | toolCall name args => exact ⟨validateToolCall, rfl, rfl⟩
  | toolResult name text attachments error =>
      exact ⟨validateToolResult, rfl, validateToolResult_dump name text attachments error⟩
  | done finalText => exact ⟨validateDone, rfl, rfl⟩
  | error code detail => exact ⟨validateError, rfl, validateError_dump code detail⟩

/-- The dump has no discriminator of its own. -/
theorem payload_eventToFrame (event : TypedEvent) :
    (eventToFrame event).filter (fun field => field.1 ≠ "type") = modelDump event := by
  cases event <;> rfl

theorem frameToEvent_of_class {tag : String} {modelValidate : Fields → Option TypedEvent}
    (htag : frame.lookup "type" = some (.string tag))
    (hclass : tagToClass.lookup tag = some modelValidate) :
    frameToEvent frame = (modelValidate (frame.filter fun field => field.1 ≠ "type")).elim
      (.error .validationError) .ok := by
  unfold frameToEvent
  rw [htag]
  dsimp only
  rw [hclass]

/-- **Decoding a frame** gives the event it was made of. -/
theorem frameToEvent_eventToFrame (event : TypedEvent) :
    frameToEvent (eventToFrame event) = .ok event := by
  obtain ⟨modelValidate, hclass, hdump⟩ := validate_modelDump event
  have htag : (eventToFrame event).lookup "type" = some (.string event.typeTag) :=
    List.lookup_cons_self
  rw [frameToEvent_of_class htag hclass, payload_eventToFrame, hdump]
  rfl

theorem typeTag_of_map {make : String → TypedEvent} {tag : String} {found : Option String}
    (hmake : ∀ value, (make value).typeTag = tag) (h : found.map make = some event) :
    event.typeTag = tag := by
  obtain ⟨value, -, rfl⟩ := Option.map_eq_some_iff.mp h
  exact hmake value

/-- A class makes events of its own tag. -/
theorem typeTag_of_validate {tag : String} {modelValidate : Fields → Option TypedEvent}
    (hclass : tagToClass.lookup tag = some modelValidate)
    (h : modelValidate payload = some event) : event.typeTag = tag := by
  obtain ⟨before, after, hsplit, -⟩ := List.lookup_eq_some_iff.mp hclass
  have hmem : (tag, modelValidate) ∈ tagToClass := by
    rw [hsplit]
    simp
  simp only [tagToClass, List.mem_cons, List.not_mem_nil, or_false, Prod.mk.injEq] at hmem
  rcases hmem with ⟨rfl, rfl⟩ | ⟨rfl, rfl⟩ | ⟨rfl, rfl⟩ | ⟨rfl, rfl⟩ | ⟨rfl, rfl⟩
  · unfold validateToken at h
    split at h
    · exact typeTag_of_map (fun _ => rfl) h
    · cases h
  · unfold validateToolCall at h
    split at h
    · obtain ⟨name, -, h⟩ := Option.bind_eq_some_iff.mp h
      obtain ⟨args, -, h⟩ := Option.bind_eq_some_iff.mp h
      cases h
      rfl
    · cases h
  · unfold validateToolResult at h
    split at h
    · obtain ⟨name, -, h⟩ := Option.bind_eq_some_iff.mp h
      obtain ⟨text, -, h⟩ := Option.bind_eq_some_iff.mp h
      obtain ⟨attachments, -, h⟩ := Option.bind_eq_some_iff.mp h
      obtain ⟨error, -, h⟩ := Option.bind_eq_some_iff.mp h
      cases h
      rfl
    · cases h
  · unfold validateDone at h
    split at h
    · exact typeTag_of_map (fun _ => rfl) h
    · cases h
  · unfold validateError at h
    split at h
    · obtain ⟨code, -, h⟩ := Option.bind_eq_some_iff.mp h
      obtain ⟨detail, -, h⟩ := Option.bind_eq_some_iff.mp h
      cases h
      rfl
    · cases h

/-- The discriminator of a frame that is accepted is the tag of its event. -/
theorem type_of_frameToEvent (h : frameToEvent frame = .ok event) :
    frame.lookup "type" = some (.string event.typeTag) := by
  unfold frameToEvent at h
  split at h
  · cases h
  · cases h
  · cases h
  · next tag htag =>
      split at h
      · cases h
      · next modelValidate hclass =>
          dsimp only at h
          cases hvalidate : modelValidate (frame.filter fun field => field.1 ≠ "type") with
          | none =>
              rw [hvalidate] at h
              cases h
          | some accepted =>
              rw [hvalidate] at h
              cases h
              rw [htag, typeTag_of_validate hclass hvalidate]
  · cases h

/-! ### What the translator makes is JSON -/

/-- The arguments of a tool call are JSON. -/
def TypedEvent.Wellformed (isNumber : ℚ → Prop) : TypedEvent → Prop
  | toolCall _ args => (Json.object args).Wellformed isNumber
  | _ => True

theorem wellformed_dumpOptional (value : Option String) :
    (dumpOptional value).Wellformed isNumber := by
  cases value with
  | none => exact .null
  | some text => exact .string text

theorem wellformed_dumpAttachment (attachment : Attachment) :
    (dumpAttachment attachment).Wellformed isNumber := by
  refine .object (by simp) ?_
  simp [Json.Wellformed.string]

theorem wellformed_dumpError (error : Option ToolError) :
    (error.elim .null dumpError).Wellformed isNumber := by
  cases error with
  | none => exact .null
  | some error =>
      refine .object (by simp) ?_
      simp [Json.Wellformed.string, wellformed_dumpOptional]

theorem nodup_eventToFrame (event : TypedEvent) :
    ((eventToFrame event).map Prod.fst).Nodup := by
  cases event <;> simp [eventToFrame, modelDump]

theorem wellformed_eventToFrame (h : event.Wellformed isNumber) :
    (Json.object (eventToFrame event)).Wellformed isNumber := by
  refine .object (nodup_eventToFrame event) (List.forall_mem_cons.mpr ⟨.string _, ?_⟩)
  cases event with
  | token delta => simp [modelDump, Json.Wellformed.string]
  | toolCall name args =>
      have hargs : (Json.object args).Wellformed isNumber := h
      simp [modelDump, Json.Wellformed.string, hargs]
  | toolResult name text attachments error =>
      have hattachments : (Json.array (attachments.map dumpAttachment)).Wellformed isNumber :=
        .array fun item hitem => by
          obtain ⟨attachment, -, rfl⟩ := List.mem_map.mp hitem
          exact wellformed_dumpAttachment attachment
      simp [modelDump, Json.Wellformed.string, hattachments, wellformed_dumpError]
  | done finalText => simp [modelDump, Json.Wellformed.string]
  | error code detail => simp [modelDump, Json.Wellformed.string, wellformed_dumpOptional]

theorem wellformed_index {key : String} (h : item.Wellformed isNumber)
    (hvalue : item.index key = .ok value) : value.Wellformed isNumber := by
  cases item with
  | object fields =>
      unfold Json.index at hvalue
      dsimp only at hvalue
      cases hfound : fields.lookup key with
      | none =>
          rw [hfound] at hvalue
          cases hvalue
      | some found =>
          rw [hfound] at hvalue
          cases hvalue
          exact h.lookup hfound
  | _ => cases hvalue

theorem wellformed_get {key : String} {found : Option Json} {default : Json}
    (h : item.Wellformed isNumber) (hfound : item.get key = .ok found)
    (hdefault : default.Wellformed isNumber) : (found.getD default).Wellformed isNumber := by
  cases item with
  | object fields =>
      cases hfound
      cases hvalue : fields.lookup key with
      | none => exact hdefault
      | some value => exact h.lookup hvalue
  | _ => cases hfound

theorem wellformed_empty : (Json.object []).Wellformed isNumber := .object List.nodup_nil (by simp)

theorem wellformed_single (key : String) (h : value.Wellformed isNumber) :
    (Json.object [(key, value)]).Wellformed isNumber :=
  .object (List.nodup_singleton key) (by simpa using h)

theorem wellformed_commandArgs (hvalue : commandArgs python item = .ok value)
    (h : item.Wellformed isNumber) : value.Wellformed isNumber := by
  obtain ⟨command, hcommand, hvalue⟩ := Except.bind_eq_ok.mp hvalue
  split at hvalue
  · cases hvalue
    exact wellformed_single "command" (.string _)
  · cases hvalue
    exact wellformed_single "command" (wellformed_index h hcommand)

theorem commandArgs_object (hvalue : commandArgs python item = .ok value) :
    ∃ fields, value = .object fields := by
  obtain ⟨command, -, hvalue⟩ := Except.bind_eq_ok.mp hvalue
  split at hvalue <;> cases hvalue <;> exact ⟨_, rfl⟩

/-- The arguments of a builtin are a dictionary, of what the item has. -/
theorem builtin_args {itemType : String} {spec : BuiltinSpec}
    (hspec : (builtins python).lookup itemType = some spec) (hvalue : spec.args item = .ok value) :
    ∃ fields, value = .object fields ∧
      ∀ isNumber, item.Wellformed isNumber → value.Wellformed isNumber := by
  obtain ⟨before, after, hsplit, -⟩ := List.lookup_eq_some_iff.mp hspec
  have hmem : (itemType, spec) ∈ builtins python := by
    rw [hsplit]
    simp
  simp only [builtins, List.mem_cons, List.not_mem_nil, or_false, Prod.mk.injEq] at hmem
  rcases hmem with ⟨-, rfl⟩ | ⟨-, rfl⟩ | ⟨-, rfl⟩ | ⟨-, rfl⟩ | ⟨-, rfl⟩ | ⟨-, rfl⟩
  · obtain ⟨fields, rfl⟩ := commandArgs_object hvalue
    exact ⟨fields, rfl, fun _ => wellformed_commandArgs hvalue⟩
  · obtain ⟨changes, hchanges, hvalue⟩ := Except.bind_eq_ok.mp hvalue
    cases hvalue
    exact ⟨_, rfl, fun _ h => wellformed_single _ (wellformed_index h hchanges)⟩
  · obtain ⟨query, hquery, hvalue⟩ := Except.bind_eq_ok.mp hvalue
    cases hvalue
    exact ⟨_, rfl, fun _ h => wellformed_single _ (wellformed_index h hquery)⟩
  · obtain ⟨server, hserver, hvalue⟩ := Except.bind_eq_ok.mp hvalue
    obtain ⟨tool, htool, hvalue⟩ := Except.bind_eq_ok.mp hvalue
    cases hvalue
    refine ⟨_, rfl, fun _ h => .object (by simp) ?_⟩
    simp [wellformed_index h hserver, wellformed_index h htool]
  · obtain ⟨prompt, hprompt, hvalue⟩ := Except.bind_eq_ok.mp hvalue
    cases hvalue
    exact ⟨_, rfl, fun _ h => wellformed_single _ (wellformed_get h hprompt (.string ""))⟩
  · obtain ⟨path, hpath, hvalue⟩ := Except.bind_eq_ok.mp hvalue
    cases hvalue
    exact ⟨_, rfl, fun _ h => wellformed_single _ (wellformed_index h hpath)⟩

theorem asDict_ok (h : asDict value = .ok fields) : value = .object fields := by
  cases value with
  | object found =>
      cases h
      rfl
  | _ => cases h

theorem wellformed_toStarted {itemType : String} {spec : BuiltinSpec}
    (hspec : (builtins python).lookup itemType = some spec) (h : item.Wellformed isNumber)
    (hevent : toStarted spec item = .ok event) : event.Wellformed isNumber := by
  obtain ⟨label, -, hevent⟩ := Except.bind_eq_ok.mp hevent
  obtain ⟨args, hargs, hevent⟩ := Except.bind_eq_ok.mp hevent
  obtain ⟨name, -, hevent⟩ := Except.bind_eq_ok.mp hevent
  obtain ⟨fields, hfields, hevent⟩ := Except.bind_eq_ok.mp hevent
  cases hevent
  obtain rfl := asDict_ok hfields
  obtain ⟨_, -, hwellformed⟩ := builtin_args hspec hargs
  exact hwellformed isNumber h

theorem wellformed_genericToolCall (h : item.Wellformed isNumber)
    (hevent : genericToolCall item = .ok (some event)) : event.Wellformed isNumber := by
  obtain ⟨toolName, -, hevent⟩ := Except.bind_eq_ok.mp hevent
  split at hevent
  · cases hevent
  · obtain ⟨name, -, hevent⟩ := Except.bind_eq_ok.mp hevent
    obtain ⟨arguments, harguments, hevent⟩ := Except.bind_eq_ok.mp hevent
    obtain ⟨fields, hfields, hevent⟩ := Except.bind_eq_ok.mp hevent
    cases hevent
    have hargs := wellformed_get h harguments wellformed_empty
    rwa [asDict_ok hfields] at hargs

theorem wellformed_onItemStarted (h : item.Wellformed isNumber)
    (hevent : onItemStarted python item = .ok (some event)) : event.Wellformed isNumber := by
  obtain ⟨itemType, -, hevent⟩ := Except.bind_eq_ok.mp hevent
  split at hevent
  · cases hevent
  · cases hevent
  · split at hevent
    · cases hevent
    · split at hevent
      · next spec hspec =>
          obtain ⟨started, hstarted, hevent⟩ := Except.bind_eq_ok.mp hevent
          cases hevent
          exact wellformed_toStarted hspec h hstarted
      · exact wellformed_genericToolCall h hevent
  · exact wellformed_genericToolCall h hevent

theorem wellformed_ofCodex {codex : CodexEvent} (h : TypedEvent.ofCodex codex = some event) :
    event.Wellformed isNumber := by
  cases codex with
  | toolCall => cases h
  | _ =>
      cases h
      trivial

/-- **The translator** makes JSON of a notification that is JSON. -/
theorem wellformed_translateEvent {note : Notification} {accumulated : String}
    (h : (Json.object note.params).Wellformed isNumber)
    (hevent : translateEvent python note accumulated = .ok (some event)) :
    event.Wellformed isNumber := by
  unfold translateEvent at hevent
  split at hevent
  · obtain ⟨item, hitem, hevent⟩ := Except.bind_eq_ok.mp hevent
    exact wellformed_onItemStarted (wellformed_index h hitem) hevent
  · obtain ⟨codex, -, hevent⟩ := Except.bind_eq_ok.mp hevent
    have hcodex := Except.ok.inj hevent
    obtain ⟨_, -, hsome⟩ := Option.bind_eq_some_iff.mp hcodex
    exact wellformed_ofCodex hsome

theorem wellformed_ofFrame (method : String) (h : (Json.object fields).Wellformed isNumber) :
    (Json.object (Notification.ofFrame method (fields.lookup "params")).params).Wellformed
      isNumber := by
  unfold Notification.ofFrame
  dsimp only
  cases hparams : fields.lookup "params" with
  | none => exact wellformed_empty
  | some params =>
      cases params with
      | object found => exact h.lookup hparams
      | _ => exact wellformed_empty

/-! ### It is the translator of the turn -/

theorem toStarted_toCodex {itemType : String} {spec : BuiltinSpec}
    (hspec : (builtins python).lookup itemType = some spec) (item : Json) :
    spec.toStarted python item = (toStarted spec item).map (TypedEvent.toCodex python) := by
  unfold BuiltinSpec.toStarted toStarted
  cases spec.label item with
  | error => rfl
  | ok label =>
      cases hargs : spec.args item with
      | error => rfl
      | ok args =>
          obtain ⟨fields, rfl, -⟩ := builtin_args hspec hargs
          dsimp only [bind, Except.bind]
          cases label.asString <;> rfl

theorem genericToolCall_toCodex (item : Json) : CodexServer.genericToolCall python item =
    (genericToolCall item).map (Option.map (TypedEvent.toCodex python)) := by
  unfold CodexServer.genericToolCall genericToolCall
  cases item.getOrNull "toolName" with
  | error => rfl
  | ok toolName =>
      cases toolName with
      | string name =>
          cases item.get "arguments" with
          | error => rfl
          | ok arguments =>
              dsimp only [bind, Except.bind, Json.asString]
              cases arguments.getD (.object []) <;> rfl
      | _ => rfl

theorem onItemStarted_toCodex (item : Json) : CodexServer.onItemStarted python item =
    (onItemStarted python item).map (Option.map (TypedEvent.toCodex python)) := by
  unfold CodexServer.onItemStarted onItemStarted
  cases item.index "type" with
  | error => rfl
  | ok itemType =>
      cases itemType with
      | array | object => rfl
      | string itemType =>
          dsimp only [bind, Except.bind]
          split
          · rfl
          · cases hspec : (builtins python).lookup itemType with
            | none => exact genericToolCall_toCodex item
            | some spec =>
                dsimp only
                rw [toStarted_toCodex hspec]
                cases toStarted spec item <;> rfl
      | _ => exact genericToolCall_toCodex item

/-- The event is no tool call. -/
def isToolCall : CodexEvent → Bool
  | .toolCall _ => true
  | _ => false

theorem toCodex_ofCodex (python : Python) {codex : CodexEvent} (h : isToolCall codex = false) :
    (TypedEvent.ofCodex codex).map (TypedEvent.toCodex python) = some codex := by
  cases codex with
  | toolCall => cases h
  | _ => rfl

theorem isToolCall_of_isOutput {codex : CodexEvent} (h : isOutput codex = true) :
    isToolCall codex = false := by
  cases codex with
  | token | toolResult => rfl
  | toolCall | done | error => cases h

/-- Only `item/started` is about a tool call. -/
theorem translate_isToolCall {note : Notification} {accumulated : String} {codex : CodexEvent}
    (hmethod : note.method ≠ CodexNotif.itemStarted)
    (h : translateNotification python note accumulated = .ok (some codex)) :
    isToolCall codex = false := by
  unfold translateNotification at h
  split at h
  · cases h
  · split at h
    · obtain ⟨delta, -, h⟩ := Except.bind_eq_ok.mp h
      dsimp only at h
      split at h
      · obtain ⟨text, -, h⟩ := Except.bind_eq_ok.mp h
        cases h
        rfl
      · cases h
    · split at h
      · obtain ⟨completed, -, h⟩ := Except.bind_eq_ok.mp h
        exact isToolCall_of_isOutput (onItemCompleted_isOutput h)
      · split at h
        · obtain ⟨completed, hcompleted, h⟩ := Except.bind_eq_ok.mp h
          cases h
          rcases onTurnCompleted_failure hcompleted with ⟨_, rfl, -⟩ | ⟨_, _, rfl, -⟩ <;> rfl
        · cases h

/-- **The translator of the turn** makes the same events, with their arguments as text. -/
theorem translateNotification_eq (note : Notification) (accumulated : String) :
    translateNotification python note accumulated =
      (translateEvent python note accumulated).map (Option.map (TypedEvent.toCodex python)) := by
  unfold translateEvent
  split
  · next hmethod =>
      unfold translateNotification
      rw [hmethod]
      change (Json.object note.params).index "item" >>= CodexServer.onItemStarted python = _
      cases (Json.object note.params).index "item" with
      | error => rfl
      | ok item => exact onItemStarted_toCodex item
  · next hmethod =>
      cases htranslate : translateNotification python note accumulated with
      | error => rfl
      | ok translated =>
          cases translated with
          | none => rfl
          | some codex =>
              have hcodex := toCodex_ofCodex python (translate_isToolCall hmethod htranslate)
              exact congrArg Except.ok hcodex.symm

/-! ### The round trip -/

theorem bytesToEvent_eventToBytes {Bytes : Type} {orjson : Orjson Bytes}
    (hjson : orjson.ImplementsJson isNumber) (h : event.Wellformed isNumber) :
    ∃ raw, eventToBytes orjson event = some raw ∧ bytesToEvent orjson raw = .ok event := by
  obtain ⟨raw, hdumps, hloads⟩ := hjson.loads_dumps _ (wellformed_eventToFrame h)
  refine ⟨raw, hdumps, ?_⟩
  unfold bytesToEvent
  rw [hloads]
  exact frameToEvent_eventToFrame event

/-- **Events survive the bus**: what the translator makes of a notification comes back from its
bytes, and a frame that is accepted means what the frame of its event means, whose class is the one
the discriminator names. -/
theorem event_round_trip {Bytes : Type} {orjson : Orjson Bytes}
    (hjson : orjson.ImplementsJson isNumber) :
    (∀ (python : Python) (received : Bytes) (fields : Fields) (method accumulated : String)
      (event : TypedEvent), orjson.loads received = some (.object fields) →
        translateEvent python (Notification.ofFrame method (fields.lookup "params")) accumulated =
          .ok (some event) →
        ∃ raw, eventToBytes orjson event = some raw ∧ bytesToEvent orjson raw = .ok event) ∧
    ∀ (frame : Fields) (event : TypedEvent), frameToEvent frame = .ok event →
      frameToEvent (eventToFrame event) = .ok event ∧
        frame.lookup "type" = some (.string event.typeTag) := by
  constructor
  · intro python received fields method accumulated event hreceived hevent
    have hfields := hjson.loads_wellformed _ _ hreceived
    exact bytesToEvent_eventToBytes hjson
      (wellformed_translateEvent (wellformed_ofFrame method hfields) hevent)
  · intro frame event haccepted
    exact ⟨frameToEvent_eventToFrame event, type_of_frameToEvent haccepted⟩

/-! ### A search on the bus -/

/-- JSON whose numbers are integers. -/
def textJson : Orjson (List Char) := ⟨fun value => some (JsonTree.dumps value), JsonTree.loads⟩

theorem textJson_implements : textJson.ImplementsJson JsonTree.IsInt where
  loads_wellformed _ _ h := JsonTree.wellformed_loads h
  loads_dumps value h := ⟨JsonTree.dumps value, rfl, JsonTree.loads_dumps h⟩

def searchArguments : Fields :=
  [("query", .string "lean"), ("pages", .array [.number 1, .object [("last", .null)]])]

/-- The frame that says that a search has started. -/
def searchStarted : Fields :=
  [("method", .string "item/started"),
    ("params", .object [("item", .object [("type", .string "customToolCall"),
      ("toolName", .string "search"), ("arguments", .object searchArguments)])])]

theorem wellformed_searchStarted : (Json.object searchStarted).Wellformed JsonTree.IsInt := by
  have hlast : (Json.object [("last", .null)]).Wellformed JsonTree.IsInt :=
    wellformed_single "last" .null
  have hone : (Json.number 1).Wellformed JsonTree.IsInt := .number rfl
  have hpages : (Json.array [.number 1, .object [("last", .null)]]).Wellformed JsonTree.IsInt :=
    .array (by simp [hlast, hone])
  have harguments : (Json.object searchArguments).Wellformed JsonTree.IsInt :=
    .object (by simp [searchArguments]) (by simp [searchArguments, Json.Wellformed.string, hpages])
  refine .object (by simp [searchStarted]) ?_
  refine List.forall_mem_cons.mpr ⟨.string _, List.forall_mem_singleton.mpr ?_⟩
  refine wellformed_single "item" (.object (by simp) ?_)
  simp [Json.Wellformed.string, harguments]

theorem search_round_trip : ∃ raw,
    eventToBytes textJson (.toolCall "search" searchArguments) = some raw ∧
      bytesToEvent textJson raw = .ok (.toolCall "search" searchArguments) :=
  (event_round_trip textJson_implements).1 ⟨fun _ => "", fun _ => "", fun _ => none, fun _ => false⟩
    (JsonTree.dumps (.object searchStarted)) searchStarted "item/started" ""
    (.toolCall "search" searchArguments) (JsonTree.loads_dumps wellformed_searchStarted) rfl

end CodexServer.EventCodec
