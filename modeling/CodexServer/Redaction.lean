import CodexServer.Cluster
import CodexServer.RunTurn
import CodexServer.TurnStream

/-!
# Error texts

What of an error a user gets to see: the frames that the two RPCs yield, the frames in the streams, and
the `error_detail` of a turn, which `_terminal_from_status` makes a frame of. The service is the cluster
with the `run_turn` and `tail_turn` requests that are made to it.
-/

open Transition

namespace CodexServer

/-- A token of the text has the marker of a presigned link. -/
def Leaks (text : String) : Prop :=
  ∃ token ∈ text.toList.splitOnP isPythonSpace, containsMarker token = true

instance Leaks.decidable (text : String) : Decidable (Leaks text) :=
  List.decidableBEx _ (text.toList.splitOnP isPythonSpace)

/-- What a frame says about an error: the code and the detail, or the message of a tool's error. -/
def ChatEvent.errorTexts (event : ChatEvent) : List String :=
  match event.kind with
  | .error code detail => code :: detail.toList
  | .toolResult _ _ _ error => (error.map ToolError.message).toList
  | .turnStarted _ | .token _ | .toolCall _ | .done .. => []

def ChatEvent.Redacted (event : ChatEvent) : Prop := ∀ text ∈ event.errorTexts, ¬ Leaks text

instance ChatEvent.Redacted.decidable (event : ChatEvent) : Decidable event.Redacted :=
  List.decidableBAll _ event.errorTexts

/-- An outcome of a turn whose `error_code` and `error_detail` do not leak. -/
def RedactedOutcome (outcome : Option String × Option String) : Prop :=
  ∀ text ∈ outcome.1.toList ++ outcome.2.toList, ¬ Leaks text

/-- The translator knows one code for the errors of Codex. -/
def CodexEvent.coded : CodexEvent → Bool
  | .error code _ => code = CodexErrorCode.codexError
  | _ => true

def CodexNote.coded : CodexNote → Bool
  | .event reported => reported.coded
  | .idle _ => true

/-! ### What is written and raised -/

/-- The sidecar's answer to a handler names a turn that does not leak. -/
def ControlKind.Redacted : ControlKind → Prop
  | handler prepared => ¬ Leaks prepared.actualTurnId
  | _ => True

instance ControlKind.Redacted.decidable : (kind : ControlKind) → Decidable kind.Redacted
  | .handler prepared => inferInstanceAs (Decidable (¬ Leaks prepared.actualTurnId))
  | .sweep | .inline _ | .listener .. | .shutdown _ => isTrue trivial

/-- What an operation writes does not leak. -/
def Op.Redacted : Op → Prop
  | .xadd _ event => event.Redacted
  | .finalizeOnce _ _ code detail => RedactedOutcome (code, detail)
  | _ => True

/-- `stream_turn` has words of its own for these. -/
def Fault.isMuted : Fault → Bool
  | timeout _ | staleTurnStream _ => true
  | _ => false

/-- What is raised to an execution there is shown to nobody: it is swallowed, or other words are put
in its place, or nothing is written after it. The list goes by the operation alone: an XADD is not in
it, though what the frame of a crash and the frame of the safety net raise is swallowed. -/
def Op.hides : Op → Fault → Bool
  | .getTurn _, _ | .getUser _, _ | .finalizeOnce .., _ | .stopHeartbeat, _
  | .discardActiveLease .., _ | .releaseLease .., _ | .external .decrActive, _
  | .external .deleteActive, _ | .external .probe, _ | .external .interrupt, _ => true
  | .setActiveNx .., fault | .getActive _, fault | .delActiveIfEq .., fault
  | .setLeaseNx .., fault | .external .quarantine, fault => fault.isRedisError
  | .peekSteer _, fault | .consumeSteer .., fault | .external .publishBus, fault =>
      fault.isRedisError || fault.isMuted
  | .nextNote _, fault | .markRunning .., fault | .external (.startTurn _), fault => fault.isMuted
  | _, _ => false

/-- `_enqueue_turn` makes a text of what the queue raises. -/
def Op.tells : Op → Fault → Bool
  | .enqueue _, .queueError _ | .enqueue _, .redisError _ | .enqueue _, .timeout _ => true
  | _, _ => false

def Fault.Leaks (fault : Fault) : Prop := CodexServer.Leaks (Exn.fault fault).text

instance Fault.Leaks.decidable (fault : Fault) : Decidable fault.Leaks :=
  inferInstanceAs (Decidable (CodexServer.Leaks _))

namespace ChatRPC

open RateLimit (UserKind RuntimeSettings Keys)

abbrev RequestProgram := Program RequestOp RequestOp.Val Fault Empty (Except Exn Unit)

/-- How an await of a request ends. What the limiter and the preparation answer is left open. -/
inductive Reply
  | raised (fault : Fault)
  | reserved (settings : RuntimeSettings) (reading clock : ℚ) (keys : Keys)
  | released (remaining : Int)
  | prepared (value : PreparedRunTurn)
  | done

/-- A reader is the turn that it streams and where it is. -/
structure Service where
  cluster : Cluster
  requests : List RequestProgram
  readers : List (Nat × Handler)
  yielded : List ChatEvent

end ChatRPC

/-- `db.get(Message, id)` -/
def World.message (world : World) (id : Nat) : Option AssistantMessage :=
  (world.messages.find? fun stored => stored.message.id = id).map StoredMessage.message

namespace ChatRPC

open RateLimit (UserKind RuntimeSettings Keys)

/-- What a request is answered, and the shared state after it. -/
def answer (world : World) (self : Nat) :
    (op : RequestOp) → Reply → Option (Except Fault op.Val × World)
  | _, .raised fault => some (.error fault, world)
  | .reserveTurn kind, .reserved settings reading clock keys =>
      some (.ok (RateLimit.reserveTurn kind settings reading clock keys).1, world)
  | .prepareRunTurn, .prepared value => some (.ok value, world)
  | .control op, .done =>
      let (value, after) := world.perform self false op
      some (.ok value, after)
  | .decrActive, .released remaining => some (.ok remaining, world)
  | .yieldEvent _, .done | .tail _, .done | .deleteActive, .done => some (.ok (), world)
  | .terminalForTurnId turnId, .done =>
      some (.ok ((world.turns turnId).bind (terminalFromStatus world.message)), world)
  | _, _ => none

/-- The control code of a request makes texts as it does in a thread. -/
def RequestOp.tells : RequestOp → Fault → Bool
  | .control op, fault => op.tells fault
  | _, _ => false

/-- What the client is sent in an await: a yield reaches it even if it then goes away. -/
def sent : RequestOp → List ChatEvent
  | .yieldEvent event => [event]
  | _ => []

/-- What a request yields after an await of its tail is a frame of the stream. -/
def follows (world : World) : RequestOp → RequestProgram → Bool
  | .tail turnId, .call (.yieldEvent event) _ =>
      (world.streams turnId).any fun frame => frame.kind = event.kind
  | _, _ => true

inductive ServiceAction
  | cluster (action : ClusterAction)
  /-- A `run_turn` of a user comes in. -/
  | runTurn (kind : UserKind) (request : RunTurnRequest)
  | advance (id : Nat) (reply : Reply)
  /-- A `tail_turn` for the turn comes in. -/
  | tailTurn (turnId : Nat) (request : StreamRequest)
  /-- One step of a reader, with the ids that Redis has given the frames. -/
  | read (id : Nat) (log : TurnLog)

namespace Service

def start (users : Nat → Bool) : Service := ⟨Cluster.init users, [], [], []⟩

variable (service : Service)

/-- What a request awaits. -/
def requestOp (id : Nat) : Option RequestOp :=
  match service.requests[id]? with
  | some (.call op _) => some op
  | _ => none

def advance (id : Nat) (reply : Reply) : Option Service :=
  match service.requests[id]? with
  | some (.call op next) =>
      match answer service.cluster.world id op reply with
      | some (value, world) =>
          if follows world op (next value) then
            some { service with
              cluster := { service.cluster with world := world }
              requests := service.requests.set id (next value)
              yielded := service.yielded ++ sent op }
          else none
      | none => none
  | _ => none

def readFrame (id : Nat) (log : TurnLog) : Option Service :=
  match service.readers[id]? with
  | some (turnId, handler) =>
      let world := service.cluster.world
      if log.entries.map Prod.snd = world.streams turnId then
        (world.turns turnId).bind fun row =>
          (handler.step log world.message row).map fun (handler, event) =>
            { service with
              readers := service.readers.set id (turnId, handler)
              yielded := service.yielded ++ event.toList }
      else none
  | none => none

/-- A delivery comes with such events as the translator makes. -/
def clusterStep (action : ClusterAction) : Option Service :=
  let coded := match action with
    | .deliver cfg _ => cfg.script.notes.all CodexNote.coded
    | _ => true
  if coded then
    (service.cluster.step action).map fun cluster => { service with cluster := cluster }
  else none

def step : ServiceAction → Option Service
  | .cluster action => service.clusterStep action
  | .runTurn kind request =>
      let program := (ChatRPC.runTurn kind request {}).bind fun (outcome, _) => .ret outcome
      some { service with requests := service.requests ++ [program] }
  | .advance id reply => service.advance id reply
  | .tailTurn turnId request =>
      some { service with readers := service.readers ++ [(turnId, Handler.start request)] }
  | .read id log => service.readFrame id log

/-- Nothing that leaks is raised where a text is made of it, and no sidecar names a turn that leaks. -/
def Calm : ServiceAction → Prop
  | .cluster (.advance id (some fault)) =>
      ∀ op ∈ service.cluster.op (.advance id none), op.hides fault = true ∨ ¬ fault.Leaks
  | .cluster (.control id (some fault)) =>
      ∀ op ∈ service.cluster.op (.control id none), op.tells fault = true → ¬ fault.Leaks
  | .cluster (.spawn kind) => kind.Redacted
  | .advance id (.raised fault) =>
      ∀ op ∈ service.requestOp id, op.tells fault = true → ¬ fault.Leaks
  | .advance _ (.prepared value) => ¬ Leaks value.actualTurnId
  | _ => True

instance Calm.decidable : (action : ServiceAction) → Decidable (service.Calm action)
  | .cluster (.advance id (some fault)) => inferInstanceAs (Decidable
      (∀ op ∈ service.cluster.op (.advance id none), op.hides fault = true ∨ ¬ fault.Leaks))
  | .cluster (.control id (some fault)) => inferInstanceAs (Decidable
      (∀ op ∈ service.cluster.op (.control id none), op.tells fault = true → ¬ fault.Leaks))
  | .cluster (.spawn kind) => inferInstanceAs (Decidable kind.Redacted)
  | .advance id (.raised fault) => inferInstanceAs (Decidable
      (∀ op ∈ service.requestOp id, op.tells fault = true → ¬ fault.Leaks))
  | .advance _ (.prepared value) => inferInstanceAs (Decidable (¬ Leaks value.actualTurnId))
  | .cluster (.advance _ none) | .cluster (.control _ none) | .cluster .tick
  | .cluster (.deliver ..) | .cluster (.redeliver _) | .cluster (.beat ..) | .cluster (.crash _)
  | .cluster (.quit _) | .cluster (.miss ..) | .runTurn .. | .tailTurn .. | .read ..
  | .advance _ (.reserved ..) | .advance _ (.released _) | .advance _ .done => isTrue trivial

end Service
end ChatRPC
end CodexServer
