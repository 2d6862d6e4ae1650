import CodexServer.Library.Transition

/-!
# The session of a browser tab

`auth.ts` keeps whether the tab is signed in, the timer of the next Refresh and the promise of the one
in flight; the interceptor of `transport.ts` answers a 401 with a Refresh and sends the request once
more. Refresh is itself a call through the interceptor. A step is one event of the browser, a call, a
reply or the timer, with all that follows before the next one.
-/

namespace CodexServer.WebSession

/-- `REFRESH_LEAD_SECONDS` -/
def refreshLeadSeconds : Int := 60

/-- `LOGIN_EVENT`, `LOGOUT_EVENT` -/
inductive SessionEvent
  | login
  | logout
deriving DecidableEq

/-- What is called, and who goes on with the result. -/
inductive CallKind
  /-- An RPC of a component. -/
  | plain
  | login
  | register
  | refresh
  | logout (wasSignedIn : Bool)
deriving DecidableEq

/-- Where `refreshRetryInterceptor` is with a call. -/
inductive Stage
  | sent
  /-- It has had a 401 and awaits the promise of this Refresh. -/
  | waiting (flight : Nat)
  | retried
  | settled (ok : Bool)
deriving DecidableEq

structure Call where
  kind : CallKind
  stage : Stage
deriving DecidableEq

/-- What a request is answered; `expiresIn` is read by those that have it. -/
inductive Reply
  | ok (expiresIn : Int)
  /-- A `ConnectError` with `Code.Unauthenticated`. -/
  | unauthenticated
  | failed
deriving DecidableEq

structure Tab where
  signedIn : Bool
  /-- The delay of a timer that has not fired. -/
  refreshTimer : Option Nat
  /-- The call whose promise it is. -/
  refreshInFlight : Option Nat
  /-- `registerRefresh` has been called. -/
  refreshFn : Bool
  calls : List Call
  events : List SessionEvent
deriving DecidableEq

namespace Tab

def start : Tab := ⟨false, none, none, false, [], []⟩

variable (tab : Tab)

def send (kind : CallKind) : Tab := { tab with calls := tab.calls ++ [⟨kind, .sent⟩] }

def setStage (id : Nat) (stage : Stage) : Tab :=
  { tab with calls := tab.calls.modify id fun call => { call with stage := stage } }

def dispatchEvent (event : SessionEvent) : Tab := { tab with events := tab.events ++ [event] }

def scheduleRefresh (expiresIn : Int) : Tab :=
  { tab with refreshTimer := some ((max 0 (expiresIn - refreshLeadSeconds)) * 1000).toNat }

def cancelTimer : Tab := { tab with refreshTimer := none }

/-- `auth.refresh`: the call whose promise it returns. -/
def refresh : Nat × Tab :=
  match tab.refreshInFlight with
  | some flight => (flight, tab)
  | none => (tab.calls.length, { tab.send .refresh with refreshInFlight := some tab.calls.length })

end Tab

/-- `const refreshed = await refreshFn()` and what comes after it. -/
def Call.resume (flight : Nat) (refreshed : Bool) (call : Call) : Call :=
  if call.stage = .waiting flight then
    { call with stage := if refreshed then .retried else .settled false }
  else call

namespace Tab

variable (tab : Tab)

/-- The promise of a Refresh settles. -/
def land (flight : Nat) (refreshed : Bool) : Tab :=
  { tab with refreshInFlight := none, calls := tab.calls.map (Call.resume flight refreshed) }

def signIn (expiresIn : Int) : Tab := { tab with signedIn := true }.scheduleRefresh expiresIn

/-- A call settles, with the `expiresIn` of its response or with an error, and its caller goes on. -/
def settle (id : Nat) (kind : CallKind) (result : Option Int) : Tab :=
  let done := tab.setStage id (.settled result.isSome)
  match kind, result with
  | .plain, _ | .login, none | .register, none => done
  | .login, some expiresIn | .register, some expiresIn =>
      (done.signIn expiresIn).dispatchEvent .login
  | .refresh, some expiresIn =>
      let renewed := done.signIn expiresIn
      (if tab.signedIn then renewed else renewed.dispatchEvent .login).land id true
  | .refresh, none => { done with signedIn := false }.cancelTimer.land id false
  | .logout wasSignedIn, _ => if wasSignedIn then done.dispatchEvent .logout else done

/-- A request is answered. -/
def answer (id : Nat) (reply : Reply) : Option Tab :=
  match tab.calls[id]? with
  | none => none
  | some call =>
      match call.stage, reply with
      | .sent, .unauthenticated =>
          if tab.refreshFn then
            let (flight, waiting) := tab.refresh
            some (waiting.setStage id (.waiting flight))
          else some (tab.settle id call.kind none)
      | .sent, .ok expiresIn | .retried, .ok expiresIn => some (tab.settle id call.kind (some expiresIn))
      | .sent, .failed | .retried, _ => some (tab.settle id call.kind none)
      | .waiting _, _ | .settled _, _ => none

end Tab

inductive Action
  /-- `auth.ts` is loaded: it refreshes and registers. -/
  | load
  | call
  | login
  | register
  | logout
  | fire
  | answer (id : Nat) (reply : Reply)
deriving DecidableEq

namespace Tab

variable (tab : Tab)

def step : Action → Option Tab
  | .load => if tab.refreshFn then none else some { tab.refresh.2 with refreshFn := true }
  | .call => some (tab.send .plain)
  | .login => if tab.refreshFn then some (tab.send .login) else none
  | .register => if tab.refreshFn then some (tab.send .register) else none
  | .logout =>
      if tab.refreshFn then
        some ({ tab with signedIn := false }.cancelTimer.send (.logout tab.signedIn))
      else none
  | .fire => if tab.refreshTimer.isSome then some tab.cancelTimer.refresh.2 else none
  | .answer id reply => tab.answer id reply

end Tab
end CodexServer.WebSession
