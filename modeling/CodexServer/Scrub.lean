import CodexServer.Translate
import CodexServer.JsonValue

/-!
# What leaves with an error report

`scrub_event` sees each Sentry event before it is sent. It drops the noise of the polling and takes
secrets out of the request and the breadcrumbs. One filter of names serves headers, cookies, the
environment and breadcrumb data. A value that is changed in place is replaced here.
-/

namespace CodexServer.Scrub

open Dictionary (mapValues update Related)

abbrev Fields := List (String × Json)

def redacted : Json := .string "[redacted]"

/-- `_SENSITIVE_HEADERS` -/
def sensitiveHeaders : List String :=
  ["authorization", "cookie", "set-cookie", "x-api-key", "x-auth-token", "proxy-authorization"]

/-- `_DROP_LOG_PATTERNS` -/
def dropLogPatterns : List String := ["Failed to fetch updates"]

/-- `str.lower`, on the characters that become a letter of a name above: the letters of ASCII and
the Kelvin sign. -/
def lowerChar (c : Char) : Char := if c = '\u212a' then 'k' else c.toLower

/-- `str(key).lower() in _SENSITIVE_HEADERS` -/
def isSensitive (key : String) : Bool :=
  sensitiveHeaders.contains (String.ofList (key.toList.map lowerChar))

/-- What is done to a value if it is a `dict`. -/
def inFields (change : Fields → Fields) : Json → Json
  | .object fields => .object (change fields)
  | value => value

/-- `_scrub_headers` -/
def scrubHeaders : Json → Json :=
  inFields (mapValues fun key value => if isSensitive key then redacted else value)

/-- The request of an event. -/
def scrubRequest : Json → Json :=
  inFields fun request =>
    let request := update "headers" scrubHeaders request
    let request := update "cookies" scrubHeaders request
    let request := update "data" (fun _ => redacted) request
    update "env" scrubHeaders request

def scrubBreadcrumb : Json → Json := inFields (update "data" scrubHeaders)

/-- The breadcrumbs of an event; what a loop goes through besides a list has no `dict` in it. -/
def scrubBreadcrumbs : Json → Json :=
  inFields (update "values" fun values =>
    match values with
    | .array items => .array (items.map scrubBreadcrumb)
    | values => values)

/-- What is looked for in the noise: the message of `logentry`, or else that of the event. -/
def logMessage (event : Fields) : String :=
  let logged := ((event.lookup "logentry").bind Json.object?).bind fun logentry =>
    logentry.lookup "message"
  (((logged.filter Json.truthy).or (event.lookup "message")).bind Json.string?).getD ""

def isNoise (event : Fields) : Bool :=
  dropLogPatterns.any fun pattern => decide (pattern.toList <:+: (logMessage event).toList)

/-- The loop over the breadcrumbs, which raises if there is nothing to go through. -/
def crumbValues (event : Fields) : Except PyError (List Json) :=
  match (event.lookup "breadcrumbs").bind Json.object? with
  | none => .ok []
  | some breadcrumbs =>
      iterate (((breadcrumbs.lookup "values").filter Json.truthy).getD (.array []))

def scrubEvent (event : Fields) : Except PyError (Option Fields) :=
  if isNoise event then .ok none
  else do
    let _ ← crumbValues event
    let event := update "request" scrubRequest event
    pure (some (update "breadcrumbs" scrubBreadcrumbs event))

/-! ### Where secrets are -/

/-- Two values that are the same, or two dictionaries with related entries. -/
inductive Within (relation : String → Json → Json → Prop) : Json → Json → Prop
  | same (value : Json) : Within relation value value
  | fields {fields others : Fields} : Related relation fields others →
      Within relation (.object fields) (.object others)

/-- Two values that are the same, or two lists of related items. -/
inductive Listed (relation : Json → Json → Prop) : Json → Json → Prop
  | same (value : Json) : Listed relation value value
  | items {items others : List Json} : List.Forall₂ relation items others →
      Listed relation (.array items) (.array others)

/-- The name of a header in the environment of a request. -/
def envName (header : String) : String :=
  "HTTP_" ++ String.ofList (header.toList.map fun c => if c = '-' then '_' else c.toUpper)

/-- The entries of the environment that stand for the headers above. -/
def envNames : List String := sensitiveHeaders.map envName

/-- The values may differ under some names. -/
def SecretAt (isSecret : String → Bool) (key : String) (value other : Json) : Prop :=
  isSecret key = false → value = other

/-- Headers, cookies, the body and the environment. -/
def SecretInRequest (key : String) (value other : Json) : Prop :=
  if key = "headers" then Within (SecretAt isSensitive) value other
  else if key = "cookies" then Within (SecretAt fun _ => true) value other
  else if key = "data" then True
  else if key = "env" then Within (SecretAt envNames.contains) value other
  else value = other

def SecretInBreadcrumb (key : String) (value other : Json) : Prop :=
  if key = "data" then Within (SecretAt isSensitive) value other else value = other

def SecretInBreadcrumbs (key : String) (value other : Json) : Prop :=
  if key = "values" then Listed (Within SecretInBreadcrumb) value other else value = other

def SecretInEvent (key : String) (value other : Json) : Prop :=
  if key = "request" then Within SecretInRequest value other
  else if key = "breadcrumbs" then Within SecretInBreadcrumbs value other
  else value = other

/-- Two events that differ in secrets alone. -/
def DifferInSecrets (event other : Fields) : Prop := Related SecretInEvent event other

/-- An entry of a dictionary, when it is one. -/
def entry (key : String) (value : Json) : Option Json :=
  value.object?.bind fun fields => fields.lookup key

/-- A cookie of the request of an event. -/
def cookie (event : Fields) (name : String) : Option Json :=
  ((event.lookup "request").bind (entry "cookies")).bind (entry name)

/-- An entry of the environment of the request of an event. -/
def envEntry (event : Fields) (name : String) : Option Json :=
  ((event.lookup "request").bind (entry "env")).bind (entry name)

end CodexServer.Scrub
