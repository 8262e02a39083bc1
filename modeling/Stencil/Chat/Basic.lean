import Stencil.Value.Reader

/-!
Conversations with a chat model: one request, one reply.

A `Chat` sends requests somewhere and is otherwise a function, so what comes of a request depends on
the request alone.  What cannot be used is a failure that names the collaborator.
-/

namespace Stencil

structure ChatRequest where
  model : String
  system : String
  user : String
  temperature : Float
  /-- Is the reply to be JSON? -/
  json : Bool := false

def ChatRequest.toValue (r : ChatRequest) : Value :=
  let message := fun role content => Value.object [("role", .text role), ("content", .text content)]
  let format : List (String × Value) :=
    if r.json then [("response_format", .object [("type", .text "json_object")])] else []
  .object
    ([("model", .text r.model),
      ("messages", .list [message "system" r.system, message "user" r.user]),
      ("temperature", .float r.temperature)] ++ format)

inductive ChatReply
  | message (content : Option String)
  | noChoices
  | apiError (message : String)
  | failure (message : String)

inductive ChatFailure
  /-- The collaborator has no usable answer. -/
  | collaborator (name message : String)
  /-- Something else broke. -/
  | other (message : String)
  deriving DecidableEq

namespace ChatFailure

/-- What went wrong, without the name of the collaborator. -/
def cause : ChatFailure → String
  | .collaborator _ message => message
  | .other message => message

def message : ChatFailure → String
  | .collaborator name message => name ++ ": " ++ message
  | .other message => message

end ChatFailure

/-- A chat model under the name of the collaborator that uses it. -/
structure Chat where
  name : String
  model : String := "openai/gpt-4o"
  send : ChatRequest → ChatReply

namespace Chat

def fail {α : Type} (c : Chat) (message : String) : Except ChatFailure α :=
  .error (.collaborator c.name message)

/-- The temperature that is used without another. -/
def standardTemperature : Float := 0.1

def request (c : Chat) (system user : String) (temperature : Float := standardTemperature)
    (json : Bool := false) : ChatRequest :=
  ⟨c.model, system, user, temperature, json⟩

/-- The text of the reply, which may not be blank. -/
def complete (c : Chat) (r : ChatRequest) : Except ChatFailure String :=
  match c.send r with
  | .apiError message => c.fail ("API request failed: " ++ message)
  | .failure message => .error (.other message)
  | .noChoices => c.fail "empty response"
  | .message content =>
    let text := content.getD ""
    if Text.allBlank text.toList then c.fail "empty response" else .ok text

/-- The data that the reply writes as JSON. -/
def completeJson (c : Chat) (r : ChatRequest) : Except ChatFailure Value := do
  let content ← c.complete r
  match Value.parse content.toList with
  | .ok v => .ok v
  | .error fault => c.fail ("invalid JSON response: " ++ fault.message content.toList)

def listUnder? (name : String) : Value → Option (List Value)
  | .list items => some items
  | .object fields =>
    match fields.lookup name with
    | some (.list items) => some items
    | _ => none
  | _ => none

end Chat

end Stencil
