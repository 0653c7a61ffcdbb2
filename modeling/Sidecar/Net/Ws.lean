import Sidecar.Framework.Run
import Sidecar.Model.Primitives

/-! The reconnecting websocket client: one connection after another, each with its frames, and
a handler that is told of both. -/

namespace Sidecar.Net

/-- What a subscriber does with the events of the client, over its own state. -/
structure MessageHandler (σ : Type) where
  onMessage : String → σ → σ
  onConnected : σ → σ
  onDisconnected : σ → σ
  resumeQuery : σ → Option String

structure WsClient where
  baseUrl : String
  deriving DecidableEq

/-- The query of a resumed subscription goes behind those of the configured address. -/
def WsClient.connectUrl (client : WsClient) : Option String → String
  | some query => client.baseUrl ++ (if client.baseUrl.contains '?' then "&" else "?") ++ query
  | none => client.baseUrl

/-- What the client can meet: the outcome of a connection attempt, a frame, one of the ends of
a connection, and the end of the pause before the next attempt. -/
inductive WsEvent where
  | connectFailed
  | connected
  | text (content : String)
  | binary (bytes : Bytes)
  | ping
  | pong
  | frame
  | close
  | readError
  | ended
  | idleTimeout
  | retry
  deriving DecidableEq

inductive Phase where
  | connecting (url : String)
  | streaming
  | backoff
  deriving DecidableEq

/-- `run` between two events, with the state of its handler. -/
structure Subscription (σ : Type) where
  phase : Phase
  state : σ

/-- The text of a frame that goes to the handler; binary frames count when they are text. -/
def WsEvent.message : WsEvent → Option String
  | .text content => some content
  | .binary bytes => String.fromUTF8? ⟨bytes.toArray⟩
  | _ => none

/-- Whether an event says something about the connection. -/
def WsEvent.connection : WsEvent → Option Bool
  | .connected => some true
  | .connectFailed | .close | .readError | .ended | .idleTimeout => some false
  | _ => none

section Client

variable {σ : Type} (handler : MessageHandler σ) (client : WsClient)

def connecting (state : σ) : Subscription σ :=
  ⟨.connecting (client.connectUrl (handler.resumeQuery state)), state⟩

/-- `stream_once` inside the loop of `run`. However a connection ends, the handler hears of it
before the pause. -/
def next (s : Subscription σ) (event : WsEvent) : Option (Subscription σ) :=
  match s.phase, event with
  | .connecting _, .connected => some ⟨.streaming, handler.onConnected s.state⟩
  | .connecting _, .connectFailed => some ⟨.backoff, handler.onDisconnected s.state⟩
  | .streaming, .text text => some { s with state := handler.onMessage text s.state }
  | .streaming, .binary bytes =>
    match String.fromUTF8? ⟨bytes.toArray⟩ with
    | some text => some { s with state := handler.onMessage text s.state }
    | none => some s
  | .streaming, .ping | .streaming, .pong | .streaming, .frame => some s
  | .streaming, .close | .streaming, .readError | .streaming, .ended | .streaming, .idleTimeout =>
    some ⟨.backoff, handler.onDisconnected s.state⟩
  | .backoff, .retry => some (connecting handler client s.state)
  | _, _ => none

def WsStep (s : Subscription σ) (event : WsEvent) (t : Subscription σ) : Prop :=
  next handler client s event = some t

variable {handler client}

/-- What an event does to the state of the handler. -/
def handled (handler : MessageHandler σ) (event : WsEvent) (state : σ) : σ :=
  match event.connection with
  | some true => handler.onConnected state
  | some false => handler.onDisconnected state
  | none => (event.message).elim state (fun text => handler.onMessage text state)

theorem state_of_wsStep {s t : Subscription σ} {event : WsEvent}
    (h : WsStep handler client s event t) : t.state = handled handler event s.state := by
  unfold WsStep next at h
  split at h
  case h_4 bytes _ =>
    split at h
    · next text htext =>
      rw [← Option.some.inj h]
      simp [handled, WsEvent.connection, WsEvent.message, htext]
    · next htext =>
      rw [← Option.some.inj h]
      simp [handled, WsEvent.connection, WsEvent.message, htext]
  -- the other rounds do what the event says, and the last case is no round
  all_goals
    first
    | (rw [← Option.some.inj h]
       rfl)
    | simp at h

/-- A frame moves nothing but the state of the handler. -/
theorem phase_of_message {s t : Subscription σ} {event : WsEvent} {text : String}
    (h : WsStep handler client s event t) (hmessage : event.message = some text) :
    t.phase = s.phase := by
  cases event with
  | text text' =>
    cases hp : s.phase with
    | streaming =>
      simp only [WsStep, next, hp, Option.some.injEq] at h
      rw [← h]
    | connecting | backoff => simp [WsStep, next, hp] at h
  | binary bytes =>
    cases hp : s.phase with
    | streaming =>
      have hutf : String.fromUTF8? ⟨bytes.toArray⟩ = some text := hmessage
      simp only [WsStep, next, hp, hutf, Option.some.injEq] at h
      rw [← h]
    | connecting | backoff => simp [WsStep, next, hp] at h
  | connectFailed | connected | ping | pong | frame | close | readError | ended | idleTimeout
    | retry => simp [WsEvent.message] at hmessage

end Client

end Sidecar.Net
