import MirrorCast.Library.Delays
import MirrorCast.Program.WifiDisplaySource.Handlers

/-! # `WifiDisplaySource` with a sink that answers: what comes in, and when -/

namespace MirrorCast.WifiDisplaySource

open Java

/-- What comes in because of an effect, with its delay in microseconds: a message that was posted,
with a delay that `Handler.sendMessageDelayed` takes in milliseconds, or the response of the sink
to an M16 request, at once. -/
def Effect.coming? (answer : ℤ → ParsedMessage) : Effect → Option (ℤ × Message)
  | .post msg delayMillis => some (delayMillis * 1000, msg)
  | .registerResponseHandler sessionID cseq .onReceiveM16Response =>
      some (0, .rtspNotify (.session sessionID (.data (answer cseq))))
  | _ => none

/-- What comes in because of the effects between two states. -/
def coming (answer : ℤ → ParsedMessage) (s t : WifiDisplaySource) : List (ℤ × Message) :=
  (t.effects.drop s.effects.length).filterMap (Effect.coming? answer)

/-- The source posts the message to itself, with a delay. -/
def Message.isTimer : Message → Bool
  | .reapDeadClients => true
  | .keepAlive _ => true
  | .teardownTriggerTimedOut => true
  | _ => false

/-- A client connects. -/
def Message.connects : Message → Bool
  | .rtspNotify (.clientConnected _ _ _ _) => true
  | _ => false

/-- The source while there is one client, which answers every M16. -/
def answered [CharData] (answer : ℤ → ParsedMessage) :
    Delays.Process WifiDisplaySource (Env × Message) Message where
  time e := e.1.nowUs
  message e := e.2
  outside msg := msg.isTimer = false
  handles e s t posts := e.2.connects = false ∧
    (onMessageReceived e.1 e.2).run s = (.ok (), t) ∧ posts = coming answer s t

end MirrorCast.WifiDisplaySource
