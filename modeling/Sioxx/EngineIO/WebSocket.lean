/-
Sioxx.EngineIO.WebSocket — the read loop of `websocket_transport`
(`do_read_plain`, `do_read_tls`).

Each completed `async_read` is a message or an error. The completion reads
`closing_` twice, before it looks at the result and before the next read;
other threads may have set it meanwhile, so the readings are an argument,
two for each read.
-/
import Sioxx.EngineIO.Client

namespace Sioxx

open Lib

/-- How an `async_read` completes. -/
inductive ReadResult where
  | message (payload : Bytes) (isBinary : Bool)
  | failed (reason : Bytes)
  deriving DecidableEq, Repr

namespace WebSocketTransport

/-- The reads from number `n` on, for a message handler and a close handler
with a common state. An exception leaves the loop. -/
def doRead {σ : Type} (closing : Nat → Bool) (handler : MessageHandler σ)
    (onClose : Bytes → σ → σ) : Nat → List ReadResult → σ → σ × Option JsonError
  | _, [], s => (s, none)
  | n, result :: rest, s =>
    if closing (2 * n) then (s, none)
    else
      match result with
      | .failed reason => (if closing (2 * n + 1) then s else onClose reason s, none)
      | .message payload isBinary =>
        match handler n payload isBinary s with
        | (s, some e) => (s, some e)
        | (s, none) =>
          if closing (2 * n + 1) then (s, none) else doRead closing handler onClose (n + 1) rest s

end WebSocketTransport

end Sioxx
