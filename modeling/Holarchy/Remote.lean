import Holarchy.Call.Error
import Holarchy.Server
/-!
# The other end

What a client can be connected to: a server in memory, directly or through encoded texts, or replies that were laid out
beforehand, as responses or as texts.  A request is first received, which is when it is noted, and later answered.
-/
namespace Holarchy

inductive Reply where
  | respond (r : DanceResponse)
  | fail (reason : String)
  deriving DecidableEq

inductive Remote where
  | direct (server : Server)
  /-- A server that requests reach as texts and that answers in texts. -/
  | encoded (server : Server)
  | scripted (replies : List Reply) (requests : List DanceRequest)
  /-- A channel that gives texts back, none where it is closed. -/
  | channel (replies : List (Option String)) (requests : List String)
  deriving DecidableEq

namespace Remote

def server? : Remote → Option Server
  | .direct s | .encoded s => some s
  | _ => none

/-- Changes the server at the other end, if there is one. -/
def mapServer (r : Remote) (f : Server → Server) : Remote :=
  match r with
  | .direct s => .direct (f s)
  | .encoded s => .encoded (f s)
  | r => r

/-- Lays out one more reply, where replies are laid out as responses. -/
def push (r : Remote) (reply : Reply) : Remote :=
  match r with
  | .scripted replies requests => .scripted (replies ++ [reply]) requests
  | r => r

/-- Milliseconds that a request waits between being received and being answered. -/
def delay (r : Remote) : Nat := ((r.server?.bind Server.delay)).getD 0

/-- Notes a request, and gives it as it has arrived. -/
def receive (r : Remote) (q : DanceRequest) : Except CallError DanceRequest × Remote :=
  match r with
  | .direct s => (.ok q, .direct (s.receive q))
  | .encoded s =>
    match Wire.decodeRequest (Wire.encodeRequest q) with
    | .error e => (.error (.decode e), r)
    | .ok q => (.ok q, .encoded (s.receive q))
  | .scripted replies requests => (.ok q, .scripted replies (requests ++ [q]))
  | .channel replies requests => (.ok q, .channel replies (requests ++ [Wire.encodeRequest q]))

def decoded (text : String) : Except CallError DanceResponse :=
  match Wire.decodeResponse text with
  | .ok r => .ok r
  | .error e => .error (.decode e)

/-- Answers a request that was received. -/
def answer (r : Remote) (q : DanceRequest) (ids : IdSource) : (Except CallError DanceResponse × Remote) × IdSource :=
  match r with
  | .direct s =>
    let ((response, s), ids) := s.handle q ids
    ((.ok response, .direct s), ids)
  | .encoded s =>
    let ((response, s), ids) := s.handle q ids
    ((decoded (Wire.encodeResponse response), .encoded s), ids)
  | .scripted (.respond response :: replies) requests => ((.ok response, .scripted replies requests), ids)
  | .scripted (.fail reason :: replies) requests => ((.error (.transport reason), .scripted replies requests), ids)
  | .scripted [] _ => ((.error (.transport ("no scripted reply for " ++ q.name)), r), ids)
  | .channel (some text :: replies) requests => ((decoded text, .channel replies requests), ids)
  | .channel (none :: replies) requests => ((.error (.transport "channel closed"), .channel replies requests), ids)
  | .channel [] _ => ((.error (.transport "channel closed"), r), ids)

end Remote

end Holarchy
