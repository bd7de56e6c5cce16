import Holarchy.Call
import Holarchy.Client.Config
/-!
# Clients

A client keeps one session and the list of all holons that its calls have persisted.  Its calls are those of the session;
a call that fails adds nothing to the list.
-/
namespace Holarchy

structure Client where
  config : ClientConfig
  session : Session
  /-- The holons persisted by the calls of this client, in the order of their commits. -/
  committed : List SavedHolon
  deriving DecidableEq

structure ClientSetup where
  config : ClientConfig
  /-- The session to go on with, if not an empty one. -/
  state : Option SessionState
  deriving DecidableEq, Inhabited

inductive Setting where
  | config (c : ClientConfig)
  | space (text : String)
  | txId (number : UInt64)
  /-- The bound on a call, of which whole milliseconds count. -/
  | timeout (microseconds : Nat)
  | eventCapacity (n : UInt64)
  | state (s : SessionState)
  deriving DecidableEq

namespace ClientSetup

def apply (b : ClientSetup) : Setting → ClientSetup
  | .config c => { b with config := c }
  | .space text => { b with config := { b.config with spaceId := text } }
  | .txId number => { b with config := { b.config with txId := number } }
  | .timeout microseconds => { b with config := { b.config with timeout := UInt64.ofNat (microseconds / 1000) } }
  | .eventCapacity n => { b with config := { b.config with eventCapacity := n } }
  | .state s => { b with state := some s }

/-- The session to start from: it must be of the transaction that is set, and sound. -/
def startState (b : ClientSetup) : Except ClientError SessionState :=
  match b.state with
  | none => .ok (.new b.config.tx)
  | some s =>
    if s.txId = b.config.tx then
      match s.checkInvariants with
      | .ok () => .ok s
      | .error e => .error (.ofRefusal e)
    else .error (.config ("initial state belongs to " ++ s.txId.toString ++ ", not " ++ b.config.tx.toString))

def build (b : ClientSetup) : Except ClientError Client := do
  b.config.validate
  let state ← b.startState
  .ok ⟨b.config, .start state b.config.space b.config.eventCapacity.toNat, []⟩

end ClientSetup

namespace Client

def new (config : ClientConfig) : Except ClientError Client := ClientSetup.build ⟨config, none⟩

def state (c : Client) : SessionState := c.session.state

def txId (c : Client) : TxId := c.session.txId

def space (c : Client) : SpaceId := c.session.space

/-- The staged holon that stands under a key in the pool. -/
def findStagedByKey (c : Client) (key : String) : Option StagedReference :=
  (c.state.stagedHolons.idOfKey? key).map c.state.stagedReference

def getStaged (c : Client) (r : StagedReference) : Except ClientError Holon :=
  match c.state.getStaged r with
  | .ok h => .ok h
  | .error e => .error (.ofRefusal e)

def getTransient (c : Client) (r : TransientReference) : Except ClientError Holon :=
  match c.state.getTransient r with
  | .ok h => .ok h
  | .error e => .error (.ofRefusal e)

/-- Gives up the reply of the dance in flight, and tells its number. -/
def cancelInFlight (c : Client) : Option UInt64 × Client :=
  let (seq, session) := c.session.cancelInFlight
  (seq, { c with session })

def begin (c : Client) : Client := { c with session := c.session.begin }

def launch (c : Client) (call : Call) : Except CallError (Flight × Client) :=
  match c.session.launch call with
  | .error e => .error e
  | .ok (f, session) => .ok (f, { c with session })

/-- Takes the reply to a flight; if the call succeeds, the holons that it persisted are added to the list. -/
def land (c : Client) (f : Flight) (reply : Except CallError DanceResponse) : Outcome × Client :=
  match c.session.land f reply with
  | (.error e, session) => (.error e, { c with session })
  | (.ok (r, answer), session) =>
    let committed := if f.call.accumulates then c.committed ++ r.findings.committed else c.committed
    (.ok (r, answer), { c with session, committed })

def expire (c : Client) (f : Flight) : Outcome × Client :=
  (.error (.timeout f.name c.config.timeout), { c with session := c.session.finish })

def forget (c : Client) : Client := { c with session := c.session.finish }

end Client

end Holarchy
