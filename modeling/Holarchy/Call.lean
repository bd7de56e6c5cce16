import Holarchy.Dance.Catalog
import Holarchy.Session
/-!
# Calls

A call asks for one dance.  Once it has the guard of its session it is launched against the state there and becomes a
flight: the request that went out, with its number and the state it was made from.  When a reply has come the flight is
examined and then settled; only settling replaces the state, and it does so only after the caller has found in the reply
what it expects.
-/
namespace Holarchy

structure FetchedHolons where
  holons : List SavedHolon
  /-- The ids of those that are placeholders. -/
  placeholders : List LocalId
  deriving DecidableEq

namespace FetchedHolons

def none : FetchedHolons := ⟨[], []⟩

instance : Inhabited FetchedHolons := ⟨none⟩

def isComplete (f : FetchedHolons) : Bool := f.placeholders.isEmpty

/-- Puts a holon in every place that one id has. -/
def fill (f : FetchedHolons) (id : LocalId) (h : SavedHolon) : FetchedHolons :=
  { f with holons := f.holons.map fun g => if g.savedId = id then h else g }

end FetchedHolons

inductive Answer where
  | nothing
  | transient (r : TransientReference)
  | staged (r : StagedReference)
  | holons (hs : List Holon)
  | savedHolon (h : SavedHolon)
  | savedHolons (hs : List SavedHolon)
  | fetched (f : FetchedHolons)
  | nodes (n : NodeCollection)
  deriving DecidableEq

namespace Answer

def staged? (r : Reconciliation) : Option Answer :=
  match r.body with
  | .reference (.staged reference) => some (.staged reference)
  | _ => none

/-- What a dance gives its caller; `none` if the body has another shape. -/
def ofDance? (d : Dance) (r : Reconciliation) : Option Answer :=
  match d with
  | .newHolon _ =>
    match r.body with
    | .reference (.transient reference) => some (.transient reference)
    | _ => none
  | .stageNewHolon _ | .stageTransient _ | .stageNewFromClone _ | .stageNewVersion _ | .getStagedHolonByKey _ =>
    staged? r
  | .withProperties .. | .removeProperties .. | .addRelatedHolons .. | .removeRelatedHolons ..
  | .abandonStagedChanges _ | .deleteHolon _ => some .nothing
  | .loadHolons _ =>
    match r.body with
    | .holons hs => some (.holons hs)
    | _ => none
  | .commit => some (.savedHolons r.findings.committed)
  | .commitOne _ => r.findings.committed.head?.map .savedHolon
  | .getAllHolons =>
    match r.body with
    | .collection _ => some (.fetched ⟨r.findings.fetched, r.findings.placeholders⟩)
    | _ => none
  | .getHolonById _ => r.findings.fetched.head?.map .savedHolon
  | .queryRelationships .. =>
    match r.body with
    | .nodes n => some (.nodes n)
    | _ => none

end Answer

/-- How a request is made against the state of a session in a space, unless it is refused. -/
abbrev Build := SpaceId → SessionState → Except Refusal DanceRequest

instance : Coe Dance Build := ⟨Dance.request⟩

structure Call where
  build : Build
  /-- What the caller takes from the reply; `none` if it is not what the caller expects. -/
  extract : Reconciliation → Option Answer
  /-- Whether the caller cancels the dance while it looks at the reply. -/
  cancels : Bool
  /-- Whether the holons that the dance commits are added to those of the client. -/
  accumulates : Bool

namespace Call

/-- Asks for a dance and for the answer that belongs to it. -/
def typed (d : Dance) : Call := ⟨d, Answer.ofDance? d, false, true⟩

def plain (d : Dance) : Call := ⟨d, fun _ => some .nothing, false, true⟩

end Call

structure Flight where
  call : Call
  seq : UInt64
  /-- The state that the request was made from. -/
  before : SessionState
  request : DanceRequest

def Flight.name (f : Flight) : String := f.request.name

abbrev Outcome := Except CallError (Reconciliation × Answer)

namespace Session

/-- Launches a call that has the guard: makes the request and gives it the next number.  A dance that is refused here
takes none. -/
def launch (s : Session) (call : Call) : Except CallError (Flight × Session) :=
  match call.build s.space s.state with
  | .error e => .error (.refused e)
  | .ok request =>
    let (seq, s) := s.nextSeq
    .ok (⟨call, seq, s.state, request⟩, s)

/-- Examines the reply to a flight.  Failed delivery comes before staleness, staleness before anything that the response
says; a refusal by the server is the only fault that is announced. -/
def examine (s : Session) (f : Flight) (reply : Except CallError DanceResponse) :
    Except CallError Reconciliation × Session :=
  match reply with
  | .error e => (.error e, s)
  | .ok response =>
    if s.isCurrent f.seq then
      match reconcile f.name f.seq f.before response with
      | .error (.rejected dance status description) =>
        (.error (.rejected dance status description), s.emit (.rejected f.before.txId f.seq dance status))
      | outcome => (outcome, s)
    else (.error (.cancelled f.seq), s)

/-- Settles a flight: the caller takes its answer, and then the state is replaced and the change announced. -/
def settle (s : Session) (f : Flight) (r : Reconciliation) : Outcome × Session :=
  match f.call.extract r with
  | none => (.error (.internal ("Unexpected body for " ++ f.name)), s)
  | some answer =>
    match (if f.call.cancels then s.cancelInFlight.2 else s).install f.seq r.state with
    | (false, s) => (.error (.cancelled f.seq), s)
    | (true, s) =>
      (.ok (r, answer),
        s.emit (.reconciled r.state.txId f.seq f.name r.state.transientHolons.size r.state.stagedHolons.size
          r.findings.committed.length))

/-- Takes the reply to a flight, and frees the guard. -/
def land (s : Session) (f : Flight) (reply : Except CallError DanceResponse) : Outcome × Session :=
  match s.examine f reply with
  | (.error e, s) => (.error e, s.finish)
  | (.ok r, s) =>
    let (outcome, s) := s.settle f r
    (outcome, s.finish)

end Session

end Holarchy
