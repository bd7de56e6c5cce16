import Holarchy.Reconciliation
import Holarchy.Session.Event
import Holarchy.Reference.Shown
/-!
# Sessions

A session is the state that one transaction's dances are run against, one dance at a time.  A dance holds the guard from
before it is built until its answer has been taken over or thrown away; while it waits nobody else can replace the state.
Every dance gets a number, and an answer is taken over only if no later number has been given out: cancelling uses one
up, and so orphans the dance in flight.
-/
namespace Holarchy

structure Session where
  space : SpaceId
  /-- How many events a subscriber may fall behind. -/
  capacity : Nat
  state : SessionState
  /-- The last number given out. -/
  issued : UInt64
  /-- Whether a dance holds the guard. -/
  held : Bool
  log : List SessionEvent
  deriving DecidableEq

namespace Session

/-- A session that starts from a state, with the guard free and no number given out. -/
def start (state : SessionState) (space : SpaceId) (capacity : Nat) : Session := ⟨space, capacity, state, 0, false, []⟩

def txId (s : Session) : TxId := s.state.txId

def begin (s : Session) : Session := { s with held := true }

def finish (s : Session) : Session := { s with held := false }

def nextSeq (s : Session) : UInt64 × Session := (s.issued + 1, { s with issued := s.issued + 1 })

def isCurrent (s : Session) (seq : UInt64) : Bool := s.issued = seq

/-- Orphans the dance in flight, if one holds the guard, and gives the number that was the last until then. -/
def cancelInFlight (s : Session) : Option UInt64 × Session :=
  if s.held then (some s.issued, { s with issued := s.issued + 1 }) else (none, s)

/-- Replaces the state on behalf of a dance, unless its number is stale; tells whether it did. -/
def install (s : Session) (seq : UInt64) (next : SessionState) : Bool × Session :=
  if s.isCurrent seq then (true, { s with state := next }) else (false, s)

def emit (s : Session) (e : SessionEvent) : Session := { s with log := s.log ++ [e] }

/-- How often the state has been replaced by the answer to a dance. -/
def swaps (s : Session) : Nat := s.log.countP SessionEvent.isReconciled

def shown (s : Session) : String :=
  shownRecord "Session"
    [("space", s.space.shown), ("issued", s.issued.toNat.repr), ("state", Text.quote s.state.summary)]

end Session

end Holarchy
