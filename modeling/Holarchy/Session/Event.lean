import Holarchy.Dance.Status
/-!
# Events of a session

What happened to a session, in the order in which it happened.  A channel keeps the last so many events; a subscriber
that falls further behind is told how many it has missed and goes on with those kept.
-/
namespace Holarchy

inductive SessionEvent where
  /-- The answer to a dance was taken over; the sizes are those of the pools after it. -/
  | reconciled (txId : TxId) (seq : UInt64) (dance : String) (transient staged committed : Nat)
  | rejected (txId : TxId) (seq : UInt64) (dance : String) (status : Status)
  deriving DecidableEq

namespace SessionEvent

def seq : SessionEvent → UInt64
  | .reconciled _ seq .. => seq
  | .rejected _ seq .. => seq

def isReconciled : SessionEvent → Bool
  | .reconciled .. => true
  | .rejected .. => false

end SessionEvent

/-- The least power of two that is not below a number; one for zero. -/
def kept (capacity : Nat) : Nat := if capacity ≤ 1 then 1 else 1 <<< ((capacity - 1).log2 + 1)

structure Delivery where
  /-- How many events were lost before it came to read. -/
  missed : Nat
  events : List SessionEvent
  deriving DecidableEq

/-- What a subscriber receives that has read so many events of a log, of which a channel keeps the last. -/
def Delivery.after (capacity read : Nat) (log : List SessionEvent) : Delivery :=
  let unread := log.drop read
  let missed := unread.length - kept capacity
  ⟨missed, unread.drop missed⟩

end Holarchy
