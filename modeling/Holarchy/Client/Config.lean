import Holarchy.Client.Error
import Holarchy.Toml.Reader
/-!
# Settings of a client

Four settings, each with a default, that are read from a TOML document and written as one.  Settings that a document
does not know are passed over; those that no session can run with are refused.
-/
namespace Holarchy

structure ClientConfig where
  /-- The space that every dance is addressed to. -/
  spaceId : String
  txId : UInt64
  /-- Milliseconds that a call waits for its answer. -/
  timeout : UInt64
  /-- How many events a subscriber may fall behind. -/
  eventCapacity : UInt64
  deriving DecidableEq

namespace ClientConfig

/-- The settings that hold where none are given. -/
def default : ClientConfig := ⟨"local", 1, 15000, 64⟩

instance : Inhabited ClientConfig := ⟨default⟩

def space (c : ClientConfig) : SpaceId := ⟨c.spaceId⟩

def tx (c : ClientConfig) : TxId := ⟨c.txId⟩

/-- Refuses settings that no session can run with. -/
def validate (c : ClientConfig) : Except ClientError Unit :=
  if c.spaceId.isEmpty then .error (.config "space_id must not be empty")
  else if c.timeout = 0 then .error (.config "timeout_ms must be positive")
  else if c.eventCapacity = 0 then .error (.config "event_capacity must be positive")
  else .ok ()

open Toml

def textSetting? (ms : Members) (key fallback : String) : Option String :=
  match ms.get? key with
  | none => some fallback
  | some (.text s) => some s
  | some _ => none

def numberSetting? (ms : Members) (key : String) (fallback : UInt64) : Option UInt64 :=
  match ms.get? key with
  | none => some fallback
  | some (.integer n) => if 0 ≤ n then some (UInt64.ofNat n.toNat) else none
  | some _ => none

/-- The settings that a document gives, whether or not a session can run with them. -/
def ofMembers? (ms : Members) : Option ClientConfig := do
  some
    { spaceId := ← textSetting? ms "space_id" default.spaceId
      txId := ← numberSetting? ms "tx_id" default.txId
      timeout := ← numberSetting? ms "timeout_ms" default.timeout
      eventCapacity := ← numberSetting? ms "event_capacity" default.eventCapacity }

def ofToml (text : String) : Except ClientError ClientConfig :=
  match readDocument text >>= ofMembers? with
  | none => .error (.config "failed to parse config")
  | some c => c.validate.map fun () => c

def ofFile (text : Option String) : Except ClientError ClientConfig :=
  match text with
  | none => .error (.config "failed to read")
  | some text => ofToml text

/-- The document that gives these settings, unless one of the numbers does not fit. -/
def toml? (c : ClientConfig) : Option String := do
  let tx ← writeNatural? c.txId.toNat
  let timeout ← writeNatural? c.timeout.toNat
  let capacity ← writeNatural? c.eventCapacity.toNat
  some ("space_id = " ++ writeText c.spaceId ++ "\ntx_id = " ++ tx ++ "\ntimeout_ms = " ++ timeout
    ++ "\nevent_capacity = " ++ capacity ++ "\n")

end ClientConfig

end Holarchy
