import Holarchy.Client
import Holarchy.Remote
/-!
# A client at work

A client, the other end it talks to, and the source of the ids that the other end draws.  A call made here is over before
the next one is made.
-/
namespace Holarchy

structure Connection where
  client : Client
  remote : Remote
  ids : IdSource

namespace Connection

def call (k : Connection) (c : Call) : Outcome × Connection :=
  match k.client.begin.launch c with
  | .error e => (.error e, { k with client := k.client.begin.forget })
  | .ok (f, client) =>
    match k.remote.receive f.request with
    | (.error e, remote) =>
      let (outcome, client) := client.land f (.error e)
      (outcome, { k with client, remote })
    | (.ok q, remote) =>
      let ((reply, remote), ids) := remote.answer q k.ids
      let (outcome, client) := client.land f reply
      (outcome, ⟨client, remote, ids⟩)

def ask (k : Connection) (d : Dance) : Except ClientError Answer × Connection :=
  match k.call (.typed d) with
  | (.ok (_, answer), k) => (.ok answer, k)
  | (.error e, k) => (.error (.ofCall e), k)

end Connection

/-- The call that reads the first placeholder. -/
def FetchedHolons.next? (f : FetchedHolons) : Option Call :=
  f.placeholders.head?.map fun id => .typed (.getHolonById (.local id))

/-- The holons with the first placeholder read. -/
def FetchedHolons.advance (f : FetchedHolons) : Answer → FetchedHolons
  | .savedHolon h =>
    match f.placeholders with
    | id :: rest => { f.fill id h with placeholders := rest }
    | [] => f
  | _ => { f with placeholders := f.placeholders.drop 1 }

namespace Connection

/-- Reads placeholders one after the other, up to the first that cannot be read. -/
def refreshFrom (k : Connection) (holons : List SavedHolon) :
    List LocalId → Except CallError FetchedHolons × Connection
  | [] => (.ok ⟨holons, []⟩, k)
  | id :: rest =>
    match k.call (.typed (.getHolonById (.local id))) with
    | (.error e, k) => (.error e, k)
    | (.ok (_, answer), k) => k.refreshFrom (FetchedHolons.advance ⟨holons, id :: rest⟩ answer).holons rest

def refreshPlaceholders (k : Connection) (f : FetchedHolons) : Except ClientError FetchedHolons × Connection :=
  match k.refreshFrom f.holons f.placeholders with
  | (.ok f, k) => (.ok f, k)
  | (.error e, k) => (.error (.ofCall e), k)

end Connection

end Holarchy
