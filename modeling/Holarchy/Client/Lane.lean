import Holarchy.Client
/-!
# Calls that overlap

Several callers may use one client at a time.  A call waits for the guard of the session, is given it when it is free,
and goes on from there when its turn to run comes; from then on it waits for its reply.  What happens, and when, is up to
the outside: a `Move` is anything that can happen next, and `Lane.step` says what it leads to.
-/
namespace Holarchy

/-- How far a call has come that was given the guard. -/
inductive Progress where
  /-- It has not gone on yet. -/
  | ready (call : Call)
  /-- Its request has gone out. -/
  | flying (f : Flight)

structure Lane where
  client : Client
  /-- Calls that wait for the guard, with the numbers of their callers. -/
  queue : List (Nat × Call)
  /-- Calls that were given the guard and are not over. -/
  inside : List (Nat × Progress)
  /-- The requests that have gone out, in order. -/
  sent : List DanceRequest
  /-- What the calls came to that have ended, in the order of their ends. -/
  ended : List (Nat × Outcome)

inductive Move where
  | ask (caller : Nat) (call : Call)
  /-- A call that waits is given the guard, if that is free. -/
  | enter (caller : Nat)
  /-- A call that was given the guard goes on: it makes its request. -/
  | launch (caller : Nat)
  | reply (caller : Nat) (r : Except CallError DanceResponse)
  | expire (caller : Nat)
  /-- A caller gives its call up, wherever that is. -/
  | drop (caller : Nat)
  | cancel

namespace Lane

def idle (c : Client) : Lane := ⟨c, [], [], [], []⟩

/-- The flight of a caller whose request has gone out. -/
def flight? (l : Lane) (caller : Nat) : Option Flight :=
  match l.inside.lookup caller with
  | some (.flying f) => some f
  | _ => none

/-- The calls of everybody else among those that were given the guard. -/
def others (l : Lane) (caller : Nat) : List (Nat × Progress) := l.inside.filter fun e => e.1 != caller

def conclude (l : Lane) (caller : Nat) (r : Outcome × Client) : Lane :=
  { l with client := r.2, inside := l.others caller, ended := l.ended ++ [(caller, r.1)] }

/-- What a move leads to; a move that cannot happen leads nowhere else. -/
def step (l : Lane) : Move → Lane
  | .ask caller call => { l with queue := l.queue ++ [(caller, call)] }
  | .enter caller =>
    match l.client.session.held, l.queue.lookup caller with
    | false, some call =>
      { l with
        client := l.client.begin
        queue := l.queue.eraseP fun q => q.1 == caller
        inside := l.inside ++ [(caller, .ready call)] }
    | _, _ => l
  | .launch caller =>
    match l.inside.lookup caller with
    | some (.ready call) =>
      match l.client.launch call with
      | .error e => l.conclude caller (.error e, l.client.forget)
      | .ok (f, client) =>
        { l with client, inside := (caller, .flying f) :: l.others caller, sent := l.sent ++ [f.request] }
    | _ => l
  | .reply caller r =>
    match l.flight? caller with
    | some f => l.conclude caller (l.client.land f r)
    | none => l
  | .expire caller =>
    match l.flight? caller with
    | some f => l.conclude caller (l.client.expire f)
    | none => l
  | .drop caller =>
    match l.inside.lookup caller with
    | some _ => { l with client := l.client.forget, inside := l.others caller }
    | none => { l with queue := l.queue.filter fun q => q.1 != caller }
  | .cancel => { l with client := l.client.cancelInFlight.2 }

def run (l : Lane) (moves : List Move) : Lane := moves.foldl step l

end Lane

end Holarchy
