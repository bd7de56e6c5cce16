import Holarchy.Client.Connection
import Holarchy.Client.Lane
/-!
# Calls in time

Runs errands over one client against its other end, by a clock that jumps from one event to the next.  The errands start
together, in order; a call waits at the other end for the delay that holds there, and is given up when its time is over
first.  A reply that comes just in time counts, and what is due at some time happens before an interruption at that time.
-/
namespace Holarchy

/-- Something that is done with a client; `ρ` is what an act on the spot gives. -/
inductive Errand (ρ : Type) where
  /-- Is done at once, without the guard. -/
  | act (f : Client → Remote → ρ × Client × Remote)
  | call (c : Call)
  /-- Reads placeholders, one call each: those of the given holons, or of those that were fetched last. -/
  | refresh (f : Option FetchedHolons)

inductive Result (ρ : Type) where
  | acted (r : ρ)
  | called (o : Outcome)
  | refreshed (r : Except CallError FetchedHolons)

def Result.fetched? {ρ : Type} : Result ρ → Option FetchedHolons
  | .called (.ok (_, .fetched f)) => some f
  | _ => none

structure Wait where
  caller : Nat
  /-- The request as it has arrived at the other end. -/
  request : DanceRequest
  /-- When the wait is over. -/
  ends : Nat
  /-- Whether it ends without a reply. -/
  expires : Bool

structure Timeline (ρ : Type) where
  lane : Lane
  remote : Remote
  ids : IdSource
  now : Nat
  wait : Option Wait
  /-- Holons whose placeholders a caller reads. -/
  refreshing : List (Nat × FetchedHolons)
  /-- The holons that were fetched last. -/
  fetched : FetchedHolons
  results : List (Nat × Result ρ)

inductive Interruption where
  | cancel
  | drop
  deriving DecidableEq

namespace Timeline

variable {ρ : Type}

def start (k : Connection) (fetched : FetchedHolons) : Timeline ρ :=
  ⟨.idle k.client, k.remote, k.ids, 0, none, [], fetched, []⟩

def connection (t : Timeline ρ) : Connection := ⟨t.lane.client, t.remote, t.ids⟩

/-- How many dances may still be launched. -/
def pending (t : Timeline ρ) : Nat := t.lane.queue.length + (t.refreshing.flatMap fun r => r.2.placeholders).length

def finish (t : Timeline ρ) (caller : Nat) (r : Result ρ) : Timeline ρ :=
  { t with results := t.results ++ [(caller, r)], fetched := r.fetched?.getD t.fetched }

def ask (t : Timeline ρ) (caller : Nat) (c : Call) : Timeline ρ := { t with lane := t.lane.step (.ask caller c) }

/-- Goes on with the placeholders of a caller: the next one is asked for, or there are no more. -/
def refresh (t : Timeline ρ) (caller : Nat) (f : FetchedHolons) : Timeline ρ :=
  let others := t.refreshing.filter fun r => r.1 != caller
  match f.next? with
  | some c => { t with refreshing := (caller, f) :: others }.ask caller c
  | none => { t with refreshing := others }.finish caller (.refreshed (.ok ⟨f.holons, []⟩))

def hand (t : Timeline ρ) (caller : Nat) (o : Outcome) : Timeline ρ :=
  match t.refreshing.lookup caller, o with
  | some f, .ok (_, answer) => t.refresh caller (f.advance answer)
  | some _, .error e =>
    { t with refreshing := t.refreshing.filter fun r => r.1 != caller }.finish caller (.refreshed (.error e))
  | none, o => t.finish caller (.called o)

def handAll (t : Timeline ρ) : Timeline ρ :=
  t.lane.ended.foldl (fun t e => t.hand e.1 e.2) { t with lane := { t.lane with ended := [] }, wait := none }

def reply (t : Timeline ρ) (caller : Nat) (q : DanceRequest) : Timeline ρ :=
  let ((r, remote), ids) := t.remote.answer q t.ids
  { t with lane := t.lane.step (.reply caller r), remote, ids }.handAll

/-- Sends the request of a flight; without a delay the reply is there at once. -/
def send (t : Timeline ρ) (caller : Nat) (f : Flight) : Timeline ρ :=
  match t.remote.receive f.request with
  | (.error e, remote) => { t with lane := t.lane.step (.reply caller (.error e)), remote }.handAll
  | (.ok q, remote) =>
    let t := { t with remote }
    let limit := t.lane.client.config.timeout.toNat
    if remote.delay = 0 then t.reply caller q
    else if limit < remote.delay then { t with wait := some ⟨caller, q, t.now + limit, true⟩ }
    else { t with wait := some ⟨caller, q, t.now + remote.delay, false⟩ }

/-- Launches calls, so many at most, while the guard is free and somebody waits for it; who came first goes first. -/
def launch : Nat → Timeline ρ → Timeline ρ
  | 0, t => t
  | more + 1, t =>
    match t.lane.inside, t.lane.queue with
    | [], (caller, _) :: _ =>
      let t := { t with lane := t.lane.run [.enter caller, .launch caller] }
      match t.lane.flight? caller with
      | some f => (t.send caller f).launch more
      | none => t.handAll.launch more
    | _, _ => t

/-- Launches calls as long as the guard is free and somebody waits for it. -/
def proceed (t : Timeline ρ) : Timeline ρ := t.launch t.pending

/-- Ends a wait, at its time. -/
def conclude (t : Timeline ρ) (w : Wait) : Timeline ρ :=
  let t := { t with now := w.ends }
  if w.expires then { t with lane := t.lane.step (.expire w.caller) }.handAll else t.reply w.caller w.request

/-- Lets time pass up to a moment, or until nothing more happens; so many waits may end at most. -/
def pass (moment : Option Nat) : Nat → Timeline ρ → Timeline ρ
  | 0, t => t
  | more + 1, t =>
    match t.wait with
    | none => t
    | some w => if moment.all (w.ends ≤ ·) then (t.conclude w).proceed.pass moment more else t

/-- Lets time pass up to a moment, or until nothing more happens.  One wait may be on, and each launch begins another. -/
def advance (t : Timeline ρ) (moment : Option Nat) : Timeline ρ := t.pass moment (t.pending + 1)

def begin (t : Timeline ρ) (caller : Nat) (errand : Errand ρ) : Timeline ρ :=
  match errand with
  | .act f =>
    let (r, client, remote) := f t.lane.client t.remote
    { t with lane := { t.lane with client }, remote }.finish caller (.acted r)
  | .call c => (t.ask caller c).proceed
  | .refresh f => (t.refresh caller (f.getD t.fetched)).proceed

/-- Starts errands in order, the callers numbered from the given number on. -/
def beginAll (t : Timeline ρ) : Nat → List (Errand ρ) → Timeline ρ
  | _, [] => t
  | caller, errand :: errands => (t.begin caller errand).beginAll (caller + 1) errands

/-- Interrupts what goes on, and tells what was cancelled.  A drop takes every call away from its caller. -/
def interrupt (t : Timeline ρ) : Interruption → Option UInt64 × Timeline ρ
  | .cancel => (t.lane.client.cancelInFlight.1, { t with lane := t.lane.step .cancel })
  | .drop =>
    let callers := t.lane.queue.map Prod.fst ++ t.lane.inside.map Prod.fst
    (none, { t with lane := t.lane.run (callers.map .drop), wait := none })

/-- Lets time pass to each interruption in turn, and then to the end; gives what was cancelled. -/
def interruptAll (t : Timeline ρ) : List (Nat × Interruption) → Option UInt64 × Timeline ρ
  | [] => (none, t.advance none)
  | (moment, i) :: rest =>
    let (seq, t) := (t.advance (some moment)).interrupt i
    let (later, t) := t.interruptAll rest
    (seq.or later, t)

def result? (t : Timeline ρ) (caller : Nat) : Option (Result ρ) := t.results.lookup caller

end Timeline

structure Gathering (ρ : Type) where
  /-- The results in the order of the errands; a call that was dropped has none. -/
  results : List (Option (Result ρ))
  cancelled : Option UInt64
  connection : Connection
  fetched : FetchedHolons

/-- Runs errands together over a connection, with interruptions in the order of their times. -/
def Connection.runTogether {ρ : Type} (k : Connection) (fetched : FetchedHolons) (errands : List (Errand ρ))
    (interruptions : List (Nat × Interruption)) : Gathering ρ :=
  let (cancelled, ended) := ((Timeline.start k fetched).beginAll 0 errands).interruptAll interruptions
  ⟨(List.range errands.length).map ended.result?, cancelled, ended.connection, ended.fetched⟩

end Holarchy
