import ThreatGraph.Client.Error

/-!
# Traffic

The state that the calls of a client share: the network, the requests sent so far, and the log.
`Exchange` is a call that may fail; what it sent and logged before stays.
-/

namespace ThreatGraph

open Web (Network Request Response TransferFault Url)

inductive Level where
  | debug
  | info
  | warn
  deriving DecidableEq, Repr

/-- What is logged.  URLs are shown without their token. -/
inductive Event where
  | attempt (number : Nat) (url : String)
  | retrying (attempt status : Nat) (url : String)
  | request (url : String)
  | fetchingPage (index : Nat) (url : String)
  | receivedPage (index items : Nat) (hasNext : Bool)
  | taggedObject (line : String)
  | page (verbose : Bool) (index before after : Nat)
  | missingDescriptor (id : String)
  | descriptor (line : String)
  | post (url : String) (dryRun : Bool)
  | posted (status : Nat) (url : String)
  | resolvedTag (tag id : String)
  | rejectedInput (message : String)
  | ignoredTime (flag value : String)
  deriving DecidableEq, Repr

def Event.level : Event → Level
  | .attempt .. => .debug
  | .receivedPage .. => .debug
  | .missingDescriptor _ => .debug
  | .posted .. => .debug
  | .page verbose .. => if verbose then .info else .debug
  | .retrying .. => .warn
  | .rejectedInput _ => .warn
  | .ignoredTime .. => .warn
  | _ => .info

structure Traffic where
  network : Network
  sent : List Request
  log : List Event
  deriving DecidableEq, Inhabited, Repr

namespace Traffic

def start (network : Network) : Traffic := ⟨network, [], []⟩

def note (t : Traffic) (e : Event) : Traffic := { t with log := t.log ++ [e] }

/-- Sends a request.  It counts as sent once the network has been reached, and the one reply it gets is
final: none is followed to another URL, and none is waited out for a later one. -/
def send (t : Traffic) (r : Request) : Except TransferFault Response × Traffic :=
  match r.url.requestFault? with
  | some fault => (.error fault, t)
  | none =>
    match t.network.next? with
    | none => (.error (.unreachable r.url.withoutUserinfo.text), t)
    | some (reply, network) =>
      let t := { t with network, sent := t.sent ++ [{ r with url := r.url.target }] }
      match reply with
      | .response response => (.ok response, t)
      | .closed => (.error (.closed r.url.withoutUserinfo.text), t)

@[simp] theorem note_network (t : Traffic) (e : Event) : (t.note e).network = t.network := rfl

@[simp] theorem note_sent (t : Traffic) (e : Event) : (t.note e).sent = t.sent := rfl

end Traffic

abbrev Session := StateM Traffic

abbrev Exchange := ExceptT ClientError Session

def note (e : Event) : Session Unit := modify fun t => t.note e

def noteIf (wanted : Bool) (e : Event) : Session Unit := if wanted then note e else pure ()

def send (r : Request) : Session (Except TransferFault Response) := fun t => t.send r

/-- Puts the errors of another kind under those of the client. -/
def Exchange.ofExcept {ε α : Type} (wrap : ε → ClientError) : Except ε α → Exchange α
  | .ok a => pure a
  | .error e => throw (wrap e)

end ThreatGraph
