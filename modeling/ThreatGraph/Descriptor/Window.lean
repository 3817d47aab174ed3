import ThreatGraph.Descriptor.Basic
import ThreatGraph.Time.Expression

/-!
# Windows on the time of creation

Bounds on when a descriptor was added, both included.  A descriptor whose time is not known is only
in the window without bounds.
-/

namespace ThreatGraph

structure Window where
  since : Option Int
  upTo : Option Int
  deriving DecidableEq, Inhabited, Repr

namespace Window

def isUnbounded (w : Window) : Bool := w.since.isNone && w.upTo.isNone

def admits (w : Window) (t : Int) : Bool :=
  w.since.all (fun since => decide (since ≤ t)) && w.upTo.all (fun last => decide (t ≤ last))

def contains (w : Window) (now : Int) (d : Descriptor) : Bool :=
  w.isUnbounded ||
    match d.addedOn.bind fun text => Time.resolve text now with
    | some t => w.admits t
    | none => false

end Window
end ThreatGraph
