import ThreatGraph.Settings.Basic

/-!
# Reports

How a failure is shown: what failed, and below it the causes from the outside in.
-/

namespace ThreatGraph
namespace Command

structure Report where
  message : String
  causes : List String
  deriving DecidableEq, Repr

namespace Report

def ofMessage (message : String) : Report := ⟨message, []⟩

def ofClientError (e : ClientError) : Report := ⟨e.message, e.causes⟩

def ofLoadError (e : Settings.LoadError) : Report := ⟨e.message, e.causes⟩

/-- Says what was being done when the failure came. -/
def during (r : Report) (activity : String) : Report := ⟨activity, r.message :: r.causes⟩

/-- Message and causes on one line. -/
def oneLine (r : Report) : String := String.intercalate ": " (r.message :: r.causes)

end Report

def splitLines (s : String) : List String :=
  (Text.split (· == '\n') s.toList).map String.ofList

/-- The lines of a cause.  Those after the first are indented as far as it is. -/
def causeLines (head rest : String) (cause : String) : List String :=
  match splitLines cause with
  | [] => []
  | line :: lines => (head ++ line) :: lines.map (rest ++ ·)

def padLeft (width : Nat) (s : String) : String :=
  String.ofList (List.replicate (width - s.length) ' ') ++ s

/-- A single cause stands by itself; several are numbered. -/
def causesLines : List String → List String
  | [] => []
  | [cause] => causeLines "    " "    " cause
  | causes =>
    causes.zipIdx.flatMap fun c => causeLines (padLeft 5 (toString c.2) ++ ": ") "       " c.1

def Report.lines (r : Report) : List String :=
  splitLines ("Error: " ++ r.message) ++
    if r.causes.isEmpty then [] else "" :: "Caused by:" :: causesLines r.causes

end Command
end ThreatGraph
