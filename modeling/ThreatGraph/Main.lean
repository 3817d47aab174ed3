import Std.Time.DateTime.Timestamp
import ThreatGraph.Command.Run

/-!
# The command line

Gathers what a run reads of the world, runs, and prints.  There is no transport here, so to a run the
network is down.
-/

namespace ThreatGraph
namespace Command

/-- The variables of a process, as the system lists them: each ends in a zero byte. -/
def readEnvironment (bytes : List UInt8) : Environment :=
  (Text.split (· == '\x00') (Text.Utf8.decodeLossy bytes).toList).filterMap fun entry =>
    (Text.splitFirst '=' entry).map fun v => (String.ofList v.1, String.ofList v.2)

def readBytes (path : String) : IO (Option (List UInt8)) := do
  try
    return some (← IO.FS.readBinFile path).toList
  catch _ => return none

/-- The files that a path may name, under their plain paths. -/
def readFiles (path : String) : IO Settings.Files := do
  let mut files := []
  for candidate in [path, path ++ ".toml"] do
    if let some bytes ← readBytes candidate then
      files := files ++ [(Settings.plainPath candidate, Text.Utf8.decodeLossy bytes)]
  return files

/-- Only these actions read the input. -/
def readsInput : Action → Bool
  | .idsToDetails ids => ids.isEmpty
  | .write _ _ fromInput _ => fromInput
  | _ => false

def gather (i : Invocation) : IO World := do
  let environment := readEnvironment ((← readBytes "/proc/self/environ").getD [])
  let files ← readFiles i.options.config
  let input ← if readsInput i.action then (← IO.getStdin).readBinToEnd else pure .empty
  let now := (← Std.Time.Timestamp.now).toSecondsSinceUnixEpoch
  return ⟨environment, files, input.toList, now.val, .down⟩

def perform (args : List String) : IO Outcome := do
  match readArguments args with
  | .ok invocation => return runInvocation (← gather invocation) invocation
  | .error _ => return run ⟨[], [], [], 0, .down⟩ args

end Command
end ThreatGraph

def main (args : List String) : IO UInt32 := do
  let o ← ThreatGraph.Command.perform args
  for line in o.output do IO.println line
  for line in o.errors do IO.eprintln line
  return UInt32.ofNat o.exitCode
