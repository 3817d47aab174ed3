/-!
# Environments

The variables that a program is started with.
-/

namespace ThreatGraph

/-- Names with their values, in the order in which they were set. -/
abbrev Environment := List (String × String)

namespace Environment

def value? (env : Environment) (name : String) : Option String := env.lookup name

end Environment
end ThreatGraph
