import ThreatGraph.Web.UrlReader

/-!
# Redaction

URLs as they may be shown: the access token in the query is hidden.
-/

namespace ThreatGraph
namespace Web

def tokenName : String := "access_token"

def hidden : String := "REDACTED"

def hideToken (p : String × String) : String × String :=
  if p.1 = tokenName then (p.1, hidden) else p

def hasToken (u : Url) : Bool := u.queryPairs.any fun p => p.1 == tokenName

/-- The query of a URL with a token is written anew; a URL without one stays as it is. -/
def Url.redacted (u : Url) : Url :=
  if hasToken u then u.withPairs (u.queryPairs.map hideToken) else u

def redact (u : Url) : String := u.redacted.text

@[simp] theorem hideToken_name (p : String × String) : (hideToken p).1 = p.1 := by
  unfold hideToken; split <;> rfl

theorem redact_of_not_hasToken {u : Url} (h : hasToken u = false) : redact u = u.text := by
  simp [redact, Url.redacted, h]

end Web
end ThreatGraph
