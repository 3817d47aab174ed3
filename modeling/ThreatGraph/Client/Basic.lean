import ThreatGraph.Client.Error
import ThreatGraph.Environment
import ThreatGraph.Text.Digit
import ThreatGraph.Text.Quoted

/-!
# Clients

A client has one credential and one base URL; there are no settings beyond its own.
-/

namespace ThreatGraph

structure Client where
  baseUrl : String
  accessToken : String
  /-- The milliseconds that one request may take. -/
  timeout : Nat
  /-- How often a read is tried, the first time included. -/
  maxAttempts : Nat
  /-- The milliseconds between two attempts. -/
  backoff : Nat
  deriving DecidableEq, Inhabited, Repr

namespace Client

def defaultBaseUrl : String := "https://graph.facebook.com/v6.0"

/-- The variable of the environment that usually holds the token. -/
def defaultTokenVariable : String := "TX_ACCESS_TOKEN"

def defaultTimeout : Nat := 60000

def defaultMaxAttempts : Nat := 5

def ofToken (token : String) : Client :=
  ⟨defaultBaseUrl, token, defaultTimeout, defaultMaxAttempts, 0⟩

def ofEnvironment (name : String) (env : Environment) : Except ClientError Client :=
  match env.value? name with
  | some token => .ok (ofToken token)
  | none => .error (.missingCredential name)

def durationText (millis : Nat) : String :=
  if millis = 0 then "0ns"
  else if millis < 1000 then toString millis ++ "ms"
  else
    match Text.dropTrailingZeros ((Nat.toDigits 10 (1000 + millis % 1000)).drop 1) with
    | [] => toString (millis / 1000) ++ "s"
    | fraction => toString (millis / 1000) ++ "." ++ String.ofList fraction ++ "s"

/-- What is shown of a client.  The token stays hidden. -/
def describe (c : Client) : String :=
  "ClientConfig \x7b base_url: " ++ Text.quote c.baseUrl ++ ", access_token: " ++
    Text.quote "<redacted>" ++ ", timeout: " ++ durationText c.timeout ++
    ", retry: RetryPolicy \x7b max_attempts: " ++ toString c.maxAttempts ++ ", backoff: " ++
    durationText c.backoff ++ " \x7d \x7d"

end Client
end ThreatGraph
