import ThreatGraph.Json.Members
import ThreatGraph.Number.Double

/-!
# JSON values

A number is a whole number or a double; an object is a list of members that stands for a map.
-/

namespace ThreatGraph
namespace Json

inductive Number where
  | int (n : Int)
  | double (x : Double)
  deriving DecidableEq, Inhabited, Repr

inductive Value where
  | null
  | bool (b : Bool)
  | number (n : Number)
  | string (s : String)
  | array (items : List Value)
  | object (members : List (String × Value))
  deriving Inhabited, Repr

namespace Value

mutual

def same : Value → Value → Bool
  | .null, .null => true
  | .bool a, .bool b => a == b
  | .number a, .number b => a == b
  | .string a, .string b => a == b
  | .array a, .array b => sameItems a b
  | .object a, .object b => sameMembers a b
  | _, _ => false

def sameItems : List Value → List Value → Bool
  | [], [] => true
  | a :: as, b :: bs => same a b && sameItems as bs
  | _, _ => false

def sameMembers : List (String × Value) → List (String × Value) → Bool
  | [], [] => true
  | (m, a) :: as, (n, b) :: bs => m == n && same a b && sameMembers as bs
  | _, _ => false

end

mutual

theorem same_iff : ∀ a b : Value, same a b = true ↔ a = b
  | .null, b => by cases b <;> simp [same]
  | .bool _, b => by cases b <;> simp [same]
  | .number _, b => by cases b <;> simp [same]
  | .string _, b => by cases b <;> simp [same]
  | .array as, b => by
    cases b with
    | array bs => simpa [same] using sameItems_iff as bs
    | _ => simp [same]
  | .object as, b => by
    cases b with
    | object bs => simpa [same] using sameMembers_iff as bs
    | _ => simp [same]

theorem sameItems_iff : ∀ as bs : List Value, sameItems as bs = true ↔ as = bs
  | [], bs => by cases bs <;> simp [sameItems]
  | a :: as, bs => by
    cases bs with
    | nil => simp [sameItems]
    | cons b bs => simp [sameItems, same_iff a b, sameItems_iff as bs]

theorem sameMembers_iff : ∀ as bs : List (String × Value), sameMembers as bs = true ↔ as = bs
  | [], bs => by cases bs <;> simp [sameMembers]
  | (m, a) :: as, bs => by
    cases bs with
    | nil => simp [sameMembers]
    | cons b bs =>
      obtain ⟨n, b⟩ := b
      simp [sameMembers, same_iff a b, sameMembers_iff as bs]

end

instance : DecidableEq Value := fun a b =>
  if h : same a b = true then isTrue ((same_iff a b).1 h)
  else isFalse fun hab => h ((same_iff a b).2 hab)

/-- A member of an object; no other value has members. -/
def get? (name : String) : Value → Option Value
  | .object ms => Members.get? name ms
  | _ => none

def text? : Value → Option String
  | .string s => some s
  | _ => none

def ofInt (n : Int) : Value := .number (.int n)

end Value
end Json
end ThreatGraph
