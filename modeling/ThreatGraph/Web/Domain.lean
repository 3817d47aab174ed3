import ThreatGraph.Text.Split

/-!
# Domain names

The ASCII form of a domain name: small letters, and labels beyond ASCII in their Punycode spelling.
Of the processing of international names only this much is here: beyond the full-width forms of ASCII
there is no compatibility mapping, nothing is normalized, and a label that starts with `xn--` is taken
as it is.
-/

namespace ThreatGraph
namespace Web
namespace Domain

def digitChar (d : Nat) : Char := if d < 26 then Char.ofNat (97 + d) else Char.ofNat (22 + d)

def threshold (k bias : Nat) : Nat :=
  if k ≤ bias then 1 else if bias + 26 ≤ k then 26 else k - bias

theorem threshold_pos (k bias : Nat) : 0 < threshold k bias := by
  unfold threshold
  split
  · omega
  · split <;> omega

def adaptLoop (delta k : Nat) : Nat × Nat :=
  if 455 < delta then adaptLoop (delta / 35) (k + 36) else (delta, k)
termination_by delta
decreasing_by exact Nat.div_lt_self (by omega) (by omega)

/-- The bias after a delta has been written and `count` characters are done. -/
def adapt (delta count : Nat) (first : Bool) : Nat :=
  let delta := if first then delta / 700 else delta / 2
  let (delta, k) := adaptLoop (delta + delta / count) 0
  k + 36 * delta / (delta + 38)

/-- A number in digits whose weights depend on the bias. -/
def writeDelta (bias k q : Nat) : List Char :=
  let t := threshold k bias
  if q < t then [digitChar q]
  else digitChar (t + (q - t) % (36 - t)) :: writeDelta bias (k + 36) ((q - t) / (36 - t))
termination_by q
decreasing_by
  have h := threshold_pos k bias
  calc (q - threshold k bias) / (36 - threshold k bias)
      ≤ q - threshold k bias := Nat.div_le_self _ _
    _ < q := by omega

structure Progress where
  written : List Char
  delta : Nat
  bias : Nat
  done : Nat

/-- Passes over a character while those of code point `n` are written. -/
def Progress.pass (basic n : Nat) (p : Progress) (c : Char) : Progress :=
  if c.toNat < n then { p with delta := p.delta + 1 }
  else if c.toNat = n then
    { written := p.written ++ writeDelta p.bias 36 p.delta
      delta := 0
      bias := adapt p.delta (p.done + 1) (p.done == basic)
      done := p.done + 1 }
  else p

/-- Writes the characters of the code points in `ns`, which ascend. -/
def writeFrom (label : List Char) (basic : Nat) : List Nat → Nat → Progress → Progress
  | [], _, p => p
  | n :: ns, last, p =>
    let p := { p with delta := p.delta + (n - last) * (p.done + 1) }
    let p := label.foldl (Progress.pass basic n) p
    writeFrom label basic ns (n + 1) { p with delta := p.delta + 1 }

def isAscii (c : Char) : Bool := c.toNat < 128

def punycode (label : List Char) : List Char :=
  let basic := label.filter isAscii
  let start := if basic.isEmpty then [] else basic ++ ['-']
  let codes := ((label.filter fun c => !isAscii c).map Char.toNat).mergeSort.eraseDups
  (writeFrom label basic.length codes 128 ⟨start, 0, 72, basic.length⟩).written

/-- Blocks in which the capital letters lie a fixed distance before the small ones. -/
def capitals : List (Nat × Nat × Nat) :=
  [(0x41, 0x5A, 32), (0xC0, 0xD6, 32), (0xD8, 0xDE, 32), (0x388, 0x38A, 37), (0x38E, 0x38F, 63),
   (0x391, 0x3A1, 32), (0x3A3, 0x3AB, 32), (0x400, 0x40F, 80), (0x410, 0x42F, 32),
   (0x531, 0x556, 48)]

/-- Blocks in which capital and small letters alternate, each from a capital on. -/
def alternating : List (Nat × Nat) :=
  [(0x100, 0x12F), (0x132, 0x137), (0x139, 0x148), (0x14A, 0x177), (0x179, 0x17E),
   (0x1CD, 0x1DC), (0x1DE, 0x1EF), (0x1F8, 0x21F), (0x222, 0x233), (0x370, 0x373),
   (0x3D8, 0x3EF), (0x460, 0x481), (0x48A, 0x4BF), (0x4C1, 0x4CE), (0x4D0, 0x52F),
   (0x1E00, 0x1E95), (0x1EA0, 0x1EFF)]

def lowerCode (n : Nat) : Nat :=
  match capitals.find? fun b => b.1 ≤ n && n ≤ b.2.1 with
  | some b => n + b.2.2
  | none =>
    match alternating.find? fun b => b.1 ≤ n && n ≤ b.2 with
    | some b => if (n - b.1) % 2 = 0 then n + 1 else n
    | none =>
      if n = 0x178 then 0xFF else if n = 0x386 then 0x3AC else if n = 0x38C then 0x3CC else n

/-- Characters that a name is read without. -/
def isIgnored (c : Char) : Bool :=
  let n := c.toNat
  n == 0xAD || n == 0x34F || n == 0x200B || n == 0x2060 || n == 0x2064 || n == 0xFEFF ||
    (0xFE00 ≤ n && n ≤ 0xFE0F)

/-- The small form of a character; full-width forms are those of ASCII, and an ideographic full
stop is a point. -/
def fold (c : Char) : Char :=
  let n := c.toNat
  if n = 0x3002 ∨ n = 0xFF61 then '.'
  else if 0xFF01 ≤ n ∧ n ≤ 0xFF5E then Char.ofNat (lowerCode (n - 0xFEE0))
  else Char.ofNat (lowerCode n)

def isForbidden (c : Char) : Bool :=
  c.toNat ≤ 0x20 || c.toNat == 0x7F ||
    ['%', '#', '/', ':', '<', '>', '?', '@', '[', '\\', ']', '^', '|'].contains c

def labelToAscii (label : List Char) : List Char :=
  if label.all isAscii then label else ['x', 'n', '-', '-'] ++ punycode label

/-- The ASCII form, unless the name has a character that is forbidden.  Characters are only folded,
without normalization or a compatibility mapping of others than the full-width ones, and that an
`xn--` label is the spelling of something is not checked; so the form is that of the standard only for
a name that none of these would change or refuse. -/
def toAscii (cs : List Char) : Option (List Char) :=
  let folded := (cs.filter fun c => !isIgnored c).map fold
  if folded.any isForbidden then none
  else some (Text.join '.' ((Text.split (· == '.') folded).map labelToAscii))

end Domain
end Web
end ThreatGraph
