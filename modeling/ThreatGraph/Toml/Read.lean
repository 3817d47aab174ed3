import ThreatGraph.Toml.Scalar

/-!
# Reading TOML

A document is a sequence of headers and of keys with their values, each on a line of its own.
-/

namespace ThreatGraph
namespace Toml

/-- What was read, and the text after it. -/
abbrev Step (α : Type) := Option (α × List Char)

def isBlank (c : Char) : Bool := c == ' ' || c == '\t'

def skipBlank (cs : List Char) : List Char := cs.dropWhile isBlank

/-- The characters of comments and of text in quotes: no controls but the tab. -/
def isTextChar (c : Char) : Bool := c == '\t' || (0x20 ≤ c.toNat && c.toNat != 0x7F)

def skipFiller (inComment : Bool) : List Char → List Char
  | [] => []
  | c :: rest =>
    if c = '\n' then skipFiller false rest
    else if c = '\r' ∧ rest.head? = some '\n' then skipFiller inComment rest
    else if inComment then if isTextChar c then skipFiller true rest else c :: rest
    else if c = '#' then skipFiller true rest
    else if isBlank c then skipFiller false rest
    else c :: rest

/-- Reads what may stand behind a statement on its line, and the end of the line. -/
def endLine (cs : List Char) : Option (List Char) :=
  let rest := match skipBlank cs with
    | '#' :: rest => rest.dropWhile isTextChar
    | rest => rest
  match rest with
  | [] => some []
  | '\n' :: rest => some rest
  | '\r' :: '\n' :: rest => some rest
  | _ => none

def isScalarValue (n : Nat) : Bool := n < 0xD800 || (0xE000 ≤ n && n < 0x110000)

/-- The character with a code of `size` hexadecimal digits, and the digits with their letter. -/
def readCode (size : Nat) (cs : List Char) : Option (Char × Nat) :=
  let digits := cs.take size
  let n := Text.baseValue 16 digits
  if digits.length = size ∧ digits.all Text.isHexDigit ∧ isScalarValue n then some (Char.ofNat n, size + 1)
  else none

/-- The character of an escape, read behind its backslash, and the number of characters that it
takes there. -/
def readEscape : List Char → Option (Char × Nat)
  | 'b' :: _ => some ('\x08', 1)
  | 't' :: _ => some ('\t', 1)
  | 'n' :: _ => some ('\n', 1)
  | 'f' :: _ => some ('\x0c', 1)
  | 'r' :: _ => some ('\r', 1)
  | '"' :: _ => some ('"', 1)
  | '\\' :: _ => some ('\\', 1)
  | 'u' :: cs => readCode 4 cs
  | 'U' :: cs => readCode 8 cs
  | _ => none

/-- Whether a backslash starts an escape in text between such quotes. -/
def hasEscapes (quote : Char) : Bool := quote == '"'

/-- Reads text on one line behind its quote; `skip` characters belong to the escape before. -/
def readLineText (quote : Char) (skip : Nat) : List Char → Step (List Char)
  | [] => none
  | c :: rest =>
    match skip with
    | skip + 1 => readLineText quote skip rest
    | 0 =>
      if c = quote then some ([], rest)
      else if c = '\\' ∧ hasEscapes quote then
        match readEscape rest with
        | none => none
        | some (d, size) => (readLineText quote size rest).map fun r => (d :: r.1, r.2)
      else if isTextChar c then (readLineText quote 0 rest).map fun r => (c :: r.1, r.2)
      else none

def startsLine (cs : List Char) : Bool :=
  match cs with
  | '\n' :: _ => true
  | '\r' :: '\n' :: _ => true
  | _ => false

def isFoldable (c : Char) : Bool := isBlank c || c == '\n'

/-- The length of the line end behind a backslash, together with all blanks and further line ends;
the backslash takes them out of the text. -/
def foldedLength? (cs : List Char) : Option Nat :=
  if startsLine (skipBlank cs) then
    some (cs.length - (skipFolded cs).length)
  else none
where
  skipFolded : List Char → List Char
    | [] => []
    | c :: rest =>
      if isFoldable c || (c == '\r' && rest.head? == some '\n') then skipFolded rest else c :: rest

/-- Reads text over several lines behind its quotes, up to three of them in a row.  Up to two more
in front of these belong to the text. -/
def readLinesText (quote : Char) (skip : Nat) : List Char → Step (List Char)
  | [] => none
  | c :: rest =>
    match skip with
    | skip + 1 => readLinesText quote skip rest
    | 0 =>
      if c = quote then
        let more := (rest.takeWhile (· == quote)).length
        if 2 ≤ more then some (List.replicate (min (more - 2) 2) quote, rest.drop (min more 4))
        else (readLinesText quote 0 rest).map fun r => (c :: r.1, r.2)
      else if c = '\\' ∧ hasEscapes quote then
        match foldedLength? rest with
        | some size => readLinesText quote size rest
        | none =>
          match readEscape rest with
          | none => none
          | some (d, size) => (readLinesText quote size rest).map fun r => (d :: r.1, r.2)
      else if c = '\r' ∧ rest.head? = some '\n' then readLinesText quote 0 rest
      else if isTextChar c ∨ c = '\n' then
        (readLinesText quote 0 rest).map fun r => (c :: r.1, r.2)
      else none

/-- A line end right behind the opening quotes is no part of the text. -/
def dropFirstLine : List Char → List Char
  | '\n' :: cs => cs
  | '\r' :: '\n' :: cs => cs
  | cs => cs

def readQuoted (quote : Char) : List Char → Step (List Char)
  | a :: b :: rest =>
    if a = quote ∧ b = quote then readLinesText quote 0 (dropFirstLine rest)
    else readLineText quote 0 (a :: b :: rest)
  | cs => readLineText quote 0 cs

/-- Nesting goes less deep than this, and keys have fewer names. -/
def depthLimit : Nat := 80

def isKeyChar (c : Char) : Bool := c.isAlphanum || c == '_' || c == '-'

def readName : List Char → Step String
  | '"' :: cs => (readLineText '"' 0 cs).map fun r => (String.ofList r.1, r.2)
  | '\'' :: cs => (readLineText '\'' 0 cs).map fun r => (String.ofList r.1, r.2)
  | cs =>
    let name := cs.takeWhile isKeyChar
    if name.isEmpty then none else some (String.ofList name, cs.dropWhile isKeyChar)

/-- Reads the names of a key with dots between them: those before the last, and the last. -/
def readKey : Nat → List Char → Step (List String × String)
  | 0, _ => none
  | left + 1, cs =>
    match readName (skipBlank cs) with
    | none => none
    | some (name, rest) =>
      match skipBlank rest with
      | '.' :: rest => (readKey left rest).map fun r => ((name :: r.1.1, r.1.2), r.2)
      | rest => some (([], name), rest)

structure Pair where
  path : List String
  name : String
  value : Value

def readPair (value : List Char → Step Value) (cs : List Char) : Step Pair :=
  match readKey (depthLimit - 1) cs with
  | some ((path, name), '=' :: rest) =>
    (value (skipBlank rest)).map fun r => (⟨path, name, r.1⟩, r.2)
  | _ => none

/-- Reads items behind a bracket or a comma.  `value` reads one of them; each takes at least one
character, so `fuel` is the length of the text. -/
def readItems (value : List Char → Step Value) : Nat → List Char → Step (List Value)
  | 0, _ => none
  | fuel + 1, cs =>
    match skipFiller false cs with
    | ']' :: rest => some ([], rest)
    | cs =>
      match value cs with
      | none => none
      | some (v, rest) =>
        match skipFiller false rest with
        | ']' :: rest => some ([v], rest)
        | ',' :: rest => (readItems value fuel rest).map fun r => (v :: r.1, r.2)
        | _ => none

/-- Reads the pairs of an inline table onto those read before. -/
def readPairs (value : List Char → Step Value) : Nat → Members → List Char → Step Members
  | 0, _, _ => none
  | fuel + 1, ms, cs =>
    match readPair value cs with
    | none => none
    | some (p, rest) =>
      match add p.path p.name p.value .inline ms with
      | none => none
      | some ms =>
        match skipBlank rest with
        | '\x7d' :: rest => some (ms, rest)
        | ',' :: rest => readPairs value fuel ms rest
        | _ => none

def readInline (value : List Char → Step Value) (cs : List Char) : Step Value :=
  match skipBlank cs with
  | '\x7d' :: rest => some (.table .inline [], rest)
  | cs => (readPairs value cs.length [] cs).map fun r => (.table .inline r.1, r.2)

def readWord (cs : List Char) : Step Value :=
  let (word, rest) := splitWord cs
  (readWord? word).map fun v => (v, rest)

/-- Reads a value in which arrays and inline tables nest at most `depth` deep. -/
def readValue (depth : Nat) : List Char → Step Value
  | '"' :: cs => (readQuoted '"' cs).map fun r => (.string (String.ofList r.1), r.2)
  | '\'' :: cs => (readQuoted '\'' cs).map fun r => (.string (String.ofList r.1), r.2)
  | '[' :: cs =>
    match depth with
    | 0 => none
    | depth + 1 => (readItems (readValue depth) (cs.length + 1) cs).map fun r => (.array r.1, r.2)
  | '\x7b' :: cs =>
    match depth with
    | 0 => none
    | depth + 1 => readInline (readValue depth) cs
  | cs => readWord cs

inductive Statement where
  | table (path : List String) (name : String)
  | element (path : List String) (name : String)
  | pair (p : Pair)

def readStatement : List Char → Step Statement
  | '[' :: '[' :: cs =>
    match readKey (depthLimit - 1) cs with
    | some ((path, name), ']' :: ']' :: rest) => some (.element path name, rest)
    | _ => none
  | '[' :: cs =>
    match readKey (depthLimit - 1) cs with
    | some ((path, name), ']' :: rest) => some (.table path name, rest)
    | _ => none
  | cs => (readPair (readValue (depthLimit - 1)) cs).map fun r => (.pair r.1, r.2)

/-- Every statement takes at least one character, so `fuel` is the length of the text. -/
def readStatements : Nat → List Char → Option (List Statement)
  | 0, _ => some []
  | fuel + 1, cs =>
    match skipFiller false cs with
    | [] => some []
    | cs =>
      match readStatement cs with
      | none => none
      | some (s, rest) =>
        match endLine rest with
        | none => none
        | some rest => (readStatements fuel rest).map (s :: ·)

/-- A document so far, and the path of the table that pairs go into. -/
structure Document where
  members : Members
  current : List String

namespace Document

def empty : Document := ⟨[], []⟩

def extend? (d : Document) : Statement → Option Document
  | .table path name =>
    (edit .header (openTable name) path .header d.members).map fun ms => ⟨ms, path ++ [name]⟩
  | .element path name =>
    (edit .header (openElement name) path .header d.members).map fun ms => ⟨ms, path ++ [name]⟩
  | .pair p =>
    (edit .header (add p.path p.name p.value) d.current .header d.members).map fun ms =>
      { d with members := ms }

end Document

def dropMark : List Char → List Char
  | '\uFEFF' :: cs => cs
  | cs => cs

def read? (text : String) : Option Members := do
  let cs := dropMark text.toList
  let statements ← readStatements (cs.length + 1) cs
  let d ← statements.foldlM Document.extend? .empty
  return d.members

end Toml
end ThreatGraph
