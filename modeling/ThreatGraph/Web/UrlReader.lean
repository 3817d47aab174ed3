import ThreatGraph.Web.Url

/-!
# Reading URLs

From left to right: scheme, authority, path, query, fragment.  Spaces and controls around the text
and line breaks inside it do not count.
-/

namespace ThreatGraph
namespace Web
namespace Url

def isSpaceOrControl (c : Char) : Bool := c.toNat ≤ 0x20

def significant (cs : List Char) : List Char :=
  (((cs.dropWhile isSpaceOrControl).reverse.dropWhile isSpaceOrControl).reverse).filter
    fun c => !isLineSpace c

def isSchemeChar (c : Char) : Bool :=
  isLetter c || ('0' ≤ c && c ≤ '9') || c == '+' || c == '-' || c == '.'

/-- A letter, further letters, digits, `+`, `-` or `.`, and a colon. -/
def readScheme (cs : List Char) : Option (List Char × List Char) :=
  match cs with
  | [] => none
  | c :: _ =>
    if isLetter c then
      match cs.dropWhile isSchemeChar with
      | ':' :: rest => some ((cs.takeWhile isSchemeChar).map Char.toLower, rest)
      | _ => none
    else none

def isAuthorityEnd (special : Bool) (c : Char) : Bool :=
  c == '/' || c == '?' || c == '#' || (special && c == '\\')

def isQueryMark (c : Char) : Bool := c == '?' || c == '#'

def makeUserinfo (text : List Char) : Option Userinfo :=
  let (username, password) := match Text.splitFirst ':' text with
    | some (username, password) => (username, password)
    | none => (text, [])
  if username.isEmpty && password.isEmpty then none
  else
    some ⟨Percent.encode Percent.inUserinfo username,
      if password.isEmpty then none else some (Percent.encode Percent.inUserinfo password)⟩

/-- What stands before the last `@` of the authority. -/
def readUserinfo (special : Bool) (cs : List Char) :
    Except UrlFault (Option Userinfo × List Char) :=
  match Text.splitLast '@' (cs.takeWhile fun c => !isAuthorityEnd special c) with
  | none => .ok (none, cs)
  | some (text, _) =>
    let rest := cs.drop (text.length + 1)
    if text.isEmpty && (rest.head?.any (isAuthorityEnd special)) then .error .emptyHost
    else .ok (makeUserinfo text, rest)

/-- The length of a host: up to a colon that is not in brackets, or the end of the authority. -/
def hostLength (special inBrackets : Bool) : List Char → Nat
  | [] => 0
  | c :: cs =>
    if (c == ':' && !inBrackets) || isAuthorityEnd special c then 0
    else hostLength special (if c = '[' then true else if c = ']' then false else inBrackets) cs + 1

/-- A port of at most sixteen bits.  The default port of the scheme, or none at all, is left
out. -/
def readPort (scheme : List Char) (cs : List Char) :
    Except UrlFault (Option Nat × List Char) :=
  let digits := cs.takeWhile Text.isDigit
  let rest := cs.dropWhile Text.isDigit
  let port := Text.digitsValue digits
  if 65535 < port then .error .invalidPort
  else if rest.head?.any fun c => !isAuthorityEnd true c then .error .invalidPort
  else .ok (if digits.isEmpty || some port == defaultPort scheme then none else some port, rest)

def readAuthority (scheme : List Char) (cs : List Char) :
    Except UrlFault (Authority × List Char) := do
  let special := isSpecial scheme
  let (userinfo, cs) ← readUserinfo special cs
  let length := hostLength special false cs
  let text := cs.take length
  let rest := cs.drop length
  if special && text.isEmpty then throw .emptyHost
  let host ← if special then Host.readSpecial text else Host.readOpaque text
  if host = .name [] && (userinfo.isSome || rest.head? = some ':') then throw .emptyHost
  match rest with
  | ':' :: rest =>
    let (port, rest) ← readPort scheme rest
    return (⟨userinfo, host, port⟩, rest)
  | rest => return (⟨userinfo, host, none⟩, rest)

def readSegments (special : Bool) (cs : List Char) : Path :=
  let parts := Text.split (fun c => c == '/' || (special && c == '\\')) cs
  .segments (placeAll [] (parts.map (Percent.encode Percent.inPath)))

def readPath (special : Bool) (cs : List Char) : Path :=
  match cs with
  | [] => if special then .segments [[]] else .segments []
  | '/' :: rest => readSegments special rest
  | c :: rest => if special && c == '\\' then readSegments special rest
    else readSegments special (c :: rest)

/-- A URL whose path is read by `path`, with the query and the fragment behind it. -/
def withRest (scheme : List Char) (authority : Option Authority) (path : List Char → Path)
    (cs : List Char) : Url :=
  let encodesQuery := if isSpecial scheme then Percent.inSpecialQuery else Percent.inQuery
  let beforeFragment := cs.takeWhile (· != '#')
  let query := match beforeFragment.dropWhile (· != '?') with
    | _ :: q => some (Percent.encode encodesQuery q)
    | [] => none
  let fragment := match cs.dropWhile (· != '#') with
    | _ :: f => some (Percent.encode Percent.inFragment f)
    | [] => none
  ⟨scheme, authority, path (cs.takeWhile fun c => !isQueryMark c), query, fragment⟩

/-- Reads what follows the slashes before an authority. -/
def readHierarchical (scheme : List Char) (cs : List Char) : Except UrlFault Url := do
  let (authority, rest) ← readAuthority scheme cs
  return withRest scheme (some authority) (readPath (isSpecial scheme)) rest

def isSlash (c : Char) : Bool := c == '/' || c == '\\'

def fileScheme : List Char := ['f', 'i', 'l', 'e']

def noHost : Authority := ⟨none, .name [], none⟩

/-- A path on a drive is on no other host, and the drive is written with a colon. -/
def normalizeDrive (u : Url) : Url :=
  match u.path with
  | .segments ([c, mark] :: rest) =>
    if isDrive [c, mark] then
      { u with authority := some noHost, path := .segments ([c, ':'] :: rest) }
    else u
  | _ => u

def readFilePath (authority : Authority) (cs : List Char) : Url :=
  normalizeDrive (withRest fileScheme (some authority) (readPath true) cs)

/-- Reads what follows `file:`.  The host may be missing, `localhost` is none, and a drive belongs
to the path. -/
def readFile (cs : List Char) : Except UrlFault Url :=
  match cs with
  | a :: b :: rest =>
    if isSlash a && isSlash b then
      let text := rest.takeWhile fun c => !isAuthorityEnd true c
      if text.isEmpty || isDrive text then .ok (readFilePath noHost rest)
      else
        match Host.readSpecial text with
        | .error e => .error e
        | .ok host =>
          let authority : Authority :=
            if host = .name "localhost".toList then noHost else ⟨none, host, none⟩
          .ok (readFilePath authority (rest.dropWhile fun c => !isAuthorityEnd true c))
    else .ok (readFilePath noHost cs)
  | cs => .ok (readFilePath noHost cs)

def read (s : String) : Except UrlFault Url :=
  match readScheme (significant s.toList) with
  | none => .error .relativeWithoutBase
  | some (scheme, rest) =>
    if scheme = fileScheme then readFile rest
    else if isSpecial scheme then readHierarchical scheme (rest.dropWhile isSlash)
    else
      match rest with
      | '/' :: '/' :: rest => readHierarchical scheme rest
      | '/' :: rest => .ok (withRest scheme none (readSegments false) rest)
      | rest =>
        .ok (withRest scheme none (fun cs => .text (Percent.encode Percent.inControl cs)) rest)

end Url
end Web
end ThreatGraph
