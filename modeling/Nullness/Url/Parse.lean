import Nullness.Url.Host
import Nullness.Url.Path

/-!
# URLs

A URL has a scheme, perhaps a host with what belongs to it, a path, perhaps a query
and perhaps a fragment. Blanks around it do not count, and tabs and line ends in it
count only where the path of a file begins with a drive.
-/

namespace Nullness

namespace Url

/-- The part of a URL behind two slashes. -/
structure Authority where
  user : List Char := []
  password : List Char := []
  host : Host
  port : Option Nat := none
deriving DecidableEq, Repr

end Url

/-- A URL. -/
structure Url where
  scheme : List Char
  authority : Option Url.Authority := none
  path : Url.Path
  query : Option (List Char) := none
  fragment : Option (List Char) := none
deriving DecidableEq, Repr

namespace Url

/-! ## Text -/

def Authority.text (a : Authority) : List Char :=
  let password := if a.password.isEmpty then [] else ':' :: a.password
  let user := if a.user.isEmpty && a.password.isEmpty then [] else a.user ++ password ++ ['@']
  let port :=
    match a.port with
    | none => []
    | some p => ':' :: Nat.toDigits 10 p
  user ++ a.host.text ++ port

/-- The text of a part behind its mark. -/
def marked (mark : Char) : Option (List Char) → List Char
  | none => []
  | some s => mark :: s

/-- The text of a URL. A path that would be taken for a host is set off by a dot. -/
def text (u : Url) : List Char :=
  let front :=
    match u.authority with
    | some a => ['/', '/'] ++ a.text
    | none => if u.path.text.take 2 = ['/', '/'] then ['/', '.'] else []
  u.scheme ++ [':'] ++ front ++ u.path.text ++ marked '?' u.query ++ marked '#' u.fragment

/-- The URL with the path that a text writes in place of its own. -/
def withPath (u : Url) (text : List Char) : Url :=
  match u.path with
  | .rooted _ => { u with path := .ofText (.of u.scheme) text }
  | .rootless _ => { u with path := .rootless (encode controls text) }

/-! ## Parts of a text -/

/-- The text without blanks and controls at its ends. -/
def trimmed (s : List Char) : List Char :=
  let s := s.dropWhile (· ≤ ' ')
  (s.reverse.dropWhile (· ≤ ' ')).reverse

/-- A character that a scheme may have. -/
def isSchemeChar (c : Char) : Bool :=
  c.isAlphanum || c == '+' || c == '-' || c == '.'

/-- The scheme in lower case, and what is behind its colon. -/
def splitScheme? (s : List Char) : Option (List Char × List Char) :=
  let front := unbroken (s.takeWhile (· ≠ ':'))
  match s.dropWhile (· ≠ ':') with
  | _ :: rest =>
    if (front.head?.map Char.isAlpha).getD false && front.all isSchemeChar then
      some (front.map Char.toLower, rest)
    else none
  | [] => none

/-- The host in front of a text, up to a colon outside of brackets. -/
def takeHost (inBrackets : Bool) : List Char → List Char × List Char
  | [] => ([], [])
  | c :: cs =>
    if c = ':' ∧ !inBrackets then ([], c :: cs)
    else
      let inBrackets := if c = '[' then true else if c = ']' then false else inBrackets
      let (host, rest) := takeHost inBrackets cs
      (c :: host, rest)

/-- The port that digits write, none if there are no digits. -/
def port? (cs : List Char) : Except UrlError (Option Nat) :=
  if cs.isEmpty then .ok none
  else
    match number? 10 cs with
    | some n => if n < 65536 then .ok (some n) else .error .invalidPort
    | none => .error .invalidPort

/-- The query and the fragment behind a path. -/
def tail (kind : SchemeKind) (s : List Char) : Option (List Char) × Option (List Char) :=
  let beforeHash := s.takeWhile (· ≠ '#')
  let query :=
    match beforeHash with
    | '?' :: q => some (encode (if kind.isSpecial then specialQuerySet else querySet) q)
    | _ => none
  let fragment :=
    match s.dropWhile (· ≠ '#') with
    | _ :: f => some (encode fragmentSet f)
    | [] => none
  (query, fragment)

/-- The character ends a path. -/
def endsPath (c : Char) : Bool := c == '?' || c == '#'

/-- The text of a path in front of a query and a fragment. -/
def pathPart (s : List Char) : List Char := s.takeWhile (!endsPath ·)

/-- Puts a URL together from its scheme, its authority, its path and the text of its
path, query and fragment. -/
def build (scheme : List Char) (authority : Option Authority) (path : Path) (rest : List Char) :
    Url :=
  let (query, fragment) := tail (.of scheme) (unbroken (rest.dropWhile (!endsPath ·)))
  { scheme, authority, path, query, fragment }

/-- What is behind a slash in front of a text. -/
def behindSlash? (kind : SchemeKind) (s : List Char) : Option (List Char) :=
  match s.dropWhile isBreak with
  | [] => none
  | c :: cs => if kind.endsSegment c then some cs else none

/-! ## Parsing -/

/-- The path behind a host. -/
def pathBehindHost (kind : SchemeKind) (s : List Char) : Path :=
  if s.isEmpty && !kind.isSpecial then .rooted []
  else (Walk.along kind ((behindSlash? kind s).getD s)).path kind

/-- A URL behind its two slashes. -/
def parseAuthority (scheme : List Char) (s : List Char) : Except UrlError Url := do
  let kind := SchemeKind.of scheme
  let ends := kind.endsAuthority
  let (user, s) ←
    match Text.splitLast? '@' (s.takeWhile (!ends ·)) with
    | none => pure ([], s)
    | some (user, host) =>
      let rest := host ++ s.dropWhile (!ends ·)
      if user.isEmpty && (rest.head?.map ends).getD false then .error .emptyHost
      else pure (user, rest)
  let name := user.takeWhile (· ≠ ':')
  let password := (user.dropWhile (· ≠ ':')).tail
  let (hostText, portText) := takeHost false (s.takeWhile (!ends ·))
  let rest := s.dropWhile (!ends ·)
  if kind = .special && hostText.isEmpty then .error .emptyHost
  let host ← if kind.isSpecial then Host.ofSpecial hostText else Host.ofOther hostText
  if host.isEmpty && !portText.isEmpty then .error .emptyHost
  -- A port ends at a backslash, whatever the scheme.
  let digits := portText.tail.takeWhile (· ≠ '\\')
  let rest := portText.tail.dropWhile (· ≠ '\\') ++ rest
  let port ← port? digits
  if host.isEmpty && !(name.isEmpty && password.isEmpty) then .error .emptyHost
  let authority : Authority :=
    { user := encode userSet name
      password := encode userSet password
      host
      port := if port = defaultPort? scheme then none else port }
  return build scheme (some authority) (pathBehindHost kind (pathPart rest)) rest

/-- The host of this machine, which the URL of a file leaves out. -/
def localhost : Host := .name ['l', 'o', 'c', 'a', 'l', 'h', 'o', 's', 't']

/-- A URL of a file without a host, and the text of its path behind the root. -/
def fileHere (scheme : List Char) (s : List Char) : Url :=
  build scheme (some { host := .name [] }) ((Walk.along .file (pathPart s)).path .file) s

/-- A URL of a file behind its scheme. A drive has no host: not if it stands in the
place of one, and not if it is the front of a path. -/
def parseFile (scheme : List Char) (s : List Char) : Except UrlError Url := do
  match behindSlash? .file s with
  | none => return fileHere scheme s
  | some s =>
    match behindSlash? .file s with
    | none => return fileHere scheme s
    | some s =>
      let hostText := unbroken (s.takeWhile (!SchemeKind.file.endsAuthority ·))
      let rest := s.dropWhile (!SchemeKind.file.endsAuthority ·)
      if isDrive hostText then return fileHere scheme s
      if hostText.isEmpty then return fileHere scheme rest
      let host ← Host.ofSpecial hostText
      if host = localhost then return fileHere scheme rest
      let walk := Walk.along .file (pathPart ((behindSlash? .file rest).getD rest))
      let host := if walk.fromDrive then .name [] else host
      return build scheme (some { host }) (walk.path .file) rest

/-- The URL that a text writes. -/
def parse (s : List Char) : Except UrlError Url :=
  match splitScheme? (trimmed s) with
  | none => .error .relative
  | some (scheme, s) =>
    let rest := unbroken s
    match SchemeKind.of scheme with
    | .file => parseFile scheme s
    | .special => parseAuthority scheme (rest.dropWhile SchemeKind.special.endsSegment)
    | .other =>
      match rest with
      | '/' :: '/' :: rest => parseAuthority scheme rest
      | '/' :: _ => .ok (build scheme none (pathBehindHost .other (pathPart rest)) rest)
      | _ => .ok (build scheme none (.rootless (encode controls (pathPart rest))) rest)

end Url

end Nullness
