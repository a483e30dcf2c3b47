/-!
# Schemes

A few schemes are special: their URLs have hosts and rooted paths, in which a
backslash is a slash. Files are special in a way of their own.
-/

namespace Nullness

namespace Url

/-- How the URLs of a scheme are read. -/
inductive SchemeKind
  | special
  | file
  | other
deriving DecidableEq, Repr

/-- The special schemes with a host, and their default ports. -/
def defaultPorts : List (String × Nat) :=
  [("http", 80), ("https", 443), ("ws", 80), ("wss", 443), ("ftp", 21)]

/-- The default port of a scheme. -/
def defaultPort? (scheme : List Char) : Option Nat :=
  defaultPorts.lookup (String.ofList scheme)

def SchemeKind.of (scheme : List Char) : SchemeKind :=
  if (defaultPort? scheme).isSome then special
  else if scheme = ['f', 'i', 'l', 'e'] then file
  else other

/-- A backslash is a slash. -/
def SchemeKind.isSpecial : SchemeKind → Bool
  | other => false
  | _ => true

/-- The character ends a segment of a path. -/
def SchemeKind.endsSegment (kind : SchemeKind) (c : Char) : Bool :=
  c == '/' || kind.isSpecial && c == '\\'

/-- The character ends the part of a URL behind two slashes. -/
def SchemeKind.endsAuthority (kind : SchemeKind) (c : Char) : Bool :=
  kind.endsSegment c || c == '?' || c == '#'

/-- A tab or the end of a line. They count nowhere in a URL, except that one behind
the name of a drive ends a segment. -/
def isBreak (c : Char) : Bool :=
  c == '\t' || c == '\n' || c == '\r'

/-- The text without breaks. -/
def unbroken (s : List Char) : List Char := s.filter (!isBreak ·)

end Url

end Nullness
