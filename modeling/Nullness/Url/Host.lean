import Nullness.Url.Address
import Nullness.Url.Name
import Nullness.Url.Percent

/-!
# Hosts

The host of a URL with a special scheme is an address or a name, which is written in
ASCII. Other URLs have hosts of any form.
-/

namespace Nullness

namespace Url

/-- Why a text is no URL. -/
inductive UrlError
  /-- It has no scheme. -/
  | relative
  | emptyHost
  | invalidPort
  | invalidAddress4
  | invalidAddress6
  | invalidCharacter
  | invalidName
deriving DecidableEq, Repr

def UrlError.message : UrlError → String
  | relative => "relative URL without a base"
  | emptyHost => "empty host"
  | invalidPort => "invalid port number"
  | invalidAddress4 => "invalid IPv4 address"
  | invalidAddress6 => "invalid IPv6 address"
  | invalidCharacter => "invalid domain character"
  | invalidName => "invalid international domain name"

/-- The host of a URL. -/
inductive Host
  | name (s : List Char)
  | address4 (a : Nat)
  | address6 (pieces : List Nat)
deriving DecidableEq, Repr

def Host.text : Host → List Char
  | name s => s
  | address4 a => address4Text a
  | address6 ns => '[' :: (address6Text ns ++ [']'])

/-- There is nothing to be seen of the host. -/
def Host.isEmpty : Host → Bool
  | name s => s.isEmpty
  | _ => false

/-- A character that no name in ASCII has. -/
def isForbidden (c : Char) : Bool :=
  c ≤ ' ' || '~' < c ||
    ['%', '#', '/', ':', '<', '>', '?', '@', '[', '\\', ']', '^', '|'].contains c

/-- The address of version 6 between brackets. -/
def bracketed (s : List Char) : Except UrlError Host :=
  match s.getLast? with
  | some ']' =>
    match address6? s.dropLast.tail with
    | some ns => .ok (.address6 ns)
    | none => .error .invalidAddress6
  | _ => .error .invalidAddress6

/-- The host of a URL with a special scheme. -/
def Host.ofSpecial (s : List Char) : Except UrlError Host :=
  if s.head? = some '[' then bracketed s
  else
    match (decode? s).bind Name.ascii? with
    | none => .error .invalidName
    | some n =>
      if n.any isForbidden then .error .invalidName
      else if n.isEmpty then .error .emptyHost
      else if endsInNumber n then
        match address4? n with
        | some a => .ok (.address4 a)
        | none => .error .invalidAddress4
      else .ok (.name n)

/-- A character that no host has. -/
def isForbiddenAnywhere (c : Char) : Bool :=
  ['\x00', '\t', '\n', '\r', ' ', '#', '/', ':', '<', '>', '?', '@', '[', '\\', ']', '^',
    '|'].contains c

/-- The host of a URL with another scheme. -/
def Host.ofOther (s : List Char) : Except UrlError Host :=
  if s.head? = some '[' then bracketed s
  else if s.any isForbiddenAnywhere then .error .invalidCharacter
  else .ok (.name (encode controls s))

end Url

end Nullness
