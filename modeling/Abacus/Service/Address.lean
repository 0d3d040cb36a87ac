import Abacus.Text.Digit
import Abacus.Text.Parts
import Abacus.Text.Quoted

/-!
# Addresses of requests

An address is a whole one, with scheme and host, or a reference below the service's root. Of either
the path counts: dot segments are taken out, and then what is escaped by `%` is decoded, once.
-/

namespace Abacus.Service

inductive AddressFault where
  | tooLong
  | control (character : Char) (position : Nat)
  /-- A reference without host whose path starts with two slashes. -/
  | doubleSlash
  /-- A reference without scheme whose path starts with a colon. -/
  | leadingColon
  /-- The scheme of a whole address is not one that the service answers. -/
  | unknownScheme (scheme : String)
deriving DecidableEq, Repr

def AddressFault.message : AddressFault → String
  | tooLong => "URL too long"
  | control character position =>
    "Invalid non-printable ASCII character in URL, " ++ Text.quoted (String.singleton character)
      ++ " at position " ++ toString position ++ "."
  | doubleSlash => "Relative URLs cannot have a path starting with '//'"
  | leadingColon => "Relative URLs cannot have a path starting with ':'"
  | unknownScheme scheme => Text.quoted scheme

namespace Address

/-! ## Parts -/

/-- The parts of an address that lead to its path; query and fragment are left out. -/
structure Parts where
  scheme : List Char
  authority : List Char
  path : List Char

def isSchemeChar (c : Char) : Bool := c.isAlphanum || c == '+' || c == '.' || c == '-'

/-- A scheme starts with a letter; an empty one counts as none. -/
def splitScheme (cs : List Char) : List Char × List Char :=
  match cs.span isSchemeChar with
  | ([], ':' :: rest) => ([], rest)
  | (first :: others, ':' :: rest) => if first.isAlpha then (first :: others, rest) else ([], cs)
  | _ => ([], cs)

/-- Two slashes come before an authority. -/
def splitAuthority : List Char → List Char × List Char
  | '/' :: '/' :: rest => rest.span fun c => c != '/' && c != '?' && c != '#'
  | cs => ([], cs)

def Parts.ofChars (cs : List Char) : Parts :=
  let (scheme, rest) := splitScheme cs
  let (authority, rest) := splitAuthority rest
  ⟨scheme.map Char.toLower, authority, rest.takeWhile fun c => c != '?' && c != '#'⟩

/-- The host stands between the user and the port. -/
def Parts.host (p : Parts) : List Char :=
  let behindUser := match p.authority.span (· != '@') with
    | (_, '@' :: rest) => rest
    | _ => p.authority
  behindUser.takeWhile (· != ':')

def Parts.isWhole (p : Parts) : Bool := !p.scheme.isEmpty && !p.host.isEmpty

/-! ## Dot segments -/

/-- The segments, last first, with one more. A dot stays where it is, and two go back to the segment
before, but not behind the root. -/
def addSegment (before : List (List Char)) (segment : List Char) : List (List Char) :=
  if segment == ['.'] then before
  else if segment == ['.', '.'] then if before == [[]] then before else before.drop 1
  else segment :: before

def resolveDots (path : List Char) : List Char :=
  ['/'].intercalate ((Text.partsBetween '/' path).foldl addSegment []).reverse

/-! ## Escapes -/

/-- The text with its escapes decoded. No route has a character outside ASCII, so the bytes of such
are all replaced by U+FFFD. -/
def unescape : List Char → List Char
  | '%' :: a :: b :: rest =>
    match Text.hexValue? a, Text.hexValue? b with
    | some high, some low =>
      let byte := 16 * high + low
      (if byte < 0x80 then Char.ofNat byte else '\ufffd') :: unescape rest
    | _, _ => '%' :: unescape (a :: b :: rest)
  | c :: rest => c :: unescape rest
  | [] => []

/-! ## Paths -/

def schemes : List String := ["http", "https", "ws", "wss"]

def maxLength : Nat := 65536

def isControl (c : Char) : Bool := c < ' ' || c == '\x7f'

/-- The path below the service's root that a reference means. -/
def underRoot (path : List Char) : List Char := '/' :: path.dropWhile (· == '/')

def writtenPath (p : Parts) : Except AddressFault (List Char) :=
  if p.isWhole then
    let scheme := String.ofList p.scheme
    if schemes.contains scheme then .ok (resolveDots p.path) else .error (.unknownScheme scheme)
  else if p.scheme.isEmpty && p.authority.isEmpty then
    match p.path with
    | '/' :: '/' :: _ => .error .doubleSlash
    | ':' :: _ => .error .leadingColon
    | path => .ok (resolveDots (underRoot path))
  else .ok (resolveDots (underRoot (resolveDots p.path)))

def path (address : String) : Except AddressFault String :=
  let cs := address.toList
  if maxLength < cs.length then .error .tooLong
  else match cs.findIdx? isControl with
    | some position => .error (.control (cs.getD position ' ') position)
    | none =>
      (writtenPath (Parts.ofChars cs)).map fun path =>
        let path := unescape path
        if path.isEmpty then "/" else String.ofList path

end Address

end Abacus.Service
