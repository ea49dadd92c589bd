import LoopOver.Access.ClientIp
import LoopOver.Foundations.HostText

/-!
# The guard of outgoing requests

`src/review/safe-url.ts` of the engine decides which URLs may be fetched: those of the right scheme
whose host is neither local nor in a private range. It looks at the text of the host that the URL
parser of the platform has written.

* `parseIpv4Component`, `ipv4ToInt` and `ipv4IsPrivateOrLocal` read a dotted address in any
  notation.
* `dottedMapped` and `hexGroups` are the patterns of an embedded IPv4 address, and
  `ipv6IsPrivateOrLocal` uses them.
* `isSafeHttpUrl` and `isSafeEndpointUrl` are the guard.

The parser is a parameter. A host is an IPv4 address, an IPv6 address or a domain; texts of hosts
are ASCII, and so is what `toLowerCase` does to them.
-/

namespace LoopOver.SafeUrl

open HostText (Ipv6 hexText IsHexLower)
open RateLimit (Octets isHexDigit)

/-! ## Hosts -/

/-- A domain is in lower case and may end in dots. -/
structure Domain where
  name : List Char
  lower : ∀ c ∈ name, c.toLower = c

/-- The host of a parsed URL. -/
inductive Host
  | ipv4 (address : Octets)
  | ipv6 (address : Ipv6)
  | domain (domain : Domain)

structure URL where
  protocol : String
  host : Host

/-- What the parser writes for a host. -/
def Host.text : Host → List Char
  | .ipv4 address => address.text
  | .ipv6 address => '[' :: address.serialize ++ [']']
  | .domain named => named.name

def URL.hostname (url : URL) : List Char := url.host.text

/-! ## IPv4 -/

/-- `parseInt` of digits. -/
def parseInt (digits : List Char) (radix : ℕ) : ℕ :=
  digits.foldl (fun n c => radix * n + if c.isDigit then c.toNat - 48 else c.toLower.toNat - 87) 0

/-- `/^0x[0-9a-f]+$/i`. -/
def isHexComponent : List Char → Bool
  | '0' :: x :: digit :: digits => (x == 'x' || x == 'X') && (digit :: digits).all isHexDigit
  | _ => false

/-- `/^0[0-7]+$/`. -/
def isOctalComponent : List Char → Bool
  | '0' :: digit :: digits => (digit :: digits).all fun c => '0' ≤ c && c ≤ '7'
  | _ => false

/-- `/^(?:0|[1-9]\d*)$/`. -/
def isDecimalComponent : List Char → Bool
  | ['0'] => true
  | digit :: digits => '1' ≤ digit && digit ≤ '9' && digits.all Char.isDigit
  | [] => false

def parseIpv4Component (part : List Char) : Option ℕ :=
  if isHexComponent part then some (parseInt (part.drop 2) 16)
  else if isOctalComponent part then some (parseInt part 8)
  else if isDecimalComponent part then some (parseInt part 10)
  else none

/-- The largest last component behind so many others. -/
def lastMax (others : ℕ) : ℕ := [0xffffffff, 0xffffff, 0xffff, 0xff].getD others 0

def ipv4ToInt (host : List Char) : Option ℕ := do
  let parts := host.splitOn '.'
  if parts.length < 1 ∨ 4 < parts.length then none
  else
    let vals ← parts.mapM parseIpv4Component
    let others := vals.dropLast
    let last := vals.getLastD 0
    if others.any fun value => 0xff < value then none
    else if lastMax others.length < last then none
    else
      let result := last + (others.zipIdx.map fun (value, i) => value * 256 ^ (3 - i)).sum
      if 0xffffffff < result then none else some result

def ipv4IsPrivateOrLocal (host : List Char) : Bool :=
  match ipv4ToInt host with
  | none => false
  | some n =>
    let a := n / 2 ^ 24 % 256
    let b := n / 2 ^ 16 % 256
    if a == 0 || a == 10 || a == 127 then true
    else if a == 169 && b == 254 then true
    else if a == 192 && b == 168 then true
    else if a == 172 && 16 ≤ b && b ≤ 31 then true
    else a == 100 && 64 ≤ b && b ≤ 127

/-! ## IPv6 -/

/-- `host.replace(/^\[|\]$/g, "")`. -/
def stripBrackets (host : List Char) : List Char :=
  let front := if host.head? = some '[' then host.drop 1 else host
  if front.getLast? = some ']' then front.dropLast else front

def isDottedQuad (text : List Char) : Bool :=
  let parts := text.splitOn '.'
  parts.length == 4 && parts.all fun part => 1 ≤ part.length && part.length ≤ 3 &&
    part.all Char.isDigit

/-- `/::ffff:(\d{1,3}\.\d{1,3}\.\d{1,3}\.\d{1,3})$/`, at the first position that matches. -/
def dottedMapped : List Char → Option (List Char)
  | [] => none
  | c :: rest =>
    if "::ffff:".toList.isPrefixOf (c :: rest) &&
      isDottedQuad ((c :: rest).drop 7) then some ((c :: rest).drop 7)
    else dottedMapped rest

/-- `[0-9a-f]{1,4}`. -/
def isHexGroup (group : List Char) : Bool :=
  1 ≤ group.length && group.length ≤ 4 && group.all fun c => decide (IsHexLower c)

/-- Two groups with a colon between them, to the end. -/
def twoGroups (text : List Char) : Option (List Char × List Char) :=
  match text.splitOn ':' with
  | [hi, lo] => if isHexGroup hi && isHexGroup lo then some (hi, lo) else none
  | _ => none

/-- `/^::(?:ffff:)?([0-9a-f]{1,4}):([0-9a-f]{1,4})$/`. -/
def hexGroups (addr : List Char) : Option (List Char × List Char) :=
  if [':', ':'].isPrefixOf addr then
    let rest := addr.drop 2
    let mapped := if "ffff:".toList.isPrefixOf rest then twoGroups (rest.drop 5) else none
    mapped <|> twoGroups rest
  else none

def byteText (n : ℕ) : List Char := Nat.toDigits 10 (n % 256)

/-- The dotted address of two groups. -/
def embeddedText (hi lo : ℕ) : List Char :=
  ['.'].intercalate [byteText (hi / 256), byteText hi, byteText (lo / 256), byteText lo]

/-- `/^fe[89ab]/`. -/
def isLinkLocal : List Char → Bool
  | 'f' :: 'e' :: c :: _ => c == '8' || c == '9' || c == 'a' || c == 'b'
  | _ => false

def ipv6IsPrivateOrLocal (host : List Char) : Bool :=
  let addr := stripBrackets host
  if !addr.contains ':' then false
  else if addr == "::1".toList || addr == "::".toList then true
  else
    match dottedMapped addr with
    | some dotted => ipv4IsPrivateOrLocal dotted
    | none =>
      match hexGroups addr with
      | some (hi, lo) => ipv4IsPrivateOrLocal (embeddedText (hexText hi) (hexText lo))
      | none =>
        let first := addr.takeWhile (· != ':')
        if ['f', 'c'].isPrefixOf first || ['f', 'd'].isPrefixOf first then true
          else isLinkLocal first

/-! ## The guard -/

def endsWith (suffix text : List Char) : Bool := suffix.isSuffixOf text

def hostIsPrivateOrLocal (host : List Char) : Bool :=
  let h := (host.map Char.toLower).rdropWhile (· == '.')
  if h == "localhost".toList || endsWith ".localhost".toList h then true
  else if endsWith ".local".toList h || endsWith ".internal".toList h then true
  else if h == "0.0.0.0".toList || h == "::1".toList || h == "[::1]".toList then true
  else if h.contains ':' then ipv6IsPrivateOrLocal h
  else ipv4IsPrivateOrLocal h

section Guard

variable (newURL : String → Option URL) (raw : String)

def isSafeHttpUrl : Bool :=
  match newURL raw with
  | none => false
  | some url => if url.protocol ≠ "https:" then false else !hostIsPrivateOrLocal url.hostname

def isSafeEndpointUrl : Bool :=
  match newURL raw with
  | none => false
  | some url => if !(["https:", "wss:"].contains url.protocol) then false
    else !hostIsPrivateOrLocal url.hostname

end Guard

/-- The notations of one address. -/
example :
    ["127.0.0.1", "0x7f.1", "017700000001", "2130706433"].map (fun host => ipv4ToInt host.toList) =
    List.replicate 4 (some 2130706433) := by decide +kernel

end LoopOver.SafeUrl
