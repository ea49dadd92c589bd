import LoopOver.Queue.Keys

/-!
# Whose rate limit a request counts against

`src/auth/rate-limit.ts` has one bucket for each identity of a caller: an installation, a token, or
an address. The address is that of the peer of the socket (`src/server.ts` hands it on as
`LOOPOVER_PEER_IP`), or what a proxy in front says in a header, if the peer is one.

* `isValidIpv4` and `isValidIpv6` are the two validators, and `clientIp` the address that is taken.
* `rateLimitIdentity` is the identity. `RateLimitHost` stands for the hash of tokens and for what
  the database says of them; a failure there counts as nothing found, as in the code.
-/

namespace LoopOver.RateLimit

open Queue (JsonValue Payload)

/-! ## Addresses -/

section Addresses

/-- `[0-9a-fA-F]`. -/
def isHexDigit (c : Char) : Bool := c.isDigit || ('a' ≤ c && c ≤ 'f') || ('A' ≤ c && c ≤ 'F')

/-- `/^\d{1,3}$/`, and not over 255. -/
def isOctet (part : List Char) : Bool :=
  1 ≤ part.length && part.length ≤ 3 && part.all Char.isDigit && Nat.ofDigitChars 10 part 0 ≤ 255

/-- Four octets with dots between. -/
def isValidIpv4 (value : List Char) : Bool :=
  (value.splitOn '.').length == 4 && (value.splitOn '.').all isOctet

/-- What is between the brackets, where there are any. -/
def stripBrackets (value : List Char) : List Char :=
  if value.head? = some '[' ∧ value.getLast? = some ']' then value.tail.dropLast else value

/-- The places at which `split("::")` cuts. -/
def doubleColons : List Char → ℕ
  | ':' :: ':' :: rest => doubleColons rest + 1
  | _ :: rest => doubleColons rest
  | [] => 0

/-- Up to eight groups of up to four hex digits, one run of them left out. -/
def isValidIpv6 (value : List Char) : Bool :=
  let candidate := stripBrackets value
  let segments := candidate.splitOn ':'
  candidate.contains ':' && candidate.all (fun c => isHexDigit c || c == ':' || c == '.') &&
    doubleColons candidate + 1 ≤ 2 && segments.length ≤ 8 &&
    segments.all (fun segment => segment.isEmpty ||
      (segment.length ≤ 4 && segment.all isHexDigit)) &&
    segments.any fun segment => !segment.isEmpty

/-- Either kind of address. -/
def isValidIpAddress (value : List Char) : Bool := isValidIpv4 value || isValidIpv6 value

/-- Trimmed and without brackets, if it is an address. -/
def normalizeIpAddress (value : Option String) : Option String :=
  ((value.map fun text => (trimText text).toList).filter fun chars => !chars.isEmpty &&
    isValidIpAddress chars).map
    fun trimmed => String.ofList (stripBrackets trimmed)

end Addresses

/-! ## Requests -/

/-- What of a request counts. -/
structure RateLimitRequest where
  path : String
  cfConnectingIp : Option String
  xForwardedFor : Option String
  authorization : Option String
  contentLength : Option String
  body : Payload

/-- What the server adds to a request, and the secret of its relay. -/
structure RateLimitEnv where
  peerIp : Option String
  orbEnrollmentSecret : Option String

/-- What the code asks of the platform and the database. -/
structure RateLimitHost where
  hashToken : String → String
  /-- `String(id)`. -/
  numberText : ℚ → String
  /-- The installation that `validateOrbRelayEnrollment` finds. -/
  validateOrbRelayEnrollment : String → Option ℕ
  /-- `validateBearerForRateLimit`. -/
  validateBearer : String → Bool

section Requests

variable (host : RateLimitHost) (env : RateLimitEnv) (request : RateLimitRequest)

/-- The peers that are a proxy on the same machine. -/
def loopbackPeerIps : List String := ["127.0.0.1", "::1"]

/-- What the nearest proxy put into `x-forwarded-for`. -/
def rightmostForwardedFor (header : Option String) : Option String :=
  normalizeIpAddress (((header.getD "").toList.splitOn ',').getLast?.map String.ofList)

/-- The headers are heeded for a peer on the same machine, or where the peer is no address. -/
def clientIp : String :=
  match normalizeIpAddress env.peerIp with
  | none => (normalizeIpAddress request.cfConnectingIp).getD "unknown-ip"
  | some peerIp =>
    if loopbackPeerIps.contains peerIp then
      ((normalizeIpAddress request.cfConnectingIp).or
        (rightmostForwardedFor request.xForwardedFor)).getD peerIp
    else peerIp

/-- `/^Bearer\s+(.+)$/i`, trimmed. -/
def extractBearerToken (header : Option String) : Option String :=
  let chars := (header.getD "").toList
  let rest := chars.drop 6
  let isLineEnd (c : Char) : Bool := [10, 13, 0x2028, 0x2029].contains c.toNat
  if (chars.take 6).map Char.toLower = "bearer".toList ∧ rest.head?.any isRegexSpace = true ∧
      (rest.dropWhile isRegexSpace).any isLineEnd = false then
    truthy (some (trimText (String.ofList rest)))
  else none

/-- The length may have been rounded, above what the caller goes on with. -/
def parsePositiveInt (value : Option String) : Option ℕ :=
  ((value.map String.toList).filter fun digits => !digits.isEmpty && digits.all Char.isDigit).bind
      fun digits =>
    some (Nat.ofDigitChars 10 digits 0) |>.filter fun n => decide (0 < n)

/-- `MAX_WEBHOOK_RATE_LIMIT_PEEK_BYTES`. -/
def maxWebhookRateLimitPeekBytes : ℕ := 1024 * 1024

/-- The installation that a small body names. -/
def peekWebhookInstallationId : Option ℚ :=
  if (parsePositiveInt request.contentLength).any fun length =>
    decide (length ≤ maxWebhookRateLimitPeekBytes) then
    ((request.body.bind fun body => body.property? "installation").bind fun installation =>
      installation.property? "id").bind (·.number?)
  else none

/-- The webhooks, whose body names the installation. -/
def installationKeyedWebhookPaths : List String := ["/v1/github/webhook", "/v1/orb/webhook"]

/-- The paths on which a token stands for an enrolled installation. -/
def installationKeyedOrbBearerPaths : List String :=
  ["/v1/orb/token", "/v1/orb/relay/register", "/v1/orb/relay/pull"]

/-- The bucket of an installation, if the request is of one. -/
def installationRateLimitIdentity (ipIdentity : String) : Option String :=
  if installationKeyedWebhookPaths.contains request.path then
    (peekWebhookInstallationId request).map fun id => "installation:" ++ host.numberText id ++
      ":" ++ ipIdentity
  else if request.path = "/v1/orb/relay" then
    (truthy env.orbEnrollmentSecret).map fun secret => "installation:" ++ host.hashToken secret
  else if installationKeyedOrbBearerPaths.contains request.path then
    (extractBearerToken request.authorization).bind fun token =>
      (host.validateOrbRelayEnrollment token).map fun id => "installation:" ++ toString id
  else none

def isPreAuthRateLimitPath (path : String) : Bool :=
  (["/health", "/v1/mcp/compatibility", "/openapi.json", "/mcp",
    "/v1/github/webhook"].contains path ||
    path.startsWith "/v1/auth/") && path != "/v1/auth/github/token"

def rateLimitIdentity : String :=
  let ipIdentity := "ip:" ++ host.hashToken (clientIp env request)
  match installationRateLimitIdentity host env request ipIdentity with
  | some identity => identity
  | none =>
    if isPreAuthRateLimitPath request.path then ipIdentity
    else
      match (extractBearerToken request.authorization).filter host.validateBearer with
      | none => ipIdentity
      | some token => "token:" ++ host.hashToken token

end Requests

end LoopOver.RateLimit
