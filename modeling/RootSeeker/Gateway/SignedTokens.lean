import RootSeeker.Gateway.Server

/-!
# Tokens of the gateway

The provider gives out two kinds of tokens: random ones, which it stores, and
signed ones, which carry their client, their capabilities and the time.  Both
authenticate, but only a stored token is validated, so the security check lets
no signed token pass.
-/

namespace RootSeeker.Gateway

open Python Contracts McpPlane

/-- The functions of the standard library that tokens go through. -/
structure TokenCodec where
  /-- `hmac.new(key.encode(), payload.encode(), sha256).hexdigest()`. -/
  hmacHex : PyStr → PyStr → PyStr
  /-- `base64.urlsafe_b64encode(text.encode()).decode()`. -/
  urlsafeB64encode : PyStr → PyStr
  /-- `base64.urlsafe_b64decode(text.encode()).decode()`; nothing for a `ValueError`. -/
  urlsafeB64decode : PyStr → Option PyStr
  /-- `int(text)`; nothing for a `ValueError`. -/
  int : PyStr → Option ℤ
  /-- `datetime.fromtimestamp` in microseconds; nothing for a `ValueError`. -/
  fromTimestamp : ℤ → Except PyError (Option ℤ)

structure TokenAuthProvider where
  secretKey : PyStr
  tokenLifetimeSeconds : ℤ

/-- `secrets.token_urlsafe(32)`: letters, digits, `-` and `_`. -/
abbrev UrlsafeToken := {token : PyStr // colonChar ∉ token}

/-! ## Texts -/

def comma : CodePoint :=
  CodePoint.ofChar ','

/-- `text.split(",")`. -/
def splitCommas (text : PyStr) : List PyStr :=
  text.splitOn comma

/-- `token.rsplit(":", 1)` of a token with a colon. -/
def rsplitColon (token : PyStr) : PyStr × PyStr :=
  ((token.reverse.dropWhile (· ≠ colonChar)).tail.reverse,
    (token.reverse.takeWhile (· ≠ colonChar)).reverse)

namespace TokenAuthProvider

section Provider

variable (codec : TokenCodec) (provider : TokenAuthProvider)

/-- The lifetime in microseconds. -/
def lifetime : ℤ :=
  provider.tokenLifetimeSeconds * 1000000

def generateToken (tokens : TokenTable) (token : UrlsafeToken) (clientId : PyStr)
    (capabilities : List PyStr) (now : ℤ) : TokenTable :=
  tokens.set token.val
    { clientId := clientId
      token := token.val
      capabilities := capabilities
      expiresAt := some (now + provider.lifetime) }

def encodeCapabilities (capabilities : List PyStr) : PyStr :=
  let joined := join [comma] capabilities
  if joined = [] then [] else codec.urlsafeB64encode joined

def decodeCapabilities (capsPart : PyStr) : List PyStr :=
  if capsPart = [] then []
  else
    match codec.urlsafeB64decode capsPart with
    | some decoded => if decoded = [] then [] else splitCommas decoded
    | none => splitCommas capsPart

/-- What is signed. -/
def signedPayload (clientId timestamp capsPart : PyStr) : PyStr :=
  clientId ++ colonChar :: (timestamp ++ colonChar :: capsPart)

/-- `create_signed_token`; a text that cannot be encoded is not signed. -/
def createSignedToken (clientId : PyStr) (capabilities : List PyStr) (now : ℤ) :
    Except PyError PyStr :=
  if ¬Encodable (join [comma] capabilities) ∨ ¬Encodable clientId then .error .unicodeEncodeError
  else
    let payload := signedPayload clientId (intText (now / 1000000))
      (encodeCapabilities codec capabilities)
    .ok (payload ++ colonChar :: codec.hmacHex provider.secretKey payload)

/-- `verify_signed_token`. -/
def verifySignedToken (now : ℤ) : SignedTokens := fun token =>
  if token.count colonChar < 3 then .ok none
  else
    let (body, signature) := rsplitColon token
    let (clientId, rest) := splitHeader body
    let (timestampText, capsPart) := splitHeader rest
    let payload := signedPayload clientId timestampText capsPart
    if ¬Encodable payload then .error .unicodeEncodeError
    else if ¬signature.all isAscii then .error .typeError
    else if signature ≠ codec.hmacHex provider.secretKey payload then .ok none
    else
      match codec.int timestampText with
      | none => .ok none
      | some timestamp =>
        match codec.fromTimestamp timestamp with
        | .error raised => .error raised
        | .ok none => .ok none
        | .ok (some tokenTime) =>
          if provider.lifetime < now - tokenTime then .ok none
          else .ok (some (clientId, decodeCapabilities codec capsPart))

end Provider

end TokenAuthProvider

/-! ## The provider of a server -/

/-- The server with the provider, at the time of a request. -/
def GatewayServer.withProvider (codec : TokenCodec) (provider : TokenAuthProvider)
    (server : GatewayServer) (now : ℤ) : GatewayServer :=
  { server with authEnabled := true, signed := provider.verifySignedToken codec now }

/-- What changes the stored tokens. -/
inductive TokenOp where
  | generate (token : UrlsafeToken) (clientId : PyStr) (capabilities : List PyStr) (now : ℤ)
  | revoke (token : PyStr)
  | request (frame : GatewayRequestFrame) (env : RequestEnv)

section Requests

variable (std : Stdlib) (codec : TokenCodec) (provider : TokenAuthProvider)
  (server : GatewayServer)

/-- The security check of a request. -/
def checkRequest (tokens : TokenTable) (frame : GatewayRequestFrame) (env : RequestEnv) :
    Except GatewayFailure Unit × TokenTable :=
  (server.withProvider codec provider env.authenticatedAt).checkSecurity std tokens frame env

def TokenOp.apply (tokens : TokenTable) : TokenOp → TokenTable
  | .generate token clientId capabilities now =>
    provider.generateToken tokens token clientId capabilities now
  | .revoke token => tokens.filterKeys (· ≠ token)
  | .request frame env => (checkRequest std codec provider server tokens frame env).2

/-- The tokens that a run of the provider and its server has stored. -/
def storedTokens (ops : List TokenOp) : TokenTable :=
  ops.foldl (TokenOp.apply std codec provider server) []

/-- The token is stored, has not expired and suffices for the method. -/
def PresentsStored (tokens : TokenTable) (frame : GatewayRequestFrame) (env : RequestEnv) :
    Prop :=
  ∃ stored, tokens.get? (tokenOf std frame.params) = some stored ∧
    stored.isExpired env.authenticatedAt = false ∧ stored.isExpired env.validatedAt = false ∧
      server.authorizer.authorize stored frame.method.val = true

/-- The token was signed by the provider within its lifetime and suffices for the method. -/
def PresentsSigned (frame : GatewayRequestFrame) (env : RequestEnv) : Prop :=
  ∃ clientId capabilities createdAt token,
    provider.createSignedToken codec clientId capabilities createdAt = .ok token ∧
      tokenOf std frame.params = token ∧ createdAt ≤ env.authenticatedAt ∧
        env.authenticatedAt ≤ createdAt + provider.lifetime ∧
          server.authorizer.authorize
            { clientId := clientId
              token := token
              capabilities := capabilities
              expiresAt := none } frame.method.val = true

end Requests

/-! ## The check -/

section Check

variable {std : Stdlib} {codec : TokenCodec} {provider : TokenAuthProvider}
  {server : GatewayServer}

/-- What the provider stores: each token under itself, none with a colon. -/
def Issued (tokens : TokenTable) : Prop :=
  ∀ entry ∈ tokens, entry.2.token = entry.1 ∧ colonChar ∉ entry.1

theorem Issued.of_subset {tokens fewer : TokenTable} (hissued : Issued tokens)
    (hsubset : fewer ⊆ tokens) : Issued fewer :=
  fun entry hentry => hissued entry (hsubset hentry)

/-- The security check only drops tokens. -/
theorem Issued.checkSecurity {tokens : TokenTable} (hissued : Issued tokens)
    (server : GatewayServer) (frame : GatewayRequestFrame) (env : RequestEnv) :
    Issued (server.checkSecurity std tokens frame env).2 := by
  have hauthenticated : Issued (authenticate server.signed tokens (tokenOf std frame.params)
      env.authenticatedAt).2 := by
    rw [authenticate]
    split
    · split
      · exact hissued.of_subset List.filter_sublist.subset
      · exact hissued
    · exact hissued
  have hvalidated : ∀ credentials, Issued (validate (authenticate server.signed tokens
      (tokenOf std frame.params) env.authenticatedAt).2 credentials env.validatedAt).2 := by
    intro credentials
    rw [validate]
    split
    · exact hauthenticated
    · split
      · exact hauthenticated.of_subset List.filter_sublist.subset
      · exact hauthenticated
  rw [GatewayServer.checkSecurity]
  split
  · exact hissued
  · split
    · exact hissued
    · dsimp only
      split
      · exact hauthenticated
      · exact hauthenticated
      · split
        · exact hvalidated _
        · split
          · exact hvalidated _
          · exact hvalidated _

theorem Issued.apply {tokens : TokenTable} (hissued : Issued tokens) (op : TokenOp) :
    Issued (op.apply std codec provider server tokens) := by
  cases op with
  | generate token clientId capabilities now =>
    exact Dict.forall_mem_set
      (fun entry : PyStr × AuthCredentials => entry.2.token = entry.1 ∧ colonChar ∉ entry.1)
      hissued ⟨rfl, token.property⟩
  | revoke token => exact hissued.of_subset List.filter_sublist.subset
  | request frame env => exact hissued.checkSecurity _ frame env

theorem issued_storedTokens (ops : List TokenOp) :
    Issued (storedTokens std codec provider server ops) := by
  have hrun : ∀ tokens, Issued tokens →
      Issued (ops.foldl (TokenOp.apply std codec provider server) tokens) := by
    induction ops with
    | nil => exact fun _ hissued => hissued
    | cons op ops ih => exact fun tokens hissued => ih _ (hissued.apply op)
  exact hrun [] (fun _ hentry => absurd hentry List.not_mem_nil)

/-- A signed token has a colon. -/
theorem colon_mem_of_createSignedToken {clientId token : PyStr} {capabilities : List PyStr}
    {createdAt : ℤ}
    (hcreate : provider.createSignedToken codec clientId capabilities createdAt = .ok token) :
    colonChar ∈ token := by
  rw [TokenAuthProvider.createSignedToken] at hcreate
  split at hcreate
  · exact absurd hcreate (by simp)
  · rw [← Except.ok.inj hcreate]
    exact List.mem_append_right _ List.mem_cons_self

section Authenticate

variable {signed : SignedTokens} {tokens : TokenTable} {token : PyStr} {stored : AuthCredentials}
  {now : ℤ}

theorem authenticate_of_expired (hstored : tokens.get? token = some stored)
    (hexpired : stored.isExpired now = true) :
    authenticate signed tokens token now = (.ok none, tokens.filterKeys (· ≠ token)) := by
  rw [authenticate, hstored]
  exact if_pos hexpired

theorem authenticate_of_fresh (hstored : tokens.get? token = some stored)
    (hfresh : stored.isExpired now = false) :
    authenticate signed tokens token now = (.ok (some stored), tokens) := by
  rw [authenticate, hstored]
  exact if_neg (by simp [hfresh])

theorem authenticate_of_not_stored (hstored : tokens.get? token = none) :
    authenticate signed tokens token now =
      ((signed token).map (Option.map fun found =>
        { clientId := found.1
          token := token
          capabilities := found.2
          expiresAt := none }), tokens) := by
  rw [authenticate, hstored]

/-- Credentials that are not stored are not valid. -/
theorem validate_of_not_stored {credentials : AuthCredentials}
    (hstored : tokens.get? credentials.token = none) :
    validate tokens credentials now = (false, tokens) := by
  rw [validate, hstored]

theorem validate_stored_iff (hstored : tokens.get? stored.token = some stored) :
    (validate tokens stored now).1 = true ↔ stored.isExpired now = false := by
  rw [validate, hstored]
  cases hexpired : stored.isExpired now with
  | false => simp [hexpired]
  | true => simp [hexpired]

end Authenticate

/-- A request passes under a stored token only. -/
theorem checkRequest_eq_ok_iff {tokens : TokenTable} (hissued : Issued tokens)
    (frame : GatewayRequestFrame) (env : RequestEnv) :
    (checkRequest std codec provider server tokens frame env).1 = .ok () ↔
      env.retryAfter = none ∧ PresentsStored std server tokens frame env := by
  rw [checkRequest, GatewayServer.checkSecurity]
  cases hretry : env.retryAfter with
  | some seconds => simp
  | none =>
    have hauth : (server.withProvider codec provider env.authenticatedAt).authEnabled = true :=
      rfl
    dsimp only
    rw [hauth, if_neg (by simp)]
    cases hstored : tokens.get? (tokenOf std frame.params) with
    | none =>
      have hneither : ¬PresentsStored std server tokens frame env := by
        rintro ⟨stored, hget, _⟩
        exact absurd (hstored.symm.trans hget) (by simp)
      refine iff_of_false ?_ (fun hboth => hneither hboth.2)
      simp only [authenticate_of_not_stored hstored]
      cases (server.withProvider codec provider env.authenticatedAt).signed
          (tokenOf std frame.params) with
      | error raised => simp [Except.map]
      | ok found =>
        cases found with
        | none => simp [Except.map]
        | some claimed => simp [Except.map, validate_of_not_stored, hstored]
    | some stored =>
      obtain ⟨htoken, _⟩ := hissued _ (Dict.mem_of_get? hstored)
      dsimp only at htoken
      have hpresents : PresentsStored std server tokens frame env ↔
          stored.isExpired env.authenticatedAt = false ∧
            stored.isExpired env.validatedAt = false ∧
              server.authorizer.authorize stored frame.method.val = true := by
        constructor
        · rintro ⟨other, hother, hfresh⟩
          rw [Option.some.inj (hstored.symm.trans hother)]
          exact hfresh
        · exact fun hfresh => ⟨stored, hstored, hfresh⟩
      rw [hpresents]
      cases hexpired : stored.isExpired env.authenticatedAt with
      | true => simp [authenticate_of_expired hstored hexpired]
      | false =>
        have hvalid := @validate_stored_iff tokens stored env.validatedAt (htoken ▸ hstored)
        have hauthorizer : (server.withProvider codec provider
            env.authenticatedAt).authorizer = server.authorizer := rfl
        simp only [authenticate_of_fresh hstored hexpired, hauthorizer]
        rw [← hvalid]
        cases (validate tokens stored env.validatedAt).1 with
        | false => simp
        | true =>
          cases server.authorizer.authorize stored frame.method.val with
          | false => simp
          | true => simp

end Check

/-! ## A client with a signed token -/

def clientProvider : TokenAuthProvider where
  secretKey := py "dev-secret-key"
  tokenLifetimeSeconds := 3600

def clientDigest : PyStr :=
  py "a5c3f5b44b694f8dca9740149b8c5b1fa68a8b5dd8fc916e899b0a27faa3e5f9"

/-- What the functions give for the one token of the client. -/
def clientCodec : TokenCodec where
  hmacHex _ _ := clientDigest
  urlsafeB64encode _ := py "c3lzdGVtOnJlYWQ="
  urlsafeB64decode _ := some (py "system:read")
  int _ := some 1700000000
  fromTimestamp timestamp := .ok (some (timestamp * 1000000))

def clientToken : PyStr :=
  py "cli:1700000000:c3lzdGVtOnJlYWQ=:" ++ clientDigest

def pingServer : GatewayServer where
  gateway := oneToolGateway
    (toolSpec (RequiredStr.ofLiteral "release.deploy" Fixture.releaseDeploy) .write)
    { denyWrite := false, requireApprovalForWrite := true }
  authorizer := .default
  authEnabled := true
  signed _ := .ok none

def pingFrame : GatewayRequestFrame where
  requestId := py "gw-req-1"
  method := RequiredStr.ofLiteral "system.ping" (by decide)
  params := [(py "token", .str clientToken)]

/-- A minute after the token was signed. -/
def pingEnv : RequestEnv where
  retryAfter := none
  authenticatedAt := 1700000060000000
  validatedAt := 1700000060000000
  now := []
  outcome := .returned (.mapping [])
  latencyMs := 0
  auditLatencyMs := 0
  agentCalls := []
  unmodelled := .ok ()

/-- After any run of the provider and its server, a request passes the security check exactly
under a token that is stored or signed, has not expired and suffices for the method, if and only
if it is not presented under a signed one. -/
theorem authenticates_iff (std : Stdlib) (codec : TokenCodec) (provider : TokenAuthProvider)
    (server : GatewayServer) (ops : List TokenOp) (frame : GatewayRequestFrame) (env : RequestEnv) :
    let tokens := storedTokens std codec provider server ops
    ((checkRequest std codec provider server tokens frame env).1 = .ok () ↔
        env.retryAfter = none ∧ (PresentsStored std server tokens frame env ∨
          PresentsSigned std codec provider server frame env)) ↔
      ¬(env.retryAfter = none ∧ PresentsSigned std codec provider server frame env) := by
  intro tokens
  have hissued : Issued tokens := issued_storedTokens ops
  rw [checkRequest_eq_ok_iff hissued]
  constructor
  · rintro hproper ⟨hretry, hsigned⟩
    obtain ⟨_, stored, hget, _⟩ := hproper.mpr ⟨hretry, Or.inr hsigned⟩
    obtain ⟨_, _, _, token, hcreate, htoken, _⟩ := hsigned
    rw [htoken] at hget
    exact (hissued _ (Dict.mem_of_get? hget)).2 (colon_mem_of_createSignedToken hcreate)
  · intro hunsigned
    apply and_congr_right
    intro hretry
    rw [or_iff_left]
    exact fun hsigned => hunsigned ⟨hretry, hsigned⟩

/-- The signed token authenticates, and is refused all the same. -/
theorem signed_token_is_refused :
    clientProvider.createSignedToken clientCodec (py "cli") [py "system:read"]
        1700000000000000 = .ok clientToken ∧
      PresentsSigned asciiStdlib clientCodec clientProvider pingServer pingFrame pingEnv ∧
      (∃ credentials, (authenticate
        (clientProvider.verifySignedToken clientCodec pingEnv.authenticatedAt) [] clientToken
        pingEnv.authenticatedAt).1 = .ok (some credentials)) ∧
      (checkRequest asciiStdlib clientCodec clientProvider pingServer
        (storedTokens asciiStdlib clientCodec clientProvider pingServer []) pingFrame
        pingEnv).1 = .error unauthorized := by
  have hcreate : clientProvider.createSignedToken clientCodec (py "cli") [py "system:read"]
      1700000000000000 = .ok clientToken := rfl
  refine ⟨hcreate, ⟨_, _, _, _, hcreate, rfl, by decide, by decide, rfl⟩, ⟨_, rfl⟩, rfl⟩

end RootSeeker.Gateway
