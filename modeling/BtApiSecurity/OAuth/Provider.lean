import Mathlib.Algebra.Order.Field.Rat
import Mathlib.Data.Finset.Sort
import Mathlib.Data.String.Basic
import BtApiSecurity.Py.Base64
import BtApiSecurity.Py.Dict
import BtApiSecurity.Py.Method

/-!
# The OAuth 2.0 provider

`OAuth2Provider` and its records. A call reads the clock once, so that each
operation takes the time `now`; the values of `secrets.token_urlsafe` are a
stream, and the provider counts how many it has drawn.
-/

namespace BtApiSecurity.OAuth
open Py

structure OAuthError where
  message : String
  deriving DecidableEq

inductive GrantType where
  | authorizationCode
  | clientCredentials
  | refreshToken
  | pkce
  deriving DecidableEq

def GrantType.value : GrantType → String
  | .authorizationCode => "authorization_code"
  | .clientCredentials => "client_credentials"
  | .refreshToken => "refresh_token"
  | .pkce => "authorization_code_with_pkce"

def GrantType.ofValue (value : String) : Option GrantType :=
  [GrantType.authorizationCode, .clientCredentials, .refreshToken, .pkce].find? (·.value == value)

inductive TokenType where
  | bearer
  | jwt
  deriving DecidableEq

def TokenType.value : TokenType → String
  | .bearer => "Bearer"
  | .jwt => "JWT"

structure OAuthClient where
  clientId : String
  clientSecret : String
  redirectUris : List String
  scopes : Finset String
  grantTypes : Finset GrantType
  isConfidential : Bool
  createdAt : Time
  deriving DecidableEq

def OAuthClient.canUseGrantType (client : OAuthClient) (grantType : GrantType) : Bool :=
  grantType ∈ client.grantTypes

structure OAuthUser where
  userId : String
  username : String
  email : String
  isActive : Bool := true
  mfaEnabled : Bool := false
  totpSecret : Option String := none
  createdAt : Time
  deriving DecidableEq

structure AuthorizationCode where
  code : String
  clientId : String
  userId : String
  redirectUri : String
  scopes : Finset String
  codeChallenge : Option String
  codeChallengeMethod : Option String
  createdAt : Time
  expiresAt : Time
  used : Bool := false
  deriving DecidableEq

def AuthorizationCode.isExpired (c : AuthorizationCode) (now : Time) : Bool := now > c.expiresAt

def AuthorizationCode.isValid (c : AuthorizationCode) (now : Time) : Bool :=
  !c.used && !c.isExpired now

structure AccessToken where
  token : String
  tokenType : TokenType
  clientId : String
  userId : Option String
  scopes : Finset String
  expiresAt : Time
  createdAt : Time
  refreshToken : Option String
  deriving DecidableEq

def AccessToken.isExpired (t : AccessToken) (now : Time) : Bool := now > t.expiresAt

def AccessToken.isValid (t : AccessToken) (now : Time) : Bool := !t.isExpired now

structure RefreshToken where
  token : String
  clientId : String
  userId : String
  scopes : Finset String
  createdAt : Time
  expiresAt : Time
  used : Bool := false
  deriving DecidableEq

def RefreshToken.isExpired (t : RefreshToken) (now : Time) : Bool := now > t.expiresAt

def RefreshToken.isValid (t : RefreshToken) (now : Time) : Bool := !t.used && !t.isExpired now

structure Config where
  issuerUrl : String
  tokenLifetime : Int
  refreshTokenLifetime : Int
  enablePkce : Bool
  enableTokenRotation : Bool
  tokenLifetime_pos : 0 < tokenLifetime
  refreshTokenLifetime_pos : 0 < refreshTokenLifetime

structure OAuth2Provider where
  config : Config
  clients : Dict String OAuthClient
  users : Dict String OAuthUser
  authCodes : Dict String AuthorizationCode
  accessTokens : Dict String AccessToken
  refreshTokens : Dict String RefreshToken
  drawn : Nat

def OAuth2Provider.new (config : Config) : OAuth2Provider :=
  ⟨config, .empty, .empty, .empty, .empty, .empty, 0⟩

structure JwtPayload where
  iss : String
  sub : String
  aud : String
  exp : Int
  iat : Int
  preferredUsername : String
  email : String
  emailVerified : Bool
  scope : String

/-- What the provider takes from elsewhere: the random strings, SHA-256, and the JWT encoder. -/
structure Env where
  tokenUrlsafe : Nat → String
  sha256 : Bytes → Bytes
  jwtEncode : JwtPayload → String

/-! ### Arguments -/

/-- A value of the declared type, or an object of another type. -/
inductive Arg (α : Type) where
  | ok (a : α)
  | other

inductive Items (α : Type) where
  | absent
  | text
  | notIterable
  | items (xs : List α)

inductive GrantArg where
  | member (g : GrantType)
  | text (s : String)
  | other

def requireText (fieldName : String) : Arg String → Except OAuthError String
  | .other => .error ⟨fieldName ++ " must be a non-empty string"⟩
  | .ok value =>
    if strip value = "" then .error ⟨fieldName ++ " must be a non-empty string"⟩
    else .ok (strip value)

def requireBool (fieldName : String) : Arg Bool → Except OAuthError Bool
  | .other => .error ⟨fieldName ++ " must be a boolean"⟩
  | .ok value => .ok value

def normalizeScopes : Items (Arg String) → Except OAuthError (Finset String)
  | .absent => .ok ∅
  | .text | .notIterable => .error ⟨"scopes must be an iterable of strings"⟩
  | .items scopes => do return (← scopes.mapM (requireText "scope")).toFinset

def normalizeRedirectUris : Items (Arg String) → Except OAuthError (List String)
  | .absent | .text | .notIterable => .error ⟨"redirect_uris must be an iterable of strings"⟩
  | .items uris => do
    let normalized ← uris.mapM (requireText "redirect_uri")
    ensure (normalized ≠ []) ⟨"redirect_uris must not be empty"⟩
    return normalized

def normalizeGrantType : GrantArg → Except OAuthError GrantType
  | .member g => .ok g
  | .other => .error ⟨"grant_type must be a non-empty string"⟩
  | .text s => do
    let value ← requireText "grant_type" (.ok s)
    orRaise (GrantType.ofValue value) ⟨"Unsupported grant type: " ++ s⟩

def normalizeGrantTypes : Items GrantArg → Except OAuthError (Finset GrantType)
  | .absent | .text | .notIterable =>
    .error ⟨"grant_types must be an iterable of GrantType values"⟩
  | .items grants => do
    let normalized ← grants.mapM normalizeGrantType
    ensure (normalized ≠ []) ⟨"grant_types must not be empty"⟩
    return normalized.toFinset

def validateClientScopes (client : OAuthClient) (scopes : Finset String) : Except OAuthError Unit :=
  ensure (scopes = ∅ ∨ scopes ⊆ client.scopes) ⟨"Invalid scopes"⟩

def supportsRefreshGrant (client : OAuthClient) : Bool :=
  client.grantTypes ∩ {.refreshToken, .authorizationCode, .pkce} ≠ ∅

def truthy (value : Option String) : Bool := value.any (· ≠ "")

namespace OAuth2Provider

abbrev M := Method OAuth2Provider OAuthError

def getActiveUser (s : OAuth2Provider) (userId : String) : Except OAuthError OAuthUser := do
  let userId ← requireText "user_id" (.ok userId)
  let user ← orRaise (s.users.get? userId) ⟨"User not found"⟩
  ensure (user.isActive = true) ⟨"User is inactive"⟩
  return user

/-! ### Issuing tokens -/

variable (env : Env)

def drawToken : M String := do
  let s ← .read
  .update fun s => { s with drawn := s.drawn + 1 }
  return env.tokenUrlsafe s.drawn

def generateRefreshToken (now : Time) (clientId userId : String) (scopes : Finset String) :
    M RefreshToken := do
  let s ← .read
  let token ← drawToken env
  let userId ← .check (requireText "user_id" (.ok userId))
  let refreshToken : RefreshToken :=
    { token, clientId, userId, scopes, createdAt := now
      expiresAt := now + s.config.refreshTokenLifetime }
  .update fun s => { s with refreshTokens := s.refreshTokens.set token refreshToken }
  return refreshToken

def linkedRefreshToken (now : Time) (clientId : String) (userId : Option String)
    (scopes : Finset String) (issueRefreshToken : Bool) : M (Option String) :=
  if issueRefreshToken then do
    let userId ← .check (orRaise userId ⟨"User ID required for refresh token issuance"⟩)
    let refreshToken ← generateRefreshToken env now clientId userId scopes
    return some refreshToken.token
  else return none

def issueAccessToken (now : Time) (clientId : String) (userId : Option String)
    (scopes : Finset String) (issueRefreshToken : Bool) : M AccessToken := do
  let s ← .read
  let token ← drawToken env
  let refreshToken ← linkedRefreshToken env now clientId userId scopes issueRefreshToken
  let accessToken : AccessToken :=
    { token, tokenType := .bearer, clientId, userId, scopes
      expiresAt := now + s.config.tokenLifetime, createdAt := now, refreshToken }
  .update fun s => { s with accessTokens := s.accessTokens.set token accessToken }
  return accessToken

/-! ### Registration -/

def clientRecord (now : Time) (clientId clientSecret : Arg String)
    (redirectUris scopes : Items (Arg String)) (grantTypes : Items GrantArg)
    (isConfidential : Arg Bool) : Except OAuthError OAuthClient := do
  return { clientId := ← requireText "client_id" clientId
           clientSecret := ← requireText "client_secret" clientSecret
           redirectUris := ← normalizeRedirectUris redirectUris
           scopes := ← normalizeScopes scopes
           grantTypes := ← normalizeGrantTypes grantTypes
           isConfidential := ← requireBool "is_confidential" isConfidential
           createdAt := now }

def registerClient (now : Time) (clientId clientSecret : Arg String)
    (redirectUris scopes : Items (Arg String)) (grantTypes : Items GrantArg)
    (isConfidential : Arg Bool) : M OAuthClient := do
  let client ← .check
    (clientRecord now clientId clientSecret redirectUris scopes grantTypes isConfidential)
  .update fun s => { s with clients := s.clients.set client.clientId client }
  return client

def userRecord (now : Time) (userId username email : Arg String) (mfaEnabled : Arg Bool) :
    Except OAuthError OAuthUser := do
  return { userId := ← requireText "user_id" userId
           username := ← requireText "username" username
           email := ← requireText "email" email
           mfaEnabled := ← requireBool "mfa_enabled" mfaEnabled
           createdAt := now }

def registerUser (now : Time) (userId username email : Arg String) (mfaEnabled : Arg Bool) :
    M OAuthUser := do
  let user ← .check (userRecord now userId username email mfaEnabled)
  .update fun s => { s with users := s.users.set user.userId user }
  return user

/-- Someone who holds a registered user's record sets its `is_active`. -/
def setActive (userId : String) (active : Bool) : M Unit :=
  .update fun s =>
    match s.users.get? userId with
    | none => s
    | some user => { s with users := s.users.set userId { user with isActive := active } }

/-! ### Authorization codes -/

/-- The checks of `generate_authorization_code`: the code to store, but for its string. -/
def authorizationRequest (s : OAuth2Provider) (now : Time) (clientId userId redirectUri : Arg String)
    (scopes : Items (Arg String)) (codeChallenge codeChallengeMethod : Option String) :
    Except OAuthError (String → AuthorizationCode) := do
  let clientId ← requireText "client_id" clientId
  let userId ← requireText "user_id" userId
  let redirectUri ← requireText "redirect_uri" redirectUri
  let scopes ← normalizeScopes scopes
  let client ← orRaise (s.clients.get? clientId) ⟨"Invalid client"⟩
  let user ← orRaise (s.users.get? userId) ⟨"User not found"⟩
  ensure (user.isActive = true) ⟨"User is inactive"⟩
  ensure (redirectUri ∈ client.redirectUris) ⟨"Invalid redirect URI"⟩
  validateClientScopes client scopes
  ensure (¬(truthy codeChallenge = true ∧ s.config.enablePkce = false)) ⟨"PKCE not supported"⟩
  ensure (¬(truthy codeChallengeMethod = true ∧ truthy codeChallenge = false))
    ⟨"Code challenge required"⟩
  ensure (codeChallengeMethod ∈ [none, some "plain", some "S256"])
    ⟨"Unsupported PKCE method: " ++ codeChallengeMethod.getD "None"⟩
  return fun code =>
    { code, clientId, userId, redirectUri, scopes, codeChallenge, codeChallengeMethod
      createdAt := now, expiresAt := now + 600 }

def generateAuthorizationCode (now : Time) (clientId userId redirectUri : Arg String)
    (scopes : Items (Arg String)) (codeChallenge codeChallengeMethod : Option String) :
    M String := do
  let s ← .read
  let authCode ← .check
    (s.authorizationRequest now clientId userId redirectUri scopes codeChallenge codeChallengeMethod)
  let code ← drawToken env
  .update fun s => { s with authCodes := s.authCodes.set code (authCode code) }
  return code

def validatePkce (codeVerifier codeChallenge : String) (codeChallengeMethod : Option String) :
    Except OAuthError Bool :=
  let method := if truthy codeChallengeMethod then codeChallengeMethod.getD "" else "plain"
  if method = "plain" then .ok (codeVerifier == codeChallenge)
  else if method = "S256" then
    let digest := urlsafeB64encode (env.sha256 (encodeUtf8 codeVerifier))
    .ok (String.ofList (digest.toList.rdropWhile (· == '=')) == codeChallenge)
  else .error ⟨"Unsupported PKCE method: " ++ method⟩

def checkPkce (authCode : AuthorizationCode) (codeVerifier : Option String) :
    Except OAuthError Unit :=
  if truthy authCode.codeChallenge then do
    let codeVerifier ← orRaise codeVerifier ⟨"Code verifier required"⟩
    let matching ← validatePkce env codeVerifier (authCode.codeChallenge.getD "")
      authCode.codeChallengeMethod
    ensure (matching = true) ⟨"Invalid code verifier"⟩
  else .ok ()

def authorizationGrant (s : OAuth2Provider) (now : Time) (code clientId redirectUri : Arg String)
    (codeVerifier : Option (Arg String)) : Except OAuthError (String × AuthorizationCode) := do
  let code ← requireText "code" code
  let clientId ← requireText "client_id" clientId
  let redirectUri ← requireText "redirect_uri" redirectUri
  let codeVerifier ← codeVerifier.mapM (requireText "code_verifier")
  let authCode ← orRaise (s.authCodes.get? code) ⟨"Invalid authorization code"⟩
  ensure (authCode.isValid now = true) ⟨"Authorization code expired or used"⟩
  ensure (authCode.clientId = clientId) ⟨"Client ID mismatch"⟩
  ensure (authCode.redirectUri = redirectUri) ⟨"Redirect URI mismatch"⟩
  checkPkce env authCode codeVerifier
  return (code, authCode)

def validateAuthorizationCode (now : Time) (code clientId redirectUri : Arg String)
    (codeVerifier : Option (Arg String)) : M AuthorizationCode := do
  let s ← .read
  let (code, authCode) ← .check
    (s.authorizationGrant env now code clientId redirectUri codeVerifier)
  .update fun s => { s with authCodes := s.authCodes.set code { authCode with used := true } }
  return { authCode with used := true }

/-! ### Access and refresh tokens -/

def tokenRequest (s : OAuth2Provider) (clientId : Arg String) (userId : Option String)
    (scopes : Items (Arg String)) (grantType : GrantType) :
    Except OAuthError (String × Option String × Finset String) := do
  let clientId ← requireText "client_id" clientId
  let scopes ← normalizeScopes scopes
  let client ← orRaise (s.clients.get? clientId) ⟨"Invalid client"⟩
  ensure (client.canUseGrantType grantType = true) ⟨"Grant type not allowed for client"⟩
  validateClientScopes client scopes
  if grantType ∈ [GrantType.authorizationCode, .pkce, .refreshToken] then
    let userId ← orRaise userId ⟨"User ID required for grant type"⟩
    let userId ← requireText "user_id" (.ok userId)
    return (clientId, some userId, scopes)
  else return (clientId, userId, scopes)

def generateAccessToken (now : Time) (clientId : Arg String) (userId : Option String)
    (scopes : Items (Arg String)) (grantType : GrantType) : M AccessToken := do
  let s ← .read
  let (clientId, userId, scopes) ← .check (s.tokenRequest clientId userId scopes grantType)
  issueAccessToken env now clientId userId scopes
    (grantType ∈ [GrantType.authorizationCode, .pkce])

def validateAccessToken (s : OAuth2Provider) (now : Time) (token : Arg String)
    (requiredScopes : Items (Arg String)) : Except OAuthError AccessToken := do
  let token ← requireText "token" token
  let requiredScopes ← normalizeScopes requiredScopes
  let accessToken ← orRaise (s.accessTokens.get? token) ⟨"Invalid access token"⟩
  ensure (accessToken.isValid now = true) ⟨"Access token expired"⟩
  ensure (requiredScopes = ∅ ∨ requiredScopes ⊆ accessToken.scopes) ⟨"Insufficient scopes"⟩
  return accessToken

def refreshRequest (s : OAuth2Provider) (now : Time) (refreshToken : String) (clientId : Arg String) :
    Except OAuthError RefreshToken := do
  let clientId ← requireText "client_id" clientId
  let tokenObj ← orRaise (s.refreshTokens.get? refreshToken) ⟨"Invalid refresh token"⟩
  ensure (tokenObj.isValid now = true) ⟨"Refresh token expired or used"⟩
  ensure (tokenObj.clientId = clientId) ⟨"Client ID mismatch"⟩
  let client ← orRaise (s.clients.get? clientId) ⟨"Invalid client"⟩
  ensure (supportsRefreshGrant client = true) ⟨"Grant type not allowed for client"⟩
  let _ ← s.getActiveUser tokenObj.userId
  return tokenObj

def markUsed (token : String) (tokenObj : RefreshToken) : M Unit :=
  .update fun s => { s with refreshTokens := s.refreshTokens.set token { tokenObj with used := true } }

def refreshAccessToken (now : Time) (refreshToken : String) (clientId : Arg String) :
    M AccessToken := do
  let s ← .read
  let tokenObj ← .check (s.refreshRequest now refreshToken clientId)
  if s.config.enableTokenRotation then
    markUsed refreshToken tokenObj
    issueAccessToken env now tokenObj.clientId (some tokenObj.userId) tokenObj.scopes true
  else
    let accessToken ← issueAccessToken env now tokenObj.clientId (some tokenObj.userId)
      tokenObj.scopes false
    let accessToken := { accessToken with refreshToken := some tokenObj.token }
    .update fun s => { s with accessTokens := s.accessTokens.set accessToken.token accessToken }
    return accessToken

def revokeToken (token : String) : M Bool := do
  let s ← .read
  match s.accessTokens.get? token with
  | some _ =>
    .update fun s => { s with accessTokens := s.accessTokens.erase token }
    return true
  | none =>
    match s.refreshTokens.get? token with
    | some tokenObj =>
      markUsed token tokenObj
      return true
    | none => return false

/-! ### Introspection and ID tokens -/

/-- `int(x)`: towards zero. -/
def truncate (x : Time) : Int := if x < 0 then x.ceil else x.floor

def scopeText (scopes : Finset String) : String := " ".intercalate (scopes.sort (· ≤ ·))

inductive Introspection where
  | unknown
  | found (active : Bool) (clientId : String) (userId : Option String) (scope : String)
      (exp iat : Int) (tokenType : String)

def Introspection.active : Introspection → Bool
  | .unknown => false
  | .found active .. => active

def introspectToken (s : OAuth2Provider) (now : Time) (token : String) : Introspection :=
  match s.accessTokens.get? token with
  | some t =>
    .found (t.isValid now) t.clientId t.userId (scopeText t.scopes) (truncate t.expiresAt)
      (truncate t.createdAt) t.tokenType.value
  | none =>
    match s.refreshTokens.get? token with
    | some t =>
      .found (t.isValid now) t.clientId (some t.userId) (scopeText t.scopes) (truncate t.expiresAt)
        (truncate t.createdAt) "refresh_token"
    | none => .unknown

def generateJwtIdToken (s : OAuth2Provider) (now : Time) (userId clientId : Arg String)
    (scopes : Items (Arg String)) : Except OAuthError String := do
  let userId ← requireText "user_id" userId
  let clientId ← requireText "client_id" clientId
  let scopes ← normalizeScopes scopes
  let user ← s.getActiveUser userId
  let client ← orRaise (s.clients.get? clientId) ⟨"Invalid client"⟩
  validateClientScopes client scopes
  return env.jwtEncode
    { iss := s.config.issuerUrl, sub := userId, aud := clientId, exp := truncate now + 3600
      iat := truncate now, preferredUsername := user.username, email := user.email
      emailVerified := true, scope := scopeText scopes }

/-! ### Cleanup -/

structure CleanupCounts where
  authorizationCodes : Nat
  accessTokens : Nat
  refreshTokens : Nat
  deriving DecidableEq

def removed {α : Type} (d : Dict String α) (keep : α → Bool) : Nat :=
  (d.entries.filter fun e => !keep e.2).length

def cleanupExpiredTokens (now : Time) : M CleanupCounts := do
  let s ← .read
  .update fun s =>
    { s with
      authCodes := s.authCodes.filter fun _ c => c.isValid now
      accessTokens := s.accessTokens.filter fun _ t => !t.isExpired now
      refreshTokens := s.refreshTokens.filter fun _ t => t.isValid now }
  return ⟨removed s.authCodes (·.isValid now), removed s.accessTokens (!·.isExpired now),
    removed s.refreshTokens (·.isValid now)⟩

/-! ### The provider as a machine -/

inductive Call where
  | registerClient (clientId clientSecret : Arg String) (redirectUris scopes : Items (Arg String))
      (grantTypes : Items GrantArg) (isConfidential : Arg Bool)
  | registerUser (userId username email : Arg String) (mfaEnabled : Arg Bool)
  | setActive (userId : String) (active : Bool)
  | generateAuthorizationCode (clientId userId redirectUri : Arg String) (scopes : Items (Arg String))
      (codeChallenge codeChallengeMethod : Option String)
  | validateAuthorizationCode (code clientId redirectUri : Arg String)
      (codeVerifier : Option (Arg String))
  | generateAccessToken (clientId : Arg String) (userId : Option String) (scopes : Items (Arg String))
      (grantType : GrantType)
  | validateAccessToken (token : Arg String) (requiredScopes : Items (Arg String))
  | refreshAccessToken (refreshToken : String) (clientId : Arg String)
  | revokeToken (token : String)
  | introspectToken (token : String)
  | generateJwtIdToken (userId clientId : Arg String) (scopes : Items (Arg String))
  | cleanupExpiredTokens

inductive Reply where
  | client (c : OAuthClient)
  | user (u : OAuthUser)
  | done
  | code (c : String)
  | authCode (c : AuthorizationCode)
  | accessToken (t : AccessToken)
  | revoked (found : Bool)
  | introspection (i : Introspection)
  | jwt (t : String)
  | counts (c : CleanupCounts)

structure Input where
  now : Time
  call : Call

def perform (now : Time) : Call → M Reply
  | .registerClient clientId clientSecret redirectUris scopes grantTypes isConfidential =>
    Reply.client <$> registerClient now clientId clientSecret redirectUris scopes grantTypes
      isConfidential
  | .registerUser userId username email mfaEnabled =>
    Reply.user <$> registerUser now userId username email mfaEnabled
  | .setActive userId active => (fun _ => Reply.done) <$> setActive userId active
  | .generateAuthorizationCode clientId userId redirectUri scopes challenge method =>
    Reply.code <$> generateAuthorizationCode env now clientId userId redirectUri scopes challenge method
  | .validateAuthorizationCode code clientId redirectUri codeVerifier =>
    Reply.authCode <$> validateAuthorizationCode env now code clientId redirectUri codeVerifier
  | .generateAccessToken clientId userId scopes grantType =>
    Reply.accessToken <$> generateAccessToken env now clientId userId scopes grantType
  | .validateAccessToken token requiredScopes => do
    let s ← .read
    Reply.accessToken <$> .check (s.validateAccessToken now token requiredScopes)
  | .refreshAccessToken refreshToken clientId =>
    Reply.accessToken <$> refreshAccessToken env now refreshToken clientId
  | .revokeToken token => Reply.revoked <$> revokeToken token
  | .introspectToken token => do
    let s ← .read
    return .introspection (s.introspectToken now token)
  | .generateJwtIdToken userId clientId scopes => do
    let s ← .read
    Reply.jwt <$> .check (s.generateJwtIdToken env now userId clientId scopes)
  | .cleanupExpiredTokens => Reply.counts <$> cleanupExpiredTokens now

def step (s : OAuth2Provider) (i : Input) : OAuth2Provider × Except OAuthError Reply :=
  (((perform env i.now i.call).run s).2, ((perform env i.now i.call).run s).1)

end OAuth2Provider

end BtApiSecurity.OAuth
