import BtApiSecurity.Machine
import BtApiSecurity.OAuth.Provider

/-!
# What one call does

Every call either raises and leaves the provider as it was, or does one of the
things listed in `Outcome`.
-/

namespace BtApiSecurity.OAuth
open Py

/-! ### Arguments -/

theorem requireText_ok {field text : String} {a : Arg String} :
    requireText field a = .ok text ↔ ∃ value, a = .ok value ∧ strip value = text ∧ text ≠ "" := by
  cases a with
  | other => simp [requireText]
  | ok value =>
    simp only [requireText, Arg.ok.injEq, exists_eq_left']
    split
    · rename_i blank
      simp [blank, eq_comm]
    · rename_i filled
      simp only [Except.ok.injEq]
      constructor
      · rintro rfl
        exact ⟨rfl, filled⟩
      · exact And.left

theorem requireText_again {field field' text : String} {a : Arg String}
    (h : requireText field a = .ok text) : requireText field' (.ok text) = .ok text := by
  obtain ⟨value, -, rfl, filled⟩ := requireText_ok.mp h
  exact requireText_ok.mpr ⟨_, rfl, strip_strip value, filled⟩

theorem validateClientScopes_ok {client : OAuthClient} {scopes : Finset String} {u : Unit} :
    validateClientScopes client scopes = .ok u ↔ scopes ⊆ client.scopes := by
  unfold validateClientScopes
  rw [ensure_ok]
  constructor
  · rintro (rfl | sub)
    · exact Finset.empty_subset _
    · exact sub
  · exact Or.inr

namespace OAuth2Provider

theorem getActiveUser_ok {s : OAuth2Provider} {userId : String} {user : OAuthUser} :
    s.getActiveUser userId = .ok user ↔
      ∃ text, requireText "user_id" (.ok userId) = .ok text ∧ s.users.get? text = some user ∧
        user.isActive = true := by
  simp only [getActiveUser, check_bind_ok, orRaise_ok, ensure_ok, pure_ok]
  constructor
  · rintro ⟨text, required, user, found, _, active, rfl⟩
    exact ⟨text, required, found, active⟩
  · rintro ⟨text, required, found, active⟩
    exact ⟨text, required, user, found, ⟨⟩, active, rfl⟩

/-! ### States after an issue -/

variable (env : Env) (s : OAuth2Provider) (now : Time)

def newAccessToken (clientId : String) (userId : Option String) (scopes : Finset String)
    (refreshToken : Option String) : AccessToken :=
  { token := env.tokenUrlsafe s.drawn, tokenType := .bearer, clientId, userId, scopes
    expiresAt := now + s.config.tokenLifetime, createdAt := now, refreshToken }

def newRefreshToken (clientId userId : String) (scopes : Finset String) : RefreshToken :=
  { token := env.tokenUrlsafe (s.drawn + 1), clientId, userId, scopes, createdAt := now
    expiresAt := now + s.config.refreshTokenLifetime }

def withAccess (t : AccessToken) : OAuth2Provider :=
  { s with accessTokens := s.accessTokens.set t.token t, drawn := s.drawn + 1 }

def withGrant (t : AccessToken) (r : RefreshToken) : OAuth2Provider :=
  { s with
    accessTokens := s.accessTokens.set t.token t
    refreshTokens := s.refreshTokens.set r.token r
    drawn := s.drawn + 2 }

def withUsed (token : String) (r : RefreshToken) : OAuth2Provider :=
  { s with refreshTokens := s.refreshTokens.set token { r with used := true } }

def withCode (c : AuthorizationCode) : OAuth2Provider :=
  { s with authCodes := s.authCodes.set c.code c, drawn := s.drawn + 1 }

def cleaned : OAuth2Provider :=
  { s with
    authCodes := s.authCodes.filter fun _ c => c.isValid now
    accessTokens := s.accessTokens.filter fun _ t => !t.isExpired now
    refreshTokens := s.refreshTokens.filter fun _ t => t.isValid now }

variable {env s now}

theorem run_issueAccessToken_alone {clientId : String} {userId : Option String}
    {scopes : Finset String} :
    (issueAccessToken env now clientId userId scopes false).run s =
      (.ok (s.newAccessToken env now clientId userId scopes none),
        s.withAccess (s.newAccessToken env now clientId userId scopes none)) := rfl

theorem run_issueAccessToken_grant {clientId userId text : String} {scopes : Finset String}
    (required : requireText "user_id" (.ok userId) = .ok text) :
    (issueAccessToken env now clientId (some userId) scopes true).run s =
      (.ok (s.newAccessToken env now clientId (some userId) scopes
          (some (env.tokenUrlsafe (s.drawn + 1)))),
        s.withGrant
          (s.newAccessToken env now clientId (some userId) scopes
            (some (env.tokenUrlsafe (s.drawn + 1))))
          (s.newRefreshToken env now clientId text scopes)) := by
  simp [issueAccessToken, linkedRefreshToken, generateRefreshToken, drawToken, Method.run_bind,
    required, orRaise, newAccessToken, newRefreshToken, withGrant]

/-! ### Calls -/

def Call.reads : Call → Bool
  | .validateAccessToken .. | .introspectToken .. | .generateJwtIdToken .. => true
  | _ => false

variable (env s now)

/-- The checks of a call; only they raise. -/
def checks : Call → Except OAuthError Unit
  | .registerClient clientId clientSecret redirectUris scopes grantTypes isConfidential =>
    (fun _ => ()) <$>
      clientRecord now clientId clientSecret redirectUris scopes grantTypes isConfidential
  | .registerUser userId username email mfaEnabled =>
    (fun _ => ()) <$> userRecord now userId username email mfaEnabled
  | .generateAuthorizationCode clientId userId redirectUri scopes challenge method =>
    (fun _ => ()) <$>
      s.authorizationRequest now clientId userId redirectUri scopes challenge method
  | .validateAuthorizationCode code clientId redirectUri verifier =>
    (fun _ => ()) <$> s.authorizationGrant env now code clientId redirectUri verifier
  | .generateAccessToken clientId userId scopes grantType =>
    (fun _ => ()) <$> s.tokenRequest clientId userId scopes grantType
  | .validateAccessToken token requiredScopes =>
    (fun _ => ()) <$> s.validateAccessToken now token requiredScopes
  | .refreshAccessToken refreshToken clientId =>
    (fun _ => ()) <$> s.refreshRequest now refreshToken clientId
  | .generateJwtIdToken userId clientId scopes =>
    (fun _ => ()) <$> s.generateJwtIdToken env now userId clientId scopes
  | .setActive .. | .revokeToken .. | .introspectToken .. | .cleanupExpiredTokens => .ok ()

/-- What a call may do: the provider after it, and what it returned or raised. -/
inductive Outcome : Call → OAuth2Provider → Except OAuthError Reply → Prop
  | raised (call : Call) (error : OAuthError) (refused : s.checks env now call = .error error) :
      Outcome call s (.error error)
  | answered (call : Call) (reply : Reply) (reads : call.reads = true)
      (accepted : s.checks env now call = .ok ()) : Outcome call s (.ok reply)
  | clientRegistered {clientId clientSecret : Arg String} {redirectUris scopes : Items (Arg String)}
      {grantTypes : Items GrantArg} {isConfidential : Arg Bool} {client : OAuthClient}
      (accepted : clientRecord now clientId clientSecret redirectUris scopes grantTypes
        isConfidential = .ok client) :
      Outcome (.registerClient clientId clientSecret redirectUris scopes grantTypes isConfidential)
        { s with clients := s.clients.set client.clientId client } (.ok (.client client))
  | userRegistered {userId username email : Arg String} {mfaEnabled : Arg Bool} {user : OAuthUser}
      (accepted : userRecord now userId username email mfaEnabled = .ok user) :
      Outcome (.registerUser userId username email mfaEnabled)
        { s with users := s.users.set user.userId user } (.ok (.user user))
  | activitySet {userId : String} {active : Bool} {users : Dict String OAuthUser} :
      Outcome (.setActive userId active) { s with users } (.ok .done)
  | codeIssued {clientId userId redirectUri : Arg String} {scopes : Items (Arg String)}
      {challenge method : Option String} {request : String → AuthorizationCode}
      (accepted : s.authorizationRequest now clientId userId redirectUri scopes challenge method =
        .ok request) :
      Outcome (.generateAuthorizationCode clientId userId redirectUri scopes challenge method)
        (s.withCode (request (env.tokenUrlsafe s.drawn))) (.ok (.code (env.tokenUrlsafe s.drawn)))
  | codeAccepted {code clientId redirectUri : Arg String} {verifier : Option (Arg String)}
      {text : String} {c : AuthorizationCode}
      (accepted : s.authorizationGrant env now code clientId redirectUri verifier = .ok (text, c)) :
      Outcome (.validateAuthorizationCode code clientId redirectUri verifier)
        { s with authCodes := s.authCodes.set text { c with used := true } }
        (.ok (.authCode { c with used := true }))
  | tokenIssued {clientId : Arg String} {userId user : Option String} {scopes : Items (Arg String)}
      {grantType : GrantType} {client : String} {granted : Finset String}
      (accepted : s.tokenRequest clientId userId scopes grantType = .ok (client, user, granted))
      (alone : grantType ∉ [GrantType.authorizationCode, .pkce]) :
      Outcome (.generateAccessToken clientId userId scopes grantType)
        (s.withAccess (s.newAccessToken env now client user granted none))
        (.ok (.accessToken (s.newAccessToken env now client user granted none)))
  | grantIssued {clientId : Arg String} {userId : Option String} {scopes : Items (Arg String)}
      {grantType : GrantType} {client user : String} {granted : Finset String} {t : AccessToken}
      (accepted : s.tokenRequest clientId userId scopes grantType = .ok (client, some user, granted))
      (trimmed : requireText "user_id" (.ok user) = .ok user)
      (paired : grantType ∈ [GrantType.authorizationCode, .pkce])
      (token : t = s.newAccessToken env now client (some user) granted
        (some (env.tokenUrlsafe (s.drawn + 1)))) :
      Outcome (.generateAccessToken clientId userId scopes grantType)
        (s.withGrant t (s.newRefreshToken env now client user granted)) (.ok (.accessToken t))
  | rotated {refreshToken : String} {clientId : Arg String} {old : RefreshToken} {user : String}
      {t : AccessToken} (rotation : s.config.enableTokenRotation = true)
      (accepted : s.refreshRequest now refreshToken clientId = .ok old)
      (required : requireText "user_id" (.ok old.userId) = .ok user)
      (token : t = s.newAccessToken env now old.clientId (some old.userId) old.scopes
        (some (env.tokenUrlsafe (s.drawn + 1)))) :
      Outcome (.refreshAccessToken refreshToken clientId)
        ((s.withUsed refreshToken old).withGrant t
          (s.newRefreshToken env now old.clientId user old.scopes))
        (.ok (.accessToken t))
  | reissued {refreshToken : String} {clientId : Arg String} {old : RefreshToken}
      {t : AccessToken} (fixed : s.config.enableTokenRotation = false)
      (accepted : s.refreshRequest now refreshToken clientId = .ok old)
      (token : t = s.newAccessToken env now old.clientId (some old.userId) old.scopes
        (some old.token)) :
      Outcome (.refreshAccessToken refreshToken clientId) (s.withAccess t) (.ok (.accessToken t))
  | accessRevoked {token : String} {t : AccessToken} (found : s.accessTokens.get? token = some t) :
      Outcome (.revokeToken token) { s with accessTokens := s.accessTokens.erase token }
        (.ok (.revoked true))
  | refreshRevoked {token : String} {t : RefreshToken} (other : s.accessTokens.get? token = none)
      (found : s.refreshTokens.get? token = some t) :
      Outcome (.revokeToken token) (s.withUsed token t) (.ok (.revoked true))
  | notRevoked {token : String} (other : s.accessTokens.get? token = none)
      (absent : s.refreshTokens.get? token = none) :
      Outcome (.revokeToken token) s (.ok (.revoked false))
  | cleaned {counts : CleanupCounts} : Outcome .cleanupExpiredTokens (s.cleaned now)
      (.ok (.counts counts))

variable {env s now}

theorem refreshRequest_ok {refreshToken : String} {clientId : Arg String} {t : RefreshToken} :
    s.refreshRequest now refreshToken clientId = .ok t ↔
      ∃ id client user, requireText "client_id" clientId = .ok id ∧
        s.refreshTokens.get? refreshToken = some t ∧ t.isValid now = true ∧ t.clientId = id ∧
        s.clients.get? id = some client ∧ supportsRefreshGrant client = true ∧
        s.getActiveUser t.userId = .ok user := by
  simp only [refreshRequest, check_bind_ok, orRaise_ok, ensure_ok, pure_ok]
  constructor
  · rintro ⟨id, required, t, found, _, valid, _, same, client, known, _, grants, user, active, rfl⟩
    exact ⟨id, client, user, required, found, valid, same, known, grants, active⟩
  · rintro ⟨id, client, user, required, found, valid, same, known, grants, active⟩
    exact ⟨id, required, t, found, ⟨⟩, valid, ⟨⟩, same, client, known, ⟨⟩, grants, user, active, rfl⟩

theorem tokenRequest_ok {clientId : Arg String} {userId user : Option String}
    {scopes : Items (Arg String)} {grantType : GrantType} {id : String} {granted : Finset String}
    (h : s.tokenRequest clientId userId scopes grantType = .ok (id, user, granted)) :
    ∃ client, requireText "client_id" clientId = .ok id ∧ normalizeScopes scopes = .ok granted ∧
      s.clients.get? id = some client ∧ client.canUseGrantType grantType = true ∧
      granted ⊆ client.scopes ∧
      if grantType ∈ [GrantType.authorizationCode, .pkce, .refreshToken] then
        ∃ given text, userId = some given ∧ requireText "user_id" (.ok given) = .ok text ∧
          user = some text
      else user = userId := by
  simp only [tokenRequest, check_bind_ok, orRaise_ok, ensure_ok] at h
  obtain ⟨id', required, granted', normal, client, known, _, allowed, _, contained, h⟩ := h
  have sub := validateClientScopes_ok.mp contained
  split at h
  · rename_i member
    simp only [check_bind_ok, orRaise_ok, pure_ok, Prod.mk.injEq] at h
    obtain ⟨given, present, text, trimmed, rfl, rfl, rfl⟩ := h
    refine ⟨client, required, normal, known, allowed, sub, ?_⟩
    rw [if_pos member]
    exact ⟨given, text, present, trimmed, rfl⟩
  · rename_i other
    simp only [pure_ok, Prod.mk.injEq] at h
    obtain ⟨rfl, rfl, rfl⟩ := h
    refine ⟨client, required, normal, known, allowed, sub, ?_⟩
    rw [if_neg other]

theorem authorizationRequest_ok {clientId userId redirectUri : Arg String}
    {scopes : Items (Arg String)} {challenge method : Option String}
    {request : String → AuthorizationCode}
    (h : s.authorizationRequest now clientId userId redirectUri scopes challenge method =
      .ok request) :
    ∃ id user uri granted client record, requireText "client_id" clientId = .ok id ∧
      requireText "user_id" userId = .ok user ∧ requireText "redirect_uri" redirectUri = .ok uri ∧
      normalizeScopes scopes = .ok granted ∧ s.clients.get? id = some client ∧
      s.users.get? user = some record ∧ record.isActive = true ∧ uri ∈ client.redirectUris ∧
      granted ⊆ client.scopes ∧ method ∈ [none, some "plain", some "S256"] ∧
      request = fun code =>
        { code, clientId := id, userId := user, redirectUri := uri, scopes := granted
          codeChallenge := challenge, codeChallengeMethod := method, createdAt := now
          expiresAt := now + 600 } := by
  simp only [authorizationRequest, check_bind_ok, orRaise_ok, ensure_ok, pure_ok] at h
  obtain ⟨id, client_ok, user, user_ok, uri, uri_ok, granted, scopes_ok, client, known, record,
    present, _, active, _, registered, _, contained, _, _, _, _, _, supported, rfl⟩ := h
  exact ⟨id, user, uri, granted, client, record, client_ok, user_ok, uri_ok, scopes_ok, known,
    present, active, registered, validateClientScopes_ok.mp contained, supported, rfl⟩

theorem authorizationGrant_ok {code clientId redirectUri : Arg String}
    {verifier : Option (Arg String)} {text : String} {c : AuthorizationCode} :
    s.authorizationGrant env now code clientId redirectUri verifier = .ok (text, c) ↔
      ∃ id uri given u, requireText "code" code = .ok text ∧
        requireText "client_id" clientId = .ok id ∧ requireText "redirect_uri" redirectUri = .ok uri ∧
        verifier.mapM (requireText "code_verifier") = .ok given ∧
        s.authCodes.get? text = some c ∧ c.isValid now = true ∧ c.clientId = id ∧
        c.redirectUri = uri ∧ checkPkce env c given = .ok u := by
  simp only [authorizationGrant, check_bind_ok, orRaise_ok, ensure_ok, pure_ok, Prod.mk.injEq]
  constructor
  · rintro ⟨text, code_ok, id, client_ok, uri, uri_ok, given, verifier_ok, c, found, _, valid, _,
      client, _, redirect, u, pkce, rfl, rfl⟩
    exact ⟨id, uri, given, u, code_ok, client_ok, uri_ok, verifier_ok, found, valid, client,
      redirect, pkce⟩
  · rintro ⟨id, uri, given, u, code_ok, client_ok, uri_ok, verifier_ok, found, valid, client,
      redirect, pkce⟩
    exact ⟨text, code_ok, id, client_ok, uri, uri_ok, given, verifier_ok, c, found, ⟨⟩, valid, ⟨⟩,
      client, ⟨⟩, redirect, u, pkce, rfl, rfl⟩

theorem outcome_generateAuthorizationCode {clientId userId redirectUri : Arg String}
    {scopes : Items (Arg String)} {challenge method : Option String} :
    let call := Call.generateAuthorizationCode clientId userId redirectUri scopes challenge method
    Outcome env s now call ((perform env now call).run s).2 ((perform env now call).run s).1 := by
  simp only [perform, generateAuthorizationCode, Method.run_map, Method.run_bind, Method.run_read,
    Method.run_check]
  cases accepted : s.authorizationRequest now clientId userId redirectUri scopes challenge method with
  | error e => exact .raised _ e (by rw [checks, accepted]; rfl)
  | ok request =>
    have issued := @Outcome.codeIssued env _ _ _ _ _ _ _ _ _ accepted
    obtain ⟨id, user, uri, granted, -, -, -, -, -, -, -, -, -, -, -, -, rfl⟩ :=
      authorizationRequest_ok accepted
    exact issued

theorem outcome_generateAccessToken {clientId : Arg String} {userId : Option String}
    {scopes : Items (Arg String)} {grantType : GrantType} :
    let call := Call.generateAccessToken clientId userId scopes grantType
    Outcome env s now call ((perform env now call).run s).2 ((perform env now call).run s).1 := by
  simp only [perform, generateAccessToken, Method.run_map, Method.run_bind, Method.run_read,
    Method.run_check]
  cases accepted : s.tokenRequest clientId userId scopes grantType with
  | error e => exact .raised _ e (by rw [checks, accepted]; rfl)
  | ok request =>
    obtain ⟨id, user, granted⟩ := request
    by_cases paired : grantType ∈ [GrantType.authorizationCode, .pkce]
    · obtain ⟨client, -, -, -, -, -, user_eq⟩ := tokenRequest_ok accepted
      have member : grantType ∈ [GrantType.authorizationCode, .pkce, .refreshToken] := by
        simp only [List.mem_cons] at paired ⊢
        tauto
      rw [if_pos member] at user_eq
      obtain ⟨given, text, -, trimmed, rfl⟩ := user_eq
      simp only [paired, decide_true, run_issueAccessToken_grant (requireText_again trimmed)]
      exact .grantIssued accepted (requireText_again trimmed) paired rfl
    · simp only [paired, decide_false, run_issueAccessToken_alone]
      exact .tokenIssued accepted paired

theorem outcome_refreshAccessToken {refreshToken : String} {clientId : Arg String} :
    let call := Call.refreshAccessToken refreshToken clientId
    Outcome env s now call ((perform env now call).run s).2 ((perform env now call).run s).1 := by
  simp only [perform, refreshAccessToken, Method.run_map, Method.run_bind, Method.run_read,
    Method.run_check]
  cases accepted : s.refreshRequest now refreshToken clientId with
  | error e => exact .raised _ e (by rw [checks, accepted]; rfl)
  | ok old =>
    cases rotation : s.config.enableTokenRotation with
    | true =>
      obtain ⟨_, _, _, -, -, -, -, -, -, active⟩ := refreshRequest_ok.mp accepted
      obtain ⟨text, required, -⟩ := getActiveUser_ok.mp active
      simp only [if_true, Method.run_bind, markUsed, Method.run_update,
        run_issueAccessToken_grant required]
      exact .rotated rotation accepted required rfl
    | false =>
      simp only [Bool.false_eq_true, if_false, Method.run_bind, run_issueAccessToken_alone,
        Method.run_update, Method.run_pure]
      have same : ∀ t : AccessToken, { s.withAccess t with
          accessTokens := (s.withAccess t).accessTokens.set t.token
            { t with refreshToken := some old.token } } =
          s.withAccess { t with refreshToken := some old.token } := by
        intro t
        simp [withAccess]
      rw [show _ = _ from same _]
      exact .reissued rotation accepted rfl

theorem outcome_revokeToken {token : String} :
    Outcome env s now (.revokeToken token) ((perform env now (.revokeToken token)).run s).2
      ((perform env now (.revokeToken token)).run s).1 := by
  simp only [perform, revokeToken, Method.run_map, Method.run_bind, Method.run_read]
  cases found : s.accessTokens.get? token with
  | some t => exact .accessRevoked found
  | none =>
    cases found' : s.refreshTokens.get? token with
    | some t => exact .refreshRevoked found found'
    | none => exact .notRevoked found found'

theorem step_outcome (env : Env) (s : OAuth2Provider) (i : Input) :
    Outcome env s i.now i.call (step env s i).1 (step env s i).2 := by
  obtain ⟨now, call⟩ := i
  show Outcome env s now call ((perform env now call).run s).2 ((perform env now call).run s).1
  cases call with
  | registerClient clientId clientSecret redirectUris scopes grantTypes isConfidential =>
    simp only [perform, registerClient, Method.run_map, Method.run_bind, Method.run_check]
    cases accepted : clientRecord now clientId clientSecret redirectUris scopes grantTypes
      isConfidential with
    | error e => exact .raised _ e (by rw [checks, accepted]; rfl)
    | ok client => exact .clientRegistered accepted
  | registerUser userId username email mfaEnabled =>
    simp only [perform, registerUser, Method.run_map, Method.run_bind, Method.run_check]
    cases accepted : userRecord now userId username email mfaEnabled with
    | error e => exact .raised _ e (by rw [checks, accepted]; rfl)
    | ok user => exact .userRegistered accepted
  | setActive userId active =>
    simp only [perform, setActive, Method.run_map, Method.run_update]
    split
    · exact @Outcome.activitySet _ _ _ _ _ s.users
    · exact .activitySet
  | generateAuthorizationCode => exact outcome_generateAuthorizationCode
  | validateAuthorizationCode code clientId redirectUri verifier =>
    simp only [perform, validateAuthorizationCode, Method.run_map, Method.run_bind, Method.run_read,
      Method.run_check]
    cases accepted : s.authorizationGrant env now code clientId redirectUri verifier with
    | error e => exact .raised _ e (by rw [checks, accepted]; rfl)
    | ok grant => exact .codeAccepted accepted
  | generateAccessToken => exact outcome_generateAccessToken
  | validateAccessToken token requiredScopes =>
    simp only [perform, Method.run_map, Method.run_bind, Method.run_read, Method.run_check]
    cases accepted : s.validateAccessToken now token requiredScopes with
    | error e => exact .raised _ e (by rw [checks, accepted]; rfl)
    | ok t => exact .answered _ _ rfl (by rw [checks, accepted]; rfl)
  | refreshAccessToken => exact outcome_refreshAccessToken
  | revokeToken => exact outcome_revokeToken
  | introspectToken token => exact .answered _ _ rfl rfl
  | generateJwtIdToken userId clientId scopes =>
    simp only [perform, Method.run_map, Method.run_bind, Method.run_read, Method.run_check]
    cases accepted : s.generateJwtIdToken env now userId clientId scopes with
    | error e => exact .raised _ e (by rw [checks, accepted]; rfl)
    | ok t => exact .answered _ _ rfl (by rw [checks, accepted]; rfl)
  | cleanupExpiredTokens => exact .cleaned

/-- A call raises exactly when its checks do. -/
theorem raises_iff {i : Input} :
    (∃ error, (step env s i).2 = .error error) ↔ s.checks env i.now i.call ≠ .ok () := by
  have outcome := step_outcome env s i
  obtain ⟨now, call⟩ := i
  generalize (step env s ⟨now, call⟩).1 = post at outcome
  generalize (step env s ⟨now, call⟩).2 = reply at outcome ⊢
  cases outcome with
  | raised _ error refused => simp [refused]
  | answered _ _ _ accepted => simp [accepted]
  | clientRegistered accepted | userRegistered accepted | codeIssued accepted
  | codeAccepted accepted | tokenIssued accepted | grantIssued accepted | rotated _ accepted
  | reissued _ accepted => simp [checks, accepted]
  | _ => simp [checks]

theorem raised_unchanged {i : Input} {e : OAuthError} (h : (step env s i).2 = .error e) :
    (step env s i).1 = s := by
  have outcome := step_outcome env s i
  rw [h] at outcome
  obtain ⟨now, call⟩ := i
  generalize (step env s ⟨now, call⟩).1 = post at outcome ⊢
  cases outcome
  rfl

/-! ### Random strings -/

def Drawn (env : Env) (s : OAuth2Provider) (text : String) : Prop :=
  ∃ k < s.drawn, env.tokenUrlsafe k = text

theorem outcome_drawn {call : Call} {post : OAuth2Provider} {reply : Except OAuthError Reply}
    (outcome : Outcome env s now call post reply) : s.drawn ≤ post.drawn := by
  cases outcome <;> simp [withCode, withAccess, withGrant, withUsed, OAuth2Provider.cleaned]

theorem drawn_mono {post : OAuth2Provider} {text : String} (le : s.drawn ≤ post.drawn)
    (h : Drawn env s text) : Drawn env post text := by
  obtain ⟨k, lt, rfl⟩ := h
  exact ⟨k, by omega, rfl⟩

theorem drawn_step (env : Env) (i : Input) {text : String} (seen : Drawn env s text) :
    Drawn env (step env s i).1 text :=
  drawn_mono (outcome_drawn (step_outcome env s i)) seen

theorem not_drawn (fresh : Function.Injective env.tokenUrlsafe) {n : Nat} (le : s.drawn ≤ n) :
    ¬Drawn env s (env.tokenUrlsafe n) := by
  rintro ⟨k, lt, same⟩
  have := fresh same
  omega

abbrev Event := Machine.Entry OAuth2Provider Input (Except OAuthError Reply)

end OAuth2Provider

/-! ### A provider to run -/

/-- The strings `t`, `ta`, `taa`, … are drawn. -/
def sampleEnv : Env :=
  { tokenUrlsafe n := String.ofList ('t' :: List.replicate n 'a')
    sha256 bytes := bytes
    jwtEncode payload := payload.sub }

theorem sampleEnv_fresh : Function.Injective sampleEnv.tokenUrlsafe := by
  intro m n same
  have chars := String.ofList_injective same
  simpa using congrArg List.length chars

def sampleConfig : Config :=
  ⟨"https://issuer", 3600, 86400, true, true, by decide, by decide⟩

end BtApiSecurity.OAuth
