import BtApiSecurity.OAuth.Tables

/-!
# Cleanup

`cleanup_expired_tokens` removes entries that no later call accepts. A run that
goes on from the thinned tables answers as one that goes on from the full ones.
-/

namespace BtApiSecurity.OAuth.OAuth2Provider
open Py Machine Method

variable {env : Env} {s s' : OAuth2Provider} {since now : Time}

/-! ### Validity in time -/

theorem codeValid_before (later : since ≤ now) {c : AuthorizationCode} (valid : c.isValid now = true) :
    c.isValid since = true := by
  simp only [AuthorizationCode.isValid, AuthorizationCode.isExpired, Bool.and_eq_true,
    Bool.not_eq_true', decide_eq_false_iff_not, not_lt] at valid ⊢
  exact ⟨valid.1, later.trans valid.2⟩

theorem accessValid_before (later : since ≤ now) {t : AccessToken} (valid : t.isValid now = true) :
    t.isValid since = true := by
  simp only [AccessToken.isValid, AccessToken.isExpired, Bool.not_eq_true',
    decide_eq_false_iff_not, not_lt] at valid ⊢
  exact later.trans valid

theorem refreshValid_before (later : since ≤ now) {t : RefreshToken} (valid : t.isValid now = true) :
    t.isValid since = true := by
  simp only [RefreshToken.isValid, RefreshToken.isExpired, Bool.and_eq_true, Bool.not_eq_true',
    decide_eq_false_iff_not, not_lt] at valid ⊢
  exact ⟨valid.1, later.trans valid.2⟩

/-! ### Thinned providers -/

/-- `s'` is `s` without some of the entries that are dead at `since`. -/
structure Thinner (since : Time) (s s' : OAuth2Provider) : Prop where
  config : s'.config = s.config
  clients : s'.clients = s.clients
  users : s'.users = s.users
  drawn : s'.drawn = s.drawn
  codes : Dict.Thinned (fun c => AuthorizationCode.isValid c since = true) s.authCodes s'.authCodes
  access : Dict.Thinned (fun t => AccessToken.isValid t since = true) s.accessTokens s'.accessTokens
  refresh : Dict.Thinned (fun t => RefreshToken.isValid t since = true) s.refreshTokens
    s'.refreshTokens

theorem thinner_cleaned (s : OAuth2Provider) (now : Time) : Thinner now s (s.cleaned now) := by
  refine ⟨rfl, rfl, rfl, rfl, ?_, ?_, ?_⟩
  · exact Dict.thinned_filter _ fun _ valid => valid
  · exact Dict.thinned_filter _ fun _ valid => valid
  · exact Dict.thinned_filter _ fun _ valid => valid

theorem Thinner.cleaned (h : Thinner since s s') (now : Time) :
    Thinner since (s.cleaned now) (s'.cleaned now) :=
  ⟨h.config, h.clients, h.users, h.drawn, h.codes.filter _, h.access.filter _, h.refresh.filter _⟩

/-! ### Checks -/

section Checks

variable (h : Thinner since s s')
include h

theorem authorizationRequest_thinner {clientId userId redirectUri : Arg String}
    {scopes : Items (Arg String)} {challenge method : Option String} :
    s'.authorizationRequest now clientId userId redirectUri scopes challenge method =
      s.authorizationRequest now clientId userId redirectUri scopes challenge method := by
  simp only [authorizationRequest, h.config, h.clients, h.users]

theorem tokenRequest_thinner {clientId : Arg String} {userId : Option String}
    {scopes : Items (Arg String)} {grantType : GrantType} :
    s'.tokenRequest clientId userId scopes grantType =
      s.tokenRequest clientId userId scopes grantType := by
  simp only [tokenRequest, h.clients]

theorem generateJwtIdToken_thinner {userId clientId : Arg String} {scopes : Items (Arg String)} :
    s'.generateJwtIdToken env now userId clientId scopes =
      s.generateJwtIdToken env now userId clientId scopes := by
  simp only [generateJwtIdToken, getActiveUser, h.config, h.clients, h.users]

theorem authorizationGrant_thinner (later : since ≤ now) {code clientId redirectUri : Arg String}
    {verifier : Option (Arg String)} (grant : String × AuthorizationCode) :
    s.authorizationGrant env now code clientId redirectUri verifier = .ok grant ↔
      s'.authorizationGrant env now code clientId redirectUri verifier = .ok grant := by
  obtain ⟨text, c⟩ := grant
  rw [authorizationGrant_ok, authorizationGrant_ok]
  have same : c.isValid now = true →
      (s'.authCodes.get? text = some c ↔ s.authCodes.get? text = some c) :=
    fun valid => h.codes.get?_iff (codeValid_before later valid)
  constructor
  · rintro ⟨id, uri, given, u, code_ok, client_ok, uri_ok, verifier_ok, found, valid, rest⟩
    exact ⟨id, uri, given, u, code_ok, client_ok, uri_ok, verifier_ok, (same valid).mpr found, valid,
      rest⟩
  · rintro ⟨id, uri, given, u, code_ok, client_ok, uri_ok, verifier_ok, found, valid, rest⟩
    exact ⟨id, uri, given, u, code_ok, client_ok, uri_ok, verifier_ok, (same valid).mp found, valid,
      rest⟩

theorem refreshRequest_thinner (later : since ≤ now) {refreshToken : String} {clientId : Arg String}
    (t : RefreshToken) :
    s.refreshRequest now refreshToken clientId = .ok t ↔
      s'.refreshRequest now refreshToken clientId = .ok t := by
  have users : s'.getActiveUser = s.getActiveUser := by
    funext userId
    simp only [getActiveUser, h.users]
  have same : t.isValid now = true →
      (s'.refreshTokens.get? refreshToken = some t ↔ s.refreshTokens.get? refreshToken = some t) :=
    fun valid => h.refresh.get?_iff (refreshValid_before later valid)
  rw [refreshRequest_ok, refreshRequest_ok, users, h.clients]
  constructor
  · rintro ⟨id, client, user, required, found, valid, rest⟩
    exact ⟨id, client, user, required, (same valid).mpr found, valid, rest⟩
  · rintro ⟨id, client, user, required, found, valid, rest⟩
    exact ⟨id, client, user, required, (same valid).mp found, valid, rest⟩

theorem validateAccessToken_thinner (later : since ≤ now) {token : Arg String}
    {required : Items (Arg String)} (t : AccessToken) :
    s.validateAccessToken now token required = .ok t ↔
      s'.validateAccessToken now token required = .ok t := by
  rw [validateAccessToken_ok, validateAccessToken_ok]
  have same : ∀ text, t.isValid now = true →
      (s'.accessTokens.get? text = some t ↔ s.accessTokens.get? text = some t) :=
    fun text valid => h.access.get?_iff (accessValid_before later valid)
  constructor
  · rintro ⟨text, scopes, text_ok, scopes_ok, found, valid, sufficient⟩
    exact ⟨text, scopes, text_ok, scopes_ok, (same text valid).mpr found, valid, sufficient⟩
  · rintro ⟨text, scopes, text_ok, scopes_ok, found, valid, sufficient⟩
    exact ⟨text, scopes, text_ok, scopes_ok, (same text valid).mp found, valid, sufficient⟩

end Checks

/-! ### Methods -/

theorem drawToken_agrees (h : Thinner since s s') :
    (drawToken env).Agrees (drawToken env) s s' (Thinner since) := by
  unfold drawToken
  apply agrees_read
  rw [h.drawn]
  refine (agrees_update ?_).bind fun _ t t' next => agrees_pure _ next
  exact ⟨h.config, h.clients, h.users, congrArg (· + 1) h.drawn, h.codes, h.access, h.refresh⟩

theorem generateRefreshToken_agrees (h : Thinner since s s') {clientId userId : String}
    {scopes : Finset String} :
    (generateRefreshToken env now clientId userId scopes).Agrees
      (generateRefreshToken env now clientId userId scopes) s s' (Thinner since) := by
  unfold generateRefreshToken
  apply agrees_read
  rw [h.config]
  refine (drawToken_agrees h).bind fun token t t' h => ?_
  refine (agrees_check h fun _ => Iff.rfl).bind fun user t t' h => ?_
  refine (agrees_update ?_).bind fun _ t t' next => agrees_pure _ next
  exact ⟨h.config, h.clients, h.users, h.drawn, h.codes, h.access, h.refresh.set _ _⟩

theorem linkedRefreshToken_agrees (h : Thinner since s s') {clientId : String}
    {userId : Option String} {scopes : Finset String} {issue : Bool} :
    (linkedRefreshToken env now clientId userId scopes issue).Agrees
      (linkedRefreshToken env now clientId userId scopes issue) s s' (Thinner since) := by
  unfold linkedRefreshToken
  split
  · refine (agrees_check h fun _ => Iff.rfl).bind fun user t t' h => ?_
    exact (generateRefreshToken_agrees h).bind fun _ t t' next => agrees_pure _ next
  · exact agrees_pure _ h

theorem issueAccessToken_agrees (h : Thinner since s s') {clientId : String}
    {userId : Option String} {scopes : Finset String} {issue : Bool} :
    (issueAccessToken env now clientId userId scopes issue).Agrees
      (issueAccessToken env now clientId userId scopes issue) s s' (Thinner since) := by
  unfold issueAccessToken
  apply agrees_read
  rw [h.config]
  refine (drawToken_agrees h).bind fun token t t' h => ?_
  refine (linkedRefreshToken_agrees h).bind fun refreshToken t t' h => ?_
  refine (agrees_update ?_).bind fun _ t t' next => agrees_pure _ next
  exact ⟨h.config, h.clients, h.users, h.drawn, h.codes, h.access.set _ _, h.refresh⟩

theorem registerClient_agrees (h : Thinner since s s') {clientId clientSecret : Arg String}
    {redirectUris scopes : Items (Arg String)} {grantTypes : Items GrantArg}
    {isConfidential : Arg Bool} :
    (registerClient now clientId clientSecret redirectUris scopes grantTypes isConfidential).Agrees
      (registerClient now clientId clientSecret redirectUris scopes grantTypes isConfidential) s s'
      (Thinner since) := by
  unfold registerClient
  refine (agrees_check h fun _ => Iff.rfl).bind fun client t t' h => ?_
  refine (agrees_update ?_).bind fun _ t t' next => agrees_pure _ next
  exact ⟨h.config, by rw [h.clients], h.users, h.drawn, h.codes, h.access, h.refresh⟩

theorem registerUser_agrees (h : Thinner since s s') {userId username email : Arg String}
    {mfaEnabled : Arg Bool} :
    (registerUser now userId username email mfaEnabled).Agrees
      (registerUser now userId username email mfaEnabled) s s' (Thinner since) := by
  unfold registerUser
  refine (agrees_check h fun _ => Iff.rfl).bind fun user t t' h => ?_
  refine (agrees_update ?_).bind fun _ t t' next => agrees_pure _ next
  exact ⟨h.config, h.clients, by rw [h.users], h.drawn, h.codes, h.access, h.refresh⟩

theorem setActive_agrees (h : Thinner since s s') {userId : String} {active : Bool} :
    (setActive userId active).Agrees (setActive userId active) s s' (Thinner since) := by
  apply agrees_update
  rw [h.users]
  split
  · exact h
  · exact ⟨h.config, h.clients, rfl, h.drawn, h.codes, h.access, h.refresh⟩

theorem generateAuthorizationCode_agrees (h : Thinner since s s')
    {clientId userId redirectUri : Arg String} {scopes : Items (Arg String)}
    {challenge method : Option String} :
    (generateAuthorizationCode env now clientId userId redirectUri scopes challenge method).Agrees
      (generateAuthorizationCode env now clientId userId redirectUri scopes challenge method) s s'
      (Thinner since) := by
  unfold generateAuthorizationCode
  apply agrees_read
  rw [authorizationRequest_thinner h]
  refine (agrees_check h fun _ => Iff.rfl).bind fun authCode t t' h => ?_
  refine (drawToken_agrees h).bind fun code t t' h => ?_
  refine (agrees_update ?_).bind fun _ t t' next => agrees_pure _ next
  exact ⟨h.config, h.clients, h.users, h.drawn, h.codes.set _ _, h.access, h.refresh⟩

theorem validateAuthorizationCode_agrees (h : Thinner since s s') (later : since ≤ now)
    {code clientId redirectUri : Arg String} {verifier : Option (Arg String)} :
    (validateAuthorizationCode env now code clientId redirectUri verifier).Agrees
      (validateAuthorizationCode env now code clientId redirectUri verifier) s s'
      (Thinner since) := by
  unfold validateAuthorizationCode
  apply agrees_read
  refine (agrees_check h (authorizationGrant_thinner h later)).bind fun grant t t' h => ?_
  refine (agrees_update ?_).bind fun _ t t' next => agrees_pure _ next
  exact ⟨h.config, h.clients, h.users, h.drawn, h.codes.set _ _, h.access, h.refresh⟩

theorem generateAccessToken_agrees (h : Thinner since s s') {clientId : Arg String}
    {userId : Option String} {scopes : Items (Arg String)} {grantType : GrantType} :
    (generateAccessToken env now clientId userId scopes grantType).Agrees
      (generateAccessToken env now clientId userId scopes grantType) s s' (Thinner since) := by
  unfold generateAccessToken
  apply agrees_read
  rw [tokenRequest_thinner h]
  exact (agrees_check h fun _ => Iff.rfl).bind fun request t t' h => issueAccessToken_agrees h

theorem markUsed_agrees (h : Thinner since s s') {token : String} {old : RefreshToken} :
    (markUsed token old).Agrees (markUsed token old) s s' (Thinner since) := by
  apply agrees_update
  exact ⟨h.config, h.clients, h.users, h.drawn, h.codes, h.access, h.refresh.set _ _⟩

theorem refreshAccessToken_agrees (h : Thinner since s s') (later : since ≤ now)
    {refreshToken : String} {clientId : Arg String} :
    (refreshAccessToken env now refreshToken clientId).Agrees
      (refreshAccessToken env now refreshToken clientId) s s' (Thinner since) := by
  unfold refreshAccessToken
  apply agrees_read
  rw [h.config]
  refine (agrees_check h (refreshRequest_thinner h later)).bind fun old t t' h => ?_
  split
  · exact (markUsed_agrees h).bind fun _ t t' h => issueAccessToken_agrees h
  · refine (issueAccessToken_agrees h).bind fun access t t' h => ?_
    refine (agrees_update ?_).bind fun _ t t' next => agrees_pure _ next
    exact ⟨h.config, h.clients, h.users, h.drawn, h.codes, h.access.set _ _, h.refresh⟩

theorem refresh_absent (inv : Apart env s) (h : Thinner since s s') {token : String}
    {t : AccessToken} (found : s.accessTokens.get? token = some t) :
    s'.refreshTokens.get? token = none := by
  cases stored : s'.refreshTokens.get? token with
  | none => rfl
  | some r =>
    have none := inv.apart token r (h.refresh.get?_some stored)
    rw [found] at none
    cases none

theorem revokeToken_thinner (inv : Apart env s) (h : Thinner since s s') (token : String) :
    Thinner since ((revokeToken token).run s).2 ((revokeToken token).run s').2 := by
  unfold revokeToken
  simp only [run_bind, run_read]
  cases found : s.accessTokens.get? token with
  | some t =>
    cases found' : s'.accessTokens.get? token with
    | some t' =>
      exact ⟨h.config, h.clients, h.users, h.drawn, h.codes, h.access.erase token, h.refresh⟩
    | none =>
      -- the full table still holds an expired access token
      rw [refresh_absent inv h found]
      exact ⟨h.config, h.clients, h.users, h.drawn, h.codes, h.access.erase_absent found', h.refresh⟩
  | none =>
    have absent : s'.accessTokens.get? token = none := by
      cases stored : s'.accessTokens.get? token with
      | none => rfl
      | some t => cases found.symm.trans (h.access.get?_some stored)
    rw [absent]
    rcases h.refresh token with same | ⟨gone, r, stored, dead⟩
    · rw [same]
      cases stored : s.refreshTokens.get? token with
      | none => exact h
      | some r =>
        exact ⟨h.config, h.clients, h.users, h.drawn, h.codes, h.access, h.refresh.set _ _⟩
    · rw [gone, stored]
      refine ⟨h.config, h.clients, h.users, h.drawn, h.codes, h.access, ?_⟩
      apply h.refresh.set_dead gone
      simp [RefreshToken.isValid]

theorem introspectToken_thinner (inv : Apart env s) (h : Thinner since s s') (later : since ≤ now)
    (token : String) :
    (s.introspectToken now token).active = (s'.introspectToken now token).active := by
  unfold introspectToken
  rcases h.access token with same | ⟨gone, t, stored, dead⟩
  · rw [same]
    cases s.accessTokens.get? token with
    | some t => rfl
    | none =>
      rcases h.refresh token with same | ⟨gone, r, stored, dead⟩
      · rw [same]
      · rw [gone, stored]
        have expired : r.isValid now = false :=
          Bool.eq_false_iff.mpr fun valid => dead (refreshValid_before later valid)
        exact expired
  · rw [gone, stored, refresh_absent inv h stored]
    have expired : t.isValid now = false :=
      Bool.eq_false_iff.mpr fun valid => dead (accessValid_before later valid)
    exact expired

/-! ### Runs -/

def reportsActive : Except OAuthError Reply → Option Bool
  | .ok (.introspection i) => some i.active
  | _ => none

/-- What a run after a cleanup shows of one call: the value it returns or that it raises; of
`introspect_token` the `active` flag; of `revoke_token` and of another cleanup nothing. -/
def SameAnswer (i : Input) (reply reply' : Except OAuthError Reply) : Prop :=
  match i.call with
  | .revokeToken _ | .cleanupExpiredTokens => True
  | .introspectToken _ => reportsActive reply = reportsActive reply'
  | _ => ∀ r, reply = .ok r ↔ reply' = .ok r

theorem step_thinner (inv : Apart env s) (h : Thinner since s s') (i : Input)
    (later : since ≤ i.now) :
    Thinner since (step env s i).1 (step env s' i).1 ∧
      SameAnswer i (step env s i).2 (step env s' i).2 := by
  obtain ⟨now, call⟩ := i
  have of_agrees : (perform env now call).Agrees (perform env now call) s s' (Thinner since) →
      Thinner since (step env s ⟨now, call⟩).1 (step env s' ⟨now, call⟩).1 ∧
        ∀ r, (step env s ⟨now, call⟩).2 = .ok r ↔ (step env s' ⟨now, call⟩).2 = .ok r :=
    fun agrees => ⟨agrees.state, agrees.value⟩
  cases call with
  | registerClient => exact of_agrees ((registerClient_agrees h).map _)
  | registerUser => exact of_agrees ((registerUser_agrees h).map _)
  | setActive => exact of_agrees ((setActive_agrees h).map _)
  | generateAuthorizationCode => exact of_agrees ((generateAuthorizationCode_agrees h).map _)
  | validateAuthorizationCode => exact of_agrees ((validateAuthorizationCode_agrees h later).map _)
  | generateAccessToken => exact of_agrees ((generateAccessToken_agrees h).map _)
  | validateAccessToken =>
    apply of_agrees
    apply agrees_read
    exact (agrees_check h (validateAccessToken_thinner h later)).map _
  | refreshAccessToken => exact of_agrees ((refreshAccessToken_agrees h later).map _)
  | revokeToken token =>
    refine ⟨?_, trivial⟩
    show Thinner since ((Reply.revoked <$> revokeToken token).run s).2
      ((Reply.revoked <$> revokeToken token).run s').2
    rw [run_map_snd, run_map_snd]
    exact revokeToken_thinner inv h token
  | introspectToken token =>
    exact ⟨h, congrArg some (introspectToken_thinner inv h later token)⟩
  | generateJwtIdToken =>
    apply of_agrees
    apply agrees_read
    rw [generateJwtIdToken_thinner h]
    exact (agrees_check h fun _ => Iff.rfl).map _
  | cleanupExpiredTokens => exact ⟨h.cleaned now, trivial⟩

theorem step_cleanup (env : Env) (s : OAuth2Provider) (now : Time) :
    step env s ⟨now, .cleanupExpiredTokens⟩ =
      (s.cleaned now, .ok (.counts ⟨removed s.authCodes (·.isValid now),
        removed s.accessTokens (!·.isExpired now), removed s.refreshTokens (·.isValid now)⟩)) := rfl

theorem removed_filter {α : Type} (d : Dict String α) (keep : α → Bool) :
    removed (d.filter fun _ x => keep x) keep = 0 := by
  simp [removed, Dict.filter]

/-- Cleanup cannot be observed: later calls answer as without it; and a second cleanup at the
same time removes nothing. -/
theorem cleanup_unobservable (fresh : Function.Injective env.tokenUrlsafe) (config : Config)
    (before after : List Input) (now : Time) (later : ∀ i ∈ after, now ≤ i.now) :
    let s := run (step env) (new config) before
    let s' := (step env s ⟨now, .cleanupExpiredTokens⟩).1
    List.Forall₂ (fun e e' => e.input = e'.input ∧ SameAnswer e.input e.output e'.output)
      (trace (step env) s after) (trace (step env) s' after) ∧
    step env s' ⟨now, .cleanupExpiredTokens⟩ = (s', .ok (.counts ⟨0, 0, 0⟩)) := by
  refine ⟨?_, ?_⟩
  · refine traces_related (fun s s' => Apart env s ∧ Thinner now s s') ?_ ?_ later
    · rintro s s' i ⟨inv, h⟩ later
      obtain ⟨next, answers⟩ := step_thinner inv h i later
      exact ⟨⟨apart_step fresh i inv, next⟩, answers⟩
    · exact ⟨apart_run fresh config before, thinner_cleaned _ now⟩
  · simp only [step_cleanup, OAuth2Provider.cleaned, removed_filter, Dict.filter_filter]

/-- A redeemed code, and an access token that has expired by the time of the cleanup. -/
def agedRun : List Input :=
  [⟨0, .registerClient (.ok "app") (.ok "secret") (.items [.ok "https://app"])
      (.items [.ok "read"]) (.items [.member .authorizationCode]) (.ok true)⟩,
    ⟨0, .registerUser (.ok "ann") (.ok "Ann") (.ok "ann@example.org") (.ok false)⟩,
    ⟨1, .generateAuthorizationCode (.ok "app") (.ok "ann") (.ok "https://app")
      (.items [.ok "read"]) none none⟩,
    ⟨2, .validateAuthorizationCode (.ok "t") (.ok "app") (.ok "https://app") none⟩,
    ⟨3, .generateAccessToken (.ok "app") (some "ann") (.items [.ok "read"]) .authorizationCode⟩]

def laterCalls : List Input :=
  [⟨4000, .validateAccessToken (.ok "ta") .absent⟩,
    ⟨4001, .introspectToken "ta"⟩,
    ⟨4002, .validateAuthorizationCode (.ok "t") (.ok "app") (.ok "https://app") none⟩,
    ⟨4003, .refreshAccessToken "taa" (.ok "app")⟩,
    ⟨4003, .validateAccessToken (.ok "taaa") .absent⟩]

theorem agedRun_unobserved :
    let s := run (step sampleEnv) (new sampleConfig) agedRun
    let s' := (step sampleEnv s ⟨4000, .cleanupExpiredTokens⟩).1
    (s.authCodes.get? "t").isSome = true ∧ (s.accessTokens.get? "ta").isSome = true ∧
    s'.authCodes.get? "t" = none ∧ s'.accessTokens.get? "ta" = none ∧
    List.Forall₂ (fun e e' => e.input = e'.input ∧ SameAnswer e.input e.output e'.output)
      (trace (step sampleEnv) s laterCalls) (trace (step sampleEnv) s' laterCalls) := by
  refine ⟨by decide +kernel, by decide +kernel, by decide +kernel, by decide +kernel, ?_⟩
  exact (cleanup_unobservable sampleEnv_fresh sampleConfig agedRun laterCalls 4000
    (by decide +kernel)).1

end BtApiSecurity.OAuth.OAuth2Provider
