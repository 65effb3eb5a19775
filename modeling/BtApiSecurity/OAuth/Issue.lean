import BtApiSecurity.OAuth.Tables

/-!
# What may be issued

Scopes of issued codes and tokens against their client, and issue for users that
are inactive.
-/

namespace BtApiSecurity.OAuth.OAuth2Provider
open Py Machine

variable {env : Env} {s : OAuth2Provider}

/-! ### Scopes -/

def issuedGrants (e : Event) : List (String × Finset String) :=
  match e.input.call, e.output with
  | .generateAuthorizationCode .., .ok (.code code) =>
    (e.post.authCodes.get? code).toList.map fun c => (c.clientId, c.scopes)
  | .generateAccessToken .., .ok (.accessToken t)
  | .refreshAccessToken .., .ok (.accessToken t) =>
    (t.clientId, t.scopes) ::
      (t.refreshToken.bind e.post.refreshTokens.get?).toList.map fun r => (r.clientId, r.scopes)
  | _, _ => []

/-- Each has scopes that its client is registered for at that moment. -/
def IssuedWithinScopes (e : Event) : Prop :=
  ∀ g ∈ issuedGrants e, ∃ client ∈ e.post.clients.get? g.1, g.2 ⊆ client.scopes

instance (e : Event) : Decidable (IssuedWithinScopes e) :=
  inferInstanceAs (Decidable (∀ g ∈ issuedGrants e, _))

/-- A refresh that passes its checks redeems a token whose scopes its client still has. -/
def RedeemsWithinScopes (e : Event) : Prop :=
  ∀ token clientId t client, e.input.call = .refreshAccessToken token clientId →
    e.pre.refreshRequest e.input.now token clientId = .ok t →
    e.pre.clients.get? t.clientId = some client → validateClientScopes client t.scopes = .ok ()

def TokenKeys (s : OAuth2Provider) : Prop :=
  ∀ token t, s.refreshTokens.get? token = some t → t.token = token

theorem tokenKeys_step (i : Input) (keys : TokenKeys s) : TokenKeys (step env s i).1 := by
  intro token t found
  rcases refresh_stored found with before | ⟨-, -, same, -⟩ | ⟨old, before, rfl⟩
  · exact keys token t before
  · exact same
  · exact keys token old before

theorem redeemsWithinScopes_iff {now : Time} {token : String} {clientId : Arg String}
    {old : RefreshToken} {client : OAuthClient} {reply : Except OAuthError Reply}
    {post : OAuth2Provider} (accepted : s.refreshRequest now token clientId = .ok old)
    (known : s.clients.get? old.clientId = some client) :
    RedeemsWithinScopes ⟨s, ⟨now, .refreshAccessToken token clientId⟩, reply, post⟩ ↔
      old.scopes ⊆ client.scopes := by
  rw [← validateClientScopes_ok (u := ())]
  constructor
  · intro within
    exact within token clientId old client rfl accepted known
  · rintro sub _ _ t client' call accepted' known'
    cases call
    obtain rfl := Except.ok.inj (accepted.symm.trans accepted')
    obtain rfl := Option.some.inj (known.symm.trans known')
    exact sub

theorem issuedWithinScopes_iff (keys : TokenKeys s) (i : Input) :
    IssuedWithinScopes (entry (step env) s i) ↔ RedeemsWithinScopes (entry (step env) s i) := by
  have outcome := step_outcome env s i
  obtain ⟨now, call⟩ := i
  unfold entry
  generalize (step env s ⟨now, call⟩).1 = post at outcome ⊢
  generalize (step env s ⟨now, call⟩).2 = reply at outcome ⊢
  cases outcome with
  | raised _ error refused =>
    apply iff_of_true (by cases call <;> simp [IssuedWithinScopes, issuedGrants])
    rintro token clientId t client rfl accepted
    simp only [checks] at refused
    rw [accepted] at refused
    cases refused
  | answered _ _ reads =>
    cases call <;> first
      | simp [IssuedWithinScopes, issuedGrants, RedeemsWithinScopes]; done
      | cases reads
  | codeIssued accepted =>
    obtain ⟨id, _, _, granted, client, _, -, -, -, -, known, -, -, -, sub, -, rfl⟩ :=
      authorizationRequest_ok accepted
    refine iff_of_true ?_ (by simp [RedeemsWithinScopes])
    simp [IssuedWithinScopes, issuedGrants, withCode, known, sub]
  | tokenIssued accepted =>
    obtain ⟨client, -, -, known, -, sub, -⟩ := tokenRequest_ok accepted
    refine iff_of_true ?_ (by simp [RedeemsWithinScopes])
    simp [IssuedWithinScopes, issuedGrants, withAccess, newAccessToken, known, sub]
  | grantIssued accepted _ _ token =>
    obtain ⟨client, -, -, known, -, sub, -⟩ := tokenRequest_ok accepted
    refine iff_of_true ?_ (by simp [RedeemsWithinScopes])
    simp [IssuedWithinScopes, issuedGrants, withGrant, token, newAccessToken, newRefreshToken, known,
      sub]
  | @rotated _ _ old _ _ _ accepted _ token =>
    obtain ⟨id, client, _, -, -, -, same, known, -⟩ := refreshRequest_ok.mp accepted
    rw [← same] at known
    rw [redeemsWithinScopes_iff accepted known]
    simp [IssuedWithinScopes, issuedGrants, withGrant, withUsed, token, newAccessToken,
      newRefreshToken, known]
  | @reissued _ _ old _ _ accepted token =>
    obtain ⟨id, client, _, -, present, -, same, known, -⟩ := refreshRequest_ok.mp accepted
    rw [← same] at known
    rw [redeemsWithinScopes_iff accepted known]
    simp [IssuedWithinScopes, issuedGrants, withAccess, token, newAccessToken, known,
      keys _ _ present, present]
  | _ => simp [IssuedWithinScopes, issuedGrants, RedeemsWithinScopes]

/-- Everything that a run issues is within the scopes of its client exactly when every
refresh of the run redeems a token that still is. -/
theorem run_issues_within_scopes_iff (env : Env) (config : Config) (is : List Input) :
    (∀ e ∈ trace (step env) (new config) is, IssuedWithinScopes e) ↔
      ∀ e ∈ trace (step env) (new config) is, RedeemsWithinScopes e := by
  apply forall₂_congr
  intro e mem
  have keys : TokenKeys e.pre :=
    pre_invariant (by simp [TokenKeys, new]) (fun _ i => tokenKeys_step i) mem
  rw [entry_of_mem mem]
  exact issuedWithinScopes_iff keys e.input

/-- The client loses a scope between the issue of a refresh token and its use. -/
def narrowedRun : List Input :=
  [⟨0, .registerClient (.ok "app") (.ok "secret") (.items [.ok "https://app"])
      (.items [.ok "read", .ok "write"]) (.items [.member .authorizationCode]) (.ok true)⟩,
    ⟨0, .registerUser (.ok "ann") (.ok "Ann") (.ok "ann@example.org") (.ok false)⟩,
    ⟨1, .generateAccessToken (.ok "app") (some "ann") (.items [.ok "read", .ok "write"])
      .authorizationCode⟩,
    ⟨2, .registerClient (.ok "app") (.ok "secret") (.items [.ok "https://app"])
      (.items [.ok "read"]) (.items [.member .authorizationCode]) (.ok true)⟩,
    ⟨3, .refreshAccessToken "ta" (.ok "app")⟩]

theorem narrowedRun_exceeds_scopes :
    ¬∀ e ∈ trace (step sampleEnv) (new sampleConfig) narrowedRun, IssuedWithinScopes e := by
  decide +kernel

/-! ### Inactive users -/

def CallFor (s : OAuth2Provider) (u : String) : Call → Prop
  | .generateAuthorizationCode _ userId .. => requireText "user_id" userId = .ok u
  | .generateAccessToken _ userId .. =>
    ∃ given, userId = some given ∧ requireText "user_id" (.ok given) = .ok u
  | .refreshAccessToken token _ => ∃ t, s.refreshTokens.get? token = some t ∧ t.userId = u
  | .generateJwtIdToken userId .. => requireText "user_id" userId = .ok u
  | _ => False

/-- The call raises, and no code or token that names `u` is stored by it. -/
def RefusedFor (env : Env) (s : OAuth2Provider) (u : String) (i : Input) : Prop :=
  let post := (step env s i).1
  (∃ error, (step env s i).2 = .error error) ∧
  (∀ code c, post.authCodes.get? code = some c → c.userId = u → s.authCodes.get? code = some c) ∧
  (∀ token t, post.accessTokens.get? token = some t → t.userId = some u →
    s.accessTokens.get? token = some t) ∧
  ∀ token t, post.refreshTokens.get? token = some t → t.userId = u →
    s.refreshTokens.get? token = some t

/-- A `generate_access_token` call whose client may use the grant and the scopes. -/
def UncheckedGrant (s : OAuth2Provider) (call : Call) : Prop :=
  ∃ clientId userId scopes grantType id client granted,
    call = .generateAccessToken clientId userId scopes grantType ∧
    requireText "client_id" clientId = .ok id ∧ normalizeScopes scopes = .ok granted ∧
    s.clients.get? id = some client ∧ client.canUseGrantType grantType = true ∧
    validateClientScopes client granted = .ok ()

theorem refusedFor_of_raised {u : String} {i : Input} {error : OAuthError}
    (raised : (step env s i).2 = .error error) : RefusedFor env s u i := by
  have unchanged := raised_unchanged raised
  refine ⟨⟨error, raised⟩, ?_, ?_, ?_⟩
  all_goals
    intro key value found _
    exact unchanged ▸ found

theorem inactive_refused (env : Env) {u : String} {user : OAuthUser} {now : Time} {call : Call}
    (trimmed : UsersTrimmed s) (found : s.users.get? u = some user) (inactive : user.isActive = false)
    (call_for : CallFor s u call) (accepted : s.checks env now call = .ok ()) :
    UncheckedGrant s call := by
  have stopped : ∀ (userId : String) (record : OAuthUser),
      requireText "user_id" (.ok userId) = .ok u → s.getActiveUser userId ≠ .ok record := by
    intro userId record required active
    obtain ⟨text, required', found', active⟩ := getActiveUser_ok.mp active
    obtain rfl := Except.ok.inj (required.symm.trans required')
    obtain rfl := Option.some.inj (found.symm.trans found')
    exact absurd active (by simp [inactive])
  cases call with
  | generateAuthorizationCode =>
    obtain ⟨request, accepted⟩ := discard_ok.mp accepted
    obtain ⟨_, _, _, _, _, record, -, required, -, -, -, found', active, -⟩ :=
      authorizationRequest_ok accepted
    obtain rfl := Except.ok.inj (call_for.symm.trans required)
    obtain rfl := Option.some.inj (found.symm.trans found')
    exact absurd active (by simp [inactive])
  | generateAccessToken clientId userId scopes grantType =>
    obtain ⟨⟨id, _, granted⟩, accepted⟩ := discard_ok.mp accepted
    obtain ⟨client, required, normal, known, allowed, sub, -⟩ := tokenRequest_ok accepted
    exact ⟨_, _, _, _, id, client, granted, rfl, required, normal, known, allowed,
      validateClientScopes_ok.mpr sub⟩
  | refreshAccessToken =>
    obtain ⟨t, stored, rfl⟩ := call_for
    obtain ⟨old, accepted⟩ := discard_ok.mp accepted
    obtain ⟨_, _, _, -, stored', -, -, -, -, active⟩ := refreshRequest_ok.mp accepted
    obtain rfl := Option.some.inj (stored.symm.trans stored')
    exact absurd active (stopped _ _ (trimmed _ t stored))
  | generateJwtIdToken userId =>
    obtain ⟨jwt, accepted⟩ := discard_ok.mp accepted
    simp only [generateJwtIdToken, check_bind_ok] at accepted
    obtain ⟨text, required, _, -, _, -, _, active, -⟩ := accepted
    obtain rfl := Except.ok.inj (call_for.symm.trans required)
    exact absurd active (stopped _ _ (requireText_again required))
  | _ => cases call_for

/-- The checks of `generate_access_token` do not ask for the user. -/
theorem uncheckedGrant_accepted {u : String} {now : Time} {call : Call} (call_for : CallFor s u call)
    (unchecked : UncheckedGrant s call) : s.checks env now call = .ok () := by
  obtain ⟨_, userId, _, grantType, id, client, granted, rfl, required, normal, known, allowed,
    sub⟩ := unchecked
  obtain ⟨given, rfl, text⟩ := call_for
  apply discard_ok.mpr
  by_cases member : grantType ∈ [GrantType.authorizationCode, .pkce, .refreshToken]
  · refine ⟨(id, some u, granted), ?_⟩
    simp [tokenRequest, check_bind_ok, required, normal, known, allowed, sub, member, text]
  · refine ⟨(id, some given, granted), ?_⟩
    simp [tokenRequest, check_bind_ok, required, normal, known, allowed, sub, member]

/-- For an inactive user, an issuing call is refused exactly when it is not a
`generate_access_token` call whose client may use the grant and the scopes. -/
theorem inactive_user_refused_iff (env : Env) (config : Config)
    (reachable : Reachable (step env) (new config) s) {u : String} {user : OAuthUser}
    (found : s.users.get? u = some user) (inactive : user.isActive = false) {i : Input}
    (call_for : CallFor s u i.call) : RefusedFor env s u i ↔ ¬UncheckedGrant s i.call := by
  have trimmed : UsersTrimmed s :=
    reachable_invariant usersTrimmed_new (fun _ i => usersTrimmed_step i) reachable
  constructor
  · rintro ⟨raised, -⟩ unchecked
    exact raises_iff.mp raised (uncheckedGrant_accepted call_for unchecked)
  · intro checked
    obtain ⟨error, raised⟩ := raises_iff.mpr fun accepted =>
      checked (inactive_refused env trimmed found inactive call_for accepted)
    exact refusedFor_of_raised raised

def deactivatedRun : List Input :=
  [⟨0, .registerClient (.ok "app") (.ok "secret") (.items [.ok "https://app"])
      (.items [.ok "read"]) (.items [.member .authorizationCode]) (.ok true)⟩,
    ⟨0, .registerUser (.ok "ann") (.ok "Ann") (.ok "ann@example.org") (.ok false)⟩,
    ⟨1, .setActive "ann" false⟩]

def deactivatedUser : OAuthUser :=
  { userId := "ann", username := "Ann", email := "ann@example.org", isActive := false
    createdAt := 0 }

theorem deactivatedRun_user :
    (run (step sampleEnv) (new sampleConfig) deactivatedRun).users.get? "ann" =
      some deactivatedUser := by decide +kernel

theorem deactivatedRun_code_refused :
    RefusedFor sampleEnv (run (step sampleEnv) (new sampleConfig) deactivatedRun) "ann"
      ⟨2, .generateAuthorizationCode (.ok "app") (.ok "ann") (.ok "https://app")
        (.items [.ok "read"]) none none⟩ := by
  have required : requireText "user_id" (.ok "ann") = .ok "ann" := by decide
  have refused := inactive_user_refused_iff
    (i := ⟨2, .generateAuthorizationCode (.ok "app") (.ok "ann") (.ok "https://app")
      (.items [.ok "read"]) none none⟩)
    sampleEnv sampleConfig ⟨deactivatedRun, rfl⟩ deactivatedRun_user rfl required
  apply refused.mpr
  rintro ⟨_, _, _, _, _, _, _, call, -⟩
  cases call

theorem deactivatedRun_token_issued :
    ¬∀ s, Reachable (step sampleEnv) (new sampleConfig) s → ∀ u user, s.users.get? u = some user →
      user.isActive = false → ∀ i, CallFor s u i.call → RefusedFor sampleEnv s u i := by
  intro refused
  obtain ⟨⟨error, raised⟩, -⟩ := refused _ ⟨deactivatedRun, rfl⟩ "ann" _ deactivatedRun_user rfl
    ⟨2, .generateAccessToken (.ok "app") (some "ann") (.items [.ok "read"]) .authorizationCode⟩
    ⟨"ann", rfl, by decide⟩
  have issued : (step sampleEnv (run (step sampleEnv) (new sampleConfig) deactivatedRun)
      ⟨2, .generateAccessToken (.ok "app") (some "ann") (.items [.ok "read"])
        .authorizationCode⟩).2.isOk = true := by decide +kernel
  rw [raised] at issued
  cases issued

end BtApiSecurity.OAuth.OAuth2Provider
