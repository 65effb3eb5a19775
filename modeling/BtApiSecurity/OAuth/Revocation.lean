import BtApiSecurity.OAuth.Tables

/-!
# Revoked tokens

What validation, introspection and revocation say of one string, and why a
revoked string never counts again.
-/

namespace BtApiSecurity.OAuth.OAuth2Provider
open Py Machine

variable {env : Env} {s : OAuth2Provider} {now : Time} {token : String}

/-- `secrets.token_urlsafe(32)` is text, and all of it is URL-safe. -/
def TokenText (env : Env) : Prop :=
  ∀ n, env.tokenUrlsafe n ≠ "" ∧ ∀ c ∈ (env.tokenUrlsafe n).toList, isUrlSafe c = true

theorem drawn_text (text : TokenText env) (drawn : Drawn env s token) :
    strip token = token ∧ token ≠ "" := by
  obtain ⟨k, -, rfl⟩ := drawn
  exact ⟨strip_of_urlSafe (text k).2, (text k).1⟩

/-! ### One string, three entry points -/

def LiveAccess (s : OAuth2Provider) (now : Time) (token : String) : Prop :=
  ∃ t, s.accessTokens.get? token = some t ∧ t.isValid now = true

theorem liveAccess_iff :
    LiveAccess s now token ↔ (s.accessTokens.get? token).any (·.isValid now) = true := by
  simp only [LiveAccess, Option.any_eq_true]

instance : Decidable (LiveAccess s now token) := decidable_of_iff _ liveAccess_iff.symm

/-- The reply describes an access token, and says that it is active. -/
def Introspection.activeAccess : Introspection → Bool
  | .unknown => false
  | .found active _ _ _ _ _ tokenType => active && tokenType != "refresh_token"

theorem introspectToken_activeAccess :
    (s.introspectToken now token).activeAccess = true ↔ LiveAccess s now token := by
  unfold introspectToken LiveAccess
  cases s.accessTokens.get? token with
  | some t =>
    have named : t.tokenType.value ≠ "refresh_token" := by cases t.tokenType <;> decide
    simp [Introspection.activeAccess, named]
  | none =>
    cases s.refreshTokens.get? token with
    | some r => simp [Introspection.activeAccess]
    | none => simp [Introspection.activeAccess]

theorem validateAccessToken_returns :
    (∃ t, s.validateAccessToken now (.ok token) .absent = .ok t) ↔
      strip token ≠ "" ∧ LiveAccess s now (strip token) := by
  constructor
  · rintro ⟨t, returned⟩
    obtain ⟨text, _, text_ok, -, found, valid, -⟩ := validateAccessToken_ok.mp returned
    obtain ⟨_, given, rfl, filled⟩ := requireText_ok.mp text_ok
    cases given
    exact ⟨filled, t, found, valid⟩
  · rintro ⟨filled, t, found, valid⟩
    refine ⟨t, validateAccessToken_ok.mpr ⟨strip token, ∅, ?_, rfl, found, valid, .inl rfl⟩⟩
    exact requireText_ok.mpr ⟨token, rfl, rfl, filled⟩

theorem liveAccess_before {later : Time} (le : now ≤ later) (live : LiveAccess s later token) :
    LiveAccess s now token := by
  obtain ⟨t, found, valid⟩ := live
  simp only [AccessToken.isValid, AccessToken.isExpired, Bool.not_eq_true', decide_eq_false_iff_not,
    not_lt] at valid
  exact ⟨t, found, by simp [AccessToken.isValid, AccessToken.isExpired, le.trans valid]⟩

theorem revoke_accessTokens (env : Env) (s : OAuth2Provider) (now : Time) (token text : String) :
    (step env s ⟨now, .revokeToken token⟩).1.accessTokens.get? text =
      if text = token then none else s.accessTokens.get? text := by
  have outcome := step_outcome env s ⟨now, .revokeToken token⟩
  generalize (step env s ⟨now, .revokeToken token⟩).1 = post at outcome ⊢
  generalize (step env s ⟨now, .revokeToken token⟩).2 = reply at outcome
  have absent : s.accessTokens.get? token = none →
      s.accessTokens.get? text = if text = token then none else s.accessTokens.get? text := by
    intro none
    split
    · rename_i same
      exact same ▸ none
    · rfl
  cases outcome with
  | raised _ _ refused => cases refused
  | answered _ _ reads => cases reads
  | accessRevoked =>
    rw [Dict.get?_erase]
    simp only [eq_comm]
  | refreshRevoked other => exact absent other
  | notRevoked other => exact absent other

/-- Validation and introspection tell the same of `token`, and once it is revoked, validation
raises from then on. -/
def LookupsAgree (env : Env) (s : OAuth2Provider) (now : Time) (token : String) : Prop :=
  ((∃ t, s.validateAccessToken now (.ok token) .absent = .ok t) ↔
    (s.introspectToken now token).activeAccess = true) ∧
  ∀ later, now ≤ later → ∀ t,
    (step env s ⟨now, .revokeToken token⟩).1.validateAccessToken later (.ok token) .absent ≠ .ok t

theorem lookupsAgree_of_stripped (named : LiveAccess s now token → token ≠ "")
    (stripped : strip token = token) : LookupsAgree env s now token := by
  constructor
  · rw [validateAccessToken_returns, introspectToken_activeAccess, stripped]
    exact and_iff_right_of_imp named
  · intro later _ t returned
    obtain ⟨-, t, found, -⟩ := validateAccessToken_returns.mp ⟨t, returned⟩
    rw [revoke_accessTokens, stripped, if_pos rfl] at found
    cases found

theorem lookupsAgree_of_dead (other : ¬LiveAccess s now token)
    (dead : ¬LiveAccess s now (strip token)) : LookupsAgree env s now token := by
  constructor
  · rw [validateAccessToken_returns, introspectToken_activeAccess]
    exact iff_of_false (fun live => dead live.2) other
  · intro later le t returned
    obtain ⟨-, t, found, valid⟩ := validateAccessToken_returns.mp ⟨t, returned⟩
    rw [revoke_accessTokens] at found
    split at found
    · cases found
    · exact dead (liveAccess_before le ⟨t, found, valid⟩)

/-- In every reachable state, the entry points agree on a string exactly when it has no
surrounding blanks or is, without them, no live access token. -/
theorem token_lookups_agree_iff (text : TokenText env) (config : Config) (is : List Input)
    (now : Time) (token : String) :
    let s := run (step env) (new config) is
    LookupsAgree env s now token ↔ strip token = token ∨ ¬LiveAccess s now (strip token) := by
  intro s
  have drawn : AccessDrawn env s := run_invariant accessDrawn_new fun _ i => accessDrawn_step i
  have named : ∀ token, LiveAccess s now token → strip token = token ∧ token ≠ "" := by
    rintro token ⟨t, found, -⟩
    exact drawn_text text (drawn token t found)
  constructor
  · rintro ⟨same, -⟩
    by_contra padded
    obtain ⟨different, live⟩ : strip token ≠ token ∧ LiveAccess s now (strip token) := by
      simpa only [not_or, not_not] using padded
    rw [validateAccessToken_returns, introspectToken_activeAccess] at same
    exact different (named token (same.mp ⟨(named _ live).2, live⟩)).1
  · rintro (stripped | dead)
    · exact lookupsAgree_of_stripped (fun live => (named token live).2) stripped
    · by_cases stripped : strip token = token
      · exact lookupsAgree_of_stripped (fun live => (named token live).2) stripped
      · exact lookupsAgree_of_dead (fun live => stripped (named token live).1) dead

def grantedRun : List Input :=
  [⟨0, .registerClient (.ok "app") (.ok "secret") (.items [.ok "https://app"])
      (.items [.ok "read"]) (.items [.member .authorizationCode]) (.ok true)⟩,
    ⟨0, .registerUser (.ok "ann") (.ok "Ann") (.ok "ann@example.org") (.ok false)⟩,
    ⟨1, .generateAccessToken (.ok "app") (some "ann") (.items [.ok "read"]) .authorizationCode⟩]

theorem sampleEnv_text : TokenText sampleEnv := by
  intro n
  refine ⟨fun empty => ?_, ?_⟩
  · have none := congrArg String.toList empty
    simp [sampleEnv] at none
  · intro c member
    have either : c = 't' ∨ c ∈ List.replicate n 'a' := by simpa [sampleEnv] using member
    rcases either with rfl | repeated
    · decide
    · rw [List.eq_of_mem_replicate repeated]
      decide

theorem grantedRun_lookups_iff :
    LookupsAgree sampleEnv (run (step sampleEnv) (new sampleConfig) grantedRun) 2 " t " ↔
      strip " t " = " t " ∨
        ¬LiveAccess (run (step sampleEnv) (new sampleConfig) grantedRun) 2 (strip " t ") :=
  token_lookups_agree_iff sampleEnv_text sampleConfig grantedRun 2 " t "

/-- With a blank at each end, the live access token `t` validates, but can be neither
introspected nor revoked. -/
theorem paddedToken_disagrees :
    let s := run (step sampleEnv) (new sampleConfig) grantedRun
    ¬((∃ t, s.validateAccessToken 2 (.ok " t ") .absent = .ok t) ↔
      (s.introspectToken 2 " t ").activeAccess = true) ∧
    ∃ t, (step sampleEnv s ⟨2, .revokeToken " t "⟩).1.validateAccessToken 2 (.ok " t ") .absent =
      .ok t := by
  intro s
  have stripped : strip " t " = "t" := by decide +kernel
  have live : LiveAccess s 2 "t" := by decide +kernel
  have hidden : ¬LiveAccess s 2 " t " := by decide +kernel
  refine ⟨?_, ?_⟩
  · rw [validateAccessToken_returns, introspectToken_activeAccess, stripped]
    exact fun same => hidden (same.mp ⟨by decide, live⟩)
  · rw [validateAccessToken_returns, stripped]
    obtain ⟨t, found, valid⟩ := live
    refine ⟨by decide, t, ?_, valid⟩
    rw [revoke_accessTokens, if_neg (by decide)]
    exact found

/-! ### Revoked for good -/

structure Revoked (env : Env) (token : String) (s : OAuth2Provider) : Prop where
  drawn : Drawn env s token
  access : s.accessTokens.get? token = none
  refresh : ∀ t, s.refreshTokens.get? token = some t → t.used = true

theorem revoked_of_reply (inv : Apart env s)
    (revoked : (step env s ⟨now, .revokeToken token⟩).2 = .ok (.revoked true)) :
    Revoked env token (step env s ⟨now, .revokeToken token⟩).1 := by
  have outcome := step_outcome env s ⟨now, .revokeToken token⟩
  rw [revoked] at outcome
  generalize (step env s ⟨now, .revokeToken token⟩).1 = post at outcome ⊢
  cases outcome with
  | answered _ _ reads => cases reads
  | accessRevoked found =>
    refine ⟨inv.access token _ found, Dict.get?_erase_self _ _, ?_⟩
    intro t stored
    rw [inv.apart token t stored] at found
    cases found
  | refreshRevoked other found =>
    refine ⟨inv.refresh token _ found, other, ?_⟩
    intro t stored
    rw [withUsed, Dict.get?_set_self] at stored
    cases stored
    rfl

theorem revoked_step (fresh : Function.Injective env.tokenUrlsafe) (i : Input)
    (inv : Revoked env token s) : Revoked env token (step env s i).1 := by
  refine ⟨drawn_step env i inv.drawn, ?_, ?_⟩
  · cases found : (step env s i).1.accessTokens.get? token with
    | none => rfl
    | some t =>
      rcases access_lookup found with before | ⟨rfl, -⟩
      · rw [inv.access] at before
        cases before
      · exact absurd inv.drawn (not_drawn fresh le_rfl)
  · intro t found
    rcases refresh_stored found with before | ⟨rfl, -⟩ | ⟨old, -, rfl⟩
    · exact inv.refresh t before
    · exact absurd inv.drawn (not_drawn fresh (Nat.le_succ _))
    · rfl

/-- What a revoked token is good for. -/
structure Refused (env : Env) (s : OAuth2Provider) (token : String) (now : Time) : Prop where
  validation : ∀ required, ∃ error,
    (step env s ⟨now, .validateAccessToken (.ok token) required⟩).2 = .error error
  refresh : ∀ clientId, ∃ error,
    (step env s ⟨now, .refreshAccessToken token clientId⟩).2 = .error error
  introspection : (s.introspectToken now token).active = false

theorem refused_of_revoked (text : TokenText env) (inv : Revoked env token s) (now : Time) :
    Refused env s token now := by
  refine ⟨?_, ?_, ?_⟩
  · intro required
    apply raises_iff.mpr
    intro accepted
    obtain ⟨t, returned⟩ := discard_ok.mp accepted
    obtain ⟨_, _, text_ok, -, found, -⟩ := validateAccessToken_ok.mp returned
    obtain ⟨_, given, rfl, -⟩ := requireText_ok.mp text_ok
    cases given
    rw [(drawn_text text inv.drawn).1, inv.access] at found
    cases found
  · intro clientId
    apply raises_iff.mpr
    intro accepted
    obtain ⟨t, returned⟩ := discard_ok.mp accepted
    obtain ⟨_, _, _, -, found, valid, -⟩ := refreshRequest_ok.mp returned
    simp [RefreshToken.isValid, inv.refresh t found] at valid
  · unfold introspectToken
    rw [inv.access]
    cases found : s.refreshTokens.get? token with
    | none => rfl
    | some t =>
      show t.isValid now = false
      simp [RefreshToken.isValid, inv.refresh t found]

/-- Once `revoke_token` has returned `True`, the token is refused in every later state. -/
theorem revocation_permanent (fresh : Function.Injective env.tokenUrlsafe) (text : TokenText env)
    (config : Config) (before after : List Input) (now : Time) (token : String)
    (revoked : (step env (run (step env) (new config) before) ⟨now, .revokeToken token⟩).2 =
      .ok (.revoked true)) (later : Time) :
    Refused env (run (step env) (new config) (before ++ ⟨now, .revokeToken token⟩ :: after)) token
      later := by
  apply refused_of_revoked text
  rw [run_append, run_cons]
  apply run_invariant (revoked_of_reply (apart_run fresh config before) revoked)
  exact fun _ i => revoked_step fresh i

def laterGrants : List Input :=
  [⟨2, .refreshAccessToken "ta" (.ok "app")⟩,
    ⟨3, .generateAccessToken (.ok "app") (some "ann") (.items [.ok "read"]) .authorizationCode⟩,
    ⟨4, .cleanupExpiredTokens⟩]

theorem revokedGrant_refused :
    Refused sampleEnv (run (step sampleEnv) (new sampleConfig)
      (grantedRun ++ ⟨2, .revokeToken "ta"⟩ :: laterGrants)) "ta" 5 :=
  revocation_permanent sampleEnv_fresh sampleEnv_text sampleConfig grantedRun laterGrants 2 "ta"
    rfl 5

end BtApiSecurity.OAuth.OAuth2Provider
