import BtApiSecurity.OAuth.Tables
import BtApiSecurity.OneTime

/-!
# Refresh-token lineages

With rotation on, a refresh token is a one-time token: refreshing spends it and
issues its heir.
-/

namespace BtApiSecurity.OAuth.OAuth2Provider
open Py Machine OneTime

variable {env : Env} {s : OAuth2Provider}

/-! ### What a run says about refresh tokens -/

def grantedToken (e : Event) : Option String :=
  match e.input.call, e.output with
  | .generateAccessToken .., .ok (.accessToken t) => t.refreshToken
  | .refreshAccessToken .., .ok (.accessToken t) => t.refreshToken
  | _, _ => none

def redeemedToken (e : Event) : Option String :=
  match e.input.call, e.output with
  | .refreshAccessToken token _, .ok _ => some token
  | _, _ => none

def LiveToken (s : OAuth2Provider) (token : String) : Prop :=
  ∃ t, s.refreshTokens.get? token = some t ∧ t.used = false

def grantRecord (s : OAuth2Provider) (token : String) : Option (String × String × Finset String) :=
  (s.refreshTokens.get? token).map grantOf

/-! ### Steps -/

/-- Rotation is on; stored tokens were drawn, no string is both an access and a refresh token. -/
structure TokensDrawn (env : Env) (s : OAuth2Provider) : Prop where
  rotation : s.config.enableTokenRotation = true
  access : ∀ token t, s.accessTokens.get? token = some t → Drawn env s token
  refresh : ∀ token t, s.refreshTokens.get? token = some t → Drawn env s token
  apart : ∀ token t, s.refreshTokens.get? token = some t → s.accessTokens.get? token = none
  trimmed : ∀ token t, s.refreshTokens.get? token = some t → TrimmedUser t

inductive RefreshEffect (env : Env) (s : OAuth2Provider) (e : Event) : Prop
  | same (tokens : e.post.refreshTokens = s.refreshTokens) (none_granted : grantedToken e = none)
      (none_redeemed : redeemedToken e = none)
  | granted (t : RefreshToken) (tokens : e.post.refreshTokens = s.refreshTokens.set t.token t)
      (string : t.token = env.tokenUrlsafe (s.drawn + 1)) (next : e.post.drawn = s.drawn + 2)
      (unused : t.used = false) (trimmed : TrimmedUser t) (is_granted : grantedToken e = some t.token)
      (none_redeemed : redeemedToken e = none)
  | rotated (token : String) (old t : RefreshToken) (found : s.refreshTokens.get? token = some old)
      (live : old.used = false)
      (tokens : e.post.refreshTokens =
        (s.refreshTokens.set token { old with used := true }).set t.token t)
      (string : t.token = env.tokenUrlsafe (s.drawn + 1)) (next : e.post.drawn = s.drawn + 2)
      (unused : t.used = false) (trimmed : TrimmedUser t)
      (inherits : TrimmedUser old → grantOf t = grantOf old)
      (is_granted : grantedToken e = some t.token) (is_redeemed : redeemedToken e = some token)
  | revoked (token : String) (old : RefreshToken) (found : s.refreshTokens.get? token = some old)
      (tokens : e.post.refreshTokens = s.refreshTokens.set token { old with used := true })
      (none_granted : grantedToken e = none) (none_redeemed : redeemedToken e = none)
  | cleaned (keep : String → RefreshToken → Bool)
      (tokens : e.post.refreshTokens = s.refreshTokens.filter keep)
      (none_granted : grantedToken e = none) (none_redeemed : redeemedToken e = none)

theorem refresh_effect (env : Env) (rotation : s.config.enableTokenRotation = true) (i : Input) :
    RefreshEffect env s (entry (step env) s i) := by
  have outcome := step_outcome env s i
  obtain ⟨now, call⟩ := i
  unfold entry
  generalize (step env s ⟨now, call⟩).1 = post at outcome ⊢
  generalize (step env s ⟨now, call⟩).2 = reply at outcome ⊢
  cases outcome with
  | raised => exact .same rfl (by cases call <;> rfl) (by cases call <;> rfl)
  | answered _ _ reads _ =>
    exact .same rfl (by cases call <;> first | rfl | cases reads)
      (by cases call <;> first | rfl | cases reads)
  | grantIssued accepted trimmed paired token =>
    exact .granted _ rfl rfl rfl rfl trimmed (by rw [grantedToken, token]; rfl) rfl
  | @rotated _ _ old user _ _ accepted required token =>
    obtain ⟨_, _, _, -, found, valid, -⟩ := refreshRequest_ok.mp accepted
    have live : old.used = false := by
      simp only [RefreshToken.isValid, Bool.and_eq_true, Bool.not_eq_true'] at valid
      exact valid.1
    refine .rotated _ old _ found live rfl rfl rfl rfl (requireText_again required) ?_
      (by rw [grantedToken, token]; rfl) rfl
    intro trimmed
    have same : user = old.userId := Except.ok.inj (required.symm.trans trimmed)
    simp [grantOf, newRefreshToken, same]
  | reissued fixed => exact absurd (rotation.symm.trans fixed) (by decide)
  | refreshRevoked _ found => exact .revoked _ _ found rfl rfl rfl
  | cleaned => exact .cleaned (fun _ t => t.isValid now) rfl rfl rfl
  | _ => exact .same rfl rfl rfl

theorem refresh_lookup {i : Input} {token : String} {t : RefreshToken}
    (rotation : s.config.enableTokenRotation = true)
    (found : (step env s i).1.refreshTokens.get? token = some t) :
    s.refreshTokens.get? token = some t ∨
    (grantedToken (entry (step env) s i) = some token ∧ token = env.tokenUrlsafe (s.drawn + 1) ∧
      (step env s i).1.drawn = s.drawn + 2 ∧ t.used = false ∧ TrimmedUser t) ∨
    ∃ old, s.refreshTokens.get? token = some old ∧ t = { old with used := true } := by
  cases refresh_effect env rotation i with
  | same tokens => exact .inl (tokens ▸ found)
  | granted r tokens string next unused trimmed is_granted =>
    rw [show (step env s i).1.refreshTokens = _ from tokens] at found
    rcases Dict.get?_set_some found with ⟨rfl, rfl⟩ | before
    · exact .inr (.inl ⟨is_granted, string, next, unused, trimmed⟩)
    · exact .inl before
  | rotated token' old r present _ tokens string next unused trimmed _ is_granted =>
    rw [show (step env s i).1.refreshTokens = _ from tokens] at found
    rcases Dict.get?_set_some found with ⟨rfl, rfl⟩ | before
    · exact .inr (.inl ⟨is_granted, string, next, unused, trimmed⟩)
    · rcases Dict.get?_set_some before with ⟨rfl, rfl⟩ | before
      · exact .inr (.inr ⟨old, present, rfl⟩)
      · exact .inl before
  | revoked token' old present tokens =>
    rw [show (step env s i).1.refreshTokens = _ from tokens] at found
    rcases Dict.get?_set_some found with ⟨rfl, rfl⟩ | before
    · exact .inr (.inr ⟨old, present, rfl⟩)
    · exact .inl before
  | cleaned keep tokens =>
    rw [show (step env s i).1.refreshTokens = _ from tokens] at found
    exact .inl (Dict.get?_filter_some found)

theorem TokensDrawn.tables (inv : TokensDrawn env s) : Apart env s :=
  ⟨inv.access, inv.refresh, inv.apart⟩

theorem tokensDrawn_step (fresh : Function.Injective env.tokenUrlsafe) (i : Input)
    (inv : TokensDrawn env s) : TokensDrawn env (step env s i).1 := by
  have tables := apart_step fresh i inv.tables
  have trimmed : UsersTrimmed (step env s i).1 := usersTrimmed_step i inv.trimmed
  exact ⟨(step_config i).symm ▸ inv.rotation, tables.access, tables.refresh, tables.apart, trimmed⟩

theorem tokensDrawn_new {config : Config} (rotation : config.enableTokenRotation = true) :
    TokensDrawn env (new config) :=
  ⟨rotation, by simp [new], by simp [new], by simp [new], by simp [new]⟩

/-! ### Refresh tokens are one-time tokens -/

theorem redeemed_found (fresh : Function.Injective env.tokenUrlsafe) (inv : TokensDrawn env s)
    {i : Input} {token : String} (gone : redeemedToken (entry (step env) s i) = some token) :
    LiveToken s token ∧ ¬LiveToken (step env s i).1 token := by
  cases refresh_effect env inv.rotation i with
  | rotated token' old r present live tokens string _ _ _ _ _ is_redeemed =>
    obtain rfl := Option.some.inj (is_redeemed.symm.trans gone)
    refine ⟨⟨old, present, live⟩, ?_⟩
    rintro ⟨t, found, unused⟩
    have other : r.token ≠ token' := by
      rw [string]
      intro same
      exact not_drawn fresh (Nat.le_succ _) (same ▸ inv.refresh _ _ present)
    rw [show (step env s i).1.refreshTokens = _ from tokens, Dict.get?_set_of_ne _ _ other,
      Dict.get?_set_self] at found
    cases found
    cases unused
  | _ => simp_all

theorem granted_drawn (inv : TokensDrawn env s) {i : Input} {token : String}
    (born : grantedToken (entry (step env) s i) = some token) :
    token = env.tokenUrlsafe (s.drawn + 1) ∧ (step env s i).1.drawn = s.drawn + 2 := by
  cases refresh_effect env inv.rotation i with
  | granted r _ string next _ _ is_granted | rotated _ _ r _ _ _ string next _ _ _ is_granted =>
    obtain rfl := Option.some.inj (is_granted.symm.trans born)
    exact ⟨string, next⟩
  | _ => simp_all

theorem liveToken_drawn {token : String} (inv : TokensDrawn env s) (live : LiveToken s token) :
    Drawn env s token := by
  obtain ⟨t, found, -⟩ := live
  exact inv.refresh token t found

theorem granted_fresh (fresh : Function.Injective env.tokenUrlsafe) (inv : TokensDrawn env s)
    {i : Input} {token : String} (born : grantedToken (entry (step env) s i) = some token) :
    ¬Drawn env s token := by
  obtain ⟨rfl, -⟩ := granted_drawn inv born
  exact not_drawn fresh (Nat.le_succ _)

theorem granted_seen (inv : TokensDrawn env s) {i : Input} {token : String}
    (born : grantedToken (entry (step env) s i) = some token) : Drawn env (step env s i).1 token := by
  obtain ⟨rfl, next⟩ := granted_drawn inv born
  exact ⟨s.drawn + 1, by omega, rfl⟩

theorem liveToken_born (inv : TokensDrawn env s) {i : Input} {token : String}
    (live : LiveToken (step env s i).1 token) :
    LiveToken s token ∨ grantedToken (entry (step env) s i) = some token := by
  obtain ⟨t, found, unused⟩ := live
  rcases refresh_lookup inv.rotation found with before | ⟨born, -⟩ | ⟨old, -, rfl⟩
  · exact .inl ⟨t, before, unused⟩
  · exact .inr born
  · cases unused

theorem redeemed_live (fresh : Function.Injective env.tokenUrlsafe) (inv : TokensDrawn env s)
    {i : Input} {token : String} (gone : redeemedToken (entry (step env) s i) = some token) :
    LiveToken s token :=
  (redeemed_found fresh inv gone).1

theorem redeemed_dead (fresh : Function.Injective env.tokenUrlsafe) (inv : TokensDrawn env s)
    {i : Input} {token : String} (gone : redeemedToken (entry (step env) s i) = some token) :
    ¬LiveToken (step env s i).1 token :=
  (redeemed_found fresh inv gone).2

def tokenDiscipline (env : Env) (fresh : Function.Injective env.tokenUrlsafe) :
    Discipline (step env) String where
  Inv := TokensDrawn env
  live := LiveToken
  seen := Drawn env
  spent := redeemedToken
  issued := grantedToken
  inv_step _ i inv := tokensDrawn_step fresh i inv
  live_seen _ _ inv live := liveToken_drawn inv live
  seen_step _ i _ _ seen := drawn_step env i seen
  spent_live _ _ _ inv gone := redeemed_live fresh inv gone
  spent_dead _ _ _ inv gone := redeemed_dead fresh inv gone
  issued_fresh _ _ _ inv born := granted_fresh fresh inv born
  issued_seen _ _ _ inv born := granted_seen inv born
  live_born _ _ _ inv live := liveToken_born inv live

theorem grantRecord_kept (rotation : s.config.enableTokenRotation = true) {i : Input}
    {token : String} {g : String × String × Finset String}
    (made : grantRecord (step env s i).1 token = some g) :
    grantRecord s token = some g ∨ grantedToken (entry (step env) s i) = some token := by
  obtain ⟨stored, found, rfl⟩ := Option.map_eq_some_iff.mp made
  rcases refresh_lookup rotation found with before | ⟨born, -⟩ | ⟨old, before, rfl⟩
  · exact .inl (by simp [grantRecord, before])
  · exact .inr born
  · exact .inl (by simp [grantRecord, before, grantOf])

theorem grantRecord_passed (inv : TokensDrawn env s) {i : Input} {x y : String}
    (gone : redeemedToken (entry (step env) s i) = some x)
    (born : grantedToken (entry (step env) s i) = some y) :
    ∃ g, grantRecord s x = some g ∧ grantRecord (step env s i).1 y = some g := by
  cases refresh_effect env inv.rotation i with
  | rotated token old r found _ tokens _ _ _ _ inherits is_granted is_redeemed =>
    obtain rfl := Option.some.inj (is_redeemed.symm.trans gone)
    obtain rfl := Option.some.inj (is_granted.symm.trans born)
    refine ⟨grantOf old, by simp [grantRecord, found], ?_⟩
    rw [grantRecord, show (step env s i).1.refreshTokens = _ from tokens, Dict.get?_set_self,
      Option.map_some, inherits (inv.trimmed _ _ found)]
  | _ => simp_all

theorem revoke_live (inv : TokensDrawn env s) {i : Input} {token : String}
    (call : i.call = .revokeToken token) (live : LiveToken s token) :
    ¬LiveToken (step env s i).1 token := by
  rintro ⟨t, found, unused⟩
  obtain ⟨old, present, -⟩ := live
  have outcome := step_outcome env s i
  obtain ⟨now, _⟩ := i
  cases call
  generalize (step env s ⟨now, .revokeToken token⟩).1 = post at outcome found
  generalize (step env s ⟨now, .revokeToken token⟩).2 = reply at outcome
  cases outcome with
  | raised _ _ refused => cases refused
  | answered _ _ reads _ => cases reads
  | accessRevoked other => simp [inv.apart _ _ present] at other
  | refreshRevoked =>
    unfold withUsed at found
    rw [Dict.get?_set_self] at found
    cases found
    cases unused
  | notRevoked _ absent => simp [present] at absent

/-- Every lineage is linear: it holds at most one unused token, no token is redeemed twice, all
of its tokens have the client, user and scopes of the first, and once its live token is
revoked no token of it is redeemed again. -/
theorem refresh_lineages_linear (fresh : Function.Injective env.tokenUrlsafe) (config : Config)
    (rotation : config.enableTokenRotation = true) (is : List Input) :
    let history := trace (step env) (new config) is
    let s := run (step env) (new config) is
    let lineage := Lineage redeemedToken grantedToken
    (∀ first x y, lineage history first x → lineage history first y → LiveToken s x →
      LiveToken s y → x = y) ∧
    (history.Pairwise fun e e' => ∀ x, redeemedToken e = some x → redeemedToken e' ≠ some x) ∧
    (∀ first x, lineage history first x → ∀ d ∈ history, grantedToken d = some first →
      ∀ t₀, d.post.refreshTokens.get? first = some t₀ → ∀ t, s.refreshTokens.get? x = some t →
      t.clientId = t₀.clientId ∧ t.userId = t₀.userId ∧ t.scopes = t₀.scopes) ∧
    ∀ l e l', history = l ++ e :: l' → ∀ first x, lineage l first x → LiveToken e.pre x →
      e.input.call = .revokeToken x → ∀ d ∈ l', ∀ y, lineage history first y →
      redeemedToken d ≠ some y := by
  let D := tokenDiscipline env fresh
  have start : D.Inv (new config) := tokensDrawn_new rotation
  have absent : ∀ token, ¬D.live (new config) token := by
    rintro token ⟨t, found, -⟩
    simp [new] at found
  refine ⟨fun first x y => D.live_unique start, D.spent_once start, ?_, ?_⟩
  · intro first x line d mem born t₀ made t now
    have made' : grantRecord d.post first = some (grantOf t₀) := by simp [grantRecord, made]
    have now' : grantRecord (run (step env) (new config) is) x = some (grantOf t) := by
      simp [grantRecord, now]
    have same := D.lineage_record (fun _ _ _ _ inv => grantRecord_kept inv.rotation)
      (fun _ _ _ _ inv => grantRecord_passed inv) start absent mem born made' line now'
    simpa [grantOf] using same
  · intro l e l' split first x line live revoked d mem y other
    obtain ⟨before, after, -, -, is_entry, -⟩ := trace_split split
    have inv := D.inv_run before start
    have dead : ¬D.live e.post x := by
      rw [is_entry]
      rw [is_entry] at live
      exact revoke_live inv revoked live
    have kept : D.spent e ≠ some x := by
      show redeemedToken e ≠ some x
      simp [redeemedToken, revoked]
    exact D.lineage_ended start split line live dead kept mem other

/-- A refresh token that is rotated, tried again, and whose heir is revoked. -/
def sampleRefreshRun : List Input :=
  [⟨0, .registerClient (.ok "app") (.ok "secret") (.items [.ok "https://app"])
      (.items [.ok "read", .ok "write"]) (.items [.member .authorizationCode]) (.ok true)⟩,
    ⟨0, .registerUser (.ok "ann") (.ok "Ann") (.ok "ann@example.org") (.ok false)⟩,
    ⟨1, .generateAccessToken (.ok "app") (some "ann") (.items [.ok "read"]) .authorizationCode⟩,
    ⟨2, .refreshAccessToken "ta" (.ok "app")⟩,
    ⟨3, .refreshAccessToken "ta" (.ok "app")⟩,
    ⟨4, .revokeToken "taaa"⟩,
    ⟨5, .refreshAccessToken "taaa" (.ok "app")⟩]

theorem sampleRefreshRun_linear :
    (trace (step sampleEnv) (new sampleConfig) sampleRefreshRun).filterMap grantedToken =
      ["ta", "taaa"] ∧
    (trace (step sampleEnv) (new sampleConfig) sampleRefreshRun).Pairwise fun e e' =>
      ∀ x, redeemedToken e = some x → redeemedToken e' ≠ some x :=
  ⟨by decide +kernel,
    (refresh_lineages_linear sampleEnv_fresh sampleConfig rfl sampleRefreshRun).2.1⟩

end BtApiSecurity.OAuth.OAuth2Provider
