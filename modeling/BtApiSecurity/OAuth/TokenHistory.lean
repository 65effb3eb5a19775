import BtApiSecurity.OAuth.CodeHistory
import BtApiSecurity.OAuth.Lineage

/-!
# The history of a token

Whether an access token validates, and whether a refresh token can be redeemed, is
a matter of the call that issued it, of its age, and of the calls since that revoked
or redeemed it. Nothing else ends a token.
-/

namespace BtApiSecurity.OAuth.OAuth2Provider
open Py Machine

variable {env : Env} {s : OAuth2Provider} {now : Time}

/-- The access token that the call issued. -/
def issuedAccess (e : Event) : Option AccessToken :=
  match e.input.call, e.output with
  | .generateAccessToken .., .ok (.accessToken t) => some t
  | .refreshAccessToken .., .ok (.accessToken t) => some t
  | _, _ => none

theorem issuedAccess_reads {e : Event} (reads : e.input.call.reads = true) : issuedAccess e = none := by
  obtain ⟨pre, ⟨now, call⟩, output, post⟩ := e
  cases call <;> first | rfl | cases reads

theorem issuedAccess_error {e : Event} {error : OAuthError} (raised : e.output = .error error) :
    issuedAccess e = none := by
  obtain ⟨pre, ⟨now, call⟩, output, post⟩ := e
  obtain rfl : output = .error error := raised
  cases call <;> rfl

theorem configured (config : Config) (is : List Input) :
    (run (step env) (new config) is).config = config := by
  let Kept (s : OAuth2Provider) : Prop := s.config = config
  have start : Kept (new config) := rfl
  exact run_invariant start fun _ i same => (step_config i).trans same

/-! ### The ledger of access tokens -/

theorem access_issued {i : Input} {t : AccessToken}
    (issued : issuedAccess (entry (step env) s i) = some t) :
    (step env s i).1.accessTokens.get? t.token = some t ∧ t.createdAt = i.now ∧
      t.expiresAt = i.now + s.config.tokenLifetime := by
  have outcome := step_outcome env s i
  obtain ⟨now, call⟩ := i
  rw [entry] at issued
  generalize (step env s ⟨now, call⟩).1 = post at outcome issued ⊢
  generalize (step env s ⟨now, call⟩).2 = reply at outcome issued
  cases outcome with
  | raised => cases (issuedAccess_error rfl).symm.trans issued
  | answered _ _ reads => cases (issuedAccess_reads reads).symm.trans issued
  | tokenIssued =>
    obtain rfl := Option.some.inj issued
    exact ⟨Dict.get?_set_self _ _ _, rfl, rfl⟩
  | grantIssued _ _ _ token | rotated _ _ _ token | reissued _ _ token =>
    obtain rfl := Option.some.inj issued
    exact ⟨Dict.get?_set_self _ _ _, by rw [token]; rfl, by rw [token]; rfl⟩
  | _ => cases issued

theorem access_kept (fresh : Function.Injective env.tokenUrlsafe) (inv : AccessDrawn env s)
    {i : Input} {token : String} {t : AccessToken} (found : s.accessTokens.get? token = some t)
    (valid : t.isValid i.now = true) (kept : i.call ≠ .revokeToken token) :
    (step env s i).1.accessTokens.get? token = some t := by
  have other : env.tokenUrlsafe s.drawn ≠ token := by
    intro same
    exact not_drawn fresh le_rfl (same ▸ inv token t found)
  have outcome := step_outcome env s i
  obtain ⟨now, call⟩ := i
  generalize (step env s ⟨now, call⟩).1 = post at outcome ⊢
  generalize (step env s ⟨now, call⟩).2 = reply at outcome
  cases outcome with
  | tokenIssued => exact (Dict.get?_set_of_ne _ _ other).trans found
  | grantIssued _ _ _ token_eq | rotated _ _ _ token_eq | reissued _ _ token_eq =>
    subst token_eq
    exact (Dict.get?_set_of_ne _ _ other).trans found
  | @accessRevoked token' =>
    have different : token' ≠ token := by
      rintro rfl
      exact kept rfl
    exact (Dict.get?_erase_of_ne _ different).trans found
  | cleaned =>
    show (s.accessTokens.filter fun _ t => !t.isExpired now).get? token = some t
    rw [Dict.get?_filter, found]
    exact if_pos valid
  | _ => exact found

theorem access_stored {i : Input} {token : String} {t : AccessToken}
    (found : (step env s i).1.accessTokens.get? token = some t) :
    t.token = token ∧ issuedAccess (entry (step env) s i) = some t ∨
      s.accessTokens.get? token = some t ∧ i.call ≠ .revokeToken token := by
  have outcome := step_outcome env s i
  obtain ⟨now, call⟩ := i
  rw [entry]
  generalize (step env s ⟨now, call⟩).1 = post at outcome found ⊢
  generalize (step env s ⟨now, call⟩).2 = reply at outcome ⊢
  cases outcome with
  | raised _ _ refused =>
    refine .inr ⟨found, ?_⟩
    rintro rfl
    cases refused
  | answered _ _ reads =>
    refine .inr ⟨found, ?_⟩
    rintro rfl
    cases reads
  | tokenIssued | grantIssued | rotated | reissued =>
    rcases Dict.get?_set_some found with ⟨rfl, rfl⟩ | before
    · exact .inl ⟨rfl, rfl⟩
    · exact .inr ⟨before, by simp⟩
  | @accessRevoked token' =>
    rw [Dict.get?_erase] at found
    split at found
    · cases found
    · rename_i different
      exact .inr ⟨found, by simpa using different⟩
  | refreshRevoked other | notRevoked other =>
    refine .inr ⟨found, ?_⟩
    intro same
    cases same
    cases other.symm.trans found
  | cleaned => exact .inr ⟨Dict.get?_filter_some found, by simp⟩
  | _ => exact .inr ⟨found, by simp⟩

theorem accessValid_iff {t : AccessToken} : t.isValid now = true ↔ now ≤ t.expiresAt := by
  simp [AccessToken.isValid, AccessToken.isExpired]

/-- An access token stands until it is revoked. -/
def accessLedger (env : Env) (fresh : Function.Injective env.tokenUrlsafe) :
    Ledger (step env) String AccessToken Time where
  Inv := AccessDrawn env
  clock i := i.now
  current t now := now ≤ t.expiresAt
  stands s token t := s.accessTokens.get? token = some t
  issued e token t := t.token = token ∧ issuedAccess e = some t
  ended e token := e.input.call = .revokeToken token
  inv_step _ i inv := accessDrawn_step i inv
  current_before _ _ _ earlier current := earlier.trans current
  stands_issued _ _ _ _ _ issued := issued.1 ▸ (access_issued issued.2).1
  stands_kept _ _ _ _ inv stands current kept :=
    access_kept fresh inv stands (accessValid_iff.mpr current) kept
  stands_born _ _ _ _ _ stands := access_stored stands

/-- An access token validates exactly when it was issued, is not past its lifetime, has not been
revoked since, and has the scopes asked for. -/
theorem access_token_validates_iff (fresh : Function.Injective env.tokenUrlsafe) (config : Config)
    (is : List Input) (now : Time) (past : ∀ i ∈ is, i.now ≤ now) (token : Arg String)
    (requiredScopes : Items (Arg String)) (t : AccessToken) :
    (step env (run (step env) (new config) is) ⟨now, .validateAccessToken token requiredScopes⟩).2 =
      .ok (.accessToken t) ↔
    ∃ l d l', trace (step env) (new config) is = l ++ d :: l' ∧ issuedAccess d = some t ∧
      now ≤ d.input.now + config.tokenLifetime ∧
      (∀ e ∈ l', e.input.call ≠ .revokeToken t.token) ∧ requireText "token" token = .ok t.token ∧
      ∃ scopes, normalizeScopes requiredScopes = .ok scopes ∧ scopes ⊆ t.scopes := by
  let L := accessLedger env fresh
  have start : L.Inv (new config) := accessDrawn_new
  have none : ∀ token t, ¬L.stands (new config) token t := by
    intro token t found
    cases found
  have dated : ∀ {l l' : List Event} {d : Event},
      trace (step env) (new config) is = l ++ d :: l' → issuedAccess d = some t →
      t.expiresAt = d.input.now + config.tokenLifetime := by
    intro l l' d split issued
    obtain ⟨before, _, -, -, entered, -⟩ := trace_split split
    rw [entered] at issued
    rw [(access_issued issued).2.2, configured]
  have answer : (step env (run (step env) (new config) is)
      ⟨now, .validateAccessToken token requiredScopes⟩).2 = .ok (.accessToken t) ↔
      (run (step env) (new config) is).validateAccessToken now token requiredScopes = .ok t := by
    simp only [step, perform, Method.run_bind, Method.run_read, Method.run_map, Method.run_check]
    cases (run (step env) (new config) is).validateAccessToken now token requiredScopes <;> simp
  rw [answer, validateAccessToken_ok]
  constructor
  · intro h
    obtain ⟨text, scopes, text_ok, scopes_ok, found, valid, sufficient⟩ := h
    obtain ⟨l, d, l', split, ⟨rfl, issued⟩, kept⟩ := L.standing_of_stands start none found
    refine ⟨l, d, l', split, issued, ?_, kept, text_ok, scopes, scopes_ok, ?_⟩
    · rw [← dated split issued]
      exact accessValid_iff.mp valid
    · rcases sufficient with rfl | sub
      · exact Finset.empty_subset _
      · exact sub
  · intro h
    obtain ⟨l, d, l', split, issued, current, kept, text_ok, scopes, scopes_ok, sub⟩ := h
    rw [← dated split issued] at current
    have found := L.stands_of_standing start past current ⟨l, d, l', split, ⟨rfl, issued⟩, kept⟩
    exact ⟨t.token, scopes, text_ok, scopes_ok, found, accessValid_iff.mpr current, .inr sub⟩

/-! ### The ledger of refresh tokens -/

/-- The refresh token stored beside an access token that links to it. -/
def linkedRefresh (s : OAuth2Provider) (now : Time) (t : AccessToken) : Option RefreshToken := do
  let token ← t.refreshToken
  let userId ← t.userId
  return { token, clientId := t.clientId, userId, scopes := t.scopes, createdAt := now
           expiresAt := now + s.config.refreshTokenLifetime }

/-- The refresh token that the call issued: without rotation, a refresh issues none. -/
def issuedRefresh (e : Event) : Option RefreshToken :=
  match e.input.call with
  | .refreshAccessToken .. =>
    if e.pre.config.enableTokenRotation then
      (issuedAccess e).bind (linkedRefresh e.pre e.input.now)
    else none
  | _ => (issuedAccess e).bind (linkedRefresh e.pre e.input.now)

/-- The call revokes the refresh token, or redeems it with rotation on. -/
def EndsRefresh (token : String) (e : Event) : Prop :=
  e.input.call = .revokeToken token ∨
    e.pre.config.enableTokenRotation = true ∧ redeemedToken e = some token

theorem issuedRefresh_none {e : Event} (none : issuedAccess e = none) : issuedRefresh e = .none := by
  unfold issuedRefresh
  rw [none]
  split
  · split <;> rfl
  · rfl

theorem refreshValid_iff {r : RefreshToken} :
    r.isValid now = true ↔ r.used = false ∧ now ≤ r.expiresAt := by
  simp [RefreshToken.isValid, RefreshToken.isExpired]

theorem refresh_kept (fresh : Function.Injective env.tokenUrlsafe) (inv : Apart env s) {i : Input}
    {token : String} {r : RefreshToken} (found : s.refreshTokens.get? token = some r)
    (valid : r.isValid i.now = true) (kept : ¬EndsRefresh token (entry (step env) s i)) :
    (step env s i).1.refreshTokens.get? token = some r := by
  have other : env.tokenUrlsafe (s.drawn + 1) ≠ token := by
    intro same
    exact not_drawn fresh (Nat.le_succ _) (same ▸ inv.refresh token r found)
  have outcome := step_outcome env s i
  obtain ⟨now, call⟩ := i
  rw [entry] at kept
  generalize (step env s ⟨now, call⟩).1 = post at outcome kept ⊢
  generalize (step env s ⟨now, call⟩).2 = reply at outcome kept
  cases outcome with
  | grantIssued => exact (Dict.get?_set_of_ne _ _ other).trans found
  | @rotated token' _ _ _ _ rotation =>
    have different : token' ≠ token := by
      rintro rfl
      exact kept (.inr ⟨rotation, rfl⟩)
    exact (Dict.get?_set_of_ne _ _ other).trans ((Dict.get?_set_of_ne _ _ different).trans found)
  | @refreshRevoked token' =>
    have different : token' ≠ token := by
      rintro rfl
      exact kept (.inl rfl)
    exact (Dict.get?_set_of_ne _ _ different).trans found
  | cleaned =>
    show (s.refreshTokens.filter fun _ r => r.isValid now).get? token = some r
    rw [Dict.get?_filter, found]
    exact if_pos valid
  | _ => exact found

theorem refresh_issued (users : UsersTrimmed s) {i : Input} {r : RefreshToken}
    (issued : issuedRefresh (entry (step env) s i) = some r) :
    (step env s i).1.refreshTokens.get? r.token = some r ∧ r.used = false ∧
      r.expiresAt = i.now + s.config.refreshTokenLifetime := by
  have outcome := step_outcome env s i
  obtain ⟨now, call⟩ := i
  rw [entry] at issued
  generalize (step env s ⟨now, call⟩).1 = post at outcome issued ⊢
  generalize (step env s ⟨now, call⟩).2 = reply at outcome issued
  cases outcome with
  | raised => cases (issuedRefresh_none (issuedAccess_error rfl)).symm.trans issued
  | answered _ _ reads => cases (issuedRefresh_none (issuedAccess_reads reads)).symm.trans issued
  | grantIssued _ _ _ token =>
    subst token
    obtain rfl := Option.some.inj issued
    exact ⟨Dict.get?_set_self _ _ _, rfl, rfl⟩
  | @rotated _ _ old user _ rotation accepted required token =>
    obtain ⟨_, _, _, -, present, -⟩ := refreshRequest_ok.mp accepted
    have same : user = old.userId := Except.ok.inj (required.symm.trans (users _ _ present))
    subst token same
    rw [issuedRefresh] at issued
    simp only [rotation, if_true] at issued
    obtain rfl := Option.some.inj issued
    exact ⟨Dict.get?_set_self _ _ _, rfl, rfl⟩
  | reissued fixed =>
    rw [issuedRefresh] at issued
    simp [fixed] at issued
  | _ => cases issued

theorem unused_elsewhere {tokens : Dict String RefreshToken} {marked token : String}
    {old r : RefreshToken} (found : (tokens.set marked { old with used := true }).get? token = some r)
    (unused : r.used = false) : tokens.get? token = some r ∧ marked ≠ token := by
  by_cases same : marked = token
  · rw [same, Dict.get?_set_self] at found
    cases found
    cases unused
  · rw [Dict.get?_set_of_ne _ _ same] at found
    exact ⟨found, same⟩

theorem refresh_found (users : UsersTrimmed s) (inv : Apart env s) {i : Input} {token : String}
    {r : RefreshToken} (found : (step env s i).1.refreshTokens.get? token = some r)
    (unused : r.used = false) :
    r.token = token ∧ issuedRefresh (entry (step env) s i) = some r ∨
      s.refreshTokens.get? token = some r ∧ ¬EndsRefresh token (entry (step env) s i) := by
  have outcome := step_outcome env s i
  obtain ⟨now, call⟩ := i
  rw [entry]
  generalize (step env s ⟨now, call⟩).1 = post at outcome found ⊢
  generalize (step env s ⟨now, call⟩).2 = reply at outcome ⊢
  cases outcome with
  | raised _ _ refused =>
    refine .inr ⟨found, ?_⟩
    rintro (same | ⟨-, redeemed⟩)
    · cases same
      cases refused
    · cases call <;> cases redeemed
  | answered _ _ reads =>
    refine .inr ⟨found, ?_⟩
    rintro (same | ⟨-, redeemed⟩)
    · cases same
      cases reads
    · cases call <;> first | (cases redeemed; done) | cases reads
  | grantIssued _ _ _ token =>
    subst token
    rcases Dict.get?_set_some found with ⟨rfl, rfl⟩ | before
    · exact .inl ⟨rfl, rfl⟩
    · exact .inr ⟨before, by simp [EndsRefresh, redeemedToken]⟩
  | @rotated token' _ old user _ rotation accepted required token_eq =>
    obtain ⟨_, _, _, -, present, -⟩ := refreshRequest_ok.mp accepted
    have same : user = old.userId := Except.ok.inj (required.symm.trans (users _ _ present))
    subst token_eq same
    rcases Dict.get?_set_some found with ⟨rfl, rfl⟩ | before
    · exact .inl ⟨rfl, by simp [issuedRefresh, rotation, issuedAccess, linkedRefresh, newAccessToken,
        newRefreshToken]⟩
    · obtain ⟨before, different⟩ := unused_elsewhere before unused
      exact .inr ⟨before, by simp [EndsRefresh, redeemedToken, different]⟩
  | reissued fixed => exact .inr ⟨found, by simp [EndsRefresh, fixed]⟩
  | accessRevoked present =>
    refine .inr ⟨found, ?_⟩
    rintro (same | ⟨-, redeemed⟩)
    · cases same
      cases (inv.apart _ _ found).symm.trans present
    · cases redeemed
  | refreshRevoked =>
    obtain ⟨before, different⟩ := unused_elsewhere found unused
    exact .inr ⟨before, by simp [EndsRefresh, redeemedToken, different]⟩
  | @notRevoked token' _ absent =>
    refine .inr ⟨found, ?_⟩
    rintro (same | ⟨-, redeemed⟩)
    · cases same
      cases absent.symm.trans found
    · cases redeemed
  | cleaned => exact .inr ⟨Dict.get?_filter_some found, by simp [EndsRefresh, redeemedToken]⟩
  | _ => exact .inr ⟨found, by simp [EndsRefresh, redeemedToken]⟩

structure RefreshTables (env : Env) (s : OAuth2Provider) : Prop where
  apart : Apart env s
  users : UsersTrimmed s

theorem refreshTables_step (fresh : Function.Injective env.tokenUrlsafe) (i : Input)
    (inv : RefreshTables env s) : RefreshTables env (step env s i).1 :=
  ⟨apart_step fresh i inv.apart, usersTrimmed_step i inv.users⟩

/-- A refresh token stands until it is revoked or, with rotation on, redeemed. -/
def refreshLedger (env : Env) (fresh : Function.Injective env.tokenUrlsafe) :
    Ledger (step env) String RefreshToken Time where
  Inv := RefreshTables env
  clock i := i.now
  current r now := now ≤ r.expiresAt
  stands s token r := s.refreshTokens.get? token = some r ∧ r.used = false
  issued e token r := r.token = token ∧ issuedRefresh e = some r
  ended e token := EndsRefresh token e
  inv_step _ i inv := refreshTables_step fresh i inv
  current_before _ _ _ earlier current := earlier.trans current
  stands_issued _ _ _ _ inv issued :=
    ⟨issued.1 ▸ (refresh_issued inv.users issued.2).1, (refresh_issued inv.users issued.2).2.1⟩
  stands_kept _ _ _ _ inv stands current kept :=
    ⟨refresh_kept fresh inv.apart stands.1 (refreshValid_iff.mpr ⟨stands.2, current⟩) kept, stands.2⟩
  stands_born _ _ _ _ inv stands :=
    (refresh_found inv.users inv.apart stands.1 stands.2).imp_right fun before =>
      ⟨⟨before.1, stands.2⟩, before.2⟩

/-- The access token that redeeming `old` returns. -/
def redeemedFor (env : Env) (s : OAuth2Provider) (now : Time) (old : RefreshToken) : AccessToken :=
  s.newAccessToken env now old.clientId (some old.userId) old.scopes
    (some (if s.config.enableTokenRotation then env.tokenUrlsafe (s.drawn + 1) else old.token))

theorem refreshAccessToken_returns {token : String} {clientId : Arg String} {t : AccessToken} :
    (step env s ⟨now, .refreshAccessToken token clientId⟩).2 = .ok (.accessToken t) ↔
      ∃ old, s.refreshRequest now token clientId = .ok old ∧ t = redeemedFor env s now old := by
  have outcome := step_outcome env s ⟨now, .refreshAccessToken token clientId⟩
  generalize (step env s ⟨now, .refreshAccessToken token clientId⟩).1 = post at outcome
  generalize (step env s ⟨now, .refreshAccessToken token clientId⟩).2 = reply at outcome ⊢
  cases outcome with
  | raised _ error refused =>
    refine iff_of_false (by simp) ?_
    rintro ⟨old, accepted, -⟩
    simp only [checks] at refused
    rw [accepted] at refused
    cases refused
  | answered _ _ reads => cases reads
  | rotated rotation accepted _ token_eq =>
    simp only [accepted, Except.ok.injEq, exists_eq_left', Reply.accessToken.injEq, token_eq,
      redeemedFor, rotation, if_true]
    exact eq_comm
  | reissued fixed accepted token_eq =>
    simp only [accepted, Except.ok.injEq, exists_eq_left', Reply.accessToken.injEq, token_eq,
      redeemedFor, fixed, Bool.false_eq_true, if_false]
    exact eq_comm

/-- The user of the token is registered and active, and its client still takes refresh tokens. -/
def Redeemable (s : OAuth2Provider) (r : RefreshToken) : Prop :=
  (∃ client ∈ s.clients.get? r.clientId, supportsRefreshGrant client = true) ∧
    ∃ user ∈ s.users.get? r.userId, user.isActive = true

theorem getActiveUser_trimmed {r : RefreshToken} (trimmed : TrimmedUser r) :
    (∃ user, s.getActiveUser r.userId = .ok user) ↔
      ∃ user ∈ s.users.get? r.userId, user.isActive = true := by
  constructor
  · intro h
    obtain ⟨user, found⟩ := h
    obtain ⟨text, text_ok, present, active⟩ := getActiveUser_ok.mp found
    obtain rfl : r.userId = text := Except.ok.inj (trimmed.symm.trans text_ok)
    exact ⟨user, present, active⟩
  · intro h
    obtain ⟨user, present, active⟩ := h
    exact ⟨user, getActiveUser_ok.mpr ⟨r.userId, trimmed, present, active⟩⟩

/-- A refresh token is redeemed exactly when it was issued, is not past its lifetime, has been
neither revoked nor, with rotation on, redeemed since, and its client and user still qualify. -/
theorem refresh_token_redeems_iff (fresh : Function.Injective env.tokenUrlsafe) (config : Config)
    (is : List Input) (now : Time) (past : ∀ i ∈ is, i.now ≤ now) (token : String)
    (clientId : Arg String) (t : AccessToken) :
    let s := run (step env) (new config) is
    (step env s ⟨now, .refreshAccessToken token clientId⟩).2 = .ok (.accessToken t) ↔
    ∃ l d l' r, trace (step env) (new config) is = l ++ d :: l' ∧ issuedRefresh d = some r ∧
      r.token = token ∧ now ≤ d.input.now + config.refreshTokenLifetime ∧
      (∀ e ∈ l', ¬EndsRefresh token e) ∧ requireText "client_id" clientId = .ok r.clientId ∧
      Redeemable s r ∧ t = redeemedFor env s now r := by
  intro s
  let L := refreshLedger env fresh
  have start : L.Inv (new config) := ⟨apart_new, usersTrimmed_new⟩
  have none : ∀ token r, ¬L.stands (new config) token r := by
    rintro token r ⟨found, -⟩
    cases found
  have users : UsersTrimmed s := (L.inv_run start is).users
  have dated : ∀ {l l' : List Event} {d : Event} {r : RefreshToken},
      trace (step env) (new config) is = l ++ d :: l' → issuedRefresh d = some r →
      r.expiresAt = d.input.now + config.refreshTokenLifetime := by
    intro l l' d r split issued
    obtain ⟨before, _, -, -, entered, -⟩ := trace_split split
    rw [entered] at issued
    rw [(refresh_issued (L.inv_run start before).users issued).2.2, configured]
  rw [refreshAccessToken_returns]
  constructor
  · intro h
    obtain ⟨r, accepted, returned⟩ := h
    obtain ⟨id, client, user, client_ok, found, valid, rfl, known, grants, active⟩ :=
      refreshRequest_ok.mp accepted
    obtain ⟨unused, current⟩ := refreshValid_iff.mp valid
    obtain ⟨l, d, l', split, ⟨same, issued⟩, kept⟩ :=
      L.standing_of_stands start none ⟨found, unused⟩
    have qualified : Redeemable s r :=
      ⟨⟨client, known, grants⟩, (getActiveUser_trimmed (users _ _ found)).mp ⟨user, active⟩⟩
    exact ⟨l, d, l', r, split, issued, same, dated split issued ▸ current, kept, client_ok, qualified,
      returned⟩
  · intro h
    obtain ⟨l, d, l', r, split, issued, same, current, kept, client_ok, qualified, returned⟩ := h
    rw [← dated split issued] at current
    obtain ⟨found, unused⟩ :=
      L.stands_of_standing start past current ⟨l, d, l', split, ⟨same, issued⟩, kept⟩
    obtain ⟨⟨client, known, grants⟩, present⟩ := qualified
    obtain ⟨user, active⟩ := (getActiveUser_trimmed (users _ _ found)).mpr present
    exact ⟨r, refreshRequest_ok.mpr ⟨r.clientId, client, user, client_ok, found,
      refreshValid_iff.mpr ⟨unused, current⟩, rfl, known, grants, active⟩, returned⟩

/-! ### A run -/

/-- A grant whose refresh token is redeemed, and whose first access token stays. -/
def refreshedRun : List Input :=
  [⟨0, .registerClient (.ok "app") (.ok "secret") (.items [.ok "https://app"])
      (.items [.ok "read"]) (.items [.member .authorizationCode]) (.ok true)⟩,
    ⟨0, .registerUser (.ok "ann") (.ok "Ann") (.ok "ann@example.org") (.ok false)⟩,
    ⟨1, .generateAccessToken (.ok "app") (some "ann") (.items [.ok "read"]) .authorizationCode⟩,
    ⟨2, .refreshAccessToken "ta" (.ok "app")⟩]

theorem refreshedRun_past (now : Time) (later : 2 ≤ now) : ∀ i ∈ refreshedRun, i.now ≤ now := by
  have early : ∀ i ∈ refreshedRun, i.now ≤ 2 := by decide +kernel
  intro i mem
  exact (early i mem).trans later

/-- The access token `t` outlives the redemption of its refresh token, up to its last second. -/
theorem refreshedRun_access :
    ∃ l d l', trace (step sampleEnv) (new sampleConfig) refreshedRun = l ++ d :: l' ∧
      issuedAccess d = some (AccessToken.mk "t" .bearer "app" (some "ann") {"read"} 3601 1 (some "ta")) ∧
      (3601 : Time) ≤ d.input.now + sampleConfig.tokenLifetime ∧
      (∀ e ∈ l', e.input.call ≠ .revokeToken "t") ∧ requireText "token" (.ok "t") = .ok "t" ∧
      ∃ scopes, normalizeScopes .absent = .ok scopes ∧ scopes ⊆ {"read"} :=
  (access_token_validates_iff sampleEnv_fresh sampleConfig refreshedRun 3601
    (refreshedRun_past 3601 (by decide +kernel)) (.ok "t") .absent _).mp (by decide +kernel)

theorem refreshedRun_redeems :
    let s := run (step sampleEnv) (new sampleConfig) refreshedRun
    ∃ l d l' r, trace (step sampleEnv) (new sampleConfig) refreshedRun = l ++ d :: l' ∧
      issuedRefresh d = some r ∧ r.token = "taaa" ∧
      (3 : Time) ≤ d.input.now + sampleConfig.refreshTokenLifetime ∧
      (∀ e ∈ l', ¬EndsRefresh "taaa" e) ∧ requireText "client_id" (.ok "app") = .ok r.clientId ∧
      Redeemable s r ∧ AccessToken.mk "taaaa" .bearer "app" (some "ann") {"read"} 3603 3 (some "taaaaa") =
        redeemedFor sampleEnv s 3 r :=
  (refresh_token_redeems_iff sampleEnv_fresh sampleConfig refreshedRun 3
    (refreshedRun_past 3 (by decide +kernel)) "taaa" (.ok "app") _).mp (by decide +kernel)

end BtApiSecurity.OAuth.OAuth2Provider
