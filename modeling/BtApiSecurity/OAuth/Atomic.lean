import BtApiSecurity.OAuth.Tables

/-!
# Calls that raise

A method may write before it raises. None of the provider's does: a call that
raises leaves every table as it was, and a refresh token that a refresh marks as
used has a stored successor.
-/

namespace BtApiSecurity.OAuth.OAuth2Provider
open Py Machine

variable {env : Env} {s : OAuth2Provider}

/-- The call returned an access token with a new, unused refresh token that grants what `old` did. -/
def Succeeded (after : OAuth2Provider) (reply : Except OAuthError Reply) (old : RefreshToken) : Prop :=
  ∃ access next, reply = .ok (.accessToken access) ∧ access.refreshToken = some next.token ∧
    after.accessTokens.get? access.token = some access ∧
    after.refreshTokens.get? next.token = some next ∧ next.used = false ∧ grantOf next = grantOf old

theorem refresh_succeeds (trimmed : UsersTrimmed s) {now : Time} {refreshToken token : String}
    {clientId : Arg String} {old t : RefreshToken}
    (found : s.refreshTokens.get? token = some old) (unused : old.used = false)
    (found' : (step env s ⟨now, .refreshAccessToken refreshToken clientId⟩).1.refreshTokens.get? token =
      some t)
    (used : t.used = true) :
    Succeeded (step env s ⟨now, .refreshAccessToken refreshToken clientId⟩).1
      (step env s ⟨now, .refreshAccessToken refreshToken clientId⟩).2 old := by
  have unchanged : s.refreshTokens.get? token ≠ some t := by
    intro same
    obtain rfl := Option.some.inj (found.symm.trans same)
    simp [unused] at used
  have outcome := step_outcome env s ⟨now, .refreshAccessToken refreshToken clientId⟩
  generalize (step env s ⟨now, .refreshAccessToken refreshToken clientId⟩).1 = post at *
  generalize (step env s ⟨now, .refreshAccessToken refreshToken clientId⟩).2 = reply at *
  cases outcome with
  | raised => exact absurd found' unchanged
  | answered _ _ reads => cases reads
  | reissued => exact absurd found' unchanged
  | @rotated _ _ presented user access _ accepted required issued =>
    obtain ⟨_, _, _, -, present, -⟩ := refreshRequest_ok.mp accepted
    have same_user : user = presented.userId :=
      Except.ok.inj (required.symm.trans (trimmed _ _ present))
    have marked : (s.withUsed refreshToken presented).refreshTokens.get? token = some t := by
      rcases Dict.get?_set_some found' with ⟨-, rfl⟩ | before
      · cases used
      · exact before
    obtain rfl : presented = old := by
      rcases Dict.get?_set_some marked with ⟨rfl, -⟩ | before
      · exact Option.some.inj (present.symm.trans found)
      · exact absurd before unchanged
    refine ⟨access, s.newRefreshToken env now presented.clientId user presented.scopes, rfl, ?_, ?_,
      ?_, rfl, ?_⟩
    · rw [issued]
      rfl
    · exact Dict.get?_set_self _ _ _
    · exact Dict.get?_set_self _ _ _
    · rw [same_user]
      rfl

/-- In every reachable state, a call that raises changes none of the tables; and a refresh that
marks a refresh token as used has issued its successor. -/
theorem raising_calls_change_nothing (env : Env) (config : Config) (is : List Input) (i : Input) :
    let s := run (step env) (new config) is
    let after := (step env s i).1
    let reply := (step env s i).2
    (∀ error, reply = .error error →
      after.clients = s.clients ∧ after.users = s.users ∧ after.authCodes = s.authCodes ∧
      after.accessTokens = s.accessTokens ∧ after.refreshTokens = s.refreshTokens) ∧
    ∀ refreshToken clientId, i.call = .refreshAccessToken refreshToken clientId →
      ∀ token old t, s.refreshTokens.get? token = some old → old.used = false →
      after.refreshTokens.get? token = some t → t.used = true → Succeeded after reply old := by
  have trimmed : UsersTrimmed (run (step env) (new config) is) :=
    run_invariant usersTrimmed_new fun _ i => usersTrimmed_step i
  refine ⟨?_, ?_⟩
  · intro error raised
    rw [raised_unchanged raised]
    exact ⟨rfl, rfl, rfl, rfl, rfl⟩
  · intro refreshToken clientId call token old t found unused found' used
    obtain ⟨now, _⟩ := i
    cases call
    exact refresh_succeeds trimmed found unused found' used

end BtApiSecurity.OAuth.OAuth2Provider
