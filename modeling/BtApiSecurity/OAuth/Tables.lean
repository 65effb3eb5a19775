import BtApiSecurity.OAuth.Steps

/-!
# The token tables

What a step may put into the tables of access and refresh tokens, with rotation
on or off, and what therefore holds of every stored token.
-/

namespace BtApiSecurity.OAuth.OAuth2Provider
open Py Machine

variable {env : Env} {s : OAuth2Provider}

def grantOf (t : RefreshToken) : String × String × Finset String := (t.clientId, t.userId, t.scopes)

def TrimmedUser (t : RefreshToken) : Prop := requireText "user_id" (.ok t.userId) = .ok t.userId

theorem access_lookup {i : Input} {token : String} {t : AccessToken}
    (found : (step env s i).1.accessTokens.get? token = some t) :
    s.accessTokens.get? token = some t ∨
      token = env.tokenUrlsafe s.drawn ∧ s.drawn < (step env s i).1.drawn := by
  have outcome := step_outcome env s i
  obtain ⟨now, call⟩ := i
  generalize (step env s ⟨now, call⟩).1 = post at outcome found ⊢
  generalize (step env s ⟨now, call⟩).2 = reply at outcome
  cases outcome with
  | tokenIssued =>
    rcases Dict.get?_set_some found with ⟨rfl, rfl⟩ | before
    · exact .inr ⟨rfl, Nat.lt_succ_self _⟩
    · exact .inl before
  | reissued _ _ token_eq =>
    rcases Dict.get?_set_some found with ⟨rfl, rfl⟩ | before
    · exact .inr ⟨by rw [token_eq]; rfl, Nat.lt_succ_self _⟩
    · exact .inl before
  | grantIssued _ _ _ token_eq | rotated _ _ _ token_eq =>
    rcases Dict.get?_set_some found with ⟨rfl, rfl⟩ | before
    · exact .inr ⟨by rw [token_eq]; rfl, Nat.lt_add_of_pos_right (by decide)⟩
    · exact .inl before
  | accessRevoked =>
    rw [Dict.get?_erase] at found
    split at found
    · cases found
    · exact .inl found
  | cleaned => exact .inl (Dict.get?_filter_some found)
  | _ => exact .inl found

/-- A stored refresh token was stored before, is the one just issued, or was marked used. -/
theorem refresh_stored {i : Input} {token : String} {t : RefreshToken}
    (found : (step env s i).1.refreshTokens.get? token = some t) :
    s.refreshTokens.get? token = some t ∨
    (token = env.tokenUrlsafe (s.drawn + 1) ∧ (step env s i).1.drawn = s.drawn + 2 ∧
      t.token = token ∧ t.used = false ∧ TrimmedUser t) ∨
    ∃ old, s.refreshTokens.get? token = some old ∧ t = { old with used := true } := by
  have outcome := step_outcome env s i
  obtain ⟨now, call⟩ := i
  generalize (step env s ⟨now, call⟩).1 = post at outcome found ⊢
  generalize (step env s ⟨now, call⟩).2 = reply at outcome
  cases outcome with
  | grantIssued _ trimmed =>
    rcases Dict.get?_set_some found with ⟨rfl, rfl⟩ | before
    · exact .inr (.inl ⟨rfl, rfl, rfl, rfl, trimmed⟩)
    · exact .inl before
  | rotated _ accepted required =>
    obtain ⟨_, _, _, -, present, -⟩ := refreshRequest_ok.mp accepted
    rcases Dict.get?_set_some found with ⟨rfl, rfl⟩ | before
    · exact .inr (.inl ⟨rfl, rfl, rfl, rfl, requireText_again required⟩)
    · rcases Dict.get?_set_some before with ⟨rfl, rfl⟩ | before
      · exact .inr (.inr ⟨_, present, rfl⟩)
      · exact .inl before
  | refreshRevoked _ present =>
    rcases Dict.get?_set_some found with ⟨rfl, rfl⟩ | before
    · exact .inr (.inr ⟨_, present, rfl⟩)
    · exact .inl before
  | cleaned => exact .inl (Dict.get?_filter_some found)
  | _ => exact .inl found

theorem step_config (i : Input) : (step env s i).1.config = s.config := by
  have outcome := step_outcome env s i
  obtain ⟨now, call⟩ := i
  generalize (step env s ⟨now, call⟩).1 = post at outcome ⊢
  generalize (step env s ⟨now, call⟩).2 = reply at outcome
  cases outcome <;> rfl

theorem validateAccessToken_ok {now : Time} {token : Arg String} {required : Items (Arg String)}
    {t : AccessToken} :
    s.validateAccessToken now token required = .ok t ↔
      ∃ text scopes, requireText "token" token = .ok text ∧ normalizeScopes required = .ok scopes ∧
        s.accessTokens.get? text = some t ∧ t.isValid now = true ∧
        (scopes = ∅ ∨ scopes ⊆ t.scopes) := by
  simp only [validateAccessToken, check_bind_ok, orRaise_ok, ensure_ok, pure_ok]
  constructor
  · rintro ⟨text, text_ok, scopes, scopes_ok, t, found, _, valid, _, sufficient, rfl⟩
    exact ⟨text, scopes, text_ok, scopes_ok, found, valid, sufficient⟩
  · rintro ⟨text, scopes, text_ok, scopes_ok, found, valid, sufficient⟩
    exact ⟨text, text_ok, scopes, scopes_ok, t, found, ⟨⟩, valid, ⟨⟩, sufficient, rfl⟩

/-! ### Users -/

def UsersTrimmed (s : OAuth2Provider) : Prop :=
  ∀ token t, s.refreshTokens.get? token = some t →
    requireText "user_id" (.ok t.userId) = .ok t.userId

theorem usersTrimmed_step (i : Input) (inv : UsersTrimmed s) : UsersTrimmed (step env s i).1 := by
  intro token t found
  rcases refresh_stored found with before | ⟨-, -, -, -, trimmed⟩ | ⟨old, before, rfl⟩
  · exact inv token t before
  · exact trimmed
  · exact inv token old before

theorem usersTrimmed_new {config : Config} : UsersTrimmed (new config) := by
  simp [UsersTrimmed, new]

/-! ### Strings -/

def AccessDrawn (env : Env) (s : OAuth2Provider) : Prop :=
  ∀ token t, s.accessTokens.get? token = some t → Drawn env s token

theorem accessDrawn_step (i : Input) (inv : AccessDrawn env s) : AccessDrawn env (step env s i).1 := by
  intro token t found
  rcases access_lookup found with before | ⟨rfl, lt⟩
  · exact drawn_mono (outcome_drawn (step_outcome env s i)) (inv token t before)
  · exact ⟨s.drawn, lt, rfl⟩

theorem accessDrawn_new {config : Config} : AccessDrawn env (new config) := by
  simp [AccessDrawn, new]

/-- Stored tokens were drawn, and no string is both an access and a refresh token. -/
structure Apart (env : Env) (s : OAuth2Provider) : Prop where
  access : ∀ token t, s.accessTokens.get? token = some t → Drawn env s token
  refresh : ∀ token t, s.refreshTokens.get? token = some t → Drawn env s token
  apart : ∀ token t, s.refreshTokens.get? token = some t → s.accessTokens.get? token = none

theorem apart_step (fresh : Function.Injective env.tokenUrlsafe) (i : Input) (inv : Apart env s) :
    Apart env (step env s i).1 := by
  have le := outcome_drawn (step_outcome env s i)
  refine ⟨accessDrawn_step i inv.access, ?_, ?_⟩
  · intro token t found
    rcases refresh_stored found with before | ⟨rfl, next, -⟩ | ⟨old, before, -⟩
    · exact drawn_mono le (inv.refresh token t before)
    · exact ⟨s.drawn + 1, by omega, rfl⟩
    · exact drawn_mono le (inv.refresh token old before)
  · intro token t found
    have stored : s.accessTokens.get? token = none ∧ token ≠ env.tokenUrlsafe s.drawn := by
      rcases refresh_stored found with before | ⟨rfl, -⟩ | ⟨old, before, -⟩
      · exact ⟨inv.apart token t before,
          fun same => not_drawn fresh le_rfl (same ▸ inv.refresh token t before)⟩
      · constructor
        · cases absent : s.accessTokens.get? (env.tokenUrlsafe (s.drawn + 1)) with
          | none => rfl
          | some t' => exact absurd (inv.access _ t' absent) (not_drawn fresh (Nat.le_succ _))
        · intro same
          have := fresh same
          omega
      · exact ⟨inv.apart token old before,
          fun same => not_drawn fresh le_rfl (same ▸ inv.refresh token old before)⟩
    cases other : (step env s i).1.accessTokens.get? token with
    | none => rfl
    | some t' =>
      rcases access_lookup other with before | ⟨same, -⟩
      · rw [stored.1] at before
        cases before
      · exact absurd same stored.2

theorem apart_new {config : Config} : Apart env (new config) :=
  ⟨by simp [new], by simp [new], by simp [new]⟩

theorem apart_run (fresh : Function.Injective env.tokenUrlsafe) (config : Config)
    (is : List Input) : Apart env (run (step env) (new config) is) :=
  run_invariant apart_new fun _ i => apart_step fresh i

end BtApiSecurity.OAuth.OAuth2Provider
