import BtApiSecurity.OAuth.Issue

/-!
# What a provider stores

Every record is kept under its own string and is of a client that is registered.
A refresh token grants what the access token that names it grants.
-/

namespace BtApiSecurity.OAuth.OAuth2Provider
open Py Machine

variable {env : Env} {s s' : OAuth2Provider} {now : Time}

def Registered (s : OAuth2Provider) (clientId : String) : Prop :=
  ∃ client, s.clients.get? clientId = some client

def UserKnown (s : OAuth2Provider) (userId : String) : Prop :=
  ∃ user, s.users.get? userId = some user

structure CodeSound (s : OAuth2Provider) (text : String) (c : AuthorizationCode) : Prop where
  string : c.code = text
  client : Registered s c.clientId
  user : UserKnown s c.userId

structure AccessSound (s : OAuth2Provider) (text : String) (t : AccessToken) : Prop where
  string : t.token = text
  client : Registered s t.clientId

structure RefreshSound (s : OAuth2Provider) (text : String) (r : RefreshToken) : Prop where
  string : r.token = text
  client : Registered s r.clientId

/-- The access token names the refresh token of `r` only if both grant the same. -/
def Linked (t : AccessToken) (text : String) (r : RefreshToken) : Prop :=
  t.refreshToken = some text →
    r.clientId = t.clientId ∧ t.userId = some r.userId ∧ r.scopes = t.scopes

structure Sound (s : OAuth2Provider) : Prop where
  clients : s.clients.Every fun id client => client.clientId = id
  users : s.users.Every fun id user => user.userId = id
  codes : s.authCodes.Every (CodeSound s)
  access : s.accessTokens.Every (AccessSound s)
  refresh : s.refreshTokens.Every (RefreshSound s)
  linked : s.accessTokens.Every fun _ t => s.refreshTokens.Every (Linked t)

/-! ### What only grows -/

structure Grows (s s' : OAuth2Provider) : Prop where
  clients : ∀ id, Registered s id → Registered s' id
  users : ∀ id, UserKnown s id → UserKnown s' id

theorem CodeSound.grows {text : String} {c : AuthorizationCode} (grows : Grows s s')
    (sound : CodeSound s text c) : CodeSound s' text c :=
  ⟨sound.string, grows.clients _ sound.client, grows.users _ sound.user⟩

theorem AccessSound.grows {text : String} {t : AccessToken} (grows : Grows s s')
    (sound : AccessSound s text t) : AccessSound s' text t :=
  ⟨sound.string, grows.clients _ sound.client⟩

theorem RefreshSound.grows {text : String} {r : RefreshToken} (grows : Grows s s')
    (sound : RefreshSound s text r) : RefreshSound s' text r :=
  ⟨sound.string, grows.clients _ sound.client⟩

/-- A call changes no record of a user, or one, which it leaves under its string. -/
theorem users_effect (env : Env) (s : OAuth2Provider) (i : Input) :
    (step env s i).1.users = s.users ∨
      ∃ id user, (step env s i).1.users = s.users.set id user ∧
        (user.userId = id ∨ ∃ old, s.users.get? id = some old ∧ user.userId = old.userId) := by
  have outcome := step_outcome env s i
  obtain ⟨now, call⟩ := i
  by_cases sets : ∃ userId active, call = .setActive userId active
  · obtain ⟨userId, active, rfl⟩ := sets
    cases present : s.users.get? userId with
    | none =>
      left
      simp only [step, perform, setActive, Method.run_map, Method.run_update, present]
    | some user =>
      right
      refine ⟨userId, { user with isActive := active }, ?_, .inr ⟨user, present, rfl⟩⟩
      simp only [step, perform, setActive, Method.run_map, Method.run_update, present]
  · generalize (step env s ⟨now, call⟩).1 = post at outcome ⊢
    generalize (step env s ⟨now, call⟩).2 = reply at outcome
    cases outcome with
    | userRegistered => exact .inr ⟨_, _, rfl, .inl rfl⟩
    | activitySet => exact absurd ⟨_, _, rfl⟩ sets
    | _ => exact .inl rfl

theorem set_known {α : Type} {d : Dict String α} {id id' : String} {x : α}
    (known : ∃ y, d.get? id = some y) : ∃ y, (d.set id' x).get? id = some y := by
  rw [Dict.get?_set]
  split
  · exact ⟨x, rfl⟩
  · exact known

theorem clients_effect (env : Env) (s : OAuth2Provider) (i : Input) :
    (step env s i).1.clients = s.clients ∨
      ∃ client, (step env s i).1.clients = s.clients.set client.clientId client := by
  have outcome := step_outcome env s i
  obtain ⟨now, call⟩ := i
  generalize (step env s ⟨now, call⟩).1 = post at outcome ⊢
  generalize (step env s ⟨now, call⟩).2 = reply at outcome
  cases outcome with
  | clientRegistered => exact .inr ⟨_, rfl⟩
  | _ => exact .inl rfl

theorem grows_step (env : Env) (s : OAuth2Provider) (i : Input) : Grows s (step env s i).1 := by
  refine ⟨?_, ?_⟩
  · intro id known
    unfold Registered
    rcases clients_effect env s i with same | ⟨client, set⟩
    · rw [same]
      exact known
    · rw [set]
      exact set_known known
  · intro id known
    unfold UserKnown
    rcases users_effect env s i with same | ⟨id', user, set, -⟩
    · rw [same]
      exact known
    · rw [set]
      exact set_known known

/-! ### What a call stores -/

theorem codes_effect (env : Env) (s : OAuth2Provider) (i : Input)
    (sound : s.authCodes.Every (CodeSound s)) : (step env s i).1.authCodes.Every (CodeSound s) := by
  have outcome := step_outcome env s i
  obtain ⟨now, call⟩ := i
  generalize (step env s ⟨now, call⟩).1 = post at outcome ⊢
  generalize (step env s ⟨now, call⟩).2 = reply at outcome
  cases outcome with
  | codeIssued accepted =>
    obtain ⟨_, _, _, _, client, user, -, -, -, -, known, present, -, -, -, -, rfl⟩ :=
      authorizationRequest_ok accepted
    exact sound.set ⟨rfl, ⟨client, known⟩, ⟨user, present⟩⟩
  | codeAccepted accepted =>
    obtain ⟨_, _, _, _, -, -, -, -, found, -⟩ := authorizationGrant_ok.mp accepted
    obtain ⟨string, client, user⟩ := sound _ _ found
    exact sound.set ⟨string, client, user⟩
  | cleaned => exact sound.filter _
  | _ => exact sound

theorem refresh_known {refreshToken : String} {clientId : Arg String} {old : RefreshToken}
    (accepted : s.refreshRequest now refreshToken clientId = .ok old) : Registered s old.clientId := by
  obtain ⟨id, client, _, -, -, -, rfl, known, -⟩ := refreshRequest_ok.mp accepted
  exact ⟨client, known⟩

theorem token_known {clientId : Arg String} {userId user : Option String}
    {scopes : Items (Arg String)} {grantType : GrantType} {id : String} {granted : Finset String}
    (accepted : s.tokenRequest clientId userId scopes grantType = .ok (id, user, granted)) :
    Registered s id := by
  obtain ⟨client, -, -, known, -⟩ := tokenRequest_ok accepted
  exact ⟨client, known⟩

theorem access_effect (env : Env) (s : OAuth2Provider) (i : Input)
    (sound : s.accessTokens.Every (AccessSound s)) :
    (step env s i).1.accessTokens.Every (AccessSound s) := by
  have outcome := step_outcome env s i
  obtain ⟨now, call⟩ := i
  generalize (step env s ⟨now, call⟩).1 = post at outcome ⊢
  generalize (step env s ⟨now, call⟩).2 = reply at outcome
  cases outcome with
  | tokenIssued accepted => exact sound.set ⟨rfl, token_known accepted⟩
  | grantIssued accepted _ _ token =>
    subst token
    exact sound.set ⟨rfl, token_known accepted⟩
  | rotated _ accepted _ token | reissued _ accepted token =>
    subst token
    exact sound.set ⟨rfl, refresh_known accepted⟩
  | accessRevoked => exact sound.erase _
  | cleaned => exact sound.filter _
  | _ => exact sound

theorem used_sound {text : String} {old : RefreshToken} (sound : s.refreshTokens.Every (RefreshSound s))
    (found : s.refreshTokens.get? text = some old) :
    (s.refreshTokens.set text { old with used := true }).Every (RefreshSound s) := by
  obtain ⟨string, client⟩ := sound text old found
  exact sound.set ⟨string, client⟩

theorem refreshes_effect (env : Env) (s : OAuth2Provider) (i : Input)
    (sound : s.refreshTokens.Every (RefreshSound s)) :
    (step env s i).1.refreshTokens.Every (RefreshSound s) := by
  have outcome := step_outcome env s i
  obtain ⟨now, call⟩ := i
  generalize (step env s ⟨now, call⟩).1 = post at outcome ⊢
  generalize (step env s ⟨now, call⟩).2 = reply at outcome
  cases outcome with
  | grantIssued accepted => exact sound.set ⟨rfl, token_known accepted⟩
  | rotated _ accepted =>
    obtain ⟨_, _, _, -, found, -⟩ := refreshRequest_ok.mp accepted
    have known := refresh_known accepted
    exact (used_sound sound found).set ⟨rfl, known⟩
  | refreshRevoked _ found => exact used_sound sound found
  | cleaned => exact sound.filter _
  | _ => exact sound

/-! ### Links -/

def Links (tokens : Dict String AccessToken) (refreshes : Dict String RefreshToken) : Prop :=
  tokens.Every fun _ t => refreshes.Every (Linked t)

variable {tokens : Dict String AccessToken} {refreshes : Dict String RefreshToken} {t : AccessToken}
  {r : RefreshToken} {text : String}

theorem Links.used (links : Links tokens refreshes) (found : refreshes.get? text = some r) :
    Links tokens (refreshes.set text { r with used := true }) := by
  intro text' t stored
  have linked := links text' t stored
  have same := linked text r found
  exact linked.set same

/-- A refresh token under a new string, and the access token that names it. -/
theorem Links.grant (links : Links tokens refreshes)
    (unnamed : tokens.Every fun _ t => t.refreshToken ≠ some text) (absent : refreshes.get? text = none)
    (names : t.refreshToken = some text) (linked : Linked t text r) (text' : String) :
    Links (tokens.set text' t) (refreshes.set text r) := by
  apply Dict.Every.set
  · intro key other stored
    refine (links key other stored).set ?_
    intro named
    exact absurd named (unnamed key other stored)
  · have vacuous : refreshes.Every (Linked t) := by
      intro key old stored named
      obtain rfl := Option.some.inj (names.symm.trans named)
      cases absent.symm.trans stored
    exact vacuous.set linked

/-- The refresh tokens that access tokens name were drawn. -/
def NamesDrawn (env : Env) (s : OAuth2Provider) : Prop :=
  s.accessTokens.Every fun _ t => ∀ text, t.refreshToken = some text → Drawn env s text

theorem namesDrawn_step (keys : s.refreshTokens.Every (RefreshSound s)) (apart : Apart env s)
    (i : Input) (drawn : NamesDrawn env s) : NamesDrawn env (step env s i).1 := by
  have le := outcome_drawn (step_outcome env s i)
  have before := drawn.mono fun _ t names text named => drawn_mono le (names text named)
  have outcome := step_outcome env s i
  obtain ⟨now, call⟩ := i
  generalize (step env s ⟨now, call⟩).1 = post at outcome le before ⊢
  generalize (step env s ⟨now, call⟩).2 = reply at outcome
  cases outcome with
  | tokenIssued =>
    refine before.set ?_
    intro text named
    cases named
  | grantIssued _ _ _ token | rotated _ _ _ token =>
    subst token
    refine before.set ?_
    intro text named
    obtain rfl := Option.some.inj named
    exact ⟨s.drawn + 1, Nat.lt_succ_self _, rfl⟩
  | @reissued refreshToken _ old _ _ accepted token =>
    subst token
    obtain ⟨_, _, _, -, found, -⟩ := refreshRequest_ok.mp accepted
    refine before.set ?_
    intro text named
    obtain rfl := Option.some.inj named
    rw [(keys _ old found).string]
    exact drawn_mono le (apart.refresh _ old found)
  | accessRevoked => exact before.erase _
  | cleaned => exact before.filter _
  | _ => exact before

theorem links_step (fresh : Function.Injective env.tokenUrlsafe)
    (keys : s.refreshTokens.Every (RefreshSound s)) (apart : Apart env s) (users : UsersTrimmed s)
    (drawn : NamesDrawn env s) (i : Input) (links : Links s.accessTokens s.refreshTokens) :
    Links (step env s i).1.accessTokens (step env s i).1.refreshTokens := by
  have unnamed : s.accessTokens.Every fun _ t => t.refreshToken ≠ some (env.tokenUrlsafe (s.drawn + 1)) := by
    intro key t stored named
    exact not_drawn fresh (Nat.le_succ _) (drawn key t stored _ named)
  have absent : s.refreshTokens.get? (env.tokenUrlsafe (s.drawn + 1)) = none := by
    cases found : s.refreshTokens.get? (env.tokenUrlsafe (s.drawn + 1)) with
    | none => rfl
    | some r => exact absurd (apart.refresh _ r found) (not_drawn fresh (Nat.le_succ _))
  have outcome := step_outcome env s i
  obtain ⟨now, call⟩ := i
  generalize (step env s ⟨now, call⟩).1 = post at outcome ⊢
  generalize (step env s ⟨now, call⟩).2 = reply at outcome
  cases outcome with
  | tokenIssued =>
    refine links.set ?_
    intro text r stored named
    cases named
  | grantIssued _ _ _ token =>
    subst token
    exact links.grant unnamed absent rfl (fun _ => ⟨rfl, rfl, rfl⟩) _
  | @rotated refreshToken _ old user _ _ accepted required token =>
    subst token
    obtain ⟨_, _, _, -, found, -⟩ := refreshRequest_ok.mp accepted
    have same : user = old.userId := Except.ok.inj (required.symm.trans (users _ old found))
    subst same
    have absent' : (s.refreshTokens.set refreshToken { old with used := true }).get?
        (env.tokenUrlsafe (s.drawn + 1)) = none := by
      rw [Dict.get?_set_of_ne _ _ ?_, absent]
      rintro rfl
      cases absent.symm.trans found
    exact (links.used found).grant unnamed absent' rfl (fun _ => ⟨rfl, rfl, rfl⟩) _
  | @reissued refreshToken _ old _ _ accepted token =>
    subst token
    obtain ⟨_, _, _, -, found, -⟩ := refreshRequest_ok.mp accepted
    refine links.set ?_
    intro text r stored named
    obtain rfl := Option.some.inj named
    rw [(keys _ old found).string, found] at stored
    obtain rfl := Option.some.inj stored
    exact ⟨rfl, rfl, rfl⟩
  | accessRevoked => exact links.erase _
  | refreshRevoked _ found => exact links.used found
  | cleaned =>
    refine (links.filter _).mono ?_
    intro _ t linked
    exact linked.filter _
  | _ => exact links

/-! ### Every reachable state -/

theorem sound_step (fresh : Function.Injective env.tokenUrlsafe) (apart : Apart env s)
    (users : UsersTrimmed s) (drawn : NamesDrawn env s) (i : Input) (sound : Sound s) :
    Sound (step env s i).1 := by
  have grows := grows_step env s i
  constructor
  case clients =>
    rcases clients_effect env s i with same | ⟨client, set⟩
    · rw [same]
      exact sound.clients
    · rw [set]
      exact sound.clients.set rfl
  case users =>
    rcases users_effect env s i with same | ⟨id, user, set, own | ⟨old, present, own⟩⟩
    · rw [same]
      exact sound.users
    · rw [set]
      exact sound.users.set own
    · rw [set]
      exact sound.users.set (own.trans (sound.users id old present))
  case codes => exact (codes_effect env s i sound.codes).mono fun _ _ => CodeSound.grows grows
  case access => exact (access_effect env s i sound.access).mono fun _ _ => AccessSound.grows grows
  case refresh => exact (refreshes_effect env s i sound.refresh).mono fun _ _ => RefreshSound.grows grows
  case linked => exact links_step fresh sound.refresh apart users drawn i sound.linked

/-- In every reachable state each record is kept under its own string, with no string in both tables of
tokens; the client of a code or a token is registered, and so is a code's user; and a refresh token
grants what the access tokens that name it do. -/
theorem stored_records_sound (fresh : Function.Injective env.tokenUrlsafe) (config : Config)
    (is : List Input) :
    let s := run (step env) (new config) is
    Sound s ∧ s.refreshTokens.Every fun text _ => s.accessTokens.get? text = none := by
  let Inv (s : OAuth2Provider) : Prop := Apart env s ∧ UsersTrimmed s ∧ NamesDrawn env s ∧ Sound s
  have start : Inv (new config) :=
    ⟨apart_new, usersTrimmed_new, Dict.every_empty, Dict.every_empty, Dict.every_empty,
      Dict.every_empty, Dict.every_empty, Dict.every_empty, Dict.every_empty⟩
  have holds : Inv (run (step env) (new config) is) := by
    refine run_invariant start ?_
    intro s i inv
    obtain ⟨apart, users, drawn, sound⟩ := inv
    exact ⟨apart_step fresh i apart, usersTrimmed_step i users,
      namesDrawn_step sound.refresh apart i drawn, sound_step fresh apart users drawn i sound⟩
  exact ⟨holds.2.2.2, holds.1.apart⟩

theorem narrowedRun_sound :
    let s := run (step sampleEnv) (new sampleConfig) narrowedRun
    (s.accessTokens.get? "taa").bind (·.refreshToken) = some "taaa" ∧
      (s.refreshTokens.get? "taaa").isSome = true ∧
      Sound s ∧ s.refreshTokens.Every fun text _ => s.accessTokens.get? text = none :=
  ⟨by decide +kernel, by decide +kernel,
    stored_records_sound sampleEnv_fresh sampleConfig narrowedRun⟩

end BtApiSecurity.OAuth.OAuth2Provider
