import BtApiSecurity.OAuth.Steps
import BtApiSecurity.OneTime

/-!
# Authorization codes

A code is a one-time token: `generate_authorization_code` issues it and
`validate_authorization_code` spends it.
-/

namespace BtApiSecurity.OAuth.OAuth2Provider
open Py Machine OneTime

variable {env : Env} {s : OAuth2Provider} {now : Time}

/-! ### What a run says about codes -/

def issuedCode (e : Event) : Option String :=
  match e.input.call, e.output with
  | .generateAuthorizationCode .., .ok (.code code) => some code
  | _, _ => none

/-- The string, trimmed, for which the call returned a code. -/
def acceptedCode (e : Event) : Option String :=
  match e.input.call, e.output with
  | .validateAuthorizationCode code .., .ok _ => (requireText "code" code).toOption
  | _, _ => none

/-- The call issued the code `c`, for the client and redirect URI of its arguments. -/
def IssuedAs (e : Event) (c : AuthorizationCode) : Prop :=
  ∃ clientId userId redirectUri scopes, e.input.call = .generateAuthorizationCode clientId userId
      redirectUri scopes c.codeChallenge c.codeChallengeMethod ∧
    e.output = .ok (.code c.code) ∧ requireText "client_id" clientId = .ok c.clientId ∧
    requireText "redirect_uri" redirectUri = .ok c.redirectUri ∧
    e.post.authCodes.get? c.code = some c ∧ c.used = false

def challengeOf (env : Env) (method : Option String) (verifier : String) : String :=
  if method = some "S256" then
    String.ofList
      ((urlsafeB64encode (env.sha256 (encodeUtf8 verifier))).toList.rdropWhile (· == '='))
  else verifier

/-- The call presented what the code `c` is bound to, in time. An empty challenge is none. -/
def BoundTo (env : Env) (c : AuthorizationCode) (e : Event) : Prop :=
  ∃ code clientId redirectUri verifier,
    e.input.call = .validateAuthorizationCode code clientId redirectUri verifier ∧
    requireText "client_id" clientId = .ok c.clientId ∧
    requireText "redirect_uri" redirectUri = .ok c.redirectUri ∧ e.input.now ≤ c.expiresAt ∧
    ∀ challenge, c.codeChallenge = some challenge → challenge ≠ "" →
      ∃ given text, verifier = some given ∧ requireText "code_verifier" given = .ok text ∧
        challenge = challengeOf env c.codeChallengeMethod text

def RejectedCode (e : Event) : Prop :=
  ∃ code clientId redirectUri verifier error,
    e.input.call = .validateAuthorizationCode code clientId redirectUri verifier ∧
    e.output = .error error

/-! ### Steps -/

inductive CodeEffect (env : Env) (s : OAuth2Provider) (e : Event) : Prop
  | same (codes : e.post.authCodes = s.authCodes) (none_issued : issuedCode e = none)
      (none_accepted : acceptedCode e = none)
  | issued (c : AuthorizationCode) (codes : e.post.authCodes = s.authCodes.set c.code c)
      (string : c.code = env.tokenUrlsafe s.drawn) (next : e.post.drawn = s.drawn + 1)
      (is_issued : issuedCode e = some c.code) (none_accepted : acceptedCode e = none)
      (record : IssuedAs e c) (method : c.codeChallengeMethod ∈ [none, some "plain", some "S256"])
  | accepted (text : String) (c : AuthorizationCode) (found : s.authCodes.get? text = some c)
      (unused : c.used = false)
      (codes : e.post.authCodes = s.authCodes.set text { c with used := true })
      (none_issued : issuedCode e = none) (is_accepted : acceptedCode e = some text)
  | cleaned (keep : String → AuthorizationCode → Bool)
      (codes : e.post.authCodes = s.authCodes.filter keep) (none_issued : issuedCode e = none)
      (none_accepted : acceptedCode e = none)

theorem isValid_iff {c : AuthorizationCode} :
    c.isValid now = true ↔ c.used = false ∧ now ≤ c.expiresAt := by
  simp [AuthorizationCode.isValid, AuthorizationCode.isExpired]

theorem code_effect (env : Env) (s : OAuth2Provider) (i : Input) :
    CodeEffect env s (entry (step env) s i) := by
  have outcome := step_outcome env s i
  obtain ⟨now, call⟩ := i
  unfold entry
  generalize (step env s ⟨now, call⟩).1 = post at outcome ⊢
  generalize (step env s ⟨now, call⟩).2 = reply at outcome ⊢
  cases outcome with
  | raised => exact .same rfl (by cases call <;> rfl) (by cases call <;> rfl)
  | answered _ _ reads _ =>
    exact .same rfl (by cases call <;> first | rfl | cases reads)
      (by cases call <;> first | rfl | cases reads)
  | codeIssued accepted =>
    obtain ⟨id, user, uri, granted, client, record, client_ok, -, uri_ok, -, -, -, -, -, -, method,
      rfl⟩ := authorizationRequest_ok accepted
    exact .issued _ rfl rfl rfl rfl rfl
      ⟨_, _, _, _, rfl, rfl, client_ok, uri_ok, Dict.get?_set_self _ _ _, rfl⟩ method
  | codeAccepted accepted =>
    obtain ⟨_, _, _, _, code_ok, -, -, -, found, valid, -⟩ := authorizationGrant_ok.mp accepted
    exact .accepted _ _ found (isValid_iff.mp valid).1 rfl rfl
      (by simp [acceptedCode, code_ok, Except.toOption])
  | cleaned => exact .cleaned (fun _ c => c.isValid now) rfl rfl rfl
  | _ => exact .same rfl rfl rfl

theorem code_lookup {i : Input} {text : String} {c : AuthorizationCode}
    (found : (step env s i).1.authCodes.get? text = some c) :
    s.authCodes.get? text = some c ∨
    (issuedCode (entry (step env) s i) = some text ∧ text = env.tokenUrlsafe s.drawn ∧
      (step env s i).1.drawn = s.drawn + 1 ∧ c.used = false) ∨
    ∃ old, s.authCodes.get? text = some old ∧ c = { old with used := true } ∧
      acceptedCode (entry (step env) s i) = some text := by
  cases code_effect env s i with
  | same codes => exact .inl (codes ▸ found)
  | issued c' codes string next is_issued _ record =>
    rw [show (step env s i).1.authCodes = _ from codes] at found
    rcases Dict.get?_set_some found with ⟨rfl, rfl⟩ | before
    · obtain ⟨-, -, -, -, -, -, -, -, -, unused⟩ := record
      exact .inr (.inl ⟨is_issued, string, next, unused⟩)
    · exact .inl before
  | accepted text' old present _ codes _ is_accepted =>
    rw [show (step env s i).1.authCodes = _ from codes] at found
    rcases Dict.get?_set_some found with ⟨rfl, rfl⟩ | before
    · exact .inr (.inr ⟨old, present, rfl, is_accepted⟩)
    · exact .inl before
  | cleaned keep codes =>
    rw [show (step env s i).1.authCodes = _ from codes] at found
    exact .inl (Dict.get?_filter_some found)

def CodesDrawn (env : Env) (s : OAuth2Provider) : Prop :=
  ∀ text c, s.authCodes.get? text = some c → Drawn env s text

/-- The stored code, as if it were unused. -/
def codeRecord (s : OAuth2Provider) (text : String) : Option AuthorizationCode :=
  (s.authCodes.get? text).map fun c => { c with used := false }

theorem codeRecord_kept {i : Input} {text : String} {c : AuthorizationCode}
    (made : codeRecord (step env s i).1 text = some c) :
    codeRecord s text = some c ∨ issuedCode (entry (step env) s i) = some text := by
  obtain ⟨stored, found, rfl⟩ := Option.map_eq_some_iff.mp made
  rcases code_lookup found with before | ⟨born, -⟩ | ⟨old, before, rfl, -⟩
  · exact .inl (by simp [codeRecord, before])
  · exact .inr born
  · exact .inl (by simp [codeRecord, before])

theorem codesDrawn_step (i : Input) (inv : CodesDrawn env s) : CodesDrawn env (step env s i).1 := by
  intro text c found
  have le := outcome_drawn (step_outcome env s i)
  rcases code_lookup found with found | ⟨-, rfl, next, -⟩ | ⟨old, found, -⟩
  · exact drawn_mono le (inv text c found)
  · exact ⟨s.drawn, by omega, rfl⟩
  · exact drawn_mono le (inv text old found)

def LiveCode (s : OAuth2Provider) (text : String) : Prop :=
  ∃ c, s.authCodes.get? text = some c ∧ c.used = false

theorem accepted_found {i : Input} {text : String}
    (gone : acceptedCode (entry (step env) s i) = some text) :
    ∃ c, s.authCodes.get? text = some c ∧ c.used = false ∧
      (step env s i).1.authCodes = s.authCodes.set text { c with used := true } := by
  cases code_effect env s i with
  | accepted text' c found unused codes _ is_accepted =>
    obtain rfl := Option.some.inj (is_accepted.symm.trans gone)
    exact ⟨c, found, unused, codes⟩
  | _ => simp_all

theorem issued_drawn {i : Input} {text : String}
    (born : issuedCode (entry (step env) s i) = some text) :
    text = env.tokenUrlsafe s.drawn ∧ (step env s i).1.drawn = s.drawn + 1 := by
  cases code_effect env s i with
  | issued c _ string next is_issued =>
    obtain rfl := Option.some.inj (is_issued.symm.trans born)
    exact ⟨string, next⟩
  | _ => simp_all

theorem liveCode_drawn {text : String} (inv : CodesDrawn env s) (live : LiveCode s text) :
    Drawn env s text := by
  obtain ⟨c, found, -⟩ := live
  exact inv text c found

theorem accepted_live {i : Input} {text : String}
    (gone : acceptedCode (entry (step env) s i) = some text) : LiveCode s text := by
  obtain ⟨c, found, unused, -⟩ := accepted_found gone
  exact ⟨c, found, unused⟩

theorem accepted_dead {i : Input} {text : String}
    (gone : acceptedCode (entry (step env) s i) = some text) : ¬LiveCode (step env s i).1 text := by
  rintro ⟨c, found, unused⟩
  obtain ⟨old, -, -, codes⟩ := accepted_found gone
  rw [codes, Dict.get?_set_self] at found
  cases found
  cases unused

theorem issued_fresh (fresh : Function.Injective env.tokenUrlsafe) {i : Input} {text : String}
    (born : issuedCode (entry (step env) s i) = some text) : ¬Drawn env s text := by
  obtain ⟨rfl, -⟩ := issued_drawn born
  exact not_drawn fresh le_rfl

theorem issued_seen {i : Input} {text : String}
    (born : issuedCode (entry (step env) s i) = some text) : Drawn env (step env s i).1 text := by
  obtain ⟨rfl, next⟩ := issued_drawn born
  exact ⟨s.drawn, by omega, rfl⟩

theorem liveCode_born {i : Input} {text : String} (live : LiveCode (step env s i).1 text) :
    LiveCode s text ∨ issuedCode (entry (step env) s i) = some text := by
  obtain ⟨c, found, unused⟩ := live
  rcases code_lookup found with found | ⟨born, -⟩ | ⟨old, -, rfl, -⟩
  · exact .inl ⟨c, found, unused⟩
  · exact .inr born
  · cases unused

/-- Codes are one-time tokens: stored and unused is live, drawn is seen. -/
def codeDiscipline (env : Env) (fresh : Function.Injective env.tokenUrlsafe) :
    Discipline (step env) String where
  Inv := CodesDrawn env
  live := LiveCode
  seen := Drawn env
  spent := acceptedCode
  issued := issuedCode
  inv_step _ i inv := codesDrawn_step i inv
  live_seen _ _ inv live := liveCode_drawn inv live
  seen_step _ i _ _ seen := drawn_step env i seen
  spent_live _ _ _ _ gone := accepted_live gone
  spent_dead _ _ _ _ gone := accepted_dead gone
  issued_fresh _ _ _ _ born := issued_fresh fresh born
  issued_seen _ _ _ _ born := issued_seen born
  live_born _ _ _ _ live := liveCode_born live

/-! ### Bound codes -/

theorem mapM_ok {α β : Type} {f : α → Except OAuthError β} {given : Option α} {b : β}
    (h : given.mapM f = .ok (some b)) : ∃ a, given = some a ∧ f a = .ok b := by
  cases given with
  | none =>
    have nothing : Except.ok none = Except.ok (some b) := h
    cases nothing
  | some a =>
    have mapped : some <$> f a = .ok (some b) := h
    cases run : f a with
    | error e =>
      rw [run] at mapped
      cases mapped
    | ok b' =>
      rw [run] at mapped
      cases mapped
      exact ⟨a, rfl, run⟩

theorem checkPkce_ok {c : AuthorizationCode} {given : Option String} {u : Unit} {challenge : String}
    (carried : c.codeChallenge = some challenge) (filled : challenge ≠ "")
    (method : c.codeChallengeMethod ∈ [none, some "plain", some "S256"])
    (h : checkPkce env c given = .ok u) :
    ∃ text, given = some text ∧ challenge = challengeOf env c.codeChallengeMethod text := by
  have carries : truthy c.codeChallenge = true := by simp [truthy, carried, filled]
  simp only [checkPkce, carries, if_true, check_bind_ok, orRaise_ok, ensure_ok] at h
  obtain ⟨text, present, matching, run, matched⟩ := h
  refine ⟨text, present, ?_⟩
  subst matched
  simp only [carried, Option.getD_some] at run
  simp only [List.mem_cons, List.not_mem_nil, or_false] at method
  rcases method with method | method | method <;>
    simp [method, validatePkce, truthy, challengeOf] at run ⊢ <;> exact run.symm

theorem accepted_bound {i : Input} {text : String} {c : AuthorizationCode}
    (accepted : acceptedCode (entry (step env) s i) = some text)
    (found : s.authCodes.get? text = some c)
    (method : c.codeChallengeMethod ∈ [none, some "plain", some "S256"]) :
    BoundTo env c (entry (step env) s i) := by
  have outcome := step_outcome env s i
  obtain ⟨now, call⟩ := i
  rw [entry] at accepted ⊢
  generalize (step env s ⟨now, call⟩).1 = post at outcome accepted ⊢
  generalize (step env s ⟨now, call⟩).2 = reply at outcome accepted ⊢
  cases outcome with
  | raised => cases call <;> cases accepted
  | answered _ _ reads _ => cases call <;> first | cases accepted | cases reads
  | @codeAccepted _ _ _ _ text' _ granted =>
    obtain ⟨id, uri, given, u, code_ok, client_ok, uri_ok, verifier_ok, found', valid, client,
      redirect, pkce⟩ := authorizationGrant_ok.mp granted
    have same : text' = text := by simpa [acceptedCode, code_ok, Except.toOption] using accepted
    subst same
    obtain rfl := Option.some.inj (found.symm.trans found')
    refine ⟨_, _, _, _, rfl, client ▸ client_ok, redirect ▸ uri_ok, (isValid_iff.mp valid).2, ?_⟩
    intro challenge carried filled
    obtain ⟨text', rfl, matched⟩ := checkPkce_ok carried filled method pkce
    obtain ⟨arg, rfl, arg_ok⟩ := mapM_ok verifier_ok
    exact ⟨arg, text', rfl, arg_ok, matched⟩
  | _ => cases accepted

theorem issuedAs_issuedCode {e : Event} {c : AuthorizationCode} (h : IssuedAs e c) :
    issuedCode e = some c.code := by
  obtain ⟨_, _, _, _, call, output, -⟩ := h
  simp [issuedCode, call, output]

theorem issuedAs_method {i : Input} {c : AuthorizationCode}
    (h : IssuedAs (entry (step env) s i) c) :
    c.codeChallengeMethod ∈ [none, some "plain", some "S256"] := by
  have born := issuedAs_issuedCode h
  obtain ⟨_, _, _, _, -, -, -, -, stored, -⟩ := h
  cases code_effect env s i with
  | issued c' codes _ _ is_issued _ _ method =>
    rw [codes, ← Option.some.inj (is_issued.symm.trans born), Dict.get?_set_self] at stored
    obtain rfl := Option.some.inj stored
    exact method
  | _ => simp_all

theorem codesDrawn_new {config : Config} : CodesDrawn env (new config) := by
  simp [CodesDrawn, new]

theorem accepted_as_issued (fresh : Function.Injective env.tokenUrlsafe) {config : Config}
    {is : List Input} {d e : Event} {c : AuthorizationCode}
    (mem : d ∈ trace (step env) (new config) is) (issued : IssuedAs d c)
    (mem' : e ∈ trace (step env) (new config) is) (accepted : acceptedCode e = some c.code) :
    e.pre.authCodes.get? c.code = some c := by
  let D := codeDiscipline env fresh
  have start : D.Inv (new config) := codesDrawn_new
  obtain ⟨l, l', split⟩ := List.append_of_mem mem'
  have absent : ∀ text, ¬D.live (new config) text := by
    rintro text ⟨c, found, -⟩
    simp [new] at found
  obtain ⟨d', early, born⟩ := D.issued_before start absent split accepted
  have same := D.issued_unique start (by rw [split]; exact List.mem_append_left _ early) mem born
    (issuedAs_issuedCode issued)
  subst same
  obtain ⟨before, after, -, rfl, is_entry, -⟩ := trace_split split
  rw [is_entry] at accepted ⊢
  obtain ⟨c', found, unused⟩ := D.spent_live _ _ _ (D.inv_run _ start) accepted
  obtain ⟨l₁, l₂, split'⟩ := List.append_of_mem early
  obtain ⟨_, _, _, _, -, -, -, -, stored, fresh_code⟩ := issued
  have made : codeRecord d'.post c.code = some c := by simp [codeRecord, stored, ← fresh_code]
  have now : codeRecord (run (step env) (new config) before) c.code = some c' := by
    simp [codeRecord, found, ← unused]
  have kept := D.record_kept start (fun _ _ _ _ _ => codeRecord_kept) split' born made now
  exact kept ▸ found

/-- Codes are single use and bound: no code is accepted twice; a call that is accepted
presents what the code was issued for, in time; and a rejected call changes nothing. -/
theorem authorization_codes_single_use (fresh : Function.Injective env.tokenUrlsafe)
    (config : Config) (is : List Input) :
    let history := trace (step env) (new config) is
    (history.Pairwise fun e e' => ∀ text, acceptedCode e = some text → acceptedCode e' ≠ some text) ∧
    (∀ d ∈ history, ∀ c, IssuedAs d c → ∀ e ∈ history, acceptedCode e = some c.code →
      BoundTo env c e) ∧
    ∀ e ∈ history, RejectedCode e → e.post = e.pre := by
  refine ⟨(codeDiscipline env fresh).spent_once codesDrawn_new, ?_, ?_⟩
  · intro d mem c issued e mem' accepted
    have found := accepted_as_issued fresh mem issued mem' accepted
    rw [entry_of_mem mem] at issued
    rw [entry_of_mem mem'] at accepted ⊢
    exact accepted_bound accepted found (issuedAs_method issued)
  · rintro e mem ⟨_, _, _, _, error, -, raised⟩
    rw [entry_of_mem mem] at raised ⊢
    exact raised_unchanged raised

/-- A code that is tried with the wrong redirect URI, redeemed, and tried again. -/
def sampleCodeRun : List Input :=
  [⟨0, .registerClient (.ok "app") (.ok "secret") (.items [.ok "https://app"])
      (.items [.ok "read", .ok "write"]) (.items [.member .authorizationCode]) (.ok true)⟩,
    ⟨0, .registerUser (.ok "ann") (.ok "Ann") (.ok "ann@example.org") (.ok false)⟩,
    ⟨1, .generateAuthorizationCode (.ok "app") (.ok "ann") (.ok "https://app")
      (.items [.ok "read"]) (some "verifier") (some "plain")⟩,
    ⟨2, .validateAuthorizationCode (.ok "t") (.ok "app") (.ok "https://other")
      (some (.ok "verifier"))⟩,
    ⟨3, .validateAuthorizationCode (.ok " t ") (.ok "app") (.ok "https://app")
      (some (.ok "verifier"))⟩,
    ⟨4, .validateAuthorizationCode (.ok "t") (.ok "app") (.ok "https://app")
      (some (.ok "verifier"))⟩]

theorem sampleCodeRun_single_use :
    (trace (step sampleEnv) (new sampleConfig) sampleCodeRun).filterMap acceptedCode = ["t"] ∧
    (trace (step sampleEnv) (new sampleConfig) sampleCodeRun).Pairwise fun e e' =>
      ∀ text, acceptedCode e = some text → acceptedCode e' ≠ some text :=
  ⟨by decide +kernel,
    (authorization_codes_single_use sampleEnv_fresh sampleConfig sampleCodeRun).1⟩

end BtApiSecurity.OAuth.OAuth2Provider
