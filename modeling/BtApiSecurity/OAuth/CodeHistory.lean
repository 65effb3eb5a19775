import BtApiSecurity.Ledger
import BtApiSecurity.OAuth.Codes

/-!
# The history of a code

Whether a code is accepted is a matter of the calls made so far: of the call that
issued it, of its age, and of the calls since that accepted it.
-/

namespace BtApiSecurity.OAuth.OAuth2Provider
open Py Machine

variable {env : Env} {s : OAuth2Provider} {now : Time}

/-! ### The ledger of codes -/

theorem code_kept (fresh : Function.Injective env.tokenUrlsafe) (inv : CodesDrawn env s) {i : Input}
    {text : String} {c : AuthorizationCode} (found : s.authCodes.get? text = some c)
    (valid : c.isValid i.now = true) (kept : acceptedCode (entry (step env) s i) ≠ some text) :
    (step env s i).1.authCodes.get? text = some c := by
  have outcome := step_outcome env s i
  obtain ⟨now, call⟩ := i
  rw [entry] at kept
  generalize (step env s ⟨now, call⟩).1 = post at outcome kept ⊢
  generalize (step env s ⟨now, call⟩).2 = reply at outcome kept
  cases outcome with
  | codeIssued accepted =>
    obtain ⟨_, _, _, _, _, _, -, -, -, -, -, -, -, -, -, -, rfl⟩ := authorizationRequest_ok accepted
    have other : env.tokenUrlsafe s.drawn ≠ text := by
      intro same
      exact not_drawn fresh le_rfl (same ▸ inv text c found)
    exact (Dict.get?_set_of_ne _ _ other).trans found
  | @codeAccepted code _ _ _ text' _ accepted =>
    obtain ⟨_, _, _, _, code_ok, -⟩ := authorizationGrant_ok.mp accepted
    have other : text' ≠ text := by
      simpa [acceptedCode, code_ok, Except.toOption] using kept
    exact (Dict.get?_set_of_ne _ _ other).trans found
  | cleaned =>
    show (s.authCodes.filter fun _ c => c.isValid now).get? text = some c
    rw [Dict.get?_filter, found]
    simp [valid]
  | _ => exact found

theorem code_stored {i : Input} {text : String} {c : AuthorizationCode}
    (found : (step env s i).1.authCodes.get? text = some c) (unused : c.used = false) :
    c.code = text ∧ IssuedAs (entry (step env) s i) c ∨
      s.authCodes.get? text = some c ∧ acceptedCode (entry (step env) s i) ≠ some text := by
  cases code_effect env s i with
  | same codes _ none_accepted =>
    exact .inr ⟨codes ▸ found, by simp [none_accepted]⟩
  | issued c' codes _ _ _ none_accepted record =>
    rw [show (step env s i).1.authCodes = _ from codes] at found
    rcases Dict.get?_set_some found with ⟨rfl, rfl⟩ | before
    · exact .inl ⟨rfl, record⟩
    · exact .inr ⟨before, by simp [none_accepted]⟩
  | accepted text' old present _ codes _ is_accepted =>
    rw [show (step env s i).1.authCodes = _ from codes] at found
    by_cases same : text' = text
    · rw [same, Dict.get?_set_self] at found
      cases found
      cases unused
    · rw [Dict.get?_set_of_ne _ _ same] at found
      exact .inr ⟨found, by simp [is_accepted, same]⟩
  | cleaned keep codes _ none_accepted =>
    rw [show (step env s i).1.authCodes = _ from codes] at found
    exact .inr ⟨Dict.get?_filter_some found, by simp [none_accepted]⟩

theorem issuedAs_stored {e : Event} {text : String} {c : AuthorizationCode}
    (issued : c.code = text ∧ IssuedAs e c) : e.post.authCodes.get? text = some c ∧ c.used = false := by
  obtain ⟨rfl, _, _, _, _, -, -, -, -, stored, unused⟩ := issued
  exact ⟨stored, unused⟩

/-- A code stands from its issue until it is accepted. -/
def codeLedger (env : Env) (fresh : Function.Injective env.tokenUrlsafe) :
    Ledger (step env) String AuthorizationCode Time where
  Inv := CodesDrawn env
  clock i := i.now
  current c now := now ≤ c.expiresAt
  stands s text c := s.authCodes.get? text = some c ∧ c.used = false
  issued e text c := c.code = text ∧ IssuedAs e c
  ended e text := acceptedCode e = some text
  inv_step _ i inv := codesDrawn_step i inv
  current_before _ _ _ earlier current := earlier.trans current
  stands_issued _ _ _ _ _ issued := issuedAs_stored issued
  stands_kept _ _ _ _ inv stands current kept :=
    ⟨code_kept fresh inv stands.1 (isValid_iff.mpr ⟨stands.2, current⟩) kept, stands.2⟩
  stands_born _ _ _ _ _ stands := (code_stored stands.1 stands.2).imp_right fun before =>
    ⟨⟨before.1, stands.2⟩, before.2⟩

/-! ### Presenting a code -/

/-- The call presents what the code is bound to. -/
structure Presented (env : Env) (c : AuthorizationCode) (clientId redirectUri : Arg String)
    (codeVerifier : Option (Arg String)) : Prop where
  client : requireText "client_id" clientId = .ok c.clientId
  redirect : requireText "redirect_uri" redirectUri = .ok c.redirectUri
  verifier : ∀ given, codeVerifier = some given → ∃ text, requireText "code_verifier" given = .ok text
  challenge : ∀ challenge, c.codeChallenge = some challenge → challenge ≠ "" →
    ∃ given text, codeVerifier = some given ∧ requireText "code_verifier" given = .ok text ∧
      challenge = challengeOf env c.codeChallengeMethod text

theorem verifier_given {codeVerifier : Option (Arg String)} {given : Option String} :
    codeVerifier.mapM (requireText "code_verifier") = .ok given ↔
      codeVerifier = none ∧ given = none ∨
        ∃ a text, codeVerifier = some a ∧ requireText "code_verifier" a = .ok text ∧
          given = some text := by
  cases codeVerifier with
  | none =>
    show Except.ok none = Except.ok given ↔ _
    simp [eq_comm]
  | some a =>
    show some <$> requireText "code_verifier" a = .ok given ↔ _
    cases run : requireText "code_verifier" a with
    | error e => simp [run]
    | ok text =>
      show Except.ok (some text) = Except.ok given ↔ _
      simp only [Except.ok.injEq, reduceCtorEq, false_and, Option.some.injEq, false_or]
      constructor
      · intro same
        exact ⟨a, text, rfl, run, same.symm⟩
      · intro h
        obtain ⟨_, text', rfl, run', rfl⟩ := h
        rw [Except.ok.inj (run.symm.trans run')]

theorem checkPkce_iff {c : AuthorizationCode} {given : Option String}
    (method : c.codeChallengeMethod ∈ [none, some "plain", some "S256"]) :
    (∃ u, checkPkce env c given = .ok u) ↔
      ∀ challenge, c.codeChallenge = some challenge → challenge ≠ "" →
        ∃ text, given = some text ∧ challenge = challengeOf env c.codeChallengeMethod text := by
  constructor
  · intro h challenge carried filled
    obtain ⟨u, passed⟩ := h
    exact checkPkce_ok carried filled method passed
  · intro matched
    by_cases carries : truthy c.codeChallenge = true
    · obtain ⟨challenge, carried, filled⟩ : ∃ challenge, c.codeChallenge = some challenge ∧
          challenge ≠ "" := by simpa [truthy, Option.any_eq_true] using carries
      obtain ⟨text, rfl, same⟩ := matched challenge carried filled
      refine ⟨(), ?_⟩
      unfold checkPkce
      rw [if_pos carries, orRaise_some, ok_bind, carried, Option.getD_some]
      simp only [List.mem_cons, List.not_mem_nil, or_false] at method
      rcases method with method | method | method <;>
        simp [method, validatePkce, truthy, challengeOf, ensure] at same ⊢ <;> simp [same]
    · exact ⟨(), by simp [checkPkce, carries]⟩

theorem issuedAs_dated {i : Input} {c : AuthorizationCode}
    (issued : IssuedAs (entry (step env) s i) c) : c.expiresAt = i.now + 600 := by
  obtain ⟨_, _, _, _, call, output, -, -, stored, -⟩ := issued
  have outcome := step_outcome env s i
  obtain ⟨now, _⟩ := i
  simp only [entry] at call output stored
  subst call
  rw [output] at outcome
  generalize (step env s _).1 = post at outcome stored
  generalize c.code = text at outcome stored
  cases outcome with
  | answered _ _ reads => cases reads
  | codeIssued accepted =>
    obtain ⟨_, _, _, _, _, _, -, -, -, -, -, -, -, -, -, -, rfl⟩ := authorizationRequest_ok accepted
    rw [withCode, Dict.get?_set_self] at stored
    exact (congrArg AuthorizationCode.expiresAt (Option.some.inj stored)).symm

theorem validateAuthorizationCode_returns {code clientId redirectUri : Arg String}
    {codeVerifier : Option (Arg String)} {granted : AuthorizationCode} :
    (step env s ⟨now, .validateAuthorizationCode code clientId redirectUri codeVerifier⟩).2 =
        .ok (.authCode granted) ↔
      ∃ text c, s.authorizationGrant env now code clientId redirectUri codeVerifier = .ok (text, c) ∧
        granted = { c with used := true } := by
  simp only [step, perform, validateAuthorizationCode, Method.run_map, Method.run_bind,
    Method.run_read, Method.run_check]
  cases s.authorizationGrant env now code clientId redirectUri codeVerifier with
  | error e => simp
  | ok grant =>
    obtain ⟨text, c⟩ := grant
    simp [eq_comm]

theorem authorizationGrant_presented {code clientId redirectUri : Arg String}
    {codeVerifier : Option (Arg String)} {text : String} {c : AuthorizationCode}
    (method : s.authCodes.get? text = some c →
      c.codeChallengeMethod ∈ [none, some "plain", some "S256"]) :
    s.authorizationGrant env now code clientId redirectUri codeVerifier = .ok (text, c) ↔
      s.authCodes.get? text = some c ∧ c.used = false ∧ now ≤ c.expiresAt ∧
        requireText "code" code = .ok text ∧ Presented env c clientId redirectUri codeVerifier := by
  rw [authorizationGrant_ok]
  constructor
  · intro h
    obtain ⟨id, uri, given, u, code_ok, client_ok, uri_ok, verifier_ok, found, valid, rfl, rfl,
      pkce⟩ := h
    obtain ⟨unused, current⟩ := isValid_iff.mp valid
    refine ⟨found, unused, current, code_ok, client_ok, uri_ok, ?_, ?_⟩
    · intro a present
      rcases verifier_given.mp verifier_ok with ⟨absent, -⟩ | ⟨a', text, present', given_ok, -⟩
      · rw [absent] at present
        cases present
      · obtain rfl := Option.some.inj (present.symm.trans present')
        exact ⟨text, given_ok⟩
    · intro challenge carried filled
      obtain ⟨text, rfl, same⟩ := (checkPkce_iff (method found)).mp ⟨u, pkce⟩ challenge carried filled
      obtain ⟨a, present, given_ok⟩ := mapM_ok verifier_ok
      exact ⟨a, text, present, given_ok, same⟩
  · intro h
    obtain ⟨found, unused, current, code_ok, presented⟩ := h
    obtain ⟨given, verifier_ok⟩ : ∃ given,
        codeVerifier.mapM (requireText "code_verifier") = .ok given := by
      cases present : codeVerifier with
      | none => exact ⟨none, rfl⟩
      | some a =>
        obtain ⟨text, given_ok⟩ := presented.verifier a present
        exact ⟨some text, verifier_given.mpr (.inr ⟨a, text, rfl, given_ok, rfl⟩)⟩
    obtain ⟨u, pkce⟩ : ∃ u, checkPkce env c given = .ok u := by
      apply (checkPkce_iff (method found)).mpr
      intro challenge carried filled
      obtain ⟨a, text, present, given_ok, same⟩ := presented.challenge challenge carried filled
      rcases verifier_given.mp verifier_ok with ⟨absent, -⟩ | ⟨a', text', present', given_ok', rfl⟩
      · rw [absent] at present
        cases present
      · obtain rfl := Option.some.inj (present.symm.trans present')
        obtain rfl := Except.ok.inj (given_ok.symm.trans given_ok')
        exact ⟨text, rfl, same⟩
    exact ⟨c.clientId, c.redirectUri, given, u, code_ok, presented.client, presented.redirect,
      verifier_ok, found, isValid_iff.mpr ⟨unused, current⟩, rfl, rfl, pkce⟩

theorem issued_entry {config : Config} {is : List Input} {l l' : List Event} {d : Event}
    (split : trace (step env) (new config) is = l ++ d :: l') :
    d = entry (step env) d.pre d.input :=
  entry_of_mem (split ▸ List.mem_append_right l List.mem_cons_self)

/-- A code is accepted exactly when it was issued, at most 600 seconds ago, has not been
accepted since, and the call presents what it is bound to. -/
theorem authorization_code_accepted_iff (fresh : Function.Injective env.tokenUrlsafe)
    (config : Config) (is : List Input) (now : Time) (past : ∀ i ∈ is, i.now ≤ now)
    (code clientId redirectUri : Arg String) (codeVerifier : Option (Arg String))
    (granted : AuthorizationCode) :
    (step env (run (step env) (new config) is)
        ⟨now, .validateAuthorizationCode code clientId redirectUri codeVerifier⟩).2 =
      .ok (.authCode granted) ↔
    ∃ l d l' c, trace (step env) (new config) is = l ++ d :: l' ∧ IssuedAs d c ∧
      now ≤ d.input.now + 600 ∧ (∀ e ∈ l', acceptedCode e ≠ some c.code) ∧
      requireText "code" code = .ok c.code ∧ Presented env c clientId redirectUri codeVerifier ∧
      granted = { c with used := true } := by
  let L := codeLedger env fresh
  have start : L.Inv (new config) := codesDrawn_new
  have none : ∀ text c, ¬L.stands (new config) text c := by
    rintro text c ⟨found, -⟩
    simp [new] at found
  rw [validateAuthorizationCode_returns]
  constructor
  · intro h
    obtain ⟨text, c, grant, rfl⟩ := h
    obtain ⟨_, _, _, _, -, -, -, -, found, valid, -⟩ := authorizationGrant_ok.mp grant
    obtain ⟨l, d, l', split, ⟨rfl, issued⟩, kept⟩ :=
      L.standing_of_stands start none ⟨found, (isValid_iff.mp valid).1⟩
    have entered := issued_entry split
    have method : c.codeChallengeMethod ∈ [Option.none, some "plain", some "S256"] := by
      rw [entered] at issued
      exact issuedAs_method issued
    have dated : c.expiresAt = d.input.now + 600 := by
      rw [entered] at issued
      exact issuedAs_dated issued
    obtain ⟨-, -, current, code_ok, presented⟩ :=
      (authorizationGrant_presented fun _ => method).mp grant
    exact ⟨l, d, l', c, split, issued, dated ▸ current, kept, code_ok, presented, rfl⟩
  · intro h
    obtain ⟨l, d, l', c, split, issued, current, kept, code_ok, presented, rfl⟩ := h
    have entered := issued_entry split
    have method : c.codeChallengeMethod ∈ [Option.none, some "plain", some "S256"] := by
      rw [entered] at issued
      exact issuedAs_method issued
    have dated : c.expiresAt = d.input.now + 600 := by
      rw [entered] at issued
      exact issuedAs_dated issued
    rw [← dated] at current
    obtain ⟨found, unused⟩ := L.stands_of_standing start past current
      ⟨l, d, l', split, ⟨rfl, issued⟩, kept⟩
    exact ⟨c.code, c, (authorizationGrant_presented fun _ => method).mpr
      ⟨found, unused, current, code_ok, presented⟩, rfl⟩

deriving instance DecidableEq for Introspection, Reply

/-- The code `t`, issued at 1 and tried at 2 with the wrong redirect URI. -/
def pendingCodeRun : List Input := sampleCodeRun.take 4

theorem pendingCode_accepted :
    ∃ l d l' c, trace (step sampleEnv) (new sampleConfig) pendingCodeRun = l ++ d :: l' ∧
      IssuedAs d c ∧ (601 : Time) ≤ d.input.now + 600 ∧ (∀ e ∈ l', acceptedCode e ≠ some c.code) ∧
      requireText "code" (.ok "t ") = .ok c.code ∧
      Presented sampleEnv c (.ok "app") (.ok "https://app") (some (.ok "verifier")) ∧
      AuthorizationCode.mk "t" "app" "ann" "https://app" {"read"} (some "verifier") (some "plain") 1
        601 true = { c with used := true } :=
  (authorization_code_accepted_iff sampleEnv_fresh sampleConfig pendingCodeRun 601
    (by decide +kernel) (.ok "t ") (.ok "app") (.ok "https://app") (some (.ok "verifier")) _).mp
    (by decide +kernel)

end BtApiSecurity.OAuth.OAuth2Provider
