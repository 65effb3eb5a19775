import BtApiSecurity.Mfa.Steps

/-!
# Backup codes

Setting MFA up and regenerating install a batch of codes for a user; registering a
WebAuthn credential and disabling leave none. A code that is accepted is removed.
-/

namespace BtApiSecurity.Mfa.MFAProvider
open Py Machine

variable {env : Env} {s : MFAProvider} {now : Time} {u v c : String}

/-! ### The loop -/

theorem nodup_backupCodesLoop {count : Int} {codes result : List String} {draws : List (Fin 1000000)}
    (nodup : codes.Nodup) (h : backupCodesLoop count codes draws = some result) : result.Nodup := by
  induction draws generalizing codes with
  | nil =>
    unfold backupCodesLoop at h
    split at h
    · cases h
    · exact Option.some.inj h ▸ nodup
  | cons n draws ih =>
    unfold backupCodesLoop at h
    split at h
    · split at h
      · exact ih nodup h
      · rename_i new
        exact ih (List.nodup_append.mpr ⟨nodup, List.nodup_singleton _, by
          intro a mem b single same
          obtain rfl := List.mem_singleton.mp single
          exact new (same ▸ mem)⟩) h
    · exact Option.some.inj h ▸ nodup

/-! ### What a run says about codes -/

def backupCodesOf (s : MFAProvider) (u : String) : List String :=
  match s.mfaConfigs.get? u with
  | some config => config.backupCodes
  | none => []

/-- The user for whom a call offers a backup code; an empty code is none. -/
def offered : Call → Option (String × String)
  | .verifyTotp userId _ code | .verifyHotp userId _ code | .disableMfa userId code =>
    (code.filter (· ≠ "")).map fun c => (userId, c)
  | _ => none

def Call.withoutCode : Call → Call
  | .verifyTotp userId token _ => .verifyTotp userId token none
  | .verifyHotp userId token _ => .verifyHotp userId token none
  | .disableMfa userId _ => .disableMfa userId none
  | call => call

/-- The batch that a step installs for a user, in place of the one before. -/
def installed (e : Event) (u : String) : Option (List String) :=
  match e.input.call, e.output with
  | .setupTotp userId _ _, .ok (.totp setup) => if userId = u then some setup.backupCodes else none
  | .setupHotp userId _ _, .ok (.hotp setup) => if userId = u then some setup.backupCodes else none
  | .regenerateBackupCodes userId _, .ok (.codes codes) => if userId = u then some codes else none
  | .verifyWebauthnRegistration userId _, .ok (.answer true) => if userId = u then some [] else none
  | .disableMfa userId _, .ok (.answer true) => if userId = u then some [] else none
  | _, _ => none

/-- A call that offers the code succeeds, and the code is one of those left. -/
structure Accepts (e : Event) (u c : String) : Prop where
  offers : offered e.input.call = some (u, c)
  succeeds : e.output = .ok (.answer true)
  left : c ∈ backupCodesOf e.pre u

theorem Accepts.unique {e : Event} {c' : String} (h : Accepts e u c) (h' : Accepts e u c') : c = c' := by
  have same := h.offers.symm.trans h'.offers
  exact (Prod.mk.inj (Option.some.inj same)).2

theorem acceptsBackup_iff {config : MFAConfig} {code : Option String} :
    acceptsBackup config code = true ↔ ∃ c, code.filter (· ≠ "") = some c ∧ c ∈ config.backupCodes := by
  cases code with
  | none => simp [acceptsBackup]
  | some code => by_cases blank : code = "" <;> simp [acceptsBackup, Option.filter, blank]

/-! ### One step -/

theorem backupCodesOf_get {config : MFAConfig} (found : s.mfaConfigs.get? u = some config) :
    backupCodesOf s u = config.backupCodes := by
  rw [backupCodesOf, found]

theorem backupCodesOf_withConfig (v : String) (config : MFAConfig) (u : String) :
    backupCodesOf (s.withConfig v config) u = if v = u then config.backupCodes else backupCodesOf s u := by
  unfold backupCodesOf
  rw [withConfig, Dict.get?_set]
  by_cases same : v = u
  · rw [if_pos same, if_pos same]
  · rw [if_neg same, if_neg same]

theorem backupCodesOf_replaced {old : MFAConfig} (new : MFAConfig)
    (found : s.mfaConfigs.get? v = some old) (same : new.backupCodes = old.backupCodes) :
    backupCodesOf (s.withConfig v new) u = backupCodesOf s u := by
  rw [backupCodesOf_withConfig]
  split
  · rename_i here
    rw [← here, backupCodesOf_get found, same]
  · rfl

theorem backupCodesOf_authenticated {key : String} {credential : WebAuthnCredential} {signCount : Nat} :
    backupCodesOf (s.authenticated now v key credential signCount) u = backupCodesOf s u := by
  cases found : s.mfaConfigs.get? v with
  | none =>
    unfold backupCodesOf
    rw [MFAProvider.authenticated, found]
  | some config =>
    have replaced := backupCodesOf_replaced (u := u) { config with lastUsed := some now } found rfl
    unfold backupCodesOf at replaced ⊢
    rw [MFAProvider.authenticated, found]
    exact replaced

/-- What a step does to the codes of a user. -/
inductive CodesEffect (e : Event) (u : String) : Prop
  | installed (batch : List String) (is_installed : installed e u = some batch) (nodup : batch.Nodup)
      (now : backupCodesOf e.post u = batch)
  | used (c : String) (none_installed : installed e u = none) (accepted : Accepts e u c)
      (now : backupCodesOf e.post u = (backupCodesOf e.pre u).erase c)
  | kept (none_installed : MFAProvider.installed e u = none) (unused : ∀ c, ¬Accepts e u c)
      (same : backupCodesOf e.post u = backupCodesOf e.pre u)

theorem not_accepts_of_output {e : Event} (refused : e.output ≠ .ok (.answer true)) (c : String) :
    ¬Accepts e u c :=
  fun accepted => refused accepted.succeeds

theorem accepted_code {config : MFAConfig} {code : String}
    (accepted : acceptsBackup config (some code) = true) :
    (some code).filter (· ≠ "") = some code ∧ code ∈ config.backupCodes := by
  obtain ⟨c, solid, mem⟩ := acceptsBackup_iff.mp accepted
  obtain rfl := Option.some.inj (Option.filter_eq_some_iff.mp solid).1
  exact ⟨solid, mem⟩

theorem codesEffect_backup {call : Call} {code : String} {config : MFAConfig}
    (offers : offered call = ((some code).filter (· ≠ "")).map fun c => (v, c))
    (found : s.mfaConfigs.get? v = some config) (accepted : acceptsBackup config (some code) = true)
    (none_installed : installed ⟨s, ⟨now, call⟩, .ok (.answer true), s.withoutBackup now v config code⟩ u =
      none) :
    CodesEffect ⟨s, ⟨now, call⟩, .ok (.answer true), s.withoutBackup now v config code⟩ u := by
  obtain ⟨solid, mem⟩ := accepted_code accepted
  rw [solid] at offers
  by_cases same : v = u
  · subst same
    refine .used code none_installed ⟨offers, rfl, backupCodesOf_get found ▸ mem⟩ ?_
    show backupCodesOf (s.withoutBackup now v config code) v = (backupCodesOf s v).erase code
    rw [withoutBackup, backupCodesOf_withConfig, if_pos rfl, backupCodesOf_get found]
  · refine .kept none_installed (fun c accepts => ?_) ?_
    · exact same (Prod.mk.inj (Option.some.inj (offers.symm.trans accepts.offers))).1
    · show backupCodesOf (s.withoutBackup now v config code) u = backupCodesOf s u
      rw [withoutBackup, backupCodesOf_withConfig, if_neg same]

/-- A token that is accepted leaves the codes alone, and no code was offered with it that is left. -/
theorem codesEffect_token {call : Call} {code : Option String} {config new : MFAConfig}
    (offers : offered call = (code.filter (· ≠ "")).map fun c => (v, c))
    (found : s.mfaConfigs.get? v = some config) (other : acceptsBackup config code = false)
    (codes : new.backupCodes = config.backupCodes)
    (none_installed : installed ⟨s, ⟨now, call⟩, .ok (.answer true), s.withConfig v new⟩ u = none) :
    CodesEffect ⟨s, ⟨now, call⟩, .ok (.answer true), s.withConfig v new⟩ u := by
  refine .kept none_installed (fun c accepts => ?_) (backupCodesOf_replaced new found codes)
  obtain ⟨c', solid, same⟩ := Option.map_eq_some_iff.mp (offers.symm.trans accepts.offers)
  obtain ⟨rfl, rfl⟩ := Prod.mk.inj same
  have accepted := acceptsBackup_iff.mpr ⟨c', solid, backupCodesOf_get found ▸ accepts.left⟩
  rw [accepted] at other
  cases other

theorem codesEffect_setup {call : Call} {reply : Except Stop Reply} {codes : List String}
    {config : MFAConfig} (t : MFAProvider) (rest : t.mfaConfigs = s.mfaConfigs)
    (returned : installed ⟨s, ⟨now, call⟩, reply, t.withConfig v config⟩ u =
      if v = u then some codes else none)
    (offers : offered call = none) (nodup : codes.Nodup) (stored : config.backupCodes = codes) :
    CodesEffect ⟨s, ⟨now, call⟩, reply, t.withConfig v config⟩ u := by
  have now_codes := backupCodesOf_withConfig (s := t) v config u
  by_cases same : v = u
  · rw [if_pos same] at returned now_codes
    exact .installed codes returned nodup (now_codes.trans stored)
  · rw [if_neg same] at returned now_codes
    refine .kept returned (fun c accepts => ?_) (now_codes.trans ?_)
    · cases offers.symm.trans accepts.offers
    · unfold backupCodesOf
      rw [rest]

theorem codesEffect_registered {call : Call} {reply : Except Stop Reply} {credential : WebAuthnCredential}
    (returned : installed ⟨s, ⟨now, call⟩, reply, s.registered now v credential⟩ u =
      if v = u then some [] else none) (offers : offered call = none) :
    CodesEffect ⟨s, ⟨now, call⟩, reply, s.registered now v credential⟩ u := by
  have stored : ∃ (config : MFAConfig) (t : MFAProvider), config.backupCodes = [] ∧
      t.mfaConfigs = s.mfaConfigs ∧ s.registered now v credential = t.withConfig v config :=
    ⟨_, { s with
      webauthnCredentials := s.webauthnCredentials.set (credentialKey credential.credentialId) credential
      webauthnChallenges := s.webauthnChallenges.erase v }, rfl, rfl, rfl⟩
  obtain ⟨config, t, empty, rest, shape⟩ := stored
  rw [shape] at returned ⊢
  exact codesEffect_setup t rest returned offers List.nodup_nil empty

theorem codesEffect_disabled {call : Call} {reply : Except Stop Reply} {code : String} {config : MFAConfig}
    (returned : installed ⟨s, ⟨now, call⟩, reply, s.disabled v config⟩ u = if v = u then some [] else none)
    (offers : offered call = some (v, code)) :
    CodesEffect ⟨s, ⟨now, call⟩, reply, s.disabled v config⟩ u := by
  by_cases same : v = u
  · subst same
    refine .installed [] (returned.trans (if_pos rfl)) List.nodup_nil ?_
    show backupCodesOf (s.disabled v config) v = []
    rw [backupCodesOf, MFAProvider.disabled, Dict.get?_erase_self]
  · refine .kept (returned.trans (if_neg same)) (fun c accepts => ?_) ?_
    · exact same (Prod.mk.inj (Option.some.inj (offers.symm.trans accepts.offers))).1
    · show backupCodesOf (s.disabled v config) u = backupCodesOf s u
      rw [backupCodesOf, MFAProvider.disabled, Dict.get?_erase_of_ne _ same]
      rfl

theorem codes_effect (env : Env) (s : MFAProvider) (i : Input) (u : String) :
    CodesEffect (entry (step env) s i) u := by
  have outcome := step_outcome env s i
  obtain ⟨now, call⟩ := i
  have unoffered : offered call = none → ∀ post reply c,
      ¬Accepts (⟨s, ⟨now, call⟩, reply, post⟩ : Event) u c :=
    fun none post reply c accepts => by cases none.symm.trans accepts.offers
  rw [entry]
  generalize step env s ⟨now, call⟩ = taken at outcome ⊢
  obtain ⟨post, reply⟩ := taken
  cases outcome with
  | stopped | refused => exact .kept (by cases call <;> rfl) (not_accepts_of_output (by simp)) rfl
  | answered _ _ reads =>
    refine .kept (by cases call <;> first | rfl | cases reads) (unoffered ?_ _ _) rfl
    cases call <;> first | rfl | cases reads
  | totpSet drew _ batch | hotpSet drew _ batch =>
    exact codesEffect_setup { s with drawn := s.drawn + 1 } rfl (by rw [← batch]; rfl) rfl
      (nodup_backupCodesLoop List.nodup_nil drew) rfl
  | regenerated found drew =>
    exact codesEffect_setup s rfl rfl rfl (nodup_backupCodesLoop List.nodup_nil drew) rfl
  | totpBackup found _ accepted | hotpBackup found _ accepted =>
    exact codesEffect_backup rfl found accepted rfl
  | totpAccepted found _ other | hotpAccepted found _ other =>
    exact codesEffect_token rfl found other rfl rfl
  | registered => exact codesEffect_registered rfl rfl
  | disabled _ accepted =>
    exact codesEffect_disabled rfl (by rw [offered, (accepted_code accepted).1]; rfl)
  | authenticated => exact .kept rfl (unoffered rfl _ _) backupCodesOf_authenticated
  | registrationOffered | registrationExpired | authenticationOffered | authenticationExpired =>
    exact .kept rfl (unoffered rfl _ _) rfl

/-! ### Runs -/

/-- Every code that is left belongs to the batch installed last, and was not accepted since. -/
structure Left (history : List Event) (s : MFAProvider) (u : String) : Prop where
  nodup : (backupCodesOf s u).Nodup
  source : ∀ c ∈ backupCodesOf s u, ∃ l₁ d l₂ batch, history = l₁ ++ d :: l₂ ∧
    installed d u = some batch ∧ (∀ x ∈ l₂, installed x u = none) ∧ c ∈ batch ∧
    ∀ x ∈ l₂, ¬Accepts x u c

theorem left_step {history : List Event} (i : Input) (left : Left history s u) :
    Left (history ++ [entry (step env) s i]) (step env s i).1 u := by
  have extended : ∀ c ∈ backupCodesOf s u, installed (entry (step env) s i) u = none →
      ¬Accepts (entry (step env) s i) u c →
      ∃ l₁ d l₂ batch, history ++ [entry (step env) s i] = l₁ ++ d :: l₂ ∧
        installed d u = some batch ∧ (∀ x ∈ l₂, installed x u = none) ∧ c ∈ batch ∧
        ∀ x ∈ l₂, ¬Accepts x u c := by
    intro c mem none_installed unaccepted
    obtain ⟨l₁, d, l₂, batch, rfl, is_installed, since, member, unused⟩ := left.source c mem
    refine ⟨l₁, d, l₂ ++ [entry (step env) s i], batch, by simp, is_installed, ?_, member, ?_⟩
    · intro x mem
      rcases List.mem_append.mp mem with mem | last
      · exact since x mem
      · obtain rfl := List.mem_singleton.mp last
        exact none_installed
    · intro x mem
      rcases List.mem_append.mp mem with mem | last
      · exact unused x mem
      · obtain rfl := List.mem_singleton.mp last
        exact unaccepted
  cases codes_effect env s i u with
  | installed batch is_installed nodup codes =>
    have codes : backupCodesOf (step env s i).1 u = batch := codes
    rw [← codes] at nodup is_installed
    exact ⟨nodup, fun c mem => ⟨history, _, [], _, rfl, is_installed, by simp, mem, by simp⟩⟩
  | used c none_installed accepted codes =>
    have codes : backupCodesOf (step env s i).1 u = (backupCodesOf s u).erase c := codes
    refine ⟨codes ▸ left.nodup.erase c, fun c' mem => ?_⟩
    rw [codes, left.nodup.mem_erase_iff] at mem
    exact extended c' mem.2 none_installed fun again => mem.1 (again.unique accepted)
  | kept none_installed unused same =>
    have same : backupCodesOf (step env s i).1 u = backupCodesOf s u := same
    refine ⟨same ▸ left.nodup, fun c mem => ?_⟩
    exact extended c (same ▸ mem) none_installed (unused c)

theorem verifyOtp_unaccepted (type : MFAType) (valid : String → MFAConfig → Bool)
    (onSuccess : MFAConfig → MFAConfig) {code : Option String}
    (unaccepted : ∀ config, s.mfaConfigs.get? v = some config → config.mfaType = type →
      acceptsBackup config code = false) :
    (verifyOtp now type v code valid onSuccess).run s =
      (verifyOtp now type v none valid onSuccess).run s := by
  simp only [verifyOtp, Method.run_bind, Method.run_read]
  cases found : s.mfaConfigs.get? v with
  | none => rfl
  | some config =>
    by_cases same : config.mfaType = type
    · simp only [same, ne_eq, not_true_eq_false, if_false, unaccepted config found same]
      rfl
    · simp only [ne_eq, same, not_false_eq_true, if_true]

variable (now) in
theorem verifyOtp_accepted {type : MFAType} (valid : String → MFAConfig → Bool)
    (onSuccess : MFAConfig → MFAConfig) {code : Option String} {config : MFAConfig}
    (found : s.mfaConfigs.get? v = some config) (same : config.mfaType = type)
    (accepted : acceptsBackup config code = true) :
    ((verifyOtp now type v code valid onSuccess).run s).1 = .ok true := by
  simp only [verifyOtp, Method.run_bind, Method.run_read, found, same, ne_eq, not_true_eq_false,
    if_false, accepted, if_true]
  rfl

theorem disableMfa_unaccepted {code : Option String}
    (unaccepted : ∀ config, s.mfaConfigs.get? v = some config → acceptsBackup config code = false) :
    (disableMfa v code).run s = (.ok false, s) := by
  simp only [disableMfa, Method.run_bind, Method.run_read]
  cases found : s.mfaConfigs.get? v with
  | none => rfl
  | some config => simp only [unaccepted config found, Bool.false_eq_true, if_false, Method.run_pure]

theorem disableMfa_accepted {code : Option String} {config : MFAConfig}
    (found : s.mfaConfigs.get? v = some config) (accepted : acceptsBackup config code = true) :
    ((disableMfa v code).run s).1 = .ok true := by
  simp only [disableMfa, Method.run_bind, Method.run_read, found, accepted, if_true]
  rfl

/-- Offering a code that is not accepted is offering none. -/
theorem step_withoutCode {i : Input} (offers : offered i.call = some (u, c))
    (unaccepted : ¬Accepts (entry (step env) s i) u c) :
    step env s ⟨i.now, i.call.withoutCode⟩ = step env s i := by
  obtain ⟨now, call⟩ := i
  have chance : ∀ v code, offered call = (code.filter (· ≠ "")).map (fun c => (v, c)) →
      ∀ config, s.mfaConfigs.get? v = some config → acceptsBackup config code = true →
      (step env s ⟨now, call⟩).2 ≠ .ok (.answer true) := by
    intro v code shape config found accepted succeeds
    obtain ⟨c', solid, mem⟩ := acceptsBackup_iff.mp accepted
    rw [solid] at shape
    obtain ⟨rfl, rfl⟩ := Prod.mk.inj (Option.some.inj (shape.symm.trans offers))
    exact unaccepted ⟨offers, succeeds, backupCodesOf_get found ▸ mem⟩
  -- the two verifications by one-time password differ in their arguments only
  have otp : ∀ type valid onSuccess v code,
      offered call = (code.filter (· ≠ "")).map (fun c => (v, c)) →
      (step env s ⟨now, call⟩).2 =
        ((Reply.answer <$> verifyOtp now type v code valid onSuccess).run s).1 →
      (verifyOtp now type v code valid onSuccess).run s =
        (verifyOtp now type v none valid onSuccess).run s := by
    intro type valid onSuccess v code shape answer
    apply verifyOtp_unaccepted
    intro config found same
    by_contra accepted
    have accepted := Bool.eq_true_of_not_eq_false accepted
    apply chance v code shape config found accepted
    rw [answer]
    exact Method.run_map_ok _ (verifyOtp_accepted now valid onSuccess found same accepted)
  cases call with
  | verifyTotp v token code =>
    have same := otp .totp (fun secret _ => env.totpVerify secret token now s.settings.totpWindow) id v
      code rfl rfl
    have run : ∀ code, (verifyTotp env now v token code).run s = (verifyOtp now .totp v code
        (fun secret _ => env.totpVerify secret token now s.settings.totpWindow) id).run s := fun _ => rfl
    simp only [Call.withoutCode, step, perform, Method.run_map, run, same]
  | verifyHotp v token code =>
    have same := otp .hotp (fun secret config => env.hotpVerify secret token config.counter)
      (fun config => { config with counter := config.counter + 1 }) v code rfl rfl
    simp only [Call.withoutCode, step, perform, Method.run_map, verifyHotp, same]
  | disableMfa v code =>
    have refused : (disableMfa v code).run s = (.ok false, s) := by
      apply disableMfa_unaccepted
      intro config found
      by_contra accepted
      have accepted := Bool.eq_true_of_not_eq_false accepted
      exact chance v code rfl config found accepted
        (Method.run_map_ok _ (disableMfa_accepted found accepted))
    have unoffered : (disableMfa v none).run s = (.ok false, s) := disableMfa_unaccepted fun _ _ => rfl
    simp only [Call.withoutCode, step, perform, Method.run_map, refused, unoffered]
  | _ => cases offers

theorem refused_codes {i : Input} (refused : (step env s i).2 = .ok (.answer false)) (u : String) :
    backupCodesOf (step env s i).1 u = backupCodesOf s u := by
  cases codes_effect env s i u with
  | installed batch is_installed =>
    obtain ⟨now, call⟩ := i
    rw [entry, installed, refused] at is_installed
    cases call <;> cases is_installed
  | used c _ accepted => exact absurd accepted (not_accepts_of_output (by rw [entry, refused]; simp) c)
  | kept _ _ same => exact same

/-- What a step of a run has to do with backup codes, after this history. -/
structure OneTimeCodes (env : Env) (history : List Event) (e : Event) : Prop where
  /-- The codes of a batch are pairwise distinct. -/
  distinct : ∀ u batch, installed e u = some batch → batch.Nodup
  /-- A code is accepted from the batch installed last, and only where it was not accepted since. -/
  once : ∀ u c, Accepts e u c → ∃ l₁ d l₂ batch, history = l₁ ++ d :: l₂ ∧
    installed d u = some batch ∧ (∀ x ∈ l₂, installed x u = none) ∧ c ∈ batch ∧
    ∀ x ∈ l₂, ¬Accepts x u c
  /-- A code that is not accepted has no effect. -/
  others : ∀ u c, offered e.input.call = some (u, c) → ¬Accepts e u c →
    step env e.pre ⟨e.input.now, e.input.call.withoutCode⟩ = (e.post, e.output)
  /-- A call that returns `False` leaves every code where it is. -/
  refused : e.output = .ok (.answer false) → ∀ u, backupCodesOf e.post u = backupCodesOf e.pre u

/-- In every run backup codes are one-time. -/
theorem backup_codes_one_time (env : Env) (settings : Settings) (is : List Input) :
    ∀ l e l', trace (step env) (new settings) is = l ++ e :: l' → OneTimeCodes env l e := by
  intro l e l' split
  have mem : e ∈ trace (step env) (new settings) is := by
    rw [split]
    exact List.mem_append_cons_self
  have start : ∀ u, Left [] (new settings) u := by
    intro u
    have empty : backupCodesOf (new settings) u = [] := rfl
    exact ⟨empty ▸ List.nodup_nil, fun c member => by cases (empty ▸ member)⟩
  have left : ∀ u, Left l e.pre u := fun u =>
    history_split (fun history s => Left history s u) (start u) (fun _ _ i => left_step i) split
  constructor
  · intro u batch is_installed
    rw [entry_of_mem mem] at is_installed
    cases codes_effect env e.pre e.input u with
    | installed batch' is_installed' nodup =>
      exact Option.some.inj (is_installed'.symm.trans is_installed) ▸ nodup
    | used _ none_installed => cases none_installed.symm.trans is_installed
    | kept none_installed => cases none_installed.symm.trans is_installed
  · intro u c accepted
    exact (left u).source c accepted.left
  · intro u c offers unaccepted
    rw [entry_of_mem mem] at unaccepted
    rw [step_withoutCode offers unaccepted, entry_of_mem mem]
    rfl
  · intro refused
    rw [entry_of_mem mem] at refused ⊢
    exact refused_codes refused

def usedRun : List Input :=
  [⟨0, .setupTotp "ann" none [Fin.last 999999]⟩, ⟨1, .verifyTotp "ann" "" (some "999999")⟩]

theorem usedRun_one_time : OneTimeCodes sampleEnv
    (trace (step sampleEnv) (new sampleSettings) (usedRun.take 1))
    (entry (step sampleEnv) (run (step sampleEnv) (new sampleSettings) (usedRun.take 1)) usedRun[1]) :=
  backup_codes_one_time sampleEnv sampleSettings usedRun _ _ [] rfl

end BtApiSecurity.Mfa.MFAProvider
