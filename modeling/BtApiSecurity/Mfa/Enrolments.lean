import BtApiSecurity.Ledger
import BtApiSecurity.Mfa.BackupCodes

/-!
# Enrolments by their history

What the calls of the provider and their answers say of a user: the secret that tokens are
checked against, the backup codes that are left, the number of tokens that passed, and with
these what the next verification answers.
-/

namespace BtApiSecurity.Mfa.MFAProvider
open Py Machine

variable {env : Env} {s : MFAProvider} {now : Time} {u v c : String}

/-! ### What calls and answers say -/

/-- The kind of password, and the secret, that a call sets the user up with. -/
def setUp (e : Event) (u : String) : Option (MFAType × String) :=
  match e.input.call, e.output with
  | .setupTotp userId _ _, .ok (.totp setup) => if userId = u then some (.totp, setup.secret) else none
  | .setupHotp userId _ _, .ok (.hotp setup) => if userId = u then some (.hotp, setup.secret) else none
  | _, _ => none

def registers (e : Event) (u : String) : Bool :=
  match e.input.call, e.output with
  | .verifyWebauthnRegistration userId _, .ok (.answer true) => userId = u
  | _, _ => false

/-- A verification of the user that answers `True`. -/
def passes (e : Event) (u : String) : Bool :=
  match e.input.call, e.output with
  | .verifyTotp userId _ _, .ok (.answer true) | .verifyHotp userId _ _, .ok (.answer true) => userId = u
  | _, _ => false

def Redeems (u c : String) (e : Event) : Prop :=
  offered e.input.call = some (u, c) ∧ e.output = .ok (.answer true)

def Replaces (u : String) (e : Event) : Prop :=
  setUp e u ≠ none ∨ registers e u = true ∨ disables e u = true

/-- The user is to be verified with passwords of this kind under this secret. -/
def Enrolled (u : String) (type : MFAType) (secret : String) : List Event → Prop :=
  Lasting (fun e => setUp e u = some (type, secret)) (Replaces u)

/-- The code is of the batch handed out last, and was not redeemed since. A registration or a disabling
leaves an empty batch. -/
def CodeStands (u c : String) : List Event → Prop :=
  Lasting (fun e => ∃ batch, installed e u = some batch ∧ c ∈ batch)
    fun e => installed e u ≠ none ∨ Redeems u c e

def Redeemable (u : String) (code : Option String) (history : List Event) : Prop :=
  ∃ c, code = some c ∧ c ≠ "" ∧ CodeStands u c history

/-- The verification passes by its token, for no backup code of the user comes with it. -/
def ByToken (u : String) (history : List Event) (e : Event) : Prop :=
  passes e u = true ∧ ∀ c, Redeems u c e → ¬CodeStands u c history

def Enabled (u : String) : List Event → Prop :=
  LastingFrom (fun before e => ByToken u before e ∨ registers e u = true)
    fun e => setUp e u ≠ none ∨ disables e u = true

open Classical in
noncomputable def tokensBefore (u : String) : List Event → Nat
  | [] => 0
  | e :: before =>
    if Replaces u e then 0
    else tokensBefore u before + if ByToken u before.reverse e then 1 else 0

/-- The tokens of the user that passed since the last enrolment. -/
noncomputable def tokensPassed (u : String) (history : List Event) : Nat := tokensBefore u history.reverse

/-! ### The factor of a user -/

/-- What the record of a user says about verifications. -/
structure Factor where
  mfaType : MFAType
  secret : Option String
  counter : Int
  isEnabled : Bool

def factor (config : MFAConfig) : Factor :=
  { mfaType := config.mfaType, secret := config.secret, counter := config.counter
    isEnabled := config.isEnabled }

def factorOf (s : MFAProvider) (u : String) : Option Factor := (s.mfaConfigs.get? u).map factor

theorem factorOf_withConfig (v : String) (config : MFAConfig) (u : String) :
    factorOf (s.withConfig v config) u = if v = u then some (factor config) else factorOf s u := by
  unfold factorOf
  rw [withConfig, Dict.get?_set]
  by_cases same : v = u
  · rw [if_pos same, if_pos same]
    rfl
  · rw [if_neg same, if_neg same]

theorem factorOf_replaced {old : MFAConfig} (new : MFAConfig) (found : s.mfaConfigs.get? v = some old)
    (same : factor new = factor old) : factorOf (s.withConfig v new) u = factorOf s u := by
  rw [factorOf_withConfig]
  split
  · rename_i here
    rw [← here, same, factorOf, found]
    rfl
  · rfl

theorem factorOf_authenticated {key : String} {credential : WebAuthnCredential} {signCount : Nat} :
    factorOf (s.authenticated now v key credential signCount) u = factorOf s u := by
  cases found : s.mfaConfigs.get? v with
  | none =>
    unfold factorOf
    rw [MFAProvider.authenticated, found]
  | some config =>
    have replaced := factorOf_replaced (u := u) { config with lastUsed := some now } found rfl
    unfold factorOf at replaced ⊢
    rw [MFAProvider.authenticated, found]
    exact replaced

/-! ### One step -/

/-- What a step does to the factor of a user. -/
inductive FactorEffect (e : Event) (u : String) : Prop
  | set (type : MFAType) (secret : String) (f : Factor) (is_set : setUp e u = some (type, secret))
      (unpassed : passes e u = false) (unregistered : registers e u = false)
      (now : factorOf e.post u = some f) (kind : f.mfaType = type) (key : f.secret = some secret)
      (start : type = .hotp → f.counter = e.pre.settings.hotpCounterStart) (off : f.isEnabled = false)
  | registered (f : Factor) (unset : setUp e u = none) (is_registered : registers e u = true)
      (now : factorOf e.post u = some f) (kind : f.mfaType = .webauthn) (keyless : f.secret = none) (on : f.isEnabled = true)
  | disabled (unset : setUp e u = none) (unpassed : passes e u = false) (unregistered : registers e u = false)
      (is_disabled : disables e u = true) (gone : factorOf e.post u = none)
  | passed (f f' : Factor) (unreplaced : ¬Replaces u e) (passed : passes e u = true)
      (none_left : ∀ c, ¬Accepts e u c) (before : factorOf e.pre u = some f)
      (now : factorOf e.post u = some f') (kind : f'.mfaType = f.mfaType) (key : f'.secret = f.secret)
      (next : f.mfaType = .hotp → f'.counter = f.counter + 1) (on : f'.isEnabled = true)
  | kept (unreplaced : ¬Replaces u e) (redeemed : passes e u = true → ∃ c, Accepts e u c)
      (same : factorOf e.post u = factorOf e.pre u)

theorem unreplaced {e : Event} (set : setUp e u = none) (registered : registers e u = false)
    (disabled : disables e u = false) : ¬Replaces u e := by
  simp [Replaces, set, registered, disabled]

theorem quiet_of_unreplaced {e : Event} (unreplaced : ¬Replaces u e) :
    setUp e u = none ∧ registers e u = false ∧ disables e u = false := by
  simpa [Replaces] using unreplaced

theorem factorEffect_quiet {e : Event} (set : setUp e u = none) (registered : registers e u = false)
    (disabled : disables e u = false) (unpassed : passes e u = false)
    (same : factorOf e.post u = factorOf e.pre u) : FactorEffect e u :=
  .kept (unreplaced set registered disabled) (fun passed => by cases unpassed.symm.trans passed) same

theorem factorEffect_set {call : Call} {reply : Except Stop Reply} {config : MFAConfig} {type : MFAType}
    {secret : String} (t : MFAProvider) (rest : t.mfaConfigs = s.mfaConfigs)
    (returned : setUp ⟨s, ⟨now, call⟩, reply, t.withConfig v config⟩ u =
      if v = u then some (type, secret) else none)
    (registered : registers ⟨s, ⟨now, call⟩, reply, t.withConfig v config⟩ u = false)
    (disabled : disables ⟨s, ⟨now, call⟩, reply, t.withConfig v config⟩ u = false)
    (unpassed : passes ⟨s, ⟨now, call⟩, reply, t.withConfig v config⟩ u = false)
    (kind : config.mfaType = type) (key : config.secret = some secret)
    (start : type = .hotp → config.counter = s.settings.hotpCounterStart) (off : config.isEnabled = false) :
    FactorEffect ⟨s, ⟨now, call⟩, reply, t.withConfig v config⟩ u := by
  have stored := factorOf_withConfig (s := t) v config u
  by_cases same : v = u
  · rw [if_pos same] at returned stored
    exact .set type secret _ returned unpassed registered stored kind key start off
  · rw [if_neg same] at returned stored
    refine factorEffect_quiet returned registered disabled unpassed (stored.trans ?_)
    unfold factorOf
    rw [rest]

/-- A verification by a backup code leaves the factor alone. -/
theorem factorEffect_backup {call : Call} {code : String} {config : MFAConfig}
    (offers : offered call = ((some code).filter (· ≠ "")).map fun c => (v, c))
    (found : s.mfaConfigs.get? v = some config) (accepted : acceptsBackup config (some code) = true)
    (unreplaced : ¬Replaces u ⟨s, ⟨now, call⟩, .ok (.answer true), s.withoutBackup now v config code⟩)
    (passes_is : passes ⟨s, ⟨now, call⟩, .ok (.answer true), s.withoutBackup now v config code⟩ u =
      decide (v = u)) :
    FactorEffect ⟨s, ⟨now, call⟩, .ok (.answer true), s.withoutBackup now v config code⟩ u := by
  refine .kept unreplaced (fun passed => ?_) (factorOf_replaced _ found rfl)
  obtain rfl : v = u := by simpa [passed] using passes_is
  obtain ⟨solid, mem⟩ := accepted_code accepted
  exact ⟨code, by rw [solid] at offers; exact offers, rfl, backupCodesOf_get found ▸ mem⟩

theorem factorEffect_token {call : Call} {code : Option String} {config new : MFAConfig}
    (offers : offered call = (code.filter (· ≠ "")).map fun c => (v, c))
    (found : s.mfaConfigs.get? v = some config) (other : acceptsBackup config code = false)
    (unreplaced : ¬Replaces u ⟨s, ⟨now, call⟩, .ok (.answer true), s.withConfig v new⟩)
    (passes_is : passes ⟨s, ⟨now, call⟩, .ok (.answer true), s.withConfig v new⟩ u = decide (v = u))
    (kind : new.mfaType = config.mfaType) (key : new.secret = config.secret)
    (next : config.mfaType = .hotp → new.counter = config.counter + 1) (on : new.isEnabled = true) :
    FactorEffect ⟨s, ⟨now, call⟩, .ok (.answer true), s.withConfig v new⟩ u := by
  have stored := factorOf_withConfig (s := s) v new u
  by_cases same : v = u
  · subst same
    have before : factorOf s v = some (factor config) := by rw [factorOf, found]; rfl
    rw [if_pos rfl] at stored
    have passed := passes_is.trans (decide_eq_true rfl)
    refine .passed _ _ unreplaced passed (fun c accepts => ?_) before stored kind key next on
    obtain ⟨c', solid, is_offer⟩ := Option.map_eq_some_iff.mp (offers.symm.trans accepts.offers)
    obtain ⟨-, rfl⟩ := Prod.mk.inj is_offer
    have accepted := acceptsBackup_iff.mpr ⟨c', solid, backupCodesOf_get found ▸ accepts.left⟩
    rw [accepted] at other
    cases other
  · rw [if_neg same] at stored
    exact .kept unreplaced (fun passed => by simp [passed, same] at passes_is) stored

theorem factorEffect_registered {data : CredentialData} {credential : WebAuthnCredential} :
    FactorEffect ⟨s, ⟨now, .verifyWebauthnRegistration v data⟩, .ok (.answer true),
      s.registered now v credential⟩ u := by
  have stored : ∃ config : MFAConfig, config.mfaType = .webauthn ∧ config.secret = none ∧
      config.isEnabled = true ∧
      factorOf (s.registered now v credential) u = factorOf (s.withConfig v config) u :=
    ⟨_, rfl, rfl, rfl, rfl⟩
  obtain ⟨config, kind, keyless, on, stored⟩ := stored
  rw [factorOf_withConfig] at stored
  by_cases same : v = u
  · rw [if_pos same] at stored
    exact .registered _ rfl (decide_eq_true same) stored kind keyless on
  · rw [if_neg same] at stored
    exact factorEffect_quiet rfl (decide_eq_false same) rfl rfl stored

theorem factorEffect_disabled {code : Option String} {config : MFAConfig} :
    FactorEffect ⟨s, ⟨now, .disableMfa v code⟩, .ok (.answer true), s.disabled v config⟩ u := by
  by_cases same : v = u
  · subst same
    refine .disabled rfl rfl rfl (decide_eq_true rfl) ?_
    show factorOf (s.disabled v config) v = none
    rw [factorOf, MFAProvider.disabled, Dict.get?_erase_self]
    rfl
  · refine factorEffect_quiet rfl rfl (decide_eq_false same) rfl ?_
    show factorOf (s.disabled v config) u = factorOf s u
    rw [factorOf, MFAProvider.disabled, Dict.get?_erase_of_ne _ same]
    rfl

theorem factor_effect (env : Env) (s : MFAProvider) (i : Input) (u : String) :
    FactorEffect (entry (step env) s i) u := by
  have outcome := step_outcome env s i
  obtain ⟨now, call⟩ := i
  rw [entry]
  generalize step env s ⟨now, call⟩ = taken at outcome ⊢
  obtain ⟨post, reply⟩ := taken
  cases outcome with
  | stopped | refused =>
    exact factorEffect_quiet (by cases call <;> rfl) (by cases call <;> rfl) (by cases call <;> rfl)
      (by cases call <;> rfl) rfl
  | answered _ reply reads =>
    cases call with
    | getMfaStatus | isMfaEnabled => exact factorEffect_quiet rfl rfl rfl rfl rfl
    | _ => cases reads
  | totpSet _ secret =>
    exact factorEffect_set { s with drawn := s.drawn + 1 } rfl (by rw [← secret]; rfl) rfl rfl rfl
      rfl rfl (fun same => by cases same) rfl
  | hotpSet _ secret =>
    exact factorEffect_set { s with drawn := s.drawn + 1 } rfl (by rw [← secret]; rfl) rfl rfl rfl
      rfl rfl (fun _ => rfl) rfl
  | regenerated found => exact factorEffect_quiet rfl rfl rfl rfl (factorOf_replaced _ found rfl)
  | totpBackup found _ accepted | hotpBackup found _ accepted =>
    exact factorEffect_backup rfl found accepted (unreplaced rfl rfl rfl) rfl
  | totpAccepted found type other =>
    exact factorEffect_token rfl found other (unreplaced rfl rfl rfl) rfl rfl rfl
      (fun hotp => by rw [type] at hotp; cases hotp) rfl
  | hotpAccepted found type other =>
    exact factorEffect_token rfl found other (unreplaced rfl rfl rfl) rfl rfl rfl (fun _ => rfl) rfl
  | registered => exact factorEffect_registered
  | disabled => exact factorEffect_disabled
  | authenticated => exact factorEffect_quiet rfl rfl rfl rfl factorOf_authenticated
  | registrationOffered | registrationExpired | authenticationOffered | authenticationExpired =>
    exact factorEffect_quiet rfl rfl rfl rfl rfl

/-! ### Runs -/

theorem settings_step (env : Env) (s : MFAProvider) (i : Input) : (step env s i).1.settings = s.settings := by
  have outcome := step_outcome env s i
  obtain ⟨now, call⟩ := i
  generalize (step env s ⟨now, call⟩).1 = post at outcome ⊢
  generalize (step env s ⟨now, call⟩).2 = reply at outcome
  cases outcome with
  | _ => rfl

section
variable (env) (settings : Settings) (is : List Input)

theorem settings_run : (run (step env) (new settings) is).settings = settings := by
  induction is using List.reverseRecOn with
  | nil => rfl
  | append_singleton is i ih => rw [run_append, run_cons, run_nil, settings_step, ih]

theorem nodup_run (u : String) : (backupCodesOf (run (step env) (new settings) is) u).Nodup := by
  induction is using List.reverseRecOn with
  | nil => exact List.nodup_nil
  | append_singleton is i ih =>
    rw [run_append, run_cons, run_nil]
    cases codes_effect env (run (step env) (new settings) is) i u with
    | installed _ _ nodup now => exact now ▸ nodup
    | used c _ _ now => exact now ▸ ih.erase c
    | kept _ _ same => exact same ▸ ih

/-- The codes left are those that the answers say. -/
theorem codeStands_iff (u c : String) : c ∈ backupCodesOf (run (step env) (new settings) is) u ↔
    CodeStands u c (trace (step env) (new settings) is) := by
  refine lastingFrom_run (P := fun s => c ∈ backupCodesOf s u) List.not_mem_nil (fun is i => ?_) is
  have nodup := nodup_run env settings is u
  generalize run (step env) (new settings) is = s at nodup ⊢
  cases codes_effect env s i u with
  | installed batch is_installed _ now =>
    have now : backupCodesOf (step env s i).1 u = batch := now
    rw [now]
    simp [is_installed]
  | used c' none_installed accepted now =>
    have now : backupCodesOf (step env s i).1 u = (backupCodesOf s u).erase c' := now
    have redeemed : Redeems u c (entry (step env) s i) ↔ c = c' :=
      ⟨fun h => (Prod.mk.inj (Option.some.inj (h.1.symm.trans accepted.offers))).2,
        fun same => same ▸ ⟨accepted.offers, accepted.succeeds⟩⟩
    rw [now, nodup.mem_erase_iff, redeemed]
    simp [none_installed, and_comm]
  | kept none_installed unused same =>
    have same : backupCodesOf (step env s i).1 u = backupCodesOf s u := same
    have unredeemed : c ∈ backupCodesOf s u → ¬Redeems u c (entry (step env) s i) :=
      fun left redeemed => unused c ⟨redeemed.1, redeemed.2, left⟩
    rw [same]
    simp [none_installed]
    exact fun left => unredeemed left

theorem accepts_iff (i : Input) (u c : String) :
    Accepts (entry (step env) (run (step env) (new settings) is) i) u c ↔
      Redeems u c (entry (step env) (run (step env) (new settings) is) i) ∧
        CodeStands u c (trace (step env) (new settings) is) := by
  rw [← codeStands_iff]
  exact ⟨fun h => ⟨⟨h.offers, h.succeeds⟩, h.left⟩, fun h => ⟨h.1.1, h.1.2, h.2⟩⟩

theorem byToken_iff (i : Input) (u : String) :
    ByToken u (trace (step env) (new settings) is) (entry (step env) (run (step env) (new settings) is) i) ↔
      passes (entry (step env) (run (step env) (new settings) is) i) u = true ∧
        ∀ c, ¬Accepts (entry (step env) (run (step env) (new settings) is) i) u c := by
  simp only [ByToken, accepts_iff, not_and]

end

section
variable {history : List Event} {e : Event}

theorem tokensPassed_replaced (replaced : Replaces u e) : tokensPassed u (history ++ [e]) = 0 := by
  simp [tokensPassed, tokensBefore, replaced]

theorem tokensPassed_token (unreplaced : ¬Replaces u e) (token : ByToken u history e) :
    tokensPassed u (history ++ [e]) = tokensPassed u history + 1 := by
  have token : ByToken u history.reverse.reverse e := by rwa [List.reverse_reverse]
  simp [tokensPassed, tokensBefore, unreplaced, if_pos token]

theorem tokensPassed_other (unreplaced : ¬Replaces u e) (other : ¬ByToken u history e) :
    tokensPassed u (history ++ [e]) = tokensPassed u history := by
  have other : ¬ByToken u history.reverse.reverse e := by rwa [List.reverse_reverse]
  simp [tokensPassed, tokensBefore, unreplaced, if_neg other]

end

section
variable (env) (settings : Settings) (is : List Input)

theorem enrolled_iff (u : String) (type : MFAType) (secret : String) :
    (∃ f, factorOf (run (step env) (new settings) is) u = some f ∧ f.mfaType = type ∧ f.secret = some secret) ↔
      Enrolled u type secret (trace (step env) (new settings) is) := by
  refine lasting_run (P := fun s => ∃ f, factorOf s u = some f ∧ f.mfaType = type ∧
    f.secret = some secret) (by rintro ⟨_, ⟨⟩, _⟩) (fun s i => ?_) is
  cases factor_effect env s i u with
  | set type' secret' f is_set _ _ now kind key =>
    have now : factorOf (step env s i).1 u = some f := now
    have replaced : Replaces u (entry (step env) s i) := .inl (by rw [is_set]; simp)
    simp [now, is_set, kind, key, replaced]
  | registered f unset is_registered now kind keyless =>
    have now : factorOf (step env s i).1 u = some f := now
    have replaced : Replaces u (entry (step env) s i) := .inr (.inl is_registered)
    simp [now, unset, keyless, replaced]
  | disabled unset _ _ is_disabled gone =>
    have gone : factorOf (step env s i).1 u = none := gone
    have replaced : Replaces u (entry (step env) s i) := .inr (.inr is_disabled)
    simp [gone, unset, replaced]
  | passed f f' unreplaced _ _ before now kind key =>
    have before : factorOf s u = some f := before
    have now : factorOf (step env s i).1 u = some f' := now
    simp [now, before, kind, key, unreplaced, (quiet_of_unreplaced unreplaced).1]
  | kept unreplaced _ same =>
    have same : factorOf (step env s i).1 u = factorOf s u := same
    simp [same, unreplaced, (quiet_of_unreplaced unreplaced).1]

theorem keyed_run (u : String) : ∀ f, factorOf (run (step env) (new settings) is) u = some f →
    f.mfaType = .webauthn ∨ ∃ secret, f.secret = some secret := by
  induction is using List.reverseRecOn with
  | nil => intro f found; cases found
  | append_singleton is i ih =>
    intro f' found
    rw [run_append, run_cons, run_nil] at found
    cases factor_effect env (run (step env) (new settings) is) i u with
    | set type secret f _ _ _ now _ key =>
      obtain rfl := Option.some.inj (found.symm.trans now)
      exact .inr ⟨secret, key⟩
    | registered f _ _ now kind =>
      obtain rfl := Option.some.inj (found.symm.trans now)
      exact .inl kind
    | disabled _ _ _ _ gone => cases found.symm.trans gone
    | passed f _ _ _ _ before now kind key =>
      obtain rfl := Option.some.inj (found.symm.trans now)
      rw [kind, key]
      exact ih f before
    | kept _ _ same => exact ih f' (same.symm.trans found)

/-- The counter is the start plus the tokens that passed. -/
theorem counter_run (u : String) : ∀ f, factorOf (run (step env) (new settings) is) u = some f →
    f.mfaType = .hotp → f.counter = settings.hotpCounterStart + tokensPassed u (trace (step env) (new settings) is) := by
  induction is using List.reverseRecOn with
  | nil => intro f found; cases found
  | append_singleton is i ih =>
    intro f' found hotp
    have settled := settings_run env settings is
    have token := byToken_iff env settings is i u
    rw [run_append, run_cons, run_nil] at found
    rw [trace_append, trace, trace]
    cases factor_effect env (run (step env) (new settings) is) i u with
    | set type secret f is_set _ _ now kind _ start =>
      obtain rfl := Option.some.inj (found.symm.trans now)
      rw [tokensPassed_replaced (.inl (by rw [is_set]; simp)), start (kind.symm.trans hotp), entry_pre, settled]
      simp
    | registered f _ _ now kind =>
      obtain rfl := Option.some.inj (found.symm.trans now)
      cases kind.symm.trans hotp
    | disabled _ _ _ _ gone => cases found.symm.trans gone
    | passed f _ unreplaced passed none_left before now kind _ next =>
      obtain rfl := Option.some.inj (found.symm.trans now)
      have hotp := kind.symm.trans hotp
      rw [tokensPassed_token unreplaced (token.mpr ⟨passed, none_left⟩), next hotp, ih f before hotp]
      push_cast
      ring
    | kept unreplaced redeemed same =>
      have other : ¬ByToken u (trace (step env) (new settings) is)
          (entry (step env) (run (step env) (new settings) is) i) := by
        intro h
        obtain ⟨passed, none_left⟩ := token.mp h
        obtain ⟨c, accepted⟩ := redeemed passed
        exact none_left c accepted
      rw [tokensPassed_other unreplaced other]
      exact ih f' (same.symm.trans found) hotp

theorem enabled_iff (u : String) : (run (step env) (new settings) is).isMfaEnabled u = true ↔
    Enabled u (trace (step env) (new settings) is) := by
  have shown : ∀ s : MFAProvider, s.isMfaEnabled u = (factorOf s u).any (·.isEnabled) := by
    intro s
    rw [isMfaEnabled, factorOf, Option.any_map]
    rfl
  have start : ¬(new settings).isMfaEnabled u = true := Bool.false_ne_true
  refine lastingFrom_run (P := fun s => isMfaEnabled s u = true) start (fun is i => ?_) is
  have token := byToken_iff env settings is i u
  generalize trace (step env) (new settings) is = history at token ⊢
  generalize run (step env) (new settings) is = s at token ⊢
  rw [shown, shown, token]
  cases factor_effect env s i u with
  | set type secret f is_set unpassed unregistered now _ _ _ off =>
    have now : factorOf (step env s i).1 u = some f := now
    simp [now, off, is_set, unpassed, unregistered]
  | registered f unset is_registered now _ _ on =>
    have now : factorOf (step env s i).1 u = some f := now
    simp [now, on, is_registered]
  | disabled unset unpassed unregistered is_disabled gone =>
    have gone : factorOf (step env s i).1 u = none := gone
    simp [gone, unpassed, unregistered, is_disabled]
  | passed f f' _ passed none_left _ now _ _ _ on =>
    have now : factorOf (step env s i).1 u = some f' := now
    simp [now, on, passed, none_left]
  | kept unreplaced redeemed same =>
    have same : factorOf (step env s i).1 u = factorOf s u := same
    have other : ¬(passes (entry (step env) s i) u = true ∧ ∀ c, ¬Accepts (entry (step env) s i) u c) := by
      rintro ⟨passed, none_left⟩
      obtain ⟨c, accepted⟩ := redeemed passed
      exact none_left c accepted
    obtain ⟨unset, unregistered, undisabled⟩ := quiet_of_unreplaced unreplaced
    simp [same, other, unset, unregistered, undisabled]

theorem recorded_iff (u : String) : (∃ f, factorOf (run (step env) (new settings) is) u = some f) ↔
    Lasting (fun e => setUp e u ≠ none ∨ registers e u = true) (fun e => disables e u = true)
      (trace (step env) (new settings) is) := by
  refine lasting_run (P := fun s => ∃ f, factorOf s u = some f) (by rintro ⟨_, ⟨⟩⟩) (fun s i => ?_) is
  cases factor_effect env s i u with
  | set type secret f is_set _ _ now =>
    have now : factorOf (step env s i).1 u = some f := now
    simp [now, is_set]
  | registered f _ is_registered now =>
    have now : factorOf (step env s i).1 u = some f := now
    simp [now, is_registered]
  | disabled unset _ unregistered is_disabled gone =>
    have gone : factorOf (step env s i).1 u = none := gone
    simp [gone, unset, unregistered, is_disabled]
  | passed f f' unreplaced _ _ before now =>
    have before : factorOf s u = some f := before
    have now : factorOf (step env s i).1 u = some f' := now
    obtain ⟨unset, unregistered, undisabled⟩ := quiet_of_unreplaced unreplaced
    simp [now, before, unset, unregistered, undisabled]
  | kept unreplaced _ same =>
    have same : factorOf (step env s i).1 u = factorOf s u := same
    obtain ⟨unset, unregistered, undisabled⟩ := quiet_of_unreplaced unreplaced
    simp [same, unset, unregistered, undisabled]

end

/-! ### Answers -/

variable {code : Option String} {config : MFAConfig}

theorem verifyOtp_true_iff (now : Time) (type : MFAType) (valid : String → MFAConfig → Bool)
    (onSuccess : MFAConfig → MFAConfig) : ((verifyOtp now type u code valid onSuccess).run s).1 = .ok true ↔
      ∃ config, s.mfaConfigs.get? u = some config ∧ config.mfaType = type ∧
        (acceptsBackup config code = true ∨
          ∃ secret, config.secret = some secret ∧ secret ≠ "" ∧ valid secret config = true) := by
  have stored : ∀ config, ((do storeConfig u config; pure true : M Bool).run s).1 = .ok true := fun _ => rfl
  simp only [verifyOtp, Method.run_bind, Method.run_read]
  cases found : s.mfaConfigs.get? u with
  | none => simp
  | some config =>
    by_cases kind : config.mfaType = type
    · cases accepted : acceptsBackup config code with
      | true => simp [kind, accepted, stored]
      | false =>
        cases key : config.secret with
        | none => simp [kind, accepted, key]
        | some secret =>
          by_cases blank : secret = ""
          · simp [kind, accepted, key, blank]
          · cases checked : valid secret config with
            | true => simp [kind, accepted, key, blank, checked, stored]
            | false => simp [kind, accepted, key, blank, checked]
    · simp [kind]

theorem disableMfa_true_iff : ((disableMfa u code).run s).1 = .ok true ↔
    ∃ config, s.mfaConfigs.get? u = some config ∧ acceptsBackup config code = true := by
  constructor
  · intro answered
    by_contra none
    have unaccepted : ∀ config, s.mfaConfigs.get? u = some config → acceptsBackup config code = false := by
      intro config found
      by_contra accepted
      exact none ⟨config, found, by simpa using accepted⟩
    rw [disableMfa_unaccepted unaccepted] at answered
    cases answered
  · rintro ⟨config, found, accepted⟩
    exact disableMfa_accepted found accepted

theorem acceptsBackup_iff_redeemable (env : Env) (settings : Settings) (is : List Input)
    (found : (run (step env) (new settings) is).mfaConfigs.get? u = some config) :
    acceptsBackup config code = true ↔ Redeemable u code (trace (step env) (new settings) is) := by
  rw [acceptsBackup_iff, Redeemable]
  refine exists_congr fun c => ?_
  rw [← codeStands_iff, backupCodesOf_get found, Option.filter_eq_some_iff, and_assoc]
  simp

section
variable (env : Env) (settings : Settings) (is : List Input)

theorem verified_iff_enrolled {type : MFAType} (password : type ≠ .webauthn)
    {valid : String → MFAConfig → Bool} {accepts : String → Bool} (onSuccess : MFAConfig → MFAConfig)
    (now : Time) (u : String) (code : Option String)
    (same : ∀ config, (run (step env) (new settings) is).mfaConfigs.get? u = some config →
      config.mfaType = type → ∀ secret, valid secret config = accepts secret) :
    ((verifyOtp now type u code valid onSuccess).run (run (step env) (new settings) is)).1 = .ok true ↔
      ∃ secret, Enrolled u type secret (trace (step env) (new settings) is) ∧
        (Redeemable u code (trace (step env) (new settings) is) ∨ secret ≠ "" ∧ accepts secret = true) := by
  rw [verifyOtp_true_iff]
  constructor
  · rintro ⟨config, found, kind, verified⟩
    have stored : factorOf (run (step env) (new settings) is) u = some (factor config) := by
      rw [factorOf, found]
      rfl
    have is_password : (factor config).mfaType ≠ .webauthn := fun webauthn => password (kind.symm.trans webauthn)
    obtain ⟨secret, key⟩ := (keyed_run env settings is u _ stored).resolve_left is_password
    refine ⟨secret, (enrolled_iff env settings is u type secret).mp ⟨_, stored, kind, key⟩, ?_⟩
    rcases verified with accepted | ⟨secret', key', solid, checked⟩
    · exact .inl ((acceptsBackup_iff_redeemable env settings is found).mp accepted)
    · obtain rfl := Option.some.inj (key.symm.trans key')
      rw [same config found kind] at checked
      exact .inr ⟨solid, checked⟩
  · rintro ⟨secret, enrolled, verified⟩
    obtain ⟨f, stored, kind, key⟩ := (enrolled_iff env settings is u type secret).mpr enrolled
    obtain ⟨config, found, rfl⟩ := Option.map_eq_some_iff.mp stored
    refine ⟨config, found, kind, ?_⟩
    rcases verified with redeemable | ⟨solid, checked⟩
    · exact .inl ((acceptsBackup_iff_redeemable env settings is found).mpr redeemable)
    · rw [← same config found kind] at checked
      exact .inr ⟨secret, key, solid, checked⟩

end

/-- What the provider answers about a user, told from the calls so far and their answers. -/
structure AnswersFrom (env : Env) (settings : Settings) (history : List Event) (s : MFAProvider) (u : String) :
    Prop where
  totp : ∀ now token code, (step env s ⟨now, .verifyTotp u token code⟩).2 = .ok (.answer true) ↔
    ∃ secret, Enrolled u .totp secret history ∧ (Redeemable u code history ∨
      secret ≠ "" ∧ env.totpVerify secret token now settings.totpWindow = true)
  -- the moving factor is the start and the tokens that passed
  hotp : ∀ now token code, (step env s ⟨now, .verifyHotp u token code⟩).2 = .ok (.answer true) ↔
    ∃ secret, Enrolled u .hotp secret history ∧ (Redeemable u code history ∨
      secret ≠ "" ∧ env.hotpVerify secret token (settings.hotpCounterStart + tokensPassed u history) = true)
  disabled : ∀ now code, (step env s ⟨now, .disableMfa u code⟩).2 = .ok (.answer true) ↔
    Redeemable u code history
  recorded : (s.getMfaStatus u).isSome = true ↔
    Lasting (fun e => setUp e u ≠ none ∨ registers e u = true) (fun e => disables e u = true) history
  enabled : s.isMfaEnabled u = true ↔ Enabled u history

/-- In every run the provider answers what the calls so far and their answers say. -/
theorem answers_by_history (env : Env) (settings : Settings) (is : List Input) (u : String) :
    AnswersFrom env settings (trace (step env) (new settings) is) (run (step env) (new settings) is) u := by
  have answer : ∀ (m : M Bool) (s : MFAProvider),
      ((Reply.answer <$> m).run s).1 = .ok (.answer true) ↔ (m.run s).1 = .ok true := by
    intro m s
    rw [Method.run_map_fst]
    cases (m.run s).1 with
    | error stop => simp [Except.map]
    | ok b => simp [Except.map]
  have settled := settings_run env settings is
  constructor
  · intro now token code
    have password : MFAType.totp ≠ .webauthn := by decide
    refine (answer _ _).trans (verified_iff_enrolled env settings is password id now u code ?_)
    intro config found totp secret
    rw [settled]
  · intro now token code
    have password : MFAType.hotp ≠ .webauthn := by decide
    refine (answer _ _).trans (verified_iff_enrolled env settings is password _ now u code ?_)
    intro config found hotp secret
    have stored : factorOf (run (step env) (new settings) is) u = some (factor config) := by
      rw [factorOf, found]
      rfl
    rw [← counter_run env settings is u _ stored hotp]
    rfl
  · intro now code
    refine (answer _ _).trans (disableMfa_true_iff.trans ?_)
    constructor
    · rintro ⟨config, found, accepted⟩
      exact (acceptsBackup_iff_redeemable env settings is found).mp accepted
    · rintro ⟨c, rfl, solid, stands⟩
      have left := (codeStands_iff env settings is u c).mpr stands
      unfold backupCodesOf at left
      split at left
      · rename_i config found
        exact ⟨config, found, acceptsBackup_iff.mpr ⟨c, by simp [solid], left⟩⟩
      · cases left
  · rw [← recorded_iff, getMfaStatus, Option.isSome_iff_exists]
    simp [factorOf]
  · exact enabled_iff env settings is u

end BtApiSecurity.Mfa.MFAProvider
