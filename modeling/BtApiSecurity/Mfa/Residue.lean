import BtApiSecurity.Mfa.Challenges
import BtApiSecurity.Mfa.Ownership

/-!
# What disabling leaves behind

The record of a user points to one credential at most: the last one registered, and
none once TOTP or HOTP took its place. Disabling removes what the record points to.
-/

namespace BtApiSecurity.Mfa.MFAProvider
open Py Machine

variable {env : Env} {s : MFAProvider} {u : String}

/-- Every stored credential of the user is the one that the record of the user points to. -/
def Covered (s : MFAProvider) (u : String) : Prop :=
  ∀ config, s.mfaConfigs.get? u = some config →
    ∀ key credential, s.webauthnCredentials.get? key = some credential →
    credential.userHandle = encodeUtf8 u → config.credentialId = some key

structure NoResidue (s : MFAProvider) (u : String) : Prop where
  credentials : ∀ key credential, s.webauthnCredentials.get? key = some credential →
    credential.userHandle ≠ encodeUtf8 u
  registration : s.webauthnChallenges.get? u = none
  authentication : s.webauthnChallenges.get? (authKey u) = none
  status : s.getMfaStatus u = none

structure Barred (env : Env) (s : MFAProvider) (u : String) : Prop where
  options : ∀ now, (step env s ⟨now, .generateWebauthnAuthenticationOptions u⟩).2 =
    .error (.mfaError "No WebAuthn credentials found for user")
  verification : ∀ now data,
    (step env s ⟨now, .verifyWebauthnAuthentication u data⟩).2 = .ok (.answer false)

/-- The call `i` disables the MFA of the user, who does not enrol again in the calls `during`. -/
structure Off (env : Env) (settings : Settings) (u : String) (before : List Input) (i : Input)
    (during : List Input) : Prop where
  disabled : disables (entry (step env) (run (step env) (new settings) before) i) u = true
  stays : ∀ e ∈ trace (step env) (run (step env) (new settings) (before ++ [i])) during,
    enrols e u = false

def LeavesNoResidue (env : Env) (settings : Settings) (is : List Input) : Prop :=
  ∀ u before i during after, is = before ++ i :: (during ++ after) → Off env settings u before i during →
    NoResidue (run (step env) (new settings) (before ++ [i])) u ∧
      Barred env (run (step env) (new settings) (before ++ i :: during)) u

/-- While the MFA of a user is off, nobody asks to register a credential for the user id `auth_…`
under whose key the challenges of that user stand. -/
def KeysApart (env : Env) (settings : Settings) (is : List Input) : Prop :=
  ∀ u before i during j after, is = before ++ i :: (during ++ j :: after) →
    Off env settings u before i during →
    ∀ username displayName, j.call ≠ .generateWebauthnRegistrationOptions (authKey u) username displayName

/-! ### The disabling call -/

theorem step_disabled {i : Input} (disabled : disables (entry (step env) s i) u = true) :
    ∃ config, s.mfaConfigs.get? u = some config ∧ (step env s i).1 = s.disabled u config := by
  have outcome := step_outcome env s i
  obtain ⟨now, call⟩ := i
  unfold entry disables at disabled
  generalize (step env s ⟨now, call⟩).1 = post at outcome ⊢
  generalize (step env s ⟨now, call⟩).2 = reply at outcome disabled
  split at disabled
  · rename_i userId code called answered
    obtain rfl : userId = u := of_decide_eq_true disabled
    obtain rfl : call = .disableMfa userId code := called
    obtain rfl : reply = .ok (.answer true) := answered
    cases outcome with
    | answered _ _ reads => cases reads
    | @disabled _ _ config found => exact ⟨config, found, rfl⟩
  · cases disabled

theorem credentials_disabled {config : MFAConfig} {key : String} {credential : WebAuthnCredential} :
    (s.disabled u config).webauthnCredentials.get? key = some credential ↔
      s.webauthnCredentials.get? key = some credential ∧ config.credentialId ≠ some key := by
  unfold MFAProvider.disabled
  cases config.credentialId with
  | none => simp
  | some other =>
    simp only [Dict.get?_erase]
    by_cases same : other = key
    · simp [same]
    · simp [same]

theorem noResidue_disabled_iff {config : MFAConfig} (found : s.mfaConfigs.get? u = some config) :
    NoResidue (s.disabled u config) u ↔ Covered s u := by
  constructor
  · intro clean config' found' key credential stored owned
    obtain rfl := Option.some.inj (found.symm.trans found')
    by_contra other
    exact clean.credentials key credential (credentials_disabled.mpr ⟨stored, other⟩) owned
  · intro covered
    refine ⟨?_, ?_, Dict.get?_erase_self _ _, Dict.get?_erase_self _ _⟩
    · intro key credential left owned
      obtain ⟨stored, other⟩ := credentials_disabled.mp left
      exact other (covered config found key credential stored owned)
    · by_cases same : authKey u = u
      · rw [MFAProvider.disabled, same, Dict.get?_erase_self]
      · rw [MFAProvider.disabled, Dict.get?_erase_of_ne _ same, Dict.get?_erase_self]

/-! ### Until the user enrols -/

/-- The user has no credential and no challenge to authenticate with. -/
structure Gone (s : MFAProvider) (u : String) : Prop where
  credentials : ∀ key credential, s.webauthnCredentials.get? key = some credential →
    credential.userHandle ≠ encodeUtf8 u
  authentication : s.webauthnChallenges.get? (authKey u) = none

theorem userCredentials_gone (gone : Gone s u) : s.userCredentials u = [] := by
  refine List.filter_eq_nil_iff.mpr ?_
  intro credential mem owned
  obtain ⟨⟨key, _⟩, entry, rfl⟩ := List.mem_map.mp mem
  have stored := (Dict.mem_entries _).mp entry
  apply gone.credentials key _ stored
  exact (encodeUtf8_of_decodeUtf8 (beq_iff_eq.mp owned)).symm

theorem barred_of_gone (env : Env) (gone : Gone s u) : Barred env s u := by
  constructor
  · intro now
    have none := userCredentials_gone gone
    have raised : ensure (s.userCredentials u ≠ [])
        (Stop.mfaError "No WebAuthn credentials found for user") = .error (.mfaError _) :=
      if_neg (not_not_intro none)
    simp only [step, perform, generateWebauthnAuthenticationOptions, Method.run_map, Method.run_bind,
      Method.run_read, Method.run_check, raised]
  · intro now data
    simp only [step, perform, verifyWebauthnAuthentication, Method.run_map, Method.run_bind,
      Method.run_read, gone.authentication]
    rfl

theorem credentials_step {i : Input} (gone : Gone s u) (stays : enrols (entry (step env) s i) u = false)
    {key : String} {credential : WebAuthnCredential}
    (stored : (step env s i).1.webauthnCredentials.get? key = some credential) :
    credential.userHandle ≠ encodeUtf8 u := by
  cases credential_effect env s i with
  | kept _ same =>
    obtain ⟨old, before, handle⟩ := same key credential stored
    rw [handle]
    exact gone.credentials key old before
  | stored v new is_registered handle set =>
    have shape : (step env s i).1.webauthnCredentials = _ := set
    rw [shape] at stored
    rcases Dict.get?_set_some stored with ⟨-, rfl⟩ | before
    · rw [handle]
      intro same
      obtain rfl := encodeUtf8_injective same
      unfold registration at is_registered
      split at is_registered
      · rename_i called answered
        obtain ⟨_, -, is_registered⟩ := Option.bind_eq_some_iff.mp is_registered
        obtain ⟨_, -, is_registered⟩ := Option.bind_eq_some_iff.mp is_registered
        obtain ⟨rfl, -⟩ := Prod.mk.inj (Option.some.inj is_registered)
        unfold enrols at stays
        rw [called, answered] at stays
        simp at stays
      · cases is_registered
    · exact gone.credentials key credential before

/-- A challenge under the key of a user's authentications was issued to the user for one, or to the
user id of that key for a registration. -/
theorem issue_authKey {e : Event} {issued : Issue} (h : issue e = some issued)
    (here : issued.key = authKey u) :
    (∃ username displayName,
        e.input.call = .generateWebauthnRegistrationOptions (authKey u) username displayName) ∨
      ∃ options, e.input.call = .generateWebauthnAuthenticationOptions u ∧
        e.output = .ok (.authentication options) := by
  unfold issue at h
  split at h
  · rename_i v username displayName options called _
    obtain rfl := Option.some.inj h
    obtain rfl : v = authKey u := here
    exact .inl ⟨username, displayName, called⟩
  · rename_i v options called answered
    obtain rfl := Option.some.inj h
    obtain rfl := authKey_injective here
    exact .inr ⟨options, called, answered⟩
  · cases h

theorem authentication_step {i : Input} (gone : Gone s u)
    (apart : ∀ username displayName,
      i.call ≠ .generateWebauthnRegistrationOptions (authKey u) username displayName) :
    (step env s i).1.webauthnChallenges.get? (authKey u) = none := by
  apply Option.eq_none_iff_forall_ne_some.mpr
  intro challenge pending
  rcases pending_cases pending with ⟨-, before⟩ | ⟨issued, stored, at_key⟩
  · cases gone.authentication.symm.trans before
  · split at at_key
    · rename_i here
      rcases issue_authKey stored here with ⟨username, displayName, called⟩ | ⟨options, called, answered⟩
      · exact apart username displayName called
      · -- the user has no credential to be asked for
        have raised := (barred_of_gone env gone).options i.now
        obtain ⟨now, call⟩ := i
        obtain rfl : call = .generateWebauthnAuthenticationOptions u := called
        cases raised.symm.trans answered
    · cases gone.authentication.symm.trans at_key

/-! ### Runs -/

theorem covered_of_clean {settings : Settings} {is : List Input} (clean : LeavesNoResidue env settings is)
    {e : Event} (mem : e ∈ trace (step env) (new settings) is) (disabled : disables e u = true) :
    Covered e.pre u := by
  obtain ⟨l, l', split⟩ := List.append_of_mem mem
  obtain ⟨before, after, inputs, -, is_entry, -⟩ := trace_split split
  rw [is_entry] at disabled ⊢
  have none := (clean u before e.input [] after inputs ⟨disabled, by simp [trace]⟩).1
  obtain ⟨config, found, next⟩ := step_disabled disabled
  rw [run_append, run_cons, run_nil, next] at none
  exact (noResidue_disabled_iff found).mp none

theorem clean_of_covered {settings : Settings} {is : List Input}
    (covered : ∀ e ∈ trace (step env) (new settings) is, ∀ u, disables e u = true → Covered e.pre u)
    (apart : KeysApart env settings is) : LeavesNoResidue env settings is := by
  intro u before i during after inputs off
  have mem : entry (step env) (run (step env) (new settings) before) i ∈
      trace (step env) (new settings) is := by
    rw [inputs, trace_append]
    exact List.mem_append_cons_self
  obtain ⟨config, found, next⟩ := step_disabled off.disabled
  have clean : NoResidue (run (step env) (new settings) (before ++ [i])) u := by
    rw [run_append, run_cons, run_nil, next]
    exact (noResidue_disabled_iff found).mpr (covered _ mem u off.disabled)
  refine ⟨clean, barred_of_gone env ?_⟩
  -- what is gone stays gone, call by call of `during`
  induction during using List.reverseRecOn generalizing after with
  | nil => exact ⟨clean.credentials, clean.authentication⟩
  | append_singleton during j ih =>
    rw [List.append_assoc] at inputs
    have earlier : Off env settings u before i during :=
      ⟨off.disabled, fun e mem => off.stays e (by
        rw [trace_append]
        exact List.mem_append_left _ mem)⟩
    have gone := ih (j :: after) inputs earlier
    have last := off.stays (entry (step env) (run (step env) (new settings) (before ++ i :: during)) j)
      (by
        rw [trace_append, ← run_append, List.append_assoc]
        exact List.mem_append_cons_self)
    rw [← List.cons_append, ← List.append_assoc, run_append, run_cons, run_nil]
    exact ⟨fun _ _ stored => credentials_step gone last stored,
      authentication_step gone (apart u before i during j after inputs earlier)⟩

/-- Disabling leaves nothing of a user in a run where the record of a user who disables points to
all credentials of that user, and only there. -/
theorem disable_leaves_no_residue (env : Env) (settings : Settings) (is : List Input) :
    ((∀ e ∈ trace (step env) (new settings) is, ∀ u, disables e u = true → Covered e.pre u) ∧
      KeysApart env settings is → LeavesNoResidue env settings is) ∧
    (LeavesNoResidue env settings is →
      ∀ e ∈ trace (step env) (new settings) is, ∀ u, disables e u = true → Covered e.pre u) := by
  constructor
  · rintro ⟨covered, apart⟩
    exact clean_of_covered covered apart
  · intro clean e mem u disabled
    exact covered_of_clean clean mem disabled

/-- Ann registers one credential, and disables her MFA with a backup code she then asks for. -/
def oneCredentialRun : List Input :=
  [⟨0, .generateWebauthnRegistrationOptions "ann" "Ann" none⟩,
    ⟨1, .verifyWebauthnRegistration "ann" (sampleCredential 1 0)⟩,
    ⟨2, .regenerateBackupCodes "ann" [Fin.last 999999]⟩, ⟨3, .disableMfa "ann" (some "999999")⟩]

theorem run_oneCredential : run (step sampleEnv) (new sampleSettings) (oneCredentialRun.take 3) =
    (step sampleEnv ((new sampleSettings).withSample 1 "ann" "Ann" 0 1)
      ⟨2, .regenerateBackupCodes "ann" [Fin.last 999999]⟩).1 := by
  have parts : oneCredentialRun.take 3 = [⟨0, .generateWebauthnRegistrationOptions "ann" "Ann" none⟩,
      ⟨1, .verifyWebauthnRegistration "ann" (sampleCredential 1 0)⟩] ++
    [⟨2, .regenerateBackupCodes "ann" [Fin.last 999999]⟩] := rfl
  rw [parts, run_append, run_sample (s := new sampleSettings) (n := 0) rfl rfl (by decide) (by grind),
    run_cons, run_nil]

theorem oneCredentialRun_leaves_nothing :
    LeavesNoResidue sampleEnv sampleSettings oneCredentialRun := by
  apply (disable_leaves_no_residue sampleEnv sampleSettings oneCredentialRun).1
  have parts : oneCredentialRun = oneCredentialRun.take 3 ++ oneCredentialRun.drop 3 := rfl
  constructor
  · intro e mem u disabled config found key credential stored _
    rw [parts, trace_append] at mem
    rcases List.mem_append.mp mem with early | last
    · -- none of these calls disables anything
      have input := input_mem_of_mem early
      unfold disables at disabled
      split at disabled
      · rename_i called _
        simp only [oneCredentialRun, List.take, List.mem_cons, List.not_mem_nil, or_false] at input
        rcases input with is_input | is_input | is_input
        · rw [is_input] at called
          cases called
        · rw [is_input] at called
          cases called
        · rw [is_input] at called
          cases called
      · cases disabled
    · obtain rfl := List.mem_singleton.mp last
      rw [entry_pre, run_oneCredential] at found stored
      have facts : (∀ kept ∈ (step sampleEnv ((new sampleSettings).withSample 1 "ann" "Ann" 0 1)
            ⟨2, .regenerateBackupCodes "ann" [Fin.last 999999]⟩).1.mfaConfigs.entries,
            kept.2.credentialId = some "AQ==") ∧
          ∀ kept ∈ (step sampleEnv ((new sampleSettings).withSample 1 "ann" "Ann" 0 1)
            ⟨2, .regenerateBackupCodes "ann" [Fin.last 999999]⟩).1.webauthnCredentials.entries,
            kept.1 = "AQ==" := by
        decide +kernel
      obtain ⟨pointer, only⟩ := facts
      have points := pointer (u, config) ((Dict.mem_entries _).mpr found)
      exact points.trans (congrArg some (only (key, credential) ((Dict.mem_entries _).mpr stored)).symm)
  · intro u before i during j after inputs _ username displayName called
    have mem : j ∈ oneCredentialRun := by
      rw [inputs]
      simp
    simp only [oneCredentialRun, List.mem_cons, List.not_mem_nil, or_false] at mem
    rcases mem with rfl | rfl | rfl | rfl
    · have same : "ann" = authKey u := (Call.generateWebauthnRegistrationOptions.inj called).1
      have letters := congrArg (fun name => name.toList.take 3) same
      simp [authKey] at letters
    · cases called
    · cases called
    · cases called

/-! ### Two ways to leave something -/

/-- Ann registers two credentials; then she asks for backup codes to disable her MFA with. -/
def twoCredentialsRun : List Input :=
  [⟨0, .generateWebauthnRegistrationOptions "ann" "Ann" none⟩,
    ⟨1, .verifyWebauthnRegistration "ann" (sampleCredential 1 0)⟩,
    ⟨2, .generateWebauthnRegistrationOptions "ann" "Ann" none⟩,
    ⟨3, .verifyWebauthnRegistration "ann" (sampleCredential 2 1)⟩,
    ⟨4, .regenerateBackupCodes "ann" [Fin.last 999999]⟩]

/-- Bob registers a credential and Ann disables her MFA; then `auth_ann` asks to register. -/
def borrowedKeyRun : List Input :=
  [⟨0, .generateWebauthnRegistrationOptions "bob" "Bob" none⟩,
    ⟨1, .verifyWebauthnRegistration "bob" (sampleCredential 1 0)⟩,
    ⟨2, .setupTotp "ann" none [Fin.last 999999]⟩]

theorem run_twoCredentials : run (step sampleEnv) (new sampleSettings) twoCredentialsRun =
    (step sampleEnv (((new sampleSettings).withSample 1 "ann" "Ann" 0 1).withSample 2 "ann" "Ann" 2 3)
      ⟨4, .regenerateBackupCodes "ann" [Fin.last 999999]⟩).1 := by
  have parts : twoCredentialsRun = [⟨0, .generateWebauthnRegistrationOptions "ann" "Ann" none⟩,
      ⟨1, .verifyWebauthnRegistration "ann" (sampleCredential 1 0)⟩] ++
    ([⟨2, .generateWebauthnRegistrationOptions "ann" "Ann" none⟩,
      ⟨3, .verifyWebauthnRegistration "ann" (sampleCredential 2 1)⟩] ++
    [⟨4, .regenerateBackupCodes "ann" [Fin.last 999999]⟩]) := rfl
  rw [parts, run_append, run_sample (s := new sampleSettings) (n := 0) rfl rfl (by decide) (by grind),
    run_append, run_sample (s := (new sampleSettings).withSample 1 "ann" "Ann" 0 1) (n := 1) rfl rfl
      (by decide) (by grind), run_cons, run_nil]

theorem twoCredentialsRun_leaves_residue : ¬LeavesNoResidue sampleEnv sampleSettings
    (twoCredentialsRun ++ [⟨5, .disableMfa "ann" (some "999999")⟩]) := by
  intro clean
  have disabled : disables (entry (step sampleEnv)
      (run (step sampleEnv) (new sampleSettings) twoCredentialsRun)
      ⟨5, .disableMfa "ann" (some "999999")⟩) "ann" = true := by
    rw [run_twoCredentials]
    decide +kernel
  have left : ((run (step sampleEnv) (new sampleSettings)
      (twoCredentialsRun ++ [⟨5, .disableMfa "ann" (some "999999")⟩])).webauthnCredentials.get?
        "AQ==").map (·.userHandle) = some (encodeUtf8 "ann") := by
    rw [run_append, run_twoCredentials]
    decide +kernel
  obtain ⟨credential, stored, owned⟩ := Option.map_eq_some_iff.mp left
  have none := (clean "ann" twoCredentialsRun _ [] [] rfl ⟨disabled, by simp [trace]⟩).1
  exact none.credentials _ credential stored owned

theorem run_borrowedKey : run (step sampleEnv) (new sampleSettings) borrowedKeyRun =
    (step sampleEnv ((new sampleSettings).withSample 1 "bob" "Bob" 0 1)
      ⟨2, .setupTotp "ann" none [Fin.last 999999]⟩).1 := by
  have parts : borrowedKeyRun = [⟨0, .generateWebauthnRegistrationOptions "bob" "Bob" none⟩,
      ⟨1, .verifyWebauthnRegistration "bob" (sampleCredential 1 0)⟩] ++
    [⟨2, .setupTotp "ann" none [Fin.last 999999]⟩] := rfl
  rw [parts, run_append, run_sample (s := new sampleSettings) (n := 0) rfl rfl (by decide) (by grind),
    run_cons, run_nil]

theorem borrowedKeyRun_leaves_residue : ¬LeavesNoResidue sampleEnv sampleSettings
    (borrowedKeyRun ++ [⟨3, .disableMfa "ann" (some "999999")⟩,
      ⟨4, .generateWebauthnRegistrationOptions "auth_ann" "Ann" none⟩]) := by
  intro clean
  have disabled : disables (entry (step sampleEnv)
      (run (step sampleEnv) (new sampleSettings) borrowedKeyRun)
      ⟨3, .disableMfa "ann" (some "999999")⟩) "ann" = true := by
    rw [run_borrowedKey]
    decide +kernel
  have accepted : (step sampleEnv (run (step sampleEnv) (new sampleSettings) (borrowedKeyRun ++
        [⟨3, .disableMfa "ann" (some "999999")⟩,
          ⟨4, .generateWebauthnRegistrationOptions "auth_ann" "Ann" none⟩]))
      ⟨5, .verifyWebauthnAuthentication "ann" (sampleAssertion 1 2)⟩).2 = .ok (.answer true) := by
    rw [run_append, run_borrowedKey, run_cons, run_cons, run_nil]
    exact step_authenticated (Dict.get?_set_self _ _ _) (by grind)
      (@assertionRecord_sample _ 1 _ (sampleStored 1 "bob" 1) rfl (by decide +kernel) rfl)
  have barred := (clean "ann" borrowedKeyRun _
    [⟨4, .generateWebauthnRegistrationOptions "auth_ann" "Ann" none⟩] [] rfl
    ⟨disabled, by simp [trace, enrols, entry]⟩).2
  rw [barred.verification] at accepted
  cases accepted

end BtApiSecurity.Mfa.MFAProvider
