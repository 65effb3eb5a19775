import BtApiSecurity.Mfa.Steps

/-!
# How MFA is switched off

By `disable_mfa` with a backup code, or by setting TOTP or HOTP up again: the new
record, not yet verified, takes the place of the enabled one.
-/

namespace BtApiSecurity.Mfa.MFAProvider
open Py Machine

variable {env : Env} {s : MFAProvider} {now : Time}

def DisabledBy (u : String) (e : Event) : Prop :=
  ∃ code config, e.input.call = .disableMfa u (some code) ∧ e.output = .ok (.answer true) ∧
    e.pre.mfaConfigs.get? u = some config ∧ code ∈ config.backupCodes

/-- The call sets TOTP or HOTP up for `u`, with draws that suffice for the backup codes. -/
def SetsUp (u : String) (e : Event) : Prop :=
  ∃ accountName draws,
    (e.input.call = .setupTotp u accountName draws ∨ e.input.call = .setupHotp u accountName draws) ∧
    (backupCodesLoop e.pre.settings.backupCodesCount [] draws).isSome = true

@[simp] theorem isMfaEnabled_withConfig (v : String) (config : MFAConfig) (u : String) :
    (s.withConfig v config).isMfaEnabled u =
      if v = u then config.isEnabled else s.isMfaEnabled u := by
  unfold isMfaEnabled
  rw [withConfig, Dict.get?_set]
  split
  · rfl
  · rfl

theorem isMfaEnabled_of_get {u : String} {config : MFAConfig}
    (found : s.mfaConfigs.get? u = some config) : s.isMfaEnabled u = config.isEnabled := by
  unfold isMfaEnabled
  rw [found]
  rfl

theorem isMfaEnabled_replaced {v u : String} {old : MFAConfig} (new : MFAConfig)
    (found : s.mfaConfigs.get? v = some old) (kept : old.isEnabled = true → new.isEnabled = true)
    (on : s.isMfaEnabled u = true) : (s.withConfig v new).isMfaEnabled u = true := by
  rw [isMfaEnabled_withConfig]
  split
  · rename_i same
    subst same
    exact kept (isMfaEnabled_of_get found ▸ on)
  · exact on

theorem isMfaEnabled_disabled {v u : String} {config : MFAConfig} (other : v ≠ u) :
    (s.disabled v config).isMfaEnabled u = s.isMfaEnabled u := by
  rw [isMfaEnabled, MFAProvider.disabled, Dict.get?_erase_of_ne _ other]
  rfl

theorem isMfaEnabled_authenticated {v u key : String} {credential : WebAuthnCredential}
    {signCount : Nat} (on : s.isMfaEnabled u = true) :
    (s.authenticated now v key credential signCount).isMfaEnabled u = true := by
  cases found : s.mfaConfigs.get? v with
  | none =>
    unfold isMfaEnabled
    rw [MFAProvider.authenticated, found]
    exact on
  | some config =>
    unfold isMfaEnabled
    rw [MFAProvider.authenticated, found]
    exact isMfaEnabled_replaced { config with lastUsed := some now } found id on

/-- A step that switches MFA off disables it with a backup code or sets it up anew. -/
theorem enabled_lost {u : String} {i : Input} (on : s.isMfaEnabled u = true)
    (off : (step env s i).1.isMfaEnabled u = false) :
    DisabledBy u (entry (step env) s i) ∨ SetsUp u (entry (step env) s i) := by
  have outcome := step_outcome env s i
  obtain ⟨now, call⟩ := i
  unfold entry
  generalize (step env s ⟨now, call⟩).1 = post at outcome off ⊢
  generalize (step env s ⟨now, call⟩).2 = reply at outcome ⊢
  have stays : ∀ v config, v ≠ u →
      ({ s with drawn := s.drawn + 1 }.withConfig v config).isMfaEnabled u = true := by
    intro v config other
    rw [isMfaEnabled_withConfig, if_neg other]
    exact on
  cases outcome with
  | @totpSet v _ _ _ _ drew =>
    by_cases same : v = u
    · exact .inr ⟨_, _, .inl (by rw [same]), by rw [drew]; rfl⟩
    · exact absurd ((stays v _ same).symm.trans off) (by decide)
  | @hotpSet v _ _ _ _ drew =>
    by_cases same : v = u
    · exact .inr ⟨_, _, .inr (by rw [same]), by rw [drew]; rfl⟩
    · exact absurd ((stays v _ same).symm.trans off) (by decide)
  | totpBackup found | hotpBackup found | totpAccepted found | hotpAccepted found | regenerated found =>
    exact absurd off (by simp [withoutBackup, isMfaEnabled_replaced _ found _ on])
  | @registered v _ _ credential =>
    have kept : (s.registered now v credential).isMfaEnabled u =
        (s.withConfig v _).isMfaEnabled u := rfl
    rw [kept, isMfaEnabled_withConfig] at off
    split at off
    · cases off
    · exact absurd (on.symm.trans off) (by decide)
  | authenticated => exact absurd ((isMfaEnabled_authenticated on).symm.trans off) (by decide)
  | @disabled v code config found accepted =>
    by_cases same : v = u
    · obtain ⟨code', given, mem⟩ := acceptsBackup_some accepted
      obtain rfl := Option.some.inj given
      exact .inl ⟨code, config, by rw [same], rfl, same ▸ found, mem⟩
    · rw [isMfaEnabled_disabled same] at off
      exact absurd (on.symm.trans off) (by decide)
  | _ => exact absurd (on.symm.trans off) (by decide)

theorem setsUp_off {u : String} {i : Input} (up : SetsUp u (entry (step env) s i)) :
    (step env s i).1.isMfaEnabled u = false := by
  obtain ⟨accountName, draws, call, drew⟩ := up
  obtain ⟨codes, drew⟩ := Option.isSome_iff_exists.mp drew
  have short : s.shortOf draws = none := by
    simp only [shortOf, show backupCodesLoop s.settings.backupCodesCount [] draws = _ from drew]
  have outcome := step_outcome env s i
  obtain ⟨now, setup⟩ := i
  generalize (step env s ⟨now, setup⟩).1 = post at outcome ⊢
  generalize (step env s ⟨now, setup⟩).2 = reply at outcome
  rcases (call : setup = _ ∨ setup = _) with rfl | rfl
  · cases outcome with
    | stopped _ _ _ reason => simp [stops, short] at reason
    | refused _ asks => cases asks
    | answered _ _ reads => cases reads
    | totpSet => simp
  · cases outcome with
    | stopped _ _ _ reason => simp [stops, short] at reason
    | refused _ asks => cases asks
    | answered _ _ reads => cases reads
    | hotpSet => simp

/-- In a run, MFA is switched off by `disable_mfa` with a backup code alone exactly when no
call sets TOTP or HOTP up for a user whose MFA is enabled. -/
theorem mfa_removed_by_backup_code_iff (env : Env) (settings : Settings) (is : List Input) :
    (∀ u before during after, is = before ++ during ++ after →
      (run (step env) (new settings) before).isMfaEnabled u = true →
      (run (step env) (new settings) (before ++ during)).isMfaEnabled u = false →
      ∃ e ∈ trace (step env) (run (step env) (new settings) before) during, DisabledBy u e) ↔
      ∀ e ∈ trace (step env) (new settings) is, ∀ u, SetsUp u e → e.pre.isMfaEnabled u = false := by
  constructor
  · intro removal e mem u up
    obtain ⟨l, l', split⟩ := List.append_of_mem mem
    obtain ⟨before, after, inputs, -, is_entry, -⟩ := trace_split split
    rw [is_entry] at up ⊢
    by_contra on
    obtain ⟨d, mem', disabled⟩ := removal u before [e.input] after (by simp [inputs])
      (by simpa [entry] using on) (by rw [run_append]; exact setsUp_off up)
    obtain rfl := List.mem_singleton.mp mem'
    obtain ⟨code, _, call, -⟩ := disabled
    obtain ⟨_, _, call' | call', -⟩ := up <;> cases call.symm.trans call'
  · intro fresh u before during after inputs on off
    rw [run_append] at off
    obtain ⟨l, e, l', split, on', off'⟩ := exists_cause
      (P := fun s : MFAProvider => s.isMfaEnabled u = true) on (by rw [off]; decide)
    obtain ⟨first, rest, here, -, is_entry, -⟩ := trace_split split
    have mem : e ∈ trace (step env) (run (step env) (new settings) before) during := by
      rw [split]
      exact List.mem_append_cons_self
    refine ⟨e, mem, ?_⟩
    rw [is_entry] at on' off' ⊢
    rcases enabled_lost on' (Bool.eq_false_iff.mpr off') with disabled | up
    · exact disabled
    · have whole : e ∈ trace (step env) (new settings) is := by
        rw [inputs, trace_append, trace_append]
        exact List.mem_append_left _ (List.mem_append_right _ mem)
      have off := fresh e whole u (by rw [is_entry]; exact up)
      rw [is_entry] at off
      exact absurd (on'.symm.trans off) (by decide)

def setupAgainRun : List Input :=
  [⟨3000, .setupTotp "ann" none [7]⟩, ⟨3001, .verifyTotp "ann" "123456" none⟩,
    ⟨3002, .setupTotp "ann" none [8]⟩]

theorem setupAgainRun_switches_off :
    ¬∀ u before during after, setupAgainRun = before ++ during ++ after →
      (run (step sampleEnv) (new sampleSettings) before).isMfaEnabled u = true →
      (run (step sampleEnv) (new sampleSettings) (before ++ during)).isMfaEnabled u = false →
      ∃ e ∈ trace (step sampleEnv) (run (step sampleEnv) (new sampleSettings) before) during,
        DisabledBy u e := by
  intro removal
  obtain ⟨e, mem, code, config, call, -⟩ := removal "ann"
    [⟨3000, .setupTotp "ann" none [7]⟩, ⟨3001, .verifyTotp "ann" "123456" none⟩]
    [⟨3002, .setupTotp "ann" none [8]⟩] [] rfl (by decide +kernel) (by decide +kernel)
  obtain rfl := List.mem_singleton.mp mem
  cases call

end BtApiSecurity.Mfa.MFAProvider
