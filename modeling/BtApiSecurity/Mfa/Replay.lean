import BtApiSecurity.Mfa.Steps

/-!
# One-time passwords presented again

The HOTP counter moves on with every password that is accepted. Of a TOTP password
nothing is kept but the time of its last use.
-/

namespace BtApiSecurity.Mfa.MFAProvider
open Py Machine

variable {env : Env} {s : MFAProvider} {now : Time} {u : String} {factor : Int}
variable {totpCode hotpCode : String → Int → String}

def timeStep (now : Time) : Int := (now / 30).floor

/-- What `pyotp` accepts, where distinct factors have distinct codes. -/
structure Pyotp (env : Env) (totpCode hotpCode : String → Int → String) : Prop where
  totp : ∀ secret token now window, env.totpVerify secret token now window = true ↔
    ∃ factor, timeStep now - window ≤ factor ∧ factor ≤ timeStep now + window ∧
      totpCode secret factor = token
  hotp : ∀ secret token counter, env.hotpVerify secret token counter = true ↔
    hotpCode secret counter = token
  totp_distinct : ∀ secret, Function.Injective (totpCode secret)
  hotp_distinct : ∀ secret, Function.Injective (hotpCode secret)

/-! ### What a run says about passwords -/

/-- The two steps follow each other in this order, and the user does not enrol between them. -/
def SameEnrolment (history : List Event) (u : String) (d e : Event) : Prop :=
  ∃ l₁ l₂ l₃, history = l₁ ++ d :: (l₂ ++ e :: l₃) ∧ ∀ x ∈ l₂, enrols x u = false

/-- The secret of a user whose record has this type, unless the call offers a backup code that is
accepted before any token is looked at. -/
def secretFor (s : MFAProvider) (type : MFAType) (u : String) (code : Option String) : Option String :=
  match s.mfaConfigs.get? u with
  | none => none
  | some config =>
    if config.mfaType = type ∧ acceptsBackup config code = false then config.secret.filter (· ≠ "")
    else none

/-- `verify_totp` accepts the code of this time step. -/
def TotpAccepted (totpCode : String → Int → String) (e : Event) (u : String) (factor : Int) : Prop :=
  ∃ token code secret, e.input.call = .verifyTotp u token code ∧ e.output = .ok (.answer true) ∧
    secretFor e.pre .totp u code = some secret ∧ totpCode secret factor = token

def HotpAccepted (hotpCode : String → Int → String) (e : Event) (u : String) (factor : Int) : Prop :=
  ∃ token code secret, e.input.call = .verifyHotp u token code ∧ e.output = .ok (.answer true) ∧
    secretFor e.pre .hotp u code = some secret ∧ hotpCode secret factor = token

/-- `verify_totp` is called with the code of this time step while it lies in the window. -/
def TotpPresented (totpCode : String → Int → String) (e : Event) (u : String) (factor : Int) : Prop :=
  ∃ token code secret, e.input.call = .verifyTotp u token code ∧
    secretFor e.pre .totp u code = some secret ∧ totpCode secret factor = token ∧
    timeStep e.input.now - e.pre.settings.totpWindow ≤ factor ∧
    factor ≤ timeStep e.input.now + e.pre.settings.totpWindow

/-! ### One verification -/

theorem secretFor_some {type : MFAType} {code : Option String} {secret : String}
    (h : secretFor s type u code = some secret) : ∃ config, s.mfaConfigs.get? u = some config ∧
      config.mfaType = type ∧ acceptsBackup config code = false ∧ config.secret = some secret ∧
      secret ≠ "" := by
  unfold secretFor at h
  split at h
  · cases h
  · rename_i config found
    split at h
    · rename_i fits
      obtain ⟨same, solid⟩ := Option.filter_eq_some_iff.mp h
      exact ⟨config, found, fits.1, fits.2, same, by simpa using solid⟩
    · cases h

variable (now) in
theorem verifyOtp_answer {type : MFAType} {code : Option String} {secret : String}
    (valid : String → MFAConfig → Bool) (onSuccess : MFAConfig → MFAConfig)
    (h : secretFor s type u code = some secret) : ∃ config, s.mfaConfigs.get? u = some config ∧
      (verifyOtp now type u code valid onSuccess).run s = if valid secret config = true then
        (.ok true, s.withConfig u { onSuccess config with lastUsed := some now, isEnabled := true })
      else (.ok false, s) := by
  obtain ⟨config, found, same, other, key, solid⟩ := secretFor_some h
  refine ⟨config, found, ?_⟩
  simp only [verifyOtp, Method.run_bind, Method.run_read, found, same, ne_eq, not_true_eq_false,
    if_false, other, Bool.false_eq_true, key, solid]
  cases valid secret config with
  | true => rfl
  | false => rfl

theorem totpAccepted_iff (pyotp : Pyotp env totpCode hotpCode) (i : Input) :
    TotpAccepted totpCode (entry (step env) s i) u factor ↔
      TotpPresented totpCode (entry (step env) s i) u factor := by
  obtain ⟨now, call⟩ := i
  have answer : ∀ token code secret, call = .verifyTotp u token code →
      secretFor s .totp u code = some secret → ((step env s ⟨now, call⟩).2 = .ok (.answer true) ↔
        env.totpVerify secret token now s.settings.totpWindow = true) := by
    rintro token code secret rfl held
    obtain ⟨config, -, run⟩ := verifyOtp_answer now
      (fun secret _ => env.totpVerify secret token now s.settings.totpWindow) id held
    have run' : (verifyTotp env now u token code).run s = _ := run
    simp only [step, perform, Method.run_map, run']
    by_cases checked : env.totpVerify secret token now s.settings.totpWindow = true
    · simp [checked]
    · simp [checked]
  constructor
  · rintro ⟨token, code, secret, called, accepted, held, rfl⟩
    obtain ⟨factor', low, high, same⟩ := (pyotp.totp _ _ _ _).mp
      ((answer _ code secret called held).mp accepted)
    obtain rfl := pyotp.totp_distinct secret same
    exact ⟨_, code, secret, called, held, rfl, low, high⟩
  · rintro ⟨token, code, secret, called, held, rfl, low, high⟩
    have checked := (pyotp.totp secret _ now s.settings.totpWindow).mpr ⟨factor, low, high, rfl⟩
    exact ⟨_, code, secret, called, (answer _ code secret called held).mpr checked, held, rfl⟩

/-! ### The counter -/

/-- The counter of the user's record is beyond the factor. -/
def Past (s : MFAProvider) (u : String) (factor : Int) : Prop :=
  ∀ config, s.mfaConfigs.get? u = some config → factor < config.counter

theorem hotpAccepted_counter (pyotp : Pyotp env totpCode hotpCode) {i : Input}
    (h : HotpAccepted hotpCode (entry (step env) s i) u factor) :
    (∃ config, s.mfaConfigs.get? u = some config ∧ config.counter = factor) ∧
      Past (step env s i).1 u factor := by
  obtain ⟨now, call⟩ := i
  obtain ⟨token, code, secret, called, accepted, held, same⟩ := h
  obtain rfl : call = .verifyHotp u token code := called
  obtain ⟨config, found, run⟩ := verifyOtp_answer now
    (fun secret config => env.hotpVerify secret token config.counter)
    (fun config => { config with counter := config.counter + 1 }) held
  have run' : (verifyHotp env now u token code).run s = _ := run
  by_cases checked : env.hotpVerify secret token config.counter = true
  · have reached := (pyotp.hotp _ _ _).mp checked
    obtain rfl : config.counter = factor := pyotp.hotp_distinct secret (reached.trans same.symm)
    refine ⟨⟨config, found, rfl⟩, ?_⟩
    have moved := run'.trans (if_pos checked)
    intro later stored
    simp only [step, perform, Method.run_map, moved, withConfig, Dict.get?_set_self] at stored
    obtain rfl := Option.some.inj stored
    show config.counter < config.counter + 1
    omega
  · have refused := run'.trans (if_neg checked)
    have answered : (step env s ⟨now, .verifyHotp u token code⟩).2 = .ok (.answer true) := accepted
    simp only [step, perform, Method.run_map, refused] at answered
    cases answered

theorem past_withConfig {v : String} {new : MFAConfig} (past : Past s u factor)
    (kept : v = u → factor < new.counter) : Past (s.withConfig v new) u factor := by
  intro config stored
  by_cases same : v = u
  · rw [withConfig, same, Dict.get?_set_self] at stored
    exact Option.some.inj stored ▸ kept same
  · rw [withConfig, Dict.get?_set_of_ne _ _ same] at stored
    exact past config stored

theorem past_step {i : Input} (going : enrols (entry (step env) s i) u = false)
    (past : Past s u factor) : Past (step env s i).1 u factor := by
  have outcome := step_outcome env s i
  obtain ⟨now, call⟩ := i
  unfold entry at going
  generalize (step env s ⟨now, call⟩).1 = post at outcome going ⊢
  generalize (step env s ⟨now, call⟩).2 = reply at outcome going
  have kept : ∀ {v config}, s.mfaConfigs.get? v = some config → v = u → factor < config.counter := by
    rintro v config found rfl
    exact past config found
  cases outcome with
  | totpSet | hotpSet =>
    have other : ¬_ = u := of_decide_eq_false going
    exact past_withConfig past fun same => absurd same other
  | totpBackup found | hotpBackup found | totpAccepted found | regenerated found =>
    refine past_withConfig past fun same => ?_
    have before := kept found same
    exact before
  | hotpAccepted found =>
    refine past_withConfig past fun same => ?_
    have before := kept found same
    show factor < _ + 1
    omega
  | @registered v _ _ credential =>
    have other : ¬v = u := of_decide_eq_false going
    intro config stored
    rw [MFAProvider.registered, Dict.get?_set_of_ne _ _ other] at stored
    exact past config stored
  | @authenticated v =>
    intro config stored
    unfold MFAProvider.authenticated at stored
    cases held : s.mfaConfigs.get? v with
    | none =>
      rw [held] at stored
      exact past config stored
    | some old =>
      rw [held] at stored
      rcases Dict.get?_set_some stored with ⟨same, rfl⟩ | before
      · have before := kept held same
        exact before
      · exact past config before
  | @disabled v =>
    intro config stored
    rw [MFAProvider.disabled] at stored
    exact past config (Dict.get?_filter_some stored)
  | _ => exact past

/-! ### Runs -/

theorem hotp_once (pyotp : Pyotp env totpCode hotpCode) {is : List Input} {d e : Event}
    (same : SameEnrolment (trace (step env) s is) u d e) (first : HotpAccepted hotpCode d u factor) :
    ¬HotpAccepted hotpCode e u factor := by
  obtain ⟨l₁, l₂, l₃, split, going⟩ := same
  have entries : ∀ x ∈ l₁ ++ d :: (l₂ ++ e :: l₃), x = entry (step env) x.pre x.input :=
    fun x mem => entry_of_mem (split ▸ mem)
  intro again
  rw [entries d (by simp)] at first
  rw [entries e (by simp)] at again
  have start := (hotpAccepted_counter pyotp first).2
  have past : Past e.pre u factor := by
    refine between split (P := fun t => Past t u factor) ?_ ?_
    · rw [entries d (by simp)]
      exact start
    · intro x mem before
      have is_entry := entries x (by simp [mem])
      have quiet := going x mem
      rw [is_entry] at quiet ⊢
      exact past_step quiet before
  obtain ⟨⟨config, found, here⟩, -⟩ := hotpAccepted_counter pyotp again
  have ahead := past config found
  omega

/-- In a run, no password is accepted twice in one enrolment exactly when no code of a time step
is presented twice while the step lies in the window. -/
theorem passwords_not_replayed_iff (pyotp : Pyotp env totpCode hotpCode) (settings : Settings)
    (is : List Input) :
    (∀ u d e, SameEnrolment (trace (step env) (new settings) is) u d e → ∀ factor,
      ¬(TotpAccepted totpCode d u factor ∧ TotpAccepted totpCode e u factor) ∧
        ¬(HotpAccepted hotpCode d u factor ∧ HotpAccepted hotpCode e u factor)) ↔
      ∀ u d e, SameEnrolment (trace (step env) (new settings) is) u d e → ∀ factor,
        ¬(TotpPresented totpCode d u factor ∧ TotpPresented totpCode e u factor) := by
  have accepted : ∀ {x u factor}, x ∈ trace (step env) (new settings) is →
      (TotpAccepted totpCode x u factor ↔ TotpPresented totpCode x u factor) := by
    intro x u factor mem
    rw [entry_of_mem mem]
    exact totpAccepted_iff pyotp x.input
  have members : ∀ {u d e}, SameEnrolment (trace (step env) (new settings) is) u d e →
      d ∈ trace (step env) (new settings) is ∧ e ∈ trace (step env) (new settings) is := by
    rintro u d e ⟨l₁, l₂, l₃, split, -⟩
    simp [split]
  constructor
  · intro once u d e same factor twice
    obtain ⟨memd, meme⟩ := members same
    exact (once u d e same factor).1 ⟨(accepted memd).mpr twice.1, (accepted meme).mpr twice.2⟩
  · intro once u d e same factor
    obtain ⟨memd, meme⟩ := members same
    refine ⟨fun twice => ?_, fun twice => hotp_once pyotp same twice.1 twice.2⟩
    exact once u d e same factor ⟨(accepted memd).mp twice.1, (accepted meme).mp twice.2⟩

/-! ### The same code twice -/

def sampleCode (_secret : String) (factor : Int) : String := String.ofList (intChars factor)

def sampleWindow (now : Time) (window : Int) : List Int :=
  (List.range (2 * window + 1).toNat).map fun (i : Nat) => timeStep now - window + (i : Int)

def otpEnv : Env :=
  { sampleEnv with
    totpVerify secret token now window :=
      (sampleWindow now window).any fun factor => sampleCode secret factor == token
    hotpVerify secret token counter := sampleCode secret counter == token }

theorem mem_sampleWindow {window : Int} : factor ∈ sampleWindow now window ↔
    timeStep now - window ≤ factor ∧ factor ≤ timeStep now + window := by
  simp only [sampleWindow, List.mem_map, List.mem_range]
  constructor
  · rintro ⟨i, small, rfl⟩
    omega
  · rintro ⟨low, high⟩
    exact ⟨(factor - (timeStep now - window)).toNat, by omega, by omega⟩

theorem sampleCode_injective (secret : String) : Function.Injective (sampleCode secret) := by
  intro i j same
  have value : intChars i = intChars j := String.ofList_injective same
  have positive : ∀ n m, natChars n ≠ '-' :: natChars m := by
    intro n m here
    have minus := isDigit_natChars n '-' (by simp [here])
    cases minus
  have back : ∀ {n m}, natChars n = natChars m → n = m := by
    intro n m here
    rw [← charsNat_natChars n, here, charsNat_natChars]
  unfold intChars at value
  split at value
  · split at value
    · have abs := back (List.cons.inj value).2
      omega
    · exact absurd value.symm (positive _ _)
  · split at value
    · exact absurd value (positive _ _)
    · have abs := back value
      omega

theorem pyotp_otpEnv : Pyotp otpEnv sampleCode sampleCode where
  totp secret token now window := by
    simp only [otpEnv, List.any_eq_true, mem_sampleWindow, beq_iff_eq, and_assoc]
  hotp secret token counter := beq_iff_eq
  totp_distinct := sampleCode_injective
  hotp_distinct := sampleCode_injective

/-- The code of time step 100 is presented twice, a second apart. -/
def replayRun : List Input :=
  [⟨3000, .setupTotp "ann" none [Fin.last 999999]⟩, ⟨3001, .verifyTotp "ann" "100" none⟩,
    ⟨3002, .verifyTotp "ann" "100" none⟩]

theorem replayRun_not_replayed_iff :
    (∀ u d e, SameEnrolment (trace (step otpEnv) (new sampleSettings) replayRun) u d e → ∀ factor,
      ¬(TotpAccepted sampleCode d u factor ∧ TotpAccepted sampleCode e u factor) ∧
        ¬(HotpAccepted sampleCode d u factor ∧ HotpAccepted sampleCode e u factor)) ↔
      ∀ u d e, SameEnrolment (trace (step otpEnv) (new sampleSettings) replayRun) u d e → ∀ factor,
        ¬(TotpPresented sampleCode d u factor ∧ TotpPresented sampleCode e u factor) :=
  passwords_not_replayed_iff pyotp_otpEnv sampleSettings replayRun

theorem replayRun_accepts_twice :
    ¬∀ u d e, SameEnrolment (trace (step otpEnv) (new sampleSettings) replayRun) u d e → ∀ factor,
      ¬(TotpAccepted sampleCode d u factor ∧ TotpAccepted sampleCode e u factor) ∧
        ¬(HotpAccepted sampleCode d u factor ∧ HotpAccepted sampleCode e u factor) := by
  intro once
  have first : (entry (step otpEnv)
      (run (step otpEnv) (new sampleSettings) (replayRun.take 1)) replayRun[1]).output =
      .ok (.answer true) := by decide +kernel
  have second : (entry (step otpEnv)
      (run (step otpEnv) (new sampleSettings) (replayRun.take 2)) replayRun[2]).output =
      .ok (.answer true) := by decide +kernel
  have held : ∀ n, n = 1 ∨ n = 2 →
      secretFor (run (step otpEnv) (new sampleSettings) (replayRun.take n)) .totp "ann" none =
        some "S0" := by
    rintro n (rfl | rfl)
    · decide +kernel
    · decide +kernel
  have same : SameEnrolment (trace (step otpEnv) (new sampleSettings) replayRun) "ann"
      (entry (step otpEnv) (run (step otpEnv) (new sampleSettings) (replayRun.take 1)) replayRun[1])
      (entry (step otpEnv) (run (step otpEnv) (new sampleSettings) (replayRun.take 2)) replayRun[2]) :=
    ⟨[entry (step otpEnv) (new sampleSettings) replayRun[0]], [], [], rfl, by simp⟩
  have code : sampleCode "S0" 100 = "100" := by decide +kernel
  exact (once "ann" _ _ same 100).1 ⟨⟨"100", none, "S0", rfl, first, held 1 (.inl rfl), code⟩,
    ⟨"100", none, "S0", rfl, second, held 2 (.inr rfl), code⟩⟩

end BtApiSecurity.Mfa.MFAProvider
