import BtApiSecurity.Mfa.Challenges
import BtApiSecurity.Mfa.Ownership
import BtApiSecurity.OneTime

/-!
# Assertions presented again

A challenge is dropped with the verification that it lets through, and a credential
keeps the sign count of the assertion accepted last.
-/

namespace BtApiSecurity.Mfa.MFAProvider
open Py Machine OneTime

variable {env : Env} {s : MFAProvider} {key : String} {n : Nat}

/-! ### What a run says about challenges and counts -/

def verifies (e : Event) : Bool :=
  match e.input.call, e.output with
  | .verifyWebauthnRegistration _ _, .ok (.answer true) => true
  | .verifyWebauthnAuthentication _ _, .ok (.answer true) => true
  | _, _ => false

/-- The challenge with which a verification succeeds. -/
def consumed (e : Event) : Option String :=
  match e.input.call, e.output with
  | .verifyWebauthnRegistration userId _, .ok (.answer true) =>
    (e.pre.webauthnChallenges.get? userId).map (·.challenge)
  | .verifyWebauthnAuthentication userId _, .ok (.answer true) =>
    (e.pre.webauthnChallenges.get? (authKey userId)).map (·.challenge)
  | _, _ => none

def issuedChallenge (e : Event) : Option String := (issue e).map (·.challenge)

/-- The sign count with which a step registers a credential under the key. -/
def registeredCount (env : Env) (e : Event) (key : String) : Option Nat :=
  match e.input.call, e.output with
  | .verifyWebauthnRegistration userId data, .ok (.answer true) => do
    let challenge ← e.pre.webauthnChallenges.get? userId
    let credential ← registrationRecord env e.pre e.input.now userId challenge data
    if credentialKey credential.credentialId = key then some credential.signCount else none
  | _, _ => none

/-- The sign count of an accepted assertion that names the key. -/
def assertedCount (key : String) (e : Event) : Option Nat :=
  match e.input.call, e.output with
  | .verifyWebauthnAuthentication _ data, .ok (.answer true) =>
    if namedCredential data = some key then
      (data.authenticatorData.bind decodeField).map fun bytes => fromBytes (slice bytes 33 37)
    else none
  | _, _ => none

structure NotReplayed (env : Env) (history : List Event) : Prop where
  once : history.Pairwise fun e e' => ∀ x, consumed e = some x → consumed e' ≠ some x
  timely : ∀ l e l', history = l ++ e :: l' → verifies e = true → ∃ x d, consumed e = some x ∧ d ∈ l ∧
    issuedChallenge d = some x ∧ e.input.now ≤ d.input.now + 300
  increasing : ∀ key l d l₁ l₂ n, history = l ++ d :: (l₁ ++ l₂) → registeredCount env d key = some n →
    (∀ x ∈ l₁, registeredCount env x key = none) →
    (n :: l₁.filterMap (assertedCount key)).Pairwise (· < ·)

/-! ### Draws -/

theorem drawn_step (env : Env) (s : MFAProvider) (i : Input) : s.drawn ≤ (step env s i).1.drawn := by
  have outcome := step_outcome env s i
  obtain ⟨now, call⟩ := i
  have stays : ∀ stop drawn, s.stops call = some stop →
      (step env s ⟨now, call⟩).1 = { s with drawn } → s.drawn ≤ drawn := by
    intro stop drawn reason shape
    rw [show drawn = (step env s ⟨now, call⟩).1.drawn by rw [shape]]
    cases call with
    | setupTotp userId accountName draws =>
      simp only [step, perform, setupTotp, draw, generateBackupCodes, Method.run_map, Method.run_bind,
        Method.run_read, Method.run_update, Method.run_check, Method.run_pure]
      cases backupCodesLoop s.settings.backupCodesCount [] draws with
      | none => exact Nat.le_succ _
      | some codes => exact Nat.le_succ _
    | setupHotp userId accountName draws =>
      simp only [step, perform, setupHotp, draw, generateBackupCodes, Method.run_map, Method.run_bind,
        Method.run_read, Method.run_update, Method.run_check, Method.run_pure]
      cases backupCodesLoop s.settings.backupCodesCount [] draws with
      | none => exact Nat.le_succ _
      | some codes => exact Nat.le_succ _
    | generateWebauthnAuthenticationOptions userId =>
      simp only [step, perform, generateWebauthnAuthenticationOptions, draw, Method.run_map,
        Method.run_bind, Method.run_read, Method.run_check]
      cases ensure (s.userCredentials userId ≠ []) (Stop.mfaError _) with
      | error stop => exact Nat.le_refl _
      | ok _ => exact Nat.le_succ _
    | regenerateBackupCodes userId draws =>
      simp only [step, perform, regenerateBackupCodes, generateBackupCodes, Method.run_map,
        Method.run_bind, Method.run_read, Method.run_check]
      cases s.mfaConfigs.get? userId with
      | none => exact Nat.le_refl _
      | some config =>
        simp only [orRaise]
        cases backupCodesLoop s.settings.backupCodesCount [] draws with
        | none => exact Nat.le_refl _
        | some codes => exact Nat.le_refl _
    | _ => cases reason
  generalize step env s ⟨now, call⟩ = next at outcome stays ⊢
  obtain ⟨post, reply⟩ := next
  cases outcome with
  | stopped _ stop drawn reason => exact stays stop drawn reason rfl
  | totpSet | hotpSet | registrationOffered | authenticationOffered => exact Nat.le_succ _
  | _ => exact Nat.le_refl _

/-! ### Challenges are one-time tokens -/

def DrawnChallenge (env : Env) (s : MFAProvider) (x : String) : Prop :=
  ∃ n < s.drawn, x = urlsafeB64encode (env.tokenBytes n)

def PendingChallenge (s : MFAProvider) (x : String) : Prop :=
  ∃ key challenge, s.webauthnChallenges.get? key = some challenge ∧ challenge.challenge = x

/-- Pending challenges were drawn, and each is pending under one key. -/
structure Distinct (env : Env) (s : MFAProvider) : Prop where
  drawn : ∀ key challenge, s.webauthnChallenges.get? key = some challenge →
    DrawnChallenge env s challenge.challenge
  unique : ∀ key key' challenge challenge', s.webauthnChallenges.get? key = some challenge →
    s.webauthnChallenges.get? key' = some challenge' →
    challenge.challenge = challenge'.challenge → key = key'

theorem drawnChallenge_step (i : Input) {x : String} (drawn : DrawnChallenge env s x) :
    DrawnChallenge env (step env s i).1 x := by
  obtain ⟨n, before, rfl⟩ := drawn
  exact ⟨n, Nat.lt_of_lt_of_le before (drawn_step env s i), rfl⟩

theorem not_drawnChallenge (distinct : Function.Injective env.tokenBytes) :
    ¬DrawnChallenge env s (urlsafeB64encode (env.tokenBytes s.drawn)) := by
  rintro ⟨n, before, same⟩
  have equal := distinct (urlsafeB64encode_injective same)
  omega

theorem issue_seen {i : Input} {issued : Issue} (h : issue (entry (step env) s i) = some issued) :
    DrawnChallenge env (step env s i).1 issued.challenge := by
  obtain ⟨text, next⟩ := issue_drawn h
  exact ⟨s.drawn, by omega, text⟩

theorem issue_fresh (distinct : Function.Injective env.tokenBytes) {i : Input} {issued : Issue}
    (h : issue (entry (step env) s i) = some issued) : ¬DrawnChallenge env s issued.challenge := by
  rw [(issue_drawn h).1]
  exact not_drawnChallenge distinct

theorem distinct_step (distinct : Function.Injective env.tokenBytes) (i : Input) (inv : Distinct env s) :
    Distinct env (step env s i).1 := by
  constructor
  · intro key challenge pending
    rcases pending_cases pending with ⟨-, before⟩ | ⟨issued, stored, at_key⟩
    · exact drawnChallenge_step i (inv.drawn key challenge before)
    · split at at_key
      · rw [at_key]
        exact issue_seen stored
      · exact drawnChallenge_step i (inv.drawn key challenge at_key)
  · intro key key' challenge challenge' pending pending' same
    rcases pending_cases pending with ⟨none, before⟩ | ⟨issued, stored, at_key⟩
    · rcases pending_cases pending' with ⟨-, before'⟩ | ⟨issued, stored, -⟩
      · exact inv.unique key key' challenge challenge' before before' same
      · cases none.symm.trans stored
    · rcases pending_cases pending' with ⟨none, -⟩ | ⟨issued', stored', at_key'⟩
      · cases none.symm.trans stored
      · obtain rfl := Option.some.inj (stored.symm.trans stored')
        have fresh := issue_fresh distinct stored
        split at at_key
        · rename_i here
          split at at_key'
          · rename_i here'
            exact here.symm.trans here'
          · have drawn := inv.drawn key' challenge' at_key'
            rw [← same, at_key] at drawn
            exact absurd drawn fresh
        · split at at_key'
          · have drawn := inv.drawn key challenge at_key
            rw [same, at_key'] at drawn
            exact absurd drawn fresh
          · exact inv.unique key key' challenge challenge' at_key at_key' same

theorem verifies_pending {i : Input} (h : verifies (entry (step env) s i) = true) :
    ∃ key challenge, s.webauthnChallenges.get? key = some challenge ∧ ¬challenge.expiresAt < i.now ∧
      consumed (entry (step env) s i) = some challenge.challenge ∧
      (step env s i).1.webauthnChallenges = s.webauthnChallenges.erase key := by
  have outcome := step_outcome env s i
  obtain ⟨now, call⟩ := i
  unfold entry verifies at h
  unfold entry consumed
  generalize (step env s ⟨now, call⟩).1 = post at outcome ⊢
  generalize (step env s ⟨now, call⟩).2 = reply at outcome h ⊢
  cases outcome with
  | @registered userId _ challenge _ pending timely =>
    exact ⟨userId, challenge, pending, timely, by simp [pending], rfl⟩
  | @authenticated userId _ _ challenge _ _ pending timely =>
    exact ⟨authKey userId, challenge, pending, timely, by simp [pending], rfl⟩
  | answered call _ reads => cases call <;> first | cases h | (cases reads)
  | refused call => cases call <;> cases h
  | stopped call => cases call <;> cases h
  | _ => cases h

theorem verifies_of_consumed {e : Event} {x : String} (h : consumed e = some x) : verifies e = true := by
  unfold consumed at h
  split at h
  · rename_i called answered
    simp only [verifies, called, answered]
  · rename_i called answered
    simp only [verifies, called, answered]
  · cases h

theorem consumed_dead (inv : Distinct env s) {i : Input} {x : String}
    (gone : consumed (entry (step env) s i) = some x) : ¬PendingChallenge (step env s i).1 x := by
  obtain ⟨key, challenge, pending, -, same, erased⟩ := verifies_pending (verifies_of_consumed gone)
  obtain rfl := Option.some.inj (same.symm.trans gone)
  rintro ⟨key', challenge', pending', same'⟩
  rw [erased] at pending'
  have before := Dict.get?_filter_some pending'
  obtain rfl := inv.unique key key' challenge challenge' pending before same'.symm
  rw [Dict.get?_erase_self] at pending'
  cases pending'

theorem consumed_live {i : Input} {x : String} (gone : consumed (entry (step env) s i) = some x) :
    PendingChallenge s x := by
  obtain ⟨key, challenge, pending, -, same, -⟩ := verifies_pending (verifies_of_consumed gone)
  exact ⟨key, challenge, pending, Option.some.inj (same.symm.trans gone)⟩

theorem pending_drawn (inv : Distinct env s) {x : String} (live : PendingChallenge s x) :
    DrawnChallenge env s x := by
  obtain ⟨key, challenge, pending, rfl⟩ := live
  exact inv.drawn key challenge pending

theorem issuedChallenge_fresh (distinct : Function.Injective env.tokenBytes) {i : Input} {x : String}
    (born : issuedChallenge (entry (step env) s i) = some x) : ¬DrawnChallenge env s x := by
  obtain ⟨issued, stored, rfl⟩ := Option.map_eq_some_iff.mp born
  exact issue_fresh distinct stored

theorem issuedChallenge_seen {i : Input} {x : String}
    (born : issuedChallenge (entry (step env) s i) = some x) : DrawnChallenge env (step env s i).1 x := by
  obtain ⟨issued, stored, rfl⟩ := Option.map_eq_some_iff.mp born
  exact issue_seen stored

theorem pending_born {i : Input} {x : String} (live : PendingChallenge (step env s i).1 x) :
    PendingChallenge s x ∨ issuedChallenge (entry (step env) s i) = some x := by
  obtain ⟨key, challenge, pending, rfl⟩ := live
  rcases pending_cases pending with ⟨-, before⟩ | ⟨issued, stored, at_key⟩
  · exact .inl ⟨key, challenge, before, rfl⟩
  · split at at_key
    · exact .inr (by rw [issuedChallenge, stored, at_key]; rfl)
    · exact .inl ⟨key, challenge, at_key, rfl⟩

def challengeDiscipline (env : Env) (distinct : Function.Injective env.tokenBytes) :
    Discipline (step env) String where
  Inv := Distinct env
  live := PendingChallenge
  seen := DrawnChallenge env
  spent := consumed
  issued := issuedChallenge
  inv_step _ i inv := distinct_step distinct i inv
  live_seen _ _ inv live := pending_drawn inv live
  seen_step _ i _ _ seen := drawnChallenge_step i seen
  spent_live _ _ _ _ gone := consumed_live gone
  spent_dead _ _ _ inv gone := consumed_dead inv gone
  issued_fresh _ _ _ _ born := issuedChallenge_fresh distinct born
  issued_seen _ _ _ _ born := issuedChallenge_seen born
  live_born _ _ _ _ live := pending_born live

theorem distinct_new (env : Env) (settings : Settings) : Distinct env (new settings) :=
  ⟨fun _ _ pending => by (cases pending), fun _ _ _ _ pending => by (cases pending)⟩

/-! ### Expiry -/

/-- A pending challenge was issued by a step of the history, and expires 300 s after it. -/
def ExpiryRecorded (history : List Event) (s : MFAProvider) : Prop :=
  ∀ key challenge, s.webauthnChallenges.get? key = some challenge → ∃ d ∈ history,
    issuedChallenge d = some challenge.challenge ∧ challenge.expiresAt = d.input.now + 300

theorem expiryRecorded_step {history : List Event} (i : Input) (inv : ExpiryRecorded history s) :
    ExpiryRecorded (history ++ [entry (step env) s i]) (step env s i).1 := by
  intro key challenge pending
  have earlier : ∀ {challenge : Challenge}, s.webauthnChallenges.get? key = some challenge →
      ∃ d ∈ history ++ [entry (step env) s i], issuedChallenge d = some challenge.challenge ∧
        challenge.expiresAt = d.input.now + 300 := by
    intro challenge before
    obtain ⟨d, mem, rest⟩ := inv key challenge before
    exact ⟨d, List.mem_append_left _ mem, rest⟩
  rcases pending_cases pending with ⟨-, before⟩ | ⟨issued, stored, at_key⟩
  · exact earlier before
  · split at at_key
    · refine ⟨_, List.mem_append_right _ (List.mem_singleton_self _), ?_, ?_⟩
      · rw [issuedChallenge, stored, at_key]
        rfl
      · rw [at_key]
        rfl
    · exact earlier at_key

/-! ### Sign counts -/

theorem assertionRecord_count {challenge : Challenge} {data : AssertionData} {key : String}
    {credential : WebAuthnCredential} {signCount : Nat}
    (h : assertionRecord env s challenge data = some (key, credential, signCount)) :
    (∃ bytes, data.authenticatorData.bind decodeField = some bytes ∧
      signCount = fromBytes (slice bytes 33 37)) ∧ credential.signCount < signCount := by
  simp only [assertionRecord, Option.bind_eq_bind, Option.bind_eq_some_iff] at h
  obtain ⟨_, -, h⟩ := h
  split at h
  · simp only [Option.bind_eq_some_iff] at h
    obtain ⟨bytes, decoded, key', -, credential', -, _, -, flags, -, h⟩ := h
    split at h
    · rename_i fits
      cases h
      exact ⟨⟨bytes, Option.bind_eq_some_iff.mpr decoded, rfl⟩, fits.2.2⟩
    · cases h
  · cases h

/-- A step without registration under the key raises the count of the credential there to that of an
assertion it accepts, and otherwise leaves the credential as it is or removes it. -/
theorem count_step {i : Input}
    (none_registered : registeredCount env (entry (step env) s i) key = none) :
    (assertedCount key (entry (step env) s i) = none ∧
      ∀ credential, (step env s i).1.webauthnCredentials.get? key = some credential →
        s.webauthnCredentials.get? key = some credential) ∨
    ∃ old count, s.webauthnCredentials.get? key = some old ∧ old.signCount < count ∧
      assertedCount key (entry (step env) s i) = some count ∧
      (step env s i).1.webauthnCredentials.get? key = some { old with signCount := count } := by
  have outcome := step_outcome env s i
  obtain ⟨now, call⟩ := i
  unfold entry registeredCount at none_registered
  unfold entry assertedCount
  generalize (step env s ⟨now, call⟩).1 = post at outcome ⊢
  generalize (step env s ⟨now, call⟩).2 = reply at outcome none_registered ⊢
  cases outcome with
  | @registered v data challenge new pending _ accepted =>
    simp only [pending, accepted, Option.bind_eq_bind, Option.bind_some] at none_registered
    have other : credentialKey new.credentialId ≠ key := by
      intro same
      rw [if_pos same] at none_registered
      cases none_registered
    exact .inl ⟨rfl, fun credential stored => (Dict.get?_set_of_ne _ _ other).symm.trans stored⟩
  | @authenticated v key' data challenge old count _ _ accepted =>
    obtain ⟨named, found⟩ := assertionRecord_named accepted
    obtain ⟨⟨bytes, decoded, rfl⟩, above⟩ := assertionRecord_count accepted
    simp only [named, decoded, Option.some.injEq, Option.map_some]
    by_cases same : key' = key
    · subst same
      exact .inr ⟨old, _, found, above, if_pos rfl, Dict.get?_set_self _ _ _⟩
    · exact .inl ⟨if_neg same, fun credential stored => (Dict.get?_set_of_ne _ _ same).symm.trans stored⟩
  | @disabled v code config =>
    refine .inl ⟨rfl, fun credential stored => ?_⟩
    unfold MFAProvider.disabled at stored
    cases named : config.credentialId with
    | none => simpa [named] using stored
    | some other =>
      rw [named] at stored
      exact Dict.get?_filter_some stored
  | answered call _ reads =>
    exact .inl ⟨by cases call <;> first | rfl | (cases reads), fun _ stored => stored⟩
  | refused call => exact .inl ⟨by (cases call <;> rfl), fun _ stored => stored⟩
  | stopped call => exact .inl ⟨by (cases call <;> rfl), fun _ stored => stored⟩
  | _ => exact .inl ⟨rfl, fun _ stored => stored⟩

theorem registeredCount_stored {i : Input}
    (registered : registeredCount env (entry (step env) s i) key = some n) :
    ∃ credential, (step env s i).1.webauthnCredentials.get? key = some credential ∧
      credential.signCount = n := by
  have outcome := step_outcome env s i
  obtain ⟨now, call⟩ := i
  unfold entry registeredCount at registered
  generalize (step env s ⟨now, call⟩).1 = post at outcome ⊢
  generalize (step env s ⟨now, call⟩).2 = reply at outcome registered
  cases outcome with
  | @registered v data challenge new pending _ accepted =>
    simp only [pending, accepted, Option.bind_eq_bind, Option.bind_some] at registered
    split at registered
    · rename_i same
      obtain rfl := Option.some.inj registered
      exact ⟨new, same ▸ Dict.get?_set_self _ _ _, rfl⟩
    · cases registered
  | answered call _ reads => cases call <;> first | cases registered | (cases reads)
  | refused call => cases call <;> cases registered
  | stopped call => cases call <;> cases registered
  | _ => cases registered

theorem counts_increase {is : List Input}
    (below : ∀ credential, s.webauthnCredentials.get? key = some credential → n ≤ credential.signCount)
    (quiet : ∀ x ∈ trace (step env) s is, registeredCount env x key = none) :
    (n :: (trace (step env) s is).filterMap (assertedCount key)).Pairwise (· < ·) := by
  induction is generalizing s n with
  | nil => exact List.pairwise_singleton _ _
  | cons i is ih =>
    have later := fun x mem => quiet x (List.mem_cons_of_mem _ mem)
    rw [trace]
    rcases count_step (quiet _ List.mem_cons_self) with
      ⟨unasserted, kept⟩ | ⟨old, count, found, above, asserted, now⟩
    · rw [List.filterMap_cons_none unasserted]
      exact ih (fun credential stored => below credential (kept credential stored)) later
    · rw [List.filterMap_cons_some asserted]
      have rest := ih (s := (step env s i).1) (n := count) (fun credential stored => by
        obtain rfl := Option.some.inj (now.symm.trans stored)
        exact Nat.le_refl _) later
      have least := below old found
      refine List.pairwise_cons.mpr ⟨fun m mem => ?_, rest⟩
      rcases List.mem_cons.mp mem with rfl | mem
      · omega
      · have beyond := (List.pairwise_cons.mp rest).1 m mem
        omega

/-! ### Runs -/

/-- In every run a challenge lets one verification through, before it expires, and the sign counts
of the assertions accepted for a credential increase. -/
theorem webauthn_not_replayed (distinct : Function.Injective env.tokenBytes) (settings : Settings)
    (is : List Input) : NotReplayed env (trace (step env) (new settings) is) where
  once := (challengeDiscipline env distinct).spent_once (distinct_new env settings)
  timely := by
    intro l e l' split succeeded
    have mem : e ∈ trace (step env) (new settings) is := by
      rw [split]
      exact List.mem_append_cons_self
    have recorded := history_split ExpiryRecorded (fun _ _ pending => by cases pending)
      (fun _ _ i inv => expiryRecorded_step i inv) split
    rw [entry_of_mem mem] at succeeded
    obtain ⟨key, challenge, pending, timely, same, -⟩ := verifies_pending succeeded
    obtain ⟨d, earlier, issued, expiry⟩ := recorded key challenge pending
    rw [expiry] at timely
    rw [entry_of_mem mem]
    exact ⟨_, d, same, earlier, issued, le_of_not_gt timely⟩
  increasing := by
    intro key l d l₁ l₂ n split registered quiet
    obtain ⟨before, after, -, -, is_entry, rest⟩ := trace_split split
    obtain ⟨between, _, -, rfl⟩ := trace_prefix rest.symm
    rw [is_entry] at registered
    obtain ⟨credential, stored, same⟩ := registeredCount_stored registered
    refine counts_increase (fun credential' stored' => ?_) quiet
    rw [is_entry] at stored'
    obtain rfl := Option.some.inj (stored.symm.trans stored')
    exact same.ge

/-- Challenges that never repeat: the first 256 draws have 32 bytes. -/
def countingEnv : Env :=
  { sampleEnv with tokenBytes n := List.replicate (31 + n / 256) 0 ++ [UInt8.ofNat n] }

theorem countingEnv_distinct : Function.Injective countingEnv.tokenBytes := by
  intro n m same
  have lengths := congrArg List.length same
  have lasts := congrArg List.getLast? same
  simp only [countingEnv, List.length_append, List.length_replicate, List.length_singleton,
    List.getLast?_append, List.getLast?_singleton, Option.some_or, Option.some.injEq] at lengths lasts
  have bytes := congrArg UInt8.toNat lasts
  simp only [UInt8.toNat_ofNat'] at bytes
  omega

theorem registeredRun_not_replayed : NotReplayed countingEnv (trace (step countingEnv)
    (new sampleSettings)
    (registeredRun ++ [⟨5, .verifyWebauthnAuthentication "ann" (sampleAssertion 1 2)⟩])) :=
  webauthn_not_replayed countingEnv_distinct sampleSettings _

end BtApiSecurity.Mfa.MFAProvider
