import Mathlib.Data.Set.Defs
import BtApiSecurity.Mfa.Steps

/-!
# Whose challenge it is

The challenge of a registration stands under the user id, the challenge of an
authentication under `auth_` and the user id, all in one dictionary.
-/

namespace BtApiSecurity.Mfa.MFAProvider
open Py Machine

variable {env : Env} {s : MFAProvider} {u : String}

def Call.user : Call → String
  | .setupTotp userId _ _ | .verifyTotp userId _ _ | .setupHotp userId _ _ => userId
  | .verifyHotp userId _ _ | .generateWebauthnRegistrationOptions userId _ _ => userId
  | .verifyWebauthnRegistration userId _ | .generateWebauthnAuthenticationOptions userId => userId
  | .verifyWebauthnAuthentication userId _ | .disableMfa userId _ | .getMfaStatus userId => userId
  | .regenerateBackupCodes userId _ | .isMfaEnabled userId => userId

inductive Purpose where
  | registration
  | authentication
  deriving DecidableEq

/-- A challenge that a step stores under a key. -/
structure Issue where
  key : String
  purpose : Purpose
  challenge : String

def issue (e : Event) : Option Issue :=
  match e.input.call, e.output with
  | .generateWebauthnRegistrationOptions userId _ _, .ok (.registration options) =>
    some ⟨userId, .registration, options.challenge⟩
  | .generateWebauthnAuthenticationOptions userId, .ok (.authentication options) =>
    some ⟨authKey userId, .authentication, options.challenge⟩
  | _, _ => none

def lastIssue (history : List Event) (key : String) : Option Issue :=
  history.reverse.findSome? fun e => (issue e).filter (·.key = key)

/-- No call for one of the users touches the challenges of another. -/
def Framed (env : Env) (users : Set String) : Prop :=
  ∀ s u i, u ∈ users → i.call.user ∈ users → u ≠ i.call.user →
    (step env s i).1.webauthnChallenges.get? u = s.webauthnChallenges.get? u ∧
      (step env s i).1.webauthnChallenges.get? (authKey u) = s.webauthnChallenges.get? (authKey u)

/-- A challenge that an authentication looks at was issued for an authentication. -/
def Unmixed (env : Env) (settings : Settings) (users : Set String) : Prop :=
  ∀ is, (∀ i ∈ is, i.call.user ∈ users) → ∀ l e l', trace (step env) (new settings) is = l ++ e :: l' →
    ∀ u data challenge, e.input.call = .verifyWebauthnAuthentication u data →
    e.pre.webauthnChallenges.get? (authKey u) = some challenge →
    lastIssue l (authKey u) = some ⟨authKey u, .authentication, challenge.challenge⟩

/-! ### One call -/

theorem challenges_frame {i : Input} {key : String} (own : key ≠ i.call.user)
    (auth : key ≠ authKey i.call.user) :
    (step env s i).1.webauthnChallenges.get? key = s.webauthnChallenges.get? key := by
  have outcome := step_outcome env s i
  obtain ⟨now, call⟩ := i
  generalize (step env s ⟨now, call⟩).1 = post at outcome ⊢
  generalize (step env s ⟨now, call⟩).2 = reply at outcome
  cases outcome with
  | registrationOffered => exact Dict.get?_set_of_ne _ _ own.symm
  | authenticationOffered => exact Dict.get?_set_of_ne _ _ auth.symm
  | registrationExpired | registered => exact Dict.get?_erase_of_ne _ own.symm
  | authenticationExpired | authenticated => exact Dict.get?_erase_of_ne _ auth.symm
  | disabled =>
    have first := Dict.get?_erase_of_ne s.webauthnChallenges own.symm
    exact (Dict.get?_erase_of_ne _ auth.symm).trans first
  | _ => rfl

theorem issue_drawn {i : Input} {issued : Issue} (h : issue (entry (step env) s i) = some issued) :
    issued.challenge = urlsafeB64encode (env.tokenBytes s.drawn) ∧
      (step env s i).1.drawn = s.drawn + 1 := by
  have outcome := step_outcome env s i
  obtain ⟨now, call⟩ := i
  unfold entry issue at h
  generalize (step env s ⟨now, call⟩).1 = post at outcome ⊢
  generalize (step env s ⟨now, call⟩).2 = reply at outcome h
  cases outcome with
  | registrationOffered drew | authenticationOffered drew =>
    obtain rfl := Option.some.inj h
    exact ⟨drew, rfl⟩
  | answered call _ reads => cases call <;> first | cases h | cases reads
  | refused call => cases call <;> cases h
  | stopped call => cases call <;> cases h
  | _ => cases h

/-- A challenge that is pending after a step was so before, or the step issues it. -/
theorem pending_cases {i : Input} {key : String} {challenge : Challenge}
    (pending : (step env s i).1.webauthnChallenges.get? key = some challenge) :
    issue (entry (step env) s i) = none ∧ s.webauthnChallenges.get? key = some challenge ∨
      ∃ issued, issue (entry (step env) s i) = some issued ∧
        if issued.key = key then challenge = ⟨issued.challenge, i.now + 300⟩
        else s.webauthnChallenges.get? key = some challenge := by
  have outcome := step_outcome env s i
  obtain ⟨now, call⟩ := i
  unfold entry issue
  generalize (step env s ⟨now, call⟩).1 = post at outcome pending ⊢
  generalize (step env s ⟨now, call⟩).2 = reply at outcome ⊢
  cases outcome with
  | registrationOffered | authenticationOffered =>
    refine .inr ⟨_, rfl, ?_⟩
    split
    · rename_i same
      subst same
      exact (Option.some.inj ((Dict.get?_set_self _ _ _).symm.trans pending)).symm
    · rename_i other
      exact (Dict.get?_set_of_ne _ _ other).symm.trans pending
  | registrationExpired | registered | authenticationExpired | authenticated =>
    exact .inl ⟨rfl, Dict.get?_filter_some pending⟩
  | disabled => exact .inl ⟨rfl, Dict.get?_filter_some (Dict.get?_filter_some pending)⟩
  | answered call _ reads => exact .inl ⟨by cases call <;> first | rfl | (cases reads), pending⟩
  | refused call => exact .inl ⟨by cases call <;> rfl, pending⟩
  | stopped call => exact .inl ⟨by cases call <;> rfl, pending⟩
  | _ => exact .inl ⟨rfl, pending⟩

theorem registration_issued {e : Event} {issued : Issue} (h : issue e = some issued)
    (purpose : issued.purpose = .registration) : e.input.call.user = issued.key := by
  unfold issue at h
  split at h
  · rename_i called _
    obtain rfl := Option.some.inj h
    rw [called]
    rfl
  · obtain rfl := Option.some.inj h
    cases purpose
  · cases h

/-! ### Runs -/

theorem lastIssue_append (history : List Event) (e : Event) (key : String) :
    lastIssue (history ++ [e]) key = ((issue e).filter (·.key = key)).or (lastIssue history key) := by
  unfold lastIssue
  rw [List.reverse_append, List.reverse_singleton, List.singleton_append, List.findSome?_cons]
  cases (issue e).filter (·.key = key) with
  | none => rfl
  | some issued => rfl

theorem lastIssue_some {history : List Event} {key : String} {issued : Issue}
    (h : lastIssue history key = some issued) :
    (∃ e ∈ history, issue e = some issued) ∧ issued.key = key := by
  obtain ⟨e, mem, found⟩ := List.exists_of_findSome?_eq_some h
  obtain ⟨stored, here⟩ := Option.filter_eq_some_iff.mp found
  exact ⟨⟨e, List.mem_reverse.mp mem, stored⟩, of_decide_eq_true here⟩

/-- What is pending under a key was issued last for it. -/
theorem pending_issued {settings : Settings} {is : List Input} {l l' : List Event} {e : Event}
    (split : trace (step env) (new settings) is = l ++ e :: l') {key : String} {challenge : Challenge}
    (pending : e.pre.webauthnChallenges.get? key = some challenge) :
    ∃ issued, lastIssue l key = some issued ∧ issued.challenge = challenge.challenge := by
  have recorded := history_split
    (fun history s => ∀ challenge, s.webauthnChallenges.get? key = some challenge →
      ∃ issued, lastIssue history key = some issued ∧ issued.challenge = challenge.challenge)
    (fun challenge absent => by cases absent) (fun history s i inv challenge pending => by
      rw [lastIssue_append]
      rcases pending_cases pending with ⟨none, before⟩ | ⟨issued, stored, at_key⟩
      · rw [none]
        exact inv challenge before
      · rw [stored]
        by_cases same : issued.key = key
        · rw [if_pos same] at at_key
          exact ⟨issued, by simp [same], by rw [at_key]⟩
        · rw [if_neg same] at at_key
          rw [Option.filter_some_neg (by simpa using same)]
          exact inv challenge at_key) split
  exact recorded challenge pending

/-- The users of a provider stay apart exactly when no user id is `auth_` and the id of another. -/
theorem challenges_apart_iff (env : Env) (settings : Settings) (users : Set String) :
    Framed env users ∧ Unmixed env settings users ↔ ∀ u ∈ users, authKey u ∉ users := by
  constructor
  · rintro ⟨framed, -⟩ u member member'
    have other : u ≠ authKey u := by
      intro same
      have longer := congrArg String.length same
      simp [authKey] at longer
    have kept := (framed (new settings) u
      ⟨0, .generateWebauthnRegistrationOptions (authKey u) "" none⟩ member member' other).2
    have issued : (step env (new settings)
        ⟨0, .generateWebauthnRegistrationOptions (authKey u) "" none⟩).1.webauthnChallenges.get?
          (authKey u) = some _ := Dict.get?_set_self _ _ _
    rw [issued] at kept
    cases kept
  · intro apart
    constructor
    · intro s u i member member' other
      have left : u ≠ authKey i.call.user := fun same => apart _ member' (same ▸ member)
      have right : authKey u ≠ i.call.user := fun same => apart _ member (same ▸ member')
      exact ⟨challenges_frame other left, challenges_frame right (authKey_injective.ne other)⟩
    · intro is inside l e l' split u data challenge called pending
      obtain ⟨⟨key, purpose, text⟩, issued, same⟩ := pending_issued split pending
      obtain ⟨⟨d, mem, stored⟩, rfl⟩ := lastIssue_some issued
      obtain rfl : text = challenge.challenge := same
      cases purpose with
      | authentication => exact issued
      | registration =>
        have mem_d : d ∈ trace (step env) (new settings) is := by
          rw [split]
          exact List.mem_append_left _ mem
        have mem_e : e ∈ trace (step env) (new settings) is := by
          rw [split]
          exact List.mem_append_cons_self
        have issuer := inside d.input (input_mem_of_mem mem_d)
        have user := inside e.input (input_mem_of_mem mem_e)
        rw [registration_issued stored rfl] at issuer
        rw [called] at user
        exact absurd issuer (apart u user)

theorem ann_disturbed : ¬(Framed sampleEnv Set.univ ∧ Unmixed sampleEnv sampleSettings Set.univ) := by
  rintro ⟨framed, -⟩
  have kept := (framed (new sampleSettings) "ann"
    ⟨0, .generateWebauthnRegistrationOptions "auth_ann" "Ann" none⟩ trivial trivial (by decide)).2
  have issued : ((step sampleEnv (new sampleSettings)
      ⟨0, .generateWebauthnRegistrationOptions "auth_ann" "Ann" none⟩).1.webauthnChallenges.get?
        (authKey "ann")).isSome = true := by decide +kernel
  rw [kept] at issued
  cases issued

end BtApiSecurity.Mfa.MFAProvider
