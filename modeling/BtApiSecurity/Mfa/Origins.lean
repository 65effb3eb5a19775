import BtApiSecurity.Mfa.Truncation
import Mathlib.Data.List.DropRight

/-!
# Origins of the relying party

The origin in the client data has to end with the id of the relying party. Nothing
asks where in the origin its host begins, so a longer name that ends alike passes too.
-/

namespace BtApiSecurity.Mfa
open Py Machine

/-! ### The host of an origin -/

/-- What stands behind the first occurrence of the text. -/
def behind (text : List Char) : List Char → Option (List Char)
  | [] => none
  | c :: cs => if text.isPrefixOf (c :: cs) then some ((c :: cs).drop text.length) else behind text cs

/-- The origin without its scheme, and without a path, which no origin of a client has. -/
def authority (origin : List Char) : List Char :=
  ((behind "://".toList origin).getD origin).takeWhile fun c => c ≠ '/' && c ≠ '?' && c ≠ '#'

/-- A host in brackets may hold colons. -/
def dropPort : List Char → List Char
  | '[' :: cs => '[' :: cs.takeWhile (· ≠ ']') ++ [']']
  | cs => cs.takeWhile (· ≠ ':')

/-- The host of an origin `scheme://user@host:port`, of which only the host has to be there. -/
def hostChars (origin : List Char) : List Char := dropPort ((authority origin).rtakeWhile (· ≠ '@'))

def hostOf (origin : String) : String := String.ofList (hostChars origin.toList)

/-- The host is that of the relying party or one below it. -/
def HostAllowed (rpId origin : String) : Prop :=
  hostOf origin = rpId ∨ ("." ++ rpId).toList <:+ (hostOf origin).toList

/-- An origin that ends like the relying party with the host of somebody else. -/
structure LookAlike (rpId origin : String) : Prop where
  nonempty : origin ≠ ""
  ends : rpId.toList <:+ origin.toList
  foreign : ¬HostAllowed rpId origin

/-! ### Plain origins -/

def isHostChar (c : Char) : Bool := c.isAlphanum || c = '-' || c = '.'

def IsHost (cs : List Char) : Prop := ∀ c ∈ cs, isHostChar c = true

theorem hostChar_not_special : ∀ c ∈ [':', '/', '?', '#', '@', '[', ']'], isHostChar c = false := by
  simp [isHostChar]

theorem ne_of_hostChar {c d : Char} (plain : isHostChar c = true)
    (special : d ∈ [':', '/', '?', '#', '@', '[', ']']) : c ≠ d := by
  rintro rfl
  rw [hostChar_not_special c special] at plain
  cases plain

theorem behind_scheme {scheme : List Char} (letters : ':' ∉ scheme) (cs : List Char) :
    behind "://".toList (scheme ++ ("://".toList ++ cs)) = some cs := by
  induction scheme with
  | nil => rfl
  | cons c scheme ih =>
    have other : c ≠ ':' := fun h => letters (h ▸ List.mem_cons_self)
    have later : ¬"://".toList.isPrefixOf (c :: (scheme ++ ("://".toList ++ cs))) = true := by
      rw [List.isPrefixOf_iff_prefix]
      intro starts
      exact other (List.cons_prefix_cons.mp starts).1.symm
    rw [List.cons_append, behind, if_neg later]
    exact ih fun h => letters (List.mem_cons_of_mem c h)

theorem dropPort_host {host : List Char} (plain : IsHost host) : dropPort host = host := by
  unfold dropPort
  split
  · exact absurd rfl (ne_of_hostChar (plain '[' List.mem_cons_self) (by decide))
  · rw [List.takeWhile_eq_self_iff]
    intro c member
    exact decide_eq_true (ne_of_hostChar (plain c member) (by decide))

/-- The origin of a scheme and a host, as a client states it for the standard port. -/
def plainOrigin (scheme host : List Char) : List Char := scheme ++ ("://".toList ++ host)

theorem hostChars_plainOrigin {scheme host : List Char} (letters : ':' ∉ scheme) (plain : IsHost host) :
    hostChars (plainOrigin scheme host) = host := by
  have whole : authority (plainOrigin scheme host) = host := by
    rw [authority, plainOrigin, behind_scheme letters, Option.getD_some, List.takeWhile_eq_self_iff]
    intro c member
    have slash := ne_of_hostChar (plain c member) (d := '/') (by decide)
    have query := ne_of_hostChar (plain c member) (d := '?') (by decide)
    have fragment := ne_of_hostChar (plain c member) (d := '#') (by decide)
    simp [slash, query, fragment]
  have nobody : host.rtakeWhile (· ≠ '@') = host := by
    rw [List.rtakeWhile_eq_self_iff]
    intro c member
    exact decide_eq_true (ne_of_hostChar (plain c member) (by decide))
  rw [hostChars, whole, nobody, dropPort_host plain]

/-- An id that ends a plain origin ends its host. -/
theorem suffix_host {scheme host rpId : List Char} (plain : IsHost rpId)
    (ends : rpId <:+ plainOrigin scheme host) : rpId <:+ host := by
  rw [plainOrigin, ← List.append_assoc] at ends
  rcases List.suffix_or_suffix_of_suffix ends (List.suffix_append _ host) with inside | ⟨front, rfl⟩
  · exact inside
  · cases front using List.reverseRecOn with
    | nil => exact List.suffix_refl host
    | append_singleton front c =>
      have reaches : front ++ [c] <:+ scheme ++ "://".toList := by
        obtain ⟨before, whole⟩ := ends
        exact ⟨before, List.append_cancel_right ((List.append_assoc _ _ _).trans whole)⟩
      have slash : c = '/' := by
        obtain ⟨before, whole⟩ := reaches
        have last := congrArg List.getLast? whole
        simpa using last
      exact absurd slash (ne_of_hostChar (plain c (by simp)) (by decide))

/-- The look-alikes of a host are the longer names that end like it, but for the names below it. -/
theorem lookAlike_plainOrigin {scheme host rpId : List Char} (letters : ':' ∉ scheme)
    (plain : IsHost host) (plain' : IsHost rpId) :
    LookAlike (String.ofList rpId) (String.ofList (plainOrigin scheme host)) ↔
      ∃ label, host = label ++ rpId ∧ label ≠ [] ∧ label.getLast? ≠ some '.' := by
  have is_host : hostOf (String.ofList (plainOrigin scheme host)) = String.ofList host := by
    rw [hostOf, String.toList_ofList, hostChars_plainOrigin letters plain]
  have allowed_iff : HostAllowed (String.ofList rpId) (String.ofList (plainOrigin scheme host)) ↔
      host = rpId ∨ '.' :: rpId <:+ host := by
    rw [HostAllowed, is_host, String.toList_ofList, String.toList_append, String.toList_ofList,
      String.toList_ofList, String.ofList_inj]
    rfl
  constructor
  · intro alike
    obtain ⟨-, ends, foreign⟩ := alike
    rw [allowed_iff] at foreign
    rw [String.toList_ofList, String.toList_ofList] at ends
    obtain ⟨label, rfl⟩ := suffix_host plain' ends
    refine ⟨label, rfl, ?_, ?_⟩
    · rintro rfl
      exact foreign (.inl rfl)
    · intro dot
      obtain ⟨front, rfl⟩ := List.getLast?_eq_some_iff.mp dot
      exact foreign (.inr ⟨front, by simp⟩)
  · intro longer
    obtain ⟨label, rfl, nonempty, other⟩ := longer
    refine ⟨?_, ?_, ?_⟩
    · intro empty
      have lists := congrArg String.toList empty
      simp [plainOrigin] at lists
    · rw [String.toList_ofList, String.toList_ofList, plainOrigin, ← List.append_assoc,
        ← List.append_assoc]
      exact List.suffix_append _ rpId
    · rw [allowed_iff]
      rintro (same | ⟨front, below⟩)
      · exact nonempty (List.append_left_eq_self.mp same)
      · apply other
        have longer : front ++ ['.'] ++ rpId = label ++ rpId := by
          rw [List.append_assoc]
          exact below
        have split : front ++ ['.'] = label := List.append_cancel_right longer
        rw [← split, List.getLast?_concat]

namespace MFAProvider

variable {env : Env} {s : MFAProvider} {now : Time} {userId : String}
  {credentialData : CredentialData} {assertionData : AssertionData}

/-! ### What should be accepted -/

/-- The origin that the client data states. -/
def statedOrigin (env : Env) (json : Option String) : Option String :=
  match clientData env json with
  | some (.dict items) =>
    match field "origin" items with
    | .str origin => some origin
    | _ => none
  | _ => none

/-- What is accepted states an origin of the relying party. -/
structure OwnOrigins (env : Env) (s : MFAProvider) (now : Time) (userId : String)
    (credentialData : CredentialData) (assertionData : AssertionData) : Prop where
  registration : (step env s ⟨now, .verifyWebauthnRegistration userId credentialData⟩).2 =
    .ok (.answer true) → ∃ origin, statedOrigin env credentialData.clientDataJSON = some origin ∧
      HostAllowed s.settings.rpId origin
  authentication : (step env s ⟨now, .verifyWebauthnAuthentication userId assertionData⟩).2 =
    .ok (.answer true) → ∃ origin, statedOrigin env assertionData.clientDataJSON = some origin ∧
      HostAllowed s.settings.rpId origin

/-- A pending challenge of the key is answered by client data of the type. -/
def AnswersChallenge (env : Env) (s : MFAProvider) (now : Time) (key type : String)
    (json : Option String) : Prop :=
  ∃ challenge items, s.webauthnChallenges.get? key = some challenge ∧ ¬challenge.expiresAt < now ∧
    clientData env json = some (.dict items) ∧
    (field "challenge" items).pyEq (.str challenge.challenge) = true ∧
    (field "type" items).pyEq (.str type) = true

/-- No look-alike comes with a right answer and data that is complete otherwise. -/
structure NoLookAlike (env : Env) (s : MFAProvider) (now : Time) (userId : String)
    (credentialData : CredentialData) (assertionData : AssertionData) : Prop where
  registration : ∀ authData origin,
    AnswersChallenge env s now userId "webauthn.create" credentialData.clientDataJSON →
    attestedData env credentialData = some authData → 33 ≤ authData.length →
    statedOrigin env credentialData.clientDataJSON = some origin → ¬LookAlike s.settings.rpId origin
  authentication : ∀ bytes origin,
    AnswersChallenge env s now (authKey userId) "webauthn.get" assertionData.clientDataJSON →
    Vouches s assertionData bytes →
    statedOrigin env assertionData.clientDataJSON = some origin → ¬LookAlike s.settings.rpId origin

/-! ### What the check asks of the origin -/

theorem clientDataMatches_iff {rpId type : String} {challenge : Challenge} {data : Option Value} :
    clientDataMatches rpId challenge type data = true ↔
      ∃ items, data = some (.dict items) ∧ (field "challenge" items).pyEq (.str challenge.challenge) = true ∧
        (field "type" items).pyEq (.str type) = true ∧
        ∃ origin, field "origin" items = .str origin ∧ origin ≠ "" ∧ rpId.toList <:+ origin.toList := by
  unfold clientDataMatches
  split
  · rename_i items
    simp only [Bool.and_eq_true, Option.some.injEq, Value.dict.injEq, exists_eq_left', and_assoc]
    apply and_congr_right
    intro _
    apply and_congr_right
    intro _
    split
    · rename_i origin stated
      simp [stated]
    · rename_i other
      refine iff_of_false Bool.false_ne_true ?_
      intro given
      obtain ⟨origin, stated, -⟩ := given
      exact other origin stated
  · rename_i other
    refine iff_of_false Bool.false_ne_true ?_
    intro given
    obtain ⟨items, is_dict, -⟩ := given
    exact other items is_dict

theorem statedOrigin_iff {json : Option String} {items : List (Key × Value)} {origin : String}
    (decoded : clientData env json = some (.dict items)) :
    statedOrigin env json = some origin ↔ field "origin" items = .str origin := by
  unfold statedOrigin
  rw [decoded]
  simp only
  split
  · rename_i stated
    rw [stated, Option.some.injEq, Value.str.injEq]
  · rename_i other
    refine iff_of_false nofun ?_
    intro stated
    exact other origin stated

theorem answers_iff {key type : String} {json : Option String} :
    Answers env s now key type json ↔ AnswersChallenge env s now key type json ∧
      ∃ origin, statedOrigin env json = some origin ∧ origin ≠ "" ∧
        s.settings.rpId.toList <:+ origin.toList := by
  constructor
  · intro holds
    obtain ⟨challenge, pending, timely, matched⟩ := holds
    obtain ⟨items, decoded, answers, typed, origin, stated, nonempty, ends⟩ :=
      clientDataMatches_iff.mp matched
    exact ⟨⟨challenge, items, pending, timely, decoded, answers, typed⟩, origin,
      (statedOrigin_iff decoded).mpr stated, nonempty, ends⟩
  · intro holds
    obtain ⟨⟨challenge, items, pending, timely, decoded, answers, typed⟩, origin, stated, nonempty, ends⟩ := holds
    exact ⟨challenge, pending, timely, clientDataMatches_iff.mpr
      ⟨items, decoded, answers, typed, origin, (statedOrigin_iff decoded).mp stated, nonempty, ends⟩⟩

/-- What ends like the relying party is allowed or a look-alike. -/
theorem allowed_of_not_lookAlike {rpId origin : String} (nonempty : origin ≠ "")
    (ends : rpId.toList <:+ origin.toList) (honest : ¬LookAlike rpId origin) : HostAllowed rpId origin := by
  by_contra foreign
  exact honest ⟨nonempty, ends, foreign⟩

/-! ### The exact condition -/

theorem noLookAlike_of_ownOrigins (own : OwnOrigins env s now userId credentialData assertionData) :
    NoLookAlike env s now userId credentialData assertionData := by
  refine ⟨?_, ?_⟩
  · intro authData origin answers attested long stated look_alike
    have answers' := answers_iff.mpr ⟨answers, origin, stated, look_alike.nonempty, look_alike.ends⟩
    obtain ⟨origin', stated', allowed⟩ :=
      own.registration (registers_iff.mpr ⟨answers', authData, attested, long⟩)
    obtain rfl := Option.some.inj (stated.symm.trans stated')
    exact look_alike.foreign allowed
  · intro bytes origin answers vouches stated look_alike
    have answers' := answers_iff.mpr ⟨answers, origin, stated, look_alike.nonempty, look_alike.ends⟩
    obtain ⟨origin', stated', allowed⟩ :=
      own.authentication (authenticates_iff.mpr ⟨answers', bytes, vouches⟩)
    obtain rfl := Option.some.inj (stated.symm.trans stated')
    exact look_alike.foreign allowed

theorem ownOrigins_of_noLookAlike (honest : NoLookAlike env s now userId credentialData assertionData) :
    OwnOrigins env s now userId credentialData assertionData := by
  refine ⟨?_, ?_⟩
  · intro accepted
    obtain ⟨answers, authData, attested, long⟩ := registers_iff.mp accepted
    obtain ⟨answers, origin, stated, nonempty, ends⟩ := answers_iff.mp answers
    exact ⟨origin, stated, allowed_of_not_lookAlike nonempty ends
      (honest.registration authData origin answers attested long stated)⟩
  · intro accepted
    obtain ⟨answers, bytes, vouches⟩ := authenticates_iff.mp accepted
    obtain ⟨answers, origin, stated, nonempty, ends⟩ := answers_iff.mp answers
    exact ⟨origin, stated, allowed_of_not_lookAlike nonempty ends
      (honest.authentication bytes origin answers vouches stated)⟩

/-- Only origins of the relying party are accepted, if and only if no look-alike comes with an answer
that is right otherwise. -/
theorem ownOrigins_iff (env : Env) (s : MFAProvider) (now : Time) (userId : String)
    (credentialData : CredentialData) (assertionData : AssertionData) :
    OwnOrigins env s now userId credentialData assertionData ↔
      NoLookAlike env s now userId credentialData assertionData :=
  ⟨noLookAlike_of_ownOrigins, ownOrigins_of_noLookAlike⟩

/-! ### A longer name -/

def foreignClientData : String :=
  let json := ['\x7b'] ++ "\"type\":\"".toList ++ "webauthn.create".toList ++
    "\",\"challenge\":\"".toList ++ (b64Chars (sampleEnv.tokenBytes 0)).map urlChar ++
    "\",\"origin\":\"".toList ++ "https://evillocalhost".toList ++ ['"', '\x7d']
  b64encode (json.map fun c => UInt8.ofNat c.toNat)

def foreignCredential : CredentialData :=
  { sampleCredential 1 0 with clientDataJSON := some foreignClientData }

theorem clientDataMatches_expiresAt (rpId challenge : String) (t t' : Time) (type : String)
    (data : Option Value) : clientDataMatches rpId ⟨challenge, t'⟩ type data =
      clientDataMatches rpId ⟨challenge, t⟩ type data := rfl

theorem foreignClientData_matches (expiresAt : Time) : clientDataMatches "localhost"
    ⟨urlsafeB64encode (sampleEnv.tokenBytes 0), expiresAt⟩ "webauthn.create"
    (clientData sampleEnv (some foreignClientData)) = true := by
  rw [clientData, Option.bind_some, foreignClientData, decodeField_b64encode, Option.bind_some]
  rw [clientDataMatches_expiresAt _ _ 0]
  decide +kernel

theorem foreignClientData_origin :
    statedOrigin sampleEnv (some foreignClientData) = some "https://evillocalhost" := by
  rw [statedOrigin, clientData, Option.bind_some, foreignClientData, decodeField_b64encode,
    Option.bind_some]
  decide +kernel

theorem lookAlike_accepted : ¬∀ (env : Env) (s : MFAProvider) (now : Time) (userId : String)
    (credentialData : CredentialData) (assertionData : AssertionData),
    OwnOrigins env s now userId credentialData assertionData := by
  intro holds
  have honest := noLookAlike_of_ownOrigins (holds sampleEnv
    (run (step sampleEnv) (new sampleSettings) offeredRun) 1 "ann" foreignCredential (sampleAssertion 1 0))
  have attested : attestedData sampleEnv foreignCredential =
      some (List.replicate 32 0 ++ [0x45, 0, 0, 0, 0, 0, 1, 1, 9]) := by
    rw [attestedData, foreignCredential, sampleCredential, Option.bind_some, decodeField_b64encode]
    rfl
  have answers : Answers sampleEnv (run (step sampleEnv) (new sampleSettings) offeredRun) 1 "ann"
      "webauthn.create" foreignCredential.clientDataJSON :=
    ⟨_, Dict.get?_set_self _ _ _, by grind, foreignClientData_matches _⟩
  have foreign : LookAlike "localhost" "https://evillocalhost" := by
    have plain : IsHost "evillocalhost".toList ∧ IsHost "localhost".toList :=
      ⟨List.all_eq_true.mp (by decide), List.all_eq_true.mp (by decide)⟩
    exact (@lookAlike_plainOrigin "https".toList _ _ (by decide) plain.1 plain.2).mpr
      ⟨"evil".toList, rfl, by decide, by decide⟩
  exact honest.registration _ _ (answers_iff.mp answers).1 attested (by decide) foreignClientData_origin
    foreign

end MFAProvider

end BtApiSecurity.Mfa
