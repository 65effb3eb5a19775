import BtApiSecurity.OAuth.Tables
import BtApiSecurity.Py.Number

/-!
# Signing keys

A provider signs its ID tokens with a key that it loads from a file, or draws and, if
it was given a path, saves there. Providers are started again and again, on the same
files and on others; which of them accepts an ID token is a matter of where its key
comes from.
-/

namespace BtApiSecurity.OAuth.Signing
open Py Machine

/-- PyJWT, and the RSA keys of `cryptography`. -/
structure JwtLibrary where
  Key : Type
  generate : Nat → Key
  privatePem : Key → Bytes
  loadPem : Bytes → Option Key
  publicPem : Key → Bytes
  encode : JwtPayload → Key → String
  decode : Time → String → Bytes → Option String → String → Except String JwtPayload

/-- A saved key is loaded again, no key is drawn twice, and a token is decoded under the public key of the
one that signed it and no other, for its audience, from its issuer, and between `iat` and `exp`. -/
structure JwtLibrary.Sound (L : JwtLibrary) : Prop where
  loads : ∀ key, L.loadPem (L.privatePem key) = some key
  distinct : Function.Injective L.generate
  accepts : ∀ now p key audience issuer q, p.aud ≠ "" →
    (L.decode now (L.encode p key) (L.publicPem key) audience issuer = .ok q ↔
      q = p ∧ audience = some p.aud ∧ p.iss = issuer ∧ p.iat ≤ now ∧ now < p.exp)
  foreign : ∀ now p key key' audience issuer q, key ≠ key' →
    L.decode now (L.encode p key) (L.publicPem key') audience issuer ≠ .ok q

/-! ### Settings -/

/-- A setting that should be a positive number. -/
inductive IntArg where
  | bool (b : Bool)
  | int (n : Int)
  | text (s : String)
  | other

/-- The value of a decimal digit; `other` tells those above the ASCII range. -/
def digitValue (other : Char → Option Nat) (c : Char) : Option Nat :=
  if c.isDigit then some (charVal c) else if c.toNat < 128 then none else other c

/-- Digits, with single underscores among them. -/
def scanDigits (other : Char → Option Nat) (value : Nat) : List Char → Option Nat
  | [] => some value
  | '_' :: c :: cs => (digitValue other c).bind fun d => scanDigits other (10 * value + d) cs
  | c :: cs => (digitValue other c).bind fun d => scanDigits other (10 * value + d) cs

def scanNumber (other : Char → Option Nat) : List Char → Option Nat
  | [] => none
  | c :: cs => (digitValue other c).bind fun d => scanDigits other d cs

/-- `int(text)`; `none` is a `ValueError`. -/
def intOf (other : Char → Option Nat) (text : String) : Option Int :=
  match stripChars text.toList with
  | '-' :: cs => (scanNumber other cs).map fun n => -(n : Int)
  | '+' :: cs => (scanNumber other cs).map Int.ofNat
  | cs => (scanNumber other cs).map Int.ofNat

def positive (fieldName : String) (n : Int) : Except OAuthError { n : Int // 0 < n } :=
  if holds : 0 < n then .ok ⟨n, holds⟩ else .error ⟨fieldName ++ " must be positive"⟩

def requirePositiveInt (other : Char → Option Nat) (fieldName : String) :
    IntArg → Except OAuthError { n : Int // 0 < n }
  | .bool _ | .other => .error ⟨fieldName ++ " must be positive"⟩
  | .int n => positive fieldName n
  | .text s => do
    ensure (strip s ≠ "") ⟨fieldName ++ " must be positive"⟩
    let numeric ← orRaise (intOf other (strip s)) ⟨fieldName ++ " must be positive"⟩
    positive fieldName numeric

structure Settings where
  issuerUrl : Arg String
  privateKeyPath : Option String := none
  tokenLifetime : IntArg := .int 3600
  refreshTokenLifetime : IntArg := .int 2592000
  enablePkce : Arg Bool := .ok true
  enableTokenRotation : Arg Bool := .ok true

def Settings.config (other : Char → Option Nat) (settings : Settings) : Except OAuthError Config := do
  let issuerUrl ← requireText "issuer_url" settings.issuerUrl
  let tokenLifetime ← requirePositiveInt other "token_lifetime" settings.tokenLifetime
  let refreshTokenLifetime ←
    requirePositiveInt other "refresh_token_lifetime" settings.refreshTokenLifetime
  let enablePkce ← requireBool "enable_pkce" settings.enablePkce
  let enableTokenRotation ← requireBool "enable_token_rotation" settings.enableTokenRotation
  return ⟨issuerUrl, tokenLifetime.val, refreshTokenLifetime.val, enablePkce, enableTokenRotation,
    tokenLifetime.property, refreshTokenLifetime.property⟩

/-! ### The key of a provider -/

/-- The files that hold keys, by what the path resolves to. -/
structure Host where
  files : Dict String Bytes
  drawn : Nat

inductive StartError where
  | oauth (error : OAuthError)
  | unreadableKey

variable (L : JwtLibrary)

def generateKey : Method Host StartError L.Key := do
  let host ← .read
  .update fun host => { host with drawn := host.drawn + 1 }
  return L.generate host.drawn

def loadOrGenerateKey (keyFile : Option String) : Method Host StartError L.Key := do
  match keyFile with
  | none => generateKey L
  | some file =>
    let host ← .read
    match host.files.get? file with
    | some pem => .check (orRaise (L.loadPem pem) .unreadableKey)
    | none =>
      let key ← generateKey L
      .update fun host => { host with files := host.files.set file (L.privatePem key) }
      return key

/-! ### Providers and their restarts -/

/-- A provider that was started, its key, and the file that it was given for it. -/
structure Instance where
  key : L.Key
  keyFile : Option String
  provider : OAuth2Provider

structure Deployment where
  host : Host
  instances : List (Instance L)

/-- What an instance takes from elsewhere; it signs with its own key. -/
structure World where
  tokenUrlsafe : Nat → Nat → String
  sha256 : Bytes → Bytes
  resolve : String → String
  digit : Char → Option Nat

inductive Move where
  | start (settings : Settings)
  | call (n : Nat) (input : OAuth2Provider.Input)

inductive Outcome where
  | started (result : Except StartError Unit)
  | replied (result : Except OAuthError OAuth2Provider.Reply)
  | nobody

variable (W : World)

def World.env {L : JwtLibrary} (n : Nat) (i : Instance L) : Env where
  tokenUrlsafe := W.tokenUrlsafe n
  sha256 := W.sha256
  jwtEncode payload := L.encode payload i.key

/-- An empty path is none. -/
def Settings.keyFile (settings : Settings) : Option String :=
  (settings.privateKeyPath.filter (· ≠ "")).map W.resolve

namespace Deployment

def new : Deployment L := ⟨⟨.empty, 0⟩, []⟩

variable {L}

def step (d : Deployment L) : Move → Deployment L × Outcome
  | .start settings =>
    match settings.config W.digit with
    | .error error => (d, .started (.error (.oauth error)))
    | .ok config =>
      match (loadOrGenerateKey L (settings.keyFile W)).run d.host with
      | (.error error, host) => ({ d with host }, .started (.error error))
      | (.ok key, host) =>
        (⟨host, d.instances ++ [⟨key, settings.keyFile W, .new config⟩]⟩, .started (.ok ()))
  | .call n input =>
    match d.instances[n]? with
    | none => (d, .nobody)
    | some i =>
      let performed := OAuth2Provider.step (W.env n i) i.provider input
      ({ d with instances := d.instances.set n { i with provider := performed.1 } }, .replied performed.2)

abbrev Event := Entry (Deployment L) Move Outcome

end Deployment

variable {L}

/-- `validate_jwt` of an instance. -/
def Instance.validateJwt (i : Instance L) (now : Time) (token : String)
    (audience : Option String) : Except OAuthError JwtPayload :=
  (L.decode now token (L.publicPem i.key) audience i.provider.config.issuerUrl).mapError
    fun text => ⟨"Invalid JWT: " ++ text⟩

/-! ### Where keys come from -/

/-- A key is kept in a file, or in one instance only. -/
inductive Home where
  | file (name : String)
  | memory (n : Nat)
  deriving DecidableEq

def Instance.home (n : Nat) (i : Instance L) : Home :=
  match i.keyFile with
  | some file => .file file
  | none => .memory n

namespace Deployment

variable {d : Deployment L} {draw : Home → Option Nat} {home : Home}

/-- Each home has the key of one draw, and no two homes have the same. -/
structure Homes (d : Deployment L) (draw : Home → Option Nat) : Prop where
  bounded : ∀ home n, draw home = some n → n < d.host.drawn
  apart : ∀ home home' n, draw home = some n → draw home' = some n → home = home'
  files : ∀ file, d.host.files.get? file = (draw (.file file)).map fun n => L.privatePem (L.generate n)
  instances : ∀ n (i : Instance L), d.instances[n]? = some i →
    ∃ k, draw (i.home n) = some k ∧ i.key = L.generate k

theorem homes_new : Homes (new L) fun _ => none where
  bounded _ _ drawn := by cases drawn
  apart _ _ _ drawn := by cases drawn
  files _ := rfl
  instances _ _ found := by cases found

/-- A new draw gives a home that no instance has its key from. -/
theorem Homes.settle (homes : Homes d draw)
    (free : ∀ n (i : Instance L), d.instances[n]? = some i → i.home n ≠ home) (files : Dict String Bytes)
    (saved : ∀ file, files.get? file =
      (Function.update draw home (some d.host.drawn) (.file file)).map
        fun n => L.privatePem (L.generate n)) :
    Homes ⟨⟨files, d.host.drawn + 1⟩, d.instances⟩ (Function.update draw home (some d.host.drawn)) := by
  have cases : ∀ home' n, Function.update draw home (some d.host.drawn) home' = some n →
      home' = home ∧ n = d.host.drawn ∨ draw home' = some n ∧ n < d.host.drawn := by
    intro home' n drawn
    by_cases here : home' = home
    · subst here
      rw [Function.update_self] at drawn
      exact .inl ⟨rfl, (Option.some.inj drawn).symm⟩
    · rw [Function.update_of_ne here] at drawn
      exact .inr ⟨drawn, homes.bounded home' n drawn⟩
  constructor
  case bounded =>
    intro home' n drawn
    rcases cases home' n drawn with ⟨-, rfl⟩ | ⟨-, small⟩
    · exact Nat.lt_succ_self _
    · exact Nat.lt_succ_of_lt small
  case apart =>
    intro home₁ home₂ n first second
    rcases cases home₁ n first with ⟨rfl, rfl⟩ | ⟨first, small⟩
    · rcases cases home₂ _ second with ⟨rfl, -⟩ | ⟨-, small⟩
      · rfl
      · exact absurd small (Nat.lt_irrefl _)
    · rcases cases home₂ n second with ⟨-, rfl⟩ | ⟨second, -⟩
      · exact absurd small (Nat.lt_irrefl _)
      · exact homes.apart home₁ home₂ n first second
  case files => exact saved
  case instances =>
    intro n i found
    obtain ⟨k, drawn, key⟩ := homes.instances n i found
    exact ⟨k, (Function.update_of_ne (free n i found) _ _).trans drawn, key⟩

theorem Homes.join (homes : Homes d draw) {i : Instance L} {k : Nat}
    (drawn : draw (i.home d.instances.length) = some k) (key : i.key = L.generate k) :
    Homes { d with instances := d.instances ++ [i] } draw := by
  refine ⟨homes.bounded, homes.apart, homes.files, ?_⟩
  intro n j found
  rw [List.getElem?_append] at found
  split at found
  · exact homes.instances n j found
  · rename_i later
    rw [List.getElem?_singleton, Option.ite_none_right_eq_some] at found
    obtain ⟨position, same⟩ := found
    obtain rfl := Option.some.inj same
    obtain rfl : n = d.instances.length := by omega
    exact ⟨k, drawn, key⟩

/-- What starting gives: the key of a home that is there, or of one that is new. -/
theorem Homes.start (sound : L.Sound) (homes : Homes d draw) (keyFile : Option String)
    (p : OAuth2Provider) :
    ∃ key host draw', (loadOrGenerateKey L keyFile).run d.host = (.ok key, host) ∧
      Homes ⟨host, d.instances ++ [⟨key, keyFile, p⟩]⟩ draw' := by
  have elsewhere : ∀ n (i : Instance L), d.instances[n]? = some i →
      i.home n ≠ .memory d.instances.length := by
    intro n i found same
    obtain ⟨inside, -⟩ := List.getElem?_eq_some_iff.mp found
    unfold Instance.home at same
    split at same
    · cases same
    · cases same
      exact absurd inside (Nat.lt_irrefl _)
  cases keyFile with
  | none =>
    have settled := homes.settle elsewhere d.host.files fun file => homes.files file
    refine ⟨_, _, _, rfl, settled.join (k := d.host.drawn) ?_ rfl⟩
    exact Function.update_self _ _ _
  | some file =>
    cases stored : d.host.files.get? file with
    | some pem =>
      obtain ⟨k, drawn, saved⟩ := Option.map_eq_some_iff.mp ((homes.files file).symm.trans stored)
      refine ⟨L.generate k, d.host, draw, ?_, homes.join drawn rfl⟩
      simp only [loadOrGenerateKey, Method.run_bind, Method.run_read, stored, ← saved, sound.loads,
        orRaise_some, Method.run_check]
    | none =>
      have unset : draw (.file file) = none :=
        Option.map_eq_none_iff.mp ((homes.files file).symm.trans stored)
      have free : ∀ n (i : Instance L), d.instances[n]? = some i → i.home n ≠ .file file := by
        intro n i found same
        obtain ⟨k, drawn, -⟩ := homes.instances n i found
        rw [same, unset] at drawn
        cases drawn
      have saved : ∀ file', (d.host.files.set file (L.privatePem (L.generate d.host.drawn))).get? file' =
          (Function.update draw (.file file) (some d.host.drawn) (.file file')).map
            fun n => L.privatePem (L.generate n) := by
        intro file'
        rw [Dict.get?_set]
        by_cases here : file = file'
        · rw [if_pos here, ← here, Function.update_self]
          rfl
        · have other : Home.file file' ≠ .file file := fun same => here (Home.file.inj same).symm
          rw [if_neg here, Function.update_of_ne other]
          exact homes.files file'
      have settled := homes.settle free _ saved
      refine ⟨L.generate d.host.drawn, _, _, ?_, settled.join (k := d.host.drawn) ?_ rfl⟩
      · simp only [loadOrGenerateKey, generateKey, Method.run_bind, Method.run_read, Method.run_update,
          Method.run_pure, stored]
      · exact Function.update_self _ _ _

variable {W : World}

/-- What of an instance lasts. -/
structure SameSigner (i i' : Instance L) : Prop where
  key : i'.key = i.key
  keyFile : i'.keyFile = i.keyFile
  config : i'.provider.config = i.provider.config

theorem getElem?_set_signer {n : Nat} {i : Instance L} {instances : List (Instance L)}
    (found : instances[n]? = some i) {i' : Instance L} (same : SameSigner i i') {k : Nat} {j : Instance L}
    (stored : (instances.set n i')[k]? = some j) : ∃ j', instances[k]? = some j' ∧ SameSigner j' j := by
  rw [List.getElem?_set] at stored
  split at stored
  · rename_i here
    subst here
    rw [Option.ite_none_right_eq_some] at stored
    obtain ⟨-, rfl⟩ := stored.imp_right Option.some.inj
    exact ⟨i, found, same⟩
  · exact ⟨j, stored, rfl, rfl, rfl⟩

theorem homes_step (sound : L.Sound) (move : Move) (homes : ∃ draw, Homes d draw) :
    ∃ draw, Homes (step W d move).1 draw := by
  obtain ⟨draw, homes⟩ := homes
  cases move with
  | start settings =>
    cases accepted : settings.config W.digit with
    | error e => exact ⟨draw, by simpa only [step, accepted] using homes⟩
    | ok config =>
      obtain ⟨key, host, draw', loaded, homes'⟩ := homes.start sound (settings.keyFile W) (.new config)
      exact ⟨draw', by simpa only [step, accepted, loaded] using homes'⟩
  | call n input =>
    cases found : d.instances[n]? with
    | none => exact ⟨draw, by simpa only [step, found] using homes⟩
    | some i =>
      refine ⟨draw, ?_⟩
      simp only [step, found]
      refine ⟨homes.bounded, homes.apart, homes.files, ?_⟩
      intro k j stored
      have signer :
          SameSigner i { i with provider := (OAuth2Provider.step (W.env n i) i.provider input).1 } :=
        ⟨rfl, rfl, OAuth2Provider.step_config input⟩
      obtain ⟨j', before, same⟩ := getElem?_set_signer found signer stored
      obtain ⟨number, drawn, key⟩ := homes.instances k j' before
      refine ⟨number, ?_, same.key.trans key⟩
      rw [← drawn, Instance.home, Instance.home, same.keyFile]

theorem signer_step (sound : L.Sound) (homes : ∃ draw, Homes d draw) (move : Move) {n : Nat}
    {i : Instance L} (found : d.instances[n]? = some i) :
    ∃ i', (step W d move).1.instances[n]? = some i' ∧ SameSigner i i' := by
  have kept : ∃ i', d.instances[n]? = some i' ∧ SameSigner i i' := ⟨i, found, rfl, rfl, rfl⟩
  cases move with
  | start settings =>
    cases accepted : settings.config W.digit with
    | error e => simpa only [step, accepted] using kept
    | ok config =>
      obtain ⟨_, homes⟩ := homes
      obtain ⟨key, host, -, loaded, -⟩ := homes.start sound (settings.keyFile W) (.new config)
      refine ⟨i, ?_, rfl, rfl, rfl⟩
      obtain ⟨inside, -⟩ := List.getElem?_eq_some_iff.mp found
      simp only [step, accepted, loaded]
      rw [List.getElem?_append_left inside, found]
  | call k input =>
    cases target : d.instances[k]? with
    | none => simpa only [step, target] using kept
    | some j =>
      simp only [step, target]
      by_cases here : k = n
      · subst here
        obtain rfl := Option.some.inj (found.symm.trans target)
        obtain ⟨inside, -⟩ := List.getElem?_eq_some_iff.mp found
        exact ⟨_, List.getElem?_set_self inside, rfl, rfl, OAuth2Provider.step_config input⟩
      · rw [List.getElem?_set_ne here]
        exact kept

theorem homes_run (sound : L.Sound) (moves : List Move) :
    ∃ draw, Homes (run (step W) (new L) moves) draw := by
  let Settled (d : Deployment L) : Prop := ∃ draw, Homes d draw
  have start : Settled (new L) := ⟨_, homes_new⟩
  exact run_invariant start fun _ move homes => homes_step sound move homes

theorem signer_run (sound : L.Sound) (homes : ∃ draw, Homes d draw) (moves : List Move) {n : Nat}
    {i : Instance L} (found : d.instances[n]? = some i) :
    ∃ i', (run (step W) d moves).instances[n]? = some i' ∧ SameSigner i i' := by
  induction moves generalizing d i with
  | nil => exact ⟨i, found, rfl, rfl, rfl⟩
  | cons move moves ih =>
    obtain ⟨i', found', same⟩ := signer_step sound homes move found
    obtain ⟨i'', found'', same'⟩ := ih (homes_step sound move homes) found'
    exact ⟨i'', found'', same'.key.trans same.key, same'.keyFile.trans same.keyFile,
      same'.config.trans same.config⟩

/-- One key: one instance, or two that were given one file. -/
theorem Homes.key_iff (sound : L.Sound) (homes : Homes d draw) {a b : Nat} {i j : Instance L}
    (found : d.instances[a]? = some i) (found' : d.instances[b]? = some j) :
    i.key = j.key ↔ a = b ∨ ∃ file, i.keyFile = some file ∧ j.keyFile = some file := by
  obtain ⟨k, drawn, key⟩ := homes.instances a i found
  obtain ⟨k', drawn', key'⟩ := homes.instances b j found'
  constructor
  · intro same
    obtain rfl := sound.distinct (key.symm.trans (same.trans key'))
    have home := homes.apart _ _ _ drawn drawn'
    unfold Instance.home at home
    cases ownFile : i.keyFile <;> cases otherFile : j.keyFile <;> simp_all
  · intro h
    rcases h with rfl | ⟨file, ownFile, otherFile⟩
    · obtain rfl := Option.some.inj (found.symm.trans found')
      rfl
    · have home : i.home a = j.home b := by rw [Instance.home, Instance.home, ownFile, otherFile]
      rw [home, drawn'] at drawn
      rw [key, key', Option.some.inj drawn]

/-! ### ID tokens -/

/-- The call made the instance sign `p`. -/
def SignsIdToken (e : Event (L := L)) (n : Nat) (p : JwtPayload) (token : String) : Prop :=
  ∃ now userId clientId scopes, ∃ i : Instance L,
    e.input = .call n ⟨now, .generateJwtIdToken userId clientId scopes⟩ ∧
    e.output = .replied (.ok (.jwt token)) ∧ e.pre.instances[n]? = some i ∧
    ∃ user client granted record, requireText "user_id" userId = .ok user ∧
      requireText "client_id" clientId = .ok client ∧ normalizeScopes scopes = .ok granted ∧
      i.provider.users.get? user = some record ∧
      p = { iss := i.provider.config.issuerUrl, sub := user, aud := client
            exp := OAuth2Provider.truncate now + 3600, iat := OAuth2Provider.truncate now
            preferredUsername := record.username, email := record.email, emailVerified := true
            scope := OAuth2Provider.scopeText granted }

theorem signed {e : Event (L := L)} {n : Nat} {p : JwtPayload} {token : String} {d : Deployment L}
    {move : Move} (entered : e = entry (step W) d move) (signs : SignsIdToken e n p token) :
    ∃ i : Instance L, d.instances[n]? = some i ∧ token = L.encode p i.key ∧
      p.iss = i.provider.config.issuerUrl ∧ p.aud ≠ "" := by
  subst entered
  obtain ⟨now, userId, clientId, scopes, i, called, replied, found, user, client, granted, record,
    user_ok, client_ok, scopes_ok, known, rfl⟩ := signs
  obtain rfl : move = _ := called
  change d.instances[n]? = some i at found
  obtain ⟨_, -, -, filled⟩ := requireText_ok.mp client_ok
  refine ⟨i, found, ?_, rfl, filled⟩
  have returned : i.provider.generateJwtIdToken (W.env n i) now userId clientId scopes = .ok token := by
    simp only [entry, step, found, OAuth2Provider.step, OAuth2Provider.perform, Method.run_bind,
      Method.run_read, Method.run_map, Method.run_check, Outcome.replied.injEq] at replied
    cases answer : i.provider.generateJwtIdToken (W.env n i) now userId clientId scopes <;>
      simp_all
  simp only [OAuth2Provider.generateJwtIdToken, check_bind_ok, orRaise_ok, pure_ok] at returned
  obtain ⟨_, user_ok', _, client_ok', _, scopes_ok', record', active, _, -, _, -, rfl⟩ := returned
  obtain rfl := Except.ok.inj (user_ok.symm.trans user_ok')
  obtain rfl := Except.ok.inj (client_ok.symm.trans client_ok')
  obtain rfl := Except.ok.inj (scopes_ok.symm.trans scopes_ok')
  obtain ⟨_, again, stored, -⟩ := OAuth2Provider.getActiveUser_ok.mp active
  rw [requireText_again user_ok] at again
  obtain rfl := Except.ok.inj again
  obtain rfl := Option.some.inj (known.symm.trans stored)
  rfl

end Deployment

/-- An ID token is accepted exactly by the instance that signed it and by those that were given the same key
file, if they have the same issuer, for its own client, and within its hour: in every run of
starts and calls, and also by an instance that is started later. -/
theorem id_token_validates_iff (sound : L.Sound) (W : World) (moves : List Move) {e : Deployment.Event}
    (member : e ∈ trace (Deployment.step W) (Deployment.new L) moves) {a b : Nat} {p : JwtPayload}
    {token : String} (signs : Deployment.SignsIdToken e a p token) {i j : Instance L}
    (signer : (run (Deployment.step W) (Deployment.new L) moves).instances[a]? = some i)
    (validator : (run (Deployment.step W) (Deployment.new L) moves).instances[b]? = some j)
    (now : Time) (audience : Option String) (q : JwtPayload) :
    j.validateJwt now token audience = .ok q ↔
      q = p ∧ (a = b ∨ ∃ file, i.keyFile = some file ∧ j.keyFile = some file) ∧
        i.provider.config.issuerUrl = j.provider.config.issuerUrl ∧ audience = some p.aud ∧
        p.iat ≤ now ∧ now < p.exp := by
  obtain ⟨l, l', split⟩ := List.append_of_mem member
  obtain ⟨before, after, rfl, -, entered, -⟩ := trace_split split
  obtain ⟨i₀, found, rfl, issuer, filled⟩ := Deployment.signed entered signs
  obtain ⟨i', found', same⟩ := Deployment.signer_run (W := W) sound
    (Deployment.homes_run sound before) (e.input :: after) found
  rw [run_append] at signer validator
  obtain rfl := Option.some.inj (found'.symm.trans signer)
  obtain ⟨draw, homes⟩ := Deployment.homes_run (W := W) sound (before ++ e.input :: after)
  rw [run_append] at homes
  have decoded : j.validateJwt now (L.encode p i₀.key) audience = .ok q ↔
      L.decode now (L.encode p i₀.key) (L.publicPem j.key) audience j.provider.config.issuerUrl =
        .ok q := by
    unfold Instance.validateJwt
    cases L.decode now (L.encode p i₀.key) (L.publicPem j.key) audience j.provider.config.issuerUrl <;>
      simp [Except.mapError]
  rw [decoded, ← homes.key_iff sound signer validator, same.key, same.config, ← issuer]
  by_cases own : i₀.key = j.key
  · rw [← own, sound.accepts now p i₀.key audience _ q filled]
    tauto
  · refine iff_of_false (sound.foreign now p _ _ audience _ q own) ?_
    tauto

/-! ### Two instances on one key file -/

/-- A field is its characters behind marks, up to a dot. -/
def framed (field : List Char) : List Char := field.flatMap (fun c => ['c', c]) ++ ['.']

def fieldsOf : List Char → Option (List (List Char))
  | [] => some []
  | '.' :: cs => (fieldsOf cs).map ([] :: ·)
  | 'c' :: c :: cs => (fieldsOf cs).bind fun
    | field :: fields => some ((c :: field) :: fields)
    | [] => none
  | _ => none

theorem fieldsOf_framed (fields : List (List Char)) : fieldsOf (fields.flatMap framed) = some fields := by
  induction fields with
  | nil => rfl
  | cons field fields ih =>
    induction field with
    | nil => simp [framed, fieldsOf, ih]
    | cons c field ih' =>
      simp only [List.flatMap_cons, framed, List.append_assoc, List.cons_append, List.nil_append,
        fieldsOf] at ih' ⊢
      simp [ih']

def payloadFields (p : JwtPayload) : List (List Char) :=
  [p.iss.toList, p.sub.toList, p.aud.toList, natChars (Equiv.intEquivNat p.exp),
    natChars (Equiv.intEquivNat p.iat), p.preferredUsername.toList, p.email.toList,
    if p.emailVerified then ['1'] else [], p.scope.toList]

def payloadOf : List (List Char) → Option JwtPayload
  | [iss, sub, aud, exp, iat, name, email, verified, scope] =>
    some ⟨.ofList iss, .ofList sub, .ofList aud, Equiv.intEquivNat.symm (charsNat exp),
      Equiv.intEquivNat.symm (charsNat iat), .ofList name, .ofList email, verified ≠ [], .ofList scope⟩
  | _ => none

theorem payloadOf_fields (p : JwtPayload) : payloadOf (payloadFields p) = some p := by
  obtain ⟨iss, sub, aud, exp, iat, name, email, verified, scope⟩ := p
  cases verified <;> simp [payloadFields, payloadOf, charsNat_natChars]

/-- Keys are numbers, and a token carries the one that signed it. -/
def sampleLibrary : JwtLibrary where
  Key := Nat
  generate n := n
  privatePem key := List.replicate key 0
  loadPem pem := some pem.length
  publicPem key := List.replicate key 1
  encode p key := .ofList ((natChars key :: payloadFields p).flatMap framed)
  decode now token pem audience issuer := do
    let fields ← orRaise (fieldsOf token.toList) "Not enough segments"
    let key ← orRaise fields.head? "Not enough segments"
    let p ← orRaise (payloadOf fields.tail) "Invalid payload"
    ensure (pem = List.replicate (charsNat key) 1) "Signature verification failed"
    ensure (audience = some p.aud) "Audience doesn't match"
    ensure (p.iss = issuer) "Invalid issuer"
    ensure (p.iat ≤ now) "The token is not yet valid (iat)"
    ensure (now < p.exp) "Signature has expired"
    return p

theorem sampleLibrary_decode {now : Time} {p : JwtPayload} {key key' : Nat} {audience : Option String}
    {issuer : String} {q : JwtPayload} :
    sampleLibrary.decode now (sampleLibrary.encode p key) (sampleLibrary.publicPem key') audience issuer =
        .ok q ↔
      key' = key ∧ q = p ∧ audience = some p.aud ∧ p.iss = issuer ∧ p.iat ≤ now ∧ now < p.exp := by
  simp only [sampleLibrary, String.toList_ofList, fieldsOf_framed, orRaise_some, List.head?_cons,
    List.tail_cons, payloadOf_fields, charsNat_natChars, check_bind_ok, ensure_ok, pure_ok,
    List.replicate_left_inj, Except.ok.injEq, exists_eq_left']
  constructor
  · rintro ⟨_, signature, _, aud, _, iss, _, started, _, running, rfl⟩
    exact ⟨signature, rfl, aud, iss, started, running⟩
  · rintro ⟨signature, rfl, aud, iss, started, running⟩
    exact ⟨(), signature, (), aud, (), iss, (), started, (), running, rfl⟩

theorem sampleLibrary_sound : sampleLibrary.Sound where
  loads key := congrArg some (List.length_replicate (n := key))
  distinct _ _ same := same
  accepts _ _ _ _ _ _ _ := sampleLibrary_decode.trans (and_iff_right rfl)
  foreign _ _ _ _ _ _ _ other accepted := other (sampleLibrary_decode.mp accepted).1.symm

def sampleWorld : World where
  tokenUrlsafe n k := String.ofList (List.replicate n 'i' ++ 't' :: List.replicate k 'a')
  sha256 bytes := bytes
  resolve path := path
  digit _ := none

/-- Two starts on one key file and one without, and an ID token of the first. -/
def restartedRun : List Move :=
  [.start { issuerUrl := .ok "https://issuer", privateKeyPath := some "key.pem" },
    .call 0 ⟨0, .registerClient (.ok "app") (.ok "secret") (.items [.ok "https://app"])
      (.items [.ok "read"]) (.items [.member .authorizationCode]) (.ok true)⟩,
    .call 0 ⟨0, .registerUser (.ok "ann") (.ok "Ann") (.ok "ann@example.org") (.ok false)⟩,
    .start { issuerUrl := .ok "https://issuer", privateKeyPath := some "key.pem" },
    .start { issuerUrl := .ok "https://issuer" },
    .call 0 ⟨5, .generateJwtIdToken (.ok "ann") (.ok "app") (.items [.ok "read"])⟩]

def Outcome.token : Outcome → Option String
  | .replied (.ok (.jwt token)) => some token
  | _ => none

theorem Outcome.token_some {o : Outcome} {token : String} (answered : o.token = some token) :
    o = .replied (.ok (.jwt token)) := by
  unfold Outcome.token at answered
  split at answered
  · rw [Option.some.inj answered]
  · cases answered

theorem restartedRun_validates :
    ∃ e ∈ trace (Deployment.step sampleWorld) (Deployment.new sampleLibrary) restartedRun,
      ∃ p token, Deployment.SignsIdToken e 0 p token ∧ ∃ j,
        (run (Deployment.step sampleWorld) (Deployment.new sampleLibrary) restartedRun).instances[1]? = some j ∧
        j.validateJwt 3000 token (some "app") = .ok p := by
  let before := run (Deployment.step sampleWorld) (Deployment.new sampleLibrary) (restartedRun.take 5)
  let asked : Move := .call 0 ⟨5, .generateJwtIdToken (.ok "ann") (.ok "app") (.items [.ok "read"])⟩
  let after := run (Deployment.step sampleWorld) (Deployment.new sampleLibrary) restartedRun
  let e := entry (Deployment.step sampleWorld) before asked
  have member : e ∈ trace (Deployment.step sampleWorld) (Deployment.new sampleLibrary) restartedRun := by
    rw [← List.take_append_drop 5 restartedRun, trace_append]
    exact List.mem_append_right _ List.mem_cons_self
  have answered : e.output.token.isSome = true := by decide +kernel
  have known : (before.instances[0]?.bind (·.provider.users.get? "ann")).isSome = true := by decide +kernel
  have signers : after.instances[0]?.map (fun i => (i.keyFile, i.provider.config.issuerUrl)) =
      some (some "key.pem", "https://issuer") := by decide +kernel
  have validators : after.instances[1]?.map (fun j => (j.keyFile, j.provider.config.issuerUrl)) =
      some (some "key.pem", "https://issuer") := by decide +kernel
  have started : ((OAuth2Provider.truncate 5 : Int) : Time) ≤ 3000 := by decide +kernel
  have running : 3000 < ((OAuth2Provider.truncate 5 + 3600 : Int) : Time) := by decide +kernel
  obtain ⟨token, answered⟩ := Option.isSome_iff_exists.mp answered
  obtain ⟨record, known⟩ := Option.isSome_iff_exists.mp known
  obtain ⟨signer, found, known⟩ := Option.bind_eq_some_iff.mp known
  obtain ⟨i, atZero, ofSigner⟩ := Option.map_eq_some_iff.mp signers
  obtain ⟨j, atOne, ofValidator⟩ := Option.map_eq_some_iff.mp validators
  obtain ⟨ownFile, ownIssuer⟩ := Prod.mk.inj ofSigner
  obtain ⟨otherFile, otherIssuer⟩ := Prod.mk.inj ofValidator
  have signs : Deployment.SignsIdToken e 0 _ token :=
    ⟨5, .ok "ann", .ok "app", .items [.ok "read"], signer, rfl, Outcome.token_some answered, found, "ann",
      "app", {"read"}, record, by decide +kernel, by decide +kernel, by decide +kernel, known, rfl⟩
  refine ⟨e, member, _, token, signs, j, atOne, ?_⟩
  exact (id_token_validates_iff sampleLibrary_sound sampleWorld restartedRun member signs atZero atOne 3000
    (some "app") _).mpr ⟨rfl, .inr ⟨"key.pem", ownFile, otherFile⟩, ownIssuer.trans otherIssuer.symm, rfl,
      started, running⟩

end BtApiSecurity.OAuth.Signing
