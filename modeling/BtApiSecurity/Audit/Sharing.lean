import BtApiSecurity.Audit.Retention
import Mathlib.Logic.Function.Basic

/-!
# A log of several loggers

Any number of loggers may append to one file, as those of several processes do. No event
is lost, but a logger links its next event to the last one it knows, so the chain holds
only as long as the loggers take turns that are known to each other.
-/

namespace BtApiSecurity.Audit
open Py

variable {κ : Type} {env : Env} {draws : Nat → Draw}

/-- One file, and loggers that were all opened before it existed. -/
structure Shared (κ : Type) where
  file : Option (List Char)
  loggers : Nat → AuditLogger κ
  calls : List (Option AuditEvent)

/-- A step of one of the loggers; a restart stands for a new logger in its place. -/
structure Move (κ : Type) where
  logger : Nat
  step : Step κ JsonArgs

namespace Move

def logs (t : Move κ) : Bool :=
  match t.step with
  | .act (.log _ _) => true
  | _ => false

def reopens (t : Move κ) : Bool :=
  match t.step with
  | .restart _ => true
  | _ => false

/-- Which loggers know the last event of the file. -/
def note (known : Nat → Bool) (t : Move κ) : Nat → Bool := fun n =>
  if t.logs then n = t.logger else t.reopens && n = t.logger || known n

end Move

/-- The loggers that have logged or have been opened since any other one logged. -/
def upToDate (turns : List (Move κ)) : Nat → Bool := turns.foldl Move.note fun _ => true

theorem upToDate_concat (turns : List (Move κ)) (t : Move κ) (n : Nat) :
    upToDate (turns ++ [t]) n = t.note (upToDate turns) n := by
  rw [upToDate, List.foldl_append]
  rfl

/-- Only a logger that is up to date logs. -/
def Serial (turns : List (Move κ)) : Prop :=
  ∀ before t after, turns = before ++ t :: after → t.logs = true → upToDate before t.logger = true

theorem serial_concat {turns : List (Move κ)} {t : Move κ} :
    Serial (turns ++ [t]) ↔ Serial turns ∧ (t.logs = true → upToDate turns t.logger = true) := by
  constructor
  · intro serial
    refine ⟨?_, serial turns t [] rfl⟩
    intro before u after split
    exact serial before u (after ++ [t]) (by rw [split, List.append_assoc]; rfl)
  · intro holds before u after split logs
    obtain ⟨serial, last⟩ := holds
    rcases List.eq_nil_or_concat after with rfl | ⟨after, w, rfl⟩
    · obtain ⟨rfl, same⟩ := List.append_inj' split rfl
      obtain rfl := List.singleton_inj.mp same
      exact last logs
    · rw [List.concat_eq_append, ← List.cons_append, ← List.append_assoc] at split
      exact serial before u after (List.append_inj' split rfl).1 logs

namespace Shared

def start (enableRealTime : Bool) : Shared κ := ⟨none, fun _ => ⟨.none, [], [], enableRealTime⟩, []⟩

def view (s : Shared κ) (n : Nat) : World κ := ⟨s.file, s.loggers n, s.calls⟩

def written (s : Shared κ) : List AuditEvent := s.calls.reduceOption

variable [DecidableEq κ] (env)

def turn (s : Shared κ) (t : Move κ) : Shared κ :=
  let w := t.step.run env JsonArgs.toEventArgs (s.view t.logger)
  ⟨w.file, Function.update s.loggers t.logger w.logger, w.calls⟩

def run (s : Shared κ) (turns : List (Move κ)) : Shared κ := turns.foldl (turn env) s

end Shared

/-! ### What one logger does -/

theorem lastHashOf_append_append (last : Value) (es fs : List AuditEvent) :
    lastHashOf last (es ++ fs) = lastHashOf (lastHashOf last es) fs := by
  induction es generalizing last with
  | nil => rfl
  | cons e es ih => rw [List.cons_append, lastHashOf_cons, lastHashOf_cons, ih]

theorem sealed_ne_none (a : JsonArgs) (last : Value) : a.event.sealed env last ≠ none := by
  obtain ⟨hash, calculated⟩ := Option.isSome_iff_exists.mp (a.calculateHash_isSome last env)
  rw [EventArgs.sealed_event, calculated]
  exact Option.some_ne_none _

namespace World

/-- The file holds what was logged, all of it JSON, and no call has raised. -/
structure Entire (env : Env) (w : World κ) : Prop where
  holds : Holds env w w.written
  image : ∀ e ∈ w.written, e.map Value.image = e
  json : ∀ e ∈ w.written, e.content.isJson = true
  named : ∀ e ∈ w.written, ∃ eventId, e.eventId = .str eventId
  succeeded : ∀ call ∈ w.calls, call.isSome = true

theorem entire_kept : Kept env JsonArgs.toEventArgs (Entire env : World κ → Prop) where
  append {w a e line} sealed entire := by
    have holds := holds_append entire.holds sealed
    obtain ⟨hash, -, rfl, -⟩ := EventArgs.sealed_some sealed
    have image := a.image_written _ hash (image_of_isHash entire.holds.lastHash)
    have json : (a.written w.logger.lastHash hash).content.isJson = true := a.isJson_tagged w.logger.lastHash
    refine ⟨?_, ?_, ?_, ?_, ?_⟩
    · rw [written_append]
      exact holds
    · rw [written_append]
      exact List.forall_mem_append.mpr ⟨entire.image, List.forall_mem_singleton.mpr image⟩
    · rw [written_append]
      exact List.forall_mem_append.mpr ⟨entire.json, List.forall_mem_singleton.mpr json⟩
    · rw [written_append]
      exact List.forall_mem_append.mpr ⟨entire.named, List.forall_mem_singleton.mpr ⟨_, rfl⟩⟩
    · exact List.forall_mem_append.mpr ⟨entire.succeeded, List.forall_mem_singleton.mpr rfl⟩
  failed raised _ := absurd raised (sealed_ne_none _ _)
  withSubscribers entire :=
    ⟨⟨entire.holds.text, entire.holds.intact, entire.holds.lastHash⟩, entire.image, entire.json,
      entire.named, entire.succeeded⟩
  restart opened entire :=
    ⟨(holds_reopened entire.holds opened).1, entire.image, entire.json, entire.named, entire.succeeded⟩

/-- What the logger has written behind `base` is chained to it, and the logger is up to date. -/
def Extends (env : Env) (base : List AuditEvent) (w : World κ) : Prop :=
  ∃ more, w.written = base ++ more ∧ Chained env (lastHashOf .none base) more ∧
    w.logger.lastHash = lastHashOf .none w.written

theorem extends_kept (base : List AuditEvent) : Kept env JsonArgs.toEventArgs
    (fun w : World κ => Entire env w ∧ Extends env base w) where
  append {w a e line} sealed kept := by
    obtain ⟨entire, more, written, chain, last⟩ := kept
    refine ⟨entire_kept.append sealed entire, more ++ [e], ?_, ?_, ?_⟩
    · rw [written_append, written, List.append_assoc]
    · have verified := (holds_append entire.holds sealed).intact e (by simp)
      obtain ⟨hash, -, rfl, -⟩ := EventArgs.sealed_some sealed
      have names : (a.written w.logger.lastHash hash).previousHash = w.logger.lastHash := rfl
      rw [chained_append, ← lastHashOf_append_append, ← written, ← last]
      exact ⟨chain, links_of_names entire.holds.lastHash names, verified.verifies, trivial⟩
    · rw [written_append, lastHashOf_append]
      rfl
  failed raised _ := absurd raised (sealed_ne_none _ _)
  withSubscribers kept := ⟨entire_kept.withSubscribers kept.1, kept.2⟩
  restart opened kept := by
    obtain ⟨entire, more, written, chain, -⟩ := kept
    have reopened := holds_reopened entire.holds opened
    exact ⟨entire_kept.restart opened entire, more, written, chain, reopened.2⟩

/-- With hashes of their own, an event names the last one exactly if its logger is up to date. -/
theorem links_iff {known later : List AuditEvent} {e : AuditEvent}
    (intact : ∀ f ∈ known ++ later, f.Sealed env)
    (distinct : ((known ++ later).map (·.eventHash)).Nodup)
    (names : e.previousHash = lastHashOf .none known) :
    Links (lastHashOf .none (known ++ later)) e ↔ later = [] := by
  rcases List.eq_nil_or_concat later with rfl | ⟨front, last, rfl⟩
  · have sealed : ∀ f ∈ known, f.Sealed env := fun f mem => intact f (List.mem_append_left _ mem)
    rw [List.append_nil]
    exact iff_of_true (links_of_names (lastHashOf_isHash sealed) names) rfl
  · rw [List.concat_eq_append, ← List.append_assoc, lastHashOf_append]
    refine iff_of_false ?_ (by simp)
    intro linked
    obtain ⟨hash, calculated, stored⟩ := (intact last (by simp)).hash
    have truthy : last.eventHash.truthy = true := by
      rw [stored]
      simp [Value.truthy, AuditEvent.Sealed.hash_ne calculated]
    have named := linked truthy
    rw [names, stored] at named
    rcases List.eq_nil_or_concat known with rfl | ⟨front', last', rfl⟩
    · cases named
    · rw [List.concat_eq_append, lastHashOf_append] at named
      have same : last'.eventHash = last.eventHash := (Value.pyEq_eq_str.mp named).trans stored.symm
      rw [List.concat_eq_append, List.concat_eq_append, List.map_append, List.nodup_append] at distinct
      exact distinct.2.2 _ (List.mem_map_of_mem (by simp)) _ (List.mem_map_of_mem (by simp)) same

theorem distinct_hashes {w : World κ} (noCollision : Function.Injective env.sha256) (entire : w.Entire env)
    (ids : (w.written.map (·.eventId)).Nodup) : (w.written.map (·.eventHash)).Nodup := by
  refine (List.nodup_map_iff_inj_on (List.Nodup.of_map _ ids)).mpr ?_
  intro e memE f memF same
  obtain ⟨hash, calculated, stored⟩ := (entire.holds.intact e memE).hash
  obtain ⟨hash', calculated', stored'⟩ := (entire.holds.intact f memF).hash
  obtain rfl : hash = hash' := Value.str.inj (stored.symm.trans (same.trans stored'))
  have sameId := AuditEvent.eventId_of_hash noCollision (entire.json e memE) (entire.json f memF)
    calculated calculated'
  obtain ⟨eventId, named⟩ := entire.named e memE
  obtain ⟨eventId', named'⟩ := entire.named f memF
  have strs : ∀ text, (Value.str text).sortKeys = .str text := fun _ => rfl
  rw [named, named', strs, strs] at sameId
  exact List.inj_on_of_nodup_map ids memE memF (by rw [named, named', sameId])

variable [DecidableEq κ]

/-- A call of `log_event` writes an event that names the last hash the logger knew. What the callbacks log
is chained to that event. -/
theorem run_log {w : World κ} (entire : Entire env w) (a : JsonArgs) (reactions : List (Reaction κ JsonArgs)) :
    ∃ e, e.previousHash = w.logger.lastHash ∧ e.verifyIntegrity env = some true ∧
      Extends env (w.written ++ [e]) ((Action.log a reactions).run env JsonArgs.toEventArgs w) := by
  obtain ⟨hash, -, sealed, -⟩ := log_run env JsonArgs.toEventArgs w a rfl
  have intact := (holds_append entire.holds sealed).intact (a.written w.logger.lastHash hash) (by simp)
  refine ⟨a.written w.logger.lastHash hash, rfl, intact.verifies, ?_⟩
  have appended : Extends env (w.written ++ [a.written w.logger.lastHash hash])
      (w.append (a.written w.logger.lastHash hash) (a.written w.logger.lastHash hash).line) := by
    refine ⟨[], ?_, trivial, ?_⟩
    · rw [written_append, List.append_nil]
    · rw [written_append, lastHashOf_append]
      rfl
  unfold Action.run
  rw [sealed]
  dsimp only
  split
  · exact ((extends_kept _).notify 0 ⟨entire_kept.append sealed entire, appended⟩ reactions).2
  · exact appended

end World

/-! ### Turns -/

namespace Shared

variable [DecidableEq κ] {s : Shared κ}

theorem lastHash_turn (s : Shared κ) (t : Move κ) (n : Nat) : ((s.turn env t).loggers n).lastHash =
    if n = t.logger then (t.step.run env JsonArgs.toEventArgs (s.view t.logger)).logger.lastHash
    else (s.loggers n).lastHash := by
  show (Function.update s.loggers t.logger _ n).lastHash = _
  rw [Function.update_apply]
  split
  · rfl
  · rfl

theorem entire_turn (entire : ∀ n, (s.view n).Entire env) (t : Move κ) (n : Nat) :
    ((s.turn env t).view n).Entire env := by
  have stepped := World.entire_kept.step (entire t.logger) t.step
  have last : AuditEvent.IsHash ((s.turn env t).loggers n).lastHash := by
    rw [lastHash_turn]
    split
    · exact stepped.holds.lastHash
    · exact (entire n).holds.lastHash
  exact ⟨⟨stepped.holds.text, stepped.holds.intact, last⟩, stepped.image, stepped.json, stepped.named,
    stepped.succeeded⟩

/-- What a turn does to the log, and to the hash that its logger knows. -/
inductive Effect (env : Env) (s : Shared κ) (t : Move κ) (u : Shared κ) : Prop
  | logged (logs : t.logs = true) (e : AuditEvent) (more : List AuditEvent)
      (names : e.previousHash = (s.loggers t.logger).lastHash) (verified : e.verifyIntegrity env = some true)
      (chain : Chained env e.eventHash more) (written : u.written = s.written ++ e :: more)
      (last : (u.loggers t.logger).lastHash = lastHashOf .none u.written)
  | reopened (quiet : t.logs = false) (reopens : t.reopens = true) (written : u.written = s.written)
      (last : (u.loggers t.logger).lastHash = lastHashOf .none u.written)
  | other (quiet : t.logs = false) (reopens : t.reopens = false) (written : u.written = s.written)
      (last : (u.loggers t.logger).lastHash = (s.loggers t.logger).lastHash)

theorem effect_turn (entire : ∀ n, (s.view n).Entire env) (t : Move κ) :
    Effect env s t (s.turn env t) := by
  have same : ((s.turn env t).loggers t.logger).lastHash = _ := lastHash_turn s t t.logger
  rw [if_pos rfl] at same
  obtain ⟨n, step⟩ := t
  cases step with
  | act action =>
    cases action with
    | log a reactions =>
      obtain ⟨e, names, verified, more, written, chain, last⟩ := World.run_log (entire n) a reactions
      rw [lastHashOf_append] at chain
      rw [List.append_assoc] at written
      exact .logged rfl e more names verified chain written (same.trans last)
    | subscribe callback => exact .other rfl rfl rfl same
    | unsubscribe callback => exact .other rfl rfl rfl same
  | restart enableRealTime =>
    have opened := World.openLogger_holds (entire n).holds enableRealTime
    have stepped : Step.run env JsonArgs.toEventArgs (s.view n) (.restart enableRealTime) =
        { s.view n with logger := ⟨lastHashOf .none s.written, [], [], enableRealTime⟩ } := by
      simp only [Step.run, opened]
      rfl
    have written : (s.turn env ⟨n, .restart enableRealTime⟩).written = s.written := by
      rw [written, turn, stepped]
      rfl
    refine .reopened rfl rfl written ?_
    rw [same, written, stepped]

/-! ### Who knows the last event -/

/-- Each logger knows the hash of the last event of a part of the log, which is all of it for those that
are up to date. -/
def Informed (turns : List (Move κ)) (s : Shared κ) : Prop :=
  ∀ n, ∃ known later, s.written = known ++ later ∧ (s.loggers n).lastHash = lastHashOf .none known ∧
    (later = [] ↔ upToDate turns n = true)

theorem informed_turn (entire : ∀ n, (s.view n).Entire env) {turns : List (Move κ)}
    (informed : Informed turns s) (t : Move κ) : Informed (turns ++ [t]) (s.turn env t) := by
  have effect := effect_turn entire t
  intro n
  have elsewhere : ((s.turn env t).loggers n).lastHash = _ := lastHash_turn s t n
  rw [upToDate_concat, Move.note]
  by_cases here : n = t.logger
  · subst here
    cases effect with
    | logged logs e more names verified chain written last =>
      exact ⟨_, [], (List.append_nil _).symm, last, by simp [logs]⟩
    | reopened quiet reopens written last =>
      exact ⟨_, [], (List.append_nil _).symm, last, by simp [quiet, reopens]⟩
    | other quiet reopens written last =>
      obtain ⟨known, later, split, hash, iff⟩ := informed t.logger
      exact ⟨known, later, written.trans split, last.trans hash, by simp [quiet, reopens, iff]⟩
  · rw [if_neg here] at elsewhere
    obtain ⟨known, later, split, hash, iff⟩ := informed n
    cases effect with
    | logged logs e more names verified chain written last =>
      refine ⟨known, later ++ e :: more, ?_, elsewhere.trans hash, by simp [logs, here]⟩
      rw [written, split, List.append_assoc]
    | reopened quiet reopens written last =>
      exact ⟨known, later, written.trans split, elsewhere.trans hash, by simp [quiet, here, iff]⟩
    | other quiet reopens written last =>
      exact ⟨known, later, written.trans split, elsewhere.trans hash, by simp [quiet, reopens, iff]⟩

theorem invariant_run (enableRealTime : Bool) (turns : List (Move κ)) :
    (∀ n, ((run env (start enableRealTime) turns).view n).Entire env) ∧
      Informed turns (run env (start enableRealTime) turns) := by
  induction turns using List.reverseRecOn with
  | nil =>
    refine ⟨fun n => ⟨⟨rfl, ?_, .inl rfl⟩, ?_, ?_, ?_, ?_⟩, fun n => ⟨[], [], rfl, rfl, by simp [upToDate]⟩⟩
    all_goals exact fun _ mem => absurd mem List.not_mem_nil
  | append_singleton turns t ih =>
    obtain ⟨entire, informed⟩ := ih
    rw [run, List.foldl_append]
    exact ⟨entire_turn entire t, informed_turn entire informed t⟩

/-! ### When the chain holds -/

/-- The chain of the log holds exactly if the loggers took turns. -/
theorem chained_iff_serial (enableRealTime : Bool) (turns : List (Move κ))
    (distinct : ((run env (start enableRealTime) turns).written.map (·.eventHash)).Nodup) :
    Chained env .none (run env (start enableRealTime) turns).written ↔ Serial turns := by
  induction turns using List.reverseRecOn with
  | nil =>
    refine iff_of_true trivial ?_
    intro before t after split
    simp at split
  | append_singleton turns t ih =>
    obtain ⟨entire, informed⟩ : (∀ n, ((run env (start enableRealTime) turns).view n).Entire env) ∧ _ :=
      invariant_run enableRealTime turns
    have last : run env (start enableRealTime) (turns ++ [t]) =
        (run env (start enableRealTime) turns).turn env t := by
      rw [run, List.foldl_append]
      rfl
    have effect := effect_turn entire t
    rw [last] at distinct ⊢
    generalize (run env (start enableRealTime) turns).turn env t = u at effect distinct ⊢
    rw [serial_concat]
    cases effect with
    | logged logs e more names verified chain written last =>
      rw [written, List.map_append, List.nodup_append] at distinct
      obtain ⟨known, later, split, hash, iff⟩ := informed t.logger
      have intact : ∀ f ∈ (run env (start enableRealTime) turns).written, f.Sealed env :=
        (entire t.logger).holds.intact
      have linked := World.links_iff (split ▸ intact) (split ▸ distinct.1) (names.trans hash)
      rw [← split, iff] at linked
      rw [written, chained_append, ih distinct.1, ← linked]
      constructor
      · intro whole
        exact ⟨whole.1, fun _ => whole.2.1⟩
      · intro holds
        exact ⟨holds.1, holds.2 logs, verified, chain⟩
    | reopened quiet reopens written last =>
      rw [written] at distinct ⊢
      simp [ih distinct, quiet]
    | other quiet reopens written last =>
      rw [written] at distinct ⊢
      simp [ih distinct, quiet]

end Shared

/-- However the turns of several loggers fall, the file holds what they logged in the order of their calls. It
is verified exactly if no logger logged while it did not know the last event. -/
theorem shared_log_verified_iff [DecidableEq κ] (noCollision : Function.Injective env.sha256)
    (draws : Nat → Draw) (enableRealTime : Bool) (turns : List (Move κ))
    (logged : 0 < (Shared.run env (Shared.start enableRealTime) turns).calls.length)
    (ids : ((Shared.run env (Shared.start enableRealTime) turns).written.map (·.eventId)).Nodup) :
    let s := Shared.run env (Shared.start enableRealTime) turns
    (∀ call ∈ s.calls, call.isSome = true) ∧ storedEvents env draws (s.file.getD []) = s.written ∧
      ((verifyLogIntegrity env draws s.file).status = .verified ↔ Serial turns) := by
  intro s
  have entire : (s.view 0).Entire env := (Shared.invariant_run enableRealTime turns).1 0
  have intact : ∀ e ∈ s.written, e.Sealed env := entire.holds.intact
  have text : s.file.getD [] = logText s.written := entire.holds.text
  have written : s.written.map (·.map Value.image) = s.written :=
    (List.map_congr_left entire.image).trans (List.map_id' _)
  have count : s.written.length = s.calls.length := List.reduceOption_length_eq_iff.mpr entire.succeeded
  obtain ⟨content, file⟩ : ∃ content, s.file = some content := by
    cases file : s.file with
    | some content => exact ⟨content, rfl⟩
    | none =>
      rw [file] at text
      rw [logText_eq_nil text.symm] at count
      exact absurd count.symm (Nat.pos_iff_ne_zero.mp logged)
  refine ⟨entire.succeeded, ?_, ?_⟩
  · rw [text, storedEvents_logText intact, written]
  · rw [file] at text ⊢
    obtain rfl : content = logText s.written := text
    rw [verified_logText intact, written]
    exact Shared.chained_iff_serial enableRealTime turns (World.distinct_hashes noCollision entire ids)

/-- The second logger was opened before the first one logged. -/
def crossedTurns : List (Move Nat) :=
  [⟨0, .act (.log (sampleArgs "a" .userLogin) [])⟩, ⟨1, .act (.log (sampleArgs "b" .userLogout) [])⟩]

theorem crossedTurns_verified_iff :
    let s := Shared.run sampleEnv (Shared.start true) crossedTurns
    (∀ call ∈ s.calls, call.isSome = true) ∧
      storedEvents sampleEnv (fun _ => ⟨"", .nan⟩) (s.file.getD []) = s.written ∧
      ((verifyLogIntegrity sampleEnv (fun _ => ⟨"", .nan⟩) s.file).status = .verified ↔
        Serial crossedTurns) := by
  have ids : (Shared.run sampleEnv (Shared.start true) crossedTurns).written.map (·.eventId) =
      [.str "a", .str "b"] := rfl
  have distinct : [Value.str "a", Value.str "b"].Nodup := by simp
  exact shared_log_verified_iff sampleEnv_injective _ true crossedTurns (by decide) (ids ▸ distinct)

end BtApiSecurity.Audit
