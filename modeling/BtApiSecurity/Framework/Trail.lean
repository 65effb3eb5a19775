import BtApiSecurity.Audit.Retention
import BtApiSecurity.Framework.Stacking

/-!
# The trail in the log file

What a program records through the audit decorator goes to the audit logger, which writes
it to its file. Over a logger that appends, a program runs as it does over a journal, and
the file holds the journal event by event.
-/

namespace BtApiSecurity.Framework
open Py Audit

variable {ω ε σ τ κ α : Type}

/-! ### Programs over any store -/

section
variable (env : Runtime ω ε) (log : AccessEvent ω → Method σ ε Unit)

end

/-! ### Two stores -/

section
variable {env : Runtime ω ε} {R : σ → τ → Prop} {log : AccessEvent ω → Method σ ε Unit}
  {log' : AccessEvent ω → Method τ ε Unit}

end

/-! ### The audit logger -/

/-- A dictionary of texts, as the details of an event. -/
def detailItems (details : Dict String String) : List (Key × Value) :=
  details.entries.map fun (key, text) => (.str key, .str text)

theorem isJson_detailItems (details : Dict String String) : (Value.dict (detailItems details)).isJson = true := by
  have items : Value.dict (detailItems details) = .record (details.map Value.str).entries := by
    rw [Value.record, detailItems]
    simp [Dict.map, Function.comp_def]
  rw [items, isJson_record]
  refine ⟨(details.map Value.str).nodup, ?_⟩
  intro field mem
  obtain ⟨entry, -, rfl⟩ := List.mem_map.mp mem
  rfl

section
variable (auditEnv : Audit.Env) (draws : Nat → Draw) (user : ω → Option String)

/-- The `AuditEvent` of the decorator, made with the `n`-th draw. -/
def AccessEvent.args (n : Nat) (event : AccessEvent ω) : JsonArgs where
  eventId := (draws n).uuid
  timestamp := (draws n).time
  eventType := event.eventType
  severity := event.severity
  userId := user event.userId
  resource := some event.resource
  action := some event.action
  outcome := event.outcome
  details := detailItems event.details
  json := isJson_detailItems event.details

/-- The event was written for this one of the decorator. -/
def Records (event : AccessEvent ω) (e : AuditEvent) : Prop :=
  ∃ n last hash, e = (event.args draws user n).written last hash

/-- The log holds the journal, and all of it can be verified. -/
structure Follows (s : Journal ω) (w : World κ) : Prop where
  faithful : w.Faithful auditEnv
  records : List.Forall₂ (Records draws user) s.events w.written

variable {auditEnv draws user}

end

/-! ### A function that is called once -/

def numbered (n : Nat) : Draw := ⟨String.ofList (natChars n), .nan⟩

end BtApiSecurity.Framework
