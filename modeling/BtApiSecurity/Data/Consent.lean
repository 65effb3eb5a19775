import BtApiSecurity.Data.Deletion

/-!
# Consents and their withdrawal

A consent record is built when a subject is registered or when a consent is
recorded, and marked when the consent is withdrawn. What a record says is
compared with the calls made since it was added.
-/

namespace BtApiSecurity.Data.DataProtectionManager
open Py Machine

variable {s : DataProtectionManager} {u : String} {subject : DataSubject} {k : Nat}
  {record : ConsentRecord} {purpose : Option String} {clock : Clock} {l : List Event} {e : Event}

/-- The call withdraws the consent of `u` for every purpose or for the purpose of the record. -/
def Withdraws (e : Event) (u : String) (record : ConsentRecord) : Prop :=
  ∃ purpose, e.input.call = .withdrawConsent u purpose ∧
    ∀ p, purpose = some p → record.get? "purpose" = some (.value (.str p))

/-- The call added the record that stands at `k`. -/
def Adds (e : Event) (u : String) (k : Nat) : Prop :=
  ((∃ consentData purpose lawfulBasis, e.input.call = .recordConsent u consentData purpose lawfulBasis) ∨
    ∃ identifiers consentData, e.input.call = .registerDataSubject u identifiers (some consentData)) ∧
  (e.post.dataSubjects.get? u).map (·.consentRecords.length) = some (k + 1)

/-- The records of `u` are gone after the call. -/
def Resets (e : Event) (u : String) : Prop :=
  (∃ identifiers consentData, e.input.call = .registerDataSubject u identifiers consentData) ∨
    Processes e u

def HasKeys (record : ConsentRecord) : Prop :=
  ∀ key ∈ ["purpose", "lawful_basis", "withdrawn"], (record.get? key).isSome = true

/-- The record has its keys, and says whether it was withdrawn since it was added. -/
structure Faithful (l : List Event) (u : String) (k : Nat) (record : ConsentRecord) : Prop where
  keys : HasKeys record
  history : ∃ l₁ d l₂ b, l = l₁ ++ d :: l₂ ∧ Adds d u k ∧ (∀ e ∈ l₂, ¬Resets e u) ∧
    record.get? "withdrawn" = some (.value (.bool b)) ∧ (b = true ↔ ∃ e ∈ l₂, Withdraws e u record)

def Follows (l : List Event) (s : DataProtectionManager) : Prop :=
  ∀ u subject k record, s.dataSubjects.get? u = some subject →
    subject.consentRecords[k]? = some record → Faithful l u k record

/-- A registration with consent data. -/
def GivesConsent (i : Input) : Prop :=
  ∃ u identifiers consentData,
    i.call = .registerDataSubject u identifiers (some consentData) ∧ consentData.entries ≠ []

/-! ### Withdrawing -/

theorem concerns_iff :
    concerns purpose record = true ↔
      ∀ p, purpose = some p → record.get? "purpose" = some (.value (.str p)) := by
  cases purpose with
  | none => simp [concerns]
  | some p =>
    simp only [concerns, Option.some.injEq, forall_eq']
    cases record.get? "purpose" with
    | none => simp
    | some detail =>
      cases detail with
      | value v =>
        simp only [Option.any_some, Detail.isText, Option.some.injEq, Detail.value.injEq]
        exact Value.pyEq_eq_str
      | time | data => simp [Detail.isText]

theorem get?_withdraw_purpose (now : Time) (record : ConsentRecord) :
    (withdraw now record).get? "purpose" = record.get? "purpose" := by
  rw [withdraw, Dict.get?_set_of_ne _ _ (by decide), Dict.get?_set_of_ne _ _ (by decide)]

theorem get?_withdraw_withdrawn (now : Time) (record : ConsentRecord) :
    (withdraw now record).get? "withdrawn" = some (.value (.bool true)) := by
  rw [withdraw, Dict.get?_set_of_ne _ _ (by decide), Dict.get?_set_self]

theorem hasKeys_withdraw (now : Time) (keys : HasKeys record) : HasKeys (withdraw now record) := by
  intro key member
  rw [withdraw, Dict.get?_set, Dict.get?_set]
  split
  · rfl
  · split
    · rfl
    · exact keys key member

/-- Each record is withdrawn or stays, by its own purpose alone. -/
theorem getElem?_withdrawRecords {records : List ConsentRecord} {after : ConsentRecord}
    (found : (withdrawRecords purpose clock records)[k]? = some after) :
    ∃ before now, records[k]? = some before ∧
      after = if concerns purpose before then withdraw now before else before := by
  induction records generalizing clock k with
  | nil => simp [withdrawRecords] at found
  | cons record records ih =>
    by_cases concerned : concerns purpose record = true
    · rw [withdrawRecords, if_pos concerned] at found
      cases k with
      | zero =>
        obtain rfl := Option.some.inj found
        exact ⟨record, clock 0, rfl, (if_pos concerned).symm⟩
      | succ k => exact ih found
    · rw [withdrawRecords, if_neg concerned] at found
      cases k with
      | zero =>
        obtain rfl := Option.some.inj found
        exact ⟨record, 0, rfl, (if_neg concerned).symm⟩
      | succ k => exact ih found

/-! ### One step -/

theorem not_resets (not_registers : ∀ identifiers consentData,
      e.input.call ≠ .registerDataSubject u identifiers consentData)
    (not_receipt : ∀ receipt, e.output ≠ .ok (.receipt receipt)) : ¬Resets e u := by
  rintro (⟨identifiers, consentData, is_call⟩ | ⟨receipt, output, -⟩)
  · exact not_registers identifiers consentData is_call
  · exact not_receipt receipt output

theorem not_withdraws (other : ∀ purpose, e.input.call ≠ .withdrawConsent u purpose) :
    ¬Withdraws e u record := by
  rintro ⟨purpose, is_call, -⟩
  exact other purpose is_call

theorem Faithful.snoc (faithful : Faithful l u k record) (kept : ¬Resets e u)
    (unmarked : ¬Withdraws e u record) : Faithful (l ++ [e]) u k record := by
  obtain ⟨keys, l₁, d, l₂, b, rfl, adds, undisturbed, withdrawn, flag⟩ := faithful
  refine ⟨keys, l₁, d, l₂ ++ [e], b, by simp, adds, ?_, withdrawn, ?_⟩
  · intro x member
    rcases List.mem_append.mp member with member | member
    · exact undisturbed x member
    · rw [List.mem_singleton.mp member]
      exact kept
  · rw [flag]
    constructor
    · rintro ⟨x, member, withdraws⟩
      exact ⟨x, List.mem_append_left _ member, withdraws⟩
    · rintro ⟨x, member, withdraws⟩
      rcases List.mem_append.mp member with member | member
      · exact ⟨x, member, withdraws⟩
      · rw [List.mem_singleton.mp member] at withdraws
        exact absurd withdraws unmarked

theorem Faithful.withdrawn (faithful : Faithful l u k record) (kept : ¬Resets e u)
    (is_call : e.input.call = .withdrawConsent u purpose) (now : Time) :
    Faithful (l ++ [e]) u k (if concerns purpose record then withdraw now record else record) := by
  have withdraws : Withdraws e u record ↔ concerns purpose record = true := by
    rw [concerns_iff]
    constructor
    · rintro ⟨p, same, concerned⟩
      rw [is_call] at same
      obtain ⟨-, rfl⟩ := Call.withdrawConsent.inj same
      exact concerned
    · intro concerned
      exact ⟨purpose, is_call, concerned⟩
  by_cases concerned : concerns purpose record = true
  · rw [if_pos concerned]
    obtain ⟨keys, l₁, d, l₂, b, rfl, adds, undisturbed, -, -⟩ := faithful
    refine ⟨hasKeys_withdraw now keys, l₁, d, l₂ ++ [e], true, by simp, adds, ?_,
      get?_withdraw_withdrawn now record, iff_of_true rfl ⟨e, by simp, ?_⟩⟩
    · intro x member
      rcases List.mem_append.mp member with member | member
      · exact undisturbed x member
      · rw [List.mem_singleton.mp member]
        exact kept
    · obtain ⟨p, is_call, same⟩ := withdraws.mpr concerned
      refine ⟨p, is_call, ?_⟩
      rw [get?_withdraw_purpose]
      exact same
  · rw [if_neg concerned]
    exact faithful.snoc kept (fun h => concerned (withdraws.mp h))

theorem hasKeys_consentRecord (now : Time) (consentData : Dict String Value)
    (purpose lawfulBasis : String) : HasKeys (consentRecord now consentData purpose lawfulBasis) := by
  intro key member
  simp only [List.mem_cons, List.not_mem_nil, or_false] at member
  rcases member with rfl | rfl | rfl
  · rfl
  · rfl
  · rfl

/-- A step that neither adds, withdraws nor resets records of any subject it leaves. -/
theorem Follows.quiet (follows : Follows l e.pre)
    (same : ∀ u subject, e.post.dataSubjects.get? u = some subject → ∃ old,
      e.pre.dataSubjects.get? u = some old ∧ old.consentRecords = subject.consentRecords ∧
        ¬Resets e u ∧ ∀ purpose, e.input.call ≠ .withdrawConsent u purpose) :
    Follows (l ++ [e]) e.post := by
  intro u subject k record found at_k
  obtain ⟨old, found_old, records, kept, not_call⟩ := same u subject found
  rw [← records] at at_k
  exact (follows u old k record found_old at_k).snoc kept (not_withdraws not_call)

theorem Follows.refused (follows : Follows l e.pre) (addressee : e.input.call.addressee = some u)
    (absent : e.pre.dataSubjects.get? u = none) (shape : e.post = e.pre)
    (reply : ∀ receipt, e.output ≠ .ok (.receipt receipt)) : Follows (l ++ [e]) e.post := by
  apply follows.quiet
  intro v subject found
  rw [shape] at found
  refine ⟨subject, found, rfl, not_resets ?_ reply, ?_⟩
  · intro _ _ is_call
    rw [is_call] at addressee
    cases addressee
  · intro _ is_call
    rw [is_call] at addressee
    obtain rfl := Option.some.inj addressee
    cases found.symm.trans absent

theorem Follows.registered {identifiers : Dict String String} {consentData : Option (Dict String Value)}
    (follows : Follows l e.pre) (is_call : e.input.call = .registerDataSubject u identifiers consentData)
    (shape : e.post = e.pre.store u (newSubject e.input.clock u identifiers consentData))
    (reply : ∀ receipt, e.output ≠ .ok (.receipt receipt)) (gives : ¬GivesConsent e.input) :
    Follows (l ++ [e]) e.post := by
  have no_records : (newSubject e.input.clock u identifiers consentData).consentRecords = [] := by
    cases consentData with
    | none => rfl
    | some consentData =>
      have empty : consentData.entries = [] := by
        by_contra given
        exact gives ⟨u, identifiers, consentData, is_call, given⟩
      rw [newSubject]
      simp only [empty, if_true]
  intro v subject k record found at_k
  rw [shape, get?_store] at found
  split at found
  · rw [← Option.some.inj found, no_records] at at_k
    cases at_k
  · rename_i other
    have kept : ¬Resets e v := by
      refine not_resets ?_ reply
      intro _ _ registers
      rw [is_call] at registers
      exact other (Call.registerDataSubject.inj registers).1
    refine (follows v subject k record found at_k).snoc kept (not_withdraws ?_)
    intro _ withdraws
    cases is_call.symm.trans withdraws

theorem Follows.recorded {consentData : Dict String Value} {purpose lawfulBasis : String}
    (follows : Follows l e.pre) (is_call : e.input.call = .recordConsent u consentData purpose lawfulBasis)
    (found : e.pre.dataSubjects.get? u = some subject)
    (shape : e.post = e.pre.store u { subject with
      consentRecords := subject.consentRecords ++
        [consentRecord (e.input.clock 0) consentData purpose lawfulBasis] })
    (reply : ∀ receipt, e.output ≠ .ok (.receipt receipt)) : Follows (l ++ [e]) e.post := by
  have kept : ∀ v, ¬Resets e v := by
    intro v
    refine not_resets ?_ reply
    intro _ _ registers
    cases is_call.symm.trans registers
  have unmarked : ∀ v record, ¬Withdraws e v record := by
    intro v record
    apply not_withdraws
    intro _ withdraws
    cases is_call.symm.trans withdraws
  intro v other k record stored at_k
  rw [shape, get?_store] at stored
  split at stored
  · rename_i same
    subst v
    rw [← Option.some.inj stored] at at_k
    rcases Nat.lt_or_ge k subject.consentRecords.length with earlier | later
    · rw [List.getElem?_append_left earlier] at at_k
      exact (follows u subject k record found at_k).snoc (kept u) (unmarked u record)
    · -- the record that this call has just added
      obtain ⟨at_end, is_record⟩ : k = subject.consentRecords.length ∧
          consentRecord (e.input.clock 0) consentData purpose lawfulBasis = record := by
        rw [List.getElem?_append_right later, List.getElem?_singleton] at at_k
        split at at_k
        · exact ⟨by omega, Option.some.inj at_k⟩
        · cases at_k
      have adds : Adds e u k := by
        refine ⟨.inl ⟨_, _, _, is_call⟩, ?_⟩
        rw [shape, get?_store, if_pos rfl]
        simp [at_end]
      rw [← is_record]
      exact ⟨hasKeys_consentRecord _ _ _ _, l, e, [], false, rfl, adds, by simp, rfl, by simp⟩
  · exact (follows v other k record stored at_k).snoc (kept v) (unmarked v record)

theorem Follows.withdrawn (follows : Follows l e.pre)
    (is_call : e.input.call = .withdrawConsent u purpose)
    (found : e.pre.dataSubjects.get? u = some subject)
    (shape : e.post = e.pre.store u { subject with
      consentRecords := withdrawRecords purpose e.input.clock subject.consentRecords })
    (reply : ∀ receipt, e.output ≠ .ok (.receipt receipt)) : Follows (l ++ [e]) e.post := by
  have kept : ∀ v, ¬Resets e v := by
    intro v
    refine not_resets ?_ reply
    intro _ _ registers
    cases is_call.symm.trans registers
  intro v other k record stored at_k
  rw [shape, get?_store] at stored
  split at stored
  · rename_i same
    subst v
    rw [← Option.some.inj stored] at at_k
    obtain ⟨before, now, at_before, rfl⟩ := getElem?_withdrawRecords at_k
    exact (follows u subject k before found at_before).withdrawn (kept u) is_call now
  · rename_i different
    refine (follows v other k record stored at_k).snoc (kept v) (not_withdraws ?_)
    intro p withdraws
    rw [is_call] at withdraws
    exact different (Call.withdrawConsent.inj withdraws).1

theorem Follows.requested {reason : String} {requests : List DeletionRequest}
    (follows : Follows l e.pre) (is_call : e.input.call = .requestRightToBeForgotten u reason)
    (found : e.pre.dataSubjects.get? u = some subject)
    (shape : e.post = e.pre.store u { subject with deletionRequests := requests })
    (reply : ∀ receipt, e.output ≠ .ok (.receipt receipt)) : Follows (l ++ [e]) e.post := by
  apply follows.quiet
  intro v other stored
  have kept : ∃ old, e.pre.dataSubjects.get? v = some old ∧
      old.consentRecords = other.consentRecords := by
    rw [shape, get?_store] at stored
    split at stored
    · rename_i same
      obtain rfl := Option.some.inj stored
      exact ⟨subject, same ▸ found, rfl⟩
    · exact ⟨other, stored, rfl⟩
  obtain ⟨old, before, records⟩ := kept
  refine ⟨old, before, records, not_resets ?_ reply, ?_⟩
  · intro _ _ registers
    cases is_call.symm.trans registers
  · intro _ withdraws
    cases is_call.symm.trans withdraws

theorem Follows.processed {requestId : String} (follows : Follows l e.pre)
    (is_call : e.input.call = .processDataDeletion requestId)
    (left : ∀ v other, e.post.dataSubjects.get? v = some other →
      e.pre.dataSubjects.get? v = some other ∧ ¬Processes e v) : Follows (l ++ [e]) e.post := by
  apply follows.quiet
  intro v other stored
  obtain ⟨before, unprocessed⟩ := left v other stored
  refine ⟨other, before, rfl, ?_, ?_⟩
  · rintro (⟨_, _, registers⟩ | processes)
    · cases is_call.symm.trans registers
    · exact unprocessed processes
  · intro _ withdraws
    cases is_call.symm.trans withdraws

theorem follows_step (named : s.Named) (follows : Follows l s) {i : Input} (gives : ¬GivesConsent i) :
    Follows (l ++ [entry step s i]) (step s i).1 := by
  have effect := step_effect named i
  show Follows _ (entry step s i).post
  generalize shape : entry step s i = e
  obtain ⟨pre, input, output, post⟩ := e
  obtain ⟨rfl, rfl, rfl, rfl⟩ := Entry.mk.inj shape
  generalize (step s i).1 = t at *
  generalize (step s i).2 = output at *
  cases effect with
  | refused u addressee absent =>
    exact follows.refused addressee absent rfl fun _ answers => by cases answers
  | unknown requestId is_call =>
    apply follows.processed is_call
    intro v other stored
    refine ⟨stored, ?_⟩
    rintro ⟨receipt, answers, -⟩
    cases answers
  | registered u identifiers consentData is_call =>
    exact follows.registered is_call rfl (fun _ answers => by cases answers) gives
  | recorded u consentData purpose lawfulBasis is_call subject found =>
    exact follows.recorded is_call found rfl fun _ answers => by cases answers
  | withdrawn u purpose is_call subject found =>
    exact follows.withdrawn is_call found rfl fun _ answers => by cases answers
  | requested u reason is_call subject found request id =>
    exact follows.requested is_call found rfl fun _ answers => by cases answers
  | processed requestId is_call key subject found requested =>
    apply follows.processed is_call
    intro v other stored
    rw [get?_delete] at stored
    split at stored
    · cases stored
    · rename_i different
      refine ⟨stored, ?_⟩
      rintro ⟨receipt, answers, reports⟩
      obtain rfl := Reply.receipt.inj (Except.ok.inj answers)
      exact different reports

theorem follows_run {is : List Input} (gives : ∀ i ∈ is, ¬GivesConsent i) :
    Follows (trace step new is) (run step new is) := by
  induction is using List.reverseRecOn with
  | nil =>
    intro u subject k record found
    cases found
  | append_singleton is i ih =>
    rw [trace_append, run_append]
    exact follows_step (tracked_run is).named (ih fun j member => gives j (by simp [member]))
      (gives i (by simp))

/-- A record made at registration lacks two of the keys. -/
theorem not_follows_of_gives {i : Input} (gives : GivesConsent i) :
    ¬Follows l (step s i).1 := by
  obtain ⟨clock, call⟩ := i
  obtain ⟨u, identifiers, consentData, rfl, given⟩ := gives
  intro follows
  have stored : (step s ⟨clock, .registerDataSubject u identifiers (some consentData)⟩).1 =
      s.store u (newSubject clock u identifiers (some consentData)) := rfl
  have records : (newSubject clock u identifiers (some consentData)).consentRecords =
      [registrationRecord (clock 1) consentData] := by
    rw [newSubject]
    simp only [if_neg given]
  have faithful := follows u (newSubject clock u identifiers (some consentData)) 0
    (registrationRecord (clock 1) consentData) (by rw [stored, get?_store, if_pos rfl])
    (by rw [records]; rfl)
  have key := faithful.keys "lawful_basis" (by simp)
  cases key

/-- In every state of a run the consent records follow the calls made, if and only if no subject is
registered with consent data. -/
theorem consents_follow_iff (is : List Input) :
    (∀ before after, is = before ++ after → Follows (trace step new before) (run step new before)) ↔
      ∀ i ∈ is, ¬GivesConsent i := by
  constructor
  · intro follows i member gives
    obtain ⟨before, after, rfl⟩ := List.append_of_mem member
    have state := follows (before ++ [i]) after (by simp)
    rw [run_append] at state
    exact not_follows_of_gives gives state
  · rintro gives before after rfl
    exact follows_run fun i member => gives i (List.mem_append_left _ member)

/-- A subject is registered with its consent to marketing. -/
def registeredWithConsent : List Input :=
  [⟨fun _ => 2000, .registerDataSubject "user-1" .empty
    (some (Dict.set (Dict.set .empty "purpose" (.str "marketing")) "lawful_basis" (.str "consent")))⟩]

theorem registration_consent_lacks_keys :
    ¬∀ is : List Input, Follows (trace step new is) (run step new is) := by
  intro follows
  apply not_follows_of_gives _ (follows registeredWithConsent)
  exact ⟨_, _, _, rfl, List.cons_ne_nil _ _⟩

end BtApiSecurity.Data.DataProtectionManager
