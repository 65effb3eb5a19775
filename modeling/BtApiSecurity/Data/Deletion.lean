import BtApiSecurity.Data.Protection
import BtApiSecurity.Ledger
import BtApiSecurity.Py.Text

/-!
# Requests to be forgotten

A deletion request lives in the record of its subject until it is processed.
Registering the subject again replaces that record, and the request with it.
-/

namespace BtApiSecurity.Data.DataProtectionManager
open Py Machine

variable {s : DataProtectionManager} {u v id : String} {subject : DataSubject} {n m : Int}
  {l : List Event}

/-! ### Request ids -/

theorem underscore_not_mem_intChars (i : Int) : '_' ∉ intChars i := by
  intro member
  have digit : ∀ n, '_' ∈ natChars n → False := by
    intro n member
    have := isDigit_natChars n _ member
    simp at this
  unfold intChars at member
  split at member
  · rcases List.mem_cons.mp member with sign | member
    · cases sign
    · exact digit _ member
  · exact digit _ member

/-- A request id names its subject. -/
theorem subject_of_requestId {t t' : Time} (same : requestIdAt t u = requestIdAt t' v) : u = v := by
  have chars := congrArg String.toList same
  simp only [requestIdAt, intText, String.toList_append, String.toList_ofList, List.append_assoc,
    List.append_cancel_left_eq] at chars
  exact String.toList_inj.mp
    (first_separator (underscore_not_mem_intChars _) (underscore_not_mem_intChars _) chars).2

/-! ### Pending requests -/

def Asks (e : Event) (u id : String) : Prop :=
  (∃ reason, e.input.call = .requestRightToBeForgotten u reason) ∧ e.output = .ok (.requestId id)

def Processes (e : Event) (u : String) : Prop :=
  ∃ receipt, e.output = .ok (.receipt receipt) ∧ receipt.subjectId = u

/-- A request of `u` returned `id`, and no request of `u` was processed since. -/
def Pending (l : List Event) (u id : String) : Prop :=
  Lasting (fun e => Asks e u id) (fun e => Processes e u) l

/-- Processing `id` now succeeds, reports `u`, removes `u` and leaves every other subject as it is. -/
def Served (s : DataProtectionManager) (u id : String) : Prop :=
  ∀ clock, ∃ receipt t, (processDataDeletion clock id).run s = (.ok receipt, t) ∧
    receipt.subjectId = u ∧ (s.dataSubjects.get? u).isSome = true ∧ t.dataSubjects.get? u = none ∧
    ∀ v, v ≠ u → t.dataSubjects.get? v = s.dataSubjects.get? v

/-- A subject is registered again while it has deletion requests. -/
def Overwrites (e : Event) : Prop :=
  ∃ u identifiers consentData subject,
    e.input.call = .registerDataSubject u identifiers consentData ∧
      e.pre.dataSubjects.get? u = some subject ∧ subject.deletionRequests ≠ []

/-! ### What is stored -/

/-- The ids of the stored requests are those of their subject. -/
def Tagged (s : DataProtectionManager) : Prop :=
  ∀ u subject, s.dataSubjects.get? u = some subject →
    ∀ r ∈ subject.deletionRequests, ∃ t, r.requestId = requestIdAt t u

theorem requested_iff : subject.requested id = true ↔ ∃ r ∈ subject.deletionRequests, r.requestId = id := by
  simp [DataSubject.requested]

/-- Only the subject that an id names is asked about, so what is stored with it decides. -/
theorem served_iff {t : Time} (named : s.Named) (tagged : s.Tagged) :
    Served s u (requestIdAt t u) ↔
      ∃ subject, s.dataSubjects.get? u = some subject ∧ subject.requested (requestIdAt t u) = true := by
  have owner : ∀ key subject,
      s.dataSubjects.entries.find? (fun entry => entry.2.requested (requestIdAt t u)) =
        some (key, subject) → key = u ∧ subject.requested (requestIdAt t u) = true ∧
          s.dataSubjects.get? key = some subject := by
    intro key subject first
    have found := s.dataSubjects.mem_entries.mp (List.mem_of_find?_eq_some first)
    have requested : subject.requested (requestIdAt t u) = true := by
      simpa using List.find?_some first
    obtain ⟨r, member, id⟩ := requested_iff.mp requested
    obtain ⟨t', tag⟩ := tagged key subject found r member
    exact ⟨subject_of_requestId (tag.symm.trans id), requested, found⟩
  constructor
  · intro served
    obtain ⟨receipt, after, run, -⟩ := served 0
    cases first : s.dataSubjects.entries.find? fun entry => entry.2.requested (requestIdAt t u) with
    | none =>
      simp only [processDataDeletion, Method.run_bind, Method.run_read, first,
        Method.run_check] at run
      cases run
    | some entry =>
      obtain ⟨rfl, requested, found⟩ := owner entry.1 entry.2 first
      exact ⟨entry.2, found, requested⟩
  · rintro ⟨subject, found, requested⟩ clock
    cases first : s.dataSubjects.entries.find? fun entry => entry.2.requested (requestIdAt t u) with
    | none =>
      have none_asked := List.find?_eq_none.mp first _ (s.dataSubjects.mem_entries.mpr found)
      exact absurd requested none_asked
    | some entry =>
      obtain ⟨rfl, -, -⟩ := owner entry.1 entry.2 first
      refine ⟨_, _, run_processDataDeletion named first, rfl, ?_, ?_, ?_⟩
      · rw [found]
        rfl
      · rw [get?_delete, if_pos rfl]
      · intro v other
        rw [get?_delete, if_neg (Ne.symm other)]

/-! ### History and registry -/

structure Tracked (l : List Event) (s : DataProtectionManager) : Prop where
  named : s.Named
  asked : ∀ u id, Pending l u id → ∃ t, id = requestIdAt t u
  pending : ∀ u subject, s.dataSubjects.get? u = some subject →
    ∀ r ∈ subject.deletionRequests, Pending l u r.requestId
  stored : (∀ e ∈ l, ¬Overwrites e) → ∀ u id, Pending l u id →
    ∃ subject, s.dataSubjects.get? u = some subject ∧ subject.requested id = true

theorem Tracked.tagged (tracked : Tracked l s) : s.Tagged := by
  intro u subject found r member
  exact tracked.asked u _ (tracked.pending u subject found r member)

theorem pending_quiet {e : Event} (not_asks : ∀ id, e.output ≠ .ok (.requestId id))
    (not_processes : ∀ receipt, e.output ≠ .ok (.receipt receipt)) :
    Pending (l ++ [e]) u id ↔ Pending l u id := by
  unfold Pending
  rw [lasting_snoc]
  constructor
  · rintro (⟨-, output⟩ | ⟨pending, -⟩)
    · exact absurd output (not_asks id)
    · exact pending
  · intro pending
    exact .inr ⟨pending, fun ⟨receipt, output, _⟩ => not_processes receipt output⟩

/-- A step that keeps the requests of every subject, and answers neither with an id nor with a
receipt. -/
theorem Tracked.quiet {e : Event} (tracked : Tracked l e.pre) (named : e.post.Named)
    (same : ∀ u, (e.post.dataSubjects.get? u).map (·.deletionRequests) =
      (e.pre.dataSubjects.get? u).map (·.deletionRequests))
    (not_asks : ∀ id, e.output ≠ .ok (.requestId id))
    (not_processes : ∀ receipt, e.output ≠ .ok (.receipt receipt)) : Tracked (l ++ [e]) e.post where
  named := named
  asked u id pending := tracked.asked u id ((pending_quiet not_asks not_processes).mp pending)
  pending u subject found r member := by
    have requests := same u
    rw [found] at requests
    obtain ⟨old, found_old, equal⟩ := Option.map_eq_some_iff.mp requests.symm
    rw [pending_quiet not_asks not_processes]
    exact tracked.pending u old found_old r (equal ▸ member)
  stored kept u id pending := by
    rw [pending_quiet not_asks not_processes] at pending
    obtain ⟨old, found_old, requested⟩ :=
      tracked.stored (fun d member => kept d (List.mem_append_left _ member)) u id pending
    have requests := same u
    rw [found_old] at requests
    obtain ⟨subject, found, equal⟩ := Option.map_eq_some_iff.mp requests
    refine ⟨subject, found, ?_⟩
    rw [requested_iff] at requested ⊢
    rw [equal]
    exact requested

theorem sameRequests_store {new : DataSubject} (found : s.dataSubjects.get? u = some subject)
    (same : new.deletionRequests = subject.deletionRequests) (v : String) :
    ((s.store u new).dataSubjects.get? v).map (·.deletionRequests) =
      (s.dataSubjects.get? v).map (·.deletionRequests) := by
  rw [get?_store]
  split
  · rename_i here
    rw [← here, found]
    exact congrArg some same
  · rfl

theorem Tracked.registered {e : Event} {identifiers : Dict String String}
    {consentData : Option (Dict String Value)} (tracked : Tracked l e.pre) (named : e.post.Named)
    (is_call : e.input.call = .registerDataSubject u identifiers consentData)
    (shape : e.post = e.pre.store u (newSubject e.input.clock u identifiers consentData))
    (not_asks : ∀ id, e.output ≠ .ok (.requestId id))
    (not_processes : ∀ receipt, e.output ≠ .ok (.receipt receipt)) : Tracked (l ++ [e]) e.post where
  named := named
  asked v id pending := tracked.asked v id ((pending_quiet not_asks not_processes).mp pending)
  pending v subject found r member := by
    rw [pending_quiet not_asks not_processes]
    rw [shape, get?_store] at found
    split at found
    · rw [← Option.some.inj found, (newSubject_blank _ _ _ _).2] at member
      cases member
    · exact tracked.pending v subject found r member
  stored kept v id pending := by
    rw [pending_quiet not_asks not_processes] at pending
    obtain ⟨subject, found, requested⟩ :=
      tracked.stored (fun d member => kept d (List.mem_append_left _ member)) v id pending
    rw [shape, get?_store]
    split
    · rename_i same
      subst v
      -- the subject has the pending request, so this registration is the one that is excluded
      have overwrites : Overwrites e := by
        refine ⟨u, identifiers, consentData, subject, is_call, found, ?_⟩
        obtain ⟨r, member, -⟩ := requested_iff.mp requested
        exact List.ne_nil_of_mem member
      exact absurd overwrites (kept e (by simp))
    · exact ⟨subject, found, requested⟩

/-- Of what is pending after the call, only the new request was not pending before. -/
theorem pending_requested {e : Event} {reason : String}
    (is_call : e.input.call = .requestRightToBeForgotten u reason)
    (output : e.output = .ok (.requestId (requestIdAt (e.input.clock 0) u))) :
    Pending (l ++ [e]) v id ↔ (v = u ∧ id = requestIdAt (e.input.clock 0) u) ∨ Pending l v id := by
  have asks : Asks e v id ↔ v = u ∧ id = requestIdAt (e.input.clock 0) u := by
    simp only [Asks, is_call, output, Call.requestRightToBeForgotten.injEq, Except.ok.injEq,
      Reply.requestId.injEq]
    constructor
    · rintro ⟨⟨_, rfl, -⟩, rfl⟩
      exact ⟨rfl, rfl⟩
    · rintro ⟨rfl, rfl⟩
      exact ⟨⟨reason, rfl, rfl⟩, rfl⟩
  have not_processes : ¬Processes e v := by
    rintro ⟨receipt, is_receipt, -⟩
    rw [output] at is_receipt
    cases is_receipt
  unfold Pending
  rw [lasting_snoc, asks]
  exact or_congr_right (and_iff_left not_processes)

theorem Tracked.requested {e : Event} {reason : String} {request : DeletionRequest}
    (tracked : Tracked l e.pre) (named : e.post.Named)
    (is_call : e.input.call = .requestRightToBeForgotten u reason)
    (found : e.pre.dataSubjects.get? u = some subject)
    (tag : request.requestId = requestIdAt (e.input.clock 0) u)
    (shape : e.post =
      e.pre.store u { subject with deletionRequests := subject.deletionRequests ++ [request] })
    (output : e.output = .ok (.requestId (requestIdAt (e.input.clock 0) u))) :
    Tracked (l ++ [e]) e.post := by
  refine ⟨named, ?_, ?_, ?_⟩
  · intro v id pending
    rcases (pending_requested is_call output).mp pending with ⟨rfl, same⟩ | pending
    · exact ⟨_, same⟩
    · exact tracked.asked v id pending
  · intro v other stored r member
    rw [pending_requested is_call output]
    rw [shape, get?_store] at stored
    split at stored
    · rename_i same
      subst v
      rw [← Option.some.inj stored] at member
      rcases List.mem_append.mp member with member | member
      · exact .inr (tracked.pending u subject found r member)
      · rw [List.mem_singleton.mp member]
        exact .inl ⟨rfl, tag⟩
    · exact .inr (tracked.pending v other stored r member)
  · intro kept v id pending
    have before := tracked.stored fun d member => kept d (List.mem_append_left _ member)
    rw [shape, get?_store]
    rcases (pending_requested is_call output).mp pending with ⟨rfl, rfl⟩ | pending
    · refine ⟨_, if_pos rfl, requested_iff.mpr ⟨request, ?_, tag⟩⟩
      simp
    · obtain ⟨other, stored, has⟩ := before v id pending
      split
      · rename_i same
        subst v
        obtain rfl : subject = other := Option.some.inj (found.symm.trans stored)
        obtain ⟨r, member, tag⟩ := requested_iff.mp has
        exact ⟨_, rfl, requested_iff.mpr ⟨r, List.mem_append_left _ member, tag⟩⟩
      · exact ⟨other, stored, has⟩

theorem Tracked.processed {e : Event} {key requestId : String} (tracked : Tracked l e.pre)
    (named : e.post.Named) (shape : e.post = e.pre.delete key)
    (output : e.output = .ok (.receipt
      { requestId, status := .completed, subjectId := key, deletedRecords := 1 })) :
    Tracked (l ++ [e]) e.post := by
  have remaining : ∀ v id, Pending (l ++ [e]) v id ↔ Pending l v id ∧ v ≠ key := by
    intro v id
    have processes : Processes e v ↔ v = key := by
      simp [Processes, output, eq_comm]
    have not_asks : ¬Asks e v id := by
      rintro ⟨-, is_id⟩
      rw [output] at is_id
      cases is_id
    unfold Pending
    rw [lasting_snoc, processes]
    exact or_iff_right not_asks
  refine ⟨named, ?_, ?_, ?_⟩
  · intro v id pending
    exact tracked.asked v id ((remaining v id).mp pending).1
  · intro v subject found r member
    rw [shape, get?_delete] at found
    split at found
    · cases found
    · rename_i other
      exact (remaining v _).mpr ⟨tracked.pending v subject found r member, Ne.symm other⟩
  · intro kept v id pending
    obtain ⟨pending, other⟩ := (remaining v id).mp pending
    rw [shape, get?_delete, if_neg (Ne.symm other)]
    exact tracked.stored (fun d member => kept d (List.mem_append_left _ member)) v id pending

theorem tracked_step (tracked : Tracked l s) (i : Input) :
    Tracked (l ++ [entry step s i]) (step s i).1 := by
  have named := named_step tracked.named i
  have effect := step_effect tracked.named i
  show Tracked _ (entry step s i).post
  generalize shape : entry step s i = e
  obtain ⟨pre, input, output, post⟩ := e
  obtain ⟨rfl, rfl, rfl, rfl⟩ := Entry.mk.inj shape
  generalize (step s i).1 = t at *
  generalize (step s i).2 = output at *
  cases effect with
  | refused | unknown => exact tracked.quiet named (fun _ => rfl) nofun nofun
  | registered u identifiers consentData is_call =>
    exact tracked.registered named is_call rfl nofun nofun
  | recorded u consentData purpose lawfulBasis is_call subject found =>
    exact tracked.quiet named (sameRequests_store found rfl) nofun nofun
  | withdrawn u purpose is_call subject found =>
    exact tracked.quiet named (sameRequests_store found rfl) nofun nofun
  | requested u reason is_call subject found request id =>
    exact tracked.requested named is_call found id rfl rfl
  | processed requestId is_call key subject found requested => exact tracked.processed named rfl rfl

theorem tracked_run (is : List Input) : Tracked (trace step new is) (run step new is) := by
  apply history_invariant
  · refine ⟨named_new, ?_, nofun, ?_⟩
    · rintro u id ⟨l₁, d, l₂, split, -⟩
      simp at split
    · rintro - u id ⟨l₁, d, l₂, split, -⟩
      simp at split
  · exact fun _ _ i tracked => tracked_step tracked i

/-- The request that a registration overwrites stays pending, and cannot be processed any more. -/
theorem lost_of_overwrites {before : List Input} {i : Input}
    (overwrites : Overwrites (entry step (run step new before) i)) :
    ∃ u id, Pending (trace step new (before ++ [i])) u id ∧ ¬Served (run step new (before ++ [i])) u id := by
  obtain ⟨u, identifiers, consentData, subject, is_call, found, requests⟩ := overwrites
  obtain ⟨request, rest, shape⟩ := List.exists_cons_of_ne_nil requests
  have tracked := tracked_run before
  have pending := tracked.pending u subject found request (by simp [shape])
  have registered : (step (run step new before) i).1 =
        (run step new before).store u (newSubject i.clock u identifiers consentData) ∧
      ∃ reply, (step (run step new before) i).2 = .ok (.subject reply) := by
    obtain ⟨clock, call⟩ := i
    obtain rfl : call = .registerDataSubject u identifiers consentData := is_call
    exact ⟨rfl, _, rfl⟩
  obtain ⟨state, reply, output⟩ := registered
  refine ⟨u, request.requestId, ?_, ?_⟩
  · rw [trace_append]
    refine (pending_quiet (e := entry step (run step new before) i) ?_ ?_).mpr pending
    · intro id is_id
      cases output.symm.trans is_id
    · intro receipt is_receipt
      cases output.symm.trans is_receipt
  · intro served
    have next := tracked_run (before ++ [i])
    obtain ⟨t, tag⟩ := tracked.asked u request.requestId pending
    rw [tag, served_iff next.named next.tagged, run_append, run_cons, run_nil, state] at served
    obtain ⟨fresh, stored, has⟩ := served
    rw [get?_store, if_pos rfl] at stored
    rw [← Option.some.inj stored, DataSubject.requested, (newSubject_blank _ _ _ _).2] at has
    cases has

/-- In every state of a run each pending request can be processed, if and only if no subject is
registered again while it has deletion requests. -/
theorem pending_requests_served_iff (is : List Input) :
    (∀ before after, is = before ++ after → ∀ u id, Pending (trace step new before) u id →
        Served (run step new before) u id) ↔
      ∀ e ∈ trace step new is, ¬Overwrites e := by
  constructor
  · intro served e member overwrites
    obtain ⟨l₁, l₂, split⟩ := List.append_of_mem member
    obtain ⟨before, after, parts, earlier, is_entry, -⟩ := trace_split split
    rw [is_entry] at overwrites
    obtain ⟨u, id, pending, lost⟩ := lost_of_overwrites overwrites
    exact lost (served (before ++ [e.input]) after (by simp [parts]) u id pending)
  · rintro kept before after rfl u id pending
    have tracked := tracked_run before
    obtain ⟨t, rfl⟩ := tracked.asked u id pending
    rw [served_iff tracked.named tracked.tagged]
    refine tracked.stored ?_ u _ pending
    intro e member
    apply kept e
    rw [trace_append]
    exact List.mem_append_left _ member

/-- Ann asks to be forgotten and is registered once more, with her new address, before the request
is processed. -/
def registeredTwice : List Input :=
  [⟨fun _ => 3000, .registerDataSubject "ann" .empty none⟩,
    ⟨fun _ => 3001, .requestRightToBeForgotten "ann" "User request"⟩,
    ⟨fun _ => 3002, .registerDataSubject "ann" .empty none⟩]

theorem registration_loses_request :
    ¬∀ (is : List Input) u id, Pending (trace step new is) u id → Served (run step new is) u id := by
  intro served
  have pending : Pending (trace step new registeredTwice) "ann" (requestIdAt 3001 "ann") := by
    refine ⟨[_], _, [_], rfl, ⟨⟨_, rfl⟩, rfl⟩, ?_⟩
    intro e member
    rw [List.mem_singleton.mp member]
    rintro ⟨receipt, output, -⟩
    cases output
  obtain ⟨receipt, t, run, -⟩ := served registeredTwice _ _ pending fun _ => 3003
  cases run

end BtApiSecurity.Data.DataProtectionManager
