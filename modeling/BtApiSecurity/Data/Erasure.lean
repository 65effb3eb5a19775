import BtApiSecurity.Data.Deletion
import BtApiSecurity.Noninterference

/-!
# Erasure

Every call is about one subject, and reads and writes the record of that subject
only. The manager is therefore as many small machines as there are subjects, and a
subject whose request was processed leaves nothing behind.
-/

namespace BtApiSecurity.Data.DataProtectionManager
open Py Machine

variable {s : DataProtectionManager} {u v id : String} {found : Option DataSubject}

/-! ### The subject of a call -/

/-- A request id reads `gdpr_<seconds>_<subject>`. -/
def subjectNamed (requestId : String) : String :=
  String.ofList (((requestId.toList.drop 5).dropWhile (· ≠ '_')).drop 1)

def Call.subject : Call → String
  | .registerDataSubject u .. | .recordConsent u .. | .withdrawConsent u _
  | .requestRightToBeForgotten u _ => u
  | .processDataDeletion requestId => subjectNamed requestId

theorem subjectNamed_requestIdAt (t : Time) (u : String) : subjectNamed (requestIdAt t u) = u := by
  have digits : ∀ c ∈ intChars (truncate t), (decide (c ≠ '_')) = true := by
    intro c member
    rw [decide_eq_true_iff]
    rintro rfl
    exact underscore_not_mem_intChars _ member
  have head : "gdpr_".toList = ['g', 'd', 'p', 'r', '_'] := by decide
  unfold subjectNamed requestIdAt intText
  simp only [String.toList_append, String.toList_ofList, head, List.append_assoc, List.cons_append,
    List.nil_append, List.drop_succ_cons, List.drop_zero]
  rw [List.dropWhile_append_of_pos digits]
  simp

/-! ### One subject alone -/

/-- What a call does to the record of its subject. -/
def stepSubject (found : Option DataSubject) (i : Input) :
    Option DataSubject × Except DataProtectionError Reply :=
  match i.call, found with
  | .registerDataSubject u identifiers consentData, _ =>
    (some (newSubject i.clock u identifiers consentData),
      .ok (.subject (newSubject i.clock u identifiers consentData)))
  | .recordConsent _ consentData purpose lawfulBasis, some subject =>
    (some { subject with consentRecords := subject.consentRecords ++
      [consentRecord (i.clock 0) consentData purpose lawfulBasis] }, .ok .nothing)
  | .withdrawConsent _ purpose, some subject =>
    (some { subject with consentRecords := withdrawRecords purpose i.clock subject.consentRecords },
      .ok .nothing)
  | .requestRightToBeForgotten u reason, some subject =>
    (some { subject with deletionRequests := subject.deletionRequests ++
      [⟨requestIdAt (i.clock 0) u, i.clock 1, reason, .pending, none⟩] },
      .ok (.requestId (requestIdAt (i.clock 0) u)))
  | .processDataDeletion requestId, found =>
    if found.any (·.requested requestId) then
      (none, .ok (.receipt ⟨requestId, .completed, subjectNamed requestId, 1⟩))
    else (found, .error (.dataProtectionError s!"Deletion request {requestId} not found"))
  | .recordConsent u .., none | .withdrawConsent u _, none | .requestRightToBeForgotten u _, none =>
    (none, .error (.dataProtectionError s!"Data subject {u} not found"))

/-- The registry with another record, or none, for one subject. -/
def write (s : DataProtectionManager) (u : String) : Option DataSubject → DataProtectionManager
  | none => s.delete u
  | some subject => s.store u subject

theorem get?_write (s : DataProtectionManager) (u v : String) (found : Option DataSubject) :
    (s.write u found).dataSubjects.get? v = if u = v then found else s.dataSubjects.get? v := by
  cases found with
  | none => exact get?_delete s u v
  | some subject => exact get?_store s u v subject

theorem write_read (s : DataProtectionManager) (u : String) : s.write u (s.dataSubjects.get? u) = s := by
  cases found : s.dataSubjects.get? u with
  | none => exact congrArg mk (Dict.erase_of_absent found)
  | some subject => exact congrArg mk (Dict.set_of_get? found)

theorem delete_write (s : DataProtectionManager) (u : String) (found : Option DataSubject) :
    (s.write u found).delete u = s.delete u := by
  cases found with
  | none => exact congrArg mk (Dict.erase_of_absent (Dict.get?_erase_self _ _))
  | some subject => exact delete_store s u subject

theorem delete_write_of_ne (s : DataProtectionManager) (found : Option DataSubject) (other : v ≠ u) :
    (s.write v found).delete u = (s.delete u).write v found := by
  cases found with
  | none => exact congrArg mk (Dict.erase_erase_comm _ _ _)
  | some subject => exact congrArg mk (Dict.erase_set_of_ne _ _ other)

/-! ### The manager, subject by subject -/

/-- Only the subject that the id names can have such a request. -/
theorem find_requested (tagged : s.Tagged) (id : String) :
    s.dataSubjects.entries.find? (fun entry => entry.2.requested id) =
      ((s.dataSubjects.get? (subjectNamed id)).filter (·.requested id)).map
        fun subject => (subjectNamed id, subject) := by
  cases first : s.dataSubjects.entries.find? fun entry => entry.2.requested id with
  | none =>
    have unasked := List.find?_eq_none.mp first
    cases found : s.dataSubjects.get? (subjectNamed id) with
    | none => rfl
    | some subject =>
      have refused := unasked _ (s.dataSubjects.mem_entries.mpr found)
      simp only [Bool.not_eq_true] at refused
      rw [Option.filter_some, refused]
      rfl
  | some entry =>
    obtain ⟨key, subject⟩ := entry
    have found := s.dataSubjects.mem_entries.mp (List.mem_of_find?_eq_some first)
    have requested : subject.requested id = true := by simpa using List.find?_some first
    obtain ⟨r, member, same⟩ := requested_iff.mp requested
    obtain ⟨t, tag⟩ := tagged key subject found r member
    have name : subjectNamed id = key := by rw [← same, tag, subjectNamed_requestIdAt]
    rw [name, found, Option.filter_some, requested]
    rfl

theorem step_write (named : s.Named) (tagged : s.Tagged) (i : Input) :
    step s i = (s.write i.call.subject (stepSubject (s.dataSubjects.get? i.call.subject) i).1,
      (stepSubject (s.dataSubjects.get? i.call.subject) i).2) := by
  obtain ⟨clock, call⟩ := i
  have absent : ∀ {u}, s.dataSubjects.get? u = none → s.write u none = s := by
    intro u none
    rw [← none, write_read]
  cases call with
  | registerDataSubject u identifiers consentData => rfl
  | recordConsent u consentData purpose lawfulBasis =>
    cases found : s.dataSubjects.get? u with
    | none =>
      simp only [step, perform, recordConsent, Method.run_map, Method.run_bind,
        run_getSubject_none found, Call.subject, stepSubject, found, absent found]
    | some subject =>
      simp only [step, perform, recordConsent, Method.run_map, Method.run_bind, run_getSubject found,
        Method.run_update, Call.subject, stepSubject, found]
      rfl
  | withdrawConsent u purpose =>
    cases found : s.dataSubjects.get? u with
    | none =>
      simp only [step, perform, withdrawConsent, Method.run_map, Method.run_bind,
        run_getSubject_none found, Call.subject, stepSubject, found, absent found]
    | some subject =>
      simp only [step, perform, withdrawConsent, Method.run_map, Method.run_bind,
        run_getSubject found, Method.run_update, Call.subject, stepSubject, found]
      rfl
  | requestRightToBeForgotten u reason =>
    cases found : s.dataSubjects.get? u with
    | none =>
      simp only [step, perform, requestRightToBeForgotten, Method.run_map, Method.run_bind,
        run_getSubject_none found, Call.subject, stepSubject, found, absent found]
    | some subject =>
      simp only [step, perform, requestRightToBeForgotten, Method.run_map, Method.run_bind,
        run_getSubject found, Method.run_update, Method.run_pure, Call.subject, stepSubject, found]
      rfl
  | processDataDeletion requestId =>
    have first := find_requested tagged requestId
    cases asked : (s.dataSubjects.get? (subjectNamed requestId)).any (·.requested requestId) with
    | false =>
      have nobody : (s.dataSubjects.get? (subjectNamed requestId)).filter
          (·.requested requestId) = none := by
        apply Option.filter_eq_none_iff.mpr
        intro subject found
        simpa [found] using asked
      rw [nobody, Option.map_none] at first
      simp only [step, perform, processDataDeletion, Method.run_map, Method.run_bind,
        Method.run_read, first, Method.run_check, Call.subject, stepSubject, asked,
        Bool.false_eq_true, if_false, write_read]
    | true =>
      obtain ⟨subject, found, requested⟩ := (Option.any_eq_true _ _).mp asked
      rw [found, Option.filter_some, requested] at first
      simp only [step, perform, Method.run_map, run_processDataDeletion named first, Call.subject,
        stepSubject, asked, if_true]
      rfl

/-- Subjects are stored under their ids, and so are their requests. -/
structure Filed (s : DataProtectionManager) : Prop where
  named : s.Named
  tagged : s.Tagged

theorem filed_new : new.Filed := by
  refine ⟨named_new, ?_⟩
  intro u subject found
  cases found

theorem tagged_store {subject : DataSubject} (tagged : s.Tagged)
    (tags : ∀ r ∈ subject.deletionRequests, ∃ t, r.requestId = requestIdAt t u) :
    (s.store u subject).Tagged := by
  intro v other found r member
  rw [get?_store] at found
  split at found
  · rename_i same
    obtain rfl := Option.some.inj found
    exact same ▸ tags r member
  · exact tagged v other found r member

theorem filed_step (filed : s.Filed) (i : Input) : (step s i).1.Filed := by
  refine ⟨named_step filed.named i, ?_⟩
  have tagged := filed.tagged
  have effect := step_effect filed.named i
  generalize (step s i).1 = t at effect
  generalize (step s i).2 = output at effect
  cases effect with
  | refused | unknown => exact tagged
  | registered u identifiers consentData =>
    apply tagged_store tagged
    simp [newSubject_blank]
  | recorded u _ _ _ _ subject found => exact tagged_store tagged (tagged u subject found)
  | withdrawn u _ _ subject found => exact tagged_store tagged (tagged u subject found)
  | requested u _ _ subject found request id =>
    apply tagged_store tagged
    intro r member
    rcases List.mem_append.mp member with before | last
    · exact tagged u subject found r before
    · obtain rfl := List.mem_singleton.mp last
      exact ⟨_, id⟩
  | processed _ _ key subject found =>
    intro v other kept
    rw [get?_delete] at kept
    split at kept
    · cases kept
    · exact tagged v other kept

/-! ### Subjects apart -/

def about (u : String) (i : Input) : Bool := i.call.subject = u

def aboutOthers (u : String) (i : Input) : Bool := i.call.subject ≠ u

/-- Nothing of an answer is left out. -/
def whole (_ : Input) (output : Except DataProtectionError Reply) : Except DataProtectionError Reply :=
  output

/-- The registry holds what the subject alone would hold. -/
def Holds (u : String) (s : DataProtectionManager) (found : Option DataSubject) : Prop :=
  s.Filed ∧ s.dataSubjects.get? u = found

theorem holds_other {i : Input} (holds : Holds u s found) (other : aboutOthers u i = true) :
    Holds u (step s i).1 found := by
  obtain ⟨filed, same⟩ := holds
  have different : i.call.subject ≠ u := by simpa [aboutOthers] using other
  refine ⟨filed_step filed i, ?_⟩
  rw [step_write filed.named filed.tagged, get?_write, if_neg different, same]

theorem holds_own {i : Input} (holds : Holds u s found) (own : aboutOthers u i = false) :
    Holds u (step s i).1 (stepSubject found i).1 ∧ (step s i).2 = (stepSubject found i).2 := by
  obtain ⟨filed, same⟩ := holds
  have here : i.call.subject = u := by simpa [aboutOthers] using own
  refine ⟨⟨filed_step filed i, ?_⟩, ?_⟩
  · rw [step_write filed.named filed.tagged, get?_write, if_pos here, here, same]
  · rw [step_write filed.named filed.tagged, here, same]

/-- The manager beside one subject alone. -/
def subjectUnwinding (u : String) : Unwinding step stepSubject (aboutOthers u) whole where
  Related := Holds u
  hidden_step _ _ _ holds other := holds_other holds other
  shown_step _ _ _ holds own := (holds_own holds own).1
  shown_output _ _ _ holds own := (holds_own holds own).2

/-- What is stored of a subject, and every answer about it, is that of a machine which sees the
calls about this subject only. -/
theorem subjects_independent (is : List Input) (u : String) :
    (run step new is).dataSubjects.get? u = run stepSubject none (shown (aboutOthers u) is) ∧
      answers (aboutOthers u) whole (trace step new is) =
        answers (aboutOthers u) whole (trace stepSubject none (shown (aboutOthers u) is)) := by
  let U := subjectUnwinding u
  have start : U.Related new none := ⟨filed_new, rfl⟩
  exact ⟨(U.related_run start is).2, U.answers_run start is⟩

/-- Two registries that differ in the record of one subject only. -/
structure SameBut (u : String) (s s' : DataProtectionManager) : Prop where
  filed : s.Filed
  filed' : s'.Filed
  same : s.delete u = s'.delete u

theorem SameBut.get? {s' : DataProtectionManager} (h : SameBut u s s') (other : v ≠ u) :
    s.dataSubjects.get? v = s'.dataSubjects.get? v := by
  have read : ∀ s : DataProtectionManager, (s.delete u).dataSubjects.get? v =
      s.dataSubjects.get? v := fun s => (get?_delete s u v).trans (if_neg (Ne.symm other))
  rw [← read s, h.same, read s']

theorem SameBut.own {s' : DataProtectionManager} {i : Input} (h : SameBut u s s')
    (own : about u i = true) : SameBut u (step s i).1 s' := by
  have here : i.call.subject = u := by simpa [about] using own
  refine ⟨filed_step h.filed i, h.filed', ?_⟩
  rw [step_write h.filed.named h.filed.tagged, here, delete_write, h.same]

theorem SameBut.other {s' : DataProtectionManager} {i : Input} (h : SameBut u s s')
    (other : about u i = false) :
    SameBut u (step s i).1 (step s' i).1 ∧ (step s i).2 = (step s' i).2 := by
  have different : i.call.subject ≠ u := by simpa [about] using other
  have read := h.get? different
  refine ⟨⟨filed_step h.filed i, filed_step h.filed' i, ?_⟩, ?_⟩
  · rw [step_write h.filed.named h.filed.tagged, step_write h.filed'.named h.filed'.tagged, read,
      delete_write_of_ne _ _ different, delete_write_of_ne _ _ different, h.same]
  · rw [step_write h.filed.named h.filed.tagged, step_write h.filed'.named h.filed'.tagged, read]

/-- The manager beside one that never hears of the subject. -/
def erasureUnwinding (u : String) : Unwinding step step (about u) whole where
  Related := SameBut u
  hidden_step _ _ _ h own := h.own own
  shown_step _ _ _ h other := (h.other other).1
  shown_output _ _ _ h other := (h.other other).2

theorem delete_of_absent (absent : s.dataSubjects.get? u = none) : s.delete u = s :=
  congrArg mk (Dict.erase_of_absent absent)

/-- Without the record of `u`, the registry and the answers to everybody else are as if `u` had
never been heard of. -/
theorem run_without (is : List Input) (u : String) :
    (run step new is).delete u = run step new (shown (about u) is) ∧
      answers (about u) whole (trace step new is) =
        answers (about u) whole (trace step new (shown (about u) is)) := by
  let U := erasureUnwinding u
  have start : U.Related new new := ⟨filed_new, filed_new, rfl⟩
  refine ⟨?_, U.answers_run start is⟩
  have unheard : (run step new (shown (about u) is)).dataSubjects.get? u = none := by
    let Unheard (s : DataProtectionManager) : Prop := s.Filed ∧ s.dataSubjects.get? u = none
    have start : Unheard new := ⟨filed_new, rfl⟩
    have kept : Unheard (run step new (shown (about u) is)) := by
      apply run_of_trace start
      intro e mem absent
      have other : about u e.input = false := by
        simpa [shown] using (List.mem_filter.mp (input_mem_of_mem mem)).2
      have different : e.input.call.subject ≠ u := by simpa [about] using other
      rw [entry_of_mem mem]
      refine ⟨filed_step absent.1 e.input, ?_⟩
      show (step e.pre e.input).1.dataSubjects.get? u = none
      rw [step_write absent.1.named absent.1.tagged, get?_write, if_neg different, absent.2]
    exact kept.2
  exact (U.related_run start is).same.trans (delete_of_absent unheard)

theorem processes_subject {i : Input} (filed : s.Filed) (processes : Processes (entry step s i) u) :
    i.call.subject = u ∧ (step s i).1.dataSubjects.get? u = none := by
  obtain ⟨receipt, output, rfl⟩ := processes
  have effect := step_effect filed.named i
  rw [show (step s i).2 = _ from output] at effect
  generalize (step s i).1 = t at effect
  cases effect with
  | processed requestId is_call key subject found requested =>
    obtain ⟨r, member, same⟩ := requested_iff.mp requested
    obtain ⟨t, tag⟩ := filed.tagged key subject found r member
    refine ⟨?_, Dict.get?_erase_self _ _⟩
    rw [is_call, Call.subject, ← same, tag, subjectNamed_requestIdAt]

/-- A processed request leaves the registry that a run without any call about the subject would
have reached. -/
theorem processed_leaves_nothing (before : List Input) (i : Input) (u : String)
    (processes : Processes (entry step (run step new before) i) u) :
    run step new (before ++ [i]) = run step new (shown (about u) before) := by
  have filed : (run step new before).Filed := run_invariant filed_new fun _ i filed => filed_step filed i
  obtain ⟨here, gone⟩ := processes_subject filed processes
  have own : about u i = true := by simpa [about] using here
  have dropped : shown (about u) (before ++ [i]) = shown (about u) before := by
    simp [shown, List.filter_append, own]
  have erased := (run_without (before ++ [i]) u).1
  rw [dropped] at erased
  rw [← erased, run_append]
  exact (delete_of_absent gone).symm

/-- Ann and Bob are registered; Ann consents and then asks to be forgotten. -/
def forgottenRun : List Input :=
  [⟨fun _ => 3000, .registerDataSubject "ann" .empty none⟩,
    ⟨fun _ => 3001, .registerDataSubject "bob" .empty none⟩,
    ⟨fun _ => 3002, .recordConsent "ann" .empty "marketing" "consent"⟩,
    ⟨fun _ => 3003, .requestRightToBeForgotten "ann" "User request"⟩]

theorem forgottenRun_leaves_bob :
    run step new (forgottenRun ++ [⟨fun _ => 3004, .processDataDeletion "gdpr_3003_ann"⟩]) =
      run step new (shown (about "ann") forgottenRun) :=
  processed_leaves_nothing forgottenRun _ "ann" ⟨⟨"gdpr_3003_ann", .completed, "ann", 1⟩, rfl, rfl⟩

end BtApiSecurity.Data.DataProtectionManager
