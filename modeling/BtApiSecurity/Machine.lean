import Mathlib.Data.List.Induction

/-!
# Machines and their histories

A machine turns a state and an input into a next state and an output. A run
keeps its history: one entry for each step, with the states around it. Statements
about runs are invariants of history and state together.
-/

namespace BtApiSecurity.Machine

variable {σ : Type*} {ι : Type*} {ο : Type*}

/-- One step of a run, with the states around it. -/
structure Entry (σ ι ο : Type*) where
  pre : σ
  input : ι
  output : ο
  post : σ

variable (step : σ → ι → σ × ο)

def entry (s : σ) (i : ι) : Entry σ ι ο := ⟨s, i, (step s i).2, (step s i).1⟩

theorem entry_pre (s : σ) (i : ι) : (entry step s i).pre = s := rfl

theorem entry_output (s : σ) (i : ι) : (entry step s i).output = (step s i).2 := rfl

def run (s : σ) (is : List ι) : σ := is.foldl (fun s i => (step s i).1) s

def trace : σ → List ι → List (Entry σ ι ο)
  | _, [] => []
  | s, i :: is => entry step s i :: trace (step s i).1 is

def Reachable (init s : σ) : Prop := ∃ is, run step init is = s

variable {step} {s : σ} {is : List ι}

@[simp] theorem run_nil : run step s [] = s := rfl

@[simp] theorem run_cons (i : ι) : run step s (i :: is) = run step (step s i).1 is := rfl

theorem run_append (js : List ι) : run step s (is ++ js) = run step (run step s is) js :=
  List.foldl_append

theorem trace_append (js : List ι) :
    trace step s (is ++ js) = trace step s is ++ trace step (run step s is) js := by
  induction is generalizing s with
  | nil => rfl
  | cons i is ih => simp only [List.cons_append, trace, run_cons, ih]

theorem entry_of_mem {e : Entry σ ι ο} (h : e ∈ trace step s is) : e = entry step e.pre e.input := by
  induction is generalizing s with
  | nil => simp [trace] at h
  | cons i is ih =>
    rcases List.mem_cons.mp h with rfl | h
    · rfl
    · exact ih h

theorem input_mem_of_mem {e : Entry σ ι ο} (h : e ∈ trace step s is) : e.input ∈ is := by
  induction is generalizing s with
  | nil => simp [trace] at h
  | cons i is ih =>
    rcases List.mem_cons.mp h with rfl | h
    · exact List.mem_cons_self
    · exact List.mem_cons_of_mem i (ih h)

/-! ### Invariants of the state -/

theorem run_invariant {Inv : σ → Prop} (start : Inv s)
    (preserved : ∀ s i, Inv s → Inv (step s i).1) : Inv (run step s is) := by
  induction is generalizing s with
  | nil => exact start
  | cons i is ih => exact ih (preserved s i start)

theorem reachable_invariant {Inv : σ → Prop} {init : σ} (start : Inv init)
    (preserved : ∀ s i, Inv s → Inv (step s i).1) (h : Reachable step init s) : Inv s := by
  obtain ⟨is, rfl⟩ := h
  exact run_invariant start preserved

theorem pre_invariant {Inv : σ → Prop} (start : Inv s)
    (preserved : ∀ s i, Inv s → Inv (step s i).1) {e : Entry σ ι ο} (h : e ∈ trace step s is) :
    Inv e.pre := by
  induction is generalizing s with
  | nil => simp [trace] at h
  | cons i is ih =>
    rcases List.mem_cons.mp h with rfl | h
    · exact start
    · exact ih (preserved s i start) h

theorem run_of_trace {P : σ → Prop} (start : P s) (kept : ∀ e ∈ trace step s is, P e.pre → P e.post) :
    P (run step s is) := by
  induction is generalizing s with
  | nil => exact start
  | cons i is ih =>
    have first : P (step s i).1 := kept (entry step s i) List.mem_cons_self start
    exact ih first fun e mem => kept e (List.mem_cons_of_mem _ mem)

/-! ### Invariants of history and state -/

/-- An entry of a history, with the inputs before and after it. -/
theorem trace_split {l l' : List (Entry σ ι ο)} {e : Entry σ ι ο}
    (h : trace step s is = l ++ e :: l') :
    ∃ before after, is = before ++ e.input :: after ∧ l = trace step s before ∧
      e = entry step (run step s before) e.input ∧ l' = trace step e.post after := by
  induction is generalizing s l with
  | nil => simp [trace] at h
  | cons i is ih =>
    cases l with
    | nil =>
      obtain ⟨rfl, rfl⟩ := List.cons.inj h
      exact ⟨[], is, rfl, rfl, rfl, rfl⟩
    | cons d l =>
      obtain ⟨rfl, rest⟩ := List.cons.inj h
      obtain ⟨before, after, rfl, rfl, he, rfl⟩ := ih rest
      exact ⟨i :: before, after, rfl, rfl, he, rfl⟩

theorem trace_prefix {l l' : List (Entry σ ι ο)} (h : trace step s is = l ++ l') :
    ∃ before after, is = before ++ after ∧ l = trace step s before := by
  cases l' with
  | nil => exact ⟨is, [], by simp, by simpa using h.symm⟩
  | cons e l' =>
    obtain ⟨before, after, rfl, same, -⟩ := trace_split h
    exact ⟨before, e.input :: after, rfl, same⟩

/-- What the steps between two steps of a run keep. -/
theorem between {P : σ → Prop} {l₁ l₂ l₃ : List (Entry σ ι ο)} {d e : Entry σ ι ο}
    (split : trace step s is = l₁ ++ d :: (l₂ ++ e :: l₃)) (start : P d.post)
    (kept : ∀ x ∈ l₂, P x.pre → P x.post) : P e.pre := by
  obtain ⟨_, after, -, -, -, rest⟩ := trace_split split
  obtain ⟨before, _, -, rfl, is_entry, -⟩ := trace_split rest.symm
  rw [is_entry]
  exact run_of_trace start kept

theorem history_invariant {Inv : List (Entry σ ι ο) → σ → Prop} (start : Inv [] s)
    (preserved : ∀ l s i, Inv l s → Inv (l ++ [entry step s i]) (step s i).1) :
    Inv (trace step s is) (run step s is) := by
  have grown : ∀ (is : List ι) (l : List (Entry σ ι ο)) (s : σ), Inv l s →
      Inv (l ++ trace step s is) (run step s is) := by
    intro is
    induction is with
    | nil => intro l s h; simpa [trace] using h
    | cons i is ih =>
      intro l s h
      simpa [trace] using ih _ _ (preserved l s i h)
  exact grown is [] s start

theorem history_split (Inv : List (Entry σ ι ο) → σ → Prop) (start : Inv [] s)
    (preserved : ∀ l s i, Inv l s → Inv (l ++ [entry step s i]) (step s i).1)
    {l l' : List (Entry σ ι ο)} {e : Entry σ ι ο} (h : trace step s is = l ++ e :: l') :
    Inv l e.pre := by
  obtain ⟨before, after, -, rfl, he, -⟩ := trace_split h
  rw [he]
  exact history_invariant start preserved

theorem pairwise_of_split {α : Type*} {R : α → α → Prop} {xs : List α}
    (h : ∀ l x l', xs = l ++ x :: l' → ∀ y ∈ l, R y x) : xs.Pairwise R := by
  induction xs using List.reverseRecOn with
  | nil => exact List.Pairwise.nil
  | append_singleton xs x ih =>
    refine List.pairwise_append.mpr ⟨ih ?_, List.pairwise_singleton R x, ?_⟩
    · rintro l y l' rfl
      apply h l y (l' ++ [x])
      simp
    · intro y hy z hz
      obtain rfl := List.mem_singleton.mp hz
      exact h xs z [] rfl y hy

/-- What held before a run and not after it was ended by one of its steps. -/
theorem exists_cause {P : σ → Prop} (before : P s) (after : ¬P (run step s is)) :
    ∃ l e l', trace step s is = l ++ e :: l' ∧ P e.pre ∧ ¬P e.post := by
  induction is generalizing s with
  | nil => exact absurd before after
  | cons i is ih =>
    by_cases next : P (step s i).1
    · obtain ⟨l, e, l', split, cause⟩ := ih next after
      exact ⟨entry step s i :: l, e, l', by rw [trace, split]; rfl, cause⟩
    · exact ⟨[], entry step s i, _, rfl, before, next⟩

/-- Every state of a run keeps what each of its steps keeps exactly under a condition, if and only if
every step meets the condition. -/
theorem states_iff {Inv : σ → Prop} {Ok : Entry σ ι ο → Prop} (start : Inv s)
    (preserved : ∀ e ∈ trace step s is, Inv e.pre → (Inv e.post ↔ Ok e)) :
    (∀ before after, is = before ++ after → Inv (run step s before)) ↔ ∀ e ∈ trace step s is, Ok e := by
  constructor
  · intro holds e mem
    obtain ⟨l, l', split⟩ := List.append_of_mem mem
    obtain ⟨before, after, inputs, -, is_entry, -⟩ := trace_split split
    have reached : Inv e.pre := by
      rw [is_entry]
      exact holds before (e.input :: after) inputs
    have next : Inv e.post := by
      rw [is_entry]
      have later := holds (before ++ [e.input]) after (by simp [inputs])
      rwa [run_append, run_cons, run_nil] at later
    exact (preserved e mem reached).mp next
  · intro ok before after inputs
    subst inputs
    apply run_of_trace start
    intro e mem kept
    have mem := List.mem_append_left (trace step (run step s before) after) mem
    rw [← trace_append] at mem
    exact (preserved e mem kept).mpr (ok e mem)

/-! ### Two runs -/

/-- Two runs of the same inputs stay related and answer alike at every step. -/
theorem traces_related (R : σ → σ → Prop) {ok : ι → Prop} {alike : ι → ο → ο → Prop} {s' : σ}
    (steps : ∀ s s' i, R s s' → ok i →
      R (step s i).1 (step s' i).1 ∧ alike i (step s i).2 (step s' i).2)
    (related : R s s') (oks : ∀ i ∈ is, ok i) :
    List.Forall₂ (fun e e' => e.input = e'.input ∧ alike e.input e.output e'.output)
      (trace step s is) (trace step s' is) := by
  induction is generalizing s s' with
  | nil => exact .nil
  | cons i is ih =>
    obtain ⟨next, answers⟩ := steps s s' i related (oks i (by simp))
    refine .cons ⟨rfl, answers⟩ (ih next ?_)
    intro j member
    exact oks j (List.mem_cons_of_mem i member)

end BtApiSecurity.Machine
