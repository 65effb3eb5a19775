import Mathlib.Data.List.Pairwise
import Mathlib.Logic.Relation
import BtApiSecurity.Machine

/-!
# One-time tokens

A step may spend a live token, and may issue a token not seen before. A token
issued by the step that spends another is its heir; a token with its heirs,
their heirs and so on is a lineage.
-/

namespace BtApiSecurity.OneTime
open Machine Relation

variable {σ : Type*} {ι : Type*} {ο : Type*} {α : Type*} {β : Type*}

/-- The rules that a machine keeps for its tokens. -/
structure Discipline (step : σ → ι → σ × ο) (α : Type*) where
  Inv : σ → Prop
  live : σ → α → Prop
  seen : σ → α → Prop
  spent : Entry σ ι ο → Option α
  issued : Entry σ ι ο → Option α
  inv_step : ∀ s i, Inv s → Inv (step s i).1
  live_seen : ∀ s x, Inv s → live s x → seen s x
  seen_step : ∀ s i x, Inv s → seen s x → seen (step s i).1 x
  spent_live : ∀ s i x, Inv s → spent (entry step s i) = some x → live s x
  spent_dead : ∀ s i x, Inv s → spent (entry step s i) = some x → ¬live (step s i).1 x
  issued_fresh : ∀ s i x, Inv s → issued (entry step s i) = some x → ¬seen s x
  issued_seen : ∀ s i x, Inv s → issued (entry step s i) = some x → seen (step s i).1 x
  live_born : ∀ s i x, Inv s → live (step s i).1 x → live s x ∨ issued (entry step s i) = some x

theorem once_unique {xs : List β} {f : β → Option α} {a b : β} {x : α}
    (once : xs.Pairwise fun a b => ∀ x, f a = some x → f b ≠ some x) (ha : a ∈ xs) (hb : b ∈ xs)
    (here : f a = some x) (there : f b = some x) : a = b := by
  have : Std.Symm fun a b => ∀ x, f a = some x → f b ≠ some x :=
    ⟨fun _ _ apart x hb ha => apart x ha hb⟩
  by_contra different
  exact once.forall ha hb different x here there

section Lineages

variable (spent issued : Entry σ ι ο → Option α)

/-- A step of the history spends `x` and issues `y`. -/
def Heir (history : List (Entry σ ι ο)) (x y : α) : Prop :=
  ∃ e ∈ history, spent e = some x ∧ issued e = some y

/-- A step that spends nothing issues `first`, and `x` descends from it. -/
def Lineage (history : List (Entry σ ι ο)) (first x : α) : Prop :=
  (∃ e ∈ history, spent e = none ∧ issued e = some first) ∧
    ReflTransGen (Heir spent issued history) first x

variable {spent issued} {h h' : List (Entry σ ι ο)} {first x : α}

theorem heir_mono (sub : h ⊆ h') (path : ReflTransGen (Heir spent issued h) first x) :
    ReflTransGen (Heir spent issued h') first x := by
  refine ReflTransGen.mono ?_ _ _ path
  rintro _ _ ⟨e, mem, rest⟩
  exact ⟨e, sub mem, rest⟩

theorem lineage_issued (line : Lineage spent issued h first x) : ∃ e ∈ h, issued e = some x := by
  obtain ⟨⟨root, mem, -, born⟩, path⟩ := line
  rcases ReflTransGen.cases_tail path with rfl | ⟨_, -, e, mem, -, born⟩
  · exact ⟨root, mem, born⟩
  · exact ⟨e, mem, born⟩

end Lineages

namespace Discipline

variable {step : σ → ι → σ × ο} (D : Discipline step α)
variable {s : σ} {is : List ι} {x : α} {e d : Entry σ ι ο} {l l' : List (Entry σ ι ο)}

variable (is) in
theorem inv_run (inv : D.Inv s) : D.Inv (run step s is) := run_invariant inv D.inv_step

/-! ### What lasts -/

variable (is) in
theorem seen_run (inv : D.Inv s) (seen : D.seen s x) : D.seen (run step s is) x := by
  induction is generalizing s with
  | nil => exact seen
  | cons i is ih => exact ih (D.inv_step s i inv) (D.seen_step s i x inv seen)

variable (is) in
theorem dead_run (inv : D.Inv s) (seen : D.seen s x) (dead : ¬D.live s x) :
    ¬D.live (run step s is) x := by
  induction is generalizing s with
  | nil => exact dead
  | cons i is ih =>
    apply ih (D.inv_step s i inv) (D.seen_step s i x inv seen)
    intro live
    rcases D.live_born s i x inv live with live | born
    · exact dead live
    · exact D.issued_fresh s i x inv born seen

theorem seen_of_issued (inv : D.Inv s) (mem : e ∈ trace step s is) (born : D.issued e = some x) :
    D.seen (run step s is) x := by
  induction is generalizing s with
  | nil => simp [trace] at mem
  | cons i is ih =>
    rcases List.mem_cons.mp mem with rfl | mem
    · exact D.seen_run is (D.inv_step s i inv) (D.issued_seen s i x inv born)
    · exact ih (D.inv_step s i inv) mem

theorem fresh_of_issued (inv : D.Inv s) (mem : e ∈ trace step s is) (born : D.issued e = some x) :
    ¬D.seen s x := by
  induction is generalizing s with
  | nil => simp [trace] at mem
  | cons i is ih =>
    rcases List.mem_cons.mp mem with rfl | mem
    · exact D.issued_fresh s i x inv born
    · intro seen
      exact ih (D.inv_step s i inv) mem (D.seen_step s i x inv seen)

theorem dead_of_spent (inv : D.Inv s) (mem : e ∈ trace step s is) (gone : D.spent e = some x) :
    D.seen (run step s is) x ∧ ¬D.live (run step s is) x := by
  induction is generalizing s with
  | nil => simp [trace] at mem
  | cons i is ih =>
    rcases List.mem_cons.mp mem with rfl | mem
    · have next := D.inv_step s i inv
      have seen := D.seen_step s i x inv (D.live_seen s x inv (D.spent_live s i x inv gone))
      exact ⟨D.seen_run is next seen,
        D.dead_run is next seen (D.spent_dead s i x inv gone)⟩
    · exact ih (D.inv_step s i inv) mem

theorem unspent_of_dead (inv : D.Inv s) (seen : D.seen s x) (dead : ¬D.live s x)
    (mem : e ∈ trace step s is) : D.spent e ≠ some x := by
  induction is generalizing s with
  | nil => simp [trace] at mem
  | cons i is ih =>
    rcases List.mem_cons.mp mem with rfl | mem
    · intro gone
      exact dead (D.spent_live s i x inv gone)
    · exact ih (D.inv_step s i inv) (D.seen_step s i x inv seen)
        (D.dead_run [i] inv seen dead) mem

/-! ### Once -/

theorem spent_once (inv : D.Inv s) :
    (trace step s is).Pairwise fun e e' => ∀ x, D.spent e = some x → D.spent e' ≠ some x := by
  apply pairwise_of_split
  intro l e l' split d mem x gone again
  obtain ⟨before, after, -, rfl, same, -⟩ := trace_split split
  rw [same] at again
  exact (D.dead_of_spent inv mem gone).2 (D.spent_live _ _ x (D.inv_run _ inv) again)

theorem issued_once (inv : D.Inv s) :
    (trace step s is).Pairwise fun e e' => ∀ x, D.issued e = some x → D.issued e' ≠ some x := by
  apply pairwise_of_split
  intro l e l' split d mem x born again
  obtain ⟨before, after, -, rfl, same, -⟩ := trace_split split
  rw [same] at again
  exact D.issued_fresh _ _ x (D.inv_run _ inv) again (D.seen_of_issued inv mem born)

theorem issued_unique (inv : D.Inv s) (mem : e ∈ trace step s is) (mem' : d ∈ trace step s is)
    (born : D.issued e = some x) (born' : D.issued d = some x) : e = d :=
  once_unique (D.issued_once inv) mem mem' born born'

theorem spent_unique (inv : D.Inv s) (mem : e ∈ trace step s is) (mem' : d ∈ trace step s is)
    (gone : D.spent e = some x) (gone' : D.spent d = some x) : e = d :=
  once_unique (D.spent_once inv) mem mem' gone gone'

/-! ### Where live tokens come from -/

theorem live_issued (inv : D.Inv s) (absent : ¬D.live s x) (live : D.live (run step s is) x) :
    ∃ e ∈ trace step s is, D.issued e = some x := by
  obtain ⟨l, e, l', split, before, after⟩ :=
    exists_cause (P := fun s => ¬D.live s x) absent (not_not_intro live)
  obtain ⟨inputs, _, -, -, same, -⟩ := trace_split split
  refine ⟨e, by simp [split], ?_⟩
  rw [same] at before after ⊢
  exact (D.live_born _ _ x (D.inv_run _ inv) (not_not.mp after)).resolve_left before

theorem issued_before (inv : D.Inv s) (absent : ∀ x, ¬D.live s x)
    (split : trace step s is = l ++ e :: l') (gone : D.spent e = some x) :
    ∃ d ∈ l, D.issued d = some x := by
  obtain ⟨before, _, -, rfl, same, -⟩ := trace_split split
  rw [same] at gone
  exact D.live_issued inv (absent x) (D.spent_live _ _ x (D.inv_run _ inv) gone)

/-! ### Records -/

/-- A record that only the step that issues `x` makes for `x` stays what that step made it. -/
theorem record_kept {record : σ → α → Option β} (inv : D.Inv s)
    (kept : ∀ s i x b, D.Inv s → record (step s i).1 x = some b →
      record s x = some b ∨ D.issued (entry step s i) = some x)
    (split : trace step s is = l ++ e :: l') (born : D.issued e = some x) {b b' : β}
    (made : record e.post x = some b) (later : record (run step s is) x = some b') : b' = b := by
  have stays : ∀ (is : List ι) (s : σ), D.Inv s → D.seen s x →
      record (run step s is) x = some b' → record s x = some b' := by
    intro is
    induction is with
    | nil => exact fun s _ _ now => now
    | cons i is ih =>
      intro s inv seen now
      rcases kept s i x b' inv
        (ih _ (D.inv_step s i inv) (D.seen_step s i x inv seen) now) with before | again
      · exact before
      · exact absurd seen (D.issued_fresh s i x inv again)
  obtain ⟨before, after, rfl, -, same, -⟩ := trace_split split
  have inv' := D.inv_run before inv
  rw [run_append, run_cons] at later
  have held := stays after _ (D.inv_step _ _ inv')
    (D.issued_seen _ _ x inv' (same ▸ born)) later
  rw [same] at made
  exact Option.some.inj (held.symm.trans made)

/-! ### Lineages -/

theorem heir_rightUnique (inv : D.Inv s) :
    Relator.RightUnique (Heir D.spent D.issued (trace step s is)) := by
  rintro x y z ⟨e, mem, gone, born⟩ ⟨d, mem', gone', born'⟩
  obtain rfl := D.spent_unique inv mem mem' gone gone'
  exact Option.some.inj (born.symm.trans born')

theorem unspent_end {history : List (Entry σ ι ο)} {y : α}
    (unspent : ∀ e ∈ history, D.spent e ≠ some x)
    (path : ReflTransGen (Heir D.spent D.issued history) x y) : x = y := by
  rcases ReflTransGen.cases_head path with same | ⟨_, ⟨e, mem, gone, -⟩, -⟩
  · exact same
  · exact absurd gone (unspent e mem)

theorem live_unspent (inv : D.Inv s) (live : D.live (run step s is) x) :
    ∀ e ∈ trace step s is, D.spent e ≠ some x :=
  fun _ mem gone => (D.dead_of_spent inv mem gone).2 live

theorem live_unique {first y : α} (inv : D.Inv s)
    (here : Lineage D.spent D.issued (trace step s is) first x)
    (there : Lineage D.spent D.issued (trace step s is) first y)
    (live : D.live (run step s is) x) (live' : D.live (run step s is) y) : x = y := by
  rcases ReflTransGen.total_of_right_unique (D.heir_rightUnique inv) here.2 there.2 with path | path
  · exact D.unspent_end (D.live_unspent inv live) path
  · exact (D.unspent_end (D.live_unspent inv live') path).symm

/-- The descent of a token seen at some time lies before that time. -/
theorem descent_before {before after : List ι} {y : α} (inv : D.Inv s)
    (seen : D.seen (run step s before) y)
    (path : ReflTransGen (Heir D.spent D.issued (trace step s (before ++ after))) x y) :
    ReflTransGen (Heir D.spent D.issued (trace step s before)) x y := by
  induction path with
  | refl => exact ReflTransGen.refl
  | tail _ link ih =>
    obtain ⟨e, mem, gone, born⟩ := link
    rw [trace_append, List.mem_append] at mem
    rcases mem with early | late
    · exact (ih (D.dead_of_spent inv early gone).1).tail ⟨e, early, gone, born⟩
    · exact absurd seen (D.fresh_of_issued (D.inv_run _ inv) late born)

section Records

variable {record : σ → α → Option β} {b b' : β} {first : α}
variable (kept : ∀ s i x b, D.Inv s → record (step s i).1 x = some b →
    record s x = some b ∨ D.issued (entry step s i) = some x)
  (passed : ∀ s i x y, D.Inv s → D.spent (entry step s i) = some x →
    D.issued (entry step s i) = some y → ∃ b, record s x = some b ∧ record (step s i).1 y = some b)

include kept passed in
/-- What a step passes on from a token to its heir is issued with the whole lineage. -/
theorem record_inherited (inv : D.Inv s) (absent : ∀ x, ¬D.live s x)
    (mem : d ∈ trace step s is) (born : D.issued d = some first)
    (made : record d.post first = some b)
    (path : ReflTransGen (Heir D.spent D.issued (trace step s is)) first x)
    (mem' : e ∈ trace step s is) (born' : D.issued e = some x) : record e.post x = some b := by
  induction path generalizing e with
  | refl => exact D.issued_unique inv mem mem' born born' ▸ made
  | @tail y z _ link ih =>
    obtain ⟨c, here, gone, heir⟩ := link
    obtain rfl := D.issued_unique inv here mem' heir born'
    obtain ⟨l, l', split⟩ := List.append_of_mem here
    obtain ⟨origin, early, origin_born⟩ := D.issued_before inv absent split gone
    have first_made := ih (by rw [split]; exact List.mem_append_left _ early) origin_born
    obtain ⟨before, _, -, rfl, same, -⟩ := trace_split split
    rw [same] at gone heir ⊢
    obtain ⟨b', held, given⟩ := passed _ _ _ _ (D.inv_run _ inv) gone heir
    obtain ⟨l₁, l₂, split'⟩ := List.append_of_mem early
    rw [← D.record_kept inv kept split' origin_born first_made held]
    exact given

include kept passed in
theorem lineage_record (inv : D.Inv s) (absent : ∀ x, ¬D.live s x)
    (mem : d ∈ trace step s is) (born : D.issued d = some first)
    (made : record d.post first = some b)
    (line : Lineage D.spent D.issued (trace step s is) first x)
    (now : record (run step s is) x = some b') : b' = b := by
  obtain ⟨e, mem', born'⟩ := lineage_issued line
  have made' := D.record_inherited kept passed inv absent mem born made line.2 mem' born'
  obtain ⟨l, l', split⟩ := List.append_of_mem mem'
  exact D.record_kept inv kept split born' made' now

end Records

/-- When the live token of a lineage dies unspent, no token of it is spent again. -/
theorem lineage_ended {first y : α} (inv : D.Inv s) (split : trace step s is = l ++ e :: l')
    (line : Lineage D.spent D.issued l first x) (live : D.live e.pre x) (dead : ¬D.live e.post x)
    (kept : D.spent e ≠ some x) (mem : d ∈ l')
    (other : Lineage D.spent D.issued (trace step s is) first y) : D.spent d ≠ some y := by
  obtain ⟨before, after, rfl, rfl, same, rfl⟩ := trace_split split
  have inv' := D.inv_run before inv
  have next : D.Inv e.post := by rw [same]; exact D.inv_step _ _ inv'
  have alive : D.live (run step s before) x := by rw [same] at live; exact live
  have seen := D.live_seen _ x inv' alive
  have seen' : D.seen e.post x := by rw [same]; exact D.seen_step _ _ x inv' seen
  have unspent : ∀ c ∈ trace step s (before ++ e.input :: after), D.spent c ≠ some x := by
    rw [split]
    intro c here
    rcases List.mem_append.mp here with early | late
    · exact D.live_unspent inv alive c early
    · rcases List.mem_cons.mp late with rfl | late
      · exact kept
      · exact D.unspent_of_dead next seen' dead late
  have path : ReflTransGen (Heir D.spent D.issued (trace step s (before ++ e.input :: after)))
      first x := by
    apply heir_mono _ line.2
    rw [split]
    exact List.subset_append_left _ _
  rcases ReflTransGen.total_of_right_unique (D.heir_rightUnique inv) path other.2 with down | up
  · obtain rfl := D.unspent_end unspent down
    exact D.unspent_of_dead next seen' dead mem
  · rcases ReflTransGen.cases_head (D.descent_before inv seen up) with rfl | ⟨_, link, -⟩
    · exact D.unspent_of_dead next seen' dead mem
    · obtain ⟨c, early, gone, -⟩ := link
      have gone' := D.dead_of_spent inv early gone
      refine D.unspent_of_dead next ?_ ?_ mem
      · rw [same]; exact D.seen_step _ _ y inv' gone'.1
      · rw [same]; exact D.dead_run [e.input] inv' gone'.1 gone'.2

end Discipline

end BtApiSecurity.OneTime
