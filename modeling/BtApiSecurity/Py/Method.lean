import Mathlib.Data.Rat.Init
import Mathlib.Logic.Basic

/-!
# Methods

A method body reads and writes its object and may raise. What it wrote before it
raised stays written. Checks that write nothing are plain `Except` values.
-/

namespace BtApiSecurity.Py

universe u
variable {σ ε α β : Type u}

/-- Seconds since the epoch. A method reads the clock once. -/
abbrev Time := Rat

/-! ### Checks -/

def ensure (ok : Prop) [Decidable ok] (error : ε) : Except ε Unit :=
  if ok then .ok () else .error error

def orRaise (found : Option α) (error : ε) : Except ε α :=
  match found with
  | some a => .ok a
  | none => .error error

theorem check_bind_ok {x : Except ε α} {f : α → Except ε β} {b : β} :
    (x >>= f) = .ok b ↔ ∃ a, x = .ok a ∧ f a = .ok b := by
  cases x <;> simp [bind, Except.bind]

@[simp] theorem ok_bind {a : α} {f : α → Except ε β} : (Except.ok a >>= f) = f a := rfl

@[simp] theorem error_bind {e : ε} {f : α → Except ε β} : (Except.error e >>= f) = .error e := rfl

@[simp] theorem orRaise_some {a : α} {error : ε} : orRaise (some a) error = .ok a := rfl

@[simp] theorem orRaise_none {error : ε} : orRaise (none : Option α) error = .error error := rfl

@[simp] theorem pure_ok {a b : α} : (pure a : Except ε α) = .ok b ↔ a = b := by
  simp [pure, Except.pure]

theorem discard_ok {ε α : Type} {x : Except ε α} :
    (fun _ => ()) <$> x = Except.ok () ↔ ∃ a, x = .ok a := by
  cases x <;> simp [Functor.map, Except.map]

@[simp] theorem ensure_ok {ok : Prop} [Decidable ok] {error : ε} {u : Unit} :
    ensure ok error = .ok u ↔ ok := by
  unfold ensure; split <;> simp_all

@[simp] theorem orRaise_ok {found : Option α} {error : ε} {a : α} :
    orRaise found error = .ok a ↔ found = some a := by
  cases found <;> simp [orRaise]

/-! ### Methods -/

def Method (σ ε α : Type u) : Type u := σ → Except ε α × σ

namespace Method

def run (m : Method σ ε α) (s : σ) : Except ε α × σ := m s

instance : Monad (Method σ ε) where
  pure a := fun s => (.ok a, s)
  bind m f := fun s =>
    match m s with
    | (.ok a, t) => f a t
    | (.error e, t) => (.error e, t)

def read : Method σ ε σ := fun s => (.ok s, s)

def update (f : σ → σ) : Method σ ε PUnit := fun s => (.ok ⟨⟩, f s)

def check (x : Except ε α) : Method σ ε α := fun s => (x, s)

/-- How the method ends, as a value. -/
def ending (m : Method σ ε α) : Method σ ε (Except ε α) := fun s => (.ok (m s).1, (m s).2)

@[simp] theorem run_pure (a : α) (s : σ) : (pure a : Method σ ε α).run s = (.ok a, s) := rfl

@[simp] theorem run_read (s : σ) : (read : Method σ ε σ).run s = (.ok s, s) := rfl

@[simp] theorem run_update (f : σ → σ) (s : σ) :
    (update f : Method σ ε PUnit).run s = (.ok ⟨⟩, f s) := rfl

@[simp] theorem run_check (x : Except ε α) (s : σ) : (check x : Method σ ε α).run s = (x, s) := rfl

theorem run_bind (m : Method σ ε α) (f : α → Method σ ε β) (s : σ) :
    (m >>= f).run s =
      match m.run s with
      | (.ok a, t) => (f a).run t
      | (.error e, t) => (.error e, t) := rfl

theorem run_map (f : α → β) (m : Method σ ε α) (s : σ) :
    (f <$> m).run s =
      match m.run s with
      | (.ok a, t) => (.ok (f a), t)
      | (.error e, t) => (.error e, t) := rfl

theorem run_map_fst (f : α → β) (m : Method σ ε α) (s : σ) : ((f <$> m).run s).1 = (m.run s).1.map f := by
  rw [run_map]
  cases m.run s with
  | mk x t => cases x <;> rfl

theorem run_map_snd (f : α → β) (m : Method σ ε α) (s : σ) :
    ((f <$> m).run s).2 = (m.run s).2 := by
  rw [run_map]
  split <;> simp_all

theorem run_map_ok (f : α → β) {m : Method σ ε α} {s : σ} {a : α} (returns : (m.run s).1 = .ok a) :
    ((f <$> m).run s).1 = .ok (f a) := by
  rw [run_map]
  split
  · rename_i run
    rw [run] at returns
    rw [Except.ok.inj returns]
  · rename_i run
    rw [run] at returns
    cases returns

/-! ### Postconditions -/

/-- The method, called in `s`, leaves a state that satisfies `P`, also where it raises, and what
it returns satisfies `Q`. -/
structure Ends (m : Method σ ε α) (s : σ) (P : σ → Prop) (Q : α → σ → Prop) : Prop where
  state : P (m.run s).2
  value : ∀ a, (m.run s).1 = .ok a → Q a (m.run s).2

variable {s t : σ} {P P' : σ → Prop} {Q Q' : α → σ → Prop} {R : β → σ → Prop}

theorem ends_return {m : Method σ ε α} {a : α} (run : m.run s = (.ok a, t)) (state : P t)
    (value : Q a t) : m.Ends s P Q := by
  constructor
  · rw [run]
    exact state
  · intro a' ok
    rw [run] at ok ⊢
    obtain rfl := Except.ok.inj ok
    exact value

theorem ends_raise {m : Method σ ε α} {e : ε} (run : m.run s = (.error e, t)) (state : P t) :
    m.Ends s P Q := by
  constructor
  · rw [run]
    exact state
  · intro a ok
    rw [run] at ok
    cases ok

theorem Ends.mono {m : Method σ ε α} (ends : m.Ends s P Q) (state : ∀ t, P t → P' t)
    (value : ∀ a t, P t → Q a t → Q' a t) : m.Ends s P' Q' :=
  ⟨state _ ends.state, fun a ok => value a _ ends.state (ends.value a ok)⟩

/-- The second method goes on from whatever the first may leave and return. -/
theorem Ends.bind {m : Method σ ε α} {f : α → Method σ ε β} (first : m.Ends s P Q)
    (next : ∀ a t, P t → Q a t → (f a).Ends t P R) : (m >>= f).Ends s P R := by
  obtain ⟨state, value⟩ := first
  cases run : m.run s with
  | mk result t =>
    rw [run] at state value
    cases result with
    | ok a =>
      have rest := next a t state (value a rfl)
      have whole : (m >>= f).run s = (f a).run t := by rw [run_bind, run]
      constructor
      · rw [whole]
        exact rest.state
      · rw [whole]
        exact rest.value
    | error e => exact ends_raise (by rw [run_bind, run]) state

theorem ends_read {f : σ → Method σ ε α} (rest : (f s).Ends s P Q) : (read >>= f).Ends s P Q :=
  ⟨rest.state, rest.value⟩

@[simp] theorem check_ok_bind (a : α) (f : α → Method σ ε β) : (check (.ok a) >>= f) = f a := rfl

@[simp] theorem check_error_bind (e : ε) (f : α → Method σ ε β) :
    (check (.error e) >>= f) = check (.error e) := rfl

/-! ### Two runs -/

/-- `m`, called in `s`, and `m'`, called in `s'`, leave states related by `R`, and return the same
or both raise. -/
structure Agrees (m m' : Method σ ε α) (s s' : σ) (R : σ → σ → Prop) : Prop where
  state : R (m.run s).2 (m'.run s').2
  value : ∀ a, (m.run s).1 = .ok a ↔ (m'.run s').1 = .ok a

variable {s' : σ} {R : σ → σ → Prop}

theorem agrees_pure (a : α) (related : R s s') : (pure a : Method σ ε α).Agrees (pure a) s s' R :=
  ⟨related, fun _ => Iff.rfl⟩

theorem agrees_check {x x' : Except ε α} (related : R s s') (alike : ∀ a, x = .ok a ↔ x' = .ok a) :
    (check x : Method σ ε α).Agrees (check x') s s' R :=
  ⟨related, alike⟩

theorem agrees_update {f g : σ → σ} (related : R (f s) (g s')) :
    (update f : Method σ ε PUnit).Agrees (update g) s s' R :=
  ⟨related, fun _ => Iff.rfl⟩

theorem agrees_read {f g : σ → Method σ ε α} (rest : (f s).Agrees (g s') s s' R) :
    (read >>= f).Agrees (read >>= g) s s' R :=
  ⟨rest.state, rest.value⟩

/-- The second methods go on from related states with what the first both returned. -/
theorem Agrees.bind {m m' : Method σ ε α} {f f' : α → Method σ ε β} (first : m.Agrees m' s s' R)
    (next : ∀ a t t', R t t' → (f a).Agrees (f' a) t t' R) :
    (m >>= f).Agrees (m' >>= f') s s' R := by
  obtain ⟨state, value⟩ := first
  cases run : m.run s with
  | mk result t =>
    cases run' : m'.run s' with
    | mk result' t' =>
      rw [run, run'] at state value
      cases result with
      | ok a =>
        obtain rfl : result' = .ok a := (value a).mp rfl
        have rest := next a t t' state
        have whole : (m >>= f).run s = (f a).run t := by rw [run_bind, run]
        have whole' : (m' >>= f').run s' = (f' a).run t' := by rw [run_bind, run']
        constructor
        · rw [whole, whole']
          exact rest.state
        · rw [whole, whole']
          exact rest.value
      | error e =>
        cases result' with
        | ok a => cases (value a).mpr rfl
        | error e' =>
          have whole : (m >>= f).run s = (.error e, t) := by rw [run_bind, run]
          have whole' : (m' >>= f').run s' = (.error e', t') := by rw [run_bind, run']
          constructor
          · rw [whole, whole']
            exact state
          · intro b
            rw [whole, whole']
            simp

theorem Agrees.map {m m' : Method σ ε α} (f : α → β) (first : m.Agrees m' s s' R) :
    (f <$> m).Agrees (f <$> m') s s' R :=
  first.bind fun a _ _ related => agrees_pure (f a) related

/-! ### Two stores -/

/-- From states related by `R` the methods end alike, and leave related states. -/
def Simulates {τ : Type u} (R : σ → τ → Prop) (m : Method σ ε α) (m' : Method τ ε α) : Prop :=
  ∀ s t, R s t → (m'.run t).1 = (m.run s).1 ∧ R (m.run s).2 (m'.run t).2

section
variable {τ : Type u} {R : σ → τ → Prop}

theorem Simulates.ending {m : Method σ ε α} {m' : Method τ ε α} (alike : Simulates R m m') :
    Simulates R m.ending m'.ending := by
  intro s t related
  obtain ⟨same, next⟩ := alike s t related
  exact ⟨congrArg Except.ok same, next⟩

theorem Simulates.bind {m : Method σ ε α} {m' : Method τ ε α} {f : α → Method σ ε β}
    {f' : α → Method τ ε β} (first : Simulates R m m') (rest : ∀ a, Simulates R (f a) (f' a)) :
    Simulates R (m >>= f) (m' >>= f') := by
  intro s t related
  obtain ⟨same, next⟩ := first s t related
  rw [run_bind, run_bind]
  cases run : m.run s with
  | mk result s' =>
    cases run' : m'.run t with
    | mk result' t' =>
      rw [run, run'] at same next
      obtain rfl : result' = result := same
      cases result' with
      | ok a => exact rest a s' t' next
      | error e => exact ⟨rfl, next⟩

end

end Method

end BtApiSecurity.Py
