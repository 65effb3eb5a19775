import BtApiSecurity.Py.Dict

/-!
# Signatures and calls

How the arguments of a call reach the parameters of a function. A positional-only
parameter takes no keyword: one of its name goes to the `**` parameter, if there is one.
-/

namespace BtApiSecurity.Py

structure Parameter (ω : Type) where
  name : String
  default : Option ω

structure Signature (ω : Type) where
  positionalOnly : List (Parameter ω)
  ordinary : List (Parameter ω)
  /-- There is a parameter `*args`. -/
  varArgs : Bool
  keywordOnly : List (Parameter ω)
  /-- There is a parameter `**kwargs`. -/
  varKeywords : Bool
  distinct : ((positionalOnly ++ ordinary ++ keywordOnly).map (·.name)).Nodup

structure Call (ω : Type) where
  args : List ω
  kwargs : Dict String ω

/-- The local variables with which the body starts. -/
structure Bound (ω : Type) where
  parameters : Dict String ω
  args : List ω
  kwargs : Dict String ω

variable {ω : Type}

/-! ### Binding -/

theorem zip_fst_sublist {α β : Type} (xs : List α) (ys : List β) :
    ((xs.zip ys).map Prod.fst).Sublist xs := by
  induction xs generalizing ys with
  | nil => exact List.Sublist.refl _
  | cons x xs ih =>
    cases ys with
    | nil => exact List.nil_sublist _
    | cons y ys => exact (ih ys).cons_cons x

namespace Signature
variable (sig : Signature ω)

def positional : List String := (sig.positionalOnly ++ sig.ordinary).map (·.name)

def keywords : List String := (sig.ordinary ++ sig.keywordOnly).map (·.name)

theorem nodup_positional : sig.positional.Nodup := by
  have distinct := sig.distinct
  rw [List.map_append] at distinct
  exact (List.nodup_append.mp distinct).1

/-- The positional arguments, each at the parameter in its place. -/
def placed (args : List ω) : Dict String ω :=
  ⟨sig.positional.zip args, sig.nodup_positional.sublist (zip_fst_sublist sig.positional args)⟩

def bindKeyword (bound : Bound ω) (item : String × ω) : Option (Bound ω) :=
  if item.1 ∈ sig.keywords then
    if (bound.parameters.get? item.1).isSome then none
    else some { bound with parameters := bound.parameters.set item.1 item.2 }
  else if sig.varKeywords then some { bound with kwargs := bound.kwargs.set item.1 item.2 }
  else none

def fillDefault (parameters : Dict String ω) (parameter : Parameter ω) : Option (Dict String ω) :=
  match parameters.get? parameter.name with
  | some _ => some parameters
  | none => parameter.default.map fun x => parameters.set parameter.name x

/-- `none` is a `TypeError`. -/
def bind (call : Call ω) : Option (Bound ω) := do
  let rest := call.args.drop sig.positional.length
  let bound ← call.kwargs.entries.foldlM sig.bindKeyword ⟨sig.placed call.args, rest, .empty⟩
  if !rest.isEmpty && !sig.varArgs then none
  else
    let parameters ← (sig.positionalOnly ++ sig.ordinary ++ sig.keywordOnly).foldlM fillDefault
      bound.parameters
    return { bound with parameters }

/-- The call passes this for the parameter, by position or by keyword. -/
def Supplies (call : Call ω) (name : String) (x : ω) : Prop :=
  (name, x) ∈ sig.positional.zip call.args ∨ name ∈ sig.keywords ∧ call.kwargs.get? name = some x

end Signature

/-! ### What a parameter is bound to -/

/-- No parameter that has a value loses it or gets another. -/
def Settled (before after : Dict String ω) : Prop :=
  ∀ name x, before.get? name = some x → after.get? name = some x

namespace Signature
variable {sig : Signature ω}

theorem settled_set {parameters : Dict String ω} {name : String}
    (free : parameters.get? name = none) (x : ω) : Settled parameters (parameters.set name x) := by
  intro other y found
  have different : name ≠ other := by
    intro same
    rw [same, found] at free
    cases free
  rw [Dict.get?_set_of_ne _ _ different]
  exact found

theorem settled_bindKeyword {bound after : Bound ω} {item : String × ω}
    (binds : sig.bindKeyword bound item = some after) : Settled bound.parameters after.parameters := by
  unfold bindKeyword at binds
  split at binds
  · split at binds
    · cases binds
    · rename_i free
      obtain rfl := Option.some.inj binds
      exact settled_set (Option.not_isSome_iff_eq_none.mp free) _
  · split at binds
    · obtain rfl := Option.some.inj binds
      exact fun _ _ found => found
    · cases binds

theorem settled_fillDefault {parameters after : Dict String ω} {parameter : Parameter ω}
    (fills : fillDefault parameters parameter = some after) : Settled parameters after := by
  unfold fillDefault at fills
  split at fills
  · obtain rfl := Option.some.inj fills
    exact fun _ _ found => found
  · rename_i free
    obtain ⟨x, _, rfl⟩ := Option.map_eq_some_iff.mp fills
    exact settled_set free x

/-- A loop none of whose turns changes a value. -/
theorem settled_foldlM {σ α : Type} {f : σ → α → Option σ} (parameters : σ → Dict String ω)
    (step : ∀ s a t, f s a = some t → Settled (parameters s) (parameters t)) {items : List α} {s t : σ}
    (run : items.foldlM f s = some t) : Settled (parameters s) (parameters t) := by
  induction items generalizing s with
  | nil =>
    obtain rfl := Option.some.inj run
    exact fun _ _ found => found
  | cons item items ih =>
    rw [List.foldlM_cons] at run
    obtain ⟨next, first, rest⟩ := Option.bind_eq_some_iff.mp run
    exact fun name x found => ih rest name x (step s item next first name x found)

theorem get?_bindKeyword {bound after : Bound ω} {name : String} {x : ω} (keyword : name ∈ sig.keywords)
    (binds : sig.bindKeyword bound (name, x) = some after) : after.parameters.get? name = some x := by
  simp only [bindKeyword, if_pos keyword] at binds
  split at binds
  · cases binds
  · obtain rfl := Option.some.inj binds
    exact Dict.get?_set_self _ name x

theorem get?_bindKeywords {items : List (String × ω)} {bound after : Bound ω} {name : String} {x : ω}
    (keyword : name ∈ sig.keywords) (mem : (name, x) ∈ items)
    (run : items.foldlM sig.bindKeyword bound = some after) : after.parameters.get? name = some x := by
  obtain ⟨before, rest, rfl⟩ := List.append_of_mem mem
  rw [List.foldlM_append, Option.bind_eq_bind, Option.bind_eq_some_iff] at run
  obtain ⟨reached, _, run⟩ := run
  rw [List.foldlM_cons] at run
  obtain ⟨next, binds, run⟩ := Option.bind_eq_some_iff.mp run
  have settled := settled_foldlM (·.parameters) (fun _ _ _ => settled_bindKeyword) run
  exact settled name x (get?_bindKeyword keyword binds)

/-- The body sees what the call has passed. -/
theorem get?_bind {call : Call ω} {bound : Bound ω} {name : String} {x : ω}
    (binds : sig.bind call = some bound) (supplies : sig.Supplies call name x) :
    bound.parameters.get? name = some x := by
  obtain ⟨named, keywords, rest⟩ := Option.bind_eq_some_iff.mp binds
  split at rest
  · cases rest
  · obtain ⟨parameters, filled, done⟩ := Option.bind_eq_some_iff.mp rest
    obtain rfl := Option.some.inj done
    have defaults : Settled named.parameters parameters :=
      settled_foldlM id (fun _ _ _ => settled_fillDefault) filled
    apply defaults
    obtain positional | ⟨keyword, passed⟩ := supplies
    · have settled := settled_foldlM (·.parameters) (fun _ _ _ => settled_bindKeyword) keywords
      exact settled name x ((Dict.mem_entries _).mp positional)
    · exact get?_bindKeywords keyword ((Dict.mem_entries _).mpr passed) keywords

end Signature

end BtApiSecurity.Py
