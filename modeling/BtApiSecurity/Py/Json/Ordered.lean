import Mathlib.Data.String.Basic
import BtApiSecurity.Py.Json.Canonical

/-!
# Keys whose texts are in order

JSON turns every key into a string. The canonical text of a value is the same
before and after a round trip if and only if the keys of every dictionary, sorted
as they are, have texts in strictly increasing order.
-/

namespace BtApiSecurity.Py

def Key.text (k : Key) : String := String.ofList k.chars

mutual

/-- The texts of the keys of every dictionary are in strictly increasing order. -/
def Value.increasing : Value → Bool
  | .list xs | .tuple xs => increasingAll xs
  | .dict items =>
    decide ((items.map fun item => item.1.text).Pairwise (· < ·)) && increasingItems items
  | _ => true

def increasingAll : List Value → Bool
  | [] => true
  | x :: xs => x.increasing && increasingAll xs

def increasingItems : List (Key × Value) → Bool
  | [] => true
  | (_, x) :: items => x.increasing && increasingItems items

end

/-- Sorting the keys of a dictionary and sorting their texts gives the same strict order. -/
def Value.Ordered (v : Value) : Prop := v.sortKeys.increasing = true

instance (v : Value) : Decidable v.Ordered := inferInstanceAs (Decidable (_ = _))

theorem increasingAll_iff {xs : List Value} :
    increasingAll xs = true ↔ ∀ x ∈ xs, x.increasing = true := by
  induction xs with
  | nil => simp [increasingAll]
  | cons x xs ih => simp [increasingAll, ih]

theorem increasingItems_iff {items : List (Key × Value)} :
    increasingItems items = true ↔ ∀ item ∈ items, item.2.increasing = true := by
  induction items with
  | nil => simp [increasingItems]
  | cons item items ih => simp [increasingItems, ih]

theorem increasing_dict {items : List (Key × Value)} :
    (Value.dict items).increasing = true ↔
      (items.map fun item => item.1.text).Pairwise (· < ·) ∧
        ∀ item ∈ items, item.2.increasing = true := by
  simp [Value.increasing, increasingItems_iff]

theorem imageAll_eq (xs : List Value) : imageAll xs = xs.map Value.image := by
  induction xs with
  | nil => rfl
  | cons x xs ih => rw [imageAll, ih, List.map_cons]

theorem keys_imageItems (items : List (Key × Value)) :
    (imageItems items).map Prod.fst = (items.map fun item => item.1.text).map Key.str := by
  simp [imageItems_eq, Key.text]

theorem nodup_texts_iff {items : List (Key × Value)} :
    ((imageItems items).map Prod.fst).Nodup ↔ (items.map fun item => item.1.text).Nodup := by
  rw [keys_imageItems]
  exact List.nodup_map_iff fun _ _ same => Key.str.inj same

theorem image_dict {items : List (Key × Value)} (nodup : (items.map fun item => item.1.text).Nodup) :
    (Value.dict items).image = .dict (imageItems items) := by
  rw [Value.image, fromPairs_of_nodup (nodup_texts_iff.mpr nodup)]

/-! ### Keys in order stay in order -/

theorem sorted_imageItems {items : List (Key × Value)}
    (increasing : (items.map fun item => item.1.text).Pairwise (· < ·)) :
    (imageItems items).Pairwise fun x y => x.1.le y.1 = true := by
  rw [imageItems_eq, List.pairwise_map]
  rw [List.pairwise_map] at increasing
  refine increasing.imp ?_
  intro x y less
  simpa [Key.le, Key.text] using le_of_lt less

theorem sortKeys_image {v : Value} (increasing : v.increasing = true) :
    v.image.sortKeys = v.image := by
  induction v using Value.induct with
  | none | bool | int | float | str => rfl
  | list xs ih | tuple xs ih =>
    unfold Value.increasing at increasing
    rw [increasingAll_iff] at increasing
    simp only [Value.image, Value.sortKeys, sortKeysAll_eq, imageAll_eq, List.map_map,
      Value.list.injEq]
    exact List.map_congr_left fun x h => ih x h (increasing x h)
  | dict items ih =>
    obtain ⟨keys, values⟩ := increasing_dict.mp increasing
    have inner : sortKeysItems (imageItems items) = imageItems items := by
      rw [sortKeysItems_eq, imageItems_eq, List.map_map]
      exact List.map_congr_left fun item h => by
        simp only [Function.comp_apply, ih item h (values item h)]
    rw [image_dict (keys.imp ne_of_lt), Value.sortKeys, inner,
      List.mergeSort_of_pairwise (sorted_imageItems keys)]

theorem renderElements_imageAll (st : Layout) (level : Nat) {xs : List Value}
    (same : ∀ x ∈ xs, x.image.render st level = x.render st level) :
    renderElements st level (imageAll xs) = renderElements st level xs := by
  induction xs with
  | nil => rfl
  | cons x xs ih =>
    rw [imageAll, renderElements, renderElements, same x List.mem_cons_self,
      ih fun y h => same y (List.mem_cons_of_mem x h)]

theorem renderItems_imageItems (st : Layout) (level : Nat) {items : List (Key × Value)}
    (same : ∀ item ∈ items, item.2.image.render st level = item.2.render st level) :
    renderItems st level (imageItems items) = renderItems st level items := by
  induction items with
  | nil => rfl
  | cons item items ih =>
    obtain ⟨k, x⟩ := item
    have first : x.image.render st level = x.render st level := same (k, x) List.mem_cons_self
    rw [imageItems, renderItems, renderItems, first, Key.chars, String.toList_ofList,
      ih fun item h => same item (List.mem_cons_of_mem _ h)]

theorem render_image (st : Layout) {v : Value} (increasing : v.increasing = true) :
    ∀ level, v.image.render st level = v.render st level := by
  induction v using Value.induct with
  | none | bool | int | float | str => exact fun _ => rfl
  | list xs ih | tuple xs ih =>
    intro level
    unfold Value.increasing at increasing
    rw [increasingAll_iff] at increasing
    cases xs with
    | nil => rfl
    | cons x xs =>
      have each := fun y h => ih y h (increasing y h) (level + 1)
      rw [Value.image, imageAll, Value.render, Value.render, each x List.mem_cons_self,
        renderElements_imageAll st _ fun y h => each y (List.mem_cons_of_mem x h)]
  | dict items ih =>
    intro level
    obtain ⟨keys, values⟩ := increasing_dict.mp increasing
    rw [image_dict (keys.imp ne_of_lt)]
    cases items with
    | nil => rfl
    | cons item items =>
      obtain ⟨k, x⟩ := item
      have each := fun item h => ih item h (values item h) (level + 1)
      have first : x.image.render st (level + 1) = x.render st (level + 1) :=
        each (k, x) List.mem_cons_self
      rw [imageItems, Value.render, Value.render, first, Key.chars, String.toList_ofList,
        renderItems_imageItems st _ fun item h => each item (List.mem_cons_of_mem _ h)]

/-! ### Lengths -/

/-- What an item adds to the text of its dictionary, the separator included. -/
def itemLength (level : Nat) (item : Key × Value) : Nat :=
  (quote item.1.chars).length + (item.2.render compact level).length + 4

def elementLength (level : Nat) (x : Value) : Nat := (x.render compact level).length + 2

theorem itemLength_pos (level : Nat) (item : Key × Value) : 0 < itemLength level item :=
  Nat.succ_pos _

theorem length_renderElements (level : Nat) (xs : List Value) :
    (renderElements compact level xs).length = (xs.map (elementLength level)).sum := by
  induction xs with
  | nil => rfl
  | cons x xs ih =>
    simp only [renderElements, compact, Layout.separator, List.length_append, List.length_cons,
      List.length_nil, List.map_cons, List.sum_cons, elementLength] at ih ⊢
    omega

theorem length_renderItems (level : Nat) (items : List (Key × Value)) :
    (renderItems compact level items).length = (items.map (itemLength level)).sum := by
  induction items with
  | nil => rfl
  | cons item items ih =>
    obtain ⟨k, x⟩ := item
    simp only [renderItems, compact, Layout.separator, List.length_append, List.length_cons,
      List.length_nil, List.map_cons, List.sum_cons, itemLength] at ih ⊢
    omega

theorem length_list (level : Nat) (xs : List Value) :
    ((Value.list xs).render compact level).length =
      max 2 (xs.map (elementLength (level + 1))).sum := by
  cases xs with
  | nil => rfl
  | cons x xs =>
    have rest := length_renderElements (level + 1) xs
    simp only [Value.render, compact, Layout.newline, List.length_append, List.length_cons,
      List.length_nil, List.map_cons, List.sum_cons, elementLength] at rest ⊢
    omega

theorem length_dict (level : Nat) (items : List (Key × Value)) :
    ((Value.dict items).render compact level).length =
      max 2 (items.map (itemLength (level + 1))).sum := by
  cases items with
  | nil => rfl
  | cons item items =>
    obtain ⟨k, x⟩ := item
    have rest := length_renderItems (level + 1) items
    simp only [Value.render, compact, Layout.newline, List.length_append, List.length_cons,
      List.length_nil, List.map_cons, List.sum_cons, itemLength] at rest ⊢
    omega

theorem sum_map_le {α : Type*} {f g : α → Nat} {xs : List α} (le : ∀ x ∈ xs, f x ≤ g x) :
    (xs.map f).sum ≤ (xs.map g).sum ∧
      ((xs.map f).sum = (xs.map g).sum → ∀ x ∈ xs, f x = g x) := by
  induction xs with
  | nil => simp
  | cons x xs ih =>
    obtain ⟨first, rest⟩ := List.forall_mem_cons.mp le
    obtain ⟨bound, equal⟩ := ih rest
    simp only [List.map_cons, List.sum_cons, List.forall_mem_cons]
    refine ⟨by omega, ?_⟩
    intro same
    exact ⟨by omega, equal (by omega)⟩

/-! ### Only keys in order survive -/

theorem record_injective {fields fields' : List (String × Value)}
    (same : Value.record fields = .record fields') : fields = fields' := by
  refine List.map_injective_iff.mpr ?_ (Value.dict.inj same)
  rintro ⟨s, v⟩ ⟨s', v'⟩ equal
  simpa using equal

/-- A record that sorting leaves alone has its names in strict order, and sorted values. -/
theorem sorted_of_fixed {fields : List (String × Value)} (nodup : (fields.map Prod.fst).Nodup)
    (fixed : (Value.record fields).sortKeys = .record fields) :
    (fields.map Prod.fst).Pairwise (· < ·) ∧ ∀ field ∈ fields, field.2.sortKeys = field.2 := by
  rw [sortKeys_record] at fixed
  have same := record_injective fixed
  have by_name : fields.Pairwise (byName · ·) := same ▸ pairwise_sortFields _
  have names : (fields.map Prod.fst).Pairwise (· ≤ ·) := by
    rw [List.pairwise_map]
    exact by_name.imp fun le => by simpa [byName] using le
  have mapped : (mapFields Value.sortKeys fields).Pairwise (byName · ·) := by
    unfold mapFields
    rw [List.pairwise_map]
    exact by_name
  rw [sortFields, List.mergeSort_of_pairwise mapped] at same
  refine ⟨names.imp₂ (fun _ _ le ne => lt_of_le_of_ne le ne) nodup, ?_⟩
  have each := List.map_inj_left.mp (same.trans (List.map_id' fields).symm)
  intro field h
  exact congrArg Prod.snd (each field h)

theorem imageItems_record (items : List (Key × Value)) :
    Value.dict (imageItems items) = .record (items.map fun item => (item.1.text, item.2.image)) := by
  simp [imageItems_eq, Value.record, Key.text]

/-- The image is no longer than the value, and shorter where a dictionary has two keys with one
text; a sorted image of the same length comes from keys in order. -/
structure Shrinks (v : Value) (level : Nat) : Prop where
  le : (v.image.render compact level).length ≤ (v.render compact level).length
  ordered : (v.image.render compact level).length = (v.render compact level).length →
    v.image.sortKeys = v.image → v.increasing = true

theorem shrinks_list {level : Nat} {xs : List Value} (ih : ∀ x ∈ xs, Shrinks x (level + 1)) :
    Shrinks (.list xs) level := by
  have each : ∀ x ∈ xs, elementLength (level + 1) x.image ≤ elementLength (level + 1) x :=
    fun x h => Nat.add_le_add_right (ih x h).le 2
  obtain ⟨bound, equal⟩ := sum_map_le each
  have image : (Value.list xs).image = .list (xs.map Value.image) := by
    rw [Value.image, imageAll_eq]
  have sums : ((xs.map Value.image).map (elementLength (level + 1))).sum =
      (xs.map fun x => elementLength (level + 1) x.image).sum := by
    rw [List.map_map]
    rfl
  constructor
  · rw [image, length_list, length_list, sums]
    omega
  · intro lengths fixed
    rw [image, length_list, length_list, sums] at lengths
    rw [image, Value.sortKeys, sortKeysAll_eq, List.map_map, Value.list.injEq,
      List.map_inj_left] at fixed
    rw [Value.increasing, increasingAll_iff]
    intro x h
    have filled : 2 ≤ (xs.map fun x => elementLength (level + 1) x.image).sum := by
      cases xs with
      | nil => cases h
      | cons y ys =>
        simp only [List.map_cons, List.sum_cons, elementLength]
        omega
    have same := equal (by omega) x h
    simp only [elementLength] at same
    exact (ih x h).ordered (by omega) (fixed x h)

theorem render_tuple (st : Layout) (level : Nat) (xs : List Value) :
    (Value.tuple xs).render st level = (Value.list xs).render st level := by
  cases xs with
  | nil => rfl
  | cons x xs => rw [Value.render, Value.render]

theorem shrinks_tuple {level : Nat} {xs : List Value} (shrinks : Shrinks (.list xs) level) :
    Shrinks (.tuple xs) level := by
  have image : (Value.tuple xs).image = (Value.list xs).image := by rw [Value.image, Value.image]
  have increasing : (Value.tuple xs).increasing = (Value.list xs).increasing := by
    rw [Value.increasing, Value.increasing]
  constructor
  · rw [image, render_tuple]
    exact shrinks.le
  · rw [image, render_tuple, increasing]
    exact shrinks.ordered

theorem shrinks_dict {level : Nat} {items : List (Key × Value)}
    (ih : ∀ item ∈ items, Shrinks item.2 (level + 1)) : Shrinks (.dict items) level := by
  have each : ∀ item ∈ items,
      itemLength (level + 1) (.str item.1.text, item.2.image) ≤ itemLength (level + 1) item := by
    intro item h
    have shorter := (ih item h).le
    simp only [itemLength, Key.chars, Key.text, String.toList_ofList]
    omega
  obtain ⟨bound, equal⟩ := sum_map_le each
  have sums : ((imageItems items).map (itemLength (level + 1))).sum =
      (items.map fun item => itemLength (level + 1) (.str item.1.text, item.2.image)).sum := by
    rw [imageItems_eq, List.map_map]
    rfl
  obtain ⟨lost, distinct⟩ := sum_fromPairs (itemLength (level + 1)) (itemLength_pos _) (imageItems items)
  rw [sums] at lost distinct
  constructor
  · rw [Value.image, length_dict, length_dict]
    omega
  · intro lengths fixed
    rw [Value.image, length_dict, length_dict] at lengths
    rw [increasing_dict]
    cases items with
    | nil => exact ⟨List.Pairwise.nil, by simp⟩
    | cons item items =>
      have filled : 3 ≤ ((item :: items).map (itemLength (level + 1))).sum := by
        simp only [List.map_cons, List.sum_cons, itemLength]
        omega
      have nodup := nodup_texts_iff.mp (distinct (by omega))
      have names : (((item :: items).map fun item => (item.1.text, item.2.image)).map Prod.fst) =
          (item :: items).map fun item => item.1.text := by
        rw [List.map_map]
        rfl
      rw [image_dict nodup, imageItems_record] at fixed
      obtain ⟨keys, values⟩ := sorted_of_fixed (by rw [names]; exact nodup) fixed
      rw [names] at keys
      refine ⟨keys, ?_⟩
      intro entry h
      have same := equal (by omega) entry h
      simp only [itemLength, Key.chars, Key.text, String.toList_ofList] at same
      exact (ih entry h).ordered (by omega) (values _ (List.mem_map.mpr ⟨entry, h, rfl⟩))

theorem shrinks (v : Value) : ∀ level, Shrinks v level := by
  induction v using Value.induct with
  | none | bool | int | float | str => exact fun _ => ⟨Nat.le_refl _, fun _ _ => rfl⟩
  | list xs ih => exact fun level => shrinks_list fun x h => ih x h (level + 1)
  | tuple xs ih => exact fun level => shrinks_tuple (shrinks_list fun x h => ih x h (level + 1))
  | dict items ih => exact fun level => shrinks_dict fun item h => ih item h (level + 1)

/-- What came out of JSON is in order. -/
theorem ordered_of_isJson {v : Value} (json : v.isJson = true) : v.Ordered := by
  have image : v.sortKeys.image = v.sortKeys := image_of_isJson (isJson_sortKeys json)
  refine (shrinks v.sortKeys 0).ordered (by rw [image]) ?_
  rw [image, sortKeys_sortKeys json]

theorem ordered_record {fields : List (String × Value)} (nodup : (fields.map Prod.fst).Nodup) :
    (Value.record fields).Ordered ↔ ∀ field ∈ fields, field.2.Ordered := by
  have distinct := nodup_sortFields (mapFields Value.sortKeys fields) (by simpa using nodup)
  have names : ((sortFields (mapFields Value.sortKeys fields)).map Prod.fst).Pairwise (· < ·) := by
    refine List.Pairwise.imp₂ (fun _ _ le ne => lt_of_le_of_ne le ne) ?_ distinct
    rw [List.pairwise_map]
    exact (pairwise_sortFields _).imp fun le => by simpa [byName] using le
  have texts : (sortFields (mapFields Value.sortKeys fields)).map (fun field => (Key.str field.1).text) =
      (sortFields (mapFields Value.sortKeys fields)).map Prod.fst := by
    simp [Key.text, Key.chars]
  unfold Value.Ordered
  rw [sortKeys_record, Value.record, increasing_dict, List.map_map, List.forall_mem_map]
  simp only [Function.comp_def, texts, names, true_and]
  constructor
  · intro values field h
    exact values _ ((perm_sortFields _).mem_iff.mpr (List.mem_map.mpr ⟨field, h, rfl⟩))
  · intro values field h
    obtain ⟨old, there, rfl⟩ := List.mem_map.mp ((perm_sortFields _).mem_iff.mp h)
    exact values old there

/-- Reading the canonical text and sorting again changes nothing, exactly where the keys are in
order. -/
theorem stable_iff_ordered (v : Value) : v.Stable ↔ v.Ordered := by
  constructor
  · intro stable
    unfold Value.Stable at stable
    have read := congrArg loads stable
    rw [loads_dumps (isJson_sortKeys (isJson_canonical v)), loads_dumps_image] at read
    have fixed := Option.some.inj read
    rw [Value.canonical] at fixed
    rw [Value.canonical, fixed] at stable
    exact (shrinks v.sortKeys 0).ordered (congrArg List.length stable) fixed
  · intro ordered
    unfold Value.Stable Value.canonical
    rw [sortKeys_image ordered]
    exact render_image compact ordered 0

/-- A list of fields with its names in strict order is the sorted list of any rearrangement. -/
theorem sortFields_eq {fields sorted : List (String × Value)} (perm : sorted.Perm fields)
    (names : (sorted.map Prod.fst).Pairwise (· < ·)) : sortFields fields = sorted := by
  have distinct : (sorted.map Prod.fst).Nodup := names.imp ne_of_lt
  rw [List.pairwise_map] at names
  have by_name : sorted.Pairwise (byName · ·) :=
    names.imp fun less => by simpa [byName] using le_of_lt less
  refine List.Perm.eq_of_pairwise ?_ (pairwise_sortFields fields) by_name
    ((perm_sortFields fields).trans perm.symm)
  intro x y hx hy xy yx
  have same : x.1 = y.1 := le_antisymm (by simpa [byName] using xy) (by simpa [byName] using yx)
  have there := perm.mem_iff.mpr ((perm_sortFields fields).mem_iff.mp hx)
  exact List.inj_on_of_nodup_map distinct there hy same

theorem sortKeys_image_comm {v : Value} (ordered : v.Ordered) : v.image.sortKeys = v.sortKeys.image := by
  induction v using Value.induct with
  | none | bool | int | float | str => rfl
  | list xs ih | tuple xs ih =>
    unfold Value.Ordered at ordered
    rw [Value.sortKeys, Value.increasing, increasingAll_iff, sortKeysAll_eq] at ordered
    simp only [Value.image, Value.sortKeys, sortKeysAll_eq, imageAll_eq, List.map_map,
      Value.list.injEq]
    exact List.map_congr_left fun x h => ih x h (ordered _ (List.mem_map.mpr ⟨x, h, rfl⟩))
  | dict items ih =>
    unfold Value.Ordered at ordered
    rw [Value.sortKeys] at ordered ⊢
    generalize sorted : (sortKeysItems items).mergeSort (fun x y => x.1.le y.1) = entries at ordered ⊢
    have perm : entries.Perm (sortKeysItems items) := sorted ▸ List.mergeSort_perm _ _
    obtain ⟨keys, values⟩ := increasing_dict.mp ordered
    have texts : (items.map fun item => item.1.text) =
        (sortKeysItems items).map fun item => item.1.text := by
      rw [sortKeysItems_eq, List.map_map]
      rfl
    have nodup : (items.map fun item => item.1.text).Nodup := by
      rw [texts, ← (perm.map _).nodup_iff]
      exact keys.imp ne_of_lt
    rw [image_dict nodup, imageItems_record, image_dict (keys.imp ne_of_lt), imageItems_record,
      sortKeys_record]
    refine congrArg Value.record (sortFields_eq ?_ ?_)
    · have fields : mapFields Value.sortKeys (items.map fun item => (item.1.text, item.2.image)) =
          (sortKeysItems items).map fun item => (item.1.text, item.2.image) := by
        rw [sortKeysItems_eq, mapFields, List.map_map, List.map_map]
        apply List.map_congr_left
        intro item h
        have member : (item.1, item.2.sortKeys) ∈ entries := by
          rw [perm.mem_iff, sortKeysItems_eq]
          exact List.mem_map.mpr ⟨item, h, rfl⟩
        simp only [Function.comp_apply, ih item h (values _ member)]
      rw [fields]
      exact perm.map _
    · rw [List.map_map]
      exact keys

/-- The canonical text is the same before and after a round trip, exactly where the keys are in
order. -/
theorem survives_iff_ordered (v : Value) : dumps v.image.sortKeys = dumps v.sortKeys ↔ v.Ordered := by
  constructor
  · intro same
    exact (stable_iff_ordered v).mp (stable_of_dumps (isJson_image v) same)
  · intro ordered
    rw [sortKeys_image_comm ordered]
    exact render_image compact ordered 0

end BtApiSecurity.Py
