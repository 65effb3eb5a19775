import Mathlib.Data.List.Perm.Basic
import BtApiSecurity.Py.Json.RoundTrip

/-!
# Canonical JSON

The text of `json.dumps(v, sort_keys=True)`, which hashes are taken of: what
sorting keeps, and when the text survives being read and sorted again.
-/

namespace BtApiSecurity.Py

theorem sortKeysAll_eq (xs : List Value) : sortKeysAll xs = xs.map Value.sortKeys := by
  induction xs with
  | nil => rfl
  | cons x xs ih => rw [sortKeysAll, ih, List.map_cons]

theorem sortKeysItems_eq (items : List (Key × Value)) :
    sortKeysItems items = items.map fun item => (item.1, item.2.sortKeys) := by
  induction items with
  | nil => rfl
  | cons item items ih => rw [sortKeysItems, ih, List.map_cons]

theorem imageItems_eq (items : List (Key × Value)) :
    imageItems items = items.map fun item => (.str (String.ofList item.1.chars), item.2.image) := by
  induction items with
  | nil => rfl
  | cons item items ih => rw [imageItems, ih, List.map_cons]

/-! ### Records -/

def mapFields (f : Value → Value) (fields : List (String × Value)) : List (String × Value) :=
  fields.map fun field => (field.1, f field.2)

@[simp] theorem names_mapFields (f : Value → Value) (fields : List (String × Value)) :
    (mapFields f fields).map Prod.fst = fields.map Prod.fst := by
  simp [mapFields]

theorem mapFields_mapFields (f g : Value → Value) (fields : List (String × Value)) :
    mapFields g (mapFields f fields) = mapFields (fun v => g (f v)) fields := by
  simp [mapFields]

theorem mapFields_congr {f g : Value → Value} {fields : List (String × Value)}
    (same : ∀ field ∈ fields, f field.2 = g field.2) : mapFields f fields = mapFields g fields :=
  List.map_congr_left fun field h => by rw [same field h]

def byName (x y : String × Value) : Bool := x.1 ≤ y.1

def sortFields (fields : List (String × Value)) : List (String × Value) := fields.mergeSort byName

theorem pairwise_sortFields (fields : List (String × Value)) :
    (sortFields fields).Pairwise (byName · ·) :=
  List.pairwise_mergeSort
    (fun a b c ab bc => by
      simp only [byName, decide_eq_true_eq] at *
      exact String.le_trans ab bc)
    (fun a b => by
      simp only [byName, Bool.or_eq_true, decide_eq_true_eq]
      exact String.le_total a.1 b.1) fields

@[simp] theorem sortFields_sortFields (fields : List (String × Value)) :
    sortFields (sortFields fields) = sortFields fields :=
  List.mergeSort_of_pairwise (pairwise_sortFields fields)

theorem mapFields_sortFields (f : Value → Value) (fields : List (String × Value)) :
    mapFields f (sortFields fields) = sortFields (mapFields f fields) :=
  List.map_mergeSort fun _ _ _ _ => rfl

theorem perm_sortFields (fields : List (String × Value)) : (sortFields fields).Perm fields :=
  List.mergeSort_perm fields byName

theorem nodup_sortFields (fields : List (String × Value)) (nodup : (fields.map Prod.fst).Nodup) :
    ((sortFields fields).map Prod.fst).Nodup :=
  ((perm_sortFields fields).map Prod.fst).nodup_iff.mpr nodup

theorem sortKeys_record (fields : List (String × Value)) :
    (Value.record fields).sortKeys = .record (sortFields (mapFields Value.sortKeys fields)) := by
  have sorted : (sortFields (mapFields Value.sortKeys fields)).map
      (fun field => (Key.str field.1, field.2)) =
        ((mapFields Value.sortKeys fields).map fun field => (Key.str field.1, field.2)).mergeSort
          fun x y => x.1.le y.1 := List.map_mergeSort fun _ _ _ _ => rfl
  rw [Value.record, Value.sortKeys, sortKeysItems_eq, Value.record, sorted]
  simp [mapFields, Function.comp_def]

theorem image_record {fields : List (String × Value)} (nodup : (fields.map Prod.fst).Nodup) :
    (Value.record fields).image = .record (mapFields Value.image fields) := by
  have keys : Function.Injective Key.str := fun _ _ same => Key.str.inj same
  unfold Value.record
  rw [Value.image, imageItems_eq, fromPairs_of_nodup]
  · simp [mapFields, Function.comp_def, Key.chars]
  · simpa [Function.comp_def, Key.chars] using nodup.map keys

theorem isJson_record {fields : List (String × Value)} :
    (Value.record fields).isJson = true ↔
      (fields.map Prod.fst).Nodup ∧ ∀ field ∈ fields, field.2.isJson = true := by
  have keys : Function.Injective Key.str := fun _ _ same => Key.str.inj same
  have names : (fields.map (fun field => (Key.str field.1, field.2))).map Prod.fst =
      (fields.map Prod.fst).map Key.str := by simp
  rw [Value.record, isJson_dict, names, List.nodup_map_iff keys, List.forall_mem_map,
    List.forall_mem_map]
  simp [Key.isStr]

theorem find_record {fields : List (String × Value)} (nodup : (fields.map Prod.fst).Nodup)
    {name : String} {v : Value} (h : (name, v) ∈ fields) :
    find (.str name) (fields.map fun field => (Key.str field.1, field.2)) = some v := by
  have keys : Function.Injective Key.str := fun _ _ same => Key.str.inj same
  refine find_of_mem ?_ (List.mem_map.mpr ⟨_, h, rfl⟩)
  simpa [Function.comp_def] using nodup.map keys

theorem exists_record {items : List (Key × Value)} (json : (Value.dict items).isJson = true) :
    ∃ fields, Value.dict items = .record fields := by
  have named := (isJson_dict.mp json).1
  clear json
  induction items with
  | nil => exact ⟨[], rfl⟩
  | cons item items ih =>
    rw [List.forall_mem_cons] at named
    obtain ⟨fields, same⟩ := ih named.2
    obtain ⟨key, v⟩ := item
    cases key with
    | str s => exact ⟨(s, v) :: fields, by simpa [Value.record] using same⟩
    | _ => exact absurd named.1 (by simp [Key.isStr])

/-! ### What sorting keeps -/

theorem isJson_sortKeys {v : Value} (json : v.isJson = true) : v.sortKeys.isJson = true := by
  induction v using Value.induct with
  | none | bool | int | float | str => rfl
  | list xs ih =>
    unfold Value.isJson at json
    rw [isJsonAll_iff] at json
    unfold Value.sortKeys
    rw [sortKeysAll_eq, Value.isJson, isJsonAll_iff, List.forall_mem_map]
    intro x h
    exact ih x h (json x h)
  | tuple xs => cases json
  | dict items ih =>
    obtain ⟨fields, same⟩ := exists_record json
    obtain rfl := Value.dict.inj same
    obtain ⟨nodup, values⟩ := isJson_record.mp json
    refine sortKeys_record fields ▸ isJson_record.mpr ⟨nodup_sortFields _ (by simpa using nodup), ?_⟩
    intro field h
    obtain ⟨old, there, rfl⟩ := List.mem_map.mp ((perm_sortFields _).mem_iff.mp h)
    exact ih (.str old.1, old.2) (List.mem_map.mpr ⟨old, there, rfl⟩) (values old there)

theorem sortKeys_sortKeys {v : Value} (json : v.isJson = true) : v.sortKeys.sortKeys = v.sortKeys := by
  induction v using Value.induct with
  | none | bool | int | float | str => rfl
  | list xs ih =>
    unfold Value.isJson at json
    rw [isJsonAll_iff] at json
    simp only [Value.sortKeys, sortKeysAll_eq, List.map_map, Value.list.injEq]
    exact List.map_congr_left fun x h => ih x h (json x h)
  | tuple xs => cases json
  | dict items ih =>
    obtain ⟨fields, same⟩ := exists_record json
    obtain rfl := Value.dict.inj same
    have values := (isJson_record.mp json).2
    have inner : mapFields (fun v => v.sortKeys.sortKeys) fields = mapFields Value.sortKeys fields :=
      mapFields_congr fun field h =>
        ih (.str field.1, field.2) (List.mem_map.mpr ⟨field, h, rfl⟩) (values field h)
    change (Value.record fields).sortKeys.sortKeys = (Value.record fields).sortKeys
    rw [sortKeys_record, sortKeys_record, mapFields_sortFields, mapFields_mapFields, inner,
      sortFields_sortFields]

/-! ### Reading the canonical text -/

def Value.canonical (v : Value) : Value := v.sortKeys.image

/-- Reading the canonical text and writing it again gives the same text: sorting the keys before
or after they become strings makes no difference. -/
def Value.Stable (v : Value) : Prop := dumps v.canonical.sortKeys = dumps v.sortKeys

instance (v : Value) : Decidable v.Stable := inferInstanceAs (Decidable (_ = _))

theorem isJson_canonical (v : Value) : v.canonical.isJson = true := isJson_image _

theorem canonical_of_isJson {v : Value} (json : v.isJson = true) : v.canonical = v.sortKeys :=
  image_of_isJson (isJson_sortKeys json)

theorem stable_of_isJson {v : Value} (json : v.isJson = true) : v.Stable := by
  unfold Value.Stable
  rw [canonical_of_isJson json, sortKeys_sortKeys json]

theorem stable_of_dumps {v w : Value} (json : w.isJson = true)
    (same : dumps w.sortKeys = dumps v.sortKeys) : v.Stable := by
  have read : w.sortKeys = v.canonical := by
    have both := congrArg loads same
    rw [loads_dumps (isJson_sortKeys json), loads_dumps_image] at both
    exact Option.some.inj both
  unfold Value.Stable
  rw [← read, sortKeys_sortKeys json, same]

/-- Of a record it does not matter whether the canonical text is read as a whole or field by field. -/
theorem sortKeys_canonical_record {fields : List (String × Value)}
    (nodup : (fields.map Prod.fst).Nodup) :
    (Value.record fields).canonical.sortKeys =
      (Value.record (mapFields Value.canonical fields)).sortKeys := by
  have names := nodup_sortFields (mapFields Value.sortKeys fields) (by simpa using nodup)
  rw [Value.canonical, sortKeys_record, image_record names, sortKeys_record, mapFields_sortFields,
    mapFields_mapFields, mapFields_sortFields, sortFields_sortFields, mapFields_mapFields,
    sortKeys_record, mapFields_mapFields]
  rfl

end BtApiSecurity.Py
