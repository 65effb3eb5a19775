import BtApiSecurity.Py.Nested
import Mathlib.Data.List.TakeWhile

/-!
# Masking

Strings are masked by level, in dictionaries and lists at every depth. A tuple is
handed back as it is.
-/

namespace BtApiSecurity.Data
open Py

def stars (n : Nat) : List Char := List.replicate n '*'

/-- `s.split("@", 1)`, for a text with the character. -/
def splitAt1 (cs : List Char) : List Char × List Char :=
  (cs.takeWhile (· ≠ '@'), (cs.dropWhile (· ≠ '@')).tail)

def maskLocal (local_ : List Char) : List Char :=
  if 3 < local_.length then local_.take 2 ++ stars (local_.length - 2) else stars local_.length

def maskChars (maskLevel : String) (data : List Char) : List Char :=
  if maskLevel = "full" then stars data.length
  else if maskLevel = "partial" then
    if data.length ≤ 4 then stars data.length
    else data.take 2 ++ stars (data.length - 4) ++ data.drop (data.length - 2)
  else if maskLevel = "email" ∧ '@' ∈ data then
    maskLocal (splitAt1 data).1 ++ '@' :: (splitAt1 data).2
  else data

def maskString (maskLevel data : String) : String := String.ofList (maskChars maskLevel data.toList)

mutual

def maskData (maskLevel : String) : Value → Value
  | .str s => .str (maskString maskLevel s)
  | .dict items => .dict (maskItems maskLevel items)
  | .list xs => .list (maskAll maskLevel xs)
  | .tuple xs => .tuple xs
  | .none => .none
  | .bool b => .bool b
  | .int i => .int i
  | .float x => .float x

def maskAll (maskLevel : String) : List Value → List Value
  | [] => []
  | x :: xs => maskData maskLevel x :: maskAll maskLevel xs

def maskItems (maskLevel : String) : List (Key × Value) → List (Key × Value)
  | [] => []
  | (k, x) :: items => (k, maskData maskLevel x) :: maskItems maskLevel items

end

variable {maskLevel : String}

theorem maskAll_eq (xs : List Value) : maskAll maskLevel xs = xs.map (maskData maskLevel) := by
  induction xs with
  | nil => rfl
  | cons x xs ih => rw [maskAll, ih, List.map_cons]

theorem maskItems_eq (items : List (Key × Value)) :
    maskItems maskLevel items = items.map fun item => (item.1, maskData maskLevel item.2) := by
  induction items with
  | nil => rfl
  | cons item items ih => rw [maskItems, ih, List.map_cons]

/-! ### What masking should do -/

/-- Only asterisks, one for each character. -/
def Hidden (s t : String) : Prop := t.toList = s.toList.map fun _ => '*'

/-- Of a text of more than four characters the first two and the last two are shown. -/
def Shown (length i : Nat) : Prop := 4 < length ∧ (i < 2 ∨ length ≤ i + 2)

instance (length i : Nat) : Decidable (Shown length i) := inferInstanceAs (Decidable (_ ∧ _))

/-- An asterisk for each character that is not shown. -/
def PartlyHidden (s t : String) : Prop :=
  t.toList = s.toList.mapIdx fun i c => if Shown s.toList.length i then c else '*'

structure Masks (v : Value) : Prop where
  full : v.Leafwise Hidden (maskData "full" v)
  partly : v.Leafwise PartlyHidden (maskData "partial" v)
  again : ∀ maskLevel ∈ ["full", "partial", "email"],
    maskData maskLevel (maskData maskLevel v) = maskData maskLevel v

/-! ### Strings -/

theorem hidden_maskString (s : String) : Hidden s (maskString "full" s) := by
  rw [Hidden, maskString, String.toList_ofList, maskChars, if_pos rfl, stars, List.map_const']

theorem partlyHidden_maskString (s : String) : PartlyHidden s (maskString "partial" s) := by
  rw [PartlyHidden, maskString, String.toList_ofList, maskChars, if_neg (by decide), if_pos rfl]
  generalize s.toList = cs
  split
  · rename_i short
    apply List.ext_getElem
    · simp [stars]
    · intro i small small'
      have hidden : ¬Shown cs.length i := fun shown => short.not_gt shown.1
      rw [List.getElem_mapIdx, if_neg hidden]
      simp [stars]
  · rename_i long
    apply List.ext_getElem
    · simp only [stars, List.length_append, List.length_take, List.length_replicate, List.length_drop,
        List.length_mapIdx]
      omega
    · intro i small small'
      rw [List.length_mapIdx] at small'
      rw [List.getElem_mapIdx]
      simp only [List.getElem_append, List.length_append, List.length_take, stars, List.length_replicate]
      by_cases first : i < 2
      · have shown : Shown cs.length i := ⟨by omega, .inl first⟩
        rw [dif_pos (by omega), dif_pos (by omega), if_pos shown, List.getElem_take]
      · by_cases last : cs.length ≤ i + 2
        · have shown : Shown cs.length i := ⟨by omega, .inr last⟩
          have here : cs.length - 2 + (i - (min 2 cs.length + (cs.length - 4))) = i := by omega
          rw [dif_neg (by omega), if_pos shown, List.getElem_drop]
          simp only [here]
        · have hidden : ¬Shown cs.length i := by
            rintro ⟨-, edge | edge⟩
            · exact first edge
            · exact last edge
          rw [dif_pos (by omega), dif_neg (by omega), if_neg hidden, List.getElem_replicate]

theorem length_maskChars_partial (cs : List Char) : (maskChars "partial" cs).length = cs.length := by
  rw [maskChars, if_neg (by decide), if_pos rfl]
  split
  · exact List.length_replicate
  · simp only [stars, List.length_append, List.length_take, List.length_replicate, List.length_drop]
    omega

theorem maskChars_partial_again (cs : List Char) :
    maskChars "partial" (maskChars "partial" cs) = maskChars "partial" cs := by
  have length := length_maskChars_partial cs
  rw [maskChars, if_neg (by decide), if_pos rfl, length]
  split
  · rename_i short
    rw [maskChars, if_neg (by decide), if_pos rfl, if_pos short]
  · rename_i long
    have masked : maskChars "partial" cs =
        cs.take 2 ++ stars (cs.length - 4) ++ cs.drop (cs.length - 2) := by
      rw [maskChars, if_neg (by decide), if_pos rfl, if_neg long]
    have front : (cs.take 2).length = 2 := List.length_take_of_le (by omega)
    have back : (cs.take 2 ++ stars (cs.length - 4)).length = cs.length - 2 := by
      rw [List.length_append, front, stars, List.length_replicate]
      omega
    rw [masked]
    congr 1
    · congr 1
      rw [List.append_assoc]
      exact List.take_left' front
    · exact List.drop_left' back

theorem maskLocal_again (local_ : List Char) : maskLocal (maskLocal local_) = maskLocal local_ := by
  unfold maskLocal
  by_cases long : 3 < local_.length
  · have front : (local_.take 2).length = 2 := List.length_take_of_le (by omega)
    have length : (local_.take 2 ++ stars (local_.length - 2)).length = local_.length := by
      rw [List.length_append, front, stars, List.length_replicate]
      omega
    rw [if_pos long, length, if_pos long]
    congr 1
    exact List.take_left' front
  · rw [if_neg long, stars, List.length_replicate, if_neg long, stars]

theorem not_mem_maskLocal {local_ : List Char} (absent : '@' ∉ local_) : '@' ∉ maskLocal local_ := by
  have no_star : ∀ n, '@' ∉ stars n := by
    intro n member
    exact absurd (List.eq_of_mem_replicate member) (by decide)
  unfold maskLocal
  split
  · rw [List.mem_append]
    rintro (first | star)
    · exact absent (List.mem_of_mem_take first)
    · exact no_star _ star
  · exact no_star _

theorem splitAt1_append {local_ domain : List Char} (absent : '@' ∉ local_) :
    splitAt1 (local_ ++ '@' :: domain) = (local_, domain) := by
  have plain : ∀ c ∈ local_, (decide (c ≠ '@')) = true := by
    intro c member
    exact decide_eq_true fun h => absent (h ▸ member)
  rw [splitAt1, List.takeWhile_append_of_pos plain, List.dropWhile_append_of_pos plain,
    List.takeWhile_cons_of_neg (by decide), List.dropWhile_cons_of_neg (by decide), List.append_nil]
  rfl

theorem not_mem_splitAt1 (cs : List Char) : '@' ∉ (splitAt1 cs).1 := by
  intro member
  have plain := List.mem_takeWhile_imp member
  simp at plain

theorem maskChars_email_again (cs : List Char) :
    maskChars "email" (maskChars "email" cs) = maskChars "email" cs := by
  by_cases address : '@' ∈ cs
  · have masked : maskChars "email" cs = maskLocal (splitAt1 cs).1 ++ '@' :: (splitAt1 cs).2 := by
      rw [maskChars, if_neg (by decide), if_neg (by decide), if_pos ⟨rfl, address⟩]
    rw [masked, maskChars, if_neg (by decide), if_neg (by decide), if_pos ⟨rfl, by simp⟩,
      splitAt1_append (not_mem_maskLocal (not_mem_splitAt1 cs)), maskLocal_again]
  · have same : maskChars "email" cs = cs := by
      rw [maskChars, if_neg (by decide), if_neg (by decide), if_neg fun h => address h.2]
    rw [same, same]

theorem maskChars_again (cs : List Char) (known : maskLevel ∈ ["full", "partial", "email"]) :
    maskChars maskLevel (maskChars maskLevel cs) = maskChars maskLevel cs := by
  simp only [List.mem_cons, List.not_mem_nil, or_false] at known
  rcases known with rfl | rfl | rfl
  · simp only [maskChars, if_true, stars, List.length_replicate]
  · exact maskChars_partial_again cs
  · exact maskChars_email_again cs

/-! ### Values -/

theorem leafwise_maskData {R : String → String → Prop} (masks : ∀ s, R s (maskString maskLevel s))
    (v : Value) : v.Leafwise R (maskData maskLevel v) ↔ ∀ s ∈ v.tupleStrings, R s s := by
  induction v using Value.induct with
  | none | bool | int | float => simp [maskData, Value.Leafwise, Value.tupleStrings]
  | str s => simp [maskData, Value.Leafwise, Value.tupleStrings, masks]
  | list xs ih =>
    simp only [maskData, maskAll_eq, leafwise_list, leafwiseAll_map, Value.tupleStrings,
      mem_tupleStringsAll, forall_strings]
    exact forall₂_congr ih
  | tuple xs ih =>
    simp only [maskData, Value.tupleStrings]
    exact Value.leafwise_self (.tuple xs)
  | dict items ih =>
    simp only [maskData, maskItems_eq, leafwise_dict, leafwiseItems_map, Value.tupleStrings,
      mem_tupleStringsItems, forall_strings]
    exact forall₂_congr ih

theorem maskData_again (known : maskLevel ∈ ["full", "partial", "email"]) (v : Value) :
    maskData maskLevel (maskData maskLevel v) = maskData maskLevel v := by
  induction v using Value.induct with
  | none | bool | int | float | tuple => simp only [maskData]
  | str s =>
    simp only [maskData, maskString, String.toList_ofList, maskChars_again s.toList known]
  | list xs ih =>
    simp only [maskData, maskAll_eq, List.map_map]
    congr 1
    exact List.map_congr_left ih
  | dict items ih =>
    simp only [maskData, maskItems_eq, List.map_map]
    congr 1
    apply List.map_congr_left
    intro item member
    exact congrArg (Prod.mk item.1) (ih item member)

/-! ### The exact condition -/

def AllStars (s : String) : Prop := ∀ c ∈ s.toList, c = '*'

theorem hidden_self {s : String} : Hidden s s ↔ AllStars s := by
  constructor
  · intro hidden c member
    rw [hidden] at member
    obtain ⟨_, -, star⟩ := List.mem_map.mp member
    exact star.symm
  · intro all_stars
    have same : s.toList.map (fun _ => '*') = s.toList.map id :=
      List.map_congr_left fun c member => (all_stars c member).symm
    rw [Hidden, same, List.map_id]

theorem partlyHidden_self {s : String} (all_stars : AllStars s) : PartlyHidden s s := by
  apply List.ext_getElem
  · rw [List.length_mapIdx]
  · intro i small small'
    rw [List.getElem_mapIdx]
    split
    · rfl
    · exact all_stars _ (List.getElem_mem small)

theorem allStars_of_masks {v : Value} (masks : Masks v) : ∀ s ∈ v.tupleStrings, AllStars s := by
  intro s member
  exact hidden_self.mp ((leafwise_maskData hidden_maskString v).mp masks.full s member)

theorem masks_of_allStars {v : Value} (all_stars : ∀ s ∈ v.tupleStrings, AllStars s) : Masks v := by
  refine ⟨?_, ?_, fun maskLevel known => maskData_again known v⟩
  · apply (leafwise_maskData hidden_maskString v).mpr
    intro s member
    exact hidden_self.mpr (all_stars s member)
  · apply (leafwise_maskData partlyHidden_maskString v).mpr
    intro s member
    exact partlyHidden_self (all_stars s member)

/-- Masking does what it should, if and only if the strings in tuples are asterisks already. -/
theorem masks_iff (v : Value) : Masks v ↔ ∀ s ∈ v.tupleStrings, AllStars s :=
  ⟨allStars_of_masks, masks_of_allStars⟩

theorem tuple_unmasked : ¬∀ v, Masks v := by
  intro masks
  have first := allStars_of_masks (masks (.dict [(.str "keys", .tuple [.str "secret"])])) "secret" (by decide)
    's' (by decide)
  revert first
  decide

end BtApiSecurity.Data
