import BtApiSecurity.Mfa.Provider
import BtApiSecurity.Py.Draws

/-!
# Generating backup codes

The loop draws until it has as many codes as are configured, and passes over a code that
it has already. There are a million codes.
-/

namespace BtApiSecurity.Mfa.MFAProvider
open Py

variable {draws : Nat → Fin 1000000} {s : MFAProvider} {count : Int} {turns : Nat}

/-! ### Six digits -/

theorem length_natChars_le {n k : Nat} (small : n < 10 ^ k) (positive : 0 < k) : (natChars n).length ≤ k := by
  unfold natChars
  split
  · exact positive
  · rw [List.length_map, List.length_reverse]
    exact (Nat.digits_length_le_iff (by decide) n).mpr small

theorem toList_sixDigits (n : Fin 1000000) :
    (sixDigits n).toList = List.replicate (6 - (natChars n.val).length) '0' ++ natChars n.val := by
  rw [sixDigits, String.toList_ofList]

theorem length_sixDigits (n : Fin 1000000) : (sixDigits n).toList.length = 6 := by
  have short : (natChars n.val).length ≤ 6 := length_natChars_le (Nat.lt_of_lt_of_le n.isLt (by decide)) (by decide)
  rw [toList_sixDigits, List.length_append, List.length_replicate]
  omega

theorem isDigit_sixDigits (n : Fin 1000000) : ∀ c ∈ (sixDigits n).toList, c.isDigit = true := by
  intro c member
  rw [toList_sixDigits] at member
  rcases List.mem_append.mp member with zero | digit
  · rw [List.eq_of_mem_replicate zero]
    rfl
  · exact isDigit_natChars n.val c digit

theorem charsNat_padded (k : Nat) (cs : List Char) : charsNat (List.replicate k '0' ++ cs) = charsNat cs := by
  induction k with
  | zero => rfl
  | succ k ih => exact ih

theorem sixDigits_injective : Function.Injective sixDigits := by
  intro m n same
  have digits := congrArg (fun code => charsNat code.toList) same
  simp only [toList_sixDigits, charsNat_padded, charsNat_natChars] at digits
  exact Fin.ext digits

/-! ### The loop -/

/-- The codes that the draws bring up, each where it comes up first. -/
def gather (codes : List String) (ds : List (Fin 1000000)) : List String :=
  ds.foldl (fun codes d => if sixDigits d ∈ codes then codes else codes ++ [sixDigits d]) codes

theorem gather_append (codes : List String) (ds ds' : List (Fin 1000000)) :
    gather codes (ds ++ ds') = gather (gather codes ds) ds' := List.foldl_append

theorem gather_singleton (codes : List String) (d : Fin 1000000) :
    gather codes [d] = if sixDigits d ∈ codes then codes else codes ++ [sixDigits d] := rfl

theorem gather_extends (codes : List String) (ds : List (Fin 1000000)) :
    ∃ more, gather codes ds = codes ++ more := by
  induction ds generalizing codes with
  | nil => exact ⟨[], (List.append_nil codes).symm⟩
  | cons d ds ih =>
    rw [gather, List.foldl_cons, ← gather]
    split
    · exact ih codes
    · obtain ⟨more, whole⟩ := ih (codes ++ [sixDigits d])
      exact ⟨sixDigits d :: more, by rw [whole, List.append_assoc, List.singleton_append]⟩

/-- The loop ends with the first `count` of the codes, once there are as many. -/
theorem backupCodesLoop_eq {codes : List String} (few : codes.length ≤ count.toNat)
    (ds : List (Fin 1000000)) :
    backupCodesLoop count codes ds =
      if count ≤ (gather codes ds).length then some ((gather codes ds).take count.toNat) else none := by
  induction ds generalizing codes with
  | nil =>
    rw [backupCodesLoop]
    change _ = if count ≤ codes.length then some (codes.take count.toNat) else none
    by_cases short : (codes.length : Int) < count
    · rw [if_pos short, if_neg (by omega)]
    · rw [if_neg short, if_pos (by omega), List.take_of_length_le few]
  | cons d ds ih =>
    rw [backupCodesLoop]
    by_cases short : (codes.length : Int) < count
    · rw [if_pos short, gather, List.foldl_cons, ← gather]
      split
      · exact ih few
      · apply ih
        rw [List.length_append, List.length_singleton]
        omega
    · obtain ⟨more, whole⟩ := gather_extends codes (d :: ds)
      rw [if_neg short, whole, List.length_append, if_pos (by omega),
        show count.toNat = codes.length by omega, List.take_left']
      rfl

theorem gather_range (draws : Nat → Fin 1000000) (turns : Nat) :
    gather [] ((List.range turns).map draws) = (firsts draws turns).map sixDigits := by
  induction turns with
  | zero => rfl
  | succ turns ih =>
    have known : sixDigits (draws turns) ∈ (firsts draws turns).map sixDigits ↔ ¬IsFirst draws turns := by
      rw [List.mem_map_of_injective sixDigits_injective, isFirst_iff, not_not]
    rw [List.range_succ, List.map_append, gather_append, ih, List.map_singleton, gather_singleton, firsts_succ,
      List.map_append]
    by_cases first : IsFirst draws turns
    · rw [if_neg (fun here => known.mp here first), if_pos first, List.map_singleton]
    · rw [if_pos (known.mpr first), if_neg first, List.map_nil, List.append_nil]

/-- What the generation draws and returns, after so many turns of its loop. -/
theorem run_generateBackupCodes (draws : Nat → Fin 1000000) (s : MFAProvider) (turns : Nat) :
    (generateBackupCodes ((List.range turns).map draws)).run s =
      (if s.settings.backupCodesCount ≤ (firsts draws turns).length then
        .ok (((firsts draws turns).map sixDigits).take s.settings.backupCodesCount.toNat)
      else .error .unfinished, s) := by
  have loop := @backupCodesLoop_eq s.settings.backupCodesCount [] (Nat.zero_le _)
    ((List.range turns).map draws)
  rw [gather_range, List.length_map] at loop
  simp only [generateBackupCodes, Method.run_bind, Method.run_read, Method.run_check, loop]
  split
  · rfl
  · rfl

/-! ### How a generation ends -/

/-- Each value is drawn again and again. -/
def Recurring (draws : Nat → Fin 1000000) : Prop := ∀ v n, ∃ m ≥ n, draws m = v

/-- The generation ends, and returns as many codes as are configured: different codes of six digits, the
first that the draws bring up. -/
structure Generates (draws : Nat → Fin 1000000) (s : MFAProvider) (codes : List String) : Prop where
  ends : ∃ turns, (generateBackupCodes ((List.range turns).map draws)).run s = (.ok codes, s) ∧
    codes = ((firsts draws turns).map sixDigits).take codes.length
  count : (codes.length : Int) = max s.settings.backupCodesCount 0
  distinct : codes.Nodup
  digits : ∀ code ∈ codes, code.length = 6 ∧ ∀ c ∈ code.toList, c.isDigit = true

theorem generates_of_count (recurring : Recurring draws) (small : s.settings.backupCodesCount ≤ 1000000) :
    ∃ codes, Generates draws s codes := by
  obtain ⟨turns, all⟩ := exists_length_firsts fun v => (recurring v 0).imp fun _ => And.right
  rw [Fintype.card_fin] at all
  have enough : s.settings.backupCodesCount ≤ (firsts draws turns).length := by
    rw [all]
    exact small
  have run := run_generateBackupCodes draws s turns
  rw [if_pos enough] at run
  have length : (((firsts draws turns).map sixDigits).take s.settings.backupCodesCount.toNat).length =
      s.settings.backupCodesCount.toNat := by
    rw [List.length_take, List.length_map]
    omega
  refine ⟨_, ⟨turns, run, ?_⟩, ?_, ?_, ?_⟩
  · rw [length]
  · rw [length, Int.ofNat_toNat]
  · exact ((nodup_firsts draws turns).map sixDigits_injective).sublist (List.take_sublist _ _)
  · intro code member
    obtain ⟨n, -, rfl⟩ := List.mem_map.mp (List.mem_of_mem_take member)
    exact ⟨length_sixDigits n, isDigit_sixDigits n⟩

/-- With more codes configured than there are, no number of turns is enough. -/
theorem not_generates (large : 1000000 < s.settings.backupCodesCount) (turns : Nat) :
    (generateBackupCodes ((List.range turns).map draws)).run s = (.error .unfinished, s) := by
  have bound := length_firsts_le draws turns
  rw [Fintype.card_fin] at bound
  rw [run_generateBackupCodes, if_neg (by omega)]

theorem count_of_generates {codes : List String} (generates : Generates draws s codes) :
    s.settings.backupCodesCount ≤ 1000000 := by
  obtain ⟨turns, run, -⟩ := generates.ends
  by_contra large
  rw [not_generates (by omega)] at run
  cases (Prod.mk.inj run).1

/-- The generation of codes ends as it should, if and only if there are as many codes as are
configured. -/
theorem generation_ends_iff (draws : Nat → Fin 1000000) (recurring : Recurring draws) (settings : Settings) :
    (∃ codes, Generates draws (.new settings) codes) ↔ settings.backupCodesCount ≤ 1000000 := by
  constructor
  · intro generated
    obtain ⟨codes, generates⟩ := generated
    exact count_of_generates generates
  · intro small
    exact generates_of_count recurring small

/-- One code after the other. -/
def cycle (n : Nat) : Fin 1000000 := ⟨n % 1000000, Nat.mod_lt n (Nat.zero_lt_succ 999999)⟩

theorem recurring_cycle : Recurring cycle := by
  intro v n
  refine ⟨1000000 * n + v.val, by omega, ?_⟩
  apply Fin.ext
  have small := v.isLt
  show (1000000 * n + v.val) % 1000000 = v.val
  omega

def countingTo (backupCodesCount : Int) : Settings :=
  ⟨"bt_api_py", 1, 0, backupCodesCount, "localhost", "bt_api_py Trading Platform"⟩

theorem cycle_generates_iff :
    (∃ codes, Generates cycle (.new (countingTo 3)) codes) ↔ (countingTo 3).backupCodesCount ≤ 1000000 :=
  generation_ends_iff cycle recurring_cycle (countingTo 3)

/-- The provider takes a count that no draws can reach. -/
theorem million_and_one_not_generated : ¬∀ draws, Recurring draws → ∀ settings,
    ∃ codes, Generates draws (.new settings) codes := by
  intro holds
  obtain ⟨codes, generates⟩ := holds cycle recurring_cycle (countingTo 1000001)
  exact absurd (count_of_generates generates) (by decide)

end BtApiSecurity.Mfa.MFAProvider
