import Mathlib.Data.List.Basic
import Mathlib.Data.List.TakeWhile
import Mathlib.Algebra.Group.Int.Defs
import Mathlib.Algebra.Group.Nat.Defs
import Mathlib.Tactic.Common

/-!
# Strings of C

A C string is the list of its characters before the terminating NUL. `strstr` searches for a
pattern and gives what stands before and behind its first occurrence (the caller computes both from
the pointer it gets); `strchr` is the search for one character. `copyBounded size` is what a buffer
of `size` characters keeps of a string: all but one of its characters are the string's, the last
is the NUL (`snprintf` with `%s`, or `strncpy` and a NUL written by hand). `atoi` reads a decimal
number.

The rules say how a search on a string compares with the search on a longer one: a pattern that is
found is found at the same place (`strstr_append`), one that is not can only reach past the end of
the shorter string (`length_lt_of_strstr_append`). A character is found where it stands first
(`strchr_eq_some_iff`). `atoi` reads a number from its digits (`atoi_of_isDigit`), and those that
`%d` prints are the number's (`digits_decimal`).
-/

namespace CString

variable {α : Type*} [DecidableEq α]

/-- `strstr`: what stands before and behind the first occurrence of `pat`. -/
def strstr (pat : List α) : List α → Option (List α × List α)
  | [] => if pat = [] then some ([], []) else none
  | c :: s =>
    if pat.isPrefixOf (c :: s) then some ([], (c :: s).drop pat.length)
    else (strstr pat s).map fun found => (c :: found.1, found.2)

/-- `strchr`. -/
def strchr (c : α) (s : List α) : Option (List α × List α) := strstr [c] s

/-- What a buffer of `size` characters holds of a string that is copied into it. -/
def copyBounded (size : Nat) (s : List α) : List α := s.take (size - 1)

section Search

variable {pat s more before behind : List α}

theorem eq_of_strstr (h : strstr pat s = some (before, behind)) : s = before ++ pat ++ behind := by
  induction s generalizing before with
  | nil =>
    simp only [strstr] at h
    split_ifs at h with hpat
    cases h
    simp [hpat]
  | cons c s ih =>
    simp only [strstr] at h
    split_ifs at h with hpre
    · cases h
      obtain ⟨rest, hrest⟩ := List.isPrefixOf_iff_prefix.1 hpre
      simp [← hrest]
    · obtain ⟨⟨a, b⟩, hfound, hpair⟩ := Option.map_eq_some_iff.1 h
      cases hpair
      simp [ih hfound]

theorem strstr_append (h : strstr pat s = some (before, behind)) (more : List α) :
    strstr pat (s ++ more) = some (before, behind ++ more) := by
  induction s generalizing before with
  | nil =>
    simp only [strstr] at h
    split_ifs at h with hpat
    cases h
    subst hpat
    cases more <;> simp [strstr]
  | cons c s ih =>
    simp only [strstr] at h
    split_ifs at h with hpre
    · cases h
      have hp := List.isPrefixOf_iff_prefix.1 hpre
      have hlong : pat.isPrefixOf (c :: (s ++ more)) :=
        List.isPrefixOf_iff_prefix.2 (hp.trans (List.prefix_append (c :: s) more))
      have hdrop : (c :: (s ++ more)).drop pat.length = (c :: s).drop pat.length ++ more :=
        List.drop_append_of_le_length hp.length_le
      simp [strstr, hlong, hdrop]
    · obtain ⟨⟨a, b⟩, hfound, hpair⟩ := Option.map_eq_some_iff.1 h
      cases hpair
      -- The pattern occurs further on, so that it fits into the shorter string already.
      have hshort : ¬ pat.isPrefixOf (c :: (s ++ more)) := by
        intro hlong
        apply hpre
        have hp := List.isPrefixOf_iff_prefix.1 hlong
        have hle : pat.length ≤ (c :: s).length := by
          have := congrArg List.length (eq_of_strstr hfound)
          simp only [List.length_append] at this
          simp only [List.length_cons]
          omega
        exact List.isPrefixOf_iff_prefix.2
          (List.prefix_of_prefix_length_le hp (List.prefix_append (c :: s) more) hle)
      simp [strstr, hshort, ih hfound]

theorem strstr_ne_none (before pat behind : List α) :
    strstr pat (before ++ pat ++ behind) ≠ none := by
  induction before with
  | nil =>
    -- At the front the pattern itself is the match; an empty one may meet an empty string.
    cases hs : [] ++ pat ++ behind with
    | nil =>
      have hpat : pat = [] := by simp_all
      simp [strstr, hpat]
    | cons c s =>
      have hpre : pat.isPrefixOf (c :: s) := by
        apply List.isPrefixOf_iff_prefix.2
        rw [← hs]
        exact List.prefix_append pat behind
      simp [strstr, hpre]
  | cons c before ih =>
    simp only [List.cons_append, strstr]
    split_ifs with hpre
    · simp
    · simpa using ih

/-- An occurrence that the longer string has and the shorter does not reaches past its end. -/
theorem length_lt_of_strstr_append (hnone : strstr pat s = none)
    (h : strstr pat (s ++ more) = some (before, behind)) :
    s.length < before.length + pat.length := by
  by_contra hle
  have hfront : before ++ pat <+: s := by
    apply List.prefix_of_prefix_length_le
    · exact ⟨behind, (eq_of_strstr h).symm⟩
    · exact List.prefix_append s more
    · simp only [List.length_append]
      omega
  obtain ⟨rest, rfl⟩ := hfront
  exact strstr_ne_none before pat rest hnone

theorem strchr_eq_some_iff {c : α} :
    strchr c s = some (before, behind) ↔ s = before ++ c :: behind ∧ c ∉ before := by
  induction s generalizing before with
  | nil => simp [strchr, strstr]
  | cons d s ih =>
    rw [strchr] at ih
    rw [strchr, strstr]
    by_cases hd : c = d
    · subst hd
      have hpre : [c].isPrefixOf (c :: s) = true := by simp
      rw [if_pos hpre]
      cases before with
      | nil => simp [eq_comm]
      | cons b before => simp +contextual [eq_comm]
    · have hpre : ¬[c].isPrefixOf (d :: s) = true := by simpa using hd
      rw [if_neg hpre, Option.map_eq_some_iff]
      cases before with
      | nil => simp [Ne.symm hd]
      | cons b before =>
        simp only [Prod.exists, Prod.mk.injEq, List.cons.injEq, List.cons_append, List.mem_cons,
          not_or]
        constructor
        · rintro ⟨before, behind, hfound, ⟨rfl, rfl⟩, rfl⟩
          obtain ⟨hs, hnot⟩ := ih.1 hfound
          exact ⟨⟨rfl, hs⟩, hd, hnot⟩
        · rintro ⟨⟨rfl, hs⟩, -, hnot⟩
          exact ⟨before, behind, ih.2 ⟨hs, hnot⟩, ⟨rfl, rfl⟩, rfl⟩

end Search

/-! ## Numbers -/

/-- `isspace` in the C locale. -/
def isSpace (c : UInt8) : Bool := c == 32 || (9 ≤ c && c ≤ 13)

/-- `isdigit`. -/
def isDigit (c : UInt8) : Bool := 48 ≤ c && c ≤ 57

/-- The value of the digits at the front of a string. -/
def digits (s : List UInt8) : Nat :=
  (s.takeWhile isDigit).foldl (fun v c => 10 * v + (c.toNat - 48)) 0

/-- `strtol` to base ten: white space, a sign, digits; the range of `long` cuts the value off. -/
def strtol (s : List UInt8) : Int :=
  let v : Int :=
    match s.dropWhile isSpace with
    | 45 :: s => -digits s
    | 43 :: s => digits s
    | s => digits s
  max (-2 ^ 63) (min v (2 ^ 63 - 1))

/-- `atoi`: `strtol`, converted to a 32-bit `int`. -/
def atoi (s : List UInt8) : Int := (strtol s).bmod (2 ^ 32)

/-- `%d` of a number that is not negative. -/
def decimal (n : Nat) : List UInt8 := (Nat.toDigits 10 n).map fun c => c.toNat.toUInt8

/-- Digits are no white space and no signs: all of them are read. -/
theorem strtol_of_isDigit {s : List UInt8} (h : ∀ c ∈ s, isDigit c = true) :
    strtol s = min (digits s : Int) (2 ^ 63 - 1) := by
  -- The value is not negative, so only the upper bound can cut it.
  have hmax (v : Nat) :
      max (-2 ^ 63) (min (v : Int) (2 ^ 63 - 1)) = min (v : Int) (2 ^ 63 - 1) := by
    omega
  cases s with
  | nil => exact hmax (digits [])
  | cons c s =>
    have hc := h c List.mem_cons_self
    have hspace : isSpace c = false := by
      simp only [isDigit, isSpace, Bool.and_eq_true, decide_eq_true_eq, Bool.or_eq_false_iff,
        beq_eq_false_iff_ne, UInt8.le_iff_toNat_le, Bool.and_eq_false_iff,
        decide_eq_false_iff_not] at hc ⊢
      simp only [ne_eq, ← UInt8.toNat_inj]
      simp at hc ⊢
      omega
    have hminus : c ≠ 45 := by
      rintro rfl
      simp [isDigit] at hc
    have hplus : c ≠ 43 := by
      rintro rfl
      simp [isDigit] at hc
    unfold strtol
    rw [List.dropWhile_cons_of_neg (by simp [hspace])]
    split
    · rename_i heq
      exact absurd (List.cons.inj heq).1 hminus
    · rename_i heq
      exact absurd (List.cons.inj heq).1 hplus
    · exact hmax _

/-- `atoi` of a number that is not too large. -/
theorem atoi_of_isDigit {s : List UInt8} (h : ∀ c ∈ s, isDigit c = true)
    (hlt : digits s < 2 ^ 31) : atoi s = digits s := by
  rw [atoi, strtol_of_isDigit h, Int.min_eq_left (by omega)]
  exact Int.bmod_eq_of_le (by omega) (by omega)

theorem toNat_of_mem_toDigits {n : Nat} {c : Char} (h : c ∈ Nat.toDigits 10 n) :
    48 ≤ c.toNat ∧ c.toNat ≤ 57 :=
  Char.isDigit_iff_toNat.1 (Nat.isDigit_of_mem_toDigits (by decide) (by decide) h)

theorem isDigit_of_mem_decimal {n : Nat} {c : UInt8} (h : c ∈ decimal n) : isDigit c = true := by
  obtain ⟨d, hd, rfl⟩ := List.mem_map.1 h
  obtain ⟨hlow, hhigh⟩ := toNat_of_mem_toDigits hd
  simp only [isDigit, Bool.and_eq_true, decide_eq_true_eq, UInt8.le_iff_toNat_le, Nat.toUInt8,
    UInt8.toNat_ofNat']
  simp
  omega

theorem digits_decimal (n : Nat) : digits (decimal n) = n := by
  have hall : (decimal n).takeWhile isDigit = decimal n :=
    List.takeWhile_eq_self_iff.2 fun c hc => isDigit_of_mem_decimal hc
  rw [digits, hall, decimal, List.foldl_map]
  refine Eq.trans (List.foldl_ext _ _ _ fun v c hc => ?_) Nat.ofDigitChars_ten_toDigits
  obtain ⟨hlow, hhigh⟩ := toNat_of_mem_toDigits hc
  simp only [Nat.toUInt8, UInt8.toNat_ofNat']
  rw [Nat.mod_eq_of_lt (by omega)]
  rfl

end CString
