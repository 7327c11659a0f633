import Mathlib.Data.List.Basic
import Mathlib.Logic.Function.Basic
import Mathlib.Tactic.Common

/-!
# Bitmaps in 32-bit words

A bitmap stored as words: testing, setting and clearing a bit with masks, and finding the first
bit that is clear. The lemmas speak of single bits (`isSet`), so that users need not look at
words.
-/

namespace Bitmap

abbrev Words := Nat → BitVec 32

/-- The mask of a bit within its word. -/
def mask (b : Nat) : BitVec 32 := 1#32 <<< b

/-- Bit `i` is set. -/
def isSet (bm : Words) (i : Nat) : Bool := bm (i / 32) &&& mask (i % 32) ≠ 0#32

/-- Set bit `i`. -/
def set (bm : Words) (i : Nat) : Words :=
  Function.update bm (i / 32) (bm (i / 32) ||| mask (i % 32))

/-- Clear bit `i`. -/
def clear (bm : Words) (i : Nat) : Words :=
  Function.update bm (i / 32) (bm (i / 32) &&& ~~~(mask (i % 32)))

/-- The first clear bit of the first `n` words. -/
def firstFree (n : Nat) (bm : Words) : Option Nat :=
  (List.range n).findSome? fun w =>
    if bm w ≠ 0xFFFFFFFF#32 then
      (List.range 32).findSome? fun b =>
        if bm w &&& mask b = 0#32 then some (w * 32 + b) else none
    else none

theorem getLsbD_mask {b j : Nat} (hj : j < 32) : (mask b).getLsbD j = decide (j = b) := by
  rw [mask, BitVec.getLsbD_shiftLeft, BitVec.getLsbD_one]
  by_cases h : j = b
  · simp [h, show b < 32 by omega]
  · simp only [h, decide_false]
    by_cases hlt : j < b
    · simp [hlt]
    · simp [hlt, show j - b ≠ 0 by omega]

theorem and_mask_ne_zero (x : BitVec 32) {b : Nat} (hb : b < 32) :
    x &&& mask b ≠ 0#32 ↔ x.getLsbD b = true := by
  constructor
  · intro h
    by_contra hclear
    refine h (BitVec.eq_of_getLsbD_eq fun j hj => ?_)
    rw [BitVec.getLsbD_and, getLsbD_mask hj]
    by_cases e : j = b
    · rw [Bool.not_eq_true] at hclear
      simp [e, hclear]
    · simp [e]
  · intro hset h
    have := congrArg (BitVec.getLsbD · b) h
    simp [BitVec.getLsbD_and, getLsbD_mask hb, hset] at this

theorem isSet_eq (bm : Words) (i : Nat) : isSet bm i = (bm (i / 32)).getLsbD (i % 32) := by
  have := and_mask_ne_zero (bm (i / 32)) (Nat.mod_lt i (by decide : 0 < 32))
  rw [isSet, Bool.eq_iff_iff, decide_eq_true_iff, this]

theorem eq_of_div_mod {i j : Nat} (hd : j / 32 = i / 32) (hm : j % 32 = i % 32) : j = i := by
  omega

@[simp] theorem isSet_set (bm : Words) (i j : Nat) :
    isSet (set bm i) j = (decide (j = i) || isSet bm j) := by
  rw [isSet_eq, isSet_eq, set]
  by_cases hd : j / 32 = i / 32
  · rw [hd, Function.update_self, BitVec.getLsbD_or, getLsbD_mask (Nat.mod_lt _ (by decide))]
    by_cases hm : j % 32 = i % 32
    · simp [eq_of_div_mod hd hm]
    · have hne : j ≠ i := fun e => hm (by rw [e])
      simp [hm, hne]
  · have hne : j ≠ i := fun e => hd (by rw [e])
    rw [Function.update_of_ne hd]
    simp [hne]

@[simp] theorem isSet_clear (bm : Words) (i j : Nat) :
    isSet (clear bm i) j = (!decide (j = i) && isSet bm j) := by
  rw [isSet_eq, isSet_eq, clear]
  by_cases hd : j / 32 = i / 32
  · rw [hd, Function.update_self, BitVec.getLsbD_and, BitVec.getLsbD_not,
      getLsbD_mask (Nat.mod_lt _ (by decide))]
    by_cases hm : j % 32 = i % 32
    · simp [eq_of_div_mod hd hm]
    · have hne : j ≠ i := fun e => hm (by rw [e])
      simp [hm, hne, Nat.mod_lt j (by decide : 0 < 32)]
  · have hne : j ≠ i := fun e => hd (by rw [e])
    rw [Function.update_of_ne hd]
    simp [hne]

theorem firstFree_some {n i : Nat} {bm : Words} (h : firstFree n bm = some i) :
    isSet bm i = false ∧ i < n * 32 := by
  obtain ⟨w, hw, hfound⟩ := List.exists_of_findSome?_eq_some h
  split_ifs at hfound
  obtain ⟨b, hb, hbit⟩ := List.exists_of_findSome?_eq_some hfound
  split_ifs at hbit with hclear
  obtain rfl := Option.some.inj hbit
  rw [List.mem_range] at hw hb
  have hdiv : (w * 32 + b) / 32 = w := by omega
  have hmod : (w * 32 + b) % 32 = b := by omega
  refine ⟨?_, by omega⟩
  rw [isSet, hdiv, hmod]
  simp [hclear]

theorem isSome_firstFree {n i : Nat} {bm : Words} (hi : isSet bm i = false) (hn : i < n * 32) :
    (firstFree n bm).isSome = true := by
  rw [firstFree, List.findSome?_isSome_iff]
  have hclear : bm (i / 32) &&& mask (i % 32) = 0#32 := by simpa [isSet] using hi
  refine ⟨i / 32, by rw [List.mem_range]; omega, ?_⟩
  have hne : bm (i / 32) ≠ 0xFFFFFFFF#32 := by
    intro hall
    rw [isSet_eq, hall] at hi
    have hlt : i % 32 < 32 := Nat.mod_lt _ (by decide)
    revert hi
    generalize i % 32 = b at hlt
    decide +revert
  rw [if_pos hne, List.findSome?_isSome_iff]
  exact ⟨i % 32, by rw [List.mem_range]; omega, by rw [if_pos hclear]; rfl⟩

end Bitmap
