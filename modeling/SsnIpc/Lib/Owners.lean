import Mathlib.Data.Finset.Basic
import Mathlib.Logic.Function.Basic

/-!
# Owners of resources

Each owner holds at most one resource. The resources in use are well owned if every one of them is
held by exactly one owner, and nothing else is held: none is lost and none is shared. Taking a
resource that is not in use and giving one's own back keep it so.
-/

variable {ι R : Type*}

/-- Every resource in use is held by exactly one owner, and only those are held. -/
structure Owners (inUse : Finset R) (held : ι → Option R) : Prop where
  mem_iff : ∀ r, r ∈ inUse ↔ ∃ i, held i = some r
  inj : ∀ {i j r}, held i = some r → held j = some r → i = j

namespace Owners

variable {inUse : Finset R} {held : ι → Option R} {i : ι} {r : R}

theorem empty : Owners (∅ : Finset R) fun _ : ι => none :=
  ⟨fun r => by simp, fun h => by cases h⟩

variable [DecidableEq ι] [DecidableEq R]

theorem take (h : Owners inUse held) (hi : held i = none) (hr : r ∉ inUse) :
    Owners (insert r inUse) (Function.update held i (some r)) := by
  -- An owner afterwards is the new one with `r`, or an old one with something else.
  have hold {j : ι} {r' : R} (hj : Function.update held i (some r) j = some r') :
      j = i ∧ r' = r ∨ held j = some r' ∧ r' ≠ r := by
    by_cases hji : j = i
    · subst hji
      rw [Function.update_self] at hj
      exact .inl ⟨rfl, (Option.some.inj hj).symm⟩
    · rw [Function.update_of_ne hji] at hj
      refine .inr ⟨hj, fun hrr => hr ?_⟩
      subst hrr
      exact (h.mem_iff r').2 ⟨j, hj⟩
  refine ⟨fun r' => ?_, fun hj hk => ?_⟩
  · rw [Finset.mem_insert, h.mem_iff]
    constructor
    · rintro (rfl | ⟨j, hj⟩)
      · exact ⟨i, Function.update_self ..⟩
      · refine ⟨j, (Function.update_of_ne ?_ ..).trans hj⟩
        rintro rfl
        rw [hi] at hj
        cases hj
    · rintro ⟨j, hj⟩
      rcases hold hj with ⟨-, rfl⟩ | ⟨hj, -⟩
      · exact .inl rfl
      · exact .inr ⟨j, hj⟩
  · rcases hold hj with ⟨rfl, rfl⟩ | ⟨hj, hne⟩ <;> rcases hold hk with ⟨rfl, hr'⟩ | ⟨hk, hne'⟩
    · rfl
    · exact absurd rfl hne'
    · exact absurd hr' hne
    · exact h.inj hj hk

theorem give (h : Owners inUse held) (hi : held i = some r) :
    Owners (inUse.erase r) (Function.update held i none) := by
  have hold {j : ι} {r' : R} :
      Function.update held i none j = some r' ↔ held j = some r' ∧ r' ≠ r := by
    by_cases hji : j = i
    · subst hji
      rw [Function.update_self, hi]
      constructor
      · intro hj
        cases hj
      · rintro ⟨hj, hne⟩
        exact absurd (Option.some.inj hj).symm hne
    · rw [Function.update_of_ne hji]
      constructor
      · intro hj
        refine ⟨hj, fun hrr => hji ?_⟩
        subst hrr
        exact h.inj hj hi
      · exact And.left
  refine ⟨fun r' => ?_, fun hj hk => h.inj (hold.1 hj).1 (hold.1 hk).1⟩
  rw [Finset.mem_erase, h.mem_iff]
  constructor
  · rintro ⟨hne, j, hj⟩
    exact ⟨j, hold.2 ⟨hj, hne⟩⟩
  · rintro ⟨j, hj⟩
    exact ⟨(hold.1 hj).2, j, (hold.1 hj).1⟩

end Owners
