import Mathlib.Data.List.Forall2
import Mathlib.Data.List.Nodup

/-!
# Members of lists

Facts about members that `Mathlib` does not have: of a list with one entry replaced, of related
lists, and of lists without duplicates.
-/

namespace Lists

variable {α β : Type*}

theorem mem_set_of_ne {l : List α} {x y z : α} {i : Nat} (hx : x ∈ l) (hy : l[i]? = some y)
    (hne : y ≠ x) : x ∈ l.set i z := by
  obtain ⟨j, hj⟩ := List.mem_iff_getElem?.1 hx
  have hij : i ≠ j := by
    rintro rfl
    exact hne (Option.some.inj (hy.symm.trans hj))
  exact List.mem_iff_getElem?.2 ⟨j, by rw [List.getElem?_set_ne hij, hj]⟩

theorem exists_of_forall₂ {R : α → β → Prop} {l : List α} {l' : List β}
    (h : List.Forall₂ R l l') {b : β} (hb : b ∈ l') : ∃ a ∈ l, R a b := by
  induction h with
  | nil => cases hb
  | cons hr _ ih =>
    rcases List.mem_cons.1 hb with rfl | hb
    · exact ⟨_, List.mem_cons_self, hr⟩
    · obtain ⟨a, ha, hr'⟩ := ih hb
      exact ⟨a, List.mem_cons_of_mem _ ha, hr'⟩

/-- A list without duplicates that has the members of an option is that option. -/
theorem eq_toList_of_nodup {l : List α} {o : Option α} (hl : l.Nodup)
    (h : ∀ a, a ∈ l ↔ o = some a) : l = o.toList := by
  have hperm : l.Perm o.toList := by
    refine (List.perm_ext_iff_of_nodup hl ?_).2 fun a => by rw [h, Option.mem_toList]
    cases o with
    | none => exact List.nodup_nil
    | some a => exact List.nodup_singleton a
  cases o with
  | none => exact hperm.eq_nil
  | some a => exact List.perm_singleton.1 hperm

theorem flatMap_of_single {l : List α} {f : α → List β} {a : α} (hnd : l.Nodup)
    (ha : a ∈ l) (h : ∀ b ∈ l, b ≠ a → f b = []) : l.flatMap f = f a := by
  induction l with
  | nil => cases ha
  | cons b l ih =>
    obtain ⟨hb, hnd⟩ := List.nodup_cons.1 hnd
    rw [List.flatMap_cons]
    by_cases hba : b = a
    · subst hba
      have hrest : l.flatMap f = [] := by
        rw [List.flatMap_eq_nil_iff]
        intro c hc
        refine h c (List.mem_cons_of_mem _ hc) ?_
        rintro rfl
        exact hb hc
      rw [hrest, List.append_nil]
    · rw [h b List.mem_cons_self hba, List.nil_append]
      refine ih hnd ?_ fun c hc => h c (List.mem_cons_of_mem _ hc)
      exact (List.mem_cons.1 ha).resolve_left (Ne.symm hba)

end Lists
