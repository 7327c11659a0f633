import Mathlib.Data.List.Basic
import Mathlib.Tactic.Common

/-!
# Framing a stream

A framed stream is cut greedily: look at what is left, and either wait for more, reject the
stream, or emit a frame of `n` elements and go on with the rest. `Framer` is the rule that
decides; `Framer.parse` is the greedy cut.

The point of the laws of `Framer` is that the cut does not depend on how the stream arrives. A
verdict other than `wait` is final (`stable`), so parsing a longer stream agrees with parsing
the shorter one and then the leftover with the rest appended.

**Theorem (`Framer.parse_append`).** Parsing `s ++ t` is parsing `s` and, unless that rejected,
parsing the leftover of `s` followed by `t`.
-/

namespace Framing

/-- What a framer says of the elements that are left. -/
inductive Verdict
  | wait
  | reject
  | emit (n : Nat)
  deriving DecidableEq, Repr

/-- A rule that cuts frames off the front of a stream. -/
structure Framer (α : Type*) where
  /-- The verdict on what is left of the stream. -/
  next : List α → Verdict
  emit_pos : ∀ {s n}, next s = .emit n → 0 < n
  emit_le : ∀ {s n}, next s = .emit n → n ≤ s.length
  /-- A verdict is final: more elements do not change it. -/
  stable : ∀ {s} t, next s ≠ .wait → next (s ++ t) = next s
  /-- A frame is recognised by its own elements. -/
  emit_take : ∀ {s n}, next s = .emit n → next (s.take n) = .emit n

namespace Framer

variable {α : Type*} (F : Framer α)

/-- The frames at the front of `s`, and the leftover the framer waits on (`none` when the stream
is rejected). -/
def parse (s : List α) : List (List α) × Option (List α) :=
  match _h : F.next s with
  | .wait => ([], some s)
  | .reject => ([], none)
  | .emit n => (s.take n :: (parse (s.drop n)).1, (parse (s.drop n)).2)
termination_by s.length
decreasing_by
  all_goals
    have := F.emit_pos _h
    have := F.emit_le _h
    rw [List.length_drop]
    omega

variable {F} {s t r : List α} {n : Nat}

theorem parse_wait (h : F.next s = .wait) : F.parse s = ([], some s) := by
  rw [parse]; split <;> simp_all

theorem parse_reject (h : F.next s = .reject) : F.parse s = ([], none) := by
  rw [parse]; split <;> simp_all

theorem parse_emit (h : F.next s = .emit n) :
    F.parse s = (s.take n :: (F.parse (s.drop n)).1, (F.parse (s.drop n)).2) := by
  rw [parse]; split <;> simp_all

/-- Induction along the greedy cut. -/
theorem parse_induction {P : List α → Prop} (hw : ∀ s, F.next s = .wait → P s)
    (hr : ∀ s, F.next s = .reject → P s)
    (he : ∀ s n, F.next s = .emit n → P (s.drop n) → P s) (s : List α) : P s := by
  induction hlen : s.length using Nat.strongRecOn generalizing s with
  | _ len ih =>
    subst hlen
    cases h : F.next s with
    | wait => exact hw s h
    | reject => exact hr s h
    | emit n =>
      have := F.emit_pos h
      have := F.emit_le h
      exact he s n h (ih (s.drop n).length (by rw [List.length_drop]; omega) _ rfl)

/-- **The cut does not depend on how the stream arrives.** -/
theorem parse_append (s t : List α) :
    F.parse (s ++ t) = match (F.parse s).2 with
      | none => F.parse s
      | some r => ((F.parse s).1 ++ (F.parse (r ++ t)).1, (F.parse (r ++ t)).2) := by
  induction s using parse_induction (F := F) with
  | hw s h => simp [parse_wait h]
  | hr s h =>
    have h' : F.next (s ++ t) = .reject := by rw [F.stable t (by simp [h]), h]
    simp [parse_reject h, parse_reject h']
  | he s n h ih =>
    have h' : F.next (s ++ t) = .emit n := by rw [F.stable t (by simp [h]), h]
    have hle := F.emit_le h
    rw [parse_emit h', parse_emit h, List.take_append_of_le_length hle,
      List.drop_append_of_le_length hle, ih]
    cases hp : (F.parse (s.drop n)).2 <;> simp [hp]

theorem parse_append_some (h : (F.parse s).2 = some r) :
    F.parse (s ++ t) = ((F.parse s).1 ++ (F.parse (r ++ t)).1, (F.parse (r ++ t)).2) := by
  rw [parse_append, h]

theorem parse_append_none (h : (F.parse s).2 = none) : F.parse (s ++ t) = F.parse s := by
  rw [parse_append, h]

theorem next_of_leftover (h : (F.parse s).2 = some r) : F.next r = .wait := by
  induction s using parse_induction (F := F) with
  | hw s hn =>
    rw [parse_wait hn] at h
    obtain rfl : s = r := by simpa using h
    exact hn
  | hr s hn => simp [parse_reject hn] at h
  | he s n hn ih => rw [parse_emit hn] at h; exact ih h

theorem flatten_append_leftover (h : (F.parse s).2 = some r) :
    (F.parse s).1.flatten ++ r = s := by
  induction s using parse_induction (F := F) with
  | hw s hn =>
    rw [parse_wait hn] at h ⊢
    simpa using h.symm
  | hr s hn => simp [parse_reject hn] at h
  | he s n hn ih =>
    rw [parse_emit hn] at h ⊢
    rw [List.flatten_cons, List.append_assoc, ih h, List.take_append_drop]

/-- A rejected stream is its frames followed by something the framer rejects. -/
theorem exists_reject (h : (F.parse s).2 = none) :
    ∃ r, (F.parse s).1.flatten ++ r = s ∧ F.next r = .reject := by
  induction s using parse_induction (F := F) with
  | hw s hn => simp [parse_wait hn] at h
  | hr s hn => exact ⟨s, by simp [parse_reject hn], hn⟩
  | he s n hn ih =>
    rw [parse_emit hn] at h
    obtain ⟨r, hr, hrej⟩ := ih h
    refine ⟨r, ?_, hrej⟩
    rw [parse_emit hn, List.flatten_cons, List.append_assoc, hr, List.take_append_drop]

theorem next_of_mem {f : List α} (h : f ∈ (F.parse s).1) : F.next f = .emit f.length := by
  induction s using parse_induction (F := F) with
  | hw s hn => simp [parse_wait hn] at h
  | hr s hn => simp [parse_reject hn] at h
  | he s n hn ih =>
    rw [parse_emit hn, List.mem_cons] at h
    rcases h with rfl | h
    · rw [F.emit_take hn, List.length_take, Nat.min_eq_left (F.emit_le hn)]
    · exact ih h

theorem parse_flatten (fs : List (List α)) (hfs : ∀ f ∈ fs, F.next f = .emit f.length) :
    F.parse (fs.flatten ++ r) = (fs ++ (F.parse r).1, (F.parse r).2) := by
  induction fs with
  | nil => simp
  | cons f fs ih =>
    have hf := hfs f (by simp)
    have h' : F.next (f ++ (fs.flatten ++ r)) = .emit f.length := by
      rw [F.stable _ (by simp [hf]), hf]
    rw [List.flatten_cons, List.append_assoc, parse_emit h', List.take_left, List.drop_left,
      ih fun g hg => hfs g (List.mem_cons_of_mem f hg), List.cons_append]

end Framer

end Framing
