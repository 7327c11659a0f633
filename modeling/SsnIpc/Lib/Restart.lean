import Mathlib.Data.Nat.Find
import SsnIpc.Lib.Framing

/-!
# A framer that starts over

A receiver that goes on after a rejected stream drops what it holds and starts over with the next
chunk. Where it starts over then depends on how the stream was cut into chunks, and so may what it
emits.

**Theorem (`Framer.emitted_iff`).** For chunks of at most `M` elements, every cut of a stream
gives the frames before the first rejection and nothing else, exactly when the stream is not
rejected or no complete frame starts anywhere behind the rejected header.

If a frame starts at `p` behind the header, take the first such place. A chunk that ends the
header and goes on, then chunks of full size up to `p`, are each rejected whole: a full chunk is
never waited on, and a frame at its front would be an earlier place. So the receiver starts over
exactly at `p`.
-/

namespace Framing.Framer

variable {α : Type*} (F : Framer α)

/-- What is held after a chunk: the leftover, or nothing if the stream was rejected. -/
def held (u b : List α) : List α := (F.parse (u ++ b)).2.getD []

def heldAll (u : List α) (bs : List (List α)) : List α := bs.foldl F.held u

def emitted (u : List α) : List (List α) → List (List α)
  | [] => []
  | b :: bs => (F.parse (u ++ b)).1 ++ emitted (F.held u b) bs

/-- A cut of a stream into chunks of at most `M` elements. -/
def IsCut (M : Nat) (s : List α) (bs : List (List α)) : Prop :=
  bs.flatten = s ∧ ∀ b ∈ bs, b ≠ [] ∧ b.length ≤ M

variable {F} {u s t : List α} {bs bs' : List (List α)} {n : Nat}

theorem heldAll_append : F.heldAll u (bs ++ bs') = F.heldAll (F.heldAll u bs) bs' :=
  List.foldl_append

theorem emitted_append :
    F.emitted u (bs ++ bs') = F.emitted u bs ++ F.emitted (F.heldAll u bs) bs' := by
  induction bs generalizing u with
  | nil => rfl
  | cons b bs ih =>
    rw [List.cons_append, emitted, emitted, ih, List.append_assoc]
    rfl

theorem IsCut.append {M : Nat} (h : IsCut M s bs) (h' : IsCut M t bs') :
    IsCut M (s ++ t) (bs ++ bs') := by
  refine ⟨by rw [List.flatten_append, h.1, h'.1], fun b hb => ?_⟩
  exact (List.mem_append.1 hb).elim (h.2 b) (h'.2 b)

theorem isCut_single {M : Nat} {b : List α} (h : b ≠ []) (hle : b.length ≤ M) : IsCut M b [b] := by
  refine ⟨by simp, fun b' hb' => ?_⟩
  obtain rfl := List.mem_singleton.1 hb'
  exact ⟨h, hle⟩

theorem exists_isCut {M : Nat} (hM : 0 < M) (s : List α) : ∃ bs, IsCut M s bs := by
  induction s with
  | nil => exact ⟨[], rfl, by simp⟩
  | cons a s ih =>
    obtain ⟨bs, hbs⟩ := ih
    exact ⟨[a] :: bs, (isCut_single (by simp) hM).append hbs⟩

/-! ## Up to the first rejection -/

/-- As long as the stream is not rejected the cut does not matter. -/
theorem emitted_of_leftover {r : List α} (hu : F.next u = .wait)
    (h : (F.parse (u ++ bs.flatten)).2 = some r) :
    F.emitted u bs = (F.parse (u ++ bs.flatten)).1 ∧ F.heldAll u bs = r := by
  induction bs generalizing u with
  | nil =>
    rw [List.flatten_nil, List.append_nil, parse_wait hu] at h ⊢
    exact ⟨rfl, Option.some.inj h⟩
  | cons b bs ih =>
    rw [List.flatten_cons, ← List.append_assoc] at h ⊢
    cases hp : (F.parse (u ++ b)).2 with
    | none =>
      rw [parse_append_none hp, hp] at h
      cases h
    | some r' =>
      have hheld : F.held u b = r' := by rw [held, hp]; rfl
      rw [parse_append_some hp] at h ⊢
      obtain ⟨he, hl⟩ := ih (next_of_leftover hp) h
      refine ⟨by rw [emitted, hheld, he], ?_⟩
      rw [heldAll, List.foldl_cons, hheld]
      exact hl

/-- A stream in which no frame starts anywhere emits nothing. -/
theorem emitted_of_no_frame (h : ∀ p n, F.next ((u ++ bs.flatten).drop p) ≠ .emit n) :
    F.emitted u bs = [] := by
  induction bs generalizing u with
  | nil => rfl
  | cons b bs ih =>
    rw [List.flatten_cons, ← List.append_assoc] at h
    rw [emitted, held]
    cases hn : F.next (u ++ b) with
    | wait =>
      rw [parse_wait hn]
      exact ih h
    | reject =>
      rw [parse_reject hn]
      refine ih fun p n => ?_
      have := h ((u ++ b).length + p) n
      rwa [List.drop_length_add_append] at this
    | emit n =>
      refine absurd ?_ (h 0 n)
      rw [List.drop_zero, F.stable _ (by simp [hn]), hn]

/-- A rejected stream with no frame behind the bad header emits the frames before it. -/
theorem emitted_of_reject {H : Nat} (hrej : ∀ s, F.next s = .reject → H ≤ s.length)
    (hu : F.next u = .wait) (hnone : (F.parse (u ++ bs.flatten)).2 = none)
    (h : ∀ p n, (F.parse (u ++ bs.flatten)).1.flatten.length + H ≤ p →
      F.next ((u ++ bs.flatten).drop p) ≠ .emit n) :
    F.emitted u bs = (F.parse (u ++ bs.flatten)).1 := by
  induction bs generalizing u with
  | nil =>
    rw [List.flatten_nil, List.append_nil, parse_wait hu] at hnone
    cases hnone
  | cons b bs ih =>
    rw [List.flatten_cons, ← List.append_assoc] at hnone h ⊢
    rw [emitted, held]
    cases hp : (F.parse (u ++ b)).2 with
    | none =>
      -- The chunk is dropped with the bad header, and no frame starts behind it.
      obtain ⟨r, hr, hrn⟩ := exists_reject hp
      have hlen := congrArg List.length hr
      have hH := hrej r hrn
      rw [List.length_append] at hlen
      rw [parse_append_none hp] at h ⊢
      rw [Option.getD_none, emitted_of_no_frame, List.append_nil]
      intro p n
      have := h ((u ++ b).length + p) n (by omega)
      rwa [List.drop_length_add_append] at this
    | some r =>
      have hsplit := flatten_append_leftover hp
      rw [parse_append_some hp] at hnone h ⊢
      rw [Option.getD_some, ih (next_of_leftover hp) hnone]
      intro p n hle
      have hlate := h ((F.parse (u ++ b)).1.flatten.length + p) n (by
        rw [List.flatten_append, List.length_append]
        omega)
      have hstream : u ++ b ++ bs.flatten =
          (F.parse (u ++ b)).1.flatten ++ (r ++ bs.flatten) := by
        rw [← List.append_assoc, hsplit]
      rwa [hstream, List.drop_length_add_append] at hlate

/-! ## Behind a rejection -/

section Bounded

variable {M H : Nat} (hwait : ∀ s, F.next s = .wait → s.length < M)
  (hshort : ∀ s, s.length < H → F.next s = .wait)
  (hrej : ∀ s, F.next s = .reject → H ≤ s.length ∧ F.next (s.take H) = .reject) (hH : 0 < H)

include hwait

theorem emit_le_bound (h : F.next s = .emit n) : n ≤ M := by
  by_contra hlt
  have hlen : (s.take M).length = M := by
    have := F.emit_le h
    rw [List.length_take]
    omega
  have hne : F.next (s.take M) ≠ .wait := fun hw => by
    have := hwait _ hw
    omega
  have hsame := F.stable (s.drop M) hne
  rw [List.take_append_drop, h] at hsame
  have := F.emit_le hsame.symm
  omega

/-- Full chunks at whose places no frame starts are rejected one by one. -/
theorem exists_rejected_cut (hM : 0 < M) {q k : Nat} (hle : q + k * M ≤ s.length)
    (h : ∀ p, q ≤ p → p < q + k * M → ∀ n, F.next (s.drop p) ≠ .emit n) :
    ∃ bs, IsCut M ((s.drop q).take (k * M)) bs ∧ F.heldAll [] bs = [] := by
  induction k generalizing q with
  | zero => exact ⟨[], ⟨by simp, by simp⟩, rfl⟩
  | succ k ih =>
    have hmul : (k + 1) * M = M + k * M := by rw [Nat.succ_mul, Nat.add_comm]
    rw [hmul] at hle h ⊢
    have hlen : ((s.drop q).take M).length = M := by
      rw [List.length_take, List.length_drop]
      omega
    have hreject : F.next ((s.drop q).take M) = .reject := by
      cases hn : F.next ((s.drop q).take M) with
      | reject => rfl
      | wait =>
        have := hwait _ hn
        omega
      | emit n =>
        have hsame := F.stable ((s.drop q).drop M) (s := (s.drop q).take M) (by simp [hn])
        rw [List.take_append_drop, hn] at hsame
        exact absurd hsame (h q (Nat.le_refl _) (by omega) n)
    obtain ⟨bs, hcut, hheld⟩ := ih (q := q + M) (by omega) fun p hp hlt => h p (by omega) (by omega)
    refine ⟨(s.drop q).take M :: bs, ?_, ?_⟩
    · rw [List.take_add, List.drop_drop]
      exact (isCut_single (List.ne_nil_of_length_pos (by omega)) (by omega)).append hcut
    · rw [heldAll, List.foldl_cons, held, List.nil_append, parse_reject hreject]
      exact hheld

include hshort hrej hH

/-- A frame behind a bad header is emitted by some cut. -/
theorem exists_restart {p : Nat} (hbad : F.next s = .reject) (hp : H ≤ p)
    (hemit : F.next (s.drop p) = .emit n)
    (hfirst : ∀ q, H ≤ q → q < p → ∀ n, F.next (s.drop q) ≠ .emit n) :
    ∃ bs, IsCut M s bs ∧ F.emitted [] bs ≠ [] := by
  have hM : 0 < M := hwait [] (hshort [] hH)
  obtain ⟨hHs, hhead⟩ := hrej s hbad
  -- From the last element of the header on, `p` is one chunk of `r` elements and `k` full ones.
  obtain ⟨r, k, hr, hrM, hpk⟩ : ∃ r k, 0 < r ∧ r ≤ M ∧ p = (H - 1 + r) + k * M := by
    refine ⟨(p - H) % M + 1, (p - H) / M, Nat.succ_pos _, Nat.mod_lt _ hM, ?_⟩
    have := Nat.mod_add_div (p - H) M
    rw [Nat.mul_comm] at this
    omega
  have hlen : n ≤ s.length - p := by simpa using F.emit_le hemit
  have hn := F.emit_pos hemit
  obtain ⟨bsA, hA⟩ := exists_isCut hM (s.take (H - 1))
  obtain ⟨bsM, hcutM, hheldM⟩ := exists_rejected_cut hwait (s := s) (q := H - 1 + r) (k := k) hM
    (by omega) fun q hq hlt => hfirst q (by omega) (by omega)
  obtain ⟨bsR, hR⟩ := exists_isCut hM ((s.drop p).drop n)
  have hnil : F.next [] = .wait := hshort [] hH
  have hheldA : F.heldAll [] bsA = s.take (H - 1) := by
    have hw : F.next (s.take (H - 1)) = .wait := hshort _ (by rw [List.length_take]; omega)
    refine (emitted_of_leftover hnil ?_).2
    rw [List.nil_append, hA.1, parse_wait hw]
  have hheldB : F.heldAll (s.take (H - 1)) [(s.drop (H - 1)).take r] = [] := by
    have hsplit : s.take (H - 1) ++ (s.drop (H - 1)).take r =
        s.take H ++ (s.drop H).take (r - 1) := by
      rw [← List.take_add, ← List.take_add]
      congr 1
      omega
    have hreject : F.next (s.take (H - 1) ++ (s.drop (H - 1)).take r) = .reject := by
      rw [hsplit, F.stable _ (by simp [hhead]), hhead]
    rw [heldAll, List.foldl_cons, held, parse_reject hreject]
    rfl
  have hcutB : IsCut M ((s.drop (H - 1)).take r) [(s.drop (H - 1)).take r] := by
    have hlenB : ((s.drop (H - 1)).take r).length = r := by
      rw [List.length_take, List.length_drop]
      omega
    exact isCut_single (List.ne_nil_of_length_pos (by omega)) (by omega)
  have hcutF : IsCut M ((s.drop p).take n) [(s.drop p).take n] := by
    have hlenF : ((s.drop p).take n).length = n := by
      rw [List.length_take, List.length_drop]
      omega
    have := emit_le_bound hwait hemit
    exact isCut_single (List.ne_nil_of_length_pos (by omega)) (by omega)
  have hframe : F.emitted [] [(s.drop p).take n] ≠ [] := by
    rw [emitted, List.nil_append, parse_emit (F.emit_take hemit)]
    simp
  refine ⟨bsA ++ ([(s.drop (H - 1)).take r] ++ (bsM ++ ([(s.drop p).take n] ++ bsR))), ?_, ?_⟩
  · have hdrop : s.drop p = (s.drop (H - 1 + r)).drop (k * M) := by rw [List.drop_drop, hpk]
    have hcut := hA.append (hcutB.append (hcutM.append (hcutF.append hR)))
    rw [List.take_append_drop n, hdrop, List.take_append_drop, ← List.drop_drop,
      List.take_append_drop, List.take_append_drop] at hcut
    rwa [hdrop, ← List.drop_drop]
  · intro h
    simp only [emitted_append, hheldA, hheldB, hheldM, List.append_eq_nil_iff] at h
    exact hframe h.2.2.2.1

/-- **When chunking does not matter.** -/
theorem emitted_iff (s : List α) :
    (∀ bs, IsCut M s bs → F.emitted [] bs = (F.parse s).1) ↔
      ((F.parse s).2 = none →
        ∀ p n, (F.parse s).1.flatten.length + H ≤ p → F.next (s.drop p) ≠ .emit n) := by
  have hnil : F.next [] = .wait := hshort [] hH
  have hM : 0 < M := hwait [] hnil
  constructor
  · -- Cut the stream so that a chunk starts at the first frame behind the bad header.
    intro hall hnone
    by_contra hlate
    simp only [not_forall, not_not] at hlate
    obtain ⟨p, n, hp, hemit⟩ := hlate
    obtain ⟨bad, hs, hbad⟩ := exists_reject hnone
    have hex : ∃ p, H ≤ p ∧ ∃ n, F.next (bad.drop p) = .emit n := by
      have hdrop : ((F.parse s).1.flatten ++ bad).drop ((F.parse s).1.flatten.length +
          (p - (F.parse s).1.flatten.length)) = bad.drop (p - (F.parse s).1.flatten.length) :=
        List.drop_length_add_append _
      rw [hs, Nat.add_sub_of_le (by omega)] at hdrop
      exact ⟨p - (F.parse s).1.flatten.length, by omega, n, hdrop ▸ hemit⟩
    classical
    obtain ⟨hp₀, n₀, hemit₀⟩ := Nat.find_spec hex
    obtain ⟨bs, hcut, hne⟩ := exists_restart hwait hshort hrej hH hbad hp₀ hemit₀
      fun q hq hlt n hn => Nat.find_min hex hlt ⟨hq, n, hn⟩
    obtain ⟨bsF, hF⟩ := exists_isCut hM (F.parse s).1.flatten
    have hparse : F.parse (F.parse s).1.flatten = ((F.parse s).1, some []) := by
      have := parse_flatten (r := []) (F.parse s).1 fun f hf => next_of_mem hf
      rwa [List.append_nil, parse_wait hnil, List.append_nil] at this
    have hstream : F.parse ([] ++ bsF.flatten) = ((F.parse s).1, some []) := by
      rw [List.nil_append, hF.1, hparse]
    obtain ⟨hfront, hheld⟩ := emitted_of_leftover (r := []) hnil (by rw [hstream])
    rw [hstream] at hfront
    have hbs := hall (bsF ++ bs) (by have := hF.append hcut; rwa [hs] at this)
    rw [emitted_append, hfront, hheld] at hbs
    exact hne (List.append_right_eq_self.1 hbs)
  · rintro h bs ⟨rfl, -⟩
    cases hp : (F.parse bs.flatten).2 with
    | none => exact emitted_of_reject (fun s hs => (hrej s hs).1) hnil hp (h hp)
    | some r => exact (emitted_of_leftover hnil hp).1

end Bounded

end Framing.Framer
