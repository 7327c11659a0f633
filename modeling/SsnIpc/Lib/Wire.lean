import SsnIpc.Lib.Restart

/-!
# Frames on a wire

A sender puts frames on a wire one after the other. The wire takes a frame whole, or it takes the
beginning of it and fails; a sender that sees a failure writes nothing more.

**Theorem (`Wire.emitted`).** Whatever part of the bytes has arrived, and in whatever chunks, the
receiver has cut from it the first of the frames that the wire took whole, in their order, and all
of them once every byte has arrived.

The bytes written are the whole frames and a rest that the framer waits on (`Wire.written_eq`), so
no header in them is ever rejected and the cut into chunks does not matter.
-/

namespace Framing

variable {α : Type*}

/-- An attempt to put a frame on a wire: what the wire took, and whether it reported success. -/
structure Attempt (α : Type*) where
  frame : List α
  taken : List α
  ok : Bool

/-- A success is a whole frame; what is taken without one is not enough for a frame. -/
structure Attempt.Fair (F : Framer α) (a : Attempt α) : Prop where
  whole : a.ok = true → a.taken = a.frame ∧ F.next a.frame = .emit a.frame.length
  part : a.ok = false → F.next a.taken = .wait

def written (as : List (Attempt α)) : List α := as.flatMap Attempt.taken

/-- The frames that were taken whole. -/
def wholes (as : List (Attempt α)) : List (List α) := (as.filter Attempt.ok).map Attempt.frame

/-- The attempts of a sender that stops at the first failure. -/
structure Wire (F : Framer α) (as : List (Attempt α)) : Prop where
  fair : ∀ a ∈ as, a.Fair F
  stops : as.Pairwise fun a b => a.ok = false → b.ok = false ∧ b.taken = []

namespace Wire

variable {F : Framer α} {as : List (Attempt α)} {bs : List (List α)}

theorem nil : Wire F [] := ⟨by simp, .nil⟩

/-- One more attempt, of which nothing is taken if there was a failure before. -/
theorem append (h : Wire F as) {a : Attempt α} (ha : a.Fair F)
    (hstop : (∃ b ∈ as, b.ok = false) → a.ok = false ∧ a.taken = []) : Wire F (as ++ [a]) := by
  refine ⟨fun b hb => ?_, ?_⟩
  · rcases List.mem_append.1 hb with hb | hb
    · exact h.fair b hb
    · obtain rfl := List.mem_singleton.1 hb
      exact ha
  · refine List.pairwise_append.2 ⟨h.stops, List.pairwise_singleton .., fun b hb c hc hok => ?_⟩
    obtain rfl := List.mem_singleton.1 hc
    exact hstop ⟨b, hb, hok⟩

theorem written_of_failed (h : ∀ b ∈ as, b.ok = false ∧ b.taken = []) :
    written as = [] ∧ wholes as = [] := by
  refine ⟨List.flatMap_eq_nil_iff.2 fun b hb => (h b hb).2, ?_⟩
  rw [wholes, List.map_eq_nil_iff, List.filter_eq_nil_iff]
  intro b hb
  simp [(h b hb).1]

/-- **What is on the wire:** whole frames, and a rest that is not enough for another one. -/
theorem written_eq (hnil : F.next [] = .wait) (h : Wire F as) :
    ∃ rest, F.next rest = .wait ∧ written as = (wholes as).flatten ++ rest := by
  induction as with
  | nil => exact ⟨[], hnil, rfl⟩
  | cons a as ih =>
    obtain ⟨hfair, hstops⟩ := h
    rw [List.forall_mem_cons] at hfair
    rw [List.pairwise_cons] at hstops
    cases hok : a.ok with
    | true =>
      obtain ⟨rest, hrest, heq⟩ := ih ⟨hfair.2, hstops.2⟩
      refine ⟨rest, hrest, ?_⟩
      have hw : wholes (a :: as) = a.frame :: wholes as := by simp [wholes, hok]
      rw [hw, List.flatten_cons, List.append_assoc, ← heq, ← (hfair.1.whole hok).1]
      rfl
    | false =>
      obtain ⟨hnone, hwholes⟩ := written_of_failed fun b hb => hstops.1 b hb hok
      refine ⟨a.taken, hfair.1.part hok, ?_⟩
      have hw : wholes (a :: as) = wholes as := by simp [wholes, hok]
      have hsplit : written (a :: as) = a.taken ++ written as := rfl
      rw [hw, hwholes, hsplit, hnone, List.append_nil, List.flatten_nil, List.nil_append]

/-- The framer cuts what is on the wire into the whole frames. -/
theorem parse_written (hnil : F.next [] = .wait) (h : Wire F as) :
    ∃ rest, F.parse (written as) = (wholes as, some rest) := by
  obtain ⟨rest, hrest, heq⟩ := h.written_eq hnil
  refine ⟨rest, ?_⟩
  rw [heq, Framer.parse_flatten, Framer.parse_wait hrest, List.append_nil]
  intro f hf
  obtain ⟨a, ha, rfl⟩ := List.mem_map.1 hf
  rw [List.mem_filter] at ha
  exact ((h.fair a ha.1).whole ha.2).2

/-- **The receiver gets the frames in order.** -/
theorem emitted (hnil : F.next [] = .wait) (h : Wire F as) (hbs : bs.flatten <+: written as) :
    F.emitted [] bs <+: wholes as ∧ (bs.flatten = written as → F.emitted [] bs = wholes as) := by
  obtain ⟨rest, hparse⟩ := h.parse_written hnil
  obtain ⟨t, ht⟩ := hbs
  cases hp : (F.parse bs.flatten).2 with
  | none =>
    have hnone := Framer.parse_append_none (t := t) hp
    rw [ht, hparse] at hnone
    rw [← hnone] at hp
    cases hp
  | some r =>
    have he : F.emitted [] bs = (F.parse bs.flatten).1 := (Framer.emitted_of_leftover hnil hp).1
    have hsome := Framer.parse_append_some (t := t) hp
    rw [ht, hparse] at hsome
    refine ⟨?_, fun hall => ?_⟩
    · rw [he, (Prod.mk.inj hsome).1]
      exact List.prefix_append ..
    · rw [he, hall, hparse]

end Wire

end Framing
