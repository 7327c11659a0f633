import Mathlib.Data.List.Nodup
import Mathlib.Data.Set.Insert
import Mathlib.Logic.Function.Basic

/-!
# Ledgers of requests

Requests are issued under keys and are then open. An open request is closed by calling it, or it
is dropped. In a valid ledger a request is called at most once, and one that was issued is open,
called or dropped; issuing, calling and dropping keep a ledger valid (`Valid.issue`, `Valid.call`,
`Valid.drop`).
-/

variable {α κ : Type*}

/-- The request open under each key, and what became of the requests issued. -/
structure Ledger (α κ : Type*) where
  flight : α → Option κ
  issued : Set κ
  called : List κ
  dropped : Set κ

namespace Ledger

variable {l : Ledger α κ} {a b : α} {k k' : κ}

/-- Open requests were issued, under one key each, and have not been called or dropped; and no
request gets lost. -/
structure Valid (l : Ledger α κ) : Prop where
  flight_issued : ∀ {a k}, l.flight a = some k → k ∈ l.issued
  flight_inj : ∀ {a b k}, l.flight a = some k → l.flight b = some k → a = b
  flight_open : ∀ {a k}, l.flight a = some k → k ∉ l.called ∧ k ∉ l.dropped
  called_issued : ∀ {k}, k ∈ l.called → k ∈ l.issued
  dropped_issued : ∀ {k}, k ∈ l.dropped → k ∈ l.issued
  called_nodup : l.called.Nodup
  complete : ∀ {k}, k ∈ l.issued → (∃ a, l.flight a = some k) ∨ k ∈ l.called ∨ k ∈ l.dropped

section Update

variable [DecidableEq α]

def issue (l : Ledger α κ) (a : α) (k : κ) : Ledger α κ :=
  { l with flight := Function.update l.flight a (some k), issued := insert k l.issued }

def call (l : Ledger α κ) (a : α) (k : κ) : Ledger α κ :=
  { l with flight := Function.update l.flight a none, called := l.called ++ [k] }

/-- Drop a request, which may be closed already. -/
def drop (l : Ledger α κ) (a : α) (k : κ) : Ledger α κ :=
  { l with flight := Function.update l.flight a none, dropped := insert k l.dropped }

theorem update_none_eq_some {f : α → Option κ} (h : Function.update f a none b = some k) :
    b ≠ a ∧ f b = some k := by
  by_cases e : b = a
  · subst e
    rw [Function.update_self] at h
    cases h
  · rw [Function.update_of_ne e] at h
    exact ⟨e, h⟩

theorem Valid.issue (h : l.Valid) (ha : l.flight a = none) (hk : k ∉ l.issued) :
    (l.issue a k).Valid := by
  -- A key other than `a` holds what it held, and `k` is new.
  have hold {b : α} {k' : κ} (hb : (l.issue a k).flight b = some k') :
      (b = a ∧ k' = k) ∨ (l.flight b = some k' ∧ k' ≠ k) := by
    by_cases e : b = a
    · subst e
      exact .inl ⟨rfl, Option.some.inj (hb.symm.trans (Function.update_self ..))⟩
    · have hb' : l.flight b = some k' := (Function.update_of_ne e ..).symm.trans hb
      exact .inr ⟨hb', fun e' => hk (e' ▸ h.flight_issued hb')⟩
  refine ⟨fun hb => ?_, fun hb hc => ?_, fun hb => ?_, fun hk' => .inr (h.called_issued hk'),
    fun hk' => .inr (h.dropped_issued hk'), h.called_nodup, fun hk' => ?_⟩
  · rcases hold hb with ⟨-, rfl⟩ | ⟨hb, -⟩
    · exact .inl rfl
    · exact .inr (h.flight_issued hb)
  · rcases hold hb with ⟨rfl, rfl⟩ | ⟨hb, hne⟩ <;> rcases hold hc with ⟨rfl, hk'⟩ | ⟨hc, hne'⟩
    · rfl
    · exact absurd rfl hne'
    · exact absurd hk' hne
    · exact h.flight_inj hb hc
  · rcases hold hb with ⟨-, rfl⟩ | ⟨hb, -⟩
    · exact ⟨fun hc => hk (h.called_issued hc), fun hd => hk (h.dropped_issued hd)⟩
    · exact h.flight_open hb
  · rcases hk' with rfl | hk'
    · exact .inl ⟨a, Function.update_self ..⟩
    · rcases h.complete hk' with ⟨b, hb⟩ | hdone
      · have hne : b ≠ a := by
          rintro rfl
          rw [ha] at hb
          cases hb
        exact .inl ⟨b, (Function.update_of_ne hne ..).trans hb⟩
      · exact .inr hdone

theorem Valid.call (h : l.Valid) (ha : l.flight a = some k) : (l.call a k).Valid := by
  refine ⟨fun hb => h.flight_issued (update_none_eq_some hb).2,
    fun hb hc => h.flight_inj (update_none_eq_some hb).2 (update_none_eq_some hc).2,
    fun hb => ?_, fun hk => ?_, h.dropped_issued, ?_, fun hk => ?_⟩
  · obtain ⟨hne, hold⟩ := update_none_eq_some hb
    refine ⟨fun hc => ?_, (h.flight_open hold).2⟩
    rcases List.mem_append.1 hc with hc | hc
    · exact (h.flight_open hold).1 hc
    · rw [List.mem_singleton.1 hc] at hold
      exact hne (h.flight_inj hold ha)
  · rcases List.mem_append.1 hk with hk | hk
    · exact h.called_issued hk
    · obtain rfl := List.mem_singleton.1 hk
      exact h.flight_issued ha
  · refine List.nodup_append.2 ⟨h.called_nodup, List.nodup_singleton k, ?_⟩
    rintro x hx _ hk rfl
    obtain rfl := List.mem_singleton.1 hk
    exact (h.flight_open ha).1 hx
  · rcases h.complete hk with ⟨b, hb⟩ | hc | hd
    · by_cases e : b = a
      · obtain rfl : _ = k := Option.some.inj (hb.symm.trans (e ▸ ha))
        exact .inr (.inl (List.mem_append_right _ (List.mem_singleton_self _)))
      · exact .inl ⟨b, (Function.update_of_ne e ..).trans hb⟩
    · exact .inr (.inl (List.mem_append_left _ hc))
    · exact .inr (.inr hd)

/-- Only `k` may be open under the key, and only there. -/
theorem Valid.drop (h : l.Valid) (hk : k ∈ l.issued) (ha : ∀ k', l.flight a = some k' → k' = k)
    (hka : ∀ b, l.flight b = some k → b = a) : (l.drop a k).Valid := by
  refine ⟨fun hb => h.flight_issued (update_none_eq_some hb).2,
    fun hb hc => h.flight_inj (update_none_eq_some hb).2 (update_none_eq_some hc).2,
    fun hb => ?_, h.called_issued, fun hd => ?_, h.called_nodup, fun hk' => ?_⟩
  · obtain ⟨hne, hold⟩ := update_none_eq_some hb
    refine ⟨(h.flight_open hold).1, fun hd => ?_⟩
    rcases hd with hd | hd
    · exact hne (hka _ (hd ▸ hold))
    · exact (h.flight_open hold).2 hd
  · rcases hd with rfl | hd
    · exact hk
    · exact h.dropped_issued hd
  · rcases h.complete hk' with ⟨b, hb⟩ | hc | hd
    · by_cases e : b = a
      · exact .inr (.inr (.inl (ha _ (e ▸ hb))))
      · exact .inl ⟨b, (Function.update_of_ne e ..).trans hb⟩
    · exact .inr (.inl hc)
    · exact .inr (.inr (.inr hd))

end Update

end Ledger
