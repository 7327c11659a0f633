import Mathlib.Data.Fintype.Basic
import SsnIpc.Lib.Locking

/-!
# Many threads and the order of their locks

Threads run code of a library and share its state (`Machine`). A thread that takes a lock which
someone holds stays where it is. Callbacks take no lock, and apart from that user code does what it
likes: the state may change in any way between two steps.

**Rules** (`Above`). Every lock has a rank. Code that can be called with locks of ranks below `n`
takes a lock only if its rank is above those of the locks held, and ends with the locks it was
called with. Code that is called with a lock and releases it has rules of its own (`Releases`).

**Theorem (`nests_acyclic`).** If all functions of the library follow the rules, the relation "some
thread takes `b` while it holds `a`" over all runs has no cycle.

**Theorem (`Inv.no_deadlock`).** In no state that is reached does a thread wait for a lock whose
holder waits for a lock, and so on, around to the thread itself.
-/

namespace Locking

open Code Relation

variable {L σ α β : Type} (rank : L → Nat)

/-! ## Rules -/

/-- The locks held with `l` on top. -/
theorem forall_lt_cons {rank : L → Nat} {held : List L} {l : L} {n : Nat}
    (hheld : ∀ k ∈ held, rank k < n) (hl : n ≤ rank l) : ∀ k ∈ l :: held, rank k < rank l + 1 :=
  List.forall_mem_cons.2
    ⟨Nat.lt_succ_self _, fun k hk => ((hheld k hk).trans_le hl).trans (Nat.lt_succ_self _)⟩

section Rules

variable [DecidableEq L]

/-- Locks are taken upwards, only held locks are released, and `Q` holds of what the code returns
and of the locks held then. -/
def climbs : Code L σ α → List L → (α → List L → Prop) → Prop
  | .ret a, held, Q => Q a held
  | .lock l next, held, Q => (∀ k ∈ held, rank k < rank l) ∧ climbs next (l :: held) Q
  | .unlock l next, held, Q => l ∈ held ∧ climbs next (held.erase l) Q
  | .callback next, held, Q => climbs next held Q
  | .act f next, held, Q => ∀ s, climbs (next (f s).1) held Q
  | .wait, _, _ => True

/-- Called with the locks `held`, the code takes locks upwards and ends with `held'`. -/
def Climbs (held : List L) (x : Code L σ α) (held' : List L) : Prop :=
  climbs rank x held fun _ held'' => held'' = held'

/-- Called with locks of ranks below `n`, the code takes locks upwards and ends with the same
locks. -/
def Above (n : Nat) (x : Code L σ α) : Prop :=
  ∀ held, (∀ k ∈ held, rank k < n) → Climbs rank held x held

/-- Called with the lock `l` on top of locks of ranks below `n`, the code takes locks upwards and
ends with `l` released. -/
def Releases (n : Nat) (l : L) (x : Code L σ α) : Prop :=
  ∀ held, (∀ k ∈ held, rank k < n) → Climbs rank (l :: held) x held

variable {rank} {held held' held'' : List L} {x y : Code L σ α} {f : α → Code L σ β} {l : L}
  {m n : Nat}

theorem climbs_mono {Q Q' : α → List L → Prop} (h : climbs rank x held Q)
    (hQ : ∀ a held, Q a held → Q' a held) : climbs rank x held Q' := by
  induction x generalizing held with
  | ret a => exact hQ _ _ h
  | lock l next ih => exact ⟨h.1, ih h.2⟩
  | unlock l next ih => exact ⟨h.1, ih h.2⟩
  | callback next ih => exact ih h
  | act g next ih => exact fun s => ih _ (h s)
  | wait => trivial

theorem climbs_bind {Q : β → List L → Prop}
    (h : climbs rank x held fun a held' => climbs rank (f a) held' Q) :
    climbs rank (x >>= f) held Q := by
  show climbs rank (x.bind f) held Q
  induction x generalizing held with
  | ret a => exact h
  | lock l next ih => exact ⟨h.1, ih h.2⟩
  | unlock l next ih => exact ⟨h.1, ih h.2⟩
  | callback next ih => exact ih h
  | act g next ih => exact fun s => ih _ (h s)
  | wait => trivial

theorem Climbs.bind (hx : Climbs rank held x held')
    (hf : ∀ a, Climbs rank held' (f a) held'') : Climbs rank held (x >>= f) held'' := by
  refine climbs_bind (climbs_mono hx ?_)
  rintro a _ rfl
  exact hf a

theorem climbs_release : Climbs rank (l :: held) (release l : Code L σ Unit) held :=
  ⟨List.mem_cons_self, List.erase_cons_head ..⟩

theorem above_pure (a : α) : Above rank n (pure a : Code L σ α) := fun _ _ => rfl

theorem above_perform (g : σ → α × σ) : Above rank n (perform g : Code L σ α) := fun _ _ _ => rfl

theorem above_invoke : Above rank n (invoke : Code L σ Unit) := fun _ _ => rfl

theorem above_wait : Above rank n (wait : Code L σ α) := fun _ _ => trivial

theorem Above.mono (h : Above rank n x) (hmn : m ≤ n) : Above rank m x :=
  fun held hheld => h held fun k hk => (hheld k hk).trans_le hmn

theorem Above.bind (hx : Above rank n x) (hf : ∀ a, Above rank n (f a)) :
    Above rank n (x >>= f) :=
  fun held hheld => (hx held hheld).bind fun a => hf a held hheld

theorem Above.ite {c : Prop} [Decidable c] (hx : Above rank n x) (hy : Above rank n y) :
    Above rank n (if c then x else y) := by
  split_ifs
  · exact hx
  · exact hy

theorem Releases.acquire {x : Code L σ α} (hx : Releases rank n l x) (hl : n ≤ rank l) :
    Above rank n (do acquire l; x) :=
  fun held hheld => ⟨fun k hk => (hheld k hk).trans_le hl, hx held hheld⟩

theorem releases_release : Releases rank n l (release l : Code L σ Unit) :=
  fun _ _ => climbs_release

theorem Releases.after (hx : Above rank (rank l + 1) x) (hl : n ≤ rank l)
    (hf : ∀ a, Releases rank n l (f a)) : Releases rank n l (x >>= f) :=
  fun held hheld => (hx _ (forall_lt_cons hheld hl)).bind fun a => hf a held hheld

theorem Releases.bind (hx : Releases rank n l x) (hf : ∀ a, Above rank n (f a)) :
    Releases rank n l (x >>= f) :=
  fun held hheld => (hx held hheld).bind fun a => hf a held hheld

theorem Releases.ite {c : Prop} [Decidable c] (hx : Releases rank n l x)
    (hy : Releases rank n l y) : Releases rank n l (if c then x else y) := by
  split_ifs
  · exact hx
  · exact hy

theorem Above.locked (hx : Above rank (rank l + 1) x) (hl : n ≤ rank l) :
    Above rank n (locked l x) :=
  Releases.acquire (.after hx hl fun a => releases_release.bind fun _ => above_pure a) hl

end Rules

/-! ## Threads -/

/-- A thread: the library code it is in (`none` in user code), and the locks it holds. -/
structure Worker (L σ : Type) where
  code : Option (Code L σ Unit)
  held : List L

namespace Worker

/-- The lock that the thread is about to take. -/
def wants (w : Worker L σ) : Option L :=
  match w.code with
  | some (.lock l _) => some l
  | _ => none

variable [DecidableEq L]

/-- What is left to do takes locks upwards, and none is held in user code. -/
def Ok (w : Worker L σ) : Prop :=
  w.code.elim (w.held = []) fun x => Climbs rank w.held x []

variable {rank}

/-- The lock that a thread is about to take is above those it holds. -/
theorem Ok.rank_lt {w : Worker L σ} (h : w.Ok rank) {k l : L} (hk : k ∈ w.held)
    (hl : l ∈ w.wants) : rank k < rank l := by
  obtain ⟨code, held⟩ := w
  rcases code with _ | x
  · cases hl
  · cases x with
    | lock l' next =>
      obtain rfl := Option.some.inj hl
      exact h.1 k hk
    | _ => cases hl

end Worker

/-- Threads that share a state. -/
structure Machine (ι L σ : Type) where
  state : σ
  worker : ι → Worker L σ

/-- What can happen: a thread calls a function or takes a step, or user code changes the state. -/
inductive MachineEvent (ι Op σ : Type)
  | call (t : ι) (op : Op)
  | step (t : ι)
  | user (s : σ)

namespace Machine

variable {ι Op : Type}

def init (s : σ) : Machine ι L σ := ⟨s, fun _ => ⟨none, []⟩⟩

/-- A thread takes `b`, or waits for it, while it holds `a`. -/
def Nests (m : Machine ι L σ) (a b : L) : Prop :=
  ∃ t, a ∈ (m.worker t).held ∧ b ∈ (m.worker t).wants

/-- A thread waits for a lock that `u` holds. -/
def WaitsFor (m : Machine ι L σ) (t u : ι) : Prop :=
  ∃ l ∈ (m.worker t).wants, l ∈ (m.worker u).held

variable [DecidableEq L]

def Inv (m : Machine ι L σ) : Prop := ∀ t, (m.worker t).Ok rank

section Inv

variable {rank} {m : Machine ι L σ}

theorem inv_init (s : σ) : (init s : Machine ι L σ).Inv rank := fun _ => rfl

theorem Inv.rank_lt_of_nests (h : m.Inv rank) {a b : L} (hab : m.Nests a b) :
    rank a < rank b := by
  obtain ⟨t, ha, hb⟩ := hab
  exact (h t).rank_lt ha hb

/-- Along a chain of waiting threads the ranks of the locks they wait for go up. -/
theorem Inv.rank_lt_of_waits (h : m.Inv rank) {t u : ι} (htu : TransGen m.WaitsFor t u) {a b : L}
    (ha : a ∈ (m.worker t).wants) (hb : b ∈ (m.worker u).wants) : rank a < rank b := by
  induction htu generalizing b with
  | single hwait =>
    obtain ⟨l, hl, hheld⟩ := hwait
    obtain rfl := Option.mem_unique hl ha
    exact (h _).rank_lt hheld hb
  | tail _ hwait ih =>
    obtain ⟨l, hl, hheld⟩ := hwait
    exact (ih hl).trans ((h _).rank_lt hheld hb)

/-- **No cycle of threads**, each waiting for a lock of the next. -/
theorem Inv.no_deadlock (h : m.Inv rank) (t : ι) : ¬ TransGen m.WaitsFor t t := by
  intro hcycle
  obtain ⟨u, ⟨l, hl, -⟩, -⟩ := TransGen.head'_iff.1 hcycle
  exact lt_irrefl _ (h.rank_lt_of_waits hcycle hl hl)

end Inv

/-! ## Runs -/

section Step

variable [DecidableEq ι]

def set (m : Machine ι L σ) (t : ι) (w : Worker L σ) : Machine ι L σ :=
  { m with worker := Function.update m.worker t w }

variable {rank} {m : Machine ι L σ}

theorem Inv.set (h : m.Inv rank) {t : ι} {w : Worker L σ} (hw : w.Ok rank) :
    (m.set t w).Inv rank := by
  intro u
  by_cases hu : u = t
  · subst hu
    simpa [Machine.set] using hw
  · simpa [Machine.set, hu] using h u

variable [Fintype ι]

def advance (m : Machine ι L σ) (t : ι) : Machine ι L σ :=
  let held := (m.worker t).held
  match (m.worker t).code with
  | none => m
  | some (.ret _) => m.set t ⟨none, held⟩
  | some (.lock l next) =>
    if ∀ u, l ∉ (m.worker u).held then m.set t ⟨some next, l :: held⟩ else m
  | some (.unlock l next) => m.set t ⟨some next, held.erase l⟩
  | some (.callback next) => m.set t ⟨some next, held⟩
  | some (.act f next) =>
    { m.set t ⟨some (next (f m.state).1), held⟩ with state := (f m.state).2 }
  | some .wait => m

variable (code : Op → Code L σ Unit)

/-- One step. What is not possible leaves the machine as it is. -/
def step (m : Machine ι L σ) : MachineEvent ι Op σ → Machine ι L σ
  | .call t op =>
    if (m.worker t).code.isNone then m.set t ⟨some (code op), (m.worker t).held⟩ else m
  | .step t => m.advance t
  | .user s => { m with state := s }

variable {code}

theorem Inv.advance (h : m.Inv rank) (t : ι) : (m.advance t).Inv rank := by
  have ht := h t
  rw [Machine.advance]
  rcases hw : m.worker t with ⟨x, held⟩
  rw [hw] at ht
  dsimp only
  rcases x with _ | x
  · exact h
  cases x with
  | ret a => exact h.set ht
  | lock l next =>
    dsimp only
    split_ifs
    · exact h.set ht.2
    · exact h
  | unlock l next => exact h.set ht.2
  | callback next => exact h.set ht
  | act f next => exact h.set (w := ⟨some (next (f m.state).1), held⟩) (ht m.state)
  | wait => exact h

theorem Inv.step (hcode : ∀ op, Above rank 0 (code op)) (h : m.Inv rank)
    (e : MachineEvent ι Op σ) : (m.step code e).Inv rank := by
  cases e with
  | call t op =>
    rw [Machine.step]
    split_ifs with hnone
    · have ht := h t
      rw [Worker.Ok, Option.isNone_iff_eq_none.1 hnone] at ht
      refine h.set ?_
      show Climbs rank (m.worker t).held (code op) []
      rw [ht]
      exact hcode op [] (List.forall_mem_nil _)
    · exact h
  | step t => exact h.advance t
  | user s => exact h

theorem inv_run (hcode : ∀ op, Above rank 0 (code op)) (s : σ) (es : List (MachineEvent ι Op σ)) :
    (Runs.run (step code) (init s : Machine ι L σ) es).Inv rank :=
  Runs.run_invariant
    (fun (m : Machine ι L σ) (e : MachineEvent ι Op σ) (h : m.Inv rank) (_ : True) =>
      Inv.step hcode h e)
    (inv_init s) Runs.eachStep_true

/-- **The order of locks has no cycle**, over all runs together. -/
theorem nests_acyclic (hcode : ∀ op, Above rank 0 (code op)) (s : σ) (l : L) :
    ¬ TransGen (fun a b => ∃ es : List (MachineEvent ι Op σ),
      (Runs.run (step code) (init s) es).Nests a b) l l := by
  intro hcycle
  have hlt : TransGen (· < ·) (rank l) (rank l) :=
    hcycle.lift rank fun a b hab => by
      obtain ⟨es, hab⟩ := hab
      exact (inv_run hcode s es).rank_lt_of_nests hab
  rw [transGen_eq_self] at hlt
  exact lt_irrefl _ hlt

end Step

end Machine

end Locking
