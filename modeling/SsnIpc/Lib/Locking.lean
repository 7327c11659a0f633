import Mathlib.Logic.Relation
import Mathlib.Order.Notation
import SsnIpc.Lib.Runs

/-!
# Locks and callbacks on one thread

A library takes and releases locks, and calls back into code of its user. The user's code can call
the library again, to any depth, so a callback that is made with a lock held is a thread waiting
for itself as soon as the callback needs that lock.

**Code** (`Code`). What a function of the library does, as far as locks and callbacks go: a tree of
lock, unlock, callback, and actions on the state. It is a monad.

**The thread** (`Thread`). It runs code of the user's or of the library's. User code calls the
library or returns from its callback; library code goes on step by step. The library's state may
change under it at any time by ticks, unless the thread holds the lock that a tick needs.

**Rules** (`Triple`). From the locks held and an assertion on the state before to those after.
Assertions are stable under ticks, and nothing is known of the state after a callback. What code
does not touch at all needs no assertion (`Keeps`).

**Theorem (`always_unlocked`).** If every function is called in a state for which the rules
allow it, then user code only ever runs without locks, and the thread never waits for a lock
of its own.
-/

namespace Locking

/-! ## Code -/

/-- What a function does: return, take or release a lock, call back, act on the state, or wait
forever. -/
inductive Code (L σ α : Type) : Type 1
  | ret (a : α)
  | lock (l : L) (next : Code L σ α)
  | unlock (l : L) (next : Code L σ α)
  | callback (next : Code L σ α)
  | act {β : Type} (f : σ → β × σ) (next : β → Code L σ α)
  | wait

variable {L σ α β ε Op : Type}

namespace Code

protected def bind : Code L σ α → (α → Code L σ β) → Code L σ β
  | .ret a, f => f a
  | .lock l next, f => .lock l (next.bind f)
  | .unlock l next, f => .unlock l (next.bind f)
  | .callback next, f => .callback (next.bind f)
  | .act g next, f => .act g fun b => (next b).bind f
  | .wait, _ => .wait

instance : Monad (Code L σ) where
  pure := .ret
  bind := .bind

def acquire (l : L) : Code L σ Unit := .lock l (.ret ())

def release (l : L) : Code L σ Unit := .unlock l (.ret ())

def invoke : Code L σ Unit := .callback (.ret ())

/-- An action on the state that has a result. -/
def perform (f : σ → β × σ) : Code L σ β := .act f .ret

def gets (f : σ → β) : Code L σ β := perform fun s => (f s, s)

def modify (f : σ → σ) : Code L σ Unit := perform fun s => ((), f s)

def locked (l : L) (x : Code L σ α) : Code L σ α := do
  acquire l
  let a ← x
  release l
  pure a

/-- What the code does if callbacks do nothing: what it returns and the state then, or nothing if it
does not end. -/
def exec : Code L σ α → σ → Option (α × σ)
  | .ret a, s => some (a, s)
  | .lock _ next, s => next.exec s
  | .unlock _ next, s => next.exec s
  | .callback next, s => next.exec s
  | .act f next, s => (next (f s).1).exec (f s).2
  | .wait, _ => none

@[simp] theorem exec_pure (a : α) (s : σ) : (pure a : Code L σ α).exec s = some (a, s) := rfl

@[simp] theorem exec_bind (x : Code L σ α) (f : α → Code L σ β) (s : σ) :
    (x >>= f).exec s = (x.exec s).bind fun p => (f p.1).exec p.2 := by
  show (x.bind f).exec s = _
  induction x generalizing s with
  | ret a => rfl
  | lock l next ih => exact ih s
  | unlock l next ih => exact ih s
  | callback next ih => exact ih s
  | act g next ih => exact ih _ _
  | wait => rfl

@[simp] theorem exec_acquire (l : L) (s : σ) : (acquire l).exec s = some ((), s) := rfl

@[simp] theorem exec_release (l : L) (s : σ) : (release l).exec s = some ((), s) := rfl

@[simp] theorem exec_perform (f : σ → β × σ) (s : σ) :
    (perform f : Code L σ β).exec s = some (f s) := rfl

@[simp] theorem exec_locked (l : L) (x : Code L σ α) (s : σ) : (locked l x).exec s = x.exec s := by
  simp only [locked, exec_bind, exec_acquire, Option.bind_some, exec_release, exec_pure]
  exact Option.bind_fun_some _

/-- What the code does if callbacks do `user` to the state. -/
def execWith (user : σ → σ) : Code L σ α → σ → Option (α × σ)
  | .ret a, s => some (a, s)
  | .lock _ next, s => next.execWith user s
  | .unlock _ next, s => next.execWith user s
  | .callback next, s => next.execWith user (user s)
  | .act f next, s => (next (f s).1).execWith user (f s).2
  | .wait, _ => none

section ExecWith

variable (user : σ → σ)

theorem exec_eq_execWith (x : Code L σ α) (s : σ) : x.exec s = x.execWith (fun s => s) s := by
  induction x generalizing s with
  | ret a => rfl
  | lock l next ih => exact ih s
  | unlock l next ih => exact ih s
  | callback next ih => exact ih s
  | act g next ih => exact ih _ _
  | wait => rfl

@[simp] theorem execWith_pure (a : α) (s : σ) :
    (pure a : Code L σ α).execWith user s = some (a, s) := rfl

@[simp] theorem execWith_bind (x : Code L σ α) (f : α → Code L σ β) (s : σ) :
    (x >>= f).execWith user s = (x.execWith user s).bind fun p => (f p.1).execWith user p.2 := by
  show (x.bind f).execWith user s = _
  induction x generalizing s with
  | ret a => rfl
  | lock l next ih => exact ih s
  | unlock l next ih => exact ih s
  | callback next ih => exact ih _
  | act g next ih => exact ih _ _
  | wait => rfl

@[simp] theorem execWith_acquire (l : L) (s : σ) :
    (acquire l).execWith user s = some ((), s) := rfl

@[simp] theorem execWith_release (l : L) (s : σ) :
    (release l).execWith user s = some ((), s) := rfl

@[simp] theorem execWith_invoke (s : σ) :
    (invoke : Code L σ Unit).execWith user s = some ((), user s) := rfl

@[simp] theorem execWith_perform (f : σ → β × σ) (s : σ) :
    (perform f : Code L σ β).execWith user s = some (f s) := rfl

@[simp] theorem execWith_locked (l : L) (x : Code L σ α) (s : σ) :
    (locked l x).execWith user s = x.execWith user s := by
  simp only [locked, execWith_bind, execWith_acquire, Option.bind_some, execWith_release,
    execWith_pure]
  exact Option.bind_fun_some _

end ExecWith

/-- The states in which the code calls back, if callbacks do `user` to the state. -/
def callsWith (user : σ → σ) : Code L σ α → σ → List σ
  | .ret _, _ => []
  | .lock _ next, s => next.callsWith user s
  | .unlock _ next, s => next.callsWith user s
  | .callback next, s => s :: next.callsWith user (user s)
  | .act f next, s => (next (f s).1).callsWith user (f s).2
  | .wait, _ => []

section CallsWith

variable (user : σ → σ)

@[simp] theorem callsWith_pure (a : α) (s : σ) :
    (pure a : Code L σ α).callsWith user s = [] := rfl

@[simp] theorem callsWith_bind (x : Code L σ α) (f : α → Code L σ β) (s : σ) :
    (x >>= f).callsWith user s = x.callsWith user s ++
      (x.execWith user s).elim [] fun p => (f p.1).callsWith user p.2 := by
  show (x.bind f).callsWith user s = _
  induction x generalizing s with
  | ret a => rfl
  | lock l next ih => exact ih s
  | unlock l next ih => exact ih s
  | callback next ih => exact congrArg (List.cons s) (ih _)
  | act g next ih => exact ih _ _
  | wait => rfl

theorem callsWith_bind_quiet {f : α → Code L σ β} (hf : ∀ a s, (f a).callsWith user s = [])
    (x : Code L σ α) (s : σ) : (x >>= f).callsWith user s = x.callsWith user s := by
  rw [callsWith_bind]
  cases x.execWith user s <;> simp [hf]

@[simp] theorem callsWith_acquire (l : L) (s : σ) : (acquire l).callsWith user s = [] := rfl

@[simp] theorem callsWith_release (l : L) (s : σ) : (release l).callsWith user s = [] := rfl

@[simp] theorem callsWith_invoke (s : σ) :
    (invoke : Code L σ Unit).callsWith user s = [s] := rfl

@[simp] theorem callsWith_locked (l : L) (x : Code L σ α) (s : σ) :
    (locked l x).callsWith user s = x.callsWith user s := by
  simp only [locked, callsWith_bind, callsWith_acquire, callsWith_release, callsWith_pure,
    execWith_acquire, execWith_release, Option.elim_some, List.nil_append]
  cases x.execWith user s <;> simp

end CallsWith

/-! ### What code leaves alone -/

/-- The code ends, and none of its actions changes what `v` shows of the state. -/
def Keeps {τ : Type*} (v : σ → τ) : Code L σ α → Prop
  | .ret _ => True
  | .lock _ next => Keeps v next
  | .unlock _ next => Keeps v next
  | .callback next => Keeps v next
  | .act f next => ∀ s, v (f s).2 = v s ∧ Keeps v (next (f s).1)
  | .wait => False

section Keeps

variable {τ : Type*} {v : σ → τ} {x : Code L σ α} {f : α → Code L σ β}

theorem Keeps.exec (h : Keeps v x) (s : σ) :
    ∃ a s', x.exec s = some (a, s') ∧ v s' = v s := by
  induction x generalizing s with
  | ret a => exact ⟨a, s, rfl, rfl⟩
  | lock l next ih => exact ih h s
  | unlock l next ih => exact ih h s
  | callback next ih => exact ih h s
  | act g next ih =>
    obtain ⟨a, s', hexec, hv⟩ := ih _ (h s).2 (g s).2
    exact ⟨a, s', hexec, hv.trans (h s).1⟩
  | wait => exact h.elim

theorem Keeps.ends (h : Keeps v x) (user : σ → σ) (s : σ) :
    ∃ a s', x.execWith user s = some (a, s') := by
  induction x generalizing s with
  | ret a => exact ⟨a, s, rfl⟩
  | lock l next ih => exact ih h s
  | unlock l next ih => exact ih h s
  | callback next ih => exact ih h (user s)
  | act g next ih => exact ih _ (h s).2 (g s).2
  | wait => exact h.elim

theorem keeps_pure (a : α) : Keeps v (pure a : Code L σ α) := trivial

theorem Keeps.bind (hx : Keeps v x) (hf : ∀ a, Keeps v (f a)) : Keeps v (x >>= f) := by
  show Keeps v (x.bind f)
  induction x with
  | ret a => exact hf a
  | lock l next ih => exact ih hx
  | unlock l next ih => exact ih hx
  | callback next ih => exact ih hx
  | act g next ih => exact fun s => ⟨(hx s).1, ih _ (hx s).2⟩
  | wait => exact hx

theorem keeps_acquire (l : L) : Keeps v (acquire l : Code L σ Unit) := trivial

theorem keeps_release (l : L) : Keeps v (release l : Code L σ Unit) := trivial

theorem keeps_invoke : Keeps v (invoke : Code L σ Unit) := trivial

theorem keeps_perform {g : σ → α × σ} (h : ∀ s, v (g s).2 = v s) :
    Keeps v (perform g : Code L σ α) :=
  fun s => ⟨h s, trivial⟩

theorem keeps_gets (g : σ → α) : Keeps v (gets g : Code L σ α) := keeps_perform fun _ => rfl

theorem Keeps.locked (l : L) (h : Keeps v x) : Keeps v (locked l x) :=
  (keeps_acquire l).bind fun _ => h.bind fun a => (keeps_release l).bind fun _ => keeps_pure a

theorem Keeps.ite {c : Prop} [Decidable c] {x y : Code L σ α} (hx : Keeps v x) (hy : Keeps v y) :
    Keeps v (if c then x else y) := by
  split_ifs
  · exact hx
  · exact hy

end Keeps

end Code

open Code

/-! ## Rules -/

section Rules

variable [DecidableEq L] (tick : ε → σ → σ)

/-- The states that ticks lead to. -/
def Ticks : σ → σ → Prop := Relation.ReflTransGen fun s s' => ∃ e, s' = tick e s

/-- A property of the state that ticks keep. -/
structure Assertion where
  holds : σ → Prop
  tick_keeps : ∀ e s, holds s → holds (tick e s)

instance : CoeFun (Assertion tick) fun _ => σ → Prop := ⟨Assertion.holds⟩

instance : Top (Assertion tick) := ⟨fun _ => True, fun _ _ _ => trivial⟩

/-- The code runs to its end or forever, with no lock taken twice, only held locks released and
none held at a callback, and `Q` holds of what it returns, the locks held and the state then. -/
def wp : Code L σ α → List L → σ → (α → List L → σ → Prop) → Prop
  | .ret a, held, s, Q => ∀ s', Ticks tick s s' → Q a held s'
  | .lock l next, held, s, Q => l ∉ held ∧ wp next (l :: held) s Q
  | .unlock l next, held, s, Q => l ∈ held ∧ wp next (held.erase l) s Q
  | .callback next, held, _, Q => held = [] ∧ ∀ s', wp next [] s' Q
  | .act f next, held, s, Q => ∀ s', Ticks tick s s' → wp (next (f s').1) held (f s').2 Q
  | .wait, _, _, _ => True

/-- Called with the locks `held` in a state with `P`, the code ends with the locks `held'` and
with `Q`. -/
def Triple (held : List L) (P : Assertion tick) (x : Code L σ α) (held' : List L)
    (Q : α → Assertion tick) : Prop :=
  ∀ s, P s → wp tick x held s fun a held'' s' => held'' = held' ∧ Q a s'

/-- From any state, the code ends with the locks `held'`. -/
abbrev Clean (held : List L) (x : Code L σ α) (held' : List L) : Prop :=
  Triple tick held ⊤ x held' fun _ => ⊤

/-- Called without locks in the state `s`, the code ends without locks. -/
def Safe (x : Code L σ α) (s : σ) : Prop := wp tick x [] s fun _ held _ => held = []

variable {tick} {x : Code L σ α} {f : α → Code L σ β} {held held' held'' : List L} {s s' : σ}
  {P P' : Assertion tick} {Q : α → Assertion tick} {R : β → Assertion tick} {l : L}

theorem Assertion.of_ticks (hP : P s) (h : Ticks tick s s') : P s' := by
  induction h with
  | refl => exact hP
  | tail _ hstep ih =>
    obtain ⟨e, rfl⟩ := hstep
    exact P.tick_keeps e _ ih

theorem wp_of_ticks {Q : α → List L → σ → Prop} (h : wp tick x held s Q) (ht : Ticks tick s s') :
    wp tick x held s' Q := by
  induction x generalizing held s s' with
  | ret a => exact fun s'' ht' => h s'' (ht.trans ht')
  | lock l next ih => exact ⟨h.1, ih h.2 ht⟩
  | unlock l next ih => exact ⟨h.1, ih h.2 ht⟩
  | callback next _ => exact h
  | act f next _ => exact fun s'' ht' => h s'' (ht.trans ht')
  | wait => trivial

theorem wp_mono {Q Q' : α → List L → σ → Prop} (h : wp tick x held s Q)
    (hQ : ∀ a held s, Q a held s → Q' a held s) : wp tick x held s Q' := by
  induction x generalizing held s with
  | ret a => exact fun s' ht => hQ _ _ _ (h s' ht)
  | lock l next ih => exact ⟨h.1, ih h.2⟩
  | unlock l next ih => exact ⟨h.1, ih h.2⟩
  | callback next ih => exact ⟨h.1, fun s' => ih (h.2 s')⟩
  | act f next ih => exact fun s' ht => ih _ (h s' ht)
  | wait => trivial

theorem wp_bind {Q : β → List L → σ → Prop}
    (h : wp tick x held s fun a held' s' => wp tick (f a) held' s' Q) :
    wp tick (x >>= f) held s Q := by
  show wp tick (x.bind f) held s Q
  induction x generalizing held s with
  | ret a => exact h s .refl
  | lock l next ih => exact ⟨h.1, ih h.2⟩
  | unlock l next ih => exact ⟨h.1, ih h.2⟩
  | callback next ih => exact ⟨h.1, fun s' => ih (h.2 s')⟩
  | act g next ih => exact fun s' ht => ih _ (h s' ht)
  | wait => trivial

namespace Triple

theorem pure (a : α) : Triple tick held (Q a) (Pure.pure a : Code L σ α) held Q :=
  fun _ hP _ ht => ⟨rfl, Assertion.of_ticks hP ht⟩

theorem weaken (h : Triple tick held P x held' Q) (hP : ∀ s, P' s → P s) :
    Triple tick held P' x held' Q :=
  fun s hs => h s (hP s hs)

theorem bind (hx : Triple tick held P x held' Q)
    (hf : ∀ a, Triple tick held' (Q a) (f a) held'' R) :
    Triple tick held P (x >>= f) held'' R := by
  intro s hs
  refine wp_bind (wp_mono (hx s hs) ?_)
  rintro a _ s' ⟨rfl, hQ⟩
  exact hf a s' hQ

theorem acquire (h : l ∉ held) :
    Triple tick held P (Code.acquire l : Code L σ Unit) (l :: held) fun _ => P :=
  fun _ hP => ⟨h, fun _ ht => ⟨rfl, Assertion.of_ticks hP ht⟩⟩

theorem release :
    Triple tick (l :: held) P (Code.release l : Code L σ Unit) held fun _ => P :=
  fun _ hP => ⟨List.mem_cons_self, fun _ ht =>
    ⟨List.erase_cons_head .., Assertion.of_ticks hP ht⟩⟩

theorem invoke : Triple tick [] P (Code.invoke : Code L σ Unit) [] fun _ => ⊤ :=
  fun _ _ => ⟨rfl, fun _ _ _ => ⟨rfl, trivial⟩⟩

theorem perform {f : σ → α × σ} (h : ∀ s, P s → Q (f s).1 (f s).2) :
    Triple tick held P (Code.perform f : Code L σ α) held Q :=
  fun _ hP s' ht _ ht' =>
    ⟨rfl, Assertion.of_ticks (h s' (Assertion.of_ticks hP ht)) ht'⟩

theorem wait : Triple tick held P (Code.wait : Code L σ α) held' Q := fun _ _ => trivial

theorem locked (h : l ∉ held) (hx : Triple tick (l :: held) P x (l :: held) Q) :
    Triple tick held P (Code.locked l x) held Q :=
  (acquire h).bind fun _ => hx.bind fun a => release.bind fun _ => pure a

theorem ite {c : Prop} [Decidable c] {x y : Code L σ α} (hx : c → Triple tick held P x held' Q)
    (hy : ¬ c → Triple tick held P y held' Q) :
    Triple tick held P (if c then x else y) held' Q := by
  split_ifs with hc
  · exact hx hc
  · exact hy hc

theorem forget (h : Triple tick held P x held' Q) : Triple tick held P x held' fun _ => ⊤ :=
  fun s hs => wp_mono (h s hs) fun _ _ _ hq => ⟨hq.1, trivial⟩

theorem safe (h : Triple tick [] P x [] Q) (hs : P s) : Safe tick x s :=
  wp_mono (h s hs) fun _ _ _ hq => hq.1

end Triple

theorem clean_pure (a : α) : Clean tick held (pure a : Code L σ α) held :=
  Triple.pure (Q := fun _ => ⊤) a

theorem clean_perform (f : σ → α × σ) : Clean tick held (perform f : Code L σ α) held :=
  Triple.perform fun _ _ => trivial

theorem clean_locked (h : l ∉ held) (f : σ → α × σ) :
    Clean tick held (locked l (perform f) : Code L σ α) held :=
  .locked h (clean_perform f)

theorem Clean.triple (h : Clean tick held x held') :
    Triple tick held P x held' fun _ => ⊤ :=
  Triple.weaken h fun _ _ => trivial

end Rules

/-! ## The thread -/

/-- A thread: the library's state, the locks it holds, the library code it is in (`none` in user
code), and what is left to do of the library code below, innermost first. -/
structure Thread (L σ : Type) where
  state : σ
  held : List L
  current : Option (Code L σ Unit)
  stack : List (Code L σ Unit)

/-- What can happen: user code calls a function, library code takes a step, user code returns
from a callback, or the state changes by a tick. -/
inductive Event (Op ε : Type)
  | call (op : Op)
  | step
  | ret
  | tick (e : ε)

namespace Thread

def init (s : σ) : Thread L σ := ⟨s, [], none, []⟩

variable [DecidableEq L]

/-- One step of library code. A lock that the thread holds itself cannot be taken. -/
def advance (t : Thread L σ) : Thread L σ :=
  match t.current with
  | none => t
  | some (.ret _) => { t with current := none }
  | some (.lock l next) =>
    if l ∈ t.held then t else { t with held := l :: t.held, current := some next }
  | some (.unlock l next) => { t with held := t.held.erase l, current := some next }
  | some (.callback next) => { t with current := none, stack := next :: t.stack }
  | some (.act f next) => { t with state := (f t.state).2, current := some (next (f t.state).1) }
  | some .wait => t

variable (code : Op → Code L σ Unit) (tick : ε → σ → σ) (guard : ε → L)

/-- One step. What is not possible in a state leaves it as it is. -/
def step (t : Thread L σ) : Event Op ε → Thread L σ
  | .call op => if t.current.isNone then { t with current := some (code op) } else t
  | .step => t.advance
  | .ret =>
    match t.current, t.stack with
    | none, next :: stack => { t with current := some next, stack }
    | _, _ => t
  | .tick e => if guard e ∈ t.held then t else { t with state := tick e t.state }

/-- The thread waits for a lock that it holds. -/
def selfLocked (t : Thread L σ) : Bool :=
  match t.current with
  | some (.lock l _) => l ∈ t.held
  | _ => false

/-- User code runs without locks, and the thread does not wait for itself. -/
def Unlocked (t : Thread L σ) : Prop :=
  (t.current.isNone = true → t.held = []) ∧ t.selfLocked = false

/-- A call is made in a state from which the function is safe. -/
def Admitted (t : Thread L σ) : Event Op ε → Prop
  | .call op => t.current.isNone = true → Safe tick (code op) t.state
  | _ => True

/-- What is left to do is safe, here and after each callback. -/
structure Inv (t : Thread L σ) : Prop where
  current : t.current.elim (t.held = []) fun x =>
    wp tick x t.held t.state fun _ held _ => held = []
  stack : ∀ x ∈ t.stack, ∀ s, Safe tick x s

instance (t : Thread L σ) : Decidable t.Unlocked := inferInstanceAs (Decidable (_ ∧ _))

variable {code tick guard} {t : Thread L σ} {e : Event Op ε}

theorem inv_init (s : σ) : (init s : Thread L σ).Inv tick := ⟨rfl, by simp [init]⟩

theorem Inv.advance (h : t.Inv tick) : t.advance.Inv tick := by
  obtain ⟨s, held, current, stack⟩ := t
  obtain ⟨hcur, hstack⟩ := h
  cases current with
  | none => exact ⟨hcur, hstack⟩
  | some x =>
    cases x with
    | ret a => exact ⟨hcur s .refl, hstack⟩
    | lock l next =>
      show (if l ∈ held then _ else (⟨s, l :: held, some next, stack⟩ : Thread L σ)).Inv tick
      rw [if_neg hcur.1]
      exact ⟨hcur.2, hstack⟩
    | unlock l next => exact ⟨hcur.2, hstack⟩
    | callback next =>
      obtain ⟨rfl, hnext⟩ := hcur
      exact ⟨rfl, List.forall_mem_cons.2 ⟨hnext, hstack⟩⟩
    | act f next => exact ⟨hcur s .refl, hstack⟩
    | wait => exact ⟨hcur, hstack⟩

theorem Inv.step (h : t.Inv tick) (he : t.Admitted code tick e) :
    (t.step code tick guard e).Inv tick := by
  cases e with
  | call op =>
    rw [Thread.step]
    split_ifs with hnone
    · have hheld : t.held = [] := by
        have hcur := h.current
        rwa [Option.isNone_iff_eq_none.1 hnone] at hcur
      refine ⟨?_, h.stack⟩
      show wp tick (code op) t.held t.state _
      rw [hheld]
      exact he hnone
    · exact h
  | step => exact h.advance
  | ret =>
    rw [Thread.step]
    split
    · rename_i next stack hcur hstack
      -- In user code no lock is held.
      have hheld : t.held = [] := by
        have hnone := h.current
        rwa [hcur] at hnone
      have hall := h.stack
      rw [hstack, List.forall_mem_cons] at hall
      refine ⟨?_, hall.2⟩
      show wp tick next t.held t.state _
      rw [hheld]
      exact hall.1 t.state
    · exact h
  | tick e =>
    rw [Thread.step]
    split_ifs
    · exact h
    · refine ⟨?_, h.stack⟩
      cases hcur : t.current with
      | none =>
        have hnone := h.current
        rwa [hcur] at hnone
      | some x =>
        have hx := h.current
        rw [hcur] at hx
        exact wp_of_ticks hx (.single ⟨e, rfl⟩)

theorem Inv.unlocked (h : t.Inv tick) : t.Unlocked := by
  obtain ⟨s, held, current, stack⟩ := t
  have hcur := h.current
  cases current with
  | none => exact ⟨fun _ => hcur, rfl⟩
  | some x =>
    refine ⟨by simp, ?_⟩
    cases x with
    | lock l next => exact decide_eq_false hcur.1
    | _ => rfl

/-- **User code runs without locks**, if every call is safe in the state it is made in. -/
theorem always_unlocked {es : List (Event Op ε)} (h : t.Inv tick)
    (hok : Runs.EachStep (Thread.step code tick guard) (Admitted code tick) t es) :
    Runs.Always (Thread.step code tick guard) Unlocked t es :=
  Runs.always_of_invariant (fun _ _ h he => h.step he) (fun _ h => h.unlocked) h hok

end Thread

end Locking
