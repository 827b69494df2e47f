import Mathlib.Tactic.Common
import Mathlib.Algebra.Order.Ring.Nat
import Mathlib.Order.Defs.Unbundled

/-!
# Programs over a state that may halt

`Prog ε σ α` is a program that updates a state `σ` and either returns a value or halts for a
reason `ε`. The state reached is kept in both cases, so that what holds of a program blocked
half-way is a statement about its result. `loop` iterates a body whose steps are bounded by a
size of the state. `Triple` is the logic of pre- and postconditions, with one postcondition for
a return and one for a halt; `Within` relates the states before and after, however a program ends.
-/

namespace ScriptedProgram

universe u

def Prog (ε σ α : Type u) : Type u := σ → Except ε α × σ

namespace Prog

variable {ε σ τ α β γ : Type u}

def ret (a : α) : Prog ε σ α := fun s => (.ok a, s)

def andThen (p : Prog ε σ α) (f : α → Prog ε σ β) : Prog ε σ β := fun s =>
  match p s with
  | (.ok a, s') => f a s'
  | (.error e, s') => (.error e, s')

instance : Monad (Prog ε σ) where
  pure := ret
  bind := andThen

def halt (e : ε) : Prog ε σ α := fun s => (.error e, s)

def read (f : σ → α) : Prog ε σ α := fun s => (.ok (f s), s)

def update (f : σ → σ) : Prog ε σ PUnit := fun s => (.ok ⟨⟩, f s)

/-- Runs a program on a part of the state; `put` writes the part back. -/
def zoom (view : τ → σ) (put : τ → σ → τ) (p : Prog ε σ α) : Prog ε τ α := fun t =>
  ((p (view t)).1, put t (p (view t)).2)

@[simp] theorem pure_apply (a : α) (s : σ) : (Pure.pure a : Prog ε σ α) s = (.ok a, s) := rfl

@[simp] theorem halt_apply (e : ε) (s : σ) : (halt e : Prog ε σ α) s = (.error e, s) := rfl

@[simp] theorem read_apply (f : σ → α) (s : σ) : (read f : Prog ε σ α) s = (.ok (f s), s) := rfl

@[simp] theorem update_apply (f : σ → σ) (s : σ) :
    (update f : Prog ε σ PUnit) s = (.ok ⟨⟩, f s) := rfl

@[simp] theorem zoom_apply (view : τ → σ) (put : τ → σ → τ) (p : Prog ε σ α) (t : τ) :
    zoom view put p t = ((p (view t)).1, put t (p (view t)).2) := rfl

theorem bind_apply (p : Prog ε σ α) (f : α → Prog ε σ β) (s : σ) :
    (p >>= f) s = match p s with
      | (.ok a, s') => f a s'
      | (.error e, s') => (.error e, s') := rfl

theorem bind_ok {p : Prog ε σ α} {f : α → Prog ε σ β} {s s' : σ} {a : α}
    (h : p s = (.ok a, s')) : (p >>= f) s = f a s' := by
  rw [bind_apply, h]

theorem bind_error {p : Prog ε σ α} {f : α → Prog ε σ β} {s s' : σ} {e : ε}
    (h : p s = (.error e, s')) : (p >>= f) s = (.error e, s') := by
  rw [bind_apply, h]

/-- What is made of the result leaves the state as it is. -/
theorem bind_pure_state (p : Prog ε σ α) (f : α → β) (s : σ) :
    ((p >>= fun a => (pure (f a) : Prog ε σ β)) s).2 = (p s).2 := by
  rcases hp : p s with ⟨e | a, s'⟩
  · rw [bind_error hp]
  · rw [bind_ok hp]
    rfl

theorem bind_eq_ok {p : Prog ε σ α} {f : α → Prog ε σ β} {s s'' : σ} {b : β}
    (h : (p >>= f) s = (.ok b, s'')) : ∃ a s', p s = (.ok a, s') ∧ f a s' = (.ok b, s'') := by
  rw [bind_apply] at h
  rcases hp : p s with ⟨e | a, s'⟩
  · rw [hp] at h
    cases h
  · rw [hp] at h
    exact ⟨a, s', rfl, h⟩

/-- A sequence reaches what its second part reaches from each return of the first. -/
theorem bind_reached {J : σ → Prop} {p : Prog ε σ α} {f : α → Prog ε σ β} {s : σ}
    (herr : ∀ e s', p s = (.error e, s') → J s')
    (hok : ∀ a s', p s = (.ok a, s') → J (f a s').2) : J ((p >>= f) s).2 := by
  rcases hp : p s with ⟨e | a, s'⟩
  · rw [bind_error hp]
    exact herr e s' hp
  · rw [bind_ok hp]
    exact hok a s' hp

end Prog

open Prog

section Loop

variable {ε σ α β : Type u}

/-- At most `n` rounds of a loop; a body that wants one more halts with `stuck`. -/
def iterate (stuck : ε) (body : β → Prog ε σ (β ⊕ α)) : ℕ → β → Prog ε σ α
  | 0, _ => halt stuck
  | n + 1, b => do
    match ← body b with
    | .inl b' => iterate stuck body n b'
    | .inr a => pure a

/-- A loop whose number of rounds is bounded by the size of its loop variable and state. -/
def loop (stuck : ε) (size : β → σ → ℕ) (body : β → Prog ε σ (β ⊕ α)) (b : β) : Prog ε σ α :=
  fun s => iterate stuck body (size b s + 1) b s

/-- Every round that asks for another one makes the size smaller. -/
def Shrinks (size : β → σ → ℕ) (body : β → Prog ε σ (β ⊕ α)) : Prop :=
  ∀ b s b' s', body b s = (.ok (.inl b'), s') → size b' s' < size b s

theorem iterate_eq (stuck : ε) {size : β → σ → ℕ} {body : β → Prog ε σ (β ⊕ α)}
    (hb : Shrinks size body) {m n : ℕ} {b : β} {s : σ} (hm : size b s < m) (hn : size b s < n) :
    iterate stuck body m b s = iterate stuck body n b s := by
  induction m generalizing n b s with
  | zero => omega
  | succ m ih =>
      obtain ⟨n, rfl⟩ : ∃ k, n = k + 1 := ⟨n - 1, by omega⟩
      rcases hr : body b s with ⟨_ | b' | a, s'⟩
      · simp only [iterate, bind_error hr]
      · have hlt := hb b s b' s' hr
        simp only [iterate, bind_ok hr]
        exact ih (by omega) (by omega)
      · simp only [iterate, bind_ok hr]

/-- A loop is its body followed, where the body asks for it, by the loop again. -/
theorem loop_eq (stuck : ε) {size : β → σ → ℕ} {body : β → Prog ε σ (β ⊕ α)}
    (hb : Shrinks size body) (b : β) :
    loop stuck size body b = (do
      match ← body b with
      | .inl b' => loop stuck size body b'
      | .inr a => Pure.pure a) := by
  funext s
  rcases hr : body b s with ⟨_ | b' | a, s'⟩
  · simp only [loop, iterate, bind_error hr]
  · have hlt := hb b s b' s' hr
    simp only [loop, iterate, bind_ok hr]
    exact iterate_eq stuck hb hlt (Nat.lt_succ_self _)
  · simp only [loop, iterate, bind_ok hr]

section

variable {stuck : ε} {size : β → σ → ℕ} {body : β → Prog ε σ (β ⊕ α)} {b b' : β} {s s' : σ}

theorem loop_next (hb : Shrinks size body) (h : body b s = (.ok (.inl b'), s')) :
    loop stuck size body b s = loop stuck size body b' s' := by
  rw [loop_eq stuck hb, bind_ok h]

theorem loop_return (hb : Shrinks size body) {a : α} (h : body b s = (.ok (.inr a), s')) :
    loop stuck size body b s = (.ok a, s') := by
  rw [loop_eq stuck hb, bind_ok h]
  rfl

theorem loop_error (hb : Shrinks size body) {e : ε} (h : body b s = (.error e, s')) :
    loop stuck size body b s = (.error e, s') := by
  rw [loop_eq stuck hb, bind_error h]

end

end Loop

/-! ## Pre- and postconditions -/

/-- From a state in `P`, a return satisfies `Q` and a halt satisfies `H`. -/
def Triple {ε σ α : Type u} (P : σ → Prop) (p : Prog ε σ α) (Q : α → σ → Prop)
    (H : ε → σ → Prop) : Prop :=
  ∀ s, P s → match p s with
    | (.ok a, s') => Q a s'
    | (.error e, s') => H e s'

namespace Triple

variable {ε σ τ α β : Type u} {P P' : σ → Prop} {Q Q' : α → σ → Prop} {R : β → σ → Prop}
  {H H' : ε → σ → Prop} {p : Prog ε σ α}

theorem ok (h : Triple P p Q H) {s s' : σ} {a : α} (hp : p s = (.ok a, s')) (hs : P s) :
    Q a s' := by
  have := h s hs
  rwa [hp] at this

theorem error (h : Triple P p Q H) {s s' : σ} {e : ε} (hp : p s = (.error e, s'))
    (hs : P s) : H e s' := by
  have := h s hs
  rwa [hp] at this

/-- A fact about the result and the state reached, from one for a return and one for a halt. -/
theorem result {J : Except ε α → σ → Prop}
    (h : Triple P p (fun a => J (.ok a)) (fun e => J (.error e))) {s : σ} (hs : P s) :
    J (p s).1 (p s).2 := by
  have hrun := h s hs
  rcases hp : p s with ⟨e | a, s'⟩ <;> rw [hp] at hrun <;> exact hrun

/-- What holds in both cases holds of the state reached. -/
theorem reached {J : σ → Prop} (h : Triple P p (fun _ => J) (fun _ => J)) {s : σ} (hs : P s) :
    J (p s).2 :=
  result (J := fun _ => J) h hs

theorem intro (hok : ∀ s a s', P s → p s = (.ok a, s') → Q a s')
    (herr : ∀ s e s', P s → p s = (.error e, s') → H e s') : Triple P p Q H := by
  intro s hs
  rcases hp : p s with ⟨e | a, s'⟩
  · exact herr s e s' hs hp
  · exact hok s a s' hs hp

theorem conseq (h : Triple P p Q H) (hP : ∀ s, P' s → P s) (hQ : ∀ a s, Q a s → Q' a s)
    (hH : ∀ e s, H e s → H' e s) : Triple P' p Q' H' :=
  intro (fun _ _ _ hs hp => hQ _ _ (h.ok hp (hP _ hs)))
    (fun _ _ _ hs hp => hH _ _ (h.error hp (hP _ hs)))

theorem pre (h : Triple P p Q H) (hP : ∀ s, P' s → P s) : Triple P' p Q H :=
  h.conseq hP (fun _ _ hq => hq) (fun _ _ hh => hh)

/-- What holds when the program returns, whatever its failures leave. -/
theorem returns (h : Triple P p Q H) : Triple P p Q fun _ _ => True :=
  h.conseq (fun _ hp => hp) (fun _ _ hq => hq) fun _ _ _ => trivial

/-- A fact that does not depend on the state becomes a hypothesis. -/
theorem assume {φ : Prop} (h : φ → Triple P p Q H) : Triple (fun s => φ ∧ P s) p Q H :=
  fun s hs => h hs.1 s hs.2

theorem and {I : σ → Prop} {J : α → σ → Prop} {K : ε → σ → Prop} (h : Triple P p Q H)
    (h' : Triple I p J K) : Triple (fun s => P s ∧ I s) p (fun a s => Q a s ∧ J a s)
      (fun e s => H e s ∧ K e s) :=
  intro (fun _ _ _ hs hp => ⟨h.ok hp hs.1, h'.ok hp hs.2⟩)
    (fun _ _ _ hs hp => ⟨h.error hp hs.1, h'.error hp hs.2⟩)

theorem pure (a : α) (h : ∀ s, P s → Q a s) : Triple P (Pure.pure a : Prog ε σ α) Q H :=
  fun s hs => h s hs

theorem halt (e : ε) (h : ∀ s, P s → H e s) : Triple P (Prog.halt e : Prog ε σ α) Q H :=
  fun s hs => h s hs

theorem read (f : σ → α) (h : ∀ s, P s → Q (f s) s) :
    Triple P (Prog.read f : Prog ε σ α) Q H :=
  fun s hs => h s hs

theorem update {S : PUnit.{u + 1} → σ → Prop} (f : σ → σ) (h : ∀ s, P s → S ⟨⟩ (f s)) :
    Triple P (Prog.update f : Prog ε σ PUnit) S H :=
  fun s hs => h s hs

theorem bind {f : α → Prog ε σ β} (hp : Triple P p Q H) (hf : ∀ a, Triple (Q a) (f a) R H) :
    Triple P (p >>= f) R H := by
  intro s hs
  rcases hr : p s with ⟨e | a, s'⟩
  · rw [bind_error hr]
    exact hp.error hr hs
  · rw [bind_ok hr]
    exact hf a s' (hp.ok hr hs)

theorem ite {c : Prop} [Decidable c] {q : Prog ε σ α} (hp : c → Triple P p Q H)
    (hq : ¬ c → Triple P q Q H) : Triple P (if c then p else q) Q H := by
  by_cases hc : c
  · simpa only [if_pos hc] using hp hc
  · simpa only [if_neg hc] using hq hc

/-- A fact about a part of the state lifts to the whole, for each whole state. -/
theorem zoom {P : τ → Prop} {Q : α → τ → Prop} {H : ε → τ → Prop} {view : τ → σ}
    {put : τ → σ → τ}
    (h : ∀ t, P t → Triple (fun s => s = view t) p (fun a s => Q a (put t s))
      (fun e s => H e (put t s))) : Triple P (Prog.zoom view put p) Q H := by
  intro t ht
  have := h t ht (view t) rfl
  rw [zoom_apply]
  rcases hr : p (view t) with ⟨e | a, s'⟩ <;> rw [hr] at this <;> exact this

theorem iterate {stuck : ε} {body : β → Prog ε σ (β ⊕ α)} {I : β → σ → Prop}
    (hbody : ∀ b, Triple (I b) (body b)
      (fun r s => match r with | .inl b' => I b' s | .inr a => Q a s) H)
    (hstuck : ∀ b s, I b s → H stuck s) (n : ℕ) (b : β) :
    Triple (I b) (ScriptedProgram.iterate stuck body n b) Q H := by
  induction n generalizing b with
  | zero => exact Triple.halt stuck (hstuck b)
  | succ n ih =>
      refine Triple.bind (hbody b) ?_
      rintro (b' | a)
      · exact ih b'
      · exact Triple.pure a (fun _ hs => hs)

/-- The invariant rule: what every round keeps holds when the loop ends or halts. -/
theorem loop {stuck : ε} {size : β → σ → ℕ} {body : β → Prog ε σ (β ⊕ α)} {I : β → σ → Prop}
    (hbody : ∀ b, Triple (I b) (body b)
      (fun r s => match r with | .inl b' => I b' s | .inr a => Q a s) H)
    (hstuck : ∀ b s, I b s → H stuck s) (b : β) :
    Triple (I b) (ScriptedProgram.loop stuck size body b) Q H :=
  fun s hs => Triple.iterate hbody hstuck (size b s + 1) b s hs

/-- The rule for total correctness: a loop whose rounds shrink the state is never stuck. -/
theorem loop_total {stuck : ε} {size : β → σ → ℕ} {body : β → Prog ε σ (β ⊕ α)}
    {I : β → σ → Prop} (hshrinks : Shrinks size body)
    (hbody : ∀ b, Triple (I b) (body b)
      (fun r s => match r with | .inl b' => I b' s | .inr a => Q a s) H) (b : β) :
    Triple (I b) (ScriptedProgram.loop stuck size body b) Q H := by
  intro s hs
  induction hk : size b s using Nat.strongRecOn generalizing b s with
  | _ k ih =>
      rw [loop_eq stuck hshrinks]
      rcases hr : body b s with ⟨e | b' | a, s'⟩
      · rw [bind_error hr]
        exact (hbody b).error hr hs
      · rw [bind_ok hr]
        have hlt := hshrinks b s b' s' hr
        exact ih (size b' s') (by omega) b' s' ((hbody b).ok hr hs) rfl
      · rw [bind_ok hr]
        exact (hbody b).ok hr hs

end Triple

/-- The program keeps `I` whether it returns or halts. -/
abbrev Keeps {ε σ α : Type u} (I : σ → Prop) (p : Prog ε σ α) : Prop :=
  Triple I p (fun _ => I) (fun _ => I)

/-- From any state, the program halts for reasons in `E` only. -/
def Halts {ε σ α : Type u} (E : ε → Prop) (p : Prog ε σ α) : Prop :=
  Triple (fun _ => True) p (fun _ _ => True) (fun e _ => E e)

namespace Halts

variable {ε σ τ α β : Type u} {E : ε → Prop} {p : Prog ε σ α}

theorem error (h : Halts E p) {s s' : σ} {e : ε} (hp : p s = (.error e, s')) : E e :=
  Triple.error h hp trivial

theorem returns (h : Halts (fun _ => False) p) (s : σ) : ∃ a s', p s = (.ok a, s') := by
  rcases hp : p s with ⟨e | a, s'⟩
  · exact (h.error hp).elim
  · exact ⟨a, s', rfl⟩

theorem pure (a : α) : Halts E (Pure.pure a : Prog ε σ α) := fun _ _ => trivial

theorem halt {e : ε} (h : E e) : Halts E (Prog.halt e : Prog ε σ α) := fun _ _ => h

theorem read (f : σ → α) : Halts E (Prog.read f : Prog ε σ α) := fun _ _ => trivial

theorem update (f : σ → σ) : Halts E (Prog.update f : Prog ε σ PUnit) := fun _ _ => trivial

theorem bind {f : α → Prog ε σ β} (hp : Halts E p) (hf : ∀ a, Halts E (f a)) : Halts E (p >>= f) :=
  Triple.bind hp hf

theorem ite {c : Prop} [Decidable c] {q : Prog ε σ α} (hp : Halts E p) (hq : Halts E q) :
    Halts E (if c then p else q) :=
  Triple.ite (fun _ => hp) fun _ => hq

theorem zoom {view : τ → σ} {put : τ → σ → τ} (hp : Halts E p) : Halts E (Prog.zoom view put p) :=
  Triple.zoom fun _ _ => Triple.pre hp fun _ _ => trivial

/-- A loop whose rounds shrink the state halts in its rounds only. -/
theorem loop {stuck : ε} {size : β → σ → ℕ} {body : β → Prog ε σ (β ⊕ α)}
    (hshrinks : Shrinks size body) (hbody : ∀ b, Halts E (body b)) (b : β) :
    Halts E (ScriptedProgram.loop stuck size body b) := by
  refine Triple.loop_total (I := fun _ _ => True) hshrinks (fun b => ?_) b
  refine Triple.conseq (hbody b) (fun _ hs => hs) ?_ fun _ _ he => he
  rintro (b' | a) _ _ <;> trivial

end Halts

/-- What the program returns, if it does, is in `A`. -/
def ReturnsIn {ε σ α : Type u} (A : α → Prop) (p : Prog ε σ α) : Prop :=
  ∀ s a s', p s = (.ok a, s') → A a

namespace ReturnsIn

variable {ε σ τ α β : Type u} {A : α → Prop} {p : Prog ε σ α}

theorem pure {a : α} (h : A a) : ReturnsIn A (Pure.pure a : Prog ε σ α) := by
  rintro s _ _ ⟨⟩
  exact h

theorem bind {q : Prog ε σ β} {f : β → Prog ε σ α} (hf : ∀ b, ReturnsIn A (f b)) :
    ReturnsIn A (q >>= f) := by
  intro s a s' h
  obtain ⟨b, s₁, -, h⟩ := bind_eq_ok h
  exact hf b s₁ a s' h

theorem ite {c : Prop} [Decidable c] {q : Prog ε σ α} (hp : ReturnsIn A p) (hq : ReturnsIn A q) :
    ReturnsIn A (if c then p else q) := by
  by_cases hc : c
  · rwa [if_pos hc]
  · rwa [if_neg hc]

theorem zoom {view : τ → σ} {put : τ → σ → τ} (hp : ReturnsIn A p) :
    ReturnsIn A (Prog.zoom view put p) := by
  intro t a t' h
  rw [zoom_apply, Prod.mk.injEq] at h
  exact hp _ _ _ (Prod.ext h.1 rfl)

end ReturnsIn

/-! ## Relations between the states before and after -/

def Within {ε σ α : Type u} (R : σ → σ → Prop) (p : Prog ε σ α) : Prop := ∀ s, R s (p s).2

namespace Within

variable {ε σ τ α β : Type u} {R S : σ → σ → Prop} {p : Prog ε σ α}

theorem of_eq (h : Within R p) {s s' : σ} {r : Except ε α} (hp : p s = (r, s')) : R s s' := by
  have := h s
  rwa [hp] at this

theorem mono (h : Within R p) (hRS : ∀ s s', R s s' → S s s') : Within S p :=
  fun s => hRS _ _ (h s)

theorem and (hR : Within R p) (hS : Within S p) : Within (fun s s' => R s s' ∧ S s s') p :=
  fun s => ⟨hR s, hS s⟩

/-- A fact that the relation carries over is kept. -/
theorem keeps (h : Within R p) {I : σ → Prop} (hI : ∀ s s', R s s' → I s → I s') : Keeps I p :=
  Triple.intro (fun _ _ _ hs hp => hI _ _ (h.of_eq hp) hs)
    (fun _ _ _ hs hp => hI _ _ (h.of_eq hp) hs)

theorem update {f : σ → σ} (h : ∀ s, R s (f s)) : Within R (Prog.update f : Prog ε σ PUnit) :=
  fun s => h s

theorem ite {c : Prop} [Decidable c] {q : Prog ε σ α} (hp : Within R p) (hq : Within R q) :
    Within R (if c then p else q) := by
  by_cases hc : c
  · simpa only [if_pos hc] using hp
  · simpa only [if_neg hc] using hq

theorem zoom {T : τ → τ → Prop} {view : τ → σ} {put : τ → σ → τ} (h : Within R p)
    (hput : ∀ t s, R (view t) s → T t (put t s)) : Within T (Prog.zoom view put p) :=
  fun t => hput t _ (h (view t))

section

variable [IsPreorder σ R]

theorem pure (a : α) : Within R (Pure.pure a : Prog ε σ α) := fun s => refl s

theorem halt (e : ε) : Within R (Prog.halt e : Prog ε σ α) := fun s => refl s

theorem read (f : σ → α) : Within R (Prog.read f : Prog ε σ α) := fun s => refl s

theorem bind {f : α → Prog ε σ β} (hp : Within R p) (hf : ∀ a, Within R (f a)) :
    Within R (p >>= f) := by
  intro s
  rcases hr : p s with ⟨e | a, s'⟩
  · rw [bind_error hr]
    exact hp.of_eq hr
  · rw [bind_ok hr]
    exact IsTrans.trans _ _ _ (hp.of_eq hr) (hf a s')

theorem iterate {stuck : ε} {body : β → Prog ε σ (β ⊕ α)} (hbody : ∀ b, Within R (body b))
    (n : ℕ) (b : β) : Within R (ScriptedProgram.iterate stuck body n b) := by
  induction n generalizing b with
  | zero => exact Within.halt stuck
  | succ n ih =>
      refine Within.bind (hbody b) ?_
      rintro (b' | a)
      · exact ih b'
      · exact Within.pure a

theorem loop {stuck : ε} {size : β → σ → ℕ} {body : β → Prog ε σ (β ⊕ α)}
    (hbody : ∀ b, Within R (body b)) (b : β) :
    Within R (ScriptedProgram.loop stuck size body b) :=
  fun s => Within.iterate hbody (size b s + 1) b s

end

end Within

/-! ## Two runs of one program -/

/-- Two runs that gave the same result, in related states. -/
def Concur {ε σ α : Type u} (R : σ → σ → Prop) (x y : Except ε α × σ) : Prop :=
  x.1 = y.1 ∧ R x.2 y.2

/-- From related states the program gives the same result and comes to related states. -/
def Alike {ε σ α : Type u} (R : σ → σ → Prop) (p : Prog ε σ α) : Prop :=
  ∀ s s', R s s' → Concur R (p s) (p s')

theorem Concur.bind {ε σ α β : Type u} {R : σ → σ → Prop} {p p' : Prog ε σ α}
    {q : α → Prog ε σ β} {s s' : σ} (h : Concur R (p s) (p' s')) (hq : ∀ a, Alike R (q a)) :
    Concur R ((p >>= q) s) ((p' >>= q) s') := by
  obtain ⟨hresult, hstate⟩ := h
  rcases hr : p s with ⟨e | a, t⟩ <;> rcases hr' : p' s' with ⟨e' | a', t'⟩ <;>
    rw [hr, hr'] at hresult hstate <;> cases hresult
  · rw [bind_error hr, bind_error hr']
    exact ⟨rfl, hstate⟩
  · rw [bind_ok hr, bind_ok hr']
    exact hq a t t' hstate

namespace Alike

variable {ε σ τ α β : Type u} {R : σ → σ → Prop} {p : Prog ε σ α}

theorem same (p : Prog ε σ α) : Alike Eq p := by
  rintro s _ rfl
  exact ⟨rfl, rfl⟩

theorem pure (a : α) : Alike R (Pure.pure a : Prog ε σ α) := fun _ _ h => ⟨rfl, h⟩

theorem halt (e : ε) : Alike R (Prog.halt e : Prog ε σ α) := fun _ _ h => ⟨rfl, h⟩

theorem read {g : σ → α} (hg : ∀ s s', R s s' → g s = g s') :
    Alike R (Prog.read g : Prog ε σ α) := fun s s' h => ⟨congrArg Except.ok (hg s s' h), h⟩

theorem update {g : σ → σ} (hg : ∀ s s', R s s' → R (g s) (g s')) :
    Alike R (Prog.update g : Prog ε σ PUnit) := fun s s' h => ⟨rfl, hg s s' h⟩

theorem bind {q : α → Prog ε σ β} (hp : Alike R p) (hq : ∀ a, Alike R (q a)) :
    Alike R (p >>= q) := fun s s' h => (hp s s' h).bind hq

/-- What is read may differ where the program that follows makes no difference of it. -/
theorem read_bind {g : σ → β} {q : β → Prog ε σ α} (hg : ∀ s s', R s s' → q (g s) = q (g s'))
    (hq : ∀ b, Alike R (q b)) : Alike R (Prog.read g >>= q) := by
  intro s s' h
  rw [bind_ok (read_apply g s), bind_ok (read_apply g s'), ← hg s s' h]
  exact hq (g s) s s' h

theorem ite {c : Prop} [Decidable c] {q : Prog ε σ α} (hp : Alike R p) (hq : Alike R q) :
    Alike R (if c then p else q) := by
  by_cases hc : c
  · simpa only [if_pos hc] using hp
  · simpa only [if_neg hc] using hq

theorem zoom {S : τ → τ → Prop} {view : τ → σ} {put : τ → σ → τ} (hp : Alike R p)
    (hview : ∀ t t', S t t' → R (view t) (view t'))
    (hput : ∀ t t' s s', S t t' → R s s' → S (put t s) (put t' s')) :
    Alike S (Prog.zoom view put p) := by
  intro t t' h
  obtain ⟨hresult, hstate⟩ := hp _ _ (hview t t' h)
  exact ⟨hresult, hput _ _ _ _ h hstate⟩

section Loops

variable {stuck : ε} {size : β → σ → ℕ} {body : β → Prog ε σ (β ⊕ α)}

/-- The second run may take some rounds alone before each round of the first. -/
theorem loop_stutter (hshrinks : Shrinks size body)
    (hround : ∀ b s s', R s s' → ∃ s'', ScriptedProgram.loop stuck size body b s' =
      ScriptedProgram.loop stuck size body b s'' ∧ Concur R (body b s) (body b s'')) (b : β) :
    Alike R (ScriptedProgram.loop stuck size body b) := by
  intro s s' h
  induction hk : size b s using Nat.strongRecOn generalizing b s s' with
  | _ k ih =>
      obtain ⟨s'', hsame, hresult, hstate⟩ := hround b s s' h
      rw [hsame]
      rcases hr : body b s with ⟨e | b' | a, t⟩ <;> rcases hr' : body b s'' with ⟨r', t'⟩ <;>
        rw [hr, hr'] at hresult hstate <;> obtain rfl := hresult
      · rw [loop_error hshrinks hr, loop_error hshrinks hr']
        exact ⟨rfl, hstate⟩
      · rw [loop_next hshrinks hr, loop_next hshrinks hr']
        have hlt := hshrinks b s b' t hr
        exact ih (size b' t) (by omega) b' t t' hstate rfl
      · rw [loop_return hshrinks hr, loop_return hshrinks hr']
        exact ⟨rfl, hstate⟩

theorem loop (hshrinks : Shrinks size body) (hbody : ∀ b, Alike R (body b)) (b : β) :
    Alike R (ScriptedProgram.loop stuck size body b) :=
  loop_stutter hshrinks (fun b s s' h => ⟨s', rfl, hbody b s s' h⟩) b

end Loops

end Alike

end ScriptedProgram
