import Mathlib.Data.List.Basic
import Mathlib.Logic.Function.Basic

/-!
# Parties that share an environment

A log holds what parties do, in the order in which it takes effect. Every party follows a relation
of its own, and an environment that they share decides what it allows and is changed by what is
done. If the part of each party is a path of its relation and the environment has allowed the whole
log, the log is a path of the system of them all: what every step of the system keeps holds at its
end, however the parties are interleaved.
-/

universe u v w x

namespace Interleaving

/-! ## Paths -/

section Path

variable {σ : Type u} {α : Type v}

inductive Path (step : σ → α → σ → Prop) : σ → List α → σ → Prop
  | nil (s : σ) : Path step s [] s
  | cons {s s' s'' : σ} {a : α} {log : List α} (h : step s a s') (hrest : Path step s' log s'') :
      Path step s (a :: log) s''

variable {step : σ → α → σ → Prop} {s s' s'' : σ} {log log' : List α}

theorem Path.single {a : α} (h : step s a s') : Path step s [a] s' := .cons h (.nil s')

theorem Path.eq_of_nil (h : Path step s [] s') : s = s' := by
  cases h
  rfl

theorem Path.uncons {a : α} (h : Path step s (a :: log) s'') :
    ∃ s', step s a s' ∧ Path step s' log s'' := by
  cases h with
  | cons hstep hrest => exact ⟨_, hstep, hrest⟩

theorem Path.append (h : Path step s log s') (h' : Path step s' log' s'') :
    Path step s (log ++ log') s'' := by
  induction h with
  | nil s => exact h'
  | cons hstep _ ih => exact .cons hstep (ih h')

theorem Path.split (h : Path step s (log ++ log') s'') :
    ∃ s', Path step s log s' ∧ Path step s' log' s'' := by
  induction log generalizing s with
  | nil => exact ⟨s, .nil s, h⟩
  | cons a log ih =>
      obtain ⟨t, hstep, hrest⟩ := h.uncons
      obtain ⟨s', hfirst, hsecond⟩ := ih hrest
      exact ⟨s', .cons hstep hfirst, hsecond⟩

/-- Actions that need not leave a state. -/
theorem Path.stay (h : ∀ a ∈ log, step s a s) : Path step s log s := by
  induction log with
  | nil => exact .nil s
  | cons a log ih =>
      exact .cons (h a List.mem_cons_self) (ih fun b hb => h b (List.mem_cons_of_mem _ hb))

/-- What holds of a state and of what was done before it, if every step carries it on. -/
theorem Path.history {I : List α → σ → Prop} (hnil : I [] s)
    (hstep : ∀ log s a s', I log s → step s a s' → I (log ++ [a]) s') (h : Path step s log s') :
    I log s' := by
  have hrest : ∀ before, I before s → I (before ++ log) s' := by
    clear hnil
    induction h with
    | nil s =>
        intro before hs
        rwa [List.append_nil]
    | @cons s s' s'' a log ha _ ih =>
        intro before hs
        have hnext := ih _ (hstep _ _ _ _ hs ha)
        rwa [List.append_assoc] at hnext
  exact hrest [] hnil

theorem Path.mem {a : α} (h : Path step s log s') (ha : a ∈ log) : ∃ t t', step t a t' := by
  obtain ⟨before, after, rfl⟩ := List.append_of_mem ha
  obtain ⟨t, -, hrest⟩ := h.split
  obtain ⟨t', hstep, -⟩ := hrest.uncons
  exact ⟨t, t', hstep⟩

/-- What every step keeps whose action is one of `C` a path of such actions keeps. -/
theorem Path.keeps {I : σ → Prop} {C : α → Prop} (h : Path step s log s')
    (hI : ∀ s a s', C a → step s a s' → I s → I s') (hlog : ∀ a ∈ log, C a) (hs : I s) : I s' := by
  induction h with
  | nil s => exact hs
  | cons ha _ ih =>
      exact ih (fun b hb => hlog b (List.mem_cons_of_mem _ hb))
        (hI _ _ _ (hlog _ List.mem_cons_self) ha hs)

end Path

/-! ## The part of a party -/

section Log

variable {ι : Type w} {α : Type v} [DecidableEq ι]

def logOf (i : ι) (log : List (ι × α)) : List α :=
  log.filterMap fun a => if a.1 = i then some a.2 else none

variable {i j : ι} {a : α} {log log' : List (ι × α)} {before after : List α}

@[simp] theorem logOf_cons_self : logOf i ((i, a) :: log) = a :: logOf i log := by
  simp [logOf]

theorem logOf_cons_of_ne (h : j ≠ i) : logOf i ((j, a) :: log) = logOf i log := by
  simp [logOf, h]

@[simp] theorem logOf_append : logOf i (log ++ log') = logOf i log ++ logOf i log' :=
  List.filterMap_append

@[simp] theorem logOf_map_self {actions : List α} :
    logOf i (actions.map fun a => (i, a)) = actions := by
  induction actions with
  | nil => rfl
  | cons a actions ih => rw [List.map_cons, logOf_cons_self, ih]

theorem logOf_map_of_ne (h : j ≠ i) {actions : List α} :
    logOf i (actions.map fun a => (j, a)) = [] := by
  induction actions with
  | nil => rfl
  | cons a actions ih => rw [List.map_cons, logOf_cons_of_ne h, ih]

theorem mem_logOf : a ∈ logOf i log ↔ (i, a) ∈ log := by
  simp [logOf]

theorem logOf_eq_append (h : logOf i log = before ++ after) :
    ∃ log₁ log₂, log = log₁ ++ log₂ ∧ logOf i log₁ = before ∧ logOf i log₂ = after :=
  List.filterMap_eq_append_iff.mp h

/-- Each action of a party has its place in the log. -/
theorem logOf_eq_cons (h : logOf i log = a :: after) :
    ∃ log₁ log₂, log = log₁ ++ (i, a) :: log₂ ∧ logOf i log₁ = [] ∧ logOf i log₂ = after := by
  obtain ⟨log₁, b, log₂, rfl, hskipped, hb, hafter⟩ := List.filterMap_eq_cons_iff.mp h
  refine ⟨log₁, log₂, ?_, List.filterMap_eq_nil_iff.mpr hskipped, hafter⟩
  obtain ⟨j, b⟩ := b
  obtain ⟨rfl, rfl⟩ : j = i ∧ b = a := by simpa using hb
  rfl

theorem logOf_eq_append_cons (h : logOf i log = before ++ a :: after) :
    ∃ log₁ log₂, log = log₁ ++ (i, a) :: log₂ ∧ logOf i log₁ = before ∧ logOf i log₂ = after := by
  obtain ⟨log₁, rest, rfl, hbefore, hrest⟩ := logOf_eq_append h
  obtain ⟨log₂, log₃, rfl, hskipped, hafter⟩ := logOf_eq_cons hrest
  refine ⟨log₁ ++ log₂, log₃, by simp, ?_, hafter⟩
  rw [logOf_append, hbefore, hskipped, List.append_nil]

end Log

/-! ## Systems -/

/-- What may be done, and what it makes of the environment. -/
structure Environment (ι : Type w) (α : Type v) (ε : Type x) where
  Allows : ε → ι → α → Prop
  after : ε → ι → α → ε

namespace Environment

variable {ι : Type w} {α : Type v} {ε : Type x} (env : Environment ι α ε)

def run (e : ε) (log : List (ι × α)) : ε := log.foldl (fun e a => env.after e a.1 a.2) e

/-- Every action of the log was allowed when it was done. -/
def Conforms (e : ε) : List (ι × α) → Prop
  | [] => True
  | a :: log => env.Allows e a.1 a.2 ∧ Conforms (env.after e a.1 a.2) log

variable {env} {e : ε} {log log' : List (ι × α)}

theorem run_append : env.run e (log ++ log') = env.run (env.run e log) log' := List.foldl_append

end Environment

section Joint

variable {ι : Type w} {α : Type v} {ε : Type x} {σ : Type u} [DecidableEq ι]

/-- One party makes a step that the environment allows, the others stay where they are. -/
inductive Joint (env : Environment ι α ε) (step : ι → σ → α → σ → Prop) :
    ε × (ι → σ) → ι × α → ε × (ι → σ) → Prop
  | step {e : ε} {s : ι → σ} {i : ι} {a : α} {t : σ} (hallows : env.Allows e i a)
      (hstep : step i (s i) a t) :
      Joint env step (e, s) (i, a) (env.after e i a, Function.update s i t)

variable {env : Environment ι α ε} {step : ι → σ → α → σ → Prop} {e : ε} {s s' : ι → σ}
  {log : List (ι × α)}

/-- The paths of the parties make a path of the system. -/
theorem joint_path (hpaths : ∀ i, Path (step i) (s i) (logOf i log) (s' i))
    (henv : env.Conforms e log) : Path (Joint env step) (e, s) log (env.run e log, s') := by
  induction log generalizing e s with
  | nil =>
      obtain rfl : s = s' := funext fun i => (hpaths i).eq_of_nil
      exact .nil _
  | cons a log ih =>
      obtain ⟨i, a⟩ := a
      obtain ⟨hallows, hrest⟩ := henv
      have hfirst := hpaths i
      rw [logOf_cons_self] at hfirst
      obtain ⟨t, hstep, htail⟩ := hfirst.uncons
      refine .cons (.step hallows hstep) (ih (fun j => ?_) hrest)
      by_cases hj : j = i
      · subst hj
        rwa [Function.update_self]
      · have hpath := hpaths j
        rw [logOf_cons_of_ne (Ne.symm hj)] at hpath
        rwa [Function.update_of_ne hj]

theorem joint_allows {x y : ε × (ι → σ)} {i : ι} {a : α} (h : Joint env step x (i, a) y) :
    env.Allows x.1 i a := by
  cases h with
  | step hallows => exact hallows

/-- On a path of the system the environment does what its log says. -/
theorem joint_run {x y : ε × (ι → σ)} (h : Path (Joint env step) x log y) :
    y.1 = env.run x.1 log := by
  induction h with
  | nil => rfl
  | cons hstep _ ih =>
      cases hstep
      exact ih

end Joint

end Interleaving
