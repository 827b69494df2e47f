import Mathlib.Data.Multiset.AddSub
import Mathlib.Data.Multiset.Filter
import Mathlib.Algebra.Order.Group.Multiset

/-!
# Ledgers of resources

A ledger says which resources each action of a log acquires, uses and releases. `Run` takes the
resources held before a log to those held after it: an action can use and release held resources
only, and releases each as often as it names it. What a log does not touch can be added to both
sides, so the logs of parts of a program are settled on their own resources.
-/

universe u v

structure Ledger (α : Type u) (ρ : Type v) where
  acquired : α → Multiset ρ
  used : α → Multiset ρ
  released : α → Multiset ρ

namespace Ledger

variable {α : Type u} {ρ : Type v} (L : Ledger α ρ)

inductive Run : Multiset ρ → List α → Multiset ρ → Prop
  | nil (s : Multiset ρ) : Run s [] s
  | cons {s s' : Multiset ρ} {log : List α} (a : α) (kept : Multiset ρ)
      (hheld : s = kept + L.released a) (hused : ∀ r ∈ L.used a, r ∈ s)
      (h : Run (kept + L.acquired a) log s') : Run s (a :: log) s'

variable {L} {s s' s'' t : Multiset ρ} {log log' : List α}

theorem Run.append (h : L.Run s log s') (h' : L.Run s' log' s'') : L.Run s (log ++ log') s'' := by
  induction h with
  | nil s => exact h'
  | cons a kept hheld hused _ ih => exact .cons a kept hheld hused (ih h')

theorem Run.frame (h : L.Run s log s') (t : Multiset ρ) : L.Run (s + t) log (s' + t) := by
  induction h with
  | nil s => exact .nil (s + t)
  | @cons s s' log a kept hheld hused _ ih =>
      refine .cons a (kept + t) ?_ ?_ ?_
      · rw [hheld, add_right_comm]
      · exact fun r hr => Multiset.mem_add.mpr (.inl (hused r hr))
      · rwa [add_right_comm]

/-- Actions that only use what is held leave it as it was. -/
theorem Run.of_used (h : ∀ a ∈ log, L.acquired a = 0 ∧ L.released a = 0 ∧ ∀ r ∈ L.used a, r ∈ s) :
    L.Run s log s := by
  induction log with
  | nil => exact .nil s
  | cons a log ih =>
      obtain ⟨hacquired, hreleased, hused⟩ := h a List.mem_cons_self
      refine .cons a s (by rw [hreleased, add_zero]) hused ?_
      rw [hacquired, add_zero]
      exact ih fun b hb => h b (List.mem_cons_of_mem _ hb)

theorem Run.split (h : L.Run s (log ++ log') s'') : ∃ s', L.Run s log s' ∧ L.Run s' log' s'' := by
  induction log generalizing s with
  | nil => exact ⟨s, .nil s, h⟩
  | cons a log ih =>
      cases h with
      | cons a kept hheld hused h =>
          obtain ⟨s', hfirst, hsecond⟩ := ih h
          exact ⟨s', .cons a kept hheld hused hfirst, hsecond⟩

/-- What is held after a log is what was acquired and not released. -/
theorem Run.balance (h : L.Run s log s') :
    s + (log.map L.acquired).sum = (log.map L.released).sum + s' := by
  induction h with
  | nil s => simp
  | @cons s s' log a kept hheld _ _ ih =>
      calc s + ((a :: log).map L.acquired).sum
          = L.released a + (kept + L.acquired a + (log.map L.acquired).sum) := by
            rw [hheld, List.map_cons, List.sum_cons, add_comm kept]
            simp only [add_assoc]
        _ = L.released a + ((log.map L.released).sum + s') := by rw [ih]
        _ = ((a :: log).map L.released).sum + s' := by
            rw [List.map_cons, List.sum_cons, add_assoc]

section Settled

variable [DecidableEq ρ]

/-- Every resource was released as often as acquired, and was held whenever it was used or
released. -/
structure Settled (L : Ledger α ρ) (log : List α) : Prop where
  balanced : ∀ r, ((log.map L.released).sum).count r = ((log.map L.acquired).sum).count r
  held : ∀ before a after, log = before ++ a :: after → ∀ r, r ∈ L.used a ∨ r ∈ L.released a →
    ((before.map L.released).sum).count r < ((before.map L.acquired).sum).count r

theorem Run.settled (h : L.Run 0 log 0) : L.Settled log where
  balanced r := by
    have hbalance := h.balance
    rw [zero_add, add_zero] at hbalance
    rw [hbalance]
  held before a after hlog r hr := by
    subst hlog
    obtain ⟨held, hbefore, hafter⟩ := h.split
    have hmem : r ∈ held := by
      cases hafter with
      | cons a kept hheld hused _ =>
          rcases hr with hr | hr
          · exact hused r hr
          · rw [hheld]
            exact Multiset.mem_add.mpr (.inr hr)
    have hcount := Multiset.count_pos.mpr hmem
    have hbalance := congrArg (Multiset.count r) hbefore.balance
    rw [zero_add, Multiset.count_add] at hbalance
    omega

end Settled

end Ledger
