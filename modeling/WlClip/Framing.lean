import Mathlib.Tactic.Common
import Mathlib.Data.Nat.Notation

/-!
# Message framings

A framing writes each message as a non-empty list of symbols from which the message can be read
back whatever follows. A stream of messages then has one decomposition only, so a reader that has
taken some messages off the front of a stream has taken a prefix of what was written, and what is
left is the stream of the others.
-/

universe u v

/-- `first` reads the first complete message of a buffer, if there is one. -/
structure Framing (μ : Type u) (β : Type v) where
  bytes : μ → List β
  first : List β → Option μ
  bytes_ne_nil : ∀ m, bytes m ≠ []
  first_bytes : ∀ m rest, first (bytes m ++ rest) = some m
  first_prefix : ∀ l m, first l = some m → bytes m <+: l

namespace Framing

variable {μ : Type u} {β : Type v} (F : Framing μ β)

def stream (ms : List μ) : List β := ms.flatMap F.bytes

@[simp] theorem stream_nil : F.stream [] = [] := rfl

@[simp] theorem stream_cons (m : μ) (ms : List μ) :
    F.stream (m :: ms) = F.bytes m ++ F.stream ms := rfl

@[simp] theorem stream_append (ms ns : List μ) :
    F.stream (ms ++ ns) = F.stream ms ++ F.stream ns := List.flatMap_append

theorem first_append {l : List β} {m : μ} (h : F.first l = some m) (r : List β) :
    F.first (l ++ r) = some m := by
  obtain ⟨t, rfl⟩ := F.first_prefix l m h
  rw [List.append_assoc]
  exact F.first_bytes m (t ++ r)

@[simp] theorem first_nil : F.first [] = none := by
  rcases h : F.first [] with _ | m
  · rfl
  · exact absurd (List.prefix_nil.mp (F.first_prefix [] m h)) (F.bytes_ne_nil m)

theorem first_stream_cons (m : μ) (ms : List μ) (r : List β) :
    F.first (F.stream (m :: ms) ++ r) = some m := by
  rw [stream_cons, List.append_assoc]
  exact F.first_bytes m _

theorem stream_eq_nil {ms : List μ} (h : F.stream ms = []) : ms = [] := by
  cases ms with
  | nil => rfl
  | cons m ms =>
      rw [stream_cons] at h
      exact absurd (List.append_eq_nil_iff.mp h).1 (F.bytes_ne_nil m)

/-- At most `n` messages off the front of a buffer, and what is left of it. -/
def splitMost : ℕ → List β → List μ × List β
  | 0, l => ([], l)
  | n + 1, l =>
    match F.first l with
    | none => ([], l)
    | some m =>
      let rest := splitMost n (l.drop (F.bytes m).length)
      (m :: rest.1, rest.2)

/-- All complete messages at the front of a buffer. -/
def split (l : List β) : List μ × List β := F.splitMost l.length l

theorem splitMost_stream (ms : List μ) {r : List β} (hr : F.first r = none) {n : ℕ}
    (hn : ms.length ≤ n) : F.splitMost n (F.stream ms ++ r) = (ms, r) := by
  induction ms generalizing n with
  | nil => cases n <;> simp [splitMost, hr]
  | cons m ms ih =>
      obtain ⟨n, rfl⟩ : ∃ k, n = k + 1 := ⟨n - 1, by simp at hn; omega⟩
      rw [splitMost, F.first_stream_cons, stream_cons, List.append_assoc]
      simp only [List.drop_left, ih (Nat.le_of_succ_le_succ hn)]

theorem length_le_stream (ms : List μ) : ms.length ≤ (F.stream ms).length := by
  induction ms with
  | nil => exact Nat.zero_le _
  | cons m ms ih =>
      have hpos := List.length_pos_iff.mpr (F.bytes_ne_nil m)
      simp only [stream_cons, List.length_cons, List.length_append]
      omega

/-- A stream is split into the messages that were written to it. -/
theorem split_stream (ms : List μ) {r : List β} (hr : F.first r = none) :
    F.split (F.stream ms ++ r) = (ms, r) := by
  refine F.splitMost_stream ms hr ?_
  have hle := F.length_le_stream ms
  simp only [List.length_append]
  omega

theorem splitMost_append (n : ℕ) (l : List β) :
    F.stream (F.splitMost n l).1 ++ (F.splitMost n l).2 = l := by
  induction n generalizing l with
  | zero => rfl
  | succ n ih =>
      rw [splitMost]
      rcases hfirst : F.first l with _ | m
      · rfl
      · obtain ⟨t, rfl⟩ := F.first_prefix l m hfirst
        simp only [List.drop_left, stream_cons, List.append_assoc, ih]

/-- Nothing of a buffer is lost. -/
theorem split_append (l : List β) : F.stream (F.split l).1 ++ (F.split l).2 = l :=
  F.splitMost_append l.length l

/-- Two messages that begin the same stream are equal, and so is what follows them. -/
theorem bytes_append_inj {m n : μ} {r t : List β} (h : F.bytes m ++ r = F.bytes n ++ t) :
    m = n ∧ r = t := by
  have hm := F.first_bytes m r
  rw [h, F.first_bytes n t] at hm
  obtain rfl := Option.some.inj hm
  exact ⟨rfl, List.append_cancel_left h⟩

/-- Messages taken off the front of a stream are a prefix of those written to it. -/
theorem stream_append_eq {ds ms : List μ} {r : List β} (h : F.stream ds ++ r = F.stream ms) :
    ∃ rest, ms = ds ++ rest ∧ r = F.stream rest := by
  induction ds generalizing ms with
  | nil => exact ⟨ms, rfl, by simpa using h⟩
  | cons d ds ih =>
      cases ms with
      | nil =>
          have hnil := (List.append_eq_nil_iff.mp h).1
          cases F.stream_eq_nil hnil
      | cons m ms =>
          rw [stream_cons, stream_cons, List.append_assoc] at h
          obtain ⟨rfl, htail⟩ := F.bytes_append_inj h
          obtain ⟨rest, rfl, hr⟩ := ih htail
          exact ⟨rest, rfl, hr⟩

/-- The complete messages of a part of a stream are the first that were written to it. -/
theorem split_cut {l : List β} {ms : List μ} (h : l <+: F.stream ms) : (F.split l).1 <+: ms := by
  obtain ⟨t, ht⟩ := h
  have hsplit := F.split_append l
  rw [← hsplit, List.append_assoc] at ht
  obtain ⟨rest, hms, -⟩ := F.stream_append_eq ht
  exact ⟨rest, hms.symm⟩

/-- The first message of a buffer is the next one of the stream. -/
theorem stream_first {ds ms : List μ} {m : μ} {buf r : List β}
    (h : F.stream ds ++ (buf ++ r) = F.stream ms) (hm : F.first buf = some m) :
    ∃ rest, ms = ds ++ m :: rest ∧ buf ++ r = F.stream (m :: rest) := by
  obtain ⟨rest, hms, hrest⟩ := F.stream_append_eq h
  have hhead := F.first_append hm r
  rw [hrest] at hhead
  cases rest with
  | nil =>
      rw [stream_nil, first_nil] at hhead
      cases hhead
  | cons n rest =>
      have hn := F.first_stream_cons n rest []
      rw [List.append_nil, hhead] at hn
      obtain rfl := Option.some.inj hn
      exact ⟨rest, hms, hrest⟩

end Framing
