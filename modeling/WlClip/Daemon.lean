import Mathlib.Tactic.Common
import Mathlib.Data.Nat.Notation

/-!
# Daemons that answer requests

A daemon answers the requests of consumers until it is told to stop. Events come in batches, and
whether the daemon is done is looked at between batches only. A fatal consumer kills the daemon
that serves it; the ideal daemon is the one that no consumer can kill.
-/

universe u

namespace Daemon

inductive Event (κ : Type u)
  | request (c : κ)
  | cancel
  deriving DecidableEq

/-- Whether one request is enough, and how many cancels are ignored. -/
structure Policy where
  once : Bool
  ignored : ℕ

structure Status where
  served : ℕ
  cancels : ℕ
  cancelled : Bool
  done : Bool
  deriving DecidableEq

def Status.initial : Status := ⟨0, 0, false, false⟩

namespace Status

def serve (P : Policy) (s : Status) : Status :=
  { s with served := s.served + 1, done := s.done || P.once }

def cancel (P : Policy) (s : Status) : Status :=
  if s.cancels < P.ignored then { s with cancels := s.cancels + 1 }
  else { s with cancels := s.cancels + 1, cancelled := true, done := true }

/-- A daemon that was cancelled before it served anyone has failed. -/
def success (s : Status) : Bool := !s.cancelled || s.served > 0

end Status

inductive Outcome
  | waiting (s : Status)
  | ended (s : Status)
  | killed
  deriving DecidableEq

section

variable {κ : Type u} (P : Policy) (fatal : κ → Bool)

/-- The consumers served in one batch, and the status after it of a daemon that survives it. -/
def handle : Status → List (Event κ) → List κ × Option Status
  | s, [] => ([], some s)
  | s, .request c :: es =>
    if fatal c then ([c], none)
    else
      let r := handle (s.serve P) es
      (c :: r.1, r.2)
  | s, .cancel :: es => handle (s.cancel P) es

/-- The consumers served, and how the daemon ends on the batches. -/
def run : Status → List (List (Event κ)) → List κ × Outcome
  | s, [] => ([], if s.done then .ended s else .waiting s)
  | s, b :: bs =>
    if s.done then ([], .ended s)
    else
      match handle P fatal s b with
      | (cs, none) => (cs, .killed)
      | (cs, some s') =>
        let r := run s' bs
        (cs ++ r.1, r.2)

def ideal (s : Status) (bs : List (List (Event κ))) : List κ × Outcome :=
  run P (fun _ => false) s bs

def requests (es : List (Event κ)) : List κ :=
  es.filterMap fun | .request c => some c | .cancel => none

def singly (es : List (Event κ)) : List (List (Event κ)) := es.map fun e => [e]

end

variable {κ : Type u} {P : Policy} {fatal : κ → Bool} {s s' : Status}

/-! ## Consumers that kill -/

theorem handle_ideal (s : Status) (es : List (Event κ)) :
    ∃ s', handle P (fun _ => false) s es = (requests es, some s') := by
  induction es generalizing s with
  | nil => exact ⟨s, rfl⟩
  | cons e es ih =>
      cases e with
      | request c =>
          obtain ⟨s', h⟩ := ih (s.serve P)
          exact ⟨s', by simp [handle, h, requests]⟩
      | cancel =>
          obtain ⟨s', h⟩ := ih (s.cancel P)
          exact ⟨s', by simp [handle, h, requests]⟩

variable (fatal) in
/-- Without fatal consumers a batch is handled as the ideal daemon does; otherwise it kills. -/
theorem handle_eq (s : Status) (es : List (Event κ)) :
    if ∀ c ∈ requests es, fatal c = false then
      handle P fatal s es = handle P (fun _ => false) s es
    else (handle P fatal s es).2 = none := by
  induction es generalizing s with
  | nil => simp [handle, requests]
  | cons e es ih =>
      cases e with
      | request c =>
          have htail := ih (s.serve P)
          have hreq : requests (.request c :: es) = c :: requests es := rfl
          by_cases hc : fatal c = true
          · rw [if_neg fun hall => by simp [hreq, hc] at hall]
            simp [handle, hc]
          · by_cases hall : ∀ c ∈ requests es, fatal c = false
            · rw [if_pos hall] at htail
              rw [if_pos (by simpa [hreq, hc] using hall)]
              simp [handle, hc, htail]
            · rw [if_neg hall] at htail
              rw [if_neg fun h => hall fun c' hc' => h c' (by simp [hreq, hc'])]
              simp [handle, hc, htail]
      | cancel => exact ih (s.cancel P)

theorem ideal_not_killed (s : Status) (bs : List (List (Event κ))) :
    (ideal P s bs).2 ≠ .killed := by
  induction bs generalizing s with
  | nil =>
      simp only [ideal, run]
      split_ifs <;> nofun
  | cons b bs ih =>
      simp only [ideal, run]
      split_ifs
      · nofun
      · obtain ⟨s', hs'⟩ := handle_ideal (P := P) s b
        rw [hs']
        exact ih s'

variable (fatal) in
/-- A daemon does as the ideal one unless that would serve a fatal consumer, which kills it. -/
theorem run_ideal (s : Status) (bs : List (List (Event κ))) :
    if ∀ c ∈ (ideal P s bs).1, fatal c = false then run P fatal s bs = ideal P s bs
    else (run P fatal s bs).2 = .killed := by
  induction bs generalizing s with
  | nil => simp [ideal, run]
  | cons b bs ih =>
      simp only [ideal, run]
      by_cases hdone : s.done = true
      · simp [hdone]
      · rw [if_neg hdone, if_neg hdone]
        obtain ⟨s', hs'⟩ := handle_ideal (P := P) s b
        have hb := handle_eq (P := P) fatal s b
        rw [hs'] at hb ⊢
        by_cases hall : ∀ c ∈ requests b, fatal c = false
        · rw [if_pos hall] at hb
          have htail := ih s'
          rw [ideal] at htail
          rw [hb]
          by_cases hrest : ∀ c ∈ (run P (fun _ => false) s' bs).1, fatal c = false
          · rw [if_pos hrest] at htail
            rw [if_pos fun c hc => (List.mem_append.mp hc).elim (hall c) (hrest c)]
            dsimp only
            rw [htail]
          · rw [if_neg hrest] at htail
            rw [if_neg fun h => hrest fun c hc => h c (List.mem_append_right _ hc)]
            exact htail
        · rw [if_neg hall] at hb
          rw [if_neg fun h => hall fun c hc => h c (List.mem_append_left _ hc)]
          rcases hr : handle P fatal s b with ⟨cs, _ | s''⟩
          · rfl
          · rw [hr] at hb
            cases hb

theorem run_eq_ideal {bs : List (List (Event κ))}
    (h : ∀ c ∈ (ideal P s bs).1, fatal c = false) : run P fatal s bs = ideal P s bs := by
  have hrun := run_ideal (P := P) fatal s bs
  rwa [if_pos h] at hrun

theorem run_killed_iff (s : Status) (bs : List (List (Event κ))) :
    (run P fatal s bs).2 = .killed ↔ ¬ ∀ c ∈ (ideal P s bs).1, fatal c = false := by
  by_cases h : ∀ c ∈ (ideal P s bs).1, fatal c = false
  · have hideal := ideal_not_killed (P := P) s bs
    rw [run_eq_ideal h]
    exact ⟨fun hk => absurd hk hideal, fun hn => absurd h hn⟩
  · have hrun := run_ideal (P := P) fatal s bs
    rw [if_neg h] at hrun
    exact ⟨fun _ => h, fun _ => hrun⟩

/-! ## One event at a time -/

theorem singly_cons (e : Event κ) (es : List (Event κ)) : singly (e :: es) = [e] :: singly es := rfl

theorem run_done (h : s.done = true) (bs : List (List (Event κ))) :
    run P fatal s bs = ([], .ended s) := by
  cases bs <;> simp [run, h]

theorem run_request (h : s.done = false) (c : κ) (es : List (Event κ)) :
    run P fatal s (singly (.request c :: es)) =
      if fatal c then ([c], .killed)
      else (c :: (run P fatal (s.serve P) (singly es)).1,
        (run P fatal (s.serve P) (singly es)).2) := by
  rw [singly_cons]
  simp only [run, h, handle, Bool.false_eq_true, if_false]
  split_ifs <;> rfl

theorem run_cancel (h : s.done = false) (es : List (Event κ)) :
    run P fatal s (singly (.cancel :: es)) = run P fatal (s.cancel P) (singly es) := by
  rw [singly_cons]
  simp [run, h, handle]

/-! ## Batches -/

/-- The requests that are served when all of these are tried: up to the first fatal one. -/
def answered (fatal : κ → Bool) : List κ → List κ
  | [] => []
  | c :: cs => if fatal c then [c] else c :: answered fatal cs

theorem answered_length (fatal : κ → Bool) (cs : List κ) :
    (answered fatal cs).length ≤ 1 ↔ ∀ c c' rest, cs = c :: c' :: rest → fatal c = true := by
  match cs with
  | [] => simp [answered]
  | [c] => by_cases hc : fatal c = true <;> simp [answered, hc]
  | c :: c' :: rest =>
      by_cases hc : fatal c = true <;> by_cases hc' : fatal c' = true <;> simp [answered, hc, hc']

variable (fatal) in
theorem handle_answered (s : Status) (es : List (Event κ)) :
    (handle P fatal s es).1 = answered fatal (requests es) := by
  induction es generalizing s with
  | nil => rfl
  | cons e es ih =>
      cases e with
      | request c =>
          have hreq : requests (.request c :: es) = c :: requests es := rfl
          rw [hreq, handle, answered]
          split_ifs
          · rfl
          · exact congrArg (c :: ·) (ih _)
      | cancel => exact ih (s.cancel P)

theorem handle_counted {I : ℕ → Status → Prop} (hserve : ∀ n s, I n s → I (n + 1) (s.serve P))
    (hcancel : ∀ n s, I n s → I n (s.cancel P)) {n : ℕ} {es : List (Event κ)} {cs : List κ}
    (hs : I n s) (h : handle P fatal s es = (cs, some s')) : I (n + cs.length) s' := by
  induction es generalizing s n cs with
  | nil =>
      cases h
      exact hs
  | cons e es ih =>
      cases e with
      | request c =>
          simp only [handle] at h
          split_ifs at h
          · cases h
          · obtain ⟨rfl, hrest⟩ := Prod.mk.inj h
            have htail := ih (hserve n s hs) (Prod.ext rfl hrest)
            rwa [Nat.add_assoc, Nat.add_comm 1] at htail
      | cancel => exact ih (hcancel n s hs) h

/-- With no cancel ignored and one request enough, any event of a batch is the end. -/
theorem handle_done (honce : P.once = true) (hignored : P.ignored = 0) {s s' : Status}
    {es : List (Event κ)} {cs : List κ} (h : handle P fatal s es = (cs, some s')) :
    s'.done = (s.done || !es.isEmpty) := by
  induction es generalizing s cs with
  | nil =>
      cases h
      simp
  | cons e es ih =>
      cases e with
      | request c =>
          simp only [handle] at h
          split_ifs at h
          · cases h
          · have hrest : (handle P fatal (s.serve P) es).2 = some s' := congrArg Prod.snd h
            have htail := ih (Prod.ext rfl hrest)
            simp [htail, Status.serve, honce]
      | cancel =>
          have htail := ih h
          simp [htail, Status.cancel, hignored]

/-- The first batch that holds an event. -/
def firstBatch (bs : List (List (Event κ))) : List (Event κ) :=
  (bs.find? fun b => !b.isEmpty).getD []

/-- The first batch ends a daemon of that kind, and its requests are all that are served. -/
theorem run_first (honce : P.once = true) (hignored : P.ignored = 0) (hs : s.done = false)
    (bs : List (List (Event κ))) :
    (run P fatal s bs).1 = answered fatal (requests (firstBatch bs)) := by
  unfold firstBatch
  induction bs generalizing s with
  | nil => rfl
  | cons b bs ih =>
      have hb := handle_answered (P := P) fatal s b
      simp only [run, hs, Bool.false_eq_true, if_false]
      rcases hr : handle P fatal s b with ⟨cs, _ | s'⟩ <;> rw [hr] at hb
      · have hne : b.isEmpty = false := by
          cases b with
          | nil => cases hr
          | cons e es => rfl
        rw [List.find?_cons_of_pos (by simp [hne])]
        exact hb
      · have hdone := handle_done honce hignored hr
        cases b with
        | nil =>
            cases hr
            simpa using ih hs
        | cons e es =>
            simp only [List.isEmpty_cons, Bool.not_false, Bool.or_true] at hdone
            simp only [run_done hdone, List.append_nil]
            rw [List.find?_cons_of_pos rfl]
            exact hb

/-! ## Cancelled daemons -/

theorem handle_cancelled {es : List (Event κ)} {cs : List κ}
    (hs : s.cancelled = true → s.done = true) (h : handle P fatal s es = (cs, some s')) :
    s'.cancelled = true → s'.done = true := by
  refine handle_counted (I := fun _ s => s.cancelled = true → s.done = true) (n := 0) ?_ ?_ hs h
  · intro _ s hs hc
    simp [Status.serve, hs hc]
  · intro _ s hs
    unfold Status.cancel
    split_ifs
    · exact hs
    · exact fun _ => rfl

/-- A daemon that still waits has not failed. -/
theorem run_waiting_success {bs : List (List (Event κ))} {cs : List κ}
    (hs : s.cancelled = true → s.done = true) (h : run P fatal s bs = (cs, .waiting s')) :
    s'.success = true := by
  induction bs generalizing s cs with
  | nil =>
      simp only [run] at h
      split_ifs at h with hdone
      · cases h
      · cases h
        have hc : s'.cancelled = false := Bool.eq_false_iff.mpr fun hc => hdone (hs hc)
        simp [Status.success, hc]
  | cons b bs ih =>
      simp only [run] at h
      split_ifs at h
      · cases h
      · rcases hb : handle P fatal s b with ⟨cs', _ | s''⟩ <;> rw [hb] at h
        · cases h
        · have hrest : (run P fatal s'' bs).2 = .waiting s' := congrArg Prod.snd h
          exact ih (handle_cancelled hs hb) (Prod.ext rfl hrest)

/-! ## What is counted -/

/-- The daemon has served `n` consumers. What ended it was a cancel or one of them, and while one
that needs a single request goes on it has served none. -/
structure Status.Accounts (P : Policy) (n : ℕ) (s : Status) : Prop where
  served : s.served = n
  ended : s.done = true → s.cancelled = true ∨ 0 < n
  going : s.done = false → s.cancelled = false ∧ (P.once = true → n = 0)

theorem Status.Accounts.serve {n : ℕ} (h : s.Accounts P n) : (s.serve P).Accounts P (n + 1) := by
  refine ⟨congrArg (· + 1) h.served, fun _ => .inr (Nat.succ_pos n), fun hgoing => ?_⟩
  obtain ⟨hdone, honce⟩ : s.done = false ∧ P.once = false := by simpa [Status.serve] using hgoing
  refine ⟨(h.going hdone).1, fun hcontra => ?_⟩
  rw [honce] at hcontra
  cases hcontra

theorem Status.Accounts.cancel {n : ℕ} (h : s.Accounts P n) : (s.cancel P).Accounts P n := by
  unfold Status.cancel
  by_cases hlt : s.cancels < P.ignored
  · rw [if_pos hlt]
    exact ⟨h.served, h.ended, h.going⟩
  · rw [if_neg hlt]
    exact ⟨h.served, fun _ => .inl rfl, nofun⟩

theorem handle_accounts {n : ℕ} {es : List (Event κ)} {cs : List κ} (hs : s.Accounts P n)
    (h : handle P fatal s es = (cs, some s')) : s'.Accounts P (n + cs.length) :=
  handle_counted (fun _ _ hs => hs.serve) (fun _ _ hs => hs.cancel) hs h

def Outcome.Accounts (P : Policy) (n : ℕ) : Outcome → Prop
  | .ended s => s.Accounts P n ∧ s.done = true
  | .waiting s => s.Accounts P n ∧ s.done = false
  | .killed => True

theorem run_accounts {n : ℕ} {bs : List (List (Event κ))} (hs : s.Accounts P n) :
    (run P fatal s bs).2.Accounts P (n + (run P fatal s bs).1.length) := by
  induction bs generalizing s n with
  | nil =>
      simp only [run]
      split_ifs with hdone
      · exact ⟨hs, hdone⟩
      · exact ⟨hs, Bool.eq_false_iff.mpr hdone⟩
  | cons b bs ih =>
      simp only [run]
      split_ifs with hdone
      · exact ⟨hs, hdone⟩
      · rcases hb : handle P fatal s b with ⟨cs, _ | s'⟩
        · trivial
        · have htail := ih (handle_accounts hs hb)
          rwa [Nat.add_assoc, ← List.length_append] at htail

theorem run_waiting_empty (honce : P.once = true) (hignored : P.ignored = 0) (hs : s.done = false)
    {bs : List (List (Event κ))} {cs : List κ} (h : run P fatal s bs = (cs, .waiting s')) :
    ∀ b ∈ bs, b = [] := by
  induction bs generalizing s cs with
  | nil => exact List.forall_mem_nil _
  | cons b bs ih =>
      simp only [run, hs, Bool.false_eq_true, if_false] at h
      rcases hb : handle P fatal s b with ⟨cs', _ | s''⟩ <;> rw [hb] at h
      · cases h
      · obtain ⟨-, hrest⟩ := Prod.mk.inj h
        have hdone := handle_done honce hignored hb
        cases b with
        | nil =>
            cases hb
            exact List.forall_mem_cons.mpr ⟨rfl, ih hs (Prod.ext rfl hrest)⟩
        | cons e es =>
            simp only [List.isEmpty_cons, Bool.not_false, Bool.or_true] at hdone
            rw [run_done hdone] at hrest
            cases hrest

theorem run_empty (hs : s.done = false) {bs : List (List (Event κ))} (h : ∀ b ∈ bs, b = []) :
    run P fatal s bs = ([], .waiting s) := by
  induction bs with
  | nil => simp [run, hs]
  | cons b bs ih =>
      obtain ⟨rfl, hrest⟩ := List.forall_mem_cons.mp h
      simp [run, hs, handle, ih hrest]

theorem run_waits_iff (honce : P.once = true) (hignored : P.ignored = 0) (hs : s.done = false)
    (bs : List (List (Event κ))) :
    (∃ cs s', run P fatal s bs = (cs, .waiting s')) ↔ ∀ b ∈ bs, b = [] := by
  constructor
  · rintro ⟨cs, s', hrun⟩
    exact run_waiting_empty honce hignored hs hrun
  · exact fun hnone => ⟨[], s, run_empty hs hnone⟩

/-! ## A daemon that ignores the first cancel -/

def dropCancel : List (Event κ) → List (Event κ)
  | [] => []
  | .cancel :: es => es
  | .request c :: es => .request c :: dropCancel es

/-- The statuses agree but for the count of cancels. -/
structure Status.Same (s s' : Status) : Prop where
  served : s.served = s'.served
  cancelled : s.cancelled = s'.cancelled
  done : s.done = s'.done

def Outcome.Same : Outcome → Outcome → Prop
  | .waiting s, .waiting s' => s.Same s'
  | .ended s, .ended s' => s.Same s'
  | .killed, .killed => True
  | _, _ => False

section Drop

variable {once : Bool}

theorem serve_same {Q : Policy} (honce : P.once = Q.once) (h : s.Same s') :
    (s.serve P).Same (s'.serve Q) :=
  ⟨by simp [Status.serve, h.served], h.cancelled, by simp [Status.serve, h.done, honce]⟩

/-- Two daemons that both ignore no further cancel do the same. -/
theorem run_same {Q : Policy} (honce : P.once = Q.once) (h : s.Same s')
    (hs : P.ignored ≤ s.cancels) (hs' : Q.ignored ≤ s'.cancels) (es : List (Event κ)) :
    (run P fatal s (singly es)).1 = (run Q fatal s' (singly es)).1 ∧
      (run P fatal s (singly es)).2.Same (run Q fatal s' (singly es)).2 := by
  induction es generalizing s s' with
  | nil =>
      refine ⟨rfl, ?_⟩
      simp only [singly, List.map_nil, run, h.done]
      split_ifs <;> exact h
  | cons e es ih =>
      by_cases hdone : s.done = true
      · rw [run_done hdone, run_done (h.done ▸ hdone)]
        exact ⟨rfl, h⟩
      · rw [Bool.not_eq_true] at hdone
        have hdone' : s'.done = false := h.done ▸ hdone
        cases e with
        | request c =>
            obtain ⟨hserved, hout⟩ := ih (serve_same honce h) hs hs'
            rw [run_request hdone, run_request hdone']
            split_ifs
            · exact ⟨rfl, trivial⟩
            · exact ⟨congrArg (c :: ·) hserved, hout⟩
        | cancel =>
            have hc : s.cancel P =
                { s with cancels := s.cancels + 1, cancelled := true, done := true } :=
              if_neg (by omega)
            have hc' : s'.cancel Q =
                { s' with cancels := s'.cancels + 1, cancelled := true, done := true } :=
              if_neg (by omega)
            rw [run_cancel hdone, run_cancel hdone', hc, hc']
            rw [run_done rfl, run_done rfl]
            exact ⟨rfl, h.served, rfl, rfl⟩

variable (once fatal) in
/-- Ignoring the first cancel is as good as not being sent it. -/
theorem run_dropCancel (h : s.Same s') (hs : s.cancels = 0) (es : List (Event κ)) :
    (run ⟨once, 1⟩ fatal s (singly es)).1 = (run ⟨once, 0⟩ fatal s' (singly (dropCancel es))).1 ∧
      (run ⟨once, 1⟩ fatal s (singly es)).2.Same
        (run ⟨once, 0⟩ fatal s' (singly (dropCancel es))).2 := by
  induction es generalizing s s' with
  | nil =>
      refine ⟨rfl, ?_⟩
      simp only [dropCancel, singly, List.map_nil, run, h.done]
      split_ifs <;> exact h
  | cons e es ih =>
      by_cases hdone : s.done = true
      · rw [run_done hdone, run_done (h.done ▸ hdone)]
        exact ⟨rfl, h⟩
      · rw [Bool.not_eq_true] at hdone
        have hdone' : s'.done = false := h.done ▸ hdone
        cases e with
        | request c =>
            obtain ⟨hserved, hout⟩ := ih (serve_same (P := ⟨once, 1⟩) (Q := ⟨once, 0⟩) rfl h) hs
            rw [dropCancel, run_request hdone, run_request hdone']
            split_ifs
            · exact ⟨rfl, trivial⟩
            · exact ⟨congrArg (c :: ·) hserved, hout⟩
        | cancel =>
            have hc : s.cancel ⟨once, 1⟩ = { s with cancels := s.cancels + 1 } :=
              if_pos (show s.cancels < 1 by omega)
            rw [dropCancel, run_cancel hdone, hc]
            have hsame : Status.Same { s with cancels := s.cancels + 1 } s' :=
              ⟨h.served, h.cancelled, h.done⟩
            exact run_same (P := ⟨once, 1⟩) (Q := ⟨once, 0⟩) rfl hsame (by simp) (Nat.zero_le _) es

def cancels (es : List (Event κ)) : ℕ := es.countP fun | .cancel => true | .request _ => false

theorem cancels_cons (e : Event κ) (es : List (Event κ)) :
    cancels (e :: es) = cancels es + if e matches .cancel then 1 else 0 := by
  cases e <;> simp [cancels]

/-- When a daemon comes to its end on single events: it serves a fatal consumer, it serves anyone
where one is enough, or it is cancelled more often than it ignores. -/
def Ends (P : Policy) (fatal : κ → Bool) (k : ℕ) (es : List (Event κ)) : Prop :=
  (∃ c ∈ requests es, fatal c = true) ∨ (P.once = true ∧ requests es ≠ []) ∨
    P.ignored < k + cancels es

theorem run_waiting_iff (hdone : s.done = false) (hs : s.cancels ≤ P.ignored) (es : List (Event κ)) :
    (∃ s', (run P fatal s (singly es)).2 = .waiting s') ↔ ¬ Ends P fatal s.cancels es := by
  induction es generalizing s with
  | nil =>
      have hno : ¬ P.ignored < s.cancels := by omega
      simp [singly, run, hdone, Ends, requests, cancels, hno]
  | cons e es ih =>
      cases e with
      | request c =>
          have hreq : requests (.request c :: es) = c :: requests es := rfl
          have hcount : cancels (.request c :: es) = cancels es := rfl
          rw [run_request hdone]
          by_cases hc : fatal c = true
          · simp [hc, Ends, hreq]
          · by_cases honce : P.once = true
            · have hserve : (s.serve P).done = true := by simp [Status.serve, honce]
              rw [if_neg hc, run_done hserve]
              simp [Ends, honce, hreq]
            · have hserve : (s.serve P).done = false := by
                simp [Status.serve, hdone, honce]
              rw [if_neg hc]
              refine (ih hserve hs).trans (not_congr ?_)
              simp [Ends, hreq, hcount, hc, honce, Status.serve]
      | cancel =>
          have hreq : requests (.cancel :: es) = requests es := rfl
          have hcount : cancels (.cancel :: es) = cancels es + 1 := cancels_cons .cancel es
          rw [run_cancel hdone]
          by_cases hlt : s.cancels < P.ignored
          · have hc : s.cancel P = { s with cancels := s.cancels + 1 } := if_pos hlt
            rw [hc]
            refine (@ih { s with cancels := s.cancels + 1 } hdone hlt).trans (not_congr ?_)
            simp only [Ends, hreq, hcount]
            rw [Nat.add_right_comm, Nat.add_assoc s.cancels]
          · have hc : s.cancel P =
                { s with cancels := s.cancels + 1, cancelled := true, done := true } :=
              if_neg hlt
            rw [hc, run_done rfl]
            have hend : P.ignored < s.cancels + cancels (.cancel :: es) := by omega
            simp [Ends, hend]

end Drop

end Daemon
