import Mathlib.Tactic.Common
import Mathlib.Data.Nat.Notation

/-!
# Offers and selections

A client is told of offers `ι`, of the types `τ` of each, and for each kind of selection `κ` which
offer is current. It listens until a kind that it wants is known, or until it is told that no more
will come.
-/

universe u v w

namespace Offers

inductive Event (ι : Type u) (κ : Type v) (τ : Type w)
  | offered (i : ι)
  | announced (i : ι) (m : τ)
  | selection (k : κ) (i : Option ι)
  | finished
  deriving DecidableEq

structure State (ι : Type u) (κ : Type v) (τ : Type w) where
  offers : List (ι × List τ)
  current : κ → Option ι
  known : κ → Bool
  finished : Bool

variable {ι : Type u} {κ : Type v} {τ : Type w}

def State.initial : State ι κ τ := ⟨[], fun _ => none, fun _ => false, false⟩

section

variable [DecidableEq ι] [DecidableEq κ]

/-- The offer that a type is added to is the first with the id. -/
def addTo (i : ι) (m : τ) : List (ι × List τ) → List (ι × List τ)
  | [] => []
  | o :: offers => if o.1 = i then (o.1, o.2 ++ [m]) :: offers else o :: addTo i m offers

def find (i : ι) (offers : List (ι × List τ)) : Option (ι × List τ) :=
  offers.find? fun o => o.1 = i

namespace State

def step (s : State ι κ τ) : Event ι κ τ → State ι κ τ
  | .offered i => { s with offers := s.offers ++ [(i, [])] }
  | .announced i m => { s with offers := addTo i m s.offers }
  | .selection k i =>
    { s with
      current := fun k' => if k' = k then i else s.current k'
      known := fun k' => if k' = k then true else s.known k' }
  | .finished => { s with finished := true }

def run (s : State ι κ τ) (es : List (Event ι κ τ)) : State ι κ τ := es.foldl step s

@[simp] theorem run_nil (s : State ι κ τ) : s.run [] = s := rfl

@[simp] theorem run_cons (s : State ι κ τ) (e : Event ι κ τ) (es : List (Event ι κ τ)) :
    s.run (e :: es) = (s.step e).run es := rfl

@[simp] theorem selection_offers (s : State ι κ τ) (k : κ) (i : Option ι) :
    (s.step (.selection k i)).offers = s.offers := rfl

@[simp] theorem finished_offers (s : State ι κ τ) : (s.step .finished).offers = s.offers := rfl

def settled (k : κ) (s : State ι κ τ) : Bool := s.finished || s.known k

/-- The current offer, if it is one that the client was told of. -/
def choice (k : κ) (s : State ι κ τ) : Option (ι × List τ) :=
  (s.current k).bind fun i => find i s.offers

/-- The events that the client listens to. -/
def processed (k : κ) : State ι κ τ → List (Event ι κ τ) → List (Event ι κ τ)
  | _, [] => []
  | s, e :: es => if s.settled k then [] else e :: processed k (s.step e) es

@[simp] theorem processed_nil (s : State ι κ τ) (k : κ) : s.processed k [] = [] := rfl

theorem processed_settled {s : State ι κ τ} {k : κ} (h : s.settled k = true)
    (es : List (Event ι κ τ)) : s.processed k es = [] := by
  cases es <;> simp [processed, h]

theorem processed_cons {s : State ι κ τ} {k : κ} (h : s.settled k = false) (e : Event ι κ τ)
    (es : List (Event ι κ τ)) : s.processed k (e :: es) = e :: (s.step e).processed k es := by
  simp [processed, h]

end State

/-- Only offers that were introduced before get types; an offer is introduced with a fresh id. -/
def Valid (fresh : ι → Prop) : List ι → List (Event ι κ τ) → Prop
  | _, [] => True
  | l, .offered i :: es => fresh i ∧ i ∉ l ∧ Valid fresh (i :: l) es
  | l, .announced i _ :: es => i ∈ l ∧ Valid fresh l es
  | l, _ :: es => Valid fresh l es

/-- The types announced for an offer. -/
def typesOf (i : ι) (es : List (Event ι κ τ)) : List τ :=
  es.filterMap fun | .announced j m => if j = i then some m else none | _ => none

/-! ## The current offer -/

/-- The client takes as current only what an event of the kind has named. -/
theorem current_run {s : State ι κ τ} {k : κ} {i : ι} {es : List (Event ι κ τ)}
    (h : (s.run es).current k = some i) : s.current k = some i ∨ .selection k (some i) ∈ es := by
  induction es generalizing s with
  | nil => exact .inl h
  | cons e es ih =>
      rcases ih (s := s.step e) h with hcur | hmem
      · cases e with
        | selection k' i' =>
            simp only [State.step] at hcur
            split_ifs at hcur with hk
            · exact .inr (by simp [hk, hcur])
            · exact .inl hcur
        | _ => exact .inl hcur
      · exact .inr (List.mem_cons_of_mem _ hmem)

/-! ## The types of an offer -/

theorem find_id {i : ι} {o : ι × List τ} {offers : List (ι × List τ)} (h : find i offers = some o) :
    o.1 = i := by
  have hfound := List.find?_some h
  simpa using hfound

theorem find_cons (i : ι) (o : ι × List τ) (offers : List (ι × List τ)) :
    find i (o :: offers) = if o.1 = i then some o else find i offers := by
  by_cases h : o.1 = i <;> simp [find, h]

theorem find_addTo (i j : ι) (m : τ) (offers : List (ι × List τ)) :
    find i (addTo j m offers) =
      (find i offers).map fun o => if i = j then (o.1, o.2 ++ [m]) else o := by
  induction offers with
  | nil => rfl
  | cons o offers ih =>
      by_cases hj : o.1 = j <;> by_cases hi : o.1 = i
      · simp [addTo, find_cons, ← hj, ← hi]
      · have hne : i ≠ j := fun h => hi (hj.trans h.symm)
        simp [addTo, find_cons, hj, hne, Ne.symm hne]
      · have hne : i ≠ j := fun h => hj (hi.trans h)
        simp [addTo, find_cons, hi, hne]
      · simp [addTo, find_cons, hi, hj, ih]

theorem find_append_new (i j : ι) (offers : List (ι × List τ)) :
    find i (offers ++ [(j, [])]) =
      (find i offers).or (if j = i then some (j, []) else none) := by
  rw [find, List.find?_append]
  congr 1
  exact find_cons i (j, []) []

/-- The offers introduced are fresh and have the types that were announced for them so far. -/
structure Tracks (fresh : ι → Prop) (l : List ι) (before : List (Event ι κ τ))
    (offers : List (ι × List τ)) : Prop where
  fresh : ∀ i ∈ l, fresh i
  known : ∀ i ∈ l, find i offers = some (i, typesOf i before)
  unknown : ∀ i ∉ l, find i offers = none ∧ typesOf i before = []

def introduced (l : List ι) : Event ι κ τ → List ι
  | .offered i => i :: l
  | _ => l

variable {fresh : ι → Prop} {l : List ι} {before es : List (Event ι κ τ)} {e : Event ι κ τ}
  {s : State ι κ τ} {k : κ}

omit [DecidableEq ι] [DecidableEq κ] in
theorem Valid.tail (h : Valid fresh l (e :: es)) : Valid fresh (introduced l e) es := by
  cases e with
  | offered i => exact h.2.2
  | announced i m => exact h.2
  | _ => exact h

omit [DecidableEq ι] [DecidableEq κ] in
theorem Valid.introduced (h : Valid fresh l (e :: es)) (hl : ∀ i ∈ l, fresh i) :
    ∀ i ∈ Offers.introduced l e, fresh i := by
  cases e with
  | offered j => exact List.forall_mem_cons.mpr ⟨h.1, hl⟩
  | _ => exact hl

omit [DecidableEq κ]

theorem addTo_ids (i : ι) (m : τ) (offers : List (ι × List τ)) :
    (addTo i m offers).map Prod.fst = offers.map Prod.fst := by
  induction offers with
  | nil => rfl
  | cons o offers ih =>
      by_cases h : o.1 = i <;> simp [addTo, h, ih]

theorem typesOf_append (i : ι) (es es' : List (Event ι κ τ)) :
    typesOf i (es ++ es') = typesOf i es ++ typesOf i es' := List.filterMap_append

@[simp] theorem typesOf_offered (i j : ι) : typesOf i [(.offered j : Event ι κ τ)] = [] := rfl

@[simp] theorem typesOf_selection (i : ι) (k : κ) (j : Option ι) :
    typesOf i [(.selection k j : Event ι κ τ)] = [] := rfl

@[simp] theorem typesOf_finished (i : ι) : typesOf i [(.finished : Event ι κ τ)] = [] := rfl

@[simp] theorem typesOf_announced (i j : ι) (m : τ) :
    typesOf i [(.announced j m : Event ι κ τ)] = if j = i then [m] else [] := by
  by_cases h : j = i <;> simp [typesOf, h]

variable [DecidableEq κ]

/-- Every offer that is kept was introduced with a fresh id. -/
theorem fresh_step (h : ∀ o ∈ s.offers, fresh o.1) (hv : Valid fresh l (e :: es)) :
    ∀ o ∈ (s.step e).offers, fresh o.1 := by
  cases e with
  | offered i =>
      intro o ho
      rcases List.mem_append.mp ho with hold | hnew
      · exact h o hold
      · rw [List.mem_singleton.mp hnew]
        exact hv.1
  | announced i m =>
      intro o ho
      have hmem : o.1 ∈ (addTo i m s.offers).map Prod.fst := List.mem_map_of_mem ho
      rw [addTo_ids] at hmem
      obtain ⟨o', ho', heq⟩ := List.mem_map.mp hmem
      exact heq ▸ h o' ho'
  | _ => exact h

theorem fresh_run (h : ∀ o ∈ s.offers, fresh o.1) (hv : Valid fresh l es) :
    ∀ o ∈ (s.run es).offers, fresh o.1 := by
  induction es generalizing l s with
  | nil => exact h
  | cons e es ih => exact ih (fresh_step h hv) hv.tail

theorem Tracks.step (h : Tracks fresh l before s.offers) (he : Valid fresh l (e :: es)) :
    Tracks fresh (introduced l e) (before ++ [e]) (s.step e).offers := by
  cases e with
  | offered j =>
      obtain ⟨hfresh, hnew, -⟩ := he
      have hnone := h.unknown j hnew
      refine ⟨?_, fun i hi => ?_, fun i hi => ?_⟩
      · rintro i (_ | ⟨_, hi⟩)
        · exact hfresh
        · exact h.fresh i hi
      · rw [typesOf_append, State.step, find_append_new]
        rcases List.mem_cons.mp hi with rfl | hold
        · simp [hnone.1, hnone.2]
        · simp [h.known i hold]
      · obtain ⟨hne, hold⟩ : i ≠ j ∧ i ∉ l := by simpa [introduced] using hi
        have hother := h.unknown i hold
        rw [typesOf_append, State.step, find_append_new]
        simp [hother.1, hother.2, hne.symm]
  | announced j m =>
      have hj : j ∈ l := he.1
      refine ⟨h.fresh, fun i hi => ?_, fun i hi => ?_⟩
      · rw [typesOf_append, State.step, find_addTo, h.known i hi]
        by_cases hij : i = j
        · simp [hij]
        · simp [hij, Ne.symm hij]
      · have hother := h.unknown i hi
        have hne : j ≠ i := fun heq => hi (heq ▸ hj)
        rw [typesOf_append, State.step, find_addTo, hother.1, hother.2]
        simp [hne]
  | _ =>
      exact ⟨h.fresh, by simpa [typesOf_append, introduced] using h.known,
        by simpa [typesOf_append, introduced] using h.unknown⟩

theorem tracks_run (h : Tracks fresh l before s.offers) (hv : Valid fresh l es) :
    ∃ l', Tracks fresh l' (before ++ es) (s.run es).offers := by
  induction es generalizing l before s with
  | nil => exact ⟨l, by simpa using h⟩
  | cons e es ih =>
      obtain ⟨l', htail⟩ := ih (h.step hv) hv.tail
      exact ⟨l', by simpa using htail⟩

/-- The offer chosen is a fresh one that an event of the kind has named, with the types that were
announced for it, in order. -/
theorem choice_spec {o : ι × List τ} (hv : Valid fresh [] es)
    (h : (State.initial.run es).choice k = some o) :
    fresh o.1 ∧ .selection k (some o.1) ∈ es ∧ o.2 = typesOf o.1 es := by
  obtain ⟨i, hcur, hfind⟩ := Option.bind_eq_some_iff.mp h
  have hstart : Tracks fresh [] ([] : List (Event ι κ τ)) (State.initial : State ι κ τ).offers :=
    ⟨nofun, nofun, fun _ _ => ⟨rfl, rfl⟩⟩
  obtain ⟨l, htracks⟩ := tracks_run hstart hv
  rw [List.nil_append] at htracks
  have hmem : i ∈ l := by
    by_contra hno
    rw [(htracks.unknown i hno).1] at hfind
    cases hfind
  rw [htracks.known i hmem] at hfind
  obtain rfl : _ = o := Option.some.inj hfind
  refine ⟨htracks.fresh i hmem, ?_, rfl⟩
  rcases current_run hcur with hnone | hsel
  · cases hnone
  · exact hsel

/-- What a client listens to of a valid sequence is valid. -/
theorem Valid.processed (hv : Valid fresh l es) (s : State ι κ τ) :
    Valid fresh l (s.processed k es) := by
  induction es generalizing l s with
  | nil => trivial
  | cons e es ih =>
      rw [State.processed]
      split_ifs
      · trivial
      · have htail := ih hv.tail (s.step e)
        cases e with
        | offered i => exact ⟨hv.1, hv.2.1, htail⟩
        | announced i m => exact ⟨hv.1, htail⟩
        | selection k i => exact htail
        | finished => exact htail

end

end Offers
