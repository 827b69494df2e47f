import WlClip.HandcraftedPaste
import WlClip.LibwaylandPaste

/-!
# The data_control paste and the offers it is told of

The listeners of the libwayland paste keep track of the same events. The current offer is the place
of a record, found when the selection event comes; since the paste stops at that event, it is the
place of the offer that a look-up at the end finds.
-/

open ScriptedProgram ScriptedProgram.Prog

namespace WlClip

namespace DataControlBackend

open Libwayland Offers

def proxyOf : Option UInt32 → Option Proxy
  | none => none
  | some i => if i = 0 then none else some i.toNat

def selectionEvent : Selection → Option Proxy → WlEvent
  | .regular => .selection
  | .primary => .primarySelection

def wlEvent : PasteEvent → WlEvent
  | .offered i => .dataOffer i.toNat
  | .announced i m => .offerMime i.toNat m
  | .selection k i => selectionEvent k (proxyOf i)
  | .finished => .finished

/-- The reply to a dispatch in which the event comes alone. -/
def eventReply (e : PasteEvent) : Reply := .displayDispatch [wlEvent e] true

def pending (o : UInt32 × List Text) : PendingOffer := ⟨o.1.toNat, o.2⟩

/-- The listeners have been told what the state says, until the selection `sel` is known. -/
structure Sees (sel : Selection) (s : Tracked) (st : PasteState) : Prop where
  offers : st.offers = s.offers.map pending
  gotRegular : st.gotRegular = s.known .regular
  gotPrimary : st.gotPrimary = s.known .primary
  finished : st.finished = s.finished
  idle : s.known sel = false → s.current sel = none ∧ target sel st = none
  chosen : ((target sel st).bind fun i => st.offers[i]?) = (s.choice sel).map pending

variable {sel : Selection} {s : Tracked} {st : PasteState} {e : PasteEvent}

theorem Sees.haveTarget (h : Sees sel s st) : haveTarget sel st = s.settled sel := by
  rw [DataControlBackend.haveTarget, State.settled, h.finished, h.gotRegular, h.gotPrimary]
  cases sel <;> rfl

/-! ## One event -/

theorem addMime_pending (i : UInt32) (m : Text) (offers : List (UInt32 × List Text)) :
    addMime i.toNat m (offers.map pending) = (addTo i m offers).map pending := by
  induction offers with
  | nil => rfl
  | cons o offers ih =>
      by_cases h : o.1 = i
      · simp [addMime, addTo, pending, h]
      · have hne : o.1.toNat ≠ i.toNat := fun heq => h (UInt32.toNat_inj.mp heq)
        simp only [List.map_cons, addMime, addTo, pending, hne, h, if_false, ih]

theorem getElem?_findIdx? {α : Type} (f : α → Bool) (l : List α) :
    ((l.findIdx? f).bind fun i => l[i]?) = l.find? f := by
  induction l with
  | nil => rfl
  | cons a l ih =>
      by_cases h : f a = true
      · simp [List.findIdx?_cons, h]
      · rw [List.findIdx?_cons, List.find?_cons_of_neg h, if_neg h, ← ih]
        cases l.findIdx? f <;> simp

theorem find_pending (i : UInt32) (offers : List (UInt32 × List Text)) :
    ((offers.map pending).find? fun o => o.proxy = i.toNat) = (find i offers).map pending := by
  induction offers with
  | nil => rfl
  | cons o offers ih =>
      rw [find_cons, List.map_cons, List.find?_cons]
      by_cases h : o.1 = i
      · simp [pending, h]
      · have hne : o.1.toNat ≠ i.toNat := fun heq => h (UInt32.toNat_inj.mp heq)
        simp [pending, h, hne, ← ih]

theorem findOffer_chosen {offers : List (UInt32 × List Text)} (i : Option UInt32)
    (hfresh : ∀ o ∈ offers, OfferId o.1) :
    ((findOffer (offers.map pending) (proxyOf i)).bind fun n => (offers.map pending)[n]?) =
      (i.bind fun i => find i offers).map pending := by
  rcases i with _ | i
  · rfl
  · by_cases hi : i = 0
    · simp [proxyOf, hi, findOffer, find_null hfresh]
    · rw [proxyOf, if_neg hi, findOffer, getElem?_findIdx?, find_pending]
      rfl

/-- What the listeners do with an event is what the state says. -/
theorem Sees.step (h : Sees sel s st) (hs : s.settled sel = false)
    (hfresh : ∀ o ∈ s.offers, OfferId o.1) : Sees sel (s.step e) (pasteEvent (wlEvent e) st) := by
  have hknown : s.known sel = false := (Bool.or_eq_false_iff.mp hs).2
  obtain ⟨hcurrent, htarget⟩ := h.idle hknown
  cases e with
  | offered i =>
      refine ⟨?_, h.gotRegular, h.gotPrimary, h.finished, h.idle, ?_⟩
      · simp [State.step, pasteEvent, wlEvent, h.offers, pending]
      · change (target sel st).bind _ = ((s.current sel).bind _).map _
        rw [htarget, hcurrent]
        rfl
  | announced i m =>
      refine ⟨?_, h.gotRegular, h.gotPrimary, h.finished, h.idle, ?_⟩
      · simp only [State.step, pasteEvent, wlEvent, h.offers, addMime_pending]
      · change (target sel st).bind _ = ((s.current sel).bind _).map _
        rw [htarget, hcurrent]
        rfl
  | selection k i =>
      have hfound := findOffer_chosen i hfresh
      rw [← h.offers] at hfound
      cases k with
      | regular =>
          cases sel with
          | regular =>
              exact ⟨h.offers, rfl, h.gotPrimary, h.finished,
                fun hno => absurd hno Bool.false_ne_true.symm, hfound⟩
          | primary => exact ⟨h.offers, rfl, h.gotPrimary, h.finished, h.idle, h.chosen⟩
      | primary =>
          cases sel with
          | regular => exact ⟨h.offers, h.gotRegular, rfl, h.finished, h.idle, h.chosen⟩
          | primary =>
              exact ⟨h.offers, h.gotRegular, rfl, h.finished,
                fun hno => absurd hno Bool.false_ne_true.symm, hfound⟩
  | finished => exact ⟨h.offers, h.gotRegular, h.gotPrimary, rfl, h.idle, h.chosen⟩

/-! ## A run -/

theorem pasteListener_later (e : WlEvent) : Within Listening.Later (pasteListener e) :=
  Within.update fun _ => .refl _

theorem awaitRound_eq (sel : Selection) (l : Listening PasteState) :
    awaitRound sel () l = if DataControlBackend.haveTarget sel l.st then (.ok (.inr true), l)
      else match Listening.dispatch pasteListener l with
        | (.ok ok, l') => (.ok (if ok then .inl () else .inr false), l')
        | (.error e, l') => (.error e, l') := by
  simp only [awaitRound, bind_apply, Prog.read_apply]
  split_ifs
  · rfl
  · rw [bind_apply]
    rcases Listening.dispatch pasteListener l with ⟨e | ok, l'⟩
    · rfl
    · cases ok <;> rfl

theorem awaitRound_shrinks (sel : Selection) :
    Shrinks (fun _ l => l.toProcess.size) (awaitRound sel) := by
  intro _ l _ l' h
  rw [awaitRound_eq] at h
  split_ifs at h
  · cases h
  · rcases hr : Listening.dispatch pasteListener l with ⟨e | ok, l''⟩ <;> rw [hr] at h
    · cases h
    · cases ok <;> cases h
      exact Listening.dispatch_size pasteListener_later hr

variable {l : Listening PasteState} {rest : List Reply}

theorem awaitRound_waits (h : Sees sel s l.st) (hs : s.settled sel = false) :
    awaitRound sel () l = match Listening.dispatch pasteListener l with
      | (.ok ok, l') => (.ok (if ok then .inl () else .inr false), l')
      | (.error e, l') => (.error e, l') := by
  rw [awaitRound_eq, h.haveTarget, hs]
  rfl

theorem awaitTarget_settled (h : Sees sel s l.st) (hs : s.settled sel = true) :
    awaitTarget sel l = (.ok true, l) := by
  refine loop_return (awaitRound_shrinks sel) ?_
  rw [awaitRound_eq, h.haveTarget, if_pos hs]

/-- The paste goes on as `l'` after some events, with `rest` left of its script. -/
structure Watched (sel : Selection) (es : List PasteEvent) (rest : List Reply)
    (l l' : Listening PasteState) : Prop where
  run : awaitTarget sel l = awaitTarget sel l'
  script : l'.script = rest
  asked : l'.observe Action.asked = l.observe Action.asked
  heard : l'.observe Action.heard = l.observe Action.heard ++ es.map wlEvent

theorem awaitTarget_event (h : Sees sel s l.st) (hs : s.settled sel = false)
    (hfresh : ∀ o ∈ s.offers, OfferId o.1) (hscript : l.script = eventReply e :: rest) :
    ∃ l', Sees sel (s.step e) l'.st ∧ Watched sel [e] rest l l' := by
  let l' : Listening PasteState := { l with
    toProcess := l.after [.call .displayDispatch (eventReply e)] rest
    st := pasteEvent (wlEvent e) l.st }
  have hdispatch : Listening.dispatch pasteListener l = (.ok true, l') := by
    rw [Listening.dispatch, bind_ok (Listening.displayDispatch_cons hscript)]
    cases e with
    | selection k i => cases k <;> rfl
    | _ => rfl
  refine ⟨l', h.step hs hfresh, loop_next (awaitRound_shrinks sel) ?_, rfl, ?_, ?_⟩
  · rw [awaitRound_waits h hs, hdispatch]
    rfl
  · simp [l', Action.asked]
  · simp [l', Action.heard, eventReply]

/-- The paste watches the events up to the one that settles what it wants. -/
theorem awaitTarget_run {ids : List UInt32} {es : List PasteEvent} (h : Sees sel s l.st)
    (hfresh : ∀ o ∈ s.offers, OfferId o.1) (hv : Valid OfferId ids es)
    (hscript : l.script = (s.processed sel es).map eventReply ++ rest) :
    ∃ l', Sees sel (s.run (s.processed sel es)) l'.st ∧
      Watched sel (s.processed sel es) rest l l' := by
  induction es generalizing ids s l with
  | nil => exact ⟨l, h, rfl, hscript, rfl, (List.append_nil _).symm⟩
  | cons e es ih =>
      by_cases hs : s.settled sel = true
      · rw [State.processed_settled hs] at hscript ⊢
        exact ⟨l, h, rfl, hscript, rfl, (List.append_nil _).symm⟩
      · rw [Bool.not_eq_true] at hs
        rw [State.processed_cons hs] at hscript ⊢
        obtain ⟨l₁, hsees, hstep⟩ := awaitTarget_event h hs hfresh hscript
        obtain ⟨l', hsees', hrest⟩ := ih hsees (fresh_step hfresh hv) hv.tail hstep.script
        refine ⟨l', hsees', hstep.run.trans hrest.run, hrest.script,
          hrest.asked.trans hstep.asked, ?_⟩
        rw [hrest.heard, hstep.heard, List.append_assoc]
        rfl

end DataControlBackend

end WlClip
