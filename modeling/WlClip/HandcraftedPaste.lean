import WlClip.DispatchSteps
import WlClip.PasteScript
import WlClip.Offers

/-!
# The handcrafted paste and the offers it is told of

However the events of its device and offers come in, the paste keeps track of them as a client
that listens until the selection it wants is known.
-/

open ScriptedProgram ScriptedProgram.Prog

namespace WlClip

abbrev PasteEvent := Offers.Event UInt32 Selection Text

abbrev Tracked := Offers.State UInt32 Selection Text

/-- The ids of offers are not those that the client has given to its own objects. -/
def OfferId (id : UInt32) : Prop := 7 < id

/-- The device and offer events that were handed to the dispatcher. -/
def Action.offering : Action → List Delivery
  | .dispatch objectId opcode payload => if objectId < 7 then [] else [(objectId, opcode, payload)]
  | _ => []

theorem find_null {offers : List (UInt32 × List Text)} (h : ∀ o ∈ offers, OfferId o.1) :
    Offers.find 0 offers = none := by
  refine List.find?_eq_none.mpr fun o ho => ?_
  have hid : 7 < o.1 := h o ho
  have hne : o.1 ≠ 0 := fun heq => absurd (heq ▸ hid) (by decide)
  simpa using hne

namespace Handcrafted

open Offers

def eventObject : PasteEvent → UInt32
  | .announced i _ => i
  | _ => 7

def eventOpcode : PasteEvent → UInt16
  | .offered _ => Zdcd.kEvDataOffer
  | .announced _ _ => Zdco.kEvOffer
  | .selection k _ => selectionOpcode k
  | .finished => Zdcd.kEvFinished

def eventArgs : PasteEvent → List Arg
  | .offered i => [.u32 i]
  | .announced _ m => [.str m]
  | .selection _ i => [.u32 (i.getD 0)]
  | .finished => []

def eventMessage (e : PasteEvent) (h : ((eventArgs e).flatMap Arg.bytes).length + 8 < 65536) :
    Message :=
  .ofArgs (eventObject e) (eventOpcode e) (eventArgs e) h

/-- The paste has been told what the state says, of offers with the ids `l`. -/
structure Tracking (l : List UInt32) (s : Tracked) (cl : Client PasteState) : Prop where
  flushed : Client.Flushed cl
  device : cl.objects 7 = .device
  others : ∀ i < 7, ¬ (cl.objects i).Special
  kinds : ∀ i ∈ l, cl.objects i = .offer
  offers : cl.st.offers = s.offers.map fun o => ⟨o.1, o.2⟩
  regular : cl.st.currentRegular = (s.current .regular).getD 0
  primary : cl.st.currentPrimary = (s.current .primary).getD 0
  gotRegular : cl.st.gotRegular = s.known .regular
  gotPrimary : cl.st.gotPrimary = s.known .primary
  finished : cl.st.finished = s.finished

variable {l : List UInt32} {s : Tracked} {cl : Client PasteState} {sel : Selection}
  {e : PasteEvent} {es : List PasteEvent}

theorem Tracking.haveTarget (h : Tracking l s cl) (sel : Selection) :
    haveTarget sel cl.st = s.settled sel := by
  rw [Handcrafted.haveTarget, State.settled, h.finished, h.gotRegular, h.gotPrimary]
  cases sel <;> rfl

theorem Tracking.target (h : Tracking l s cl) (sel : Selection) :
    target sel cl.st = (s.current sel).getD 0 := by
  rw [Handcrafted.target, h.regular, h.primary]
  cases sel <;> rfl

theorem addMime_map (id : UInt32) (m : Text) (offers : List (UInt32 × List Text)) :
    addMime id m (offers.map fun o => ⟨o.1, o.2⟩) = (addTo id m offers).map fun o => ⟨o.1, o.2⟩ := by
  induction offers with
  | nil => rfl
  | cons o offers ih =>
      by_cases h : o.1 = id <;> simp [addMime, addTo, h, ih]

/-! ## One event -/

theorem read_u32 (objectId : UInt32) (opcode : UInt16) (v : UInt32) :
    (Reader.new objectId opcode ([Arg.u32 v].flatMap Arg.bytes)).u32.1 = v := by
  have hdrop : ([Arg.u32 v].flatMap Arg.bytes).drop 0 = LittleEndian.u32Bytes v ++ [] := by
    simp [Arg.bytes]
  rw [u32_of_drop (r := Reader.new objectId opcode ([Arg.u32 v].flatMap Arg.bytes)) hdrop]

theorem read_str (objectId : UInt32) (opcode : UInt16) {m : Text}
    (h : ([Arg.str m].flatMap Arg.bytes).length + 8 < 65536) :
    (Reader.new objectId opcode ([Arg.str m].flatMap Arg.bytes)).str.1 = m := by
  have hdrop : ([Arg.str m].flatMap Arg.bytes).drop 0 = (Arg.str m).bytes ++ [] := by simp
  have hfits : (Arg.str m).Fits := fits_of_length h _ List.mem_cons_self
  rw [str_of_drop (r := Reader.new objectId opcode ([Arg.str m].flatMap Arg.bytes)) hfits hdrop]

theorem pasteStep_device {obj : UInt32} {op : UInt16} {r : Reader} (h : cl.objects obj = .device) :
    pasteStep obj op r cl = pasteDevice op r cl := by
  simp only [pasteStep, h]

theorem pasteStep_offer {obj : UInt32} {r : Reader} (h : cl.objects obj = .offer) :
    pasteStep obj Zdco.kEvOffer r cl =
      { cl with st := { cl.st with offers := addMime obj r.str.1 cl.st.offers } } := by
  simp only [pasteStep, h, if_true]

/-- What the dispatcher does with an event is what the state says. -/
theorem Tracking.step (h : Tracking l s cl) (hv : Valid OfferId l (e :: es))
    (hfits : ((eventArgs e).flatMap Arg.bytes).length + 8 < 65536) :
    let m := eventMessage e hfits
    let cl' := pasteStep m.objectId m.opcode (.new m.objectId m.opcode m.payload) cl
    Tracking (introduced l e) (s.step e) cl' ∧ cl'.toConnection = cl.toConnection := by
  refine ⟨?_, pasteStep_toConnection _ _ _ cl⟩
  cases e with
  | offered i =>
      have hread := read_u32 7 Zdcd.kEvDataOffer i
      have hid : i ≠ 7 := fun heq => by
        have hlt : OfferId i := hv.1
        rw [heq] at hlt
        exact absurd hlt (UInt32.lt_irrefl 7)
      change Tracking _ _ (pasteStep 7 Zdcd.kEvDataOffer
        (.new 7 Zdcd.kEvDataOffer ([Arg.u32 i].flatMap Arg.bytes)) cl)
      rw [pasteStep_device h.device, pasteDevice, hread]
      simp only [if_true]
      refine ⟨h.flushed, ?_, ?_, ?_, ?_, h.regular, h.primary, h.gotRegular, h.gotPrimary,
        h.finished⟩
      · change (if (7 : UInt32) = i then ObjKind.offer else cl.objects 7) = .device
        rw [if_neg hid.symm]
        exact h.device
      · intro j hj
        have hne : j ≠ i := fun heq => UInt32.lt_irrefl 7 (UInt32.lt_trans hv.1 (heq ▸ hj))
        change ¬ (if j = i then ObjKind.offer else cl.objects j).Special
        rw [if_neg hne]
        exact h.others j hj
      · intro j hj
        change (if j = i then ObjKind.offer else cl.objects j) = .offer
        split_ifs with hji
        · rfl
        · exact h.kinds j ((List.mem_cons.mp hj).resolve_left hji)
      · simp [State.step, h.offers]
  | announced i m =>
      have hread := read_str i Zdco.kEvOffer hfits
      change Tracking _ _ (pasteStep i Zdco.kEvOffer
        (.new i Zdco.kEvOffer ([Arg.str m].flatMap Arg.bytes)) cl)
      rw [pasteStep_offer (h.kinds i hv.1), hread]
      refine ⟨h.flushed, h.device, h.others, h.kinds, ?_, h.regular, h.primary, h.gotRegular,
        h.gotPrimary, h.finished⟩
      simp only [State.step, h.offers, addMime_map]
  | selection k i =>
      have hread := read_u32 7 (selectionOpcode k) (i.getD 0)
      change Tracking _ _ (pasteStep 7 (selectionOpcode k)
        (.new 7 (selectionOpcode k) ([Arg.u32 (i.getD 0)].flatMap Arg.bytes)) cl)
      rw [pasteStep_device h.device, pasteDevice, hread]
      cases k with
      | regular =>
          exact ⟨h.flushed, h.device, h.others, h.kinds, h.offers, rfl, h.primary, rfl,
            h.gotPrimary, h.finished⟩
      | primary =>
          exact ⟨h.flushed, h.device, h.others, h.kinds, h.offers, h.regular, rfl, h.gotRegular,
            rfl, h.finished⟩
  | finished =>
      change Tracking _ _ (pasteStep 7 Zdcd.kEvFinished (.new 7 Zdcd.kEvFinished []) cl)
      rw [pasteStep_device h.device]
      exact ⟨h.flushed, h.device, h.others, h.kinds, h.offers, h.regular, h.primary, h.gotRegular,
        h.gotPrimary, rfl⟩

/-- A message about the objects that the client made before the device. -/
def Unrelated (m : Message) : Prop :=
  m.objectId < 7 ∧ (m.opcode = WlDisplay.kEvDeleteId →
    (Reader.new m.objectId m.opcode m.payload).u32.1 < 7)

theorem Tracking.forget (h : Tracking l s cl) (hl : ∀ i ∈ l, OfferId i) {id : UInt32}
    (hid : id < 7) : Tracking l s (cl.forget id) := by
  refine ⟨h.flushed, ?_, fun i hi => ?_, fun i hi => ?_, h.offers, h.regular, h.primary,
    h.gotRegular, h.gotPrimary, h.finished⟩
  · have hne : 7 ≠ id := fun heq => UInt32.lt_irrefl 7 (heq ▸ hid)
    change (if 7 = id then ObjKind.unknown else cl.objects 7) = .device
    rw [if_neg hne]
    exact h.device
  · change ¬ (if i = id then ObjKind.unknown else cl.objects i).Special
    split_ifs
    · simp [ObjKind.Special]
    · exact h.others i hi
  · have hne : i ≠ id := fun heq => UInt32.lt_irrefl 7 (UInt32.lt_trans (hl i hi) (heq ▸ hid))
    change (if i = id then ObjKind.unknown else cl.objects i) = .offer
    rw [if_neg hne]
    exact h.kinds i hi

theorem Tracking.unrelated {m : Message} (h : Tracking l s cl) (hl : ∀ i ∈ l, OfferId i)
    (hm : Unrelated m) :
    Tracking l s (pasteStep m.objectId m.opcode (.new m.objectId m.opcode m.payload) cl) := by
  rw [pasteStep_other (h.others _ hm.1)]
  unfold common
  split
  · split_ifs with hop
    · exact h.forget hl (hm.2 hop)
    · exact h
  all_goals
    first
    | exact h
    | (split_ifs
       · exact ⟨h.flushed, h.device, h.others, h.kinds, h.offers, h.regular, h.primary,
           h.gotRegular, h.gotPrimary, h.finished⟩
       · exact h)

/-! ## A run -/

/-- How the events come in until the wanted selection is known: `buf` is received and not yet
taken, the script holds the reads to come, and `rest` is what is left of it then, or when the client
waits again. -/
inductive Hears (sel : Selection) : Tracked → List UInt8 → List Reply → List PasteEvent →
    List Reply → Prop
  | settled {s buf es rest} (hs : s.settled sel = true) : Hears sel s buf rest es rest
  | wait {s buf rest} (hs : s.settled sel = false) (hnone : headMessage buf = none) :
      Hears sel s buf rest [] rest
  | read {s buf script es rest} (bytes : List UInt8) (fds : List Int)
      (hs : s.settled sel = false) (hnone : headMessage buf = none) (hbytes : bytes ≠ [])
      (h : Hears sel s (buf ++ bytes) script es rest) :
      Hears sel s buf (.poll (.ok (.ready true)) :: .recvmsg (.ok (bytes, fds)) :: script) es rest
  | unrelated {s buf script es rest} (m : Message) (hm : Unrelated m)
      (hs : s.settled sel = false) (h : Hears sel s buf script es rest) :
      Hears sel s (m.bytes ++ buf) script es rest
  | event {s buf script es rest} (e : PasteEvent)
      (hfits : ((eventArgs e).flatMap Arg.bytes).length + 8 < 65536)
      (hs : s.settled sel = false) (h : Hears sel (s.step e) buf script es rest) :
      Hears sel s ((eventMessage e hfits).bytes ++ buf) script (e :: es) rest

def eventDelivery (e : PasteEvent) : Delivery :=
  (eventObject e, eventOpcode e, (eventArgs e).flatMap Arg.bytes)

abbrev awaiting (sel : Selection) : Prog Halt (Client PasteState) Bool :=
  Client.dispatchUntil (haveTarget sel) pasteDispatcher

/-- The client goes on as `cl'` after some events, with `rest` left of its script. -/
structure Heard (sel : Selection) (es : List PasteEvent) (rest : List Reply)
    (cl cl' : Client PasteState) : Prop where
  run : awaiting sel cl = awaiting sel cl'
  script : cl'.script = rest
  queued : cl'.queued = cl.queued
  offering : cl'.observe Action.offering = cl.observe Action.offering ++ es.map eventDelivery

theorem Heard.trans {es es' : List PasteEvent} {rest rest' : List Reply}
    {cl cl' cl'' : Client PasteState} (h : Heard sel es rest cl cl')
    (h' : Heard sel es' rest' cl' cl'') : Heard sel (es ++ es') rest' cl cl'' where
  run := h.run.trans h'.run
  script := h'.script
  queued := h'.queued.trans h.queued
  offering := by rw [h'.offering, h.offering, List.map_append, List.append_assoc]

variable {buf : List UInt8} {script rest : List Reply}

theorem logged_tracking (m : Message) (h : Tracking l s cl) : Tracking l s (cl.logged m) :=
  ⟨h.flushed, h.device, h.others, h.kinds, h.offers, h.regular, h.primary, h.gotRegular,
    h.gotPrimary, h.finished⟩

theorem consumed_tracking (n : ℕ) (h : Tracking l s cl) : Tracking l s (cl.consumed n) :=
  ⟨h.flushed, h.device, h.others, h.kinds, h.offers, h.regular, h.primary, h.gotRegular,
    h.gotPrimary, h.finished⟩

/-- The client takes a message from its buffer and hands it over. -/
theorem awaiting_message {m : Message} (h : Tracking l s cl) (hs : s.settled sel = false)
    (hbuf : cl.inBuf = m.bytes ++ buf) :
    let cl₁ := pasteStep m.objectId m.opcode (.new m.objectId m.opcode m.payload) (cl.logged m)
    Client.Flushed cl₁ → (cl₁.consumed m.size).inBuf = buf ∧
      awaiting sel cl = awaiting sel (cl₁.consumed m.size) ∧
      (cl₁.consumed m.size).script = cl.script ∧ (cl₁.consumed m.size).queued = cl.queued ∧
      (cl₁.consumed m.size).observe Action.offering = cl.observe Action.offering ++
        Action.offering (.dispatch m.objectId m.opcode m.payload) := by
  intro cl₁ hflushed
  have hconn : cl₁.toConnection = (cl.logged m).toConnection :=
    pasteStep_toConnection _ _ _ (cl.logged m)
  have hbuf₁ : cl₁.inBuf = m.bytes ++ buf := (congrArg Connection.inBuf hconn).trans hbuf
  have hscript : cl₁.script = cl.script :=
    (congrArg (fun c : Connection => c.script) hconn).trans rfl
  have hqueued : cl₁.queued = (cl.logged m).queued :=
    congrArg (fun c : Connection => c.queued) hconn
  have hoffering : cl₁.observe Action.offering = (cl.logged m).observe Action.offering :=
    congrArg (fun c : Connection => c.observe Action.offering) hconn
  refine ⟨Client.consumed_bytes hbuf₁, ?_, hscript, hqueued.trans ?_, hoffering.trans ?_⟩
  · exact Client.dispatchUntil_handled ⟨h.flushed, (h.haveTarget sel).trans hs⟩ hbuf rfl hflushed
  · simp [Client.logged, Process.queued, Process.observe, Action.queued]
  · simp [Client.logged, Process.observe]

theorem offering_event (hv : Valid OfferId l (e :: es)) (hl : ∀ i ∈ l, OfferId i) :
    ¬ eventObject e < 7 := by
  cases e with
  | announced i m => exact fun hlt => UInt32.lt_irrefl 7 (UInt32.lt_trans (hl i hv.1) hlt)
  | _ => exact UInt32.lt_irrefl 7

theorem awaiting_event (h : Tracking l s cl) (hv : Valid OfferId l (e :: es))
    (hl : ∀ i ∈ l, OfferId i) (hfits : ((eventArgs e).flatMap Arg.bytes).length + 8 < 65536)
    (hs : s.settled sel = false) (hbuf : cl.inBuf = (eventMessage e hfits).bytes ++ buf) :
    ∃ cl', Tracking (introduced l e) (s.step e) cl' ∧ cl'.inBuf = buf ∧
      Heard sel [e] cl.script cl cl' := by
  have htrack := ((logged_tracking (eventMessage e hfits) h).step hv hfits).1
  obtain ⟨hbuf', hrun, hscript, hqueued, hoffering⟩ := awaiting_message h hs hbuf htrack.flushed
  refine ⟨_, consumed_tracking _ htrack, hbuf', hrun, hscript, hqueued, hoffering.trans ?_⟩
  exact congrArg (cl.observe Action.offering ++ ·) (if_neg (offering_event hv hl))

theorem awaiting_unrelated {m : Message} (h : Tracking l s cl) (hl : ∀ i ∈ l, OfferId i)
    (hm : Unrelated m) (hs : s.settled sel = false) (hbuf : cl.inBuf = m.bytes ++ buf) :
    ∃ cl', Tracking l s cl' ∧ cl'.inBuf = buf ∧ Heard sel [] cl.script cl cl' := by
  have htrack := (logged_tracking m h).unrelated hl hm
  obtain ⟨hbuf', hrun, hscript, hqueued, hoffering⟩ := awaiting_message h hs hbuf htrack.flushed
  refine ⟨_, consumed_tracking _ htrack, hbuf', hrun, hscript, hqueued, hoffering.trans ?_⟩
  exact congrArg (cl.observe Action.offering ++ ·) (if_pos hm.1)

theorem awaiting_read {bytes : List UInt8} {fds : List Int} (h : Tracking l s cl)
    (hs : s.settled sel = false) (hnone : headMessage cl.inBuf = none) (hbytes : bytes ≠ [])
    (hscript : cl.script = .poll (.ok (.ready true)) :: .recvmsg (.ok (bytes, fds)) :: rest) :
    ∃ cl', Tracking l s cl' ∧ cl'.inBuf = cl.inBuf ++ bytes ∧ Heard sel [] rest cl cl' := by
  have hstep := Client.dispatchUntil_read (haveTarget sel) pasteDispatcher
    ⟨h.flushed, (h.haveTarget sel).trans hs⟩ hnone hbytes hscript
  refine ⟨cl.received bytes fds rest, ⟨h.flushed, h.device, h.others, h.kinds, h.offers, h.regular,
    h.primary, h.gotRegular, h.gotPrimary, h.finished⟩, rfl, hstep, rfl, ?_, ?_⟩ <;>
    simp [Client.received, Process.queued, Process.observe, Action.queued, Action.offering]

/-- The paste listens to the events up to the one that settles what it wants, and tracks them. -/
theorem awaiting_run (hears : Hears sel s buf script es rest) (h : Tracking l s cl)
    (hv : Valid OfferId l es) (hl : ∀ i ∈ l, OfferId i) (hbuf : cl.inBuf = buf)
    (hscript : cl.script = script) :
    ∃ l' cl', Tracking l' (s.run (s.processed sel es)) cl' ∧
      Heard sel (s.processed sel es) rest cl cl' ∧
      ((s.run (s.processed sel es)).settled sel = false → headMessage cl'.inBuf = none) := by
  induction hears generalizing l cl with
  | @settled s buf es rest hs =>
      have hnil : s.processed sel es = [] := State.processed_settled hs es
      rw [hnil]
      exact ⟨l, cl, h, ⟨rfl, hscript, rfl, by simp⟩, fun hno => absurd (hs.symm.trans hno) nofun⟩
  | wait hs hnone => exact ⟨l, cl, h, ⟨rfl, hscript, rfl, by simp⟩, fun _ => hbuf ▸ hnone⟩
  | read bytes fds hs hnone hbytes _ ih =>
      obtain ⟨cl₁, htrack, hbuf₁, hstep⟩ := awaiting_read h hs (hbuf ▸ hnone) hbytes hscript
      obtain ⟨l', cl', htrack', hrest, hend⟩ := ih htrack hv hl (hbuf ▸ hbuf₁) hstep.script
      exact ⟨l', cl', htrack', hstep.trans hrest, hend⟩
  | unrelated m hm hs _ ih =>
      obtain ⟨cl₁, htrack, hbuf₁, hstep⟩ := awaiting_unrelated h hl hm hs hbuf
      obtain ⟨l', cl', htrack', hrest, hend⟩ := ih htrack hv hl hbuf₁ (hstep.script.trans hscript)
      exact ⟨l', cl', htrack', hstep.trans hrest, hend⟩
  | @event s buf script es rest e hfits hs _ ih =>
      obtain ⟨cl₁, htrack, hbuf₁, hstep⟩ := awaiting_event h hv hl hfits hs hbuf
      obtain ⟨l', cl', htrack', hrest, hend⟩ :=
        ih htrack hv.tail (hv.introduced hl) hbuf₁ (hstep.script.trans hscript)
      rw [State.processed_cons hs]
      exact ⟨l', cl', htrack', hstep.trans hrest, hend⟩

def eventReads (e : PasteEvent) : List Reply :=
  [.poll (.ok (.ready true)),
    .recvmsg (.ok (event (eventObject e) (eventOpcode e) (eventArgs e), []))]

/-- One event to a read is one way in which events come in. -/
theorem hears_singly (sel : Selection) (s : Tracked) (es : List PasteEvent) (rest : List Reply)
    (hfits : ∀ e ∈ es, ((eventArgs e).flatMap Arg.bytes).length + 8 < 65536) :
    Hears sel s [] ((s.processed sel es).flatMap eventReads ++ rest) es rest := by
  induction es generalizing s with
  | nil =>
      by_cases hs : s.settled sel = true
      · exact .settled hs
      · exact .wait (Bool.eq_false_iff.mpr hs) rfl
  | cons e es ih =>
      by_cases hs : s.settled sel = true
      · rw [State.processed_settled hs]
        exact .settled hs
      · rw [Bool.not_eq_true] at hs
        have hfit := hfits e List.mem_cons_self
        have hbytes : event (eventObject e) (eventOpcode e) (eventArgs e) =
            (eventMessage e hfit).bytes := finalize_args _ _ _ hfit
        have htail := ih (s.step e) fun e' he' => hfits e' (List.mem_cons_of_mem e he')
        rw [State.processed_cons hs, List.flatMap_cons, List.append_assoc, eventReads, hbytes]
        refine .read _ _ hs rfl (Message.framing.bytes_ne_nil _) ?_
        rw [List.nil_append, ← List.append_nil (eventMessage e hfit).bytes]
        exact .event e hfit hs htail

end Handcrafted

end WlClip
