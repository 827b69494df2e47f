import WlClip.CopyScript

/-!
# What a paste sends

After the bootstrap a handcrafted paste asks for the device and then for one offer at most: one that
a selection event of the kind asked for has named.
-/

open ScriptedProgram ScriptedProgram.Prog

namespace WlClip

namespace Handcrafted

def selectionOpcode : Selection → UInt16
  | .regular => Zdcd.kEvSelection
  | .primary => Zdcd.kEvPrimarySelection

def deviceScript : Script := [(5, .getDataDevice 7 4)]

/-- A manager that cannot address the selection is asked for nothing. -/
def pasteRest (sel : Selection) (version : UInt32) : Script :=
  if sel = .primary ∧ version < 2 then [] else deviceScript

variable {σ : Type} {sel : Selection} {sg : SeatGlobal} {mg : ManagerGlobal}
  {H : Halt → Client PasteState → Prop}

/-! ## Asking for the device -/

/-- What a client looks like that has asked for its device: it was told of no offer. -/
structure PasteReady (cl : Client PasteState) : Prop where
  device : cl.objects 7 = .device
  others : ∀ i < 7, ¬ (cl.objects i).Special
  st : withSession .new cl.st = .new

theorem PasteReady.locals {cl cl' : Client PasteState} (h : PasteReady cl)
    (hlocals : cl'.locals = cl.locals) : PasteReady cl' := by
  have hobjects : cl'.objects = cl.objects :=
    congrArg (fun l : Client.Local PasteState => l.1) hlocals
  have hst : cl'.st = cl.st := congrArg (fun l : Client.Local PasteState => l.2.2) hlocals
  exact ⟨by rw [hobjects]; exact h.device, by rw [hobjects]; exact h.others,
    by rw [hst]; exact h.st⟩

theorem getDevice_ready {sigpipe : SigDisposition} :
    Triple (fun cl => cl.nextId = 7 ∧
        Initial PasteState.new sigpipe cl.objects cl.st cl.background) getDevice
      (fun _ => PasteReady) H := by
  rintro cl ⟨hid, hinit⟩
  refine ⟨?_, fun i hi => ?_, hinit.st⟩
  · change (if 7 = cl.nextId then ObjKind.device else cl.objects 7) = .device
    rw [if_pos hid.symm]
  · have hne : i ≠ cl.nextId := fun heq => UInt32.lt_irrefl 7 ((heq.trans hid) ▸ hi)
    change ¬ (if i = cl.nextId then ObjKind.device else cl.objects i).Special
    rw [if_neg hne]
    exact hinit.objects i

theorem setDevice_triple {rs : Script} {n : UInt32} {ids : Ids} (id : UInt32) :
    Triple (Scripted noFrame rs n ids)
      (Client.setState fun st : PasteState => { st with deviceId := id })
      (fun _ => Scripted noFrame rs n ids) H :=
  fun _ h => ⟨h.written, h.told, h.nextId, h.ids, trivial, h.registry, h.seats, h.managers⟩

theorem getDevice_triple :
    Triple (Booted noFrame sg mg) getDevice
      (fun _ => Scripted noFrame (bootScript sg mg ++ deviceScript) 8 ⟨2, 4, 5, min mg.version 2⟩)
      H := by
  refine Triple.bind allocId_triple fun device => Triple.assume fun hdevice => ?_
  subst hdevice
  refine Triple.bind (setDevice_triple 7) fun _ =>
    Triple.bind (registerObject_frame nofun fun _ _ _ h => h) fun _ => ?_
  refine Triple.bind (Q := fun (st : PasteState) cl =>
    (session st).ids = ⟨2, 4, 5, min mg.version 2⟩ ∧
      Scripted noFrame (bootScript sg mg) 8 ⟨2, 4, 5, min mg.version 2⟩ cl)
    (Triple.read _ fun cl h => ⟨h.ids, h⟩) fun st => Triple.assume fun hids => ?_
  have hmanager : st.managerId = 5 := congrArg Ids.managerId hids
  have hseat : st.seatId = 4 := congrArg Ids.seatId hids
  rw [hmanager, hseat]
  exact send_triple (r := .getDataDevice 7 4) rfl nofun

/-! ## The offer asked for -/

/-- A selection event of the kind has named the offer to the device, which is object 7. -/
def Named (sel : Selection) (log : List Delivery) (offer : UInt32) : Prop :=
  ∃ payload, (7, selectionOpcode sel, payload) ∈ log ∧
    (Reader.new 7 (selectionOpcode sel) payload).u32.1 = offer

theorem Named.mono {log log' : List Delivery} {offer : UInt32} (h : Named sel log offer)
    (hlog : ∀ a ∈ log, a ∈ log') : Named sel log' offer := by
  obtain ⟨payload, hmem, hread⟩ := h
  exact ⟨payload, hlog _ hmem, hread⟩

def offerIds (st : PasteState) : List UInt32 := st.offers.map OfferRec.id

/-- What a paste has been told: the offer that it will take is none, or one that is not the device
itself and was named to the device. -/
structure Knows (sel : Selection) (log : List Delivery) (cl : Client PasteState) : Prop where
  device : ∀ id, cl.objects id = .device → id = 7
  own : 7 ∈ offerIds cl.st → cl.objects 7 ≠ .device
  waiting : haveTarget sel cl.st = false → target sel cl.st = 0
  named : target sel cl.st ≠ 0 →
    Named sel log (target sel cl.st) ∧ 7 ∉ offerIds cl.st

variable {log : List Delivery} {cl cl' : Client PasteState}

theorem Knows.mono {log' : List Delivery} (h : Knows sel log cl) (hlog : ∀ a ∈ log, a ∈ log') :
    Knows sel log' cl :=
  ⟨h.device, h.own, h.waiting, fun hne => (h.named hne).imp_left fun hnamed => hnamed.mono hlog⟩

theorem ids_addMime (id : UInt32) (m : Text) (offers : List OfferRec) :
    (addMime id m offers).map OfferRec.id = offers.map OfferRec.id := by
  induction offers with
  | nil => rfl
  | cons o offers ih => by_cases h : o.id = id <;> simp [addMime, h, ih]

/-- A client that has made no object of the manager since, and was told nothing by its device. -/
theorem Knows.silent (h : Knows sel log cl) (hdevice : ∀ id, cl'.objects id = .device →
      cl.objects id = .device)
    (hst : withSession .new cl'.st = withSession .new cl.st) : Knows sel log cl' := by
  have hfield {β : Type} (f : PasteState → β) (hf : ∀ st, f (withSession .new st) = f st) :
      f cl'.st = f cl.st := (hf _).symm.trans ((congrArg f hst).trans (hf _))
  have hids := hfield offerIds fun _ => rfl
  have hhave := hfield (haveTarget sel) fun _ => rfl
  have htarget := hfield (target sel) fun _ => rfl
  refine ⟨fun id hid => h.device id (hdevice id hid), ?_, ?_, ?_⟩
  · rw [hids]
    exact fun hown hid => h.own hown (hdevice 7 hid)
  · rw [hhave, htarget]
    exact h.waiting
  · rw [hids, htarget]
    exact h.named

theorem common_silent (obj : UInt32) (op : UInt16) (r : Reader) (cl : Client PasteState) :
    (∀ id, (common obj op r cl).objects id = .device → cl.objects id = .device) ∧
      withSession .new (common obj op r cl).st = withSession .new cl.st := by
  unfold common
  split
  · split_ifs
    · refine ⟨fun id hid => ?_, rfl⟩
      change (if id = _ then ObjKind.unknown else cl.objects id) = .device at hid
      split_ifs at hid
      exact hid
    · exact ⟨fun _ h => h, rfl⟩
  · split_ifs <;> exact ⟨fun _ h => h, rfl⟩
  · split_ifs <;> exact ⟨fun _ h => h, rfl⟩
  · split_ifs <;> exact ⟨fun _ h => h, rfl⟩
  · exact ⟨fun _ h => h, rfl⟩

/-- A device event of a paste that still waits. -/
theorem Knows.pasteDevice (h : Knows sel log cl) (hobj : cl.objects 7 = .device)
    (hwait : haveTarget sel cl.st = false) (op : UInt16) (payload : List UInt8) :
    Knows sel (log ++ [(7, op, payload)]) (pasteDevice op (.new 7 op payload) cl) := by
  have hzero := h.waiting hwait
  have hown : 7 ∉ offerIds cl.st := fun hmem => h.own hmem hobj
  have hnamed : op = selectionOpcode sel →
      Named sel (log ++ [(7, op, payload)]) (Reader.new 7 op payload).u32.1 := by
    rintro rfl
    exact ⟨payload, List.mem_append_right _ List.mem_cons_self, rfl⟩
  unfold Handcrafted.pasteDevice
  split_ifs with hoffer hregular hprimary hfinished
  · refine ⟨fun id hid => ?_, fun hmem => ?_, fun _ => hzero, fun hne => absurd hzero hne⟩
    · change (if id = _ then ObjKind.offer else cl.objects id) = .device at hid
      split_ifs at hid
      exact h.device id hid
    · have hids : offerIds cl.st ++ [(Reader.new 7 op payload).u32.1] =
          offerIds { cl.st with
            offers := cl.st.offers ++ [⟨(Reader.new 7 op payload).u32.1, []⟩] } := by
        simp [offerIds]
      change (if (7 : UInt32) = _ then ObjKind.offer else cl.objects 7) ≠ .device
      rw [if_pos]
      · decide
      · exact List.mem_singleton.mp ((List.mem_append.mp (hids ▸ hmem)).resolve_left hown)
  · cases sel with
    | regular => exact ⟨h.device, h.own, fun hgot => by simp [haveTarget] at hgot,
        fun _ => ⟨hnamed hregular, hown⟩⟩
    | primary => exact ⟨h.device, h.own, fun _ => hzero, fun hne => absurd hzero hne⟩
  · cases sel with
    | regular => exact ⟨h.device, h.own, fun _ => hzero, fun hne => absurd hzero hne⟩
    | primary => exact ⟨h.device, h.own, fun hgot => by simp [haveTarget] at hgot,
        fun _ => ⟨hnamed hprimary, hown⟩⟩
  · exact ⟨h.device, h.own, fun _ => hzero, fun hne => absurd hzero hne⟩
  · exact h.mono fun a => List.mem_append_left _

theorem Knows.step (h : Knows sel log cl) (hwait : haveTarget sel cl.st = false) (obj : UInt32)
    (op : UInt16) (payload : List UInt8) :
    Knows sel (log ++ [(obj, op, payload)]) (pasteStep obj op (.new obj op payload) cl) := by
  have hlog := h.mono fun a => List.mem_append_left [(obj, op, payload)]
  unfold pasteStep
  split
  · next hobj =>
    obtain rfl := h.device obj hobj
    exact h.pasteDevice hobj hwait op payload
  · split_ifs
    · have hids : offerIds { cl.st with offers := addMime obj _ cl.st.offers } = offerIds cl.st :=
        ids_addMime obj (Reader.new obj op payload).str.1 cl.st.offers
      refine ⟨hlog.device, ?_, hlog.waiting, ?_⟩
      · rw [hids]
        exact hlog.own
      · rw [hids]
        exact hlog.named
    · exact hlog
  · obtain ⟨hdevice, hst⟩ := common_silent obj op (.new obj op payload) cl
    exact hlog.silent hdevice hst

/-! ## A paste that listens -/

/-- All that was queued is the bootstrap and the request for the device. -/
def HasDevice (sel : Selection) (log : List Action) : Prop :=
  ∃ sg mg, log.flatMap Action.written = (bootScript sg mg ++ deviceScript).map (fun a =>
    a.2.encode a.1) ∧ (sel = .primary → ¬ min mg.version 2 < 2)

/-- The client has asked for the device, and knows what it will take. -/
structure Listens (sel : Selection) (cl : Client PasteState) : Prop where
  queued : HasDevice sel cl.trace
  knows : Knows sel cl.dispatched cl

/-- Nothing was queued since, and no message handed over. -/
structure Waited (cl cl' : Client PasteState) : Prop where
  logs : Process.Logs (fun a => a.written = [] ∧ a.dispatched = []) cl.toProcess cl'.toProcess
  locals : cl'.locals = cl.locals

theorem HasDevice.append {log log' : List Action} (h : HasDevice sel log)
    (hlog : log'.flatMap Action.written = []) : HasDevice sel (log ++ log') := by
  obtain ⟨sg, mg, hqueued, hversion⟩ := h
  refine ⟨sg, mg, ?_, hversion⟩
  rw [List.flatMap_append, hlog, List.append_nil, hqueued]

theorem Waited.written (h : Waited cl cl') :
    ∃ log, cl'.trace = cl.trace ++ log ∧ log.flatMap Action.written = [] := by
  obtain ⟨log, htrace, -, hlog⟩ := h.logs.log
  exact ⟨log, htrace, List.flatMap_eq_nil_iff.mpr fun a ha => (hlog a ha).1⟩

theorem Waited.of_logs (hlogs : Process.Logs Action.Io cl.toProcess cl'.toProcess)
    (hlocals : cl'.locals = cl.locals) : Waited cl cl' :=
  ⟨hlogs.mono fun _ ha => ⟨ha.written, ha.dispatched⟩, hlocals⟩

theorem Listens.waited (h : Listens sel cl) (hsame : Waited cl cl') : Listens sel cl' := by
  obtain ⟨log, htrace, hlog⟩ := hsame.written
  have hobjects : cl'.objects = cl.objects :=
    congrArg (fun l : Client.Local PasteState => l.1) hsame.locals
  have hst : cl'.st = cl.st := congrArg (fun l : Client.Local PasteState => l.2.2) hsame.locals
  have hdispatched : cl'.dispatched = cl.dispatched :=
    hsame.logs.observe_eq fun _ ha => ha.2
  refine ⟨htrace ▸ h.queued.append hlog, ?_⟩
  rw [hdispatched]
  exact h.knows.silent (fun id hid => hobjects ▸ hid) (congrArg _ hst)

theorem listens_deliver (m : Message) :
    Triple (fun cl => Listens sel cl ∧ haveTarget sel cl.st = false)
      (Client.deliver pasteDispatcher m) (fun _ => Listens sel) (fun _ => Listens sel) := by
  rintro cl ⟨h, hwait⟩
  have hlog := Client.dispatched_logged m cl
  have hlogged : Knows sel cl.dispatched (cl.logged m) := h.knows.silent (fun _ hid => hid) rfl
  have hstep := hlogged.step hwait m.objectId m.opcode m.payload
  have hconn := pasteStep_toConnection m.objectId m.opcode (.new m.objectId m.opcode m.payload)
    (cl.logged m)
  have htrace := congrArg (fun c : Connection => c.trace) hconn
  have hdispatched := congrArg (fun c : Connection => c.dispatched) hconn
  have hqueued : HasDevice sel (cl.logged m).trace := h.queued.append rfl
  have hdeliver : Client.deliver pasteDispatcher m cl = _ := Client.deliver_ok rfl
  rw [hdeliver]
  refine ⟨htrace.symm ▸ hqueued, ?_⟩
  have hseen : Knows sel (cl.logged m).dispatched (pasteStep m.objectId m.opcode
      (.new m.objectId m.opcode m.payload) (cl.logged m)) := hlog ▸ hstep
  rw [← hdispatched] at hseen
  exact hseen.silent (fun _ hid => hid) rfl

theorem listens_await :
    Keeps (Listens sel) (Client.dispatchUntil (haveTarget sel) pasteDispatcher) :=
  (Client.dispatchUntil_guarded (fun _ _ h hq => h.waited (.of_logs hq.1.logs hq.2))
    listens_deliver).conseq (fun _ h => h) (fun _ _ h => h.1) fun _ _ h => h

/-- The log of a paste that has asked for one offer at most, which was named before. -/
inductive Asked (sel : Selection) : List Action → Prop
  | device {log : List Action} (h : HasDevice sel log) : Asked sel log
  | offer {before after : List Action} (offer : UInt32) (mime : Text) (h : HasDevice sel before)
      (hnamed : Named sel (before.flatMap Action.dispatched) offer) (hother : offer ≠ 7)
      (hafter : after.flatMap Action.written = []) :
      Asked sel (before ++ .queue ((Request.receive mime).encode offer) :: after)

theorem Asked.append {log log' : List Action} (h : Asked sel log)
    (hlog : log'.flatMap Action.written = []) : Asked sel (log ++ log') := by
  cases h with
  | device h => exact .device (h.append hlog)
  | offer offer mime h hnamed hother hafter =>
      rw [List.append_assoc, List.cons_append]
      refine .offer offer mime h hnamed hother ?_
      rw [List.flatMap_append, hafter, hlog, List.append_nil]

theorem asked_keeps {α : Type} {p : Prog Halt (Client PasteState) α} (h : Within Waited p) :
    Keeps (fun cl => Asked sel cl.trace) p := by
  refine h.keeps fun cl cl' hsame hcl => ?_
  obtain ⟨log, htrace, hlog⟩ := hsame.written
  exact htrace ▸ hcl.append hlog

theorem onConn_waited {α : Type} {p : Prog Halt Connection α} (h : Within Connection.KeepsInput p) :
    Within Waited (Client.onConn p : Prog Halt (Client PasteState) α) :=
  (Client.onConn_within h).mono fun _ _ hk => .of_logs hk.1.quiet.logs hk.2

theorem sys_waited {α : Type} {p : Prog Halt Process α}
    (h : Within (Process.Logs Action.Silent) p) :
    Within Waited (Client.sys p : Prog Halt (Client PasteState) α) :=
  onConn_waited (Connection.sys_keepsInput h)

theorem outFd_waited (fd : Int) :
    Within Waited (Client.onConn (Connection.outFd fd) : Prog Halt (Client PasteState) Unit) :=
  fun cl => ⟨Process.record_logs (A := fun a => a.written = [] ∧ a.dispatched = []) ⟨rfl, rfl⟩ rfl
    cl.toProcess, rfl⟩

theorem send_receive {offer : UInt32} (mime : Text) (hother : offer ≠ 7) :
    Triple (fun cl => Listens sel cl ∧ Named sel cl.dispatched offer)
      (send ((Writer.new offer Zdco.kReqReceive).str mime)) (fun _ cl => Asked sel cl.trace) H :=
  fun _ h => .offer offer mime h.1.queued h.2 hother rfl

theorem fetch_asked {offer : UInt32} (mime : Text) (available : List Text) (hother : offer ≠ 7) :
    Triple (fun cl => Listens sel cl ∧ Named sel cl.dispatched offer)
      (fetch offer mime available) (fun _ cl => Asked sel cl.trace)
      (fun _ cl => Asked sel cl.trace) := by
  have hpipe : Keeps (fun cl => Listens sel cl ∧ Named sel cl.dispatched offer)
      (Client.sys Process.makePipe) := by
    refine (sys_waited Process.makePipe_silent).keeps fun cl cl' hsame hcl => ?_
    have hdispatched : cl'.dispatched = cl.dispatched := hsame.logs.observe_eq fun _ ha => ha.2
    exact ⟨hcl.1.waited hsame, hdispatched ▸ hcl.2⟩
  apply Triple.bind (hpipe.conseq (fun _ h => h) (fun _ _ h => h) fun _ _ h => .device h.1.queued)
  rintro (_ | ⟨readEnd, writeEnd⟩)
  · exact Triple.pure _ fun _ h => .device h.1.queued
  apply Triple.bind (send_receive mime hother)
  intro _
  apply Triple.bind (asked_keeps (outFd_waited writeEnd))
  intro _
  apply Triple.bind (asked_keeps (onConn_waited Connection.flush_keepsInput))
  intro _
  apply Triple.bind (asked_keeps (sys_waited (Process.drainFd_silent readEnd)))
  intro _
  apply Triple.bind (asked_keeps (sys_waited (Process.close_silent readEnd)))
  intro _
  exact Triple.pure _ fun _ h => h

theorem take_asked (preferMime : Text) (listOnly : Bool) :
    Triple (Listens sel) (take sel preferMime listOnly) (fun _ cl => Asked sel cl.trace)
      (fun _ cl => Asked sel cl.trace) := by
  have hdone (st : PasteState) (r : Bool × PasteResult) :
      Triple (fun cl => Listens sel cl ∧ (target sel st ≠ 0 →
          Named sel cl.dispatched (target sel st) ∧ 7 ∉ offerIds st))
        (pure r : Prog Halt (Client PasteState) (Bool × PasteResult))
        (fun _ cl => Asked sel cl.trace) (fun _ cl => Asked sel cl.trace) :=
    Triple.pure r fun _ h => .device h.1.queued
  apply Triple.bind (Q := fun st cl => Listens sel cl ∧ (target sel st ≠ 0 →
    Named sel cl.dispatched (target sel st) ∧ 7 ∉ offerIds st))
  · exact Triple.read Client.st fun cl h => ⟨h, h.knows.named⟩
  intro st
  apply Triple.ite fun _ => hdone st _
  intro htarget
  split
  · exact hdone st _
  next o hfind =>
  have hid : target sel st ∈ offerIds st := by
    have heq : o.id = target sel st := by simpa using List.find?_some hfind
    exact heq ▸ List.mem_map_of_mem (List.mem_of_find?_eq_some hfind)
  apply Triple.ite fun _ => hdone st _
  intro _
  apply Triple.ite fun _ => hdone st _
  intro _
  by_cases hown : target sel st = 7
  · exact fun cl h => absurd (hown ▸ hid) (h.2 htarget).2
  · exact (fetch_asked _ o.mimes hown).pre fun cl h => ⟨h.1, (h.2 htarget).1⟩

/-! ## The whole paste -/

/-- What is queued when a paste returns or halts; one that has not failed got as far as its
device. -/
def PasteSpoken (sel : Selection) (ok : Bool) (cl : Client PasteState) : Prop :=
  Asked sel cl.trace ∨ ok = false ∧ Spoken noFrame (pasteRest sel) cl

variable {sigpipe : SigDisposition}

/-- The client has asked for its device, and nothing else has happened to it. -/
theorem listens_start (hready : PasteReady cl) (hdevice : ∀ id, cl.objects id = .device → id = 7)
    (hqueued : HasDevice sel cl.trace) : Listens sel cl := by
  have hids : offerIds cl.st = [] := congrArg offerIds hready.st
  have htarget : target sel cl.st = 0 := by
    have hst := congrArg (target sel) hready.st
    exact hst.trans (by cases sel <;> rfl)
  refine ⟨hqueued, hdevice, ?_, fun _ => htarget, fun hne => absurd htarget hne⟩
  rw [hids]
  exact nofun

theorem getDevice_devices :
    Triple (fun cl => cl.nextId = 7 ∧
        Initial PasteState.new sigpipe cl.objects cl.st cl.background) getDevice
      (fun _ cl => ∀ id, cl.objects id = .device → id = 7) H := by
  rintro cl ⟨hid, hinit⟩ id hdevice
  change (if id = cl.nextId then ObjKind.device else cl.objects id) = .device at hdevice
  split_ifs at hdevice with heq
  · exact heq.trans hid
  · exact absurd (.inr (.inl hdevice)) (hinit.objects id)

theorem pasteSetup_triple (display seat : Text) (sel : Selection) :
    Triple (Fresh (initialFrame PasteState.new sigpipe)) (pasteSetup display seat sel)
      (fun ok cl => (ok = true → PasteReady cl ∧ Listens sel cl) ∧
        (ok = false → Spoken noFrame (pasteRest sel) cl))
      (fun _ => PasteSpoken sel false) := by
  have hreframe : ∀ {cl : Client PasteState}, Spoken (initialFrame .new sigpipe) (pasteRest sel) cl →
      Spoken noFrame (pasteRest sel) cl := fun ⟨sg, mg, rs, n, ids, h, hrs⟩ =>
    ⟨sg, mg, rs, n, ids, h.reframe trivial, hrs⟩
  refine Triple.bind ((start_spoke (pasteRest sel) (paste_initial _ _) display seat sel).conseq
    (fun _ h => h) (fun _ _ h => h) fun _ cl h => .inr ⟨rfl, hreframe h⟩) fun ok =>
    Triple.ite (fun hok => ?_) fun _ => Triple.pure _ fun _ h => ⟨nofun, fun _ => hreframe h.2⟩
  refine Triple.bind (Q := fun _ cl => PasteReady cl ∧ Listens sel cl) ?_ fun _ => ?_
  · rintro cl ⟨h, -⟩
    obtain ⟨sg, mg, h, hversion⟩ := h hok
    have hdevice := getDevice_triple (H := fun _ _ => False) cl (h.reframe trivial)
    have hready := getDevice_ready (H := fun _ _ => False) cl ⟨h.nextId, h.frame⟩
    have honly := getDevice_devices (H := fun _ _ => False) cl ⟨h.nextId, h.frame⟩
    rcases hr : getDevice cl with ⟨e | u, cl'⟩ <;> rw [hr] at hdevice hready honly
    · exact hdevice.elim
    · have hready : PasteReady cl' := hready
      exact ⟨hready, listens_start hready honly ⟨sg, mg, hdevice.written, hversion⟩⟩
  · refine Triple.bind (Q := fun _ cl => PasteReady cl ∧ Listens sel cl)
      (((onConn_waited Connection.flush_keepsInput).keeps (I := fun cl => PasteReady cl ∧
        Listens sel cl) fun _ _ hsame hcl => ⟨hcl.1.locals hsame.locals, hcl.2.waited hsame⟩).conseq
        (fun _ h => h) (fun _ _ h => h) fun _ _ h => .inl (.device h.2.queued)) fun _ => ?_
    exact Triple.pure _ fun _ h => ⟨fun _ => h, nofun⟩

/-- However the paste returns or halts, it has asked for nothing but a device and an offer that a
selection event of the kind has named. -/
theorem pasteClient_spoken (display seat : Text) (sel : Selection) (preferMime : Text)
    (listOnly : Bool) :
    Triple (Fresh (initialFrame PasteState.new sigpipe))
      (pasteClient display seat sel preferMime listOnly) (fun r => PasteSpoken sel r.1)
      (fun _ => PasteSpoken sel false) := by
  refine Triple.bind (pasteSetup_triple display seat sel) fun ok =>
    Triple.ite (fun hok => ?_) fun hok => Triple.pure _ fun _ h => .inr ⟨rfl, h.2 (by simpa using hok)⟩
  refine Triple.bind (Q := fun _ => Listens sel) ((listens_await.conseq
    (fun cl h => (h.1 hok).2) (fun _ _ h => h) fun _ _ h => .inl (.device h.queued))) fun ok =>
    Triple.ite (fun _ => ?_) fun _ => Triple.pure _ fun _ h => .inl (.device h.queued)
  exact (take_asked preferMime listOnly).conseq (fun _ h => h) (fun _ _ h => .inl h)
    fun _ _ h => .inl h

end Handcrafted

end WlClip
