import WlClip.LibwaylandIsolation
import WlClip.PasteScript
import WlClip.RequestFraming

/-!
# Isolation of the two selections

The messages of the handcrafted backend contact the selections as the requests of libwayland do, and
its operations are isolated. So is every operation of the Wayland backends, but for clearing the
primary selection through a manager that cannot address it.
-/

open ScriptedProgram ScriptedProgram.Prog LittleEndian

namespace WlClip

namespace Handcrafted

/-! ## What a message does -/

/-- What a message does, by its header and first word, when the device is known. The ids above it are
not the client's own. -/
def contacts (device : UInt32) (bytes : List UInt8) : List (Contact UInt32) :=
  let target := loadU32 bytes
  let opcode := opcodeField (loadU32 (bytes.drop 4))
  let source := loadU32 (bytes.drop 8)
  if target = device then
    if opcode = Zdcd.kReqSetSelection then
      [if source = 0 then .clear .regular else .set .regular]
    else if opcode = Zdcd.kReqSetPrimarySelection then
      [if source = 0 then .clear .primary else .set .primary]
    else []
  else if device < target ∧ opcode = Zdco.kReqReceive then [.read target]
  else []

def newDevice (bytes : List UInt8) : Option UInt32 :=
  if loadU32 bytes ≠ kDisplayId ∧ opcodeField (loadU32 (bytes.drop 4)) = Zdcm.kReqGetDataDevice then
    some (loadU32 (bytes.drop 8))
  else none

def bindVersion (bytes : List UInt8) : Option UInt32 :=
  if loadU32 bytes = 2 then
    match (headMessage bytes).bind (Interface.decode .registry) with
    | some (.bind _ interface version _) => if interface = kIfZwlrMgr then some version else none
    | _ => none
  else none

/-- The events and messages of a client with the device. -/
def dialect (device : UInt32) : Dialect Delivery UInt32 where
  heard := Action.dispatched
  contacts a := a.written.flatMap (contacts device)
  names sel e offer := e.1 = device ∧ e.2.1 = selectionOpcode sel ∧
    (Reader.new e.1 e.2.1 e.2.2).u32.1 = offer

/-- The version of the first manager that is bound. -/
def boundVersion (p : Process) : Option UInt32 := p.written.findSome? bindVersion

def Isolated (sel : Selection) (r : Except Halt Bool) (p : Process) : Prop :=
  ∃ device, (∀ d ∈ p.written.filterMap newDevice, d = device) ∧
    (dialect device).Isolated sel (sel = .primary → ∀ v ∈ boundVersion p, ¬ v < 2) r p.trace

end Handcrafted

namespace HandcraftedBackend

def perform (display seat : Text) (sel : Selection) : Operation → Prog Halt Process Bool
  | .copy data oneshot => copy display seat sel data oneshot
  | .paste preferMime listOnly => do
    let r ← paste display seat sel preferMime listOnly
    return r.1
  | .clear => do
    let code ← CopyCommand.runHandcrafted ⟨display, seat, text "handcrafted", sel = .primary⟩
      { CopyCommand.CopyOpts.new with clear := true } ⟨[], []⟩
    return code = 0

end HandcraftedBackend

namespace Handcrafted

/-! ## The messages of the scripts -/

variable {sel : Selection} {sg : SeatGlobal} {mg : ManagerGlobal}

/-- Nothing is done to a selection by a message to one of the client's objects before the device. -/
theorem contacts_below {device target : UInt32} (h : target < device) (r : Request) :
    contacts device (r.encode target) = [] := by
  have hne : target ≠ device := UInt32.ne_of_lt h
  have hnot : ¬ device < target := UInt32.lt_asymm h
  simp [contacts, hne, hnot]

theorem contacts_set (device : UInt32) {source : UInt32} (h : source ≠ 0) (sel : Selection) :
    contacts device ((setSelection sel source).encode device) = [.set sel] := by
  cases sel <;>
    simp [contacts, setSelection, Request.opcode, Request.args, Arg.bytes, h,
      Zdcd.kReqSetSelection, Zdcd.kReqSetPrimarySelection]

theorem contacts_receive {device target : UInt32} (h : target ≠ device) (mime : Text) :
    ∀ c ∈ contacts device ((Request.receive mime).encode target), c = .read target := by
  intro c hc
  simp only [contacts, Request.objectId_encode, h, if_false] at hc
  split_ifs at hc
  · exact List.mem_singleton.mp hc
  · cases hc

theorem newDevice_encode (target : UInt32) (r : Request) :
    newDevice (r.encode target) =
      if target ≠ kDisplayId ∧ r.opcode = Zdcm.kReqGetDataDevice then
        some (loadU32 (r.args.flatMap Arg.bytes))
      else none := by
  simp only [newDevice, Request.objectId_encode, Request.opcode_encode, Request.args_encode]

theorem bindVersion_other {target : UInt32} (h : target ≠ 2) (r : Request) :
    bindVersion (r.encode target) = none := by
  simp [bindVersion, h]

theorem bindVersion_bind {interface : Text} (h : interface.length ≤ 60000)
    (name version id : UInt32) :
    bindVersion ((Request.bind name interface version id).encode 2) =
      if interface = kIfZwlrMgr then some version else none := by
  have hfits := fits_bind h name version id
  have hhead := headMessage_bytes ((Request.bind name interface version id).message 2) []
  rw [List.append_nil, ← Request.encode_eq 2 hfits] at hhead
  have hdecode := decode_message 2 hfits
  rw [bindVersion, Request.objectId_encode, if_pos rfl, hhead]
  change (match Interface.decode .registry _ with
    | some (.bind _ interface version _) => if interface = kIfZwlrMgr then some version else none
    | _ => none) = _
  rw [show Interface.decode .registry ((Request.bind name interface version id).message 2) = _ from
    hdecode]

abbrev spell (rs : Script) : List (List UInt8) := rs.map fun a => a.2.encode a.1

theorem spell_append (rs rs' : Script) : spell (rs ++ rs') = spell rs ++ spell rs' :=
  List.map_append

theorem boot_targets : ∀ a ∈ bootScript sg mg, a.1 < 7 := by
  simp [bootScript]

theorem mem_announce {mimes : List Text} {a : UInt32 × Request} (h : a ∈ announceScript sel mimes) :
    a = (5, .createDataSource 7) ∨ a = (5, .getDataDevice 8 4) ∨ (∃ m, a = (7, .offer m)) ∨
      a = (8, setSelection sel 7) := by
  simp only [announceScript, List.mem_append, List.mem_cons, List.mem_map, List.not_mem_nil,
    or_false] at h
  rcases h with ((h | h) | ⟨m, -, h⟩) | h
  · exact .inl h
  · exact .inr (.inl h)
  · exact .inr (.inr (.inl ⟨m, h.symm⟩))
  · exact .inr (.inr (.inr h))

theorem contacts_announce {mimes : List Text} :
    ∀ bytes ∈ spell (bootScript sg mg ++ announceScript sel mimes),
      ∀ c ∈ contacts 8 bytes, c = .set sel := by
  rintro _ hbytes c hc
  have hbelow : ∀ {target : UInt32} {r : Request}, target < 8 →
      c ∈ contacts 8 (r.encode target) → c = .set sel := fun hlt hc => by
    rw [contacts_below hlt] at hc
    cases hc
  obtain ⟨a, ha, rfl⟩ := List.mem_map.mp hbytes
  rcases List.mem_append.mp ha with ha | ha
  · exact hbelow (UInt32.lt_trans (boot_targets a ha) (by decide)) hc
  · rcases mem_announce ha with rfl | rfl | ⟨m, rfl⟩ | rfl
    · exact hbelow (by decide) hc
    · exact hbelow (by decide) hc
    · exact hbelow (show (7 : UInt32) < 8 by decide) hc
    · rw [contacts_set 8 (by decide)] at hc
      exact List.mem_singleton.mp hc

theorem contacts_boot {device : UInt32} (h : 7 ≤ device) :
    ∀ bytes ∈ spell (bootScript sg mg ++ deviceScript), contacts device bytes = [] := by
  rintro _ hbytes
  obtain ⟨a, ha, rfl⟩ := List.mem_map.mp hbytes
  refine contacts_below (UInt32.lt_of_lt_of_le ?_ h) _
  rcases List.mem_append.mp ha with ha | ha
  · exact boot_targets a ha
  · cases List.mem_singleton.mp ha
    decide

theorem newDevice_boot : (spell (bootScript sg mg)).filterMap newDevice = [] := by
  simp [bootScript, newDevice_encode, Request.opcode, kDisplayId, Zdcm.kReqGetDataDevice,
    WlRegistry.kReqBind]

theorem newDevice_announce {mimes : List Text} :
    ∀ d ∈ (spell (bootScript sg mg ++ announceScript sel mimes)).filterMap newDevice, d = 8 := by
  intro d hd
  rw [spell_append, List.filterMap_append, newDevice_boot, List.nil_append] at hd
  obtain ⟨bytes, hbytes, hd⟩ := List.mem_filterMap.mp hd
  obtain ⟨a, ha, rfl⟩ := List.mem_map.mp hbytes
  rw [newDevice_encode] at hd
  rcases mem_announce ha with rfl | rfl | ⟨m, rfl⟩ | rfl
  · simp [Request.opcode, Zdcm.kReqCreateDataSource, Zdcm.kReqGetDataDevice] at hd
  · rw [if_pos (by decide)] at hd
    exact (Option.some.inj hd).symm.trans (loadU32_u32Bytes_append 8 _)
  · simp [Request.opcode, Zdcs.kReqOffer, Zdcm.kReqGetDataDevice] at hd
  · cases sel <;>
      simp [setSelection, Request.opcode, Zdcd.kReqSetSelection, Zdcd.kReqSetPrimarySelection,
        Zdcm.kReqGetDataDevice] at hd

/-- The bootstrap binds one manager, and the first one bound is that. -/
theorem boundVersion_boot (rest : List (List UInt8)) :
    (spell (bootScript sg mg) ++ rest).findSome? bindVersion = some (min mg.version 2) := by
  have hseat : bindVersion ((Request.bind sg.name kIfWlSeat (min sg.version 7) 4).encode 2) = none :=
    bindVersion_bind (by decide) _ _ _
  have hmanager : bindVersion ((Request.bind mg.name kIfZwlrMgr (min mg.version 2) 5).encode 2) =
      some (min mg.version 2) := bindVersion_bind (by decide) _ _ _
  have hone : ∀ r : Request, bindVersion (r.encode 1) = none := bindVersion_other (by decide)
  simp [bootScript, hone, hseat, hmanager]

theorem boundVersion_prefix {rs rest : Script} {v : UInt32} (h : rs <+: bootScript sg mg ++ rest)
    (hv : (spell rs).findSome? bindVersion = some v) : v = min mg.version 2 := by
  obtain ⟨t, ht⟩ := h
  have hboot : (spell (bootScript sg mg) ++ spell rest).findSome? bindVersion = _ :=
    boundVersion_boot (spell rest)
  rw [← spell_append, ← ht, spell_append, List.findSome?_append, hv] at hboot
  exact Option.some.inj hboot

/-! ## A copy -/

section Copy

variable {data : CopyData} {oneshot : Bool} {sigpipe : SigDisposition}
  {H : Halt → Client CopyState → Prop}

/-- The whole script of the copy was queued, for a manager that can address the selection. -/
def Addressed (sel : Selection) (data : CopyData) (cl : Client CopyState) : Prop :=
  ∃ sg mg n ids, Scripted (dataFrame data) (bootScript sg mg ++ announceScript sel data.mimeTypes) n
    ids cl ∧ (sel = .primary → ¬ min mg.version 2 < 2)

theorem flush_addressed : Keeps (Addressed sel data) (Client.onConn Connection.flush) := by
  rintro cl ⟨sg, mg, n, ids, h, hversion⟩
  exact flush_scripted.conseq (fun _ h => h) (fun _ _ h => ⟨sg, mg, n, ids, h, hversion⟩)
    (fun _ _ h => ⟨sg, mg, n, ids, h, hversion⟩) cl h

theorem dispatchUntil_addressed (predicate : CopyState → Bool) :
    Keeps (Addressed sel data) (Client.dispatchUntil predicate copyDispatcher) := by
  rintro cl ⟨sg, mg, n, ids, h, hversion⟩
  exact (dispatchUntil_scripted (copy_undisturbing data) predicate).conseq (fun _ h => h)
    (fun _ _ h => ⟨sg, mg, n, ids, h.1, hversion⟩) (fun _ _ h => ⟨sg, mg, n, ids, h, hversion⟩) cl h

theorem copyClient_addressed (display seat : Text) (sel : Selection) :
    Triple (Fresh (initialFrame (CopyState.new data oneshot) sigpipe)) (copyClient display seat sel)
      (fun ok cl => ok = true → Addressed sel data cl) (fun _ _ => True) := by
  have hstart := (start_spoke (fun _ => []) (copy_initial (CopyState.new data oneshot) sigpipe) display
    seat sel).conseq (fun _ h => h) (fun _ _ h => h.1) fun _ _ _ => trivial
  apply Triple.bind (Q := fun ok cl => ok = true → Addressed sel data cl)
  · apply Triple.bind hstart
    intro ok
    apply Triple.ite _ fun _ => Triple.pure _ fun _ _ => nofun
    intro hok
    apply Triple.bind (Q := fun _ cl => ∃ sg mg, Booted (dataFrame data) sg mg cl ∧
      (sel = .primary → ¬ min mg.version 2 < 2))
    · refine Triple.read _ fun cl h => ?_
      obtain ⟨sg, mg, h, hversion⟩ := h hok
      exact ⟨sg, mg, h.reframe (initialFrame_data h.frame), hversion⟩
    intro st
    apply Triple.ite fun _ => Triple.pure _ fun _ _ => nofun
    intro _
    apply Triple.bind (Q := fun _ => Addressed sel data)
    · rintro cl ⟨sg, mg, h, hversion⟩
      exact (announce_triple data sel).conseq (fun _ h => h)
        (fun _ _ h => ⟨sg, mg, _, _, h, hversion⟩) (fun _ _ h => h) cl h
    intro _
    apply Triple.bind flush_addressed.returns
    exact fun _ => Triple.pure _ fun _ h _ => h
  intro ok
  apply Triple.ite _ fun _ => Triple.pure _ fun _ _ => nofun
  intro hok
  apply Triple.bind (Q := fun _ => Addressed sel data)
  · exact (dispatchUntil_addressed CopyState.done).conseq (fun _ h => h hok) (fun _ _ h => h)
      fun _ _ _ => trivial
  intro ok
  apply Triple.bind (Q := fun _ => Addressed sel data) (Triple.read _ fun _ h => h)
  exact fun _ => Triple.pure _ fun _ h _ => h

/-- What a copy has written: a part of the script for its manager, and, if it succeeds, the whole of
it for a manager that can address the selection. -/
def CopyWrote (sel : Selection) (mimes : List Text) (ok : Bool) (p : Process) : Prop :=
  (∃ sg mg rs, p.written = spell rs ∧
    rs <+: bootScript sg mg ++ copyRest sel mimes (min mg.version 2)) ∧
    (ok = true → ∃ sg mg, p.written = spell (bootScript sg mg ++ announceScript sel mimes) ∧
      (sel = .primary → ¬ min mg.version 2 < 2))

theorem copy_wrote (display seat : Text) (sel : Selection) (data : CopyData) (oneshot : Bool) :
    Triple (fun p => p.trace = []) (HandcraftedBackend.copy display seat sel data oneshot)
      (CopyWrote sel data.mimeTypes) (fun _ => CopyWrote sel data.mimeTypes false) := by
  apply Client.run_triple
  · rintro _ ⟨p, hp, rfl⟩
    refine ((copyClient_spoken display seat sel).and (copyClient_addressed display seat sel)).conseq
      (fun _ h => h) ?_ ?_ _ ⟨fresh_new p data oneshot hp, fresh_new p data oneshot hp⟩
    · rintro ok cl ⟨⟨sg, mg, rs, n, ids, h, hrs⟩, haddressed⟩
      refine ⟨⟨sg, mg, rs, h.written, hrs⟩, fun hok => ?_⟩
      obtain ⟨sg, mg, n, ids, h, hversion⟩ := haddressed hok
      exact ⟨sg, mg, h.written, hversion⟩
    · rintro e cl ⟨⟨sg, mg, rs, n, ids, h, hrs⟩, -⟩
      exact ⟨⟨sg, mg, rs, h.written, hrs⟩, nofun⟩
  · intro ok p p' hlogs h
    have hwritten : p'.written = p.written := hlogs.observe_eq fun _ ha => ha.io.written
    rw [CopyWrote, hwritten]
    exact h

theorem CopyWrote.isolated {mimes : List Text} {ok : Bool} {p : Process} {r : Except Halt Bool}
    (h : CopyWrote sel mimes ok p) (hr : r = .ok true → ok = true) : Isolated sel r p := by
  obtain ⟨⟨sg, mg, rs, hwritten, hrs⟩, hok⟩ := h
  have hfull := copyRest_cut hrs
  have hsub : ∀ a ∈ p.trace, ∀ bytes ∈ a.written, bytes ∈ spell rs := fun a ha bytes hbytes =>
    hwritten ▸ List.mem_flatMap.mpr ⟨a, ha, hbytes⟩
  have hmono : ∀ {rs' : Script}, rs <+: rs' → ∀ bytes ∈ spell rs, bytes ∈ spell rs' :=
    fun hcut bytes hbytes => (hcut.map _).subset hbytes
  refine ⟨8, ?_, ⟨?_, fun hnot => ?_⟩⟩
  · intro d hd
    rw [hwritten] at hd
    exact newDevice_announce d (((hfull.map _).filterMap newDevice).subset hd)
  · refine (dialect 8).confined_of_set fun a ha c hc => ?_
    obtain ⟨bytes, hbytes, hc⟩ := List.mem_flatMap.mp hc
    exact contacts_announce bytes (hmono hfull bytes (hsub a ha bytes hbytes)) c hc
  · simp only [not_forall, not_not] at hnot
    obtain ⟨hsel, v, hv, hlow⟩ := hnot
    rw [boundVersion, hwritten, Option.mem_def] at hv
    have hversion := boundVersion_prefix hrs hv
    constructor
    · intro htrue
      obtain ⟨sg', mg', hwritten', haddressed⟩ := hok (hr htrue)
      rw [← hwritten, hwritten'] at hv
      have hversion' := boundVersion_prefix List.prefix_rfl hv
      exact haddressed hsel (hversion' ▸ hlow)
    · have hnone : copyRest sel mimes (min mg.version 2) = [] := if_pos ⟨hsel, hversion ▸ hlow⟩
      rw [hnone, List.append_nil] at hrs
      have hquiet : (dialect 8).Quiet p.trace := fun a ha => List.flatMap_eq_nil_iff.mpr
        fun bytes hbytes => contacts_boot (by decide) bytes
          (hmono (hrs.trans (List.prefix_append _ _)) bytes (hsub a ha bytes hbytes))
      exact hquiet.unchanged

end Copy

/-! ## A paste -/

theorem quiet_boot {log : List Action} {rs : Script} (h : log.flatMap Action.written = spell rs)
    (hrs : rs <+: bootScript sg mg ++ deviceScript) : (dialect 7).Quiet log := by
  refine fun a ha => List.flatMap_eq_nil_iff.mpr fun bytes hbytes => ?_
  have hmem : bytes ∈ spell rs := h ▸ List.mem_flatMap.mpr ⟨a, ha, hbytes⟩
  exact contacts_boot (UInt32.le_refl 7) bytes ((hrs.map _).subset hmem)

theorem newDevice_device {rs : Script} (h : rs <+: bootScript sg mg ++ deviceScript) :
    ∀ d ∈ (spell rs).filterMap newDevice, d = 7 := by
  intro d hd
  have hall : d ∈ (spell (bootScript sg mg ++ deviceScript)).filterMap newDevice :=
    ((h.map _).filterMap newDevice).subset hd
  rw [spell_append, List.filterMap_append, newDevice_boot, List.nil_append] at hall
  exact List.mem_singleton.mp hall

theorem newDevice_receive (offer : UInt32) (mime : Text) :
    newDevice ((Request.receive mime).encode offer) = none := by
  rw [newDevice_encode, if_neg]
  simp [Request.opcode, Zdco.kReqReceive, Zdcm.kReqGetDataDevice]

/-- What a paste has written: what `Asked` says, or it has failed with a part of the script for its
manager. -/
def PasteWrote (sel : Selection) (ok : Bool) (p : Process) : Prop :=
  Asked sel p.trace ∨ ok = false ∧ ∃ sg mg rs, p.written = spell rs ∧
    rs <+: bootScript sg mg ++ pasteRest sel (min mg.version 2)

theorem paste_wrote (display seat : Text) (sel : Selection) (preferMime : Text) (listOnly : Bool) :
    Triple (fun p => p.trace = []) (HandcraftedBackend.paste display seat sel preferMime listOnly)
      (fun r => PasteWrote sel r.1) (fun _ => PasteWrote sel false) := by
  have hspoken : ∀ ok (cl : Client PasteState), PasteSpoken sel ok cl →
      PasteWrote sel ok cl.toProcess := fun ok cl h =>
    h.imp_right fun ⟨hok, sg, mg, rs, n, ids, hcl, hrs⟩ => ⟨hok, sg, mg, rs, hcl.written, hrs⟩
  apply Client.run_triple
  · rintro _ ⟨p, hp, rfl⟩
    exact (pasteClient_spoken display seat sel preferMime listOnly).conseq (fun _ h => h)
      (fun _ _ h => hspoken _ _ h) (fun _ _ h => hspoken _ _ h) _ (fresh_start p rfl hp)
  · intro r p p' hlogs h
    have hwritten : p'.written = p.written := hlogs.observe_eq fun _ ha => ha.io.written
    obtain ⟨log, htrace, -, hsilent⟩ := hlogs.log
    rcases h with h | h
    · rw [PasteWrote, htrace]
      exact .inl (h.append (List.flatMap_eq_nil_iff.mpr fun a ha => (hsilent a ha).io.written))
    · rw [PasteWrote, hwritten]
      exact .inr h

theorem addresses_device {p : Process} {rest : List (List UInt8)}
    (hwritten : p.written = spell (bootScript sg mg ++ deviceScript) ++ rest)
    (hversion : sel = .primary → ¬ min mg.version 2 < 2) :
    sel = .primary → ∀ v ∈ boundVersion p, ¬ v < 2 := by
  intro hsel v hv
  rw [boundVersion, hwritten, spell_append, List.append_assoc, boundVersion_boot] at hv
  exact Option.some.inj hv ▸ hversion hsel

theorem Asked.isolated {p : Process} (h : Asked sel p.trace) (r : Except Halt Bool) :
    Isolated sel r p := by
  generalize hlog : p.trace = log at h
  have hwritten : p.written = log.flatMap Action.written := congrArg (·.flatMap Action.written) hlog
  cases h with
  | device h =>
      obtain ⟨sg, mg, hqueued, hversion⟩ := h
      refine ⟨7, ?_, hlog.symm ▸ (quiet_boot hqueued List.prefix_rfl).isolated fun hnot => ?_⟩
      · rw [hwritten, hqueued]
        exact newDevice_device List.prefix_rfl
      · have hspelled : p.written = spell (bootScript sg mg ++ deviceScript) ++ [] := by
          rw [hwritten, hqueued, List.append_nil]
        exact absurd (addresses_device hspelled hversion) hnot
  | @offer before after offer mime h hnamed hother hafter =>
      obtain ⟨sg, mg, hqueued, hversion⟩ := h
      have hspelled : p.written = spell (bootScript sg mg ++ deviceScript) ++
          [(Request.receive mime).encode offer] := by
        rw [hwritten, List.flatMap_append, List.flatMap_cons, hqueued, hafter]
        rfl
      have hquiet : (dialect 7).Quiet after := fun a ha => by
        have hnone := List.flatMap_eq_nil_iff.mp hafter a ha
        change a.written.flatMap (contacts 7) = []
        rw [hnone]
        rfl
      refine ⟨7, ?_, ?_, fun hnot =>
        absurd (addresses_device hspelled hversion) hnot⟩
      · rw [hspelled, List.filterMap_append]
        intro d hd
        rcases List.mem_append.mp hd with hd | hd
        · exact newDevice_device List.prefix_rfl d hd
        · rw [List.filterMap_cons_none (newDevice_receive offer mime)] at hd
          cases hd
      · rw [hlog, (quiet_boot hqueued List.prefix_rfl).confined_append]
        refine ⟨fun c hc => ?_, hquiet.confined⟩
        have hread : c ∈ contacts 7 ((Request.receive mime).encode offer) := by
          simpa [dialect, Action.written] using hc
        rw [contacts_receive hother mime c hread]
        obtain ⟨payload, hmem, hoffer⟩ := hnamed
        exact ⟨_, hmem, rfl, rfl, hoffer⟩

theorem PasteWrote.isolated {ok : Bool} {p : Process} {r : Except Halt Bool}
    (h : PasteWrote sel ok p) (hr : r = .ok true → ok = true) : Isolated sel r p := by
  rcases h with h | ⟨rfl, sg, mg, rs, hwritten, hrs⟩
  · exact h.isolated r
  · have hdevice : rs <+: bootScript sg mg ++ deviceScript := by
      refine hrs.trans ((List.prefix_append_right_inj _).mpr ?_)
      unfold pasteRest
      split_ifs
      · exact List.nil_prefix
      · exact List.prefix_rfl
    refine ⟨7, ?_, (quiet_boot hwritten hdevice).isolated fun _ htrue => ?_⟩
    · rw [hwritten]
      exact newDevice_device hdevice
    · cases hr htrue

end Handcrafted

namespace HandcraftedBackend

open Handcrafted

theorem perform_isolated (display seat : Text) (sel : Selection) (op : Operation) :
    Triple (fun p => p.trace = []) (perform display seat sel op)
      (fun ok => Isolated sel (.ok ok)) (fun e => Isolated sel (.error e)) := by
  have hok : ∀ ok : Bool, Except.ok ok = (.ok true : Except Halt Bool) → ok = true :=
    fun _ => Except.ok.inj
  cases op with
  | copy data oneshot =>
      exact (copy_wrote display seat sel data oneshot).conseq (fun _ h => h)
        (fun ok _ h => h.isolated (hok ok)) fun _ _ h => h.isolated (fun htrue => by cases htrue)
  | paste preferMime listOnly =>
      apply Triple.bind
      · exact (paste_wrote display seat sel preferMime listOnly).conseq (fun _ h => h)
          (fun _ _ h => h) fun _ _ h => h.isolated (fun htrue => by cases htrue)
      · exact fun r => Triple.pure _ fun _ h => h.isolated (hok r.1)
  | clear =>
      intro p hp
      have hnone : (dialect 8).Quiet p.trace := hp.symm ▸ Dialect.quiet_nil
      have hwritten : p.written = [] := congrArg (·.flatMap Action.written) hp
      refine ⟨8, ?_, hnone.isolated fun _ => by simp⟩
      rw [hwritten]
      exact nofun

end HandcraftedBackend

/-! ## Every invocation -/

/-- An operation of a Wayland backend: on a connection of its own, or on one of libwayland. -/
inductive Invocation
  | handcrafted (display seat : Text) (p : Process)
  | libwayland (protocol : Protocol) (seat : SeatInfo) (s : State)

namespace Invocation

/-- The invocation sets, clears and reads no other selection than `sel`; where the version of the
manager bound cannot address `sel`, it fails and neither sets nor clears one. -/
def Isolated (sel : Selection) (op : Operation) : Invocation → Prop
  | .handcrafted display seat p =>
    let r := HandcraftedBackend.perform display seat sel op { p with trace := [] }
    Handcrafted.Isolated sel r.1 r.2
  | .libwayland protocol seat s => protocol.Isolated seat sel op s

/-- Clears the primary selection through a manager that is too old for it. -/
def ClearsTooOld (sel : Selection) (op : Operation) : Invocation → Prop
  | .handcrafted _ _ _ => False
  | .libwayland _ _ s =>
    op = .clear ∧ s.zwlrManager = true ∧ sel = .primary ∧ s.zwlrManagerVersion < 2

/-- An operation keeps to its selection exactly when it does not clear the primary one through a
manager that has no request for that. -/
theorem isolated_iff (inv : Invocation) (sel : Selection) (op : Operation) :
    inv.Isolated sel op ↔ ¬ inv.ClearsTooOld sel op := by
  cases inv with
  | handcrafted display seat p =>
      have hisolated := HandcraftedBackend.perform_isolated display seat sel op
      exact iff_of_true (hisolated.result rfl) id
  | libwayland protocol seat s => exact Protocol.perform_isolated protocol seat sel op s

/-- The connection to a compositor whose manager has version 1, which the client has bound. -/
def old : State :=
  (State.initialSync (State.new (.fresh [.displayRoundtrip [.global 1 kIfWlSeat 8,
    .global 2 kIfZwlrMgr 1] true, .displayRoundtrip [] true, .displayRoundtrip [] true]))).2

/-- There, clearing the primary selection clears the regular one. -/
theorem clear_not_isolated :
    ¬ (Invocation.libwayland .dataControl ⟨0, 1, 7, []⟩ old).Isolated .primary .clear := by
  intro h
  have hcleared := Protocol.clear_isolated_iff.mp h (by decide)
  exact absurd hcleared (by decide)

end Invocation

end WlClip
