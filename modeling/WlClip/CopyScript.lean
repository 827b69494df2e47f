import WlClip.HandcraftedScript

/-!
# What a copy sends

`HandcraftedBackend::copy` queues a prefix of the bootstrap followed by `announceScript`, and the
compositor accepts every such prefix: ids are introduced in order, each request is made of an
object of its interface, and the objects that it names exist.
-/

open ScriptedProgram ScriptedProgram.Prog

namespace WlClip

namespace Handcrafted

def setSelection (sel : Selection) (source : UInt32) : Request :=
  if sel = .primary then .setPrimarySelection source else .setSelection source

theorem Spoken.logs {σ : Type} [HasSession σ] {F : Frame σ} {rest : UInt32 → Script}
    {cl cl' : Client σ} (h : Spoken F rest cl)
    (hlogs : Process.Logs Action.Io cl.toProcess cl'.toProcess) (hlocals : cl'.locals = cl.locals) :
    Spoken F rest cl' := by
  obtain ⟨sg, mg, rs, n, ids, h, hrs⟩ := h
  exact ⟨sg, mg, rs, n, ids, h.logs hlogs hlocals, hrs⟩

theorem dispatchUntil_spoken {σ : Type} [HasSession σ] {F : Frame σ} {rest : UInt32 → Script}
    {d : Dispatcher σ} (hd : Undisturbing F d) (predicate : σ → Bool) :
    Keeps (Spoken F rest) (Client.dispatchUntil predicate d) := by
  rintro cl ⟨sg, mg, rs, n, ids, h, hrs⟩
  exact (dispatchUntil_scripted hd predicate).conseq (fun _ h => h)
    (fun _ _ h => ⟨sg, mg, rs, n, ids, h.1, hrs⟩) (fun _ _ h => ⟨sg, mg, rs, n, ids, h, hrs⟩) cl h

/-- From `create_data_source` to `set_selection`, for the ids of a client that has booted. -/
def announceScript (sel : Selection) (mimes : List Text) : Script :=
  [(5, .createDataSource 7), (5, .getDataDevice 8 4)] ++ mimes.map (fun m => (7, .offer m)) ++
    [(8, setSelection sel 7)]

/-- A manager that cannot address the selection is asked for nothing. -/
def copyRest (sel : Selection) (mimes : List Text) (version : UInt32) : Script :=
  if sel = .primary ∧ version < 2 then [] else announceScript sel mimes

section Announce

variable {F : Frame CopyState} {rs : Script} {n : UInt32} {ids : Ids}
  {H : Halt → Client CopyState → Prop}

theorem setState_triple (f : CopyState → CopyState)
    (hids : ∀ st, (session (f st)).ids = (session st).ids)
    (hg : ∀ st, (session (f st)).g = (session st).g)
    (hF : ∀ objects st log, F.holds objects st log → F.holds objects (f st) log) :
    Triple (Scripted F rs n ids) (Client.setState f) (fun _ => Scripted F rs n ids) H :=
  fun cl h => ⟨h.written, h.told, h.nextId, (hids cl.st).trans h.ids, hF _ _ _ h.frame, h.registry,
    fun g hmem => h.seats g (hg cl.st ▸ hmem), fun g hmem => h.managers g (hg cl.st ▸ hmem)⟩

theorem sendOffers_triple (source : UInt32) (mimes : List Text) :
    Triple (Scripted F rs n ids) (sendOffers source mimes)
      (fun _ => Scripted F (rs ++ mimes.map fun m => (source, .offer m)) n ids) H := by
  induction mimes generalizing rs with
  | nil => exact Triple.pure _ fun cl h => by simpa using h
  | cons m mimes ih =>
      refine Triple.bind (send_triple (r := .offer m) rfl nofun) fun _ => ?_
      exact ih.conseq (fun _ h => h) (fun _ cl h => by simpa using h) fun _ _ h => h

theorem announce_triple (data : CopyData) (sel : Selection) {sg : SeatGlobal} {mg : ManagerGlobal} :
    Triple (Booted (dataFrame data) sg mg) (announce sel)
      (fun _ => Scripted (dataFrame data) (bootScript sg mg ++ announceScript sel data.mimeTypes) 9
        ⟨2, 4, 5, min mg.version 2⟩) H := by
  refine Triple.bind allocId_triple fun source => Triple.assume fun hsource => ?_
  subst hsource
  refine Triple.bind (setState_triple _ (fun _ => rfl) (fun _ => rfl) fun _ _ _ h => h) fun _ =>
    Triple.bind (registerObject_frame nofun fun _ _ _ h => h) fun _ => ?_
  refine Triple.bind (Q := fun (st : CopyState) cl => ((session st).ids = ⟨2, 4, 5, min mg.version 2⟩ ∧
      st.data = data) ∧ Scripted (dataFrame data) (bootScript sg mg) 8 ⟨2, 4, 5, min mg.version 2⟩ cl)
    (Triple.read _ fun cl h => ⟨⟨h.ids, h.frame⟩, h⟩) fun st => Triple.assume ?_
  rintro ⟨hids, hdata⟩
  have hmanager : st.managerId = 5 := congrArg Ids.managerId hids
  have hseat : st.seatId = 4 := congrArg Ids.seatId hids
  rw [hmanager, hseat, hdata]
  refine Triple.bind (send_triple (r := .createDataSource 7) rfl nofun) fun _ =>
    Triple.bind allocId_triple fun device => Triple.assume fun hdevice => ?_
  subst hdevice
  refine Triple.bind (setState_triple _ (fun _ => rfl) (fun _ => rfl) fun _ _ _ h => h) fun _ =>
    Triple.bind (registerObject_frame nofun fun _ _ _ h => h) fun _ =>
    Triple.bind (send_triple (r := .getDataDevice 8 4) rfl nofun) fun _ =>
    Triple.bind (sendOffers_triple 7 data.mimeTypes) fun _ => ?_
  have hw : ((Writer.new 8 (setSelectionOpcode sel)).u32 7).finalize =
      (setSelection sel 7).encode 8 := by cases sel <;> rfl
  refine (send_triple hw ?_).conseq (fun cl h => h) (fun _ cl h => ?_) fun _ _ h => h
  · cases sel <;> nofun
  · simpa [announceScript] using h

/-- What a client looks like that has announced its source: nothing was served or cancelled. -/
structure Ready (data : CopyData) (oneshot : Bool) (sigpipe : SigDisposition)
    (cl : Client CopyState) : Prop where
  source : ∀ id, cl.objects id = .source ↔ id = 7
  st : withSession .new cl.st = { CopyState.new data oneshot with sourceId := 7 }
  background : cl.background = ⟨[], sigpipe⟩

variable {data : CopyData} {oneshot : Bool} {sigpipe : SigDisposition}

theorem Ready.locals {cl cl' : Client CopyState} (h : Ready data oneshot sigpipe cl)
    (hlocals : cl'.locals = cl.locals) (hbackground : cl'.background = cl.background) :
    Ready data oneshot sigpipe cl' := by
  have hobjects : cl'.objects = cl.objects :=
    congrArg (fun l : Client.Local CopyState => l.1) hlocals
  have hst : cl'.st = cl.st := congrArg (fun l : Client.Local CopyState => l.2.2) hlocals
  exact ⟨by rw [hobjects]; exact h.source, by rw [hst]; exact h.st,
    hbackground.trans h.background⟩

theorem send_ready (w : Writer) :
    Triple (Ready data oneshot sigpipe) (send w) (fun _ => Ready data oneshot sigpipe) H :=
  fun cl h => h.locals rfl (background_queue cl.toProcess w.finalize)

theorem sendOffers_ready (source : UInt32) (mimes : List Text) :
    Triple (Ready data oneshot sigpipe) (sendOffers source mimes)
      (fun _ => Ready data oneshot sigpipe) H := by
  induction mimes with
  | nil => exact Triple.pure _ fun _ h => h
  | cons m mimes ih => exact Triple.bind (send_ready _) fun _ => ih

theorem announce_ready (sel : Selection) :
    Triple (fun cl => cl.nextId = 7 ∧
        Initial (CopyState.new data oneshot) sigpipe cl.objects cl.st cl.background) (announce sel)
      (fun _ => Ready data oneshot sigpipe) H := by
  refine Triple.bind (Q := fun id cl => id = 7 ∧ cl.nextId = 8 ∧
      Initial (CopyState.new data oneshot) sigpipe cl.objects cl.st cl.background)
    (fun cl h => ⟨h.1, congrArg (· + 1) h.1, h.2⟩) fun source => Triple.assume fun hsource => ?_
  subst hsource
  refine Triple.bind (Q := fun _ cl => cl.nextId = 8 ∧ (∀ id, ¬ (cl.objects id).Special) ∧
      withSession .new cl.st = { CopyState.new data oneshot with sourceId := 7 } ∧
      cl.background = ⟨[], sigpipe⟩)
    (fun cl h => ⟨h.1, h.2.objects,
      congrArg (fun st : CopyState => { st with sourceId := 7 }) h.2.st, h.2.background⟩) fun _ => ?_
  refine Triple.bind (Q := fun _ cl => cl.nextId = 8 ∧ Ready data oneshot sigpipe cl) ?_ fun _ => ?_
  · refine fun cl h => ⟨h.1, fun id => ?_, h.2.2.1, h.2.2.2⟩
    change (if id = 7 then ObjKind.source else cl.objects id) = .source ↔ id = 7
    split_ifs with hid
    · simp [hid]
    · exact ⟨fun hs => absurd (.inl hs) (h.2.1 id), fun h7 => absurd h7 hid⟩
  refine Triple.bind (Q := fun _ cl => cl.nextId = 8 ∧ Ready data oneshot sigpipe cl)
    (Triple.read _ fun cl h => h) fun st => ?_
  refine Triple.bind (Q := fun _ cl => cl.nextId = 8 ∧ Ready data oneshot sigpipe cl)
    (fun cl h => ⟨h.1, h.2.locals rfl (background_queue cl.toProcess _)⟩) fun _ => ?_
  refine Triple.bind (Q := fun id cl => id = 8 ∧ Ready data oneshot sigpipe cl)
    (fun cl h => ⟨h.1, h.2.source, h.2.st, h.2.background⟩) fun device =>
    Triple.assume fun hdevice => ?_
  subst hdevice
  refine Triple.bind (Q := fun _ => Ready data oneshot sigpipe)
    (fun cl h => ⟨h.source, h.st, h.background⟩) fun _ => ?_
  refine Triple.bind (Q := fun _ => Ready data oneshot sigpipe) ?_ fun _ =>
    Triple.bind (send_ready _) fun _ =>
    Triple.bind (sendOffers_ready _ _) fun _ => send_ready _
  refine fun cl h => ⟨fun id => ?_, h.st, h.background⟩
  change (if id = 8 then ObjKind.device else cl.objects id) = .source ↔ id = 7
  split_ifs with hid
  · simp [hid]
  · exact h.source id

/-- What is queued when the setup of a copy returns, and what the client looks like. -/
def SetUp (sel : Selection) (data : CopyData) (oneshot : Bool) (sigpipe : SigDisposition)
    (ok : Bool) (cl : Client CopyState) : Prop :=
  (ok = true → Ready data oneshot sigpipe cl) ∧
    Spoken (dataFrame data) (copyRest sel data.mimeTypes) cl

theorem initialFrame_data {init : CopyState} {cl : Client CopyState}
    (h : Initial init sigpipe cl.objects cl.st cl.background) : cl.st.data = init.data := by
  have hdata := congrArg CopyState.data h.st
  exact hdata

theorem Spoken.reframe {init : CopyState} {rest : UInt32 → Script} {cl : Client CopyState}
    (h : Spoken (initialFrame init sigpipe) rest cl) : Spoken (dataFrame init.data) rest cl := by
  obtain ⟨sg, mg, rs, n, ids, h, hrs⟩ := h
  exact ⟨sg, mg, rs, n, ids, h.reframe (initialFrame_data h.frame), hrs⟩

theorem announce_setUp (sel : Selection) {sg : SeatGlobal}
    {mg : ManagerGlobal} (hversion : sel = .primary → ¬ min mg.version 2 < 2) :
    Triple (Booted (initialFrame (CopyState.new data oneshot) sigpipe) sg mg) (announce sel)
      (fun _ => SetUp sel data oneshot sigpipe true) H := by
  refine Triple.conseq ((announce_triple (H := H) data sel).and (announce_ready (H := H) sel))
    (fun cl h => ⟨h.reframe (initialFrame_data h.frame), h.nextId, h.frame⟩)
    (fun _ cl h => ⟨fun _ => h.2, sg, mg, _, _, _, h.1, ?_⟩) ?_
  · have hrest : copyRest sel data.mimeTypes (min mg.version 2) = announceScript sel data.mimeTypes :=
      if_neg fun hlow => hversion hlow.1 hlow.2
    exact ⟨[], by rw [hrest, List.append_nil]⟩
  · exact fun _ _ h => h.1

theorem copySetup_triple (display seat : Text) (sel : Selection) :
    Triple (Fresh (initialFrame (CopyState.new data oneshot) sigpipe)) (copySetup display seat sel)
      (SetUp sel data oneshot sigpipe)
      (fun _ => Spoken (dataFrame data) (copyRest sel data.mimeTypes)) := by
  refine Triple.bind ((start_spoke (copyRest sel data.mimeTypes) (copy_initial _ _) display seat
    sel).conseq (fun _ h => h) (fun _ _ h => h) fun _ cl h => h.reframe) fun ok =>
    Triple.ite (fun hok => ?_) fun _ => Triple.pure _ fun _ h => ⟨nofun, h.2.reframe⟩
  refine Triple.bind (Q := fun _ cl => ∃ sg mg,
    Booted (initialFrame (CopyState.new data oneshot) sigpipe) sg mg cl ∧
      (sel = .primary → ¬ min mg.version 2 < 2)) (Triple.read _ fun cl h => h.1 hok) fun st =>
    Triple.ite (fun _ => Triple.pure _ ?_) fun _ => ?_
  · rintro cl ⟨sg, mg, h, -⟩
    exact ⟨nofun, (booted_spoken sg mg h).reframe⟩
  · refine Triple.bind (Q := fun _ => SetUp sel data oneshot sigpipe true) ?_ fun _ => ?_
    · rintro cl ⟨sg, mg, h, hversion⟩
      exact announce_setUp sel hversion cl h
    · refine Triple.bind (Q := fun _ => SetUp sel data oneshot sigpipe true)
        (((Client.onConn_within Connection.flush_keepsInput).keeps ?_).conseq (fun _ h => h)
          (fun _ _ h => h) fun _ _ h => h.2) fun _ => Triple.pure _ fun _ h => h
      exact fun cl cl' h hcl => ⟨fun hok => (hcl.1 hok).locals h.2
        (h.1.quiet.logs.background_eq), hcl.2.logs h.1.quiet.logs h.2⟩

/-- However the copy returns or halts, a part of its script is all that it queued. -/
theorem copyClient_spoken (display seat : Text) (sel : Selection) :
    Triple (Fresh (initialFrame (CopyState.new data oneshot) sigpipe)) (copyClient display seat sel)
      (fun _ => Spoken (dataFrame data) (copyRest sel data.mimeTypes))
      (fun _ => Spoken (dataFrame data) (copyRest sel data.mimeTypes)) := by
  refine Triple.bind (copySetup_triple display seat sel) fun ok =>
    Triple.ite (fun _ => ?_) fun _ => Triple.pure _ fun _ h => h.2
  exact Triple.bind ((dispatchUntil_spoken (copy_undisturbing data) CopyState.done).pre
    fun _ h => h.2) fun ok => Triple.bind (Triple.read _ fun _ h => h) fun st =>
    Triple.pure _ fun _ h => h

end Announce

theorem fresh_start {σ : Type} [HasSession σ] (p : Process) {init : σ}
    (hinit : session init = .new) (hp : p.trace = []) :
    Fresh (initialFrame init p.sigpipe) (Client.new p init) where
  written := by simp [Client.new, Connection.new, Process.written, Process.observe, hp]
  told target name interface version id h := by cases h
  nextId := rfl
  ids := congrArg Session.ids hinit
  frame := ⟨fun id h => by simp [Client.new, ObjKind.Special] at h, rfl,
    by simp [Client.new, Connection.new, Process.background, Process.begun, Process.observe, hp]⟩
  registry id h := by cases h
  seats g h := by
    have hseats := congrArg (fun s : Session => s.g.seats) hinit
    cases hseats ▸ h
  managers g h := by
    have hmanagers := congrArg (fun s : Session => s.g.managers) hinit
    cases hmanagers ▸ h

theorem fresh_new (p : Process) (data : CopyData) (oneshot : Bool) (hp : p.trace = []) :
    Fresh (initialFrame (CopyState.new data oneshot) p.sigpipe)
      (Client.new p (CopyState.new data oneshot)) := fresh_start p rfl hp

/-! ## What the compositor makes of it -/

open Message (framing)

def messages (rs : Script) : List Message := rs.map fun a => a.2.message a.1

theorem encodes_eq {rs : Script} (h : ∀ a ∈ rs, a.2.Fits) :
    encodes rs = framing.stream (messages rs) := by
  induction rs with
  | nil => rfl
  | cons a rs ih =>
      have htail := ih fun b hb => h b (List.mem_cons_of_mem a hb)
      have hhead := Request.encode_eq a.1 (h a List.mem_cons_self)
      change a.2.encode a.1 ++ encodes rs = _
      rw [htail, hhead]
      rfl

/-- The script is accepted from its table of objects on. -/
def Accepted (t : ObjectTable) (rs : Script) : Prop :=
  (∀ a ∈ rs, a.2.Fits) ∧ t.session (messages rs) = some rs

theorem Accepted.cons {t t' : ObjectTable} {target : UInt32} {r : Request} {rs : Script}
    (h : Accepted t' rs) (hfits : r.Fits) (htarget : t.interfaces target = some r.interface)
    (hstep : t.step r = some t') : Accepted t ((target, r) :: rs) := by
  refine ⟨List.forall_mem_cons.mpr ⟨hfits, h.1⟩, ?_⟩
  change t.session (r.message target :: messages rs) = _
  rw [ObjectTable.session_cons hfits htarget hstep, h.2]
  rfl

theorem Accepted.cut {t : ObjectTable} {rs rs' : Script} (h : Accepted t rs)
    (hrs : rs' <+: rs) : Accepted t rs' := by
  refine ⟨fun a ha => h.1 a (hrs.subset ha), ?_⟩
  obtain ⟨rest, rfl⟩ := hrs
  have hsession := h.2
  rw [messages, List.map_append] at hsession
  have hcut := ObjectTable.session_prefix hsession
  rwa [List.length_map, List.take_left] at hcut

theorem decode_encodes {rs : Script} (h : Accepted .initial rs) :
    ObjectTable.decode (encodes rs) = some rs := by
  rw [encodes_eq h.1, ObjectTable.decode_stream, h.2]

theorem pad4_lt (n : ℕ) : pad4 n < n + 4 := by
  unfold pad4
  omega

theorem fits_bind {interface : Text} (h : interface.length ≤ 60000)
    (name version id : UInt32) : (Request.bind name interface version id).Fits := by
  have hpad := pad4_lt (interface.length + 1)
  have hlen := length_str_bytes interface
  have hword : ∀ v, (Arg.u32 v).bytes.length = 4 := fun _ => rfl
  simp only [Request.Fits, Request.args, List.flatMap_cons, List.flatMap_nil, List.length_append,
    hlen, hword, List.length_nil]
  omega

theorem fits_offer {m : Text} (h : m.length ≤ 65519) : (Request.offer m).Fits := by
  have hpad := pad4_mod (m.length + 1)
  have hlt := pad4_lt (m.length + 1)
  have hlen := length_str_bytes m
  simp only [Request.Fits, Request.args, List.flatMap_singleton, hlen]
  omega

theorem accepted_offers {t : ObjectTable} {source : UInt32} {mimes : List Text} {rest : Script}
    (hsource : t.interfaces source = some .source) (hmimes : ∀ m ∈ mimes, m.length ≤ 65519)
    (h : Accepted t rest) : Accepted t (mimes.map (fun m => (source, .offer m)) ++ rest) := by
  induction mimes with
  | nil => exact h
  | cons m mimes ih =>
      have htail := ih fun m' hm' => hmimes m' (List.mem_cons_of_mem m hm')
      exact htail.cons (fits_offer (hmimes m List.mem_cons_self)) hsource rfl

/-- The objects of a client that has booted. -/
def bootTable : ObjectTable :=
  ((((ObjectTable.initial.insert 2 .registry).insert 3 .callback).insert 4 .seat).insert 5
    .manager).insert 6 .callback

theorem accepted_boot {rest : Script} (sg : SeatGlobal) (mg : ManagerGlobal)
    (h : Accepted bootTable rest) : Accepted .initial (bootScript sg mg ++ rest) := by
  have hseat : kIfWlSeat.length ≤ 60000 := by decide
  have hmanager : kIfZwlrMgr.length ≤ 60000 := by decide
  refine Accepted.cons ?_ (by decide) rfl rfl
  refine Accepted.cons ?_ (by decide) rfl rfl
  refine Accepted.cons ?_ (fits_bind hseat _ _ _) rfl rfl
  refine Accepted.cons ?_ (fits_bind hmanager _ _ _) rfl rfl
  exact Accepted.cons h (by decide) rfl rfl

theorem accepted_announce (sel : Selection) {mimes : List Text}
    (hmimes : ∀ m ∈ mimes, m.length ≤ 65519) : Accepted bootTable (announceScript sel mimes) := by
  refine Accepted.cons (r := .createDataSource 7) ?_ (by decide) rfl rfl
  refine Accepted.cons (r := .getDataDevice 8 4) ?_ (by decide) rfl rfl
  refine accepted_offers rfl hmimes ?_
  cases sel with
  | regular => exact Accepted.cons ⟨nofun, rfl⟩ (by decide) rfl rfl
  | primary => exact Accepted.cons ⟨nofun, rfl⟩ (by decide) rfl rfl

/-! ## The script of a copy -/

/-- The bytes queued are the encoding of a part of the script; the compositor reads that part in
them, and every global bound was announced with at least the version bound. -/
def Speaks (sel : Selection) (mimes : List Text) (p : Process) : Prop :=
  ∃ sg mg rs, rs <+: bootScript sg mg ++ announceScript sel mimes ∧
    ObjectTable.decode p.queued = some rs ∧ Told p.dispatched rs

theorem copyRest_cut {sel : Selection} {mimes : List Text} {rs : Script} {sg : SeatGlobal}
    {mg : ManagerGlobal} {version : UInt32}
    (hrs : rs <+: bootScript sg mg ++ copyRest sel mimes version) :
    rs <+: bootScript sg mg ++ announceScript sel mimes := by
  refine hrs.trans ((List.prefix_append_right_inj _).mpr ?_)
  unfold copyRest
  split_ifs
  · exact List.nil_prefix
  · exact List.prefix_rfl

theorem Spoken.speaks {data : CopyData} {sel : Selection} {cl : Client CopyState}
    (hmimes : ∀ m ∈ data.mimeTypes, m.length ≤ 65519)
    (h : Spoken (dataFrame data) (copyRest sel data.mimeTypes) cl) :
    Speaks sel data.mimeTypes cl.toProcess := by
  obtain ⟨sg, mg, rs, n, ids, h, hrs⟩ := h
  have hfull := copyRest_cut hrs
  refine ⟨sg, mg, rs, hfull, ?_, h.told⟩
  rw [h.queued]
  exact decode_encodes ((accepted_boot sg mg (accepted_announce sel hmimes)).cut hfull)

theorem Speaks.logs {sel : Selection} {mimes : List Text} {p p' : Process}
    (h : Speaks sel mimes p) (hlogs : Process.Logs Action.Silent p p') : Speaks sel mimes p' := by
  have hqueued : p'.queued = p.queued := hlogs.observe_eq fun _ ha => ha.io.queued
  have hdispatched : p'.dispatched = p.dispatched := hlogs.observe_eq fun _ ha => ha.io.dispatched
  unfold Speaks
  rw [hqueued, hdispatched]
  exact h

end Handcrafted

namespace HandcraftedBackend

open Handcrafted

/-- Whatever a copy is sent, and whether it returns, halts or is still running, it has queued a
part of the one script of requests, and the compositor accepts it. -/
theorem copy_speaks (display seat : Text) (sel : Selection) (data : CopyData) (oneshot : Bool)
    (hmimes : ∀ m ∈ data.mimeTypes, m.length ≤ 65519) :
    Triple (fun p => p.trace = []) (copy display seat sel data oneshot)
      (fun _ => Speaks sel data.mimeTypes) (fun _ => Speaks sel data.mimeTypes) := by
  refine Client.run_triple ?_ fun _ _ _ hlogs h => h.logs hlogs
  rintro _ ⟨p, hp, rfl⟩
  exact (copyClient_spoken display seat sel).conseq (fun _ h => h) (fun _ _ h => h.speaks hmimes)
    (fun _ _ h => h.speaks hmimes) _ (fresh_new p data oneshot hp)

/-- The theorem at a copy of one short type. -/
theorem copy_speaks_plain :
    Triple (fun p => p.trace = [])
      (copy [] [] .regular ⟨[0x68, 0x69], [text "text/plain"]⟩ false)
      (fun _ => Speaks .regular [text "text/plain"])
      (fun _ => Speaks .regular [text "text/plain"]) :=
  copy_speaks [] [] .regular ⟨[0x68, 0x69], [text "text/plain"]⟩ false (by decide)

end HandcraftedBackend

end WlClip
