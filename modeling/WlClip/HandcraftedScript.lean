import WlClip.Handcrafted

/-!
# The request script of the handcrafted backend

Whatever the compositor sends, the bytes that an operation queues are a prefix of one script of
requests. `Scripted` says which part of it was queued, which id comes next and what the fields of
the session hold; the dispatchers leave it alone, and each step of an operation extends it.
-/

open ScriptedProgram ScriptedProgram.Prog

namespace WlClip

/-- The fields that requests are made from. -/
structure Ids where
  registryId : UInt32
  seatId : UInt32
  managerId : UInt32
  managerVersion : UInt32

def Session.ids (s : Session) : Ids := ⟨s.g.registryId, s.seatId, s.managerId, s.managerVersion⟩

theorem Client.setKind_registry {σ : Type} {cl : Client σ} {id i : UInt32} {k : ObjKind}
    (hk : k ≠ .registry) (h : (cl.setKind id k).objects i = .registry) :
    cl.objects i = .registry := by
  simp only [Client.setKind] at h
  split_ifs at h
  · exact absurd h hk
  · exact h

namespace Handcrafted

abbrev Script := List (UInt32 × Request)

def encodes (rs : Script) : List UInt8 := rs.flatMap fun a => a.2.encode a.1

/-- The registry, object 2, announced a global. -/
def Announced (log : List Delivery) (interface : Text) (name version : UInt32) : Prop :=
  ∃ payload, (2, WlRegistry.kEvGlobal, payload) ∈ log ∧
    let r := Reader.new 2 WlRegistry.kEvGlobal payload
    r.u32.1 = name ∧ r.u32.2.str.1 = interface ∧ r.u32.2.str.2.u32.1 = version

theorem Announced.mono {log log' : List Delivery} {interface : Text} {name version : UInt32}
    (h : Announced log interface name version) (hlog : ∀ a ∈ log, a ∈ log') :
    Announced log' interface name version := by
  obtain ⟨payload, hmem, hread⟩ := h
  exact ⟨payload, hlog _ hmem, hread⟩

/-- Every bind names a global that was announced with at least the version bound. -/
def Told (log : List Delivery) (rs : Script) : Prop :=
  ∀ target name interface version id, (target, .bind name interface version id) ∈ rs →
    ∃ announced, version ≤ announced ∧ Announced log interface name announced

theorem Told.mono {log log' : List Delivery} {rs : Script} (h : Told log rs)
    (hlog : ∀ a ∈ log, a ∈ log') : Told log' rs := by
  intro target name interface version id hmem
  obtain ⟨announced, hle, hannounced⟩ := h target name interface version id hmem
  exact ⟨announced, hle, hannounced.mono hlog⟩

/-- A fact about the objects, the state and what was served that depends on neither the
session nor the objects that both operations have. -/
structure Frame (σ : Type) [HasSession σ] where
  holds : (UInt32 → ObjKind) → σ → Process.Background → Prop
  session : ∀ s objects st log, holds objects st log → holds objects (withSession s st) log
  object : ∀ id k objects st log, ¬ k.Special → holds objects st log →
    holds (fun i => if i = id then k else objects i) st log

/-- The requests `rs` are all that was queued, the next id is `n`, and every global that the
session holds was announced. -/
structure Scripted {σ : Type} [HasSession σ] (F : Frame σ) (rs : Script) (n : UInt32) (ids : Ids)
    (cl : Client σ) : Prop where
  written : cl.written = rs.map fun a => a.2.encode a.1
  told : Told cl.dispatched rs
  nextId : cl.nextId = n
  ids : (session cl.st).ids = ids
  frame : F.holds cl.objects cl.st cl.background
  registry : ∀ id, cl.objects id = .registry → id = 2
  seats : ∀ g ∈ (session cl.st).g.seats, Announced cl.dispatched kIfWlSeat g.name g.version
  managers : ∀ g ∈ (session cl.st).g.managers, Announced cl.dispatched kIfZwlrMgr g.name g.version

variable {σ : Type} [HasSession σ] {F : Frame σ} {rs : Script} {n : UInt32} {ids : Ids}
  {cl cl' : Client σ}

theorem Scripted.queued (h : Scripted F rs n ids cl) : cl.queued = encodes rs := by
  rw [Process.queued_eq, h.written]
  rfl

/-! ## What dispatching leaves alone -/

/-- What a dispatcher call does to a scripted client: it may only note a global that it was told. -/
structure Undisturbed (F : Frame σ) (obj : UInt32) (op : UInt16) (payload : List UInt8)
    (cl cl' : Client σ) : Prop where
  written : cl'.written = cl.written
  dispatched : cl'.dispatched = cl.dispatched
  nextId : cl'.nextId = cl.nextId
  ids : (session cl'.st).ids = (session cl.st).ids
  frame : F.holds cl'.objects cl'.st cl'.background
  registry : ∀ id, cl'.objects id = .registry → cl.objects id = .registry
  globals : (session cl'.st).g.seats = (session cl.st).g.seats ∧
      (session cl'.st).g.managers = (session cl.st).g.managers ∨
    cl.objects obj = .registry ∧ op = WlRegistry.kEvGlobal ∧
      let r := Reader.new obj op payload
      (session cl'.st).g =
        addGlobal r.u32.1 r.u32.2.str.1 r.u32.2.str.2.u32.1 (session cl.st).g

theorem Scripted.undisturbed {obj : UInt32} {op : UInt16} {payload : List UInt8}
    (h : Scripted F rs n ids cl) (hlog : (obj, op, payload) ∈ cl.dispatched)
    (hu : Undisturbed F obj op payload cl cl') : Scripted F rs n ids cl' := by
  refine ⟨hu.written.trans h.written, hu.dispatched ▸ h.told, hu.nextId.trans h.nextId,
    hu.ids.trans h.ids, hu.frame, fun id hid => h.registry id (hu.registry id hid), ?_, ?_⟩
    <;> rw [hu.dispatched] <;> rcases hu.globals with ⟨hseats, hmanagers⟩ | ⟨hobj, rfl, hg⟩
  · rw [hseats]
    exact h.seats
  · obtain rfl := h.registry obj hobj
    intro g hmem
    rw [hg, addGlobal] at hmem
    split_ifs at hmem with hseat hmgr
    · rcases List.mem_append.mp hmem with hmem | hmem
      · exact h.seats g hmem
      · obtain rfl := List.mem_singleton.mp hmem
        exact ⟨payload, hlog, rfl, hseat, rfl⟩
    · exact h.seats g hmem
    · exact h.seats g hmem
  · rw [hmanagers]
    exact h.managers
  · obtain rfl := h.registry obj hobj
    intro g hmem
    rw [hg, addGlobal] at hmem
    split_ifs at hmem with hseat hmgr
    · exact h.managers g hmem
    · rcases List.mem_append.mp hmem with hmem | hmem
      · exact h.managers g hmem
      · obtain rfl := List.mem_singleton.mp hmem
        exact ⟨payload, hlog, rfl, hmgr, rfl⟩
    · exact h.managers g hmem

theorem common_undisturbed (obj : UInt32) (op : UInt16) (payload : List UInt8)
    (hF : F.holds cl.objects cl.st cl.background) :
    Undisturbed F obj op payload cl (common obj op (.new obj op payload) cl) := by
  have hsame : Undisturbed F obj op payload cl cl :=
    ⟨rfl, rfl, rfl, rfl, hF, fun _ h => h, .inl ⟨rfl, rfl⟩⟩
  unfold common
  split
  · split_ifs
    · exact ⟨rfl, rfl, rfl, rfl, F.object _ _ _ _ _ (by simp [ObjKind.Special]) hF,
        fun _ h => Client.setKind_registry (by decide) h, .inl ⟨rfl, rfl⟩⟩
    · exact hsame
  · next hobj =>
    split_ifs with hop
    · refine ⟨rfl, rfl, rfl, ?_, F.session _ _ _ _ hF, fun _ h => h, .inr ⟨hobj, hop, ?_⟩⟩
      · simp only [onSession, session_withSession, Session.ids, addGlobal]
        split_ifs <;> rfl
      · simp only [onSession, session_withSession]
    · exact hsame
  · split_ifs
    · exact ⟨rfl, rfl, rfl, by simp [onSession, Session.ids], F.session _ _ _ _ hF, fun _ h => h,
        .inl ⟨by simp [onSession], by simp [onSession]⟩⟩
    · exact hsame
  · split_ifs
    · exact ⟨rfl, rfl, rfl, by simp [onSession, Session.ids], F.session _ _ _ _ hF, fun _ h => h,
        .inl ⟨by simp [onSession], by simp [onSession]⟩⟩
    · exact hsame
  · exact hsame

/-- A dispatcher that never disturbs a script. -/
def Undisturbing (F : Frame σ) (d : Dispatcher σ) : Prop :=
  ∀ obj op payload cl, F.holds cl.objects cl.st cl.background →
    Undisturbed F obj op payload cl (d.handle obj op (.new obj op payload) cl).2

def dataFrame (data : CopyData) : Frame CopyState where
  holds _ st _ := st.data = data
  session _ _ _ _ h := h
  object _ _ _ _ _ _ h := h

def noFrame : Frame PasteState where
  holds _ _ _ := True
  session _ _ _ _ h := h
  object _ _ _ _ _ _ h := h

/-- Nothing but the session has changed, the manager has made no object, and nothing was served. -/
structure Initial (init : σ) (sigpipe : SigDisposition) (objects : UInt32 → ObjKind) (st : σ)
    (b : Process.Background) : Prop where
  objects : ∀ id, ¬ (objects id).Special
  st : withSession .new st = withSession .new init
  background : b = ⟨[], sigpipe⟩

def initialFrame (init : σ) (sigpipe : SigDisposition) : Frame σ where
  holds := Initial init sigpipe
  session s objects st b h :=
    ⟨h.objects, by rw [withSession_withSession]; exact h.st, h.background⟩
  object id k objects st b hk h := by
    refine ⟨fun i => ?_, h.st, h.background⟩
    split_ifs
    · exact hk
    · exact h.objects i

/-- A dispatcher that treats objects of other managers' kinds as `common` does. -/
theorem initial_undisturbing {init : σ} {sigpipe : SigDisposition} {d : Dispatcher σ}
    (hd : ∀ obj op r (cl : Client σ), ¬ (cl.objects obj).Special →
      d.handle obj op r cl = (.ok (), common obj op r cl)) :
    Undisturbing (initialFrame init sigpipe) d := by
  intro obj op payload cl h
  rw [hd obj op _ cl (h.objects obj)]
  exact common_undisturbed obj op payload h

/-- Serving and counting leave all but the counters of a copy alone. -/
structure Serving (cl cl' : Client CopyState) : Prop where
  written : cl'.written = cl.written
  dispatched : cl'.dispatched = cl.dispatched
  nextId : cl'.nextId = cl.nextId
  objects : cl'.objects = cl.objects
  session : cl'.st.toSession = cl.st.toSession
  data : cl'.st.data = cl.st.data

instance : IsPreorder (Client CopyState) Serving where
  refl _ := ⟨rfl, rfl, rfl, rfl, rfl, rfl⟩
  trans _ _ _ h h' := ⟨h'.written.trans h.written, h'.dispatched.trans h.dispatched,
    h'.nextId.trans h.nextId, h'.objects.trans h.objects, h'.session.trans h.session,
    h'.data.trans h.data⟩

theorem Serving.undisturbed {data : CopyData} {obj : UInt32} {op : UInt16} {payload : List UInt8}
    {cl cl' : Client CopyState} (h : Serving cl cl') (hdata : cl.st.data = data) :
    Undisturbed (dataFrame data) obj op payload cl cl' where
  written := h.written
  dispatched := h.dispatched
  nextId := h.nextId
  ids := congrArg Session.ids h.session
  frame := h.data.trans hdata
  registry id hid := by rwa [h.objects] at hid
  globals := .inl ⟨congrArg (fun s : Session => s.g.seats) h.session,
    congrArg (fun s : Session => s.g.managers) h.session⟩

theorem cancel_serving (cl : Client CopyState) : Serving cl { cl with st := cancel cl.st } := by
  unfold cancel
  split_ifs <;> exact ⟨rfl, rfl, rfl, rfl, rfl, rfl⟩

theorem serveOn_serving (fd : Int) (data : List UInt8) : Within Serving (serveOn fd data) := by
  refine Within.ite (fun cl => ?_) (Within.pure _)
  have hlogs := Process.serveSend_logs fd data cl.toProcess
  have hwritten := hlogs.observe_eq (f := Action.written) fun _ h => h.io.written
  have hdispatched := hlogs.observe_eq (f := Action.dispatched) fun _ h => h.io.dispatched
  refine ⟨hwritten.trans ?_, hdispatched.trans ?_, rfl, rfl, rfl, rfl⟩ <;>
    simp [Process.after, Process.observe, Process.written, Process.dispatched, Action.written,
      Action.dispatched]

theorem onSend_serving : Within Serving onSend := by
  refine Within.bind (R := Serving) ?_ fun fd => Within.bind (Within.read _) fun st =>
    Within.bind (serveOn_serving fd st.data.bytes) fun _ =>
      Within.update fun cl => ⟨rfl, rfl, rfl, rfl, rfl, rfl⟩
  rintro ⟨⟨p, sock, inBuf, _ | ⟨fd, inFds⟩, outBuf, outFds⟩, objects, nextId, st⟩ <;>
    exact ⟨rfl, rfl, rfl, rfl, rfl, rfl⟩

/-- With a descriptor waiting the payload is served on it. -/
theorem onSend_descriptor {cl : Client CopyState} {fd : Int} {fds : List Int}
    (hfds : cl.inFds = fd :: fds) (hfd : 0 ≤ fd) :
    onSend cl = match Process.serveSend fd cl.st.data.bytes cl.toProcess with
      | (.ok _, q) => (.ok (), { cl with toProcess := q, inFds := fds, st := countServed cl.st })
      | (.error e, q) => (.error e, { cl with toProcess := q, inFds := fds }) := by
  have hpop : Client.onConn Connection.popFd cl = (.ok fd, { cl with inFds := fds }) := by
    simp only [Client.onConn, Prog.zoom_apply, Connection.popFd, hfds]
  rw [onSend, bind_ok hpop]
  simp only [bind_apply, Prog.read_apply, serveOn, ge_iff_le, hfd, if_true, Client.sys,
    Client.onConn, Connection.sys, Prog.zoom_apply]
  rcases Process.serveSend fd cl.st.data.bytes cl.toProcess with ⟨e | u, q⟩ <;> rfl

theorem handleCopy_source {obj : UInt32} {op : UInt16} {r : Reader} {cl : Client CopyState}
    (h : cl.objects obj = .source) :
    handleCopy obj op r cl = (if op = Zdcs.kEvSend then onSend
      else if op = Zdcs.kEvCancelled then Client.setState cancel else pure ()) cl := by
  refine (bind_ok (a := .source) ?_).trans rfl
  simp only [Client.kindOf, Prog.read_apply, h]

theorem handleCopy_other {obj : UInt32} {op : UInt16} {r : Reader} {cl : Client CopyState}
    (h : cl.objects obj ≠ .source) :
    handleCopy obj op r cl = (.ok (), common obj op r cl) := by
  refine (bind_ok (p := Client.kindOf obj) (a := cl.objects obj) rfl).trans ?_
  rw [if_neg h]
  rfl

theorem copy_undisturbing (data : CopyData) : Undisturbing (dataFrame data) copyDispatcher := by
  intro obj op payload cl hdata
  change Undisturbed _ obj op payload cl (handleCopy obj op _ cl).2
  by_cases h : cl.objects obj = .source
  · rw [handleCopy_source h]
    split_ifs
    · exact (onSend_serving cl).undisturbed hdata
    · exact (cancel_serving cl).undisturbed hdata
    · exact (Within.pure (R := Serving) () cl).undisturbed hdata
  · rw [handleCopy_other h]
    exact common_undisturbed obj op payload hdata

theorem copy_initial (init : CopyState) (sigpipe : SigDisposition) :
    Undisturbing (initialFrame init sigpipe) copyDispatcher :=
  initial_undisturbing fun _ _ _ _ h => handleCopy_other fun hsource => h (.inl hsource)

theorem pasteStep_other {obj : UInt32} {op : UInt16} {r : Reader} {cl : Client PasteState}
    (h : ¬ (cl.objects obj).Special) : pasteStep obj op r cl = common obj op r cl := by
  unfold pasteStep
  split
  · next hobj => exact absurd (.inr (.inl hobj)) h
  · next hobj => exact absurd (.inr (.inr hobj)) h
  · rfl

theorem paste_initial (init : PasteState) (sigpipe : SigDisposition) :
    Undisturbing (initialFrame init sigpipe) pasteDispatcher :=
  initial_undisturbing fun _ _ _ _ h => congrArg (Prod.mk _) (pasteStep_other h)

/-- Nothing was queued, handed over or served since. -/
structure Unspoken {σ : Type} (cl cl' : Client σ) : Prop where
  written : cl'.written = cl.written
  dispatched : cl'.dispatched = cl.dispatched
  background : cl'.background = cl.background
  locals : cl'.locals = cl.locals

theorem Unspoken.of_logs {σ : Type} {cl cl' : Client σ}
    (hlogs : Process.Logs Action.Io cl.toProcess cl'.toProcess) (hlocals : cl'.locals = cl.locals) :
    Unspoken cl cl' where
  written := hlogs.observe_eq fun _ => Action.Io.written
  dispatched := hlogs.observe_eq fun _ => Action.Io.dispatched
  background := hlogs.background_eq
  locals := hlocals

theorem Scripted.unspoken (h : Scripted F rs n ids cl) (hsame : Unspoken cl cl') :
    Scripted F rs n ids cl' := by
  have hobjects : cl'.objects = cl.objects := congrArg (fun l : Client.Local σ => l.1) hsame.locals
  have hnext : cl'.nextId = cl.nextId := congrArg (fun l : Client.Local σ => l.2.1) hsame.locals
  have hst : cl'.st = cl.st := congrArg (fun l : Client.Local σ => l.2.2) hsame.locals
  refine ⟨hsame.written.trans h.written, hsame.dispatched ▸ h.told, hnext.trans h.nextId, ?_, ?_, ?_,
    ?_, ?_⟩
  · rw [hst]
    exact h.ids
  · rw [hst, hobjects, hsame.background]
    exact h.frame
  · rw [hobjects]
    exact h.registry
  · rw [hst, hsame.dispatched]
    exact h.seats
  · rw [hst, hsame.dispatched]
    exact h.managers

theorem Scripted.logs (h : Scripted F rs n ids cl)
    (hlogs : Process.Logs Action.Io cl.toProcess cl'.toProcess) (hlocals : cl'.locals = cl.locals) :
    Scripted F rs n ids cl' := h.unspoken (.of_logs hlogs hlocals)

theorem Scripted.reframe {F' : Frame σ} (h : Scripted F rs n ids cl)
    (hF : F'.holds cl.objects cl.st cl.background) : Scripted F' rs n ids cl :=
  ⟨h.written, h.told, h.nextId, h.ids, hF, h.registry, h.seats, h.managers⟩

theorem Scripted.logged (h : Scripted F rs n ids cl) (m : Message) :
    Scripted F rs n ids (cl.logged m) := by
  have hlog : ∀ a ∈ cl.dispatched, a ∈ (cl.logged m).dispatched := by
    rw [Client.dispatched_logged]
    exact fun a => List.mem_append_left _
  have hbackground : (cl.logged m).background = cl.background := by
    simp [Client.logged, Process.background, Process.begun, Process.observe, Action.begun]
  refine ⟨?_, h.told.mono hlog, h.nextId, h.ids, hbackground ▸ h.frame, h.registry,
    fun g hg => (h.seats g hg).mono hlog, fun g hg => (h.managers g hg).mono hlog⟩
  rw [← h.written]
  simp [Client.logged, Process.written, Process.observe, Action.written]

/-- A flush leaves the script alone. -/
theorem flush_scripted : Keeps (Scripted F rs n ids) (Client.onConn Connection.flush) :=
  (Client.onConn_within Connection.flush_keepsInput).keeps fun _ _ h hcl =>
    hcl.logs h.1.quiet.logs h.2

/-- A call of `dispatch_until` leaves the script alone, however it ends. -/
theorem dispatchUntil_scripted {d : Dispatcher σ} (hd : Undisturbing F d) (predicate : σ → Bool) :
    Triple (Scripted F rs n ids) (Client.dispatchUntil predicate d)
      (fun ok cl => Scripted F rs n ids cl ∧ Client.Ended predicate ok cl)
      (fun _ => Scripted F rs n ids) := by
  refine Client.dispatchUntil_keeps (fun _ _ h hq => h.logs hq.1.logs hq.2) fun m => ?_
  refine (Client.deliver_triple (P := fun cl => Scripted F rs n ids cl ∧
    m.delivery ∈ cl.dispatched) ?_).pre fun cl h => ⟨h.logged m, ?_⟩
  · rintro cl ⟨h, hlog⟩
    have hstep := h.undisturbed hlog (hd m.objectId m.opcode m.payload cl h.frame)
    rcases hr : d.handle m.objectId m.opcode (.new m.objectId m.opcode m.payload) cl
      with ⟨e | u, cl'⟩ <;> rw [hr] at hstep
    · exact hstep
    · exact ⟨hstep.written, hstep.told, hstep.nextId, hstep.ids, hstep.frame, hstep.registry,
        hstep.seats, hstep.managers⟩
  · rw [Client.dispatched_logged]
    exact List.mem_append_right _ List.mem_cons_self

/-! ## The steps of an operation -/

section Steps

variable {H : Halt → Client σ → Prop}

theorem written_append (p : Process) (bytes : List UInt8) :
    Process.written { p with trace := p.trace ++ [.queue bytes] } = p.written ++ [bytes] := by
  simp [Process.written, Process.observe, Action.written]

theorem dispatched_queue (p : Process) (bytes : List UInt8) :
    Process.dispatched { p with trace := p.trace ++ [.queue bytes] } = p.dispatched := by
  simp [Process.dispatched, Process.observe, Action.dispatched]

theorem background_queue (p : Process) (bytes : List UInt8) :
    Process.background { p with trace := p.trace ++ [.queue bytes] } = p.background := by
  simp [Process.background, Process.begun, Process.observe, Action.begun]

theorem send_told {target : UInt32} {r : Request} {w : Writer} (hw : w.finalize = r.encode target) :
    Triple (fun cl => Scripted F rs n ids cl ∧ Told cl.dispatched [(target, r)]) (send w)
      (fun _ (cl : Client σ) => Scripted F (rs ++ [(target, r)]) n ids cl) H := by
  rintro cl ⟨h, hr⟩
  have hdispatched := dispatched_queue cl.toProcess w.finalize
  have hbackground := background_queue cl.toProcess w.finalize
  refine ⟨(written_append _ _).trans ?_, ?_, h.nextId, h.ids, hbackground ▸ h.frame, h.registry,
    fun g hg => ?_, fun g hg => ?_⟩
  · rw [h.written, hw, List.map_append, List.map_singleton]
  · intro target' name interface version id hmem
    refine hdispatched ▸ (List.mem_append.mp hmem).elim ?_ ?_
    · exact h.told target' name interface version id
    · exact hr target' name interface version id
  · exact hdispatched ▸ h.seats g hg
  · exact hdispatched ▸ h.managers g hg

theorem send_triple {target : UInt32} {r : Request} {w : Writer} (hw : w.finalize = r.encode target)
    (hr : ∀ name interface version id, r ≠ .bind name interface version id) :
    Triple (Scripted F rs n ids) (send w)
      (fun _ (cl : Client σ) => Scripted F (rs ++ [(target, r)]) n ids cl) H := by
  refine (send_told hw).pre fun cl h => ⟨h, fun target' name interface version id hmem => ?_⟩
  cases List.mem_singleton.mp hmem
  exact absurd rfl (hr name interface version id)

theorem allocId_triple :
    Triple (Scripted F rs n ids) Client.allocId
      (fun id (cl : Client σ) => id = n ∧ Scripted F rs (n + 1) ids cl) H :=
  fun _ h => ⟨h.nextId, h.written, h.told, congrArg (· + 1) h.nextId, h.ids, h.frame, h.registry,
    h.seats, h.managers⟩

theorem registerObject_frame {id : UInt32} {k : ObjKind} (hk : k = .registry → id = 2)
    (hF : ∀ objects st log, F.holds objects st log →
      F.holds (fun i => if i = id then k else objects i) st log) :
    Triple (Scripted F rs n ids) (Client.registerObject id k)
      (fun _ (cl : Client σ) => Scripted F rs n ids cl) H := by
  intro cl h
  refine ⟨h.written, h.told, h.nextId, h.ids, hF _ _ _ h.frame, fun i hi => ?_, h.seats, h.managers⟩
  change (if i = id then k else cl.objects i) = .registry at hi
  split_ifs at hi with heq
  · exact heq.trans (hk hi)
  · exact h.registry i hi

theorem registerObject_triple {id : UInt32} {k : ObjKind} (hk : k = .registry → id = 2)
    (hspecial : ¬ k.Special) :
    Triple (Scripted F rs n ids) (Client.registerObject id k)
      (fun _ (cl : Client σ) => Scripted F rs n ids cl) H :=
  registerObject_frame hk fun objects st log => F.object id k objects st log hspecial

theorem modifySession_triple {f : Session → Session} {ids' : Ids}
    (hids : ∀ s : Session, s.ids = ids → (f s).ids = ids')
    (hg : ∀ s, (f s).g.seats = s.g.seats ∧ (f s).g.managers = s.g.managers) :
    Triple (Scripted F rs n ids) (modifySession f)
      (fun _ (cl : Client σ) => Scripted F rs n ids' cl) H := by
  intro cl h
  refine ⟨h.written, h.told, h.nextId, ?_, F.session _ _ _ _ h.frame, h.registry,
    fun g hmem => h.seats g ?_, fun g hmem => h.managers g ?_⟩ <;>
    simp only [session_withSession] at *
  · exact hids _ h.ids
  · exact (hg _).1 ▸ hmem
  · exact (hg _).2 ▸ hmem

theorem modifyGlobals_triple (f : Globals → Globals) (hf : ∀ g, (f g).registryId = g.registryId ∧
    (f g).seats = g.seats ∧ (f g).managers = g.managers) :
    Triple (Scripted F rs n ids) (modifyGlobals f)
      (fun _ (cl : Client σ) => Scripted F rs n ids cl) H := by
  refine modifySession_triple (fun s hs => ?_) fun s => (hf s.g).2
  rw [← hs, Session.ids, Session.ids, (hf s.g).1]

theorem sendGetRegistry_triple :
    Triple (Scripted F [] 2 ids) sendGetRegistry
      (fun _ (cl : Client σ) => Scripted F [(1, .getRegistry 2)] 3 { ids with registryId := 2 } cl)
      H := by
  refine Triple.bind allocId_triple fun id => Triple.assume fun hid => ?_
  subst hid
  refine Triple.bind (modifySession_triple (fun s hs => ?_) fun _ => ⟨rfl, rfl⟩) fun _ =>
    Triple.bind (registerObject_triple (fun _ => rfl) (by simp [ObjKind.Special])) fun _ =>
      send_triple rfl (by nofun)
  rw [← hs]
  rfl

theorem startSync_triple :
    Triple (Scripted F rs n ids) startSync
      (fun _ (cl : Client σ) => Scripted F (rs ++ [(1, .sync n)]) (n + 1) ids cl) H := by
  refine Triple.bind (Q := fun _ (cl : Client σ) => Scripted F (rs ++ [(1, .sync n)]) (n + 1) ids cl)
    ?_ fun cb => modifyGlobals_triple (fun g => { g with syncCbId := cb }) fun _ => ⟨rfl, rfl, rfl⟩
  refine Triple.bind allocId_triple fun id => Triple.assume fun hid => ?_
  subst hid
  exact Triple.bind (registerObject_triple nofun (by simp [ObjKind.Special])) fun _ =>
    Triple.bind (send_triple rfl (by nofun)) fun _ => Triple.pure _ fun _ h => h

end Steps

/-! ## Binding -/

section Binding

variable {α : Type} {H : Halt → Client σ → Prop}

/-- No message was handed to the dispatcher. -/
def SameLog (cl cl' : Client σ) : Prop := cl'.dispatched = cl.dispatched

omit [HasSession σ] in
theorem logged_triple (A : List Delivery → Prop) {P : Client σ → Prop} {Q : α → Client σ → Prop}
    {p : Prog Halt (Client σ) α} (h : Triple P p Q H) (hs : Within SameLog p) :
    Triple (fun cl => P cl ∧ A cl.dispatched) p (fun a cl => Q a cl ∧ A cl.dispatched) H :=
  (h.and (hs.keeps (I := fun cl => A cl.dispatched) fun _ _ hlog hA => hlog ▸ hA)).conseq
    (fun _ h => h) (fun _ _ h => h) fun _ _ h => h.1

theorem sendBind_triple (target : UInt32) {interface : Text} {name version announced id : UInt32}
    (hversion : version ≤ announced) :
    Triple (fun cl => Scripted F rs n ids cl ∧ Announced cl.dispatched interface name announced)
      (sendBind target name interface version id)
      (fun _ (cl : Client σ) => Scripted F (rs ++ [(target, .bind name interface version id)]) n ids
        cl) H := by
  have hw : ((((Writer.new target WlRegistry.kReqBind).u32 name).str interface).u32 version
      |>.u32 id).finalize = (Request.bind name interface version id).encode target := rfl
  refine (send_told hw).pre fun cl h => ⟨h.1, fun target' name' interface' version' id' hmem => ?_⟩
  cases List.mem_singleton.mp hmem
  exact ⟨announced, hversion, h.2⟩

theorem bindGlobal_triple {f : UInt32 → Session → Session} {k : ObjKind} {ids' : Ids}
    {interface : Text} {registryId name version announced : UInt32} (hk : k ≠ .registry)
    (hspecial : ¬ k.Special)
    (hversion : version ≤ announced) (hids : ∀ s : Session, s.ids = ids → (f n s).ids = ids')
    (hg : ∀ s, (f n s).g.seats = s.g.seats ∧ (f n s).g.managers = s.g.managers) :
    Triple (fun cl => Scripted F rs n ids cl ∧ Announced cl.dispatched interface name announced)
      (do
        let id ← Client.allocId
        modifySession (f id)
        Client.registerObject id k
        sendBind registryId name interface version id)
      (fun _ (cl : Client σ) => Scripted F
        (rs ++ [(registryId, .bind name interface version n)]) (n + 1) ids' cl) H := by
  let A := fun log => Announced log interface name announced
  refine Triple.bind (logged_triple A allocId_triple fun _ => rfl) fun id => ?_
  refine Triple.pre (P := fun cl => id = n ∧ Scripted F rs (n + 1) ids cl ∧ A cl.dispatched)
    (Triple.assume fun hid => ?_) fun cl h => ⟨h.1.1, h.1.2, h.2⟩
  subst hid
  refine Triple.bind (logged_triple A (modifySession_triple hids hg) fun _ => rfl) fun _ =>
    Triple.bind (logged_triple A (registerObject_triple (fun h => absurd h hk) hspecial)
      fun _ => rfl) fun _ => (sendBind_triple registryId hversion).pre fun cl h => h

theorem min_le_left (a b : UInt32) : min a b ≤ a := by
  change (if a ≤ b then a else b) ≤ a
  split_ifs with h
  · exact UInt32.le_refl a
  · exact UInt32.le_of_lt (UInt32.not_le.mp h)

theorem bindSeat_triple (registryId : UInt32) (sg : SeatGlobal) :
    Triple
      (fun cl => Scripted F rs n ids cl ∧ Announced cl.dispatched kIfWlSeat sg.name sg.version)
      (bindSeat registryId sg)
      (fun _ (cl : Client σ) => Scripted F
        (rs ++ [(registryId, .bind sg.name kIfWlSeat (min sg.version 7) n)]) (n + 1)
        { ids with seatId := n } cl) H :=
  bindGlobal_triple (f := fun id s => { s with seatId := id }) nofun (by simp [ObjKind.Special])
    (min_le_left _ _)
    (fun _ hs => hs ▸ rfl) fun _ => ⟨rfl, rfl⟩

theorem bindSeat_sameLog (registryId : UInt32) (sg : SeatGlobal) :
    Within SameLog (bindSeat registryId sg : Prog Halt (Client σ) Unit) := fun cl =>
  dispatched_queue cl.toProcess _

theorem bindManager_triple (registryId : UInt32) (mg : ManagerGlobal) :
    Triple
      (fun cl => Scripted F rs n ids cl ∧ Announced cl.dispatched kIfZwlrMgr mg.name mg.version)
      (bindManager registryId mg)
      (fun _ (cl : Client σ) => Scripted F
        (rs ++ [(registryId, .bind mg.name kIfZwlrMgr (min mg.version 2) n)]) (n + 1)
        { ids with managerId := n, managerVersion := min mg.version 2 } cl) H :=
  bindGlobal_triple
    (f := fun id s => { s with managerId := id, managerVersion := min mg.version 2 }) nofun
    (by simp [ObjKind.Special]) (min_le_left _ _) (fun _ hs => hs ▸ rfl) fun _ => ⟨rfl, rfl⟩

end Binding

/-! ## The script -/

def bootScript (sg : SeatGlobal) (mg : ManagerGlobal) : Script :=
  [(1, .getRegistry 2), (1, .sync 3), (2, .bind sg.name kIfWlSeat (min sg.version 7) 4),
    (2, .bind mg.name kIfZwlrMgr (min mg.version 2) 5), (1, .sync 6)]

/-- What an operation queues: the bootstrap of some globals, and then the `rest` that it has for
the version of the manager bound; or less of it. -/
def Spoken (F : Frame σ) (rest : UInt32 → Script) (cl : Client σ) : Prop :=
  ∃ sg mg rs n ids, Scripted F rs n ids cl ∧ rs <+: bootScript sg mg ++ rest (min mg.version 2)

/-- Nothing was sent yet. -/
abbrev Fresh (F : Frame σ) : Client σ → Prop := Scripted F [] 2 ⟨0, 0, 0, 0⟩

/-- The globals are being asked for. -/
abbrev Opened (F : Frame σ) : Client σ → Prop :=
  Scripted F [(1, .getRegistry 2), (1, .sync 3)] 4 ⟨2, 0, 0, 0⟩

def Booted (F : Frame σ) (sg : SeatGlobal) (mg : ManagerGlobal) : Client σ → Prop :=
  Scripted F (bootScript sg mg) 7 ⟨2, 4, 5, min mg.version 2⟩

theorem Fresh.spoken {rest : UInt32 → Script} (h : Fresh F cl) : Spoken F rest cl :=
  ⟨⟨0, 0⟩, ⟨0, 0⟩, _, _, _, h, List.nil_prefix⟩

theorem Opened.spoken {rest : UInt32 → Script} (h : Opened F cl) : Spoken F rest cl :=
  ⟨⟨0, 0⟩, ⟨0, 0⟩, _, _, _, h, ⟨_, rfl⟩⟩

theorem booted_spoken {rest : UInt32 → Script} (sg : SeatGlobal) (mg : ManagerGlobal)
    (h : Booted F sg mg cl) : Spoken F rest cl :=
  ⟨sg, mg, _, _, _, h, List.prefix_append _ _⟩

section Bootstrap

variable {d : Dispatcher σ} {rest : UInt32 → Script}

omit [HasSession σ] in
theorem seatIndex_triple (seatSelector : Text) {P : Client σ → Prop} {H : Halt → Client σ → Prop}
    (hP : ∀ e cl, P cl → H e cl) : Triple P (seatIndex seatSelector) (fun _ => P) H := by
  refine Triple.ite (fun _ => ?_) fun _ => Triple.pure _ fun _ h => h
  rcases stoul seatSelector with _ | k
  · exact Triple.halt _ fun cl h => hP _ cl h
  · exact Triple.pure _ fun _ h => h

/-- What is queued when a part of an operation returns or halts. -/
abbrev Spoke (F : Frame σ) (rest : UInt32 → Script) (ok : Bool) (cl : Client σ) : Prop :=
  (ok = true → ∃ sg mg, Booted F sg mg cl) ∧ Spoken F rest cl

theorem bind_spoke (hd : Undisturbing F d) (seatSelector : Text) (sg : SeatGlobal)
    (mg : ManagerGlobal) :
    Triple (fun cl => Opened F cl ∧ Announced cl.dispatched kIfWlSeat sg.name sg.version ∧
        Announced cl.dispatched kIfZwlrMgr mg.name mg.version)
      (do
        bindSeat 2 sg
        bindManager 2 mg
        modifyGlobals fun g => { g with syncDone := false }
        startSync
        if ← Client.dispatchUntil synced d then
          return seatNamed seatSelector (← readSession)
        else return false)
      (Spoke F rest) (fun _ => Spoken F rest) := by
  refine Triple.bind ((logged_triple (fun log => Announced log kIfZwlrMgr mg.name mg.version)
    (bindSeat_triple 2 sg) (bindSeat_sameLog _ sg)).pre fun cl h => ⟨⟨h.1, h.2.1⟩, h.2.2⟩) fun _ =>
    Triple.bind (bindManager_triple 2 mg) fun _ =>
    Triple.bind (modifyGlobals_triple _ fun _ => ⟨rfl, rfl, rfl⟩) fun _ =>
    Triple.bind startSync_triple fun _ =>
    Triple.bind ((dispatchUntil_scripted hd synced).conseq (fun _ h => h) (fun _ _ h => h.1)
      fun _ cl h => booted_spoken sg mg h) fun ok => Triple.ite (fun _ => ?_) fun _ => ?_
  · exact Triple.bind (Q := fun _ => Booted F sg mg) (Triple.read _ fun cl h => h) fun s =>
      Triple.pure _ fun cl h => ⟨fun _ => ⟨sg, mg, h⟩, booted_spoken sg mg h⟩
  · exact Triple.pure _ fun cl h => ⟨nofun, booted_spoken sg mg h⟩

theorem bindGlobals_spoke (hd : Undisturbing F d) (seatSelector : Text) :
    Triple (Opened F) (bindGlobals d seatSelector) (Spoke F rest) (fun _ => Spoken F rest) := by
  have hfalse : Triple (Opened F) (pure false) (Spoke F rest) (fun _ : Halt => Spoken F rest) :=
    Triple.pure _ fun cl h => ⟨nofun, h.spoken⟩
  refine Triple.bind (Q := fun s cl => (s.g.registryId = 2 ∧ Opened F cl) ∧
      (∀ g ∈ s.g.seats, Announced cl.dispatched kIfWlSeat g.name g.version) ∧
      ∀ g ∈ s.g.managers, Announced cl.dispatched kIfZwlrMgr g.name g.version)
    (Triple.read _ fun cl h => ⟨⟨congrArg Ids.registryId h.ids, h⟩, h.seats, h.managers⟩) fun s => ?_
  rcases hmgrs : s.g.managers with _ | ⟨mg, mgs⟩
  · exact hfalse.pre fun cl h => h.1.2
  · refine Triple.ite (fun _ => hfalse.pre fun cl h => h.1.2) fun _ => ?_
    refine Triple.bind (seatIndex_triple seatSelector fun _ cl h => h.1.2.spoken) fun seatIdx => ?_
    rcases hsg : s.g.seats[seatIdx]? with _ | sg
    · exact hfalse.pre fun cl h => h.1.2
    · refine Triple.pre (P := fun cl => s.g.registryId = 2 ∧ Opened F cl ∧
        Announced cl.dispatched kIfWlSeat sg.name sg.version ∧
        Announced cl.dispatched kIfZwlrMgr mg.name mg.version) (Triple.assume fun hreg => ?_)
        fun cl h => ⟨h.1.1, h.1.2, h.2.1 sg (List.mem_of_getElem? hsg), h.2.2 mg List.mem_cons_self⟩
      rw [hreg]
      exact bind_spoke hd seatSelector sg mg

variable (rest) in
theorem bootstrap_spoke (hd : Undisturbing F d) (seatSelector : Text) :
    Triple (Fresh F) (bootstrap d seatSelector) (Spoke F rest) (fun _ => Spoken F rest) := by
  refine Triple.bind sendGetRegistry_triple fun _ => Triple.bind startSync_triple fun _ =>
    Triple.bind ((dispatchUntil_scripted hd synced).conseq (fun _ h => h) (fun _ _ h => h.1)
      fun _ cl (h : Opened F cl) => h.spoken) fun ok =>
      Triple.ite (fun _ => bindGlobals_spoke hd seatSelector) fun _ => ?_
  exact Triple.pure _ fun cl h => ⟨nofun, Opened.spoken h⟩

theorem connect_fresh (display : Text) :
    Triple (Fresh F) (Client.connect display) (fun _ => Fresh F) (fun _ => Spoken F rest) := by
  have hsilent := (Client.onConn_within (σ := σ) (Connection.connect_silent display)).keeps
    (I := Fresh F) fun _ _ h hcl => hcl.logs (h.1.mono fun _ => Action.Silent.io) h.2
  refine Triple.bind (hsilent.conseq (fun _ h => h) (fun _ _ h => h) fun _ cl h => h.spoken)
    fun ok => Triple.ite (fun _ => ?_) fun _ => Triple.pure _ fun _ h => h
  exact Triple.bind (registerObject_triple nofun (by simp [ObjKind.Special])) fun _ =>
    Triple.pure _ fun _ h => h

variable (rest) in
/-- After a start that succeeds, the bootstrap was queued and the manager knows the selection. -/
theorem start_spoke (hd : Undisturbing F d) (display seat : Text) (sel : Selection) :
    Triple (Fresh F) (start d display seat sel)
      (fun ok cl => (ok = true → ∃ sg mg, Booted F sg mg cl ∧
        (sel = .primary → ¬ min mg.version 2 < 2)) ∧ Spoken F rest cl)
      (fun _ => Spoken F rest) := by
  refine Triple.bind (connect_fresh display) fun ok => Triple.ite (fun _ => ?_) fun _ =>
    Triple.pure _ fun cl h => ⟨nofun, Fresh.spoken h⟩
  refine Triple.bind (bootstrap_spoke rest hd seat) fun ok => Triple.ite (fun hok => ?_)
    fun _ => Triple.pure _ fun cl h => ⟨nofun, h.2⟩
  refine Triple.bind (Q := fun s cl => ∃ sg mg, s.managerVersion = min mg.version 2 ∧
    Booted F sg mg cl) (Triple.read _ fun cl h => ?_) fun s => Triple.pure _ ?_
  · obtain ⟨sg, mg, h⟩ := h.1 hok
    exact ⟨sg, mg, congrArg Ids.managerVersion h.ids, h⟩
  · rintro cl ⟨sg, mg, hversion, h⟩
    refine ⟨fun hstart => ⟨sg, mg, h, fun hsel => ?_⟩, booted_spoken sg mg h⟩
    simpa [hsel, hversion] using hstart

end Bootstrap

/-- A message of short arguments. -/
def event (objectId : UInt32) (opcode : UInt16) (args : List Arg) : List UInt8 :=
  (args.foldl Arg.write (Writer.new objectId opcode)).finalize

/-- The replies to a bootstrap with one seat and one manager, each message sent at once. -/
def bootReplies (version : UInt32) : List Reply :=
  [.socket (.ok 3), .connect (.ok ()), .sendmsg (.ok 24), .poll (.ok (.ready true)),
    .recvmsg (.ok (event 2 0 [.u32 1, .str kIfWlSeat, .u32 8] ++
      event 2 0 [.u32 2, .str kIfZwlrMgr, .u32 version] ++ event 3 0 [.u32 0], [])),
    .sendmsg (.ok 1000), .poll (.ok (.ready true)), .recvmsg (.ok (event 6 0 [.u32 0], []))]

end Handcrafted

end WlClip
