import WlClip.ConnectionSteps
import WlClip.DispatchSteps
import WlClip.HandcraftedSteps

/-!
# What a connection has sent

The socket takes the bytes and descriptors that were queued in order: those that it took and those
left to be sent are all that was queued, wherever an operation comes to.
-/

open ScriptedProgram ScriptedProgram.Prog

namespace WlClip

/-- Has nothing to do with what the connection sends. -/
structure Action.Unsent (a : Action) : Prop where
  sent : a.sent = []
  sentFds : a.sentFds = []
  queued : a.queued = []
  queuedFds : a.queuedFds = []

/-- Queues no descriptor. -/
def Action.FdFree (a : Action) : Prop := a.queuedFds = []

theorem unsent_close (fd : Int) : (Action.close fd).Unsent := ⟨rfl, rfl, rfl, rfl⟩

namespace Connection

/-- What was left to be sent and queued since has been sent or is left. -/
structure Passes (A : Action → Prop) (c c' : Connection) : Prop where
  log : ∃ log, c'.trace = c.trace ++ log ∧ (∀ a ∈ log, A a) ∧
    c.outBuf ++ log.flatMap Action.queued = log.flatMap Action.sent ++ c'.outBuf ∧
    c.outFds ++ log.flatMap Action.queuedFds = log.flatMap Action.sentFds ++ c'.outFds

variable {A B : Action → Prop} {c c' : Connection}

theorem Passes.trans {c'' : Connection} (h : Passes A c c') (h' : Passes A c' c'') :
    Passes A c c'' := by
  obtain ⟨log, htrace, hlog, hbuf, hfds⟩ := h.log
  obtain ⟨log', htrace', hlog', hbuf', hfds'⟩ := h'.log
  refine ⟨log ++ log', ?_, ?_, ?_, ?_⟩
  · rw [htrace', htrace, List.append_assoc]
  · exact fun a ha => (List.mem_append.mp ha).elim (hlog a) (hlog' a)
  · rw [List.flatMap_append, List.flatMap_append, ← List.append_assoc, hbuf, List.append_assoc,
      hbuf', List.append_assoc]
  · rw [List.flatMap_append, List.flatMap_append, ← List.append_assoc, hfds, List.append_assoc,
      hfds', List.append_assoc]

instance : IsPreorder Connection (Passes A) where
  refl _ := ⟨[], by simp⟩
  trans _ _ _ := Passes.trans

/-- Actions that have nothing to do with it leave what is to be sent alone. -/
theorem Passes.of_unsent (log : List Action) (htrace : c'.trace = c.trace ++ log)
    (hlog : ∀ a ∈ log, A a ∧ a.Unsent) (hbuf : c'.outBuf = c.outBuf) (hfds : c'.outFds = c.outFds) :
    Passes A c c' := by
  refine ⟨log, htrace, fun a ha => (hlog a ha).1, ?_, ?_⟩
  · rw [List.flatMap_eq_nil_iff.mpr fun a ha => (hlog a ha).2.queued,
      List.flatMap_eq_nil_iff.mpr fun a ha => (hlog a ha).2.sent, hbuf, List.append_nil,
      List.nil_append]
  · rw [List.flatMap_eq_nil_iff.mpr fun a ha => (hlog a ha).2.queuedFds,
      List.flatMap_eq_nil_iff.mpr fun a ha => (hlog a ha).2.sentFds, hfds, List.append_nil,
      List.nil_append]

/-- All that was queued has been sent or is left to be sent. -/
structure Outgoing (c : Connection) : Prop where
  bytes : c.queued = c.observe Action.sent ++ c.outBuf
  fds : c.observe Action.queuedFds = c.observe Action.sentFds ++ c.outFds

theorem Outgoing.passes (h : Outgoing c) (hpasses : Passes A c c') : Outgoing c' := by
  obtain ⟨log, htrace, -, hbuf, hfds⟩ := hpasses.log
  have hbytes := h.bytes
  have hqueued := h.fds
  simp only [Process.queued, Process.observe] at hbytes hqueued
  refine ⟨?_, ?_⟩
  · simp only [Process.queued, Process.observe, htrace, List.flatMap_append]
    rw [hbytes, List.append_assoc, hbuf, List.append_assoc]
  · simp only [Process.observe, htrace, List.flatMap_append]
    rw [hqueued, List.append_assoc, hfds, List.append_assoc]

theorem Outgoing.sent_cut (h : Outgoing c) : c.observe Action.sent <+: c.queued :=
  ⟨c.outBuf, h.bytes.symm⟩

/-! ## What the operations send -/

theorem Moves.passes (h : Moves A c c') (hAB : ∀ a, A a → B a) : Passes B c c' := by
  obtain ⟨log, htrace, hlog, -, -, hout, houtFds⟩ := h.log
  exact ⟨log, htrace, fun a ha => hAB a (hlog a ha), hout, houtFds⟩

theorem passes_of_moves {α : Type} {p : Prog Halt Connection α}
    (h : Within (Moves Action.Carries) p) : Within (Passes Action.FdFree) p :=
  h.mono fun _ _ hmoves => hmoves.passes fun _ ha => by cases ha <;> rfl

theorem popFd_passes : Within (Passes Action.FdFree) popFd := by
  rintro ⟨p, sock, inBuf, _ | ⟨fd, inFds⟩, outBuf, outFds⟩ <;>
    exact .of_unsent [] (List.append_nil _).symm (List.forall_mem_nil _) rfl rfl

/-- Serving a consumer sends nothing, however the transfer goes. -/
theorem serveSend_passes (fd : Int) (data : List UInt8) :
    Within (Passes Action.FdFree) (sys (Process.serveSend fd data)) := by
  have htransfer : ∀ {log out e}, Process.Transfer fd data log out e → ∀ a ∈ log, a.Unsent :=
    fun h => h.forall_mem (fun _ _ => ⟨rfl, rfl, rfl, rfl⟩) fun _ => ⟨rfl, rfl, rfl, rfl⟩
  have hserve : (Action.serveSend fd data).Unsent := ⟨rfl, rfl, rfl, rfl⟩
  intro c
  have hrun := Process.serveSend_transfers fd data c.trace c.toProcess rfl
  simp only [sys, Prog.zoom_apply]
  rcases hr : Process.serveSend fd data c.toProcess with ⟨e | u, q⟩ <;> rw [hr] at hrun
  · obtain ⟨log, ⟨more, out, e, h⟩, htrace⟩ := hrun
    refine .of_unsent _ htrace (List.forall_mem_cons.mpr ⟨⟨rfl, hserve⟩, fun a ha => ?_⟩) rfl rfl
    have hunsent := htransfer h a (List.mem_append_left _ ha)
    exact ⟨hunsent.queuedFds, hunsent⟩
  · obtain ⟨log, out, e, h, htrace⟩ := hrun
    refine .of_unsent _ htrace (List.forall_mem_cons.mpr ⟨⟨rfl, hserve⟩, fun a ha => ?_⟩) rfl rfl
    have hunsent : a.Unsent := by
      rcases List.mem_append.mp ha with ha | ha
      · exact htransfer h a ha
      · rw [Process.closeLog] at ha
        split_ifs at ha
        · exact List.mem_singleton.mp ha ▸ unsent_close fd
        · cases ha
    exact ⟨hunsent.queuedFds, hunsent⟩

end Connection

/-! ## What the operations leave to be sent -/

namespace Handcrafted

open Connection (Outgoing Passes passes_of_moves)

variable {σ : Type}

/-- A client whose connection was given no descriptor to send. -/
structure Sending (cl : Client σ) : Prop extends Outgoing cl.toConnection where
  none : cl.observe Action.queuedFds = []

theorem Sending.passes {cl cl' : Client σ} (h : Sending cl)
    (hpasses : Passes Action.FdFree cl.toConnection cl'.toConnection) : Sending cl' := by
  obtain ⟨log, htrace, hlog, -⟩ := hpasses.log
  refine ⟨h.toOutgoing.passes hpasses, ?_⟩
  rw [Process.observe, htrace, List.flatMap_append, List.flatMap_eq_nil_iff.mpr hlog,
    List.append_nil]
  exact h.none

theorem Sending.of_toConnection {cl cl' : Client σ} (h : Sending cl)
    (hconn : cl'.toConnection = cl.toConnection) : Sending cl' :=
  h.passes (hconn ▸ refl _)

theorem onConn_sending {α : Type} {p : Prog Halt Connection α}
    (h : Within (Passes Action.FdFree) p) : Keeps (Sending (σ := σ)) (Client.onConn p) :=
  (Client.onConn_within h).keeps fun _ _ hpasses hcl => hcl.passes hpasses.1

theorem flush_sending : Keeps (Sending (σ := σ)) (Client.onConn Connection.flush) :=
  onConn_sending fun c => (Connection.flush_moves c).passes fun _ ha => by cases ha <;> rfl

theorem logged_sending {m : Message} {cl : Client σ} (h : Sending cl) : Sending (cl.logged m) := by
  have hunsent : (Action.dispatch m.objectId m.opcode m.payload).Unsent := ⟨rfl, rfl, rfl, rfl⟩
  exact h.passes (.of_unsent _ rfl (List.forall_mem_singleton.mpr ⟨rfl, hunsent⟩) rfl rfl)

theorem deliver_sending {d : Dispatcher σ} {m : Message}
    (h : Keeps Sending (d.handle m.objectId m.opcode (.new m.objectId m.opcode m.payload))) :
    Keeps Sending (Client.deliver d m) :=
  (Client.deliver_triple (h.conseq (fun _ h => h) (fun _ _ h => ⟨⟨h.bytes, h.fds⟩, h.none⟩)
    fun _ _ h => h)).pre fun _ hcl => logged_sending hcl

theorem handleCopy_sending (obj : UInt32) (op : UInt16) (r : Reader) :
    Keeps Sending (handleCopy obj op r) := by
  intro cl h
  by_cases hsource : cl.objects obj = .source
  · rw [handleCopy_source hsource]
    split_ifs
    · have hsend : Keeps Sending onSend := by
        apply Triple.bind (onConn_sending Connection.popFd_passes)
        intro fd
        apply Triple.bind (Q := fun _ => Sending) (Triple.read _ fun _ h => h)
        intro st
        apply Triple.bind (Q := fun _ => Sending)
        · refine Triple.ite ?_ fun _ => Triple.pure _ fun _ h => h
          exact fun _ => onConn_sending (Connection.serveSend_passes fd st.data.bytes)
        · exact fun _ => Triple.update _ fun _ h => h.of_toConnection rfl
      exact hsend cl h
    · exact h.of_toConnection rfl
    · exact h
  · rw [handleCopy_other hsource]
    exact h.of_toConnection (common_toConnection obj op r cl)

theorem handlePaste_sending (obj : UInt32) (op : UInt16) (r : Reader) :
    Keeps Sending (handlePaste obj op r) := by
  apply Triple.update
  intro cl h
  exact h.of_toConnection (pasteStep_toConnection obj op r cl)

theorem sending_stable [HasSession σ] {d : Dispatcher σ}
    (hhandle : ∀ obj op r, Keeps Sending (d.handle obj op r)) :
    Stable d Sending fun _ => Sending where
  flush := flush_sending
  waitReadable := onConn_sending (passes_of_moves (Connection.waitReadable_moves _))
  pump := onConn_sending (passes_of_moves Connection.pump_moves)
  deliver _ := (deliver_sending (hhandle _ _ _)).pre fun _ h => h.1
  halts _ _ h := h
  queue bytes := onConn_sending (passes_of_moves (Connection.outBytes_moves bytes))
  allocId _ h := h.of_toConnection rfl
  register _ _ _ _ := Triple.update _ fun _ h => h.of_toConnection rfl
  modifySession _ := Triple.update _ fun _ h => h.of_toConnection rfl

theorem copyClient_sending (display seat : Text) (sel : Selection) :
    Keeps Sending (copyClient display seat sel) := by
  have hstable : Stable copyDispatcher Sending fun _ => Sending :=
    sending_stable handleCopy_sending
  have hdone : ∀ ok : Bool, Keeps Sending (pure ok : Prog Halt (Client CopyState) Bool) :=
    fun ok => Triple.pure ok fun _ h => h
  apply Triple.bind (Q := fun _ => Sending)
  · apply Triple.bind
    · exact hstable.start (onConn_sending (passes_of_moves (Connection.connect_moves display))) seat sel
    intro ok
    apply Triple.ite _ fun _ => hdone _
    intro _
    apply Triple.bind (Q := fun _ => Sending) (Triple.read _ fun _ h => h)
    intro st
    apply Triple.ite fun _ => hdone _
    intro _
    apply Triple.bind (announce_stable hstable.queue hstable.allocId
      (fun id k _ => Triple.update _ fun _ h => h.of_toConnection rfl)
      (fun f => Triple.update _ fun _ h => h.of_toConnection rfl) sel)
    intro _
    exact Triple.bind hstable.flush fun _ => hdone _
  intro ok
  apply Triple.ite _ fun _ => hdone _
  intro _
  apply Triple.bind (hstable.dispatchUntil _)
  intro ok
  exact Triple.bind (Q := fun _ => Sending) (Triple.read _ fun _ h => h) fun _ => hdone _

theorem pasteSetup_sending (display seat : Text) (sel : Selection) :
    Keeps Sending (pasteSetup display seat sel) :=
  pasteSetup_stable (sending_stable handlePaste_sending)
    (onConn_sending (passes_of_moves (Connection.connect_moves display)))
    (fun _ => Triple.update _ fun _ h => h.of_toConnection rfl)
    (fun _ => Triple.update _ fun _ h => h.of_toConnection rfl) seat sel

theorem new_sending (p : Process) (st : σ) (hp : p.trace = []) : Sending (Client.new p st) := by
  refine ⟨⟨?_, ?_⟩, ?_⟩ <;> simp [Client.new, Connection.new, Process.queued, Process.observe, hp]

end Handcrafted

namespace HandcraftedBackend

open Handcrafted

/-- What a copy has sent is a part of what it has queued. -/
theorem copy_sent (display seat : Text) (sel : Selection) (data : CopyData) (oneshot : Bool)
    {p : Process} (hp : p.trace = []) :
    let q := (copy display seat sel data oneshot p).2
    q.observe Action.sent <+: q.queued := by
  intro q
  have hrun := (copyClient_sending display seat sel).reached
    (new_sending p (CopyState.new data oneshot) hp)
  have hsent : q.observe Action.sent = _ := Client.observe_run (fun _ => rfl) _ _ p
  have hqueued : q.queued = _ := Client.observe_run (fun _ => rfl) _ _ p
  rw [hsent, hqueued]
  exact hrun.sent_cut

end HandcraftedBackend

end WlClip
