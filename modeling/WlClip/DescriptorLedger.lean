import WlClip.SendDescriptors
import WlClip.PasteAgreement
import WlClip.Ledger
import Mathlib.Tactic.Abel

/-!
# The descriptors of the handcrafted backend

An operation opens a socket, receives descriptors and makes a pipe. Between its steps it holds the
socket and the descriptors queued either way, and no others but those that the step at hand has in
its own care; when the operation is over its connection closes what is left.
-/

open ScriptedProgram ScriptedProgram.Prog

namespace WlClip

/-- The descriptors among some numbers: a negative one is none. -/
def live (fds : List Int) : Multiset Int := (fds.filter (0 ≤ ·) : List Int)

theorem live_append (fds fds' : List Int) : live (fds ++ fds') = live fds + live fds' := by
  simp [live]

theorem live_cons (fd : Int) (fds : List Int) : live (fd :: fds) = live [fd] + live fds :=
  live_append [fd] fds

theorem live_of_neg {fd : Int} (h : ¬ 0 ≤ fd) : live [fd] = 0 := by
  simp [live, h]

namespace Action

def opened : Action → List Int
  | .call .socket (.socket (.ok fd)) => [fd]
  | .call (.recvmsg _) r => r.receivedFds
  | .call .pipe (.pipe (.ok (readEnd, writeEnd))) => [readEnd, writeEnd]
  | _ => []

/-- The descriptors that an operation of the system is given. -/
def used : Action → List Int
  | .call (.connect fd _) _ => [fd]
  | .call (.sendmsg fd _ fds) _ => fd :: fds
  | .call (.poll fd _) _ => [fd]
  | .call (.recvmsg fd) _ => [fd]
  | .call (.write fd _) _ => [fd]
  | .call (.read fd) _ => [fd]
  | .serveSend fd _ => [fd]
  | _ => []

def closed : Action → List Int
  | .close fd => [fd]
  | _ => []

end Action

def descriptors : Ledger Action Int where
  acquired a := live a.opened
  used a := live a.used
  released a := live a.closed

/-! ## Logs -/

theorem run_close (fds : List Int) : descriptors.Run (live fds) (fds.map .close) 0 := by
  induction fds with
  | nil => exact .nil 0
  | cons fd fds ih =>
      refine .cons _ (live fds) ?_ nofun ?_
      · rw [live_cons, add_comm]
        rfl
      · have hnone : descriptors.acquired (.close fd) = 0 := rfl
        rwa [hnone, add_zero]

/-- Opens and closes nothing, and uses what is held. -/
def Uses (s : Multiset Int) (a : Action) : Prop :=
  a.opened = [] ∧ a.closed = [] ∧ ∀ fd ∈ live a.used, fd ∈ s

theorem run_used {log : List Action} {s : Multiset Int} (h : ∀ a ∈ log, Uses s a) :
    descriptors.Run s log s := by
  apply Ledger.Run.of_used
  intro a ha
  obtain ⟨hopened, hclosed, hused⟩ := h a ha
  exact ⟨congrArg live hopened, congrArg live hclosed, hused⟩

theorem run_transfer {fd : Int} {data out : List UInt8} {calls : List Action}
    {e : Process.TransferEnd} (h : Process.Transfer fd data calls out e) :
    descriptors.Run (live [fd]) (.serveSend fd data :: (calls ++ Process.closeLog fd)) 0 := by
  have huses : ∀ a ∈ calls, Uses (live [fd]) a :=
    h.forall_mem (fun _ _ => ⟨rfl, rfl, fun _ h => h⟩) fun _ => ⟨rfl, rfl, fun _ h => h⟩
  have hbegun : Uses (live [fd]) (.serveSend fd data) := ⟨rfl, rfl, fun _ h => h⟩
  refine Ledger.Run.append (run_used (List.forall_mem_cons.mpr ⟨hbegun, huses⟩)) ?_
  unfold Process.closeLog
  by_cases hfd : fd ≥ 0
  · rw [if_pos hfd]
    exact run_close [fd]
  · rw [if_neg hfd, live_of_neg hfd]
    exact .nil 0

namespace Connection

def owned (c : Connection) : Multiset Int := live (c.sock :: (c.inFds ++ c.outFds))

/-- Besides the connection's own descriptors the run holds `extra`. -/
def Balanced (extra : Multiset Int) (c : Connection) : Prop :=
  descriptors.Run 0 c.trace (c.owned + extra)

variable {extra extra' : Multiset Int} {c c' : Connection} {fd : Int}

theorem Balanced.run (h : Balanced extra c) {log : List Action} (htrace : c'.trace = c.trace ++ log)
    (hrun : descriptors.Run (c.owned + extra) log (c'.owned + extra')) : Balanced extra' c' := by
  rw [Balanced, htrace]
  exact Ledger.Run.append h hrun

theorem Balanced.call (h : Balanced extra c) {call : Call} {r : Reply} {rest : List Reply}
    (huses : Uses (c.owned + extra) (.call call r)) :
    Balanced extra { c with toProcess := c.after [.call call r] rest } :=
  h.run rfl (run_used (List.forall_mem_singleton.mpr huses))

theorem mem_owned (h : fd ∈ live [c.sock]) : fd ∈ c.owned + extra := by
  rw [owned, live_cons]
  exact Multiset.mem_add.mpr (.inl (Multiset.mem_add.mpr (.inl h)))

theorem owned_eq (c : Connection) : c.owned = live [c.sock] + live c.inFds + live c.outFds := by
  rw [owned, live_cons, live_append, add_assoc]

/-- A call that uses the socket. -/
theorem ask_balanced {α : Type} (call : Call) {answer : Reply → Option α} (sock : Int)
    (huses : ∀ r a, answer r = some a → Uses (live [sock]) (.call call r)) :
    Triple (fun c => Balanced extra c ∧ c.sock = sock) (sys (Process.ask call answer))
      (fun _ c => Balanced extra c ∧ c.sock = sock) (fun _ _ => True) := by
  rintro c ⟨h, rfl⟩
  simp only [sys, Prog.zoom_apply]
  rcases hr : Process.ask call answer c.toProcess with ⟨e | a, q⟩
  · trivial
  · obtain ⟨r, rest, -, ha, rfl⟩ := Process.ask_ok hr
    obtain ⟨hopened, hclosed, hused⟩ := huses r a ha
    exact ⟨h.call ⟨hopened, hclosed, fun fd hfd => mem_owned (hused fd hfd)⟩, rfl⟩

theorem waitReadable_balanced (timeout : Int) :
    Triple (Balanced extra) (waitReadable timeout) (fun _ => Balanced extra) (fun _ _ => True) := by
  apply Triple.bind (Q := fun sock c => Balanced extra c ∧ c.sock = sock)
  · exact Triple.read _ fun c h => ⟨h, rfl⟩
  intro sock
  apply Triple.bind (ask_balanced (.poll sock timeout) sock fun r a _ => ⟨rfl, rfl, fun _ h => h⟩)
  rintro (e | _ | pollin) <;> exact Triple.pure _ fun _ h => h.1

theorem pump_balanced :
    Triple (Balanced extra) pump (fun _ => Balanced extra) (fun _ _ => True) := by
  intro c h
  rw [pump_eq]
  rcases hq : Process.recvmsg c.sock c.toProcess with ⟨e | r, q⟩
  · trivial
  · obtain ⟨rest, -, rfl⟩ := Process.recvmsg_ok hq
    have hused : ∀ fd ∈ descriptors.used (.call (.recvmsg c.sock) (.recvmsg r)),
        fd ∈ c.owned + extra := fun fd hfd => mem_owned hfd
    rcases r with e | ⟨_ | ⟨b, data⟩, fds⟩
    · cases e <;> exact h.call ⟨rfl, rfl, hused⟩
    · exact h.call ⟨rfl, rfl, hused⟩
    · refine h.run rfl (.cons _ (c.owned + extra) (add_zero _).symm hused ?_)
      have hreceived : descriptors.acquired (.call (.recvmsg c.sock) (.recvmsg (.ok (b :: data, fds))))
          = live fds := rfl
      have howned : ∀ buf q, ({ c with toProcess := q, inBuf := buf, inFds := c.inFds ++ fds } :
          Connection).owned = c.owned + live fds := by
        intro buf q
        rw [owned_eq, owned_eq, live_append]
        abel
      rw [hreceived, howned, add_right_comm]
      exact .nil _

/-- The descriptors that the next `sendmsg` passes and the others. -/
theorem owned_batch (c : Connection) (nfd : ℕ) :
    c.owned = live [c.sock] + live c.inFds + live (c.outFds.drop nfd) +
      live (c.outFds.take nfd) := by
  have hsplit : live c.outFds = live (c.outFds.take nfd) + live (c.outFds.drop nfd) := by
    rw [← live_append, List.take_append_drop]
  rw [owned_eq, hsplit]
  abel

theorem sendAction_uses (c : Connection) (r : Except Errno ℕ) :
    Uses (c.owned + extra) (c.sendAction r) := by
  refine ⟨rfl, rfl, fun fd hfd => ?_⟩
  let nfd := min c.outFds.length kMaxFdsPerMsg
  have hbatch : fd ∈ live (c.sock :: c.outFds.take nfd) := hfd
  rw [live_cons] at hbatch
  rw [owned_batch c nfd]
  rcases Multiset.mem_add.mp hbatch with hsock | htaken
  · simp [hsock]
  · simp [htaken]

theorem flushRound_balanced : Keeps (Balanced extra) (flushRound ()) := by
  refine flushRound_step.keeps fun c c' hstep h => ?_
  cases hstep with
  | idle => exact h
  | failed e rest => exact h.call (sendAction_uses c _)
  | took n rest =>
      let nfd := min c.outFds.length kMaxFdsPerMsg
      have hcall : Balanced extra { c with toProcess := c.after [c.sendAction (.ok n)] rest } :=
        h.call (sendAction_uses c _)
      refine hcall.run rfl ?_
      have hclosed := (run_close (c.outFds.take nfd)).frame
        (live [c.sock] + live c.inFds + live (c.outFds.drop nfd) + extra)
      convert hclosed using 1
      · change c.owned + extra = _
        rw [owned_batch c nfd]
        abel
      · rw [owned_eq, zero_add]
        rfl

theorem flush_balanced :
    Triple (Balanced extra) flush (fun _ => Balanced extra) (fun _ _ => True) := by
  refine Triple.loop (I := fun _ => Balanced extra) ?_ (fun _ _ _ => trivial) ()
  rintro ⟨⟩
  apply flushRound_balanced.returns.conseq (fun _ h => h) _ fun _ _ h => h
  rintro (_ | ok) c h <;> exact h

/-- The socket is closed and has no number any more. -/
theorem Balanced.unsocketed (h : Balanced extra c) {log : List Action}
    (hlog : descriptors.Run (live [c.sock]) log 0) :
    Balanced extra { c with trace := c.trace ++ log, sock := -1 } := by
  have hrest := hlog.frame (live c.inFds + live c.outFds + extra)
  refine h.run rfl ?_
  convert hrest using 1
  · rw [owned_eq]
    abel
  · rw [owned_eq, live_of_neg (by simp)]
    abel

/-- A socket that was made is not in the care of the connection yet. -/
theorem socket_balanced :
    Triple (fun c => Balanced extra c ∧ c.sock < 0) (sys Process.socket)
      (fun r c => (∀ e, r = .error e → Balanced extra c) ∧
        ∀ fd, r = .ok fd → c.sock < 0 ∧ Balanced (extra + live [fd]) c)
      (fun _ _ => True) := by
  rintro c ⟨h, hsock⟩
  simp only [sys, Prog.zoom_apply]
  rcases hr : Process.socket c.toProcess with ⟨e | r, q⟩
  · trivial
  · obtain ⟨r', rest, -, ha, rfl⟩ := Process.ask_ok hr
    cases r' with
    | socket r' =>
        cases ha
        rcases r with e | fd
        · refine ⟨fun _ _ => h.call ⟨rfl, rfl, ?_⟩, by simp⟩
          exact fun fd hfd => absurd hfd (Multiset.notMem_zero fd)
        · refine ⟨by simp, fun fd' hfd => ?_⟩
          obtain rfl := Except.ok.inj hfd
          refine ⟨hsock, h.run rfl (.cons _ (c.owned + extra) (add_zero _).symm ?_ ?_)⟩
          · exact fun fd hfd => absurd hfd (Multiset.notMem_zero fd)
          · rw [add_assoc]
            exact .nil _
    | _ => cases ha

theorem connect_balanced (display : Text) :
    Triple (fun c => Balanced extra c ∧ c.sock < 0) (connect display) (fun _ => Balanced extra)
      (fun _ _ => True) := by
  have hdone : ∀ ok : Bool, Triple (Balanced extra) (pure ok) (fun _ => Balanced extra)
      (fun (_ : Halt) _ => True) := fun ok => Triple.pure ok fun _ h => h
  apply Triple.bind (Q := fun _ c => Balanced extra c ∧ c.sock < 0) (Triple.read _ fun _ h => h)
  intro getenv
  rcases getenv (text "XDG_RUNTIME_DIR") with _ | runtime
  · exact Triple.pure _ fun _ h => h.1
  apply Triple.bind socket_balanced
  rintro (e | fd)
  · exact (hdone false).pre fun _ h => h.1 e rfl
  apply Triple.bind (Q := fun _ c => Balanced extra c ∧ c.sock = fd)
  · apply Triple.update
    intro c hopen
    obtain ⟨hsock, h⟩ := hopen.2 fd rfl
    refine ⟨h.run (List.append_nil _).symm ?_, rfl⟩
    have howned : c.owned + (extra + live [fd]) = owned { c with sock := fd } + extra := by
      have hclosed : live [c.sock] = 0 := live_of_neg (by omega)
      rw [owned_eq, owned_eq, hclosed]
      abel
    rw [howned]
    exact .nil _
  intro _
  apply Triple.ite fun _ => Triple.pure _ fun _ h => h.1
  intro _
  apply Triple.bind (ask_balanced (.connect fd _) fd fun r a _ => ⟨rfl, rfl, fun _ h => h⟩)
  rintro (e | u)
  · rintro c ⟨h, rfl⟩
    exact h.unsocketed (run_close [c.sock])
  · exact Triple.pure _ fun _ h => h.1

theorem close_balanced : Triple (Balanced 0) close (fun _ c => descriptors.Run 0 c.trace 0)
    (fun _ _ => True) := by
  intro c h
  change descriptors.Run 0 (c.trace ++ (if c.sock ≥ 0 then [.close c.sock] else []) ++
    c.inFds.map .close ++ c.outFds.map .close) 0
  have hclosed : descriptors.Run (live [c.sock]) (if c.sock ≥ 0 then [.close c.sock] else []) 0 := by
    by_cases hsock : c.sock ≥ 0
    · rw [if_pos hsock]
      exact run_close [c.sock]
    · rw [if_neg hsock, live_of_neg hsock]
      exact .nil 0
  have hqueued := (run_close c.inFds).frame (live c.outFds)
  rw [zero_add] at hqueued
  have hsock := h.unsocketed hclosed
  rw [Balanced, owned_eq, live_of_neg (by simp), zero_add, add_zero] at hsock
  exact (hsock.append hqueued).append (run_close c.outFds)

theorem outBytes_balanced (bytes : List UInt8) :
    Triple (Balanced extra) (outBytes bytes) (fun _ => Balanced extra) (fun _ _ => True) :=
  Triple.update _ fun _ h => h.run rfl
    (run_used (List.forall_mem_singleton.mpr ⟨rfl, rfl, nofun⟩))

/-- A descriptor that is queued is the connection's own. -/
theorem outFd_balanced (fd : Int) :
    Triple (Balanced (extra + live [fd])) (outFd fd) (fun _ => Balanced extra)
      (fun _ _ => True) := by
  apply Triple.update
  intro c h
  refine h.run rfl ?_
  have howned : c.owned + (extra + live [fd]) =
      owned { c with outFds := c.outFds ++ [fd], trace := c.trace ++ [.queueFd fd] } + extra := by
    rw [owned_eq, owned_eq, live_append]
    abel
  rw [howned]
  exact run_used (List.forall_mem_singleton.mpr ⟨rfl, rfl, nofun⟩)

/-- A descriptor that is taken leaves the connection; `-1` is none. -/
theorem popFd_balanced :
    Triple (Balanced extra) popFd (fun fd => Balanced (extra + live [fd])) (fun _ _ => True) := by
  rintro ⟨p, sock, inBuf, _ | ⟨fd, inFds⟩, outBuf, outFds⟩ h
  · change Balanced (extra + live [-1]) _
    rwa [live_of_neg (by simp), add_zero]
  · refine Balanced.run h (List.append_nil _).symm ?_
    have howned : owned ⟨p, sock, inBuf, fd :: inFds, outBuf, outFds⟩ + extra =
        owned ⟨p, sock, inBuf, inFds, outBuf, outFds⟩ + (extra + live [fd]) := by
      rw [owned_eq, owned_eq]
      dsimp only
      rw [live_cons fd inFds]
      abel
    rw [howned]
    exact .nil _

/-- A run of the process on what it holds besides the connection. -/
theorem sys_balanced {α : Type} {p : Prog Halt Process α} {s : Multiset Int}
    {s' : α → Multiset Int}
    (h : ∀ t, Triple (fun q => q.trace = t) p
      (fun a q => ∃ log, q.trace = t ++ log ∧ descriptors.Run s log (s' a)) (fun _ _ => True)) :
    Triple (Balanced (extra + s)) (sys p) (fun a => Balanced (extra + s' a))
      (fun _ _ => True) := by
  apply Triple.zoom
  intro c hc
  apply (h c.trace).conseq
  · rintro _ rfl
    rfl
  · rintro a q ⟨log, htrace, hrun⟩
    refine hc.run htrace ?_
    have hframe := hrun.frame (c.owned + extra)
    rwa [add_comm s, add_comm (s' a), add_assoc, add_assoc] at hframe
  · exact fun _ _ _ => trivial

theorem serveSend_balanced (fd : Int) (data : List UInt8) :
    Triple (Balanced (extra + live [fd])) (sys (Process.serveSend fd data))
      (fun _ => Balanced extra) (fun _ _ => True) := by
  have hrun : Triple (Balanced (extra + live [fd])) (sys (Process.serveSend fd data))
      (fun _ => Balanced (extra + 0)) (fun _ _ => True) := sys_balanced fun t =>
    (Process.serveSend_transfers fd data t).conseq (fun _ h => h)
      (fun _ q ⟨log, out, e, h, htrace⟩ => ⟨_, htrace, run_transfer h⟩) fun _ _ _ => trivial
  rwa [add_zero] at hrun

theorem closeFd_balanced (fd : Int) :
    Triple (Balanced (extra + live [fd])) (sys (Process.close fd)) (fun _ => Balanced extra)
      (fun _ _ => True) := by
  have hrun : Triple (Balanced (extra + live [fd])) (sys (Process.close fd))
      (fun _ => Balanced (extra + 0)) (fun _ _ => True) := by
    apply sys_balanced
    rintro t q rfl
    exact ⟨_, rfl, run_close [fd]⟩
  rwa [add_zero] at hrun

theorem drainFd_balanced (fd : Int) :
    Triple (Balanced (extra + live [fd])) (sys (Process.drainFd fd))
      (fun _ => Balanced (extra + live [fd])) (fun _ _ => True) := by
  refine sys_balanced fun t => ?_
  rintro q rfl
  obtain ⟨log, rest, hrun, hreads⟩ := Process.drainFd_eq fd q
  rw [hrun]
  rcases Process.drained [] q.script with _ | bytes
  · trivial
  · refine ⟨log, rfl, run_used fun a ha => ?_⟩
    obtain ⟨r, rfl⟩ := hreads a ha
    exact ⟨rfl, rfl, fun _ h => h⟩

/-- The descriptors that a pipe comes with. -/
def pipeEnds : Option (Int × Int) → Multiset Int
  | none => 0
  | some (readEnd, writeEnd) => live [readEnd] + live [writeEnd]

theorem makePipe_balanced :
    Triple (Balanced extra) (sys Process.makePipe) (fun ends => Balanced (extra + pipeEnds ends))
      (fun _ _ => True) := by
  have hrun : Triple (Balanced (extra + 0)) (sys Process.makePipe)
      (fun ends => Balanced (extra + pipeEnds ends)) (fun _ _ => True) := by
    apply sys_balanced
    rintro t q rfl
    rcases hq : Process.pipe q with ⟨e | r, q'⟩
    · rw [Process.makePipe, bind_error hq]
      trivial
    · obtain ⟨r', rest, -, ha, rfl⟩ := Process.ask_ok hq
      rw [Process.makePipe, bind_ok hq]
      cases r' with
      | pipe r' =>
          cases ha
          rcases r with e | ⟨readEnd, writeEnd⟩
          · exact ⟨_, rfl, run_used (List.forall_mem_singleton.mpr ⟨rfl, rfl, nofun⟩)⟩
          · refine ⟨_, rfl, .cons _ 0 rfl nofun ?_⟩
            have hends : 0 + descriptors.acquired (.call .pipe (.pipe (.ok (readEnd, writeEnd)))) =
                pipeEnds (some (readEnd, writeEnd)) := by
              rw [zero_add]
              exact live_cons readEnd [writeEnd]
            rw [hends]
            exact .nil _
      | _ => cases ha
  rwa [add_zero] at hrun

end Connection

namespace Handcrafted

open Connection (Balanced)

variable {σ : Type} {extra : Multiset Int}

/-- The run of the client holds the descriptors of its connection and `extra`. -/
abbrev Holding (extra : Multiset Int) (cl : Client σ) : Prop := Balanced extra cl.toConnection

theorem done_holding {α : Type} (a : α) :
    Triple (Holding extra) (pure a : Prog Halt (Client σ) α) (fun _ => Holding extra)
      (fun _ _ => True) := Triple.pure a fun _ h => h

theorem read_holding {α : Type} (f : Client σ → α) :
    Triple (Holding extra) (Prog.read f : Prog Halt (Client σ) α) (fun _ => Holding extra)
      (fun _ _ => True) := Triple.read f fun _ h => h

theorem setState_holding (f : σ → σ) :
    Triple (Holding extra) (Client.setState f) (fun _ => Holding extra) (fun _ _ => True) :=
  Triple.update _ fun _ h => h

theorem registerObject_holding (id : UInt32) (k : ObjKind) :
    Triple (Holding extra) (Client.registerObject id k : Prog Halt (Client σ) Unit)
      (fun _ => Holding extra) (fun _ _ => True) := Triple.update _ fun _ h => h

theorem onConn_balanced {α : Type} {p : Prog Halt Connection α} {P : Connection → Prop}
    {s : α → Multiset Int} (h : Triple P p (fun a => Balanced (s a)) (fun _ _ => True)) :
    Triple (fun cl : Client σ => P cl.toConnection) (Client.onConn p)
      (fun a => Holding (s a)) (fun _ _ => True) := by
  apply Triple.zoom
  intro cl hcl
  apply h.pre
  rintro _ rfl
  exact hcl

/-! ## One message -/

theorem deliver_balanced {d : Dispatcher σ} {m : Message}
    (h : Triple (Holding extra)
      (d.handle m.objectId m.opcode (.new m.objectId m.opcode m.payload))
      (fun _ => Holding extra) (fun _ _ => True)) :
    Triple (Holding extra) (Client.deliver d m)
      (fun _ => Holding extra) (fun _ _ => True) := by
  apply (Client.deliver_triple h).pre
  intro cl hcl
  exact hcl.run rfl (run_used (List.forall_mem_singleton.mpr ⟨rfl, rfl, nofun⟩))

/-- The descriptor of a request is taken and closed, whatever comes of the transfer. -/
theorem onSend_balanced :
    Triple (Holding extra) onSend
      (fun _ => Holding extra) (fun _ _ => True) := by
  apply Triple.bind (onConn_balanced Connection.popFd_balanced)
  intro fd
  apply Triple.bind (Q := fun _ => Holding (extra + live [fd]))
  · exact Triple.read _ fun _ h => h
  intro st
  apply Triple.bind (Q := fun _ => Holding extra)
  · apply Triple.ite
    · intro _
      exact onConn_balanced (Connection.serveSend_balanced fd st.data.bytes)
    · intro hfd
      apply Triple.pure
      intro cl h
      rwa [live_of_neg hfd, add_zero] at h
  exact fun _ => Triple.update _ fun _ h => h

theorem handleCopy_balanced (obj : UInt32) (op : UInt16) (r : Reader) :
    Triple (Holding extra) (handleCopy obj op r)
      (fun _ => Holding extra) (fun _ _ => True) := by
  intro cl h
  by_cases hsource : cl.objects obj = .source
  · rw [handleCopy_source hsource]
    split_ifs
    · exact onSend_balanced cl h
    · exact h
    · exact h
  · rw [handleCopy_other hsource]
    change Balanced extra (common obj op r cl).toConnection
    rwa [common_toConnection]

theorem handlePaste_balanced (obj : UInt32) (op : UInt16) (r : Reader) :
    Triple (Holding extra) (handlePaste obj op r)
      (fun _ => Holding extra) (fun _ _ => True) := by
  apply Triple.update
  intro cl h
  change Balanced extra (pasteStep obj op r cl).toConnection
  rwa [pasteStep_toConnection]

theorem balanced_stable [HasSession σ] {d : Dispatcher σ}
    (hhandle : ∀ obj op r, Triple (Holding extra) (d.handle obj op r)
      (fun _ => Holding extra) (fun _ _ => True)) :
    Stable d (Holding extra) (fun _ _ => True) where
  flush := onConn_balanced Connection.flush_balanced
  waitReadable := onConn_balanced (Connection.waitReadable_balanced _)
  pump := onConn_balanced Connection.pump_balanced
  deliver _ := (deliver_balanced (hhandle _ _ _)).pre fun _ h => h.1
  halts _ _ _ := trivial
  queue bytes := onConn_balanced (Connection.outBytes_balanced bytes)
  allocId _ h := h
  register id k _ _ := registerObject_holding id k
  modifySession _ := Triple.update _ fun _ h => h

/-- The client holds what its connection owns, and has no socket yet. -/
def Unconnected (cl : Client σ) : Prop :=
  Holding 0 cl ∧ cl.sock < 0

theorem start_balanced [HasSession σ] {d : Dispatcher σ}
    (hhandle : ∀ obj op r, Triple (Holding 0) (d.handle obj op r)
      (fun _ => Holding 0) (fun _ _ => True)) (display seat : Text)
    (sel : Selection) :
    Triple Unconnected (start d display seat sel) (fun _ => Holding 0)
      (fun _ _ => True) := by
  have hconnect : Triple (fun cl : Client σ => Balanced 0 cl.toConnection ∧ cl.sock < 0)
      (Client.onConn (Connection.connect display)) (fun _ => Holding 0)
      (fun _ _ => True) := onConn_balanced (Connection.connect_balanced display)
  exact (balanced_stable hhandle).start hconnect seat sel

/-! ## The operations -/

theorem copyClient_balanced (display seat : Text) (sel : Selection) :
    Triple Unconnected (copyClient display seat sel) (fun _ => Holding 0) (fun _ _ => True) := by
  have hstable : Stable copyDispatcher (Holding 0) fun _ _ => True :=
    balanced_stable handleCopy_balanced
  apply Triple.bind (Q := fun _ => Holding 0)
  · apply Triple.bind (start_balanced handleCopy_balanced display seat sel)
    intro ok
    apply Triple.ite _ fun _ => done_holding _
    intro _
    apply Triple.bind (read_holding _)
    intro st
    apply Triple.ite fun _ => done_holding _
    intro _
    apply Triple.bind (announce_stable hstable.queue hstable.allocId
      (fun id k _ => registerObject_holding id k) setState_holding sel)
    intro _
    exact Triple.bind hstable.flush fun _ => done_holding _
  intro ok
  apply Triple.ite _ fun _ => done_holding _
  intro _
  apply Triple.bind (hstable.dispatchUntil _)
  intro ok
  exact Triple.bind (read_holding _) fun _ => done_holding _

/-- The write end is queued for the compositor; the read end is the client's until it is drained. -/
theorem fetch_balanced (offId : UInt32) (mime : Text) (available : List Text) :
    Triple (Holding 0) (fetch offId mime available) (fun _ => Holding 0)
      (fun _ _ => True) := by
  apply Triple.bind (onConn_balanced Connection.makePipe_balanced)
  rintro (_ | ⟨readEnd, writeEnd⟩)
  · exact Triple.pure _ fun _ h => h
  apply Triple.bind (onConn_balanced (Connection.outBytes_balanced _))
  intro _
  apply Triple.bind (Q := fun _ => Holding (0 + live [readEnd]))
  · apply (onConn_balanced (Connection.outFd_balanced writeEnd)).pre
    intro cl h
    rwa [Connection.pipeEnds, ← add_assoc] at h
  intro _
  apply Triple.bind (onConn_balanced Connection.flush_balanced)
  intro _
  apply Triple.bind (onConn_balanced (Connection.drainFd_balanced readEnd))
  intro bytes
  apply Triple.bind (onConn_balanced (Connection.closeFd_balanced readEnd))
  exact fun _ => Triple.pure _ fun _ h => h

theorem pasteClient_balanced (display seat : Text) (sel : Selection) (preferMime : Text)
    (listOnly : Bool) :
    Triple Unconnected (pasteClient display seat sel preferMime listOnly)
      (fun _ => Holding 0) (fun _ _ => True) := by
  have hconnect : Triple (Unconnected (σ := PasteState))
      (Client.onConn (Connection.connect display)) (fun _ => Holding 0) (fun _ _ => True) :=
    onConn_balanced (Connection.connect_balanced display)
  exact pasteClient_stable (balanced_stable handlePaste_balanced) hconnect
    (fun id => registerObject_holding id .device) (fun _ => setState_holding _) fetch_balanced seat
    sel preferMime listOnly

/-- A run that returns closes what its client is left with. -/
theorem run_settled {α : Type} {st : σ} {p : Prog Halt (Client σ) α}
    (h : Triple Unconnected p (fun _ => Holding 0) (fun _ _ => True))
    {proc : Process} (htrace : proc.trace = []) {a : α} (ha : (Client.run st p proc).1 = .ok a) :
    descriptors.Settled (Client.run st p proc).2.trace := by
  have hnew : Unconnected (Client.new proc st) := by
    refine ⟨?_, Int.negSucc_lt_zero 0⟩
    change descriptors.Run 0 proc.trace _
    rw [htrace]
    exact .nil _
  have hrun := h _ hnew
  unfold Client.run at ha ⊢
  rcases hr : p (Client.new proc st) with ⟨e | a', cl⟩ <;> rw [hr] at ha hrun
  · cases ha
  · exact Ledger.Run.settled (Connection.close_balanced cl.toConnection hrun)

end Handcrafted

namespace HandcraftedBackend

/-- A copy or paste that returns has closed each descriptor it came to own exactly once, and used
none that was closed. -/
theorem descriptors_settled (display seat : Text) (sel : Selection) {p : Process}
    (hp : p.trace = []) :
    (∀ (data : CopyData) (oneshot ok : Bool), (copy display seat sel data oneshot p).1 = .ok ok →
      descriptors.Settled (copy display seat sel data oneshot p).2.trace) ∧
    ∀ (preferMime : Text) (listOnly : Bool) (out : Bool × PasteResult),
      (paste display seat sel preferMime listOnly p).1 = .ok out →
      descriptors.Settled (paste display seat sel preferMime listOnly p).2.trace :=
  ⟨fun _ _ _ => Handcrafted.run_settled (Handcrafted.copyClient_balanced display seat sel) hp,
    fun _ _ _ => Handcrafted.run_settled (Handcrafted.pasteClient_balanced display seat sel _ _) hp⟩

/-- A copy that serves one request and a paste of the second of two offers. -/
theorem descriptors_settled_once :
    descriptors.Settled (copy [] [] .regular ⟨[0x68, 0x69], [text "text/plain"]⟩ true
        servedOnce).2.trace ∧
      descriptors.Settled (paste [] [] .regular [] false pasting).2.trace :=
  ⟨(descriptors_settled [] [] .regular rfl).1 ⟨[0x68, 0x69], [text "text/plain"]⟩ true true
      (by decide +kernel),
    (descriptors_settled [] [] .regular rfl).2 [] false
      (true, ⟨text "text/plain", [0x68, 0x69], [text "text/plain"]⟩) (by decide +kernel)⟩

end HandcraftedBackend

end WlClip
