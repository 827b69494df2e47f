import WlClip.Outgoing
import WlClip.PasteCommand
import WlClip.X11Conversions

/-!
# What a paste command writes

Whichever backend pastes, nothing is written to the standard output until it has.
-/

open ScriptedProgram ScriptedProgram.Prog

namespace WlClip

/-- The bytes that a write is to put on the standard output. -/
def Action.output : Action → List UInt8
  | .call (.write fd bytes) _ => if fd = PasteCommand.stdoutFileno then bytes else []
  | _ => []

/-- Writes nothing to the standard output. -/
def Action.Mute (a : Action) : Prop := a.output = []

namespace Process

def output (p : Process) : List UInt8 := p.observe Action.output

variable {p p' : Process}

theorem Logs.output (h : Logs Action.Mute p p') : p'.output = p.output :=
  h.observe_eq fun _ ha => ha

theorem mute_calls : X11.Calls Action.Mute := by
  intro c r hc
  cases c with
  | write fd bytes => cases hc
  | _ => rfl

theorem makePipe_mute : Within (Logs Action.Mute) makePipe := by
  apply Within.bind (mute_calls.ask rfl _)
  rintro (e | ends) <;> exact Within.pure _

theorem drainFd_mute (fd : Int) : Within (Logs Action.Mute) (drainFd fd) := by
  refine Within.loop (fun buf => Within.bind (mute_calls.ask rfl _) ?_) _
  rintro (e | _ | ⟨b, data⟩)
  · cases e <;> exact Within.pure _
  · exact Within.pure _
  · exact Within.pure _

theorem close_mute (fd : Int) : Within (Logs Action.Mute) (close fd) := record_logs rfl rfl

end Process

open Process (makePipe_mute drainFd_mute close_mute mute_calls)

/-! ## The libwayland pastes -/

namespace Listening

variable {σ α : Type}

theorem sys_mute {p : Prog Halt Process α} (h : Within (Process.Logs Action.Mute) p) :
    Within (Logged Action.Mute) (sys p : Prog Halt (Listening σ) α) :=
  onState_logged (State.sys_logged h)

theorem request_mute (r : WlRequest) :
    Within (Logged Action.Mute) (request r : Prog Halt (Listening σ) Unit) :=
  onState_logged (State.request_logged rfl)

theorem setState_mute (f : σ → σ) : Within (Logged Action.Mute) (setState f) :=
  Within.update fun l => .refl l.toProcess

theorem dispatch_mute {h : WlEvent → Prog Halt (Listening σ) Unit}
    (hh : ∀ e, Within (Logged Action.Mute) (h e)) : Within (Logged Action.Mute) (dispatch h) :=
  dispatch_logged (fun _ => rfl) (fun _ _ => rfl) hh

end Listening

namespace Libwayland

open Listening (sys_mute request_mute)

variable {σ : Type}

theorem destroyOffers_mute (offers : List PendingOffer) :
    Within (Listening.Logged Action.Mute) (destroyOffers (σ := σ) offers) := by
  induction offers with
  | nil => exact Within.pure _
  | cons o offers ih => exact Within.bind (request_mute _) fun _ => ih

theorem fetch_mute (offer : PendingOffer) (mime : Text) (offers : List PendingOffer) :
    Within (Listening.Logged Action.Mute) (fetch (σ := σ) offer mime offers) := by
  apply Within.bind (sys_mute makePipe_mute)
  rintro (_ | ⟨readEnd, writeEnd⟩)
  · exact Within.bind (request_mute _) fun _ => Within.pure _
  · apply Within.bind (request_mute _)
    intro _
    apply Within.bind (sys_mute (close_mute writeEnd))
    intro _
    apply Within.bind (sys_mute (drainFd_mute readEnd))
    intro bytes
    apply Within.bind (destroyOffers_mute offers)
    intro _
    apply Within.bind (request_mute _)
    intro _
    exact Within.bind (sys_mute (close_mute readEnd)) fun _ => Within.pure _

theorem take_mute (current : Option ℕ) (offers : List PendingOffer) (preferMime : Text)
    (listOnly : Bool) :
    Within (Listening.Logged Action.Mute) (take (σ := σ) current offers preferMime listOnly) := by
  have hend : ∀ out : Bool × PasteResult, Within (Listening.Logged Action.Mute) (do
      Listening.request (σ := σ) .destroyDevice
      return out) := fun out => Within.bind (request_mute _) fun _ => Within.pure _
  unfold take
  split
  · exact hend _
  · exact Within.ite (hend _) (Within.ite (hend _) (fetch_mute _ _ _))

end Libwayland

namespace DataControlBackend

open Listening

theorem paste_mute (seat : SeatInfo) (sel : Selection) (preferMime : Text) (listOnly : Bool) :
    Within (State.Logged Action.Mute) (paste seat sel preferMime listOnly) := by
  apply Within.bind (R := State.Logged Action.Mute) (Within.read _)
  intro s
  refine Within.ite (Within.pure _) (Within.ite (Within.pure _) (run_logged ?_))
  apply Within.bind (request_mute _)
  intro _
  apply Within.bind
  · refine Within.loop (fun _ => ?_) ()
    apply Within.bind (R := Logged Action.Mute) (Within.read _)
    intro st
    refine Within.ite (Within.pure _) (Within.bind (dispatch_mute fun e => setState_mute _) ?_)
    exact fun ok => Within.ite (Within.pure _) (Within.pure _)
  intro ok
  refine Within.ite (Within.bind (Within.read _) fun st => Libwayland.take_mute _ _ _ _) ?_
  exact Within.bind (request_mute _) fun _ => Within.pure _

end DataControlBackend

namespace DataDeviceBackend

open Listening

theorem paste_mute (seat : SeatInfo) (sel : Selection) (preferMime : Text) (listOnly : Bool) :
    Within (State.Logged Action.Mute) (paste seat sel preferMime listOnly) := by
  apply Within.bind (R := State.Logged Action.Mute) (Within.read _)
  intro s
  refine Within.ite (Within.pure _) (Within.ite (Within.pure _) (run_logged ?_))
  apply Within.bind (request_mute _)
  intro _
  apply Within.bind
  · refine Within.loop (fun _ => ?_) ()
    apply Within.bind (R := Logged Action.Mute) (Within.read _)
    intro st
    refine Within.ite (Within.pure _) (Within.bind (sys_mute (mute_calls.ask rfl _)) ?_)
    rintro (e | _ | pollin)
    · exact Within.pure _
    · exact Within.pure _
    · refine Within.bind (dispatch_mute fun e => setState_mute _) ?_
      exact fun ok => Within.ite (Within.pure _) (Within.pure _)
  intro ok
  refine Within.ite (Within.bind (Within.read _) fun st => Libwayland.take_mute _ _ _ _) ?_
  exact Within.bind (request_mute _) fun _ => Within.pure _

end DataDeviceBackend

/-! ## The X11 paste -/

theorem X11Backend.paste_mute (display : Text) (sel : Selection) (preferMime : Text)
    (listOnly : Bool) :
    Within (Process.Logs Action.Mute) (X11Backend.paste display sel preferMime listOnly) := by
  have hx : ∀ r, Action.Mute (.xRequest r) := fun _ => rfl
  apply Within.bind (mute_calls.connect display)
  rintro (_ | x)
  · exact Within.pure _
  refine Within.bind ?_ fun r => Within.bind (Process.record_logs rfl rfl) fun _ => Within.pure _
  apply Within.bind (mute_calls.askTargets hx x _)
  rintro (_ | mimes)
  · exact Within.pure _
  refine Within.ite (Within.pure _) (Within.bind (mute_calls.askData hx x _ _) fun ok => ?_)
  refine Within.ite ?_ (Within.pure _)
  exact Within.bind (mute_calls.readProperty x) fun _ => Within.pure _

/-! ## The handcrafted paste -/

namespace Connection

/-- Nothing is written to the standard output. -/
def Mute (c c' : Connection) : Prop := c'.output = c.output

theorem sys_mute {α : Type} {p : Prog Halt Process α} (h : Within (Process.Logs Action.Mute) p) :
    Within Mute (sys p) := fun c => (h c.toProcess).output

theorem flush_mute : Within Mute flush := fun c =>
  (flush_moves c).observe_eq fun _ ha => by cases ha <;> rfl

/-- An operation of the connection other than a flush. -/
theorem carries_mute {α : Type} {p : Prog Halt Connection α} (h : Within (Moves Action.Carries) p) :
    Within Mute p := fun c =>
  (h c).observe_eq fun _ ha => by cases ha <;> rfl

theorem outFd_mute (fd : Int) : Within Mute (outFd fd) := by
  apply Within.update
  intro c
  simp [Mute, Process.output, Process.observe, Action.output]

end Connection

namespace Handcrafted

open Connection (Mute carries_mute)

variable {out : List UInt8}

/-- What the process has written to the standard output so far. -/
def Wrote (out : List UInt8) (cl : Client PasteState) : Prop := cl.output = out

theorem onConn_wrote {α : Type} {p : Prog Halt Connection α} (h : Within Mute p) :
    Keeps (Wrote out) (Client.onConn p) :=
  (Client.onConn_within h).keeps fun _ _ hmute hcl => hmute.1.trans hcl

theorem logged_wrote {m : Message} {cl : Client PasteState} (h : Wrote out cl) :
    Wrote out (cl.logged m) := by
  have hsame : (cl.logged m).output = cl.output := by
    simp [Client.logged, Process.output, Process.observe, Action.output]
  exact hsame.trans h

theorem handlePaste_wrote (obj : UInt32) (op : UInt16) (r : Reader) :
    Keeps (Wrote out) (handlePaste obj op r) := by
  apply Triple.update
  intro cl h
  change (pasteStep obj op r cl).toConnection.output = out
  rwa [pasteStep_toConnection]

theorem wrote_stable : Stable pasteDispatcher (Wrote out) fun _ => Wrote out where
  flush := onConn_wrote Connection.flush_mute
  waitReadable := onConn_wrote (carries_mute (Connection.waitReadable_moves _))
  pump := onConn_wrote (carries_mute Connection.pump_moves)
  deliver m := by
    have hdeliver : Keeps (Wrote out) (Client.deliver pasteDispatcher m) :=
      (Client.deliver_triple ((handlePaste_wrote _ _ _).conseq (fun _ h => h) (fun _ _ h => h)
        fun _ _ h => h)).pre fun _ hcl => logged_wrote hcl
    exact hdeliver.pre fun _ h => h.1
  halts _ _ h := h
  queue bytes := onConn_wrote (carries_mute (Connection.outBytes_moves bytes))
  allocId _ h := h
  register _ _ _ _ := Triple.update _ fun _ h => h
  modifySession _ := Triple.update _ fun _ h => h

theorem fetch_wrote (offer : UInt32) (mime : Text) (available : List Text) :
    Keeps (Wrote out) (fetch offer mime available) := by
  have hdone : ∀ r : Bool × PasteResult, Keeps (Wrote out)
      (pure r : Prog Halt (Client PasteState) _) := fun r => Triple.pure r fun _ h => h
  apply Triple.bind (onConn_wrote (Connection.sys_mute makePipe_mute))
  rintro (_ | ⟨readEnd, writeEnd⟩)
  · exact hdone _
  apply Triple.bind (onConn_wrote (carries_mute (Connection.outBytes_moves _)))
  intro _
  apply Triple.bind (onConn_wrote (Connection.outFd_mute writeEnd))
  intro _
  apply Triple.bind (onConn_wrote Connection.flush_mute)
  intro _
  apply Triple.bind (onConn_wrote (Connection.sys_mute (drainFd_mute readEnd)))
  intro bytes
  exact Triple.bind (onConn_wrote (Connection.sys_mute (close_mute readEnd))) fun _ => hdone _

end Handcrafted

theorem HandcraftedBackend.paste_output (display seat : Text) (sel : Selection) (preferMime : Text)
    (listOnly : Bool) (p : Process) :
    (HandcraftedBackend.paste display seat sel preferMime listOnly p).2.output = p.output := by
  have hclient : Keeps (Handcrafted.Wrote p.output)
      (Handcrafted.pasteClient display seat sel preferMime listOnly) :=
    Handcrafted.pasteClient_stable Handcrafted.wrote_stable
      (Handcrafted.onConn_wrote (Connection.carries_mute (Connection.connect_moves display)))
      (fun _ => Triple.update _ fun _ h => h) (fun _ => Triple.update _ fun _ h => h)
      Handcrafted.fetch_wrote seat sel preferMime listOnly
  have hrun := hclient.reached (show Handcrafted.Wrote p.output (Client.new p .new) from rfl)
  exact (Client.observe_run (fun _ => rfl) _ _ p).trans hrun

/-! ## The command -/

theorem State.initialSync_mute : Within (State.Logged Action.Mute) State.initialSync := by
  have hround : Within (Listening.Logged Action.Mute)
      (Listening.roundtrip fun _ => (pure () : Prog Halt (Listening Unit) Unit)) :=
    Listening.roundtrip_logged (fun _ => rfl) (fun _ _ => rfl) fun _ => Within.pure _
  exact Listening.run_logged
    (Within.bind hround fun _ => Within.bind hround fun _ => Within.pure _)

namespace PasteCommand

/-- The libwayland branch uses a backend on libwayland. -/
theorem makeBackend_libwayland {s : State} {kind : BackendKind} {backend : Backend}
    (hkind : CopyCommand.branch kind = .libwayland) (h : makeBackend s kind = some backend) :
    backend = .dataControl ∨ backend = .dataDevice := by
  unfold makeBackend at h
  split at h
  · split_ifs at h
    exact .inl (Option.some.inj h).symm
  · split_ifs at h
    exact .inr (Option.some.inj h).symm
  · cases hkind
  · cases hkind
  · split_ifs at h
    · exact .inl (Option.some.inj h).symm
    · exact .inr (Option.some.inj h).symm

theorem receiveLibwayland_mute (common : CommonOptions) (o : PasteOpts) {kind : BackendKind}
    (hkind : CopyCommand.branch kind = .libwayland) :
    Within (Process.Logs Action.Mute) (receiveLibwayland common o kind) := by
  have hseat : Within (State.Logged Action.Mute) (State.pickSeat common.seat) := by
    apply Within.bind (R := State.Logged Action.Mute) (Within.read _)
    intro seats
    refine Within.ite (Within.pure _) (Within.ite (Within.pure _) (Within.ite ?_ (Within.pure _)))
    split
    · exact Within.halt _
    · exact Within.pure _
  unfold receiveLibwayland State.run
  refine Within.zoom (R := State.Logged Action.Mute) ?_ fun _ _ hlogs => hlogs
  apply Within.bind (State.sys_logged (mute_calls.ask rfl _))
  intro ok
  refine Within.ite (Within.bind State.initialSync_mute fun _ => Within.bind hseat ?_) (Within.pure _)
  rintro (_ | seat)
  · exact Within.pure _
  apply Within.bind (R := State.Logged Action.Mute) (Within.read _)
  intro s
  rcases hbackend : makeBackend s kind with _ | backend
  · exact Within.pure _
  rcases makeBackend_libwayland hkind hbackend with rfl | rfl
  · exact DataControlBackend.paste_mute _ _ _ _
  · exact DataDeviceBackend.paste_mute _ _ _ _

/-- Until it has received the payload the command writes nothing. -/
theorem receive_output (common : CommonOptions) (o : PasteOpts) (kind : BackendKind)
    (p : Process) : (receive common o kind p).2.output = p.output := by
  rcases hbranch : CopyCommand.branch kind with _ | _ | _
  · simp only [receive, hbranch]
    exact (X11Backend.paste_mute _ _ _ _ p).output
  · simp only [receive, hbranch]
    exact HandcraftedBackend.paste_output _ _ _ _ _ p
  · simp only [receive, hbranch]
    exact (receiveLibwayland_mute common o hbranch p).output

end PasteCommand

end WlClip
