import WlClip.DataControlPaste
import WlClip.LibwaylandDaemon
import WlClip.PasteCommand
import WlClip.SyncWait
import WlClip.X11Conversions

/-!
# Progress

No loop of the program goes on without a call: a run that has not returned waits in a call, was
killed by a signal, was ended by an exception, or was the parent of a daemon and has exited.
-/

open ScriptedProgram ScriptedProgram.Prog

namespace WlClip

/-- The ends of a run that does not return, apart from a loop without rounds left. -/
def Halt.Ordinary : Halt → Prop
  | .exited code => code = 0
  | .stuck => False
  | _ => True

abbrev Proceeds {σ α : Type} (p : Prog Halt σ α) : Prop := Halts Halt.Ordinary p

/-! ## Calls and pipes -/

namespace Process

variable {α : Type}

theorem ask_proceeds (c : Call) (answer : Reply → Option α) : Proceeds (ask c answer) := by
  refine Triple.intro (fun _ _ _ _ _ => trivial) fun p e q _ h => ?_
  rw [(ask_error h).1]
  trivial

theorem record_halts {E : Halt → Prop} (a : Action) : Halts E (record a) := Halts.update _

theorem record_proceeds (a : Action) : Proceeds (record a) := record_halts a

theorem write_proceeds (fd : Int) (bytes : List UInt8) : Proceeds (write fd bytes) := by
  apply Halts.bind (ask_proceeds _ _)
  rintro (n | e | _)
  · exact Halts.pure _
  · exact Halts.pure _
  · apply Halts.bind (Halts.read _)
    rintro (_ | _)
    · exact Halts.halt trivial
    · exact Halts.pure _

theorem serveSend_proceeds (fd : Int) (data : List UInt8) : Proceeds (serveSend fd data) := by
  have hround : ∀ data, Proceeds (serveRound fd data) := by
    intro data
    refine Halts.ite (Halts.pure _) (Halts.bind (write_proceeds _ _) ?_)
    rintro (e | n)
    · cases e with
      | EAGAIN =>
          apply Halts.bind (ask_proceeds _ _)
          rintro (e | _ | ready) <;> exact Halts.pure _
      | _ => exact Halts.pure _
    · exact Halts.ite (Halts.pure _) (Halts.pure _)
  refine Halts.bind (record_proceeds _) fun _ => Halts.bind ?_ fun _ => Halts.ite (record_proceeds _) ?_
  · exact Halts.loop (serveRound_shrinks fd) hround data
  · exact Halts.pure _

theorem makePipe_proceeds : Proceeds makePipe := by
  apply Halts.bind (ask_proceeds _ _)
  rintro (e | ends) <;> exact Halts.pure _

theorem drainFd_proceeds (fd : Int) : Proceeds (drainFd fd) := by
  refine Halts.loop (drainRound_shrinks fd) (fun buf => Halts.bind (ask_proceeds _ _) ?_) _
  rintro (e | _ | ⟨b, data⟩)
  · cases e <;> exact Halts.pure _
  · exact Halts.pure _
  · exact Halts.pure _

theorem writeRound_shrinks (fd : Int) : Shrinks (fun _ p => p.size) (writeRound fd) := by
  intro data p data' p' h
  unfold writeRound at h
  split_ifs at h
  · cases h
  · obtain ⟨r, q, hwrite, h⟩ := bind_eq_ok h
    have hlt := write_size hwrite
    rcases r with e | n
    · cases e <;> cases h
      exact hlt
    · cases h
      exact hlt

theorem writeAll_proceeds (fd : Int) (data : List UInt8) : Proceeds (writeAll fd data) := by
  refine Halts.loop (writeRound_shrinks fd) (fun data => Halts.ite (Halts.pure _) ?_) data
  apply Halts.bind (write_proceeds _ _)
  rintro (e | n)
  · cases e <;> exact Halts.pure _
  · exact Halts.pure _

end Process

open Process (ask_proceeds record_proceeds)

/-! ## The handcrafted client -/

namespace Connection

variable {α : Type}

theorem sys_proceeds {p : Prog Halt Process α} (h : Proceeds p) : Proceeds (sys p) := Halts.zoom h

theorem connect_proceeds (display : Text) : Proceeds (connect display) := by
  apply Halts.bind (Halts.read _)
  intro getenv
  rcases getenv (text "XDG_RUNTIME_DIR") with _ | runtime
  · exact Halts.pure _
  apply Halts.bind (sys_proceeds (ask_proceeds _ _))
  rintro (e | fd)
  · exact Halts.pure _
  refine Halts.bind (Halts.update _) fun _ => Halts.ite (Halts.pure _) ?_
  apply Halts.bind (sys_proceeds (ask_proceeds _ _))
  rintro (e | _)
  · exact Halts.bind (sys_proceeds (record_proceeds _)) fun _ =>
      Halts.bind (Halts.update _) fun _ => Halts.pure _
  · exact Halts.pure _

theorem flush_proceeds : Proceeds flush := by
  refine Halts.loop flushRound_shrinks (fun _ => Halts.bind (Halts.read _) fun c =>
    Halts.ite (Halts.pure _) (Halts.ite (Halts.pure _) ?_)) ()
  apply Halts.bind (sys_proceeds (ask_proceeds _ _))
  rintro (e | n)
  · cases e <;> exact Halts.pure _
  · exact Halts.bind (Halts.update _) fun _ => Halts.pure _

theorem waitReadable_proceeds (timeout : Int) : Proceeds (waitReadable timeout) := by
  refine Halts.bind (Halts.read _) fun sock => Halts.bind (sys_proceeds (ask_proceeds _ _)) ?_
  rintro (e | _ | ready) <;> exact Halts.pure _

theorem pump_proceeds : Proceeds pump := by
  refine Halts.bind (Halts.read _) fun sock => Halts.bind (sys_proceeds (ask_proceeds _ _)) ?_
  rintro (e | ⟨data, fds⟩)
  · cases e <;> exact Halts.pure _
  · exact Halts.ite (Halts.pure _) (Halts.bind (Halts.update _) fun _ => Halts.pure _)

theorem popFd_proceeds : Proceeds popFd := by
  refine Triple.intro (fun _ _ _ _ _ => trivial) fun c e c' _ h => ?_
  unfold popFd at h
  split at h <;> cases h

end Connection

namespace Client

variable {σ α : Type}

theorem onConn_proceeds {p : Prog Halt Connection α} (h : Proceeds p) :
    Proceeds (onConn p : Prog Halt (Client σ) α) := Halts.zoom h

theorem sys_proceeds {p : Prog Halt Process α} (h : Proceeds p) :
    Proceeds (sys p : Prog Halt (Client σ) α) := onConn_proceeds (Connection.sys_proceeds h)

theorem allocId_proceeds : Proceeds (allocId : Prog Halt (Client σ) UInt32) := fun _ _ => trivial

theorem run_proceeds {st : σ} {p : Prog Halt (Client σ) α} (h : Proceeds p) : Proceeds (run st p) :=
  run_triple (P := fun _ => True) (Triple.pre h fun _ _ => trivial) fun _ _ _ _ _ => trivial

theorem scan_proceeds (predicate : σ → Bool) {d : Dispatcher σ}
    (hd : ∀ obj op r, Proceeds (d.handle obj op r)) : Proceeds (scan predicate d) := by
  refine Halts.loop (scanRound_shrinks predicate d) (fun consumedAny => ?_) false
  refine Halts.bind (Halts.read _) fun buf => Halts.ite (Halts.pure _) ?_
  refine Halts.bind (sys_proceeds (record_proceeds _)) fun _ => Halts.bind (hd _ _ _) fun _ => ?_
  refine Halts.bind (onConn_proceeds (Halts.update _)) fun _ => Halts.bind (Halts.read _) fun st => ?_
  exact Halts.ite (Halts.pure _) (Halts.pure _)

theorem receiveRound_proceeds : Proceeds (receiveRound : Prog Halt (Client σ) (Unit ⊕ Bool)) := by
  refine Halts.bind (onConn_proceeds (Connection.waitReadable_proceeds _)) fun ready =>
    Halts.ite ?_ (Halts.pure _)
  exact Halts.bind (onConn_proceeds Connection.pump_proceeds) fun n =>
    Halts.ite (Halts.pure _) (Halts.ite (Halts.pure _) (Halts.pure _))

theorem dispatchUntil_proceeds (predicate : σ → Bool) {d : Dispatcher σ}
    (hd : ∀ obj op r, Proceeds (d.handle obj op r)) : Proceeds (dispatchUntil predicate d) := by
  refine Halts.loop (dispatchRound_shrinks predicate d) (fun _ => ?_) ()
  refine Halts.bind (Halts.read _) fun st => Halts.ite (Halts.pure _) ?_
  refine Halts.bind (onConn_proceeds Connection.flush_proceeds) fun ok => Halts.ite ?_ (Halts.pure _)
  apply Halts.bind (scan_proceeds predicate hd)
  rintro (_ | _ | _)
  · exact Halts.pure _
  · exact Halts.pure _
  · exact receiveRound_proceeds

end Client

namespace Handcrafted

theorem send_proceeds {σ : Type} (w : Writer) : Proceeds (send w : Prog Halt (Client σ) Unit) :=
  Client.onConn_proceeds (Halts.update _)

theorem seatIndex_proceeds {σ : Type} (seat : Text) :
    Proceeds (seatIndex seat : Prog Halt (Client σ) ℕ) := by
  unfold seatIndex
  refine Halts.ite ?_ (Halts.pure _)
  split
  · exact Halts.halt trivial
  · exact Halts.pure _

section

variable {σ : Type} [HasSession σ]

theorem modifyGlobals_proceeds (f : Globals → Globals) :
    Proceeds (modifyGlobals f : Prog Halt (Client σ) Unit) := Halts.update _

theorem startSync_proceeds : Proceeds (startSync : Prog Halt (Client σ) Unit) := by
  refine Halts.bind (Halts.bind Client.allocId_proceeds fun cb => ?_) fun cb =>
    modifyGlobals_proceeds _
  exact Halts.bind (Halts.update _) fun _ => Halts.bind (send_proceeds _) fun _ => Halts.pure _

theorem bindSeat_proceeds (registryId : UInt32) (sg : SeatGlobal) :
    Proceeds (bindSeat registryId sg : Prog Halt (Client σ) Unit) := by
  refine Halts.bind Client.allocId_proceeds fun id => Halts.bind (Halts.update _) fun _ => ?_
  exact Halts.bind (Halts.update _) fun _ => send_proceeds _

theorem bindManager_proceeds (registryId : UInt32) (mg : ManagerGlobal) :
    Proceeds (bindManager registryId mg : Prog Halt (Client σ) Unit) := by
  refine Halts.bind Client.allocId_proceeds fun id => Halts.bind (Halts.update _) fun _ => ?_
  exact Halts.bind (Halts.update _) fun _ => send_proceeds _

theorem start_proceeds {d : Dispatcher σ} (hd : ∀ obj op r, Proceeds (d.handle obj op r))
    (display seat : Text) (sel : Selection) : Proceeds (start d display seat sel) := by
  have hsynced : Proceeds (Client.dispatchUntil synced d) := Client.dispatchUntil_proceeds _ hd
  have hbind : Proceeds (bindGlobals d seat) := by
    refine Halts.bind (Halts.read _) fun s => ?_
    rcases s.g.managers with _ | ⟨mg, managers⟩
    · exact Halts.pure _
    refine Halts.ite (Halts.pure _) (Halts.bind (seatIndex_proceeds seat) fun seatIdx => ?_)
    rcases s.g.seats[seatIdx]? with _ | sg
    · exact Halts.pure _
    refine Halts.bind (bindSeat_proceeds _ _) fun _ => Halts.bind (bindManager_proceeds _ _) fun _ => ?_
    refine Halts.bind (modifyGlobals_proceeds _) fun _ => Halts.bind startSync_proceeds fun _ => ?_
    exact Halts.bind hsynced fun ok =>
      Halts.ite (Halts.bind (Halts.read _) fun _ => Halts.pure _) (Halts.pure _)
  have hbootstrap : Proceeds (bootstrap d seat) := by
    refine Halts.bind ?_ fun _ => Halts.bind startSync_proceeds fun _ => ?_
    · refine Halts.bind Client.allocId_proceeds fun id => Halts.bind (modifyGlobals_proceeds _) fun _ => ?_
      exact Halts.bind (Halts.update _) fun _ => send_proceeds _
    · exact Halts.bind hsynced fun ok => Halts.ite hbind (Halts.pure _)
  have hconnect : Proceeds (Client.connect display : Prog Halt (Client σ) Bool) :=
    Halts.bind (Client.onConn_proceeds (Connection.connect_proceeds display)) fun ok =>
      Halts.ite (Halts.bind (Halts.update _) fun _ => Halts.pure _) (Halts.pure _)
  refine Halts.bind hconnect fun ok => Halts.ite ?_ (Halts.pure _)
  refine Halts.bind hbootstrap fun ok => Halts.ite ?_ (Halts.pure _)
  exact Halts.bind (Halts.read _) fun s => Halts.pure _

end

theorem handleCopy_proceeds (obj : UInt32) (op : UInt16) (r : Reader) :
    Proceeds (copyDispatcher.handle obj op r) := by
  have hsend : Proceeds onSend := by
    refine Halts.bind (Client.onConn_proceeds Connection.popFd_proceeds) fun fd => ?_
    refine Halts.bind (Halts.read _) fun st => Halts.bind (Halts.ite ?_ (Halts.pure _)) fun _ =>
      Halts.update _
    exact Client.sys_proceeds (Process.serveSend_proceeds _ _)
  refine Halts.bind (Halts.read _) fun k => Halts.ite ?_ (Halts.update _)
  exact Halts.ite hsend (Halts.ite (Halts.update _) (Halts.pure _))

theorem sendOffers_proceeds (sourceId : UInt32) (mimes : List Text) :
    Proceeds (sendOffers sourceId mimes) := by
  induction mimes with
  | nil => exact Halts.pure _
  | cons m mimes ih => exact Halts.bind (send_proceeds _) fun _ => ih

theorem announce_proceeds (sel : Selection) : Proceeds (announce sel) := by
  refine Halts.bind Client.allocId_proceeds fun sourceId => Halts.bind (Halts.update _) fun _ => ?_
  refine Halts.bind (Halts.update _) fun _ => Halts.bind (Halts.read _) fun st => ?_
  refine Halts.bind (send_proceeds _) fun _ => Halts.bind Client.allocId_proceeds fun deviceId => ?_
  refine Halts.bind (Halts.update _) fun _ => Halts.bind (Halts.update _) fun _ => ?_
  refine Halts.bind (send_proceeds _) fun _ => ?_
  exact Halts.bind (sendOffers_proceeds _ _) fun _ => send_proceeds _

theorem copyClient_proceeds (display seat : Text) (sel : Selection) :
    Proceeds (copyClient display seat sel) := by
  have hsetup : Proceeds (copySetup display seat sel) := by
    refine Halts.bind (start_proceeds handleCopy_proceeds display seat sel) fun ok =>
      Halts.ite ?_ (Halts.pure _)
    refine Halts.bind (Halts.read _) fun st => Halts.ite (Halts.pure _) ?_
    exact Halts.bind (announce_proceeds sel) fun _ =>
      Halts.bind (Client.onConn_proceeds Connection.flush_proceeds) fun _ => Halts.pure _
  refine Halts.bind hsetup fun ok => Halts.ite ?_ (Halts.pure _)
  exact Halts.bind (Client.dispatchUntil_proceeds _ handleCopy_proceeds) fun ok =>
    Halts.bind (Halts.read _) fun st => Halts.pure _

theorem handlePaste_proceeds (obj : UInt32) (op : UInt16) (r : Reader) :
    Proceeds (pasteDispatcher.handle obj op r) := Halts.update _

theorem fetch_proceeds (offId : UInt32) (mime : Text) (available : List Text) :
    Proceeds (fetch offId mime available) := by
  apply Halts.bind (Client.sys_proceeds Process.makePipe_proceeds)
  rintro (_ | ⟨readEnd, writeEnd⟩)
  · exact Halts.pure _
  refine Halts.bind (send_proceeds _) fun _ =>
    Halts.bind (Client.onConn_proceeds (Halts.update _)) fun _ => ?_
  refine Halts.bind (Client.onConn_proceeds Connection.flush_proceeds) fun _ => ?_
  exact Halts.bind (Client.sys_proceeds (Process.drainFd_proceeds _)) fun bytes =>
    Halts.bind (Client.sys_proceeds (record_proceeds _)) fun _ => Halts.pure _

theorem take_proceeds (sel : Selection) (preferMime : Text) (listOnly : Bool) :
    Proceeds (take sel preferMime listOnly) := by
  refine Halts.bind (Halts.read _) fun st => Halts.ite (Halts.pure _) ?_
  split
  · exact Halts.pure _
  · exact Halts.ite (Halts.pure _) (Halts.ite (Halts.pure _) (fetch_proceeds _ _ _))

theorem pasteClient_proceeds (display seat : Text) (sel : Selection) (preferMime : Text)
    (listOnly : Bool) : Proceeds (pasteClient display seat sel preferMime listOnly) := by
  have hdevice : Proceeds getDevice := by
    refine Halts.bind Client.allocId_proceeds fun id => Halts.bind (Halts.update _) fun _ => ?_
    exact Halts.bind (Halts.update _) fun _ => Halts.bind (Halts.read _) fun st => send_proceeds _
  have hsetup : Proceeds (pasteSetup display seat sel) := by
    refine Halts.bind (start_proceeds handlePaste_proceeds display seat sel) fun ok =>
      Halts.ite ?_ (Halts.pure _)
    exact Halts.bind hdevice fun _ =>
      Halts.bind (Client.onConn_proceeds Connection.flush_proceeds) fun _ => Halts.pure _
  refine Halts.bind hsetup fun ok => Halts.ite ?_ (Halts.pure _)
  exact Halts.bind (Client.dispatchUntil_proceeds _ handlePaste_proceeds) fun ok =>
    Halts.ite (take_proceeds _ _ _) (Halts.pure _)

end Handcrafted

theorem HandcraftedBackend.copy_proceeds (display seat : Text) (sel : Selection) (data : CopyData)
    (oneshot : Bool) : Proceeds (HandcraftedBackend.copy display seat sel data oneshot) :=
  Client.run_proceeds (Handcrafted.copyClient_proceeds _ _ _)

theorem HandcraftedBackend.paste_proceeds (display seat : Text) (sel : Selection) (preferMime : Text)
    (listOnly : Bool) : Proceeds (HandcraftedBackend.paste display seat sel preferMime listOnly) :=
  Client.run_proceeds (Handcrafted.pasteClient_proceeds _ _ _ _ _)

/-! ## The libwayland client -/

namespace State

variable {α : Type}

theorem sys_halts {E : Halt → Prop} {p : Prog Halt Process α} (h : Halts E p) : Halts E (sys p) :=
  Halts.zoom h

theorem sys_proceeds {p : Prog Halt Process α} (h : Proceeds p) : Proceeds (sys p) := sys_halts h

theorem request_halts {E : Halt → Prop} (r : WlRequest) : Halts E (request r) :=
  sys_halts (Process.record_halts _)

theorem request_proceeds (r : WlRequest) : Proceeds (request r) := request_halts r

theorem connect_proceeds (display : Text) : Proceeds (connect display) :=
  sys_proceeds (ask_proceeds _ _)

theorem onGlobal_halts {E : Halt → Prop} (name : UInt32) (interface : Text) (version : UInt32) :
    Halts E (onGlobal name interface version) := by
  have hbind : ∀ (r : WlRequest) (f : State → State), Halts E (request r >>= fun _ => Prog.update f) :=
    fun r f => Halts.bind (request_halts r) fun _ => Halts.update f
  exact Halts.bind (Halts.update _) fun _ => Halts.ite (hbind _ _) <| Halts.ite (hbind _ _) <|
    Halts.ite (hbind _ _) (Halts.pure _)

theorem onGlobalRemove_halts {E : Halt → Prop} (name : UInt32) : Halts E (onGlobalRemove name) := by
  have hdestroy : ∀ (r : WlRequest) (f : State → State),
      Halts E (request r >>= fun _ => Prog.update f) :=
    fun r f => Halts.bind (request_halts r) fun _ => Halts.update f
  refine Halts.bind (Halts.update _) fun _ => Halts.bind ?_ fun _ => ?_
  · exact Halts.bind (Halts.read _) fun s => Halts.ite (hdestroy _ _) (Halts.pure _)
  · exact Halts.bind (Halts.read _) fun s => Halts.ite (hdestroy _ _) (Halts.pure _)

theorem pickSeat_proceeds (selector : Text) : Proceeds (pickSeat selector) := by
  refine Halts.bind (Halts.read _) fun seats => Halts.ite (Halts.pure _) (Halts.ite (Halts.pure _) ?_)
  refine Halts.ite ?_ (Halts.pure _)
  split
  · exact Halts.halt trivial
  · exact Halts.pure _

theorem run_proceeds {p : Prog Halt State α} (h : Proceeds p) : Proceeds (run p) := Halts.zoom h

end State

namespace Listening

variable {σ α : Type}

theorem onState_halts {E : Halt → Prop} {p : Prog Halt State α} (h : Halts E p) :
    Halts E (onState p : Prog Halt (Listening σ) α) := Halts.zoom h

theorem sys_proceeds {p : Prog Halt Process α} (h : Proceeds p) :
    Proceeds (sys p : Prog Halt (Listening σ) α) := onState_halts (State.sys_proceeds h)

theorem request_proceeds (r : WlRequest) : Proceeds (request r : Prog Halt (Listening σ) Unit) :=
  onState_halts (State.request_halts r)

theorem run_proceeds {st : σ} {p : Prog Halt (Listening σ) α} (h : Proceeds p) :
    Proceeds (run st p) := Halts.zoom h

variable {h : WlEvent → Prog Halt (Listening σ) Unit}

theorem hear_halts {E : Halt → Prop} (hh : ∀ e, Halts E (h e)) (e : WlEvent) : Halts E (hear h e) := by
  cases e with
  | global name interface version => exact onState_halts (State.onGlobal_halts _ _ _)
  | globalRemove name => exact onState_halts (State.onGlobalRemove_halts _)
  | seatName seat name => exact onState_halts (Halts.update _)
  | _ => exact hh _

theorem hearAll_proceeds (hh : ∀ e, Proceeds (h e)) (es : List WlEvent) : Proceeds (hearAll h es) := by
  induction es with
  | nil => exact Halts.pure _
  | cons e es ih => exact Halts.bind (hear_halts hh e) fun _ => ih

theorem dispatch_proceeds (hh : ∀ e, Proceeds (h e)) : Proceeds (dispatch h) :=
  Halts.bind (sys_proceeds (ask_proceeds _ _)) fun _ =>
    Halts.bind (hearAll_proceeds hh _) fun _ => Halts.pure _

theorem roundtrip_proceeds (hh : ∀ e, Proceeds (h e)) : Proceeds (roundtrip h) :=
  Halts.bind (sys_proceeds (ask_proceeds _ _)) fun _ =>
    Halts.bind (hearAll_proceeds hh _) fun _ => Halts.pure _

end Listening

theorem State.initialSync_proceeds : Proceeds State.initialSync := by
  have hround : Proceeds
      (Listening.roundtrip fun _ => (pure () : Prog Halt (Listening Unit) Unit)) :=
    Listening.roundtrip_proceeds fun _ => Halts.pure _
  exact Listening.run_proceeds (Halts.bind hround fun _ => Halts.bind hround fun _ => Halts.pure _)

theorem State.roundtrip_proceeds : Proceeds State.roundtrip :=
  Listening.run_proceeds (Listening.roundtrip_proceeds fun _ => Halts.pure _)

namespace Listening

variable {σ α β : Type}

/-- A round that begins with a call and goes on has used up a reply. -/
theorem ask_bind_shrinks {c : Call} {answer : Reply → Option α}
    {f : α → Prog Halt (Listening σ) β} (hf : ∀ a, Within (Logged fun _ => True) (f a)) {l l' : Listening σ} {b : β}
    (h : (sys (Process.ask c answer) >>= f) l = (.ok b, l')) :
    l'.toProcess.size < l.toProcess.size := by
  obtain ⟨a, l₁, hask, h⟩ := bind_eq_ok h
  obtain ⟨hret, rfl⟩ := Prod.mk.inj hask
  have hle := Process.Logs.size_le ((hf a).of_eq h)
  have hlt : (Process.ask c answer l.toProcess).2.size < l.toProcess.size :=
    Process.ask_size (Prod.ext hret rfl)
  exact Nat.lt_of_le_of_lt hle hlt

end Listening

open Listening (sys_proceeds request_proceeds run_proceeds dispatch_proceeds)

namespace Libwayland

theorem sourceListener_proceeds (e : WlEvent) : Proceeds (sourceListener e) := by
  cases e with
  | sourceSend mime fd =>
      refine Halts.bind (Halts.read _) fun st => ?_
      exact Halts.bind (sys_proceeds (Process.serveSend_proceeds _ _)) fun _ => Halts.update _
  | sourceCancelled => exact Halts.update _
  | _ => exact Halts.pure _

theorem offerAll_proceeds (mimes : List Text) : Proceeds (offerAll mimes) := by
  induction mimes with
  | nil => exact Halts.pure _
  | cons m mimes ih => exact Halts.bind (request_proceeds _) fun _ => ih

theorem offer_proceeds (seat : SeatInfo) (setSelection : WlRequest) (data : CopyData)
    (oneshot : Bool) : Proceeds (offer seat setSelection data oneshot) := by
  have hserve : Proceeds serve := by
    refine Halts.loop serveRound_shrinks (fun _ => Halts.bind (Halts.read _) fun st => ?_) ()
    refine Halts.ite (Halts.pure _) (Halts.bind (dispatch_proceeds sourceListener_proceeds) fun ok => ?_)
    exact Halts.ite (Halts.pure _) (Halts.pure _)
  have hannounce : Proceeds (announce seat setSelection) := by
    refine Halts.bind (request_proceeds _) fun _ => Halts.bind (request_proceeds _) fun _ => ?_
    refine Halts.bind (Halts.read _) fun st => Halts.bind (offerAll_proceeds _) fun _ => ?_
    exact request_proceeds _
  have hfinish : Proceeds finish := by
    refine Halts.bind (request_proceeds _) fun _ => Halts.bind (request_proceeds _) fun _ => ?_
    exact Halts.bind (Halts.read _) fun st => Halts.pure _
  exact run_proceeds (Halts.bind hannounce fun _ => Halts.bind hserve fun _ => hfinish)

theorem destroyOffers_proceeds {σ : Type} (offers : List PendingOffer) :
    Proceeds (destroyOffers offers : Prog Halt (Listening σ) Unit) := by
  induction offers with
  | nil => exact Halts.pure _
  | cons o offers ih => exact Halts.bind (request_proceeds _) fun _ => ih

theorem take_proceeds {σ : Type} (current : Option ℕ) (offers : List PendingOffer)
    (preferMime : Text) (listOnly : Bool) :
    Proceeds (take current offers preferMime listOnly : Prog Halt (Listening σ) _) := by
  have hdestroy : ∀ r : Bool × PasteResult, Proceeds (do
      Listening.request .destroyDevice
      return r : Prog Halt (Listening σ) _) :=
    fun r => Halts.bind (request_proceeds _) fun _ => Halts.pure _
  unfold take
  split
  · exact hdestroy _
  · refine Halts.ite (hdestroy _) (Halts.ite (hdestroy _) ?_)
    apply Halts.bind (sys_proceeds Process.makePipe_proceeds)
    rintro (_ | ⟨readEnd, writeEnd⟩)
    · exact hdestroy _
    refine Halts.bind (request_proceeds _) fun _ =>
      Halts.bind (sys_proceeds (record_proceeds _)) fun _ => ?_
    refine Halts.bind (sys_proceeds (Process.drainFd_proceeds _)) fun bytes => ?_
    refine Halts.bind (destroyOffers_proceeds _) fun _ => Halts.bind (request_proceeds _) fun _ => ?_
    exact Halts.bind (sys_proceeds (record_proceeds _)) fun _ => Halts.pure _

end Libwayland

open Libwayland (offer_proceeds take_proceeds)

namespace DataControlBackend

theorem copy_proceeds (seat : SeatInfo) (sel : Selection) (data : CopyData) (oneshot : Bool) :
    Proceeds (copy seat sel data oneshot) :=
  Halts.bind (Halts.read _) fun _ => Halts.ite (Halts.pure _) <| Halts.ite (Halts.pure _) <|
    Halts.ite (Halts.pure _) (offer_proceeds _ _ _ _)

theorem paste_proceeds (seat : SeatInfo) (sel : Selection) (preferMime : Text) (listOnly : Bool) :
    Proceeds (paste seat sel preferMime listOnly) := by
  have hawait : Proceeds (awaitTarget sel) := by
    refine Halts.loop (awaitRound_shrinks sel) (fun _ => Halts.bind (Halts.read _) fun st => ?_) ()
    refine Halts.ite (Halts.pure _) (Halts.bind (dispatch_proceeds fun _ => Halts.update _) fun ok => ?_)
    exact Halts.ite (Halts.pure _) (Halts.pure _)
  refine Halts.bind (Halts.read _) fun s => Halts.ite (Halts.pure _) (Halts.ite (Halts.pure _) ?_)
  refine run_proceeds (Halts.bind (request_proceeds _) fun _ => Halts.bind hawait fun ok => ?_)
  refine Halts.ite (Halts.bind (Halts.read _) fun st => take_proceeds _ _ _ _) ?_
  exact Halts.bind (request_proceeds _) fun _ => Halts.pure _

end DataControlBackend

namespace DataDeviceBackend

theorem copy_proceeds (seat : SeatInfo) (sel : Selection) (data : CopyData) (oneshot : Bool) :
    Proceeds (copy seat sel data oneshot) :=
  Halts.bind (Halts.read _) fun _ => Halts.ite (Halts.pure _) <| Halts.ite (Halts.pure _)
    (offer_proceeds _ _ _ _)

theorem awaitRound_shrinks : Shrinks (fun _ l => l.toProcess.size) awaitRound := by
  intro _ l _ l' h
  obtain ⟨st, l₁, hread, h⟩ := bind_eq_ok h
  cases hread
  split_ifs at h
  · cases h
  refine Listening.ask_bind_shrinks ?_ h
  rintro (e | _ | ready)
  · exact Within.pure _
  · exact Within.pure _
  · refine Within.bind ?_ fun ok => Within.ite (Within.pure _) (Within.pure _)
    exact Listening.dispatch_logged (fun _ => trivial) (fun _ _ => trivial) fun _ =>
      Within.update fun _ => .refl _

theorem paste_proceeds (seat : SeatInfo) (sel : Selection) (preferMime : Text) (listOnly : Bool) :
    Proceeds (paste seat sel preferMime listOnly) := by
  have hround : ∀ u, Proceeds (awaitRound u) := by
    intro u
    refine Halts.bind (Halts.read _) fun st => Halts.ite (Halts.pure _) ?_
    apply Halts.bind (sys_proceeds (ask_proceeds _ _))
    rintro (e | _ | ready)
    · exact Halts.pure _
    · exact Halts.pure _
    · exact Halts.bind (dispatch_proceeds fun _ => Halts.update _) fun ok =>
        Halts.ite (Halts.pure _) (Halts.pure _)
  refine Halts.bind (Halts.read _) fun s => Halts.ite (Halts.pure _) (Halts.ite (Halts.pure _) ?_)
  refine run_proceeds (Halts.bind (request_proceeds _) fun _ => ?_)
  refine Halts.bind (Halts.loop awaitRound_shrinks hround ()) fun ok => ?_
  refine Halts.ite (Halts.bind (Halts.read _) fun st => take_proceeds _ _ _ _) ?_
  exact Halts.bind (request_proceeds _) fun _ => Halts.pure _

end DataDeviceBackend

/-! ## X11 -/

/-- A round that begins with a call and goes on has used up a reply. -/
theorem Process.ask_bind_shrinks {α β : Type} {c : Call} {answer : Reply → Option α}
    {f : α → Prog Halt Process β} (hf : ∀ a, Within (Logs fun _ => True) (f a)) {p p' : Process}
    {b : β} (h : (ask c answer >>= f) p = (.ok b, p')) : p'.size < p.size := by
  obtain ⟨a, q, hask, h⟩ := bind_eq_ok h
  exact Nat.lt_of_le_of_lt ((hf a).of_eq h).size_le (ask_size hask)

namespace X11

theorem connect_proceeds (display : Text) : Proceeds (connect display) := by
  apply Halts.bind (ask_proceeds _ _)
  rintro (_ | ⟨fd, window⟩)
  · exact Halts.pure _
  refine Halts.bind ?_ fun atoms => Halts.pure _
  unfold loadAtoms
  iterate 9 refine Halts.bind (ask_proceeds _ _) fun _ => ?_
  exact Halts.pure _

theorem buildTargets_proceeds (a : Atoms) (mimes : List Text) : Proceeds (buildTargets a mimes) := by
  refine Halts.bind ?_ fun interned => Halts.pure _
  induction mimes.filter fun m => !isTextual m with
  | nil => exact Halts.pure _
  | cons m mimes ih => exact Halts.bind (ask_proceeds _ _) fun _ => Halts.bind ih fun _ => Halts.pure _

theorem acquireSelection_proceeds (display : Text) (sel : Selection) (data : CopyData) :
    Proceeds (acquireSelection display sel data) := by
  refine Halts.ite (Halts.pure _) (Halts.bind (connect_proceeds display) ?_)
  rintro (_ | x)
  · exact Halts.pure _
  refine Halts.bind (buildTargets_proceeds _ _) fun targets => Halts.bind (record_proceeds _) fun _ => ?_
  refine Halts.bind (ask_proceeds _ _) fun owner => Halts.ite (Halts.pure _) ?_
  exact Halts.bind (record_proceeds _) fun _ => Halts.pure _

theorem answerRequest_proceeds (ctx : CopyContext) (req : SelectionRequest) :
    Proceeds (answerRequest ctx req) := by
  have hrefuse : ∀ served : Bool, Proceeds (do
      sendSelectionNotify req 0
      return served) := fun served => Halts.bind (record_proceeds _) fun _ => Halts.pure _
  have hstore : ∀ prop type format data (served : Bool), Proceeds (do
      setProperty req prop type format data
      return served) := fun prop type format data served =>
    Halts.bind (Halts.bind (record_proceeds _) fun _ => record_proceeds _) fun _ => Halts.pure _
  exact Halts.ite (hrefuse _) <| Halts.ite (hstore _ _ _ _ _) <| Halts.ite (hstore _ _ _ _ _) <|
    Halts.ite (hrefuse _) (hstore _ _ _ _ _)

theorem answerRequest_later (ctx : CopyContext) (req : SelectionRequest) :
    Within (Process.Logs fun _ => True) (answerRequest ctx req) := by
  have hrecord : ∀ r : XRequest, Within (Process.Logs fun _ => True) (Process.xRequest r) :=
    fun r => Process.record_logs trivial rfl
  have hrefuse : ∀ served : Bool, Within (Process.Logs fun _ => True) (do
      sendSelectionNotify req 0
      return served) := fun served => Within.bind (hrecord _) fun _ => Within.pure _
  have hstore : ∀ prop type format data (served : Bool), Within (Process.Logs fun _ => True) (do
      setProperty req prop type format data
      return served) := fun prop type format data served =>
    Within.bind (Within.bind (hrecord _) fun _ => hrecord _) fun _ => Within.pure _
  exact Within.ite (hrefuse _) <| Within.ite (hstore _ _ _ _ _) <| Within.ite (hstore _ _ _ _ _) <|
    Within.ite (hrefuse _) (hstore _ _ _ _ _)

theorem serveSelection_proceeds (ctx : CopyContext) (oneshot : Bool) :
    Proceeds (serveSelection ctx oneshot) := by
  have hshrinks : Shrinks (fun _ p => p.size) (serveRound ctx oneshot) := by
    intro s p s' p' h
    unfold serveRound at h
    split_ifs at h
    · cases h
    refine Process.ask_bind_shrinks ?_ h
    rintro (_ | _ | _)
    · exact Within.pure _
    · exact Within.bind (answerRequest_later _ _) fun served =>
        Within.ite (Within.pure _) (Within.pure _)
    all_goals exact Within.pure _
  refine Halts.bind (Halts.loop hshrinks (fun s => Halts.ite (Halts.pure _) ?_) _) fun s => Halts.pure _
  apply Halts.bind (ask_proceeds _ _)
  rintro (_ | _ | _)
  · exact Halts.pure _
  · exact Halts.bind (answerRequest_proceeds _ _) fun served => Halts.ite (Halts.pure _) (Halts.pure _)
  all_goals exact Halts.pure _

theorem waitRound_shrinks (fd : Int) (start timeout : ℕ) :
    Shrinks (fun _ p => p.size) (waitRound fd start timeout) := by
  intro u p u' p' h
  refine Process.ask_bind_shrinks ?_ h
  rintro (_ | e)
  · refine Within.bind (any_calls.ask rfl _) fun now => Within.ite (Within.pure _) ?_
    exact Within.bind (any_calls.ask rfl _) fun _ => Within.pure _
  · cases e <;> exact Within.pure _

theorem requestAndWait_proceeds (x : Connection) (selatom target : Atom) :
    Proceeds (requestAndWait x selatom target) := by
  refine Halts.bind (record_proceeds _) fun _ => Halts.bind (ask_proceeds _ _) fun start => ?_
  refine Halts.loop (waitRound_shrinks _ _ _) (fun _ => Halts.bind (ask_proceeds _ _) ?_) ()
  rintro (_ | e)
  · refine Halts.bind (ask_proceeds _ _) fun now => Halts.ite (Halts.pure _) ?_
    exact Halts.bind (ask_proceeds _ _) fun _ => Halts.pure _
  · cases e <;> exact Halts.pure _

theorem readProperty_proceeds (x : Connection) : Proceeds (readProperty x) :=
  Halts.loop (readRound_shrinks x) (fun _ => Halts.bind (ask_proceeds _ _) fun _ => Halts.pure _) _

theorem mimeNames_proceeds (a : Atoms) (atoms : List Atom) : Proceeds (mimeNames a atoms) := by
  induction atoms with
  | nil => exact Halts.pure _
  | cons t ts ih =>
      have hnext : ∀ name : Text, Proceeds (do return name :: (← mimeNames a ts)) :=
        fun name => Halts.bind ih fun _ => Halts.pure _
      exact Halts.ite ih <| Halts.ite (hnext _) <| Halts.ite (hnext _) <| Halts.ite (hnext _) <|
        Halts.ite ih <| Halts.bind (ask_proceeds _ _) fun name => hnext name

theorem pasteFrom_proceeds (x : Connection) (sel : Selection) (preferMime : Text) (listOnly : Bool) :
    Proceeds (pasteFrom x sel preferMime listOnly) := by
  have htargets : Proceeds (askTargets x (selectionAtom x.atoms sel)) := by
    refine Halts.bind (requestAndWait_proceeds _ _ _) fun ok => Halts.ite ?_ (Halts.pure _)
    refine Halts.bind (readProperty_proceeds x) fun raw => Halts.ite (Halts.pure _) ?_
    exact Halts.bind (mimeNames_proceeds _ _) fun _ => Halts.pure _
  have htarget : ∀ mime, Proceeds (targetAtom x.atoms mime) := fun mime =>
    Halts.ite (Halts.pure _) <| Halts.ite (Halts.pure _) <| Halts.ite (Halts.pure _) (ask_proceeds _ _)
  have hdata : ∀ mime, Proceeds (askData x (selectionAtom x.atoms sel) mime) := fun mime =>
    Halts.ite (Halts.pure _) <| Halts.bind (htarget mime) fun target =>
      Halts.ite (Halts.pure _) (requestAndWait_proceeds _ _ _)
  apply Halts.bind htargets
  rintro (_ | mimes)
  · exact Halts.pure _
  refine Halts.ite (Halts.pure _) (Halts.bind (hdata _) fun ok => Halts.ite ?_ (Halts.pure _))
  exact Halts.bind (readProperty_proceeds x) fun bytes => Halts.pure _

end X11

namespace X11Backend

open X11

theorem copyAcquireThenDetach_proceeds (display : Text) (sel : Selection) (data : CopyData)
    (oneshot detach : Bool) {afterForkInParent : Prog Halt Process Unit}
    (hafter : Proceeds afterForkInParent) :
    Proceeds (copyAcquireThenDetach display sel data oneshot detach afterForkInParent) := by
  have hserve : ∀ ctx, Proceeds (serveAndRelease ctx oneshot) := fun ctx =>
    Halts.bind (serveSelection_proceeds ctx oneshot) fun ok =>
      Halts.bind (record_proceeds _) fun _ => Halts.pure _
  apply Halts.bind (acquireSelection_proceeds display sel data)
  rintro (_ | ctx)
  · exact Halts.pure _
  refine Halts.ite (Halts.bind (ask_proceeds _ _) fun pid => Halts.ite ?_ (Halts.ite ?_ (hserve ctx)))
    (hserve ctx)
  · exact Halts.bind (record_proceeds _) fun _ => Halts.pure _
  · exact Halts.bind hafter fun _ => Halts.halt rfl

theorem paste_proceeds (display : Text) (sel : Selection) (preferMime : Text) (listOnly : Bool) :
    Proceeds (paste display sel preferMime listOnly) := by
  apply Halts.bind (connect_proceeds display)
  rintro (_ | x)
  · exact Halts.pure _
  · exact Halts.bind (pasteFrom_proceeds _ _ _ _) fun r =>
      Halts.bind (record_proceeds _) fun _ => Halts.pure _

end X11Backend

/-! ## The commands -/

theorem Backend.copy_proceeds (common : CommonOptions) (seat : SeatInfo) (data : CopyData)
    (oneshot : Bool) (b : Backend) : Proceeds (b.copy common seat data oneshot) := by
  cases b with
  | dataControl => exact DataControlBackend.copy_proceeds _ _ _ _
  | dataDevice => exact DataDeviceBackend.copy_proceeds _ _ _ _
  | handcrafted => exact State.sys_proceeds (HandcraftedBackend.copy_proceeds _ _ _ _ _)
  | x11 =>
      exact State.sys_proceeds (X11Backend.copyAcquireThenDetach_proceeds _ _ _ _ _ (Halts.pure _))

theorem Backend.paste_proceeds (common : CommonOptions) (seat : SeatInfo) (preferMime : Text)
    (listOnly : Bool) (b : Backend) : Proceeds (b.paste common seat preferMime listOnly) := by
  cases b with
  | dataControl => exact DataControlBackend.paste_proceeds _ _ _ _
  | dataDevice => exact DataDeviceBackend.paste_proceeds _ _ _ _
  | handcrafted => exact State.sys_proceeds (HandcraftedBackend.paste_proceeds _ _ _ _ _)
  | x11 => exact State.sys_proceeds (X11Backend.paste_proceeds _ _ _ _)

namespace CopyCommand

theorem collectData_proceeds (o : CopyOpts) : Proceeds (collectData o) := by
  have hpayload : Proceeds (collectPayload o) :=
    Halts.ite (Halts.bind (Halts.pure _) fun _ => Halts.pure _)
      (Halts.bind (Process.drainFd_proceeds _) fun _ => Halts.pure _)
  exact Halts.ite (Halts.pure _) <| Halts.bind hpayload fun bytes =>
    Halts.ite (Halts.pure _) (Halts.pure _)

theorem probeCurrentOffer_proceeds (primary : Bool) (mimes : List Text) (bytes : List UInt8) :
    Proceeds (probeCurrentOffer primary mimes bytes) := by
  apply Halts.bind (Halts.read _)
  intro st
  dsimp only
  split
  · exact Halts.pure _
  split
  · exact Halts.pure _
  refine Halts.ite (Halts.pure _) (Halts.bind (sys_proceeds Process.makePipe_proceeds) ?_)
  rintro (_ | ⟨readEnd, writeEnd⟩)
  · exact Halts.pure _
  refine Halts.bind (request_proceeds _) fun _ =>
    Halts.bind (sys_proceeds (record_proceeds _)) fun _ => ?_
  refine Halts.bind (sys_proceeds (Process.drainFd_proceeds _)) fun got => ?_
  exact Halts.bind (sys_proceeds (record_proceeds _)) fun _ => Halts.pure _

theorem visibilityRound_proceeds (primary : Bool) (mimes : List Text) (bytes : List UInt8)
    (deadline : ℕ) (u : Unit) : Proceeds (visibilityRound primary mimes bytes deadline u) := by
  apply Halts.bind (probeCurrentOffer_proceeds _ _ _)
  rintro (_ | _ | _)
  · exact Halts.pure _
  · refine Halts.bind (sys_proceeds (ask_proceeds _ _)) fun now => Halts.ite (Halts.pure _) ?_
    apply Halts.bind (sys_proceeds (ask_proceeds _ _))
    rintro (e | _ | ready)
    · exact Halts.pure _
    · exact Halts.pure _
    · exact Halts.bind (dispatch_proceeds fun _ => Halts.update _) fun ok =>
        Halts.ite (Halts.pure _) (Halts.pure _)
  · exact Halts.pure _

theorem visibilityRound_shrinks (primary : Bool) (mimes : List Text) (bytes : List UInt8)
    (deadline : ℕ) :
    Shrinks (fun _ l => l.toProcess.size) (visibilityRound primary mimes bytes deadline) := by
  have hany : Watching fun _ => True := ⟨fun _ _ _ => trivial, fun _ => trivial, fun _ => trivial⟩
  intro u l u' l' h
  obtain ⟨probe, l₁, hprobe, h⟩ := bind_eq_ok h
  have hle := Process.Logs.size_le ((hany.probeCurrentOffer primary mimes bytes).of_eq hprobe)
  cases probe with
  | notYet =>
      refine Nat.lt_of_lt_of_le (Listening.ask_bind_shrinks (fun now => ?_) h) hle
      refine Within.ite (Within.pure _) (Within.bind (hany.sys rfl _) ?_)
      rintro (e | _ | ready)
      · exact Within.pure _
      · exact Within.pure _
      · refine Within.bind ?_ fun ok => Within.ite (Within.pure _) (Within.pure _)
        exact Listening.dispatch_logged (fun _ => trivial) (fun _ _ => trivial)
          Watching.syncListener_logged
  | _ => cases h

theorem waitForWlVisibility_proceeds (display : Text) (primary : Bool) (mimes : List Text)
    (bytes : List UInt8) (timeoutMs : ℕ) :
    Proceeds (waitForWlVisibility display primary mimes bytes timeoutMs) := by
  have hawait : ∀ seat deadline, Proceeds (awaitVisible seat primary mimes bytes deadline) := by
    intro seat deadline
    refine Halts.bind (request_proceeds _) fun _ =>
      Halts.bind (Listening.roundtrip_proceeds fun _ => Halts.update _) fun _ => ?_
    refine Halts.bind (Halts.loop (visibilityRound_shrinks _ _ _ _)
      (visibilityRound_proceeds _ _ _ _) ()) fun verified => Halts.bind (Halts.read _) fun st => ?_
    exact Halts.bind (Libwayland.destroyOffers_proceeds _) fun _ =>
      Halts.bind (request_proceeds _) fun _ => Halts.pure _
  refine Halts.bind (ask_proceeds _ _) fun start => State.run_proceeds ?_
  refine Halts.bind (State.connect_proceeds _) fun ok => Halts.ite ?_ (Halts.pure _)
  refine Halts.bind State.initialSync_proceeds fun _ => Halts.bind (Halts.read _) fun s => ?_
  refine Halts.ite (Halts.pure _) (Halts.ite (Halts.pure _) ?_)
  apply Halts.bind (State.pickSeat_proceeds _)
  rintro (_ | seat)
  · exact Halts.pure _
  · exact run_proceeds (hawait _ _)

theorem runX11_proceeds (common : CommonOptions) (o : CopyOpts) (data : CopyData) :
    Proceeds (runX11 common o data) := by
  refine Halts.ite (Halts.pure _) (Halts.bind ?_ fun ok => Halts.pure _)
  refine X11Backend.copyAcquireThenDetach_proceeds _ _ _ _ _ (Halts.ite ?_ (Halts.pure _))
  exact Halts.bind (waitForWlVisibility_proceeds _ _ _ _ _) fun _ => Halts.pure _

theorem runLibwayland_proceeds (common : CommonOptions) (o : CopyOpts) (kind : BackendKind)
    (data : CopyData) : Proceeds (runLibwayland common o kind data) := by
  have hclear : ∀ seat, Proceeds (handleClear seat common.primary) := fun seat =>
    Halts.bind (Halts.read _) fun s => Halts.ite (Halts.pure _) <|
      Halts.bind (State.request_proceeds _) fun _ => Halts.bind (State.request_proceeds _) fun _ =>
        Halts.bind State.roundtrip_proceeds fun _ =>
          Halts.bind (State.request_proceeds _) fun _ => Halts.pure _
  refine State.run_proceeds (Halts.bind (State.connect_proceeds _) fun ok => Halts.ite ?_ (Halts.pure _))
  refine Halts.bind State.initialSync_proceeds fun _ => Halts.bind (State.pickSeat_proceeds _) ?_
  rintro (_ | seat)
  · exact Halts.pure _
  refine Halts.ite (hclear seat) (Halts.bind (Halts.read _) fun s => ?_)
  rcases makeBackend s kind with _ | backend
  · exact Halts.pure _
  · exact Halts.bind (Backend.copy_proceeds _ _ _ _ _) fun ok => Halts.pure _

theorem detachToBackground_proceeds : Proceeds detachToBackground :=
  Halts.bind (ask_proceeds _ _) fun _ =>
    Halts.ite (Halts.pure _) (Halts.ite (Halts.halt rfl) (Halts.pure _))

theorem runDetached_proceeds (common : CommonOptions) (o : CopyOpts) (kind : BackendKind)
    (data : CopyData) : Proceeds (runDetached common o kind data) := by
  have hhandcrafted : Proceeds (runHandcrafted common o data) :=
    Halts.ite (Halts.pure _) (Halts.bind (HandcraftedBackend.copy_proceeds _ _ _ _ _) fun ok =>
      Halts.pure _)
  have hrun : ∀ detached : Bool, Proceeds (if (!detached) = true then (pure 1 : Prog Halt Process ℕ)
      else if branch kind = .handcrafted then runHandcrafted common o data
      else runLibwayland common o kind data) := fun detached =>
    Halts.ite (Halts.pure _) (Halts.ite hhandcrafted (runLibwayland_proceeds _ _ _ _))
  exact Halts.ite (Halts.bind detachToBackground_proceeds hrun) (Halts.bind (Halts.pure _) hrun)

end CopyCommand

namespace PasteCommand

theorem receive_proceeds (common : CommonOptions) (o : PasteOpts) (kind : BackendKind) :
    Proceeds (receive common o kind) := by
  unfold receive
  split
  · exact HandcraftedBackend.paste_proceeds _ _ _ _ _
  · exact X11Backend.paste_proceeds _ _ _ _
  refine State.run_proceeds (Halts.bind (State.connect_proceeds _) fun ok => Halts.ite ?_ (Halts.pure _))
  refine Halts.bind State.initialSync_proceeds fun _ => Halts.bind (State.pickSeat_proceeds _) ?_
  rintro (_ | seat)
  · exact Halts.pure _
  apply Halts.bind (Halts.read _)
  intro s
  rcases makeBackend s kind with _ | backend
  · exact Halts.pure _
  · exact Backend.paste_proceeds _ _ _ _ _

theorem output_proceeds (o : PasteOpts) (out : PasteResult) : Proceeds (output o out) := by
  have hwrite : ∀ bytes, Proceeds (do
      let _ ← Process.write stdoutFileno bytes
      return 0 : Prog Halt Process ℕ) :=
    fun bytes => Halts.bind (Process.write_proceeds _ _) fun _ => Halts.pure _
  have hnewline : ∀ ok : Bool, Proceeds (if (!ok) = true then (pure 1 : Prog Halt Process ℕ)
      else if addsNewline o out = true then do
        let _ ← Process.write stdoutFileno [0x0A]
        return 0
      else pure 0) :=
    fun ok => Halts.ite (Halts.pure _) (Halts.ite (hwrite _) (Halts.pure _))
  refine Halts.ite (Halts.ite (Halts.pure _) (hwrite _)) (Halts.ite ?_ ?_)
  · exact Halts.bind (Halts.pure _) hnewline
  · exact Halts.bind (Process.writeAll_proceeds _ _) hnewline

end PasteCommand

end WlClip
