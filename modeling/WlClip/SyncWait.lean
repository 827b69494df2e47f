import WlClip.CopyCommand

/-!
# Waiting until a selection is visible

`wait_for_wl_visibility` of `copy.cpp` looks at the selection over a connection of its own.
-/

open ScriptedProgram ScriptedProgram.Prog

namespace WlClip

def Call.watches : Call → Bool
  | .clock => true
  | .displayConnect _ => true
  | .displayRoundtrip => true
  | .displayDispatch => true
  | .displayPoll _ => true
  | .pipe => true
  | .read _ => true
  | _ => false

/-- Everything that the wait does is in `A`. -/
structure Watching (A : Action → Prop) : Prop where
  call : ∀ c r, c.watches = true → A (.call c r)
  request : ∀ r, A (.request r)
  close : ∀ fd, A (.close fd)

namespace Watching

open Process (Logs)

variable {A : Action → Prop}

theorem ask (h : Watching A) {α : Type} {c : Call} (hc : c.watches = true)
    (answer : Reply → Option α) : Within (Logs A) (Process.ask c answer) :=
  Process.ask_logs fun r _ _ => h.call c r hc

theorem makePipe (h : Watching A) : Within (Logs A) Process.makePipe := by
  apply Within.bind (h.ask rfl _)
  rintro (e | ends) <;> exact Within.pure _

theorem drainFd (h : Watching A) (fd : Int) : Within (Logs A) (Process.drainFd fd) := by
  refine Within.loop (fun buf => Within.bind (h.ask rfl _) ?_) _
  rintro (e | _ | ⟨b, data⟩)
  · cases e <;> exact Within.pure _
  · exact Within.pure _
  · exact Within.pure _

section

variable {σ α : Type}

theorem sys (h : Watching A) {c : Call} (hc : c.watches = true) (answer : Reply → Option α) :
    Within (Listening.Logged A) (Listening.sys (Process.ask c answer) : Prog Halt (Listening σ) α) :=
  Listening.onState_logged (State.sys_logged (h.ask hc answer))

theorem request_logged (h : Watching A) (r : WlRequest) :
    Within (Listening.Logged A) (Listening.request r : Prog Halt (Listening σ) Unit) :=
  Listening.onState_logged (State.request_logged (h.request r))

theorem roundtrip (h : Watching A) {listener : WlEvent → Prog Halt (Listening σ) Unit}
    (hlistener : ∀ e, Within (Listening.Logged A) (listener e)) :
    Within (Listening.Logged A) (Listening.roundtrip listener) :=
  Listening.roundtrip_logged (fun _ => h.call _ _ rfl) (fun _ _ => h.request _) hlistener

theorem initialSync (h : Watching A) : Within (State.Logged A) State.initialSync := by
  have hround : Within (Listening.Logged A)
      (Listening.roundtrip fun _ => (pure () : Prog Halt (Listening Unit) Unit)) :=
    h.roundtrip fun _ => Within.pure _
  exact Listening.run_logged (Within.bind hround fun _ => Within.bind hround fun _ => Within.pure _)

theorem destroyOffers (h : Watching A) (offers : List Libwayland.PendingOffer) :
    Within (Listening.Logged A) (Libwayland.destroyOffers (σ := σ) offers) := by
  induction offers with
  | nil => exact Within.pure _
  | cons o offers ih => exact Within.bind (h.request_logged _) fun _ => ih

end

open CopyCommand

theorem syncListener_logged (e : WlEvent) : Within (Listening.Logged A) (syncListener e) :=
  Within.update fun l => .refl l.toProcess

theorem probeCurrentOffer (h : Watching A) (primary : Bool) (mimes : List Text) (bytes : List UInt8) :
    Within (Listening.Logged A) (CopyCommand.probeCurrentOffer primary mimes bytes) := by
  apply Within.bind (R := Listening.Logged A) (Within.read _)
  intro st
  dsimp only
  split
  · exact Within.pure _
  split
  · exact Within.pure _
  refine Within.ite (Within.pure _) (Within.bind
    (Listening.onState_logged (State.sys_logged h.makePipe)) ?_)
  rintro (_ | ⟨readEnd, writeEnd⟩)
  · exact Within.pure _
  apply Within.bind (h.request_logged _)
  intro _
  have hclose : ∀ fd, Within (Listening.Logged A)
      (Listening.sys (Process.close fd) : Prog Halt (Listening SyncState) PUnit) := fun fd =>
    Listening.onState_logged (State.sys_logged (Process.record_logs (h.close fd) rfl))
  apply Within.bind (hclose writeEnd)
  intro _
  apply Within.bind (Listening.onState_logged (State.sys_logged (h.drainFd readEnd)))
  intro got
  exact Within.bind (hclose readEnd) fun _ => Within.pure _

theorem visibilityRound (h : Watching A) (primary : Bool) (mimes : List Text) (bytes : List UInt8)
    (deadline : ℕ) :
    Within (Listening.Logged A) (CopyCommand.visibilityRound primary mimes bytes deadline ()) := by
  apply Within.bind (h.probeCurrentOffer primary mimes bytes)
  rintro (_ | _ | _)
  · exact Within.pure _
  · apply Within.bind (h.sys rfl _)
    intro now
    refine Within.ite (Within.pure _) (Within.bind (h.sys rfl _) ?_)
    rintro (e | _ | pollin)
    · exact Within.pure _
    · exact Within.pure _
    · refine Within.bind (Listening.dispatch_logged (fun _ => h.call _ _ rfl)
        (fun _ _ => h.request _) syncListener_logged) fun ok => ?_
      exact Within.ite (Within.pure _) (Within.pure _)
  · exact Within.pure _

theorem awaitVisible (h : Watching A) (seat : SeatInfo) (primary : Bool) (mimes : List Text)
    (bytes : List UInt8) (deadline : ℕ) :
    Within (Listening.Logged A) (CopyCommand.awaitVisible seat primary mimes bytes deadline) := by
  apply Within.bind (h.request_logged _)
  intro _
  apply Within.bind (h.roundtrip syncListener_logged)
  intro _
  apply Within.bind (Within.loop (fun _ => h.visibilityRound primary mimes bytes deadline) ())
  intro verified
  apply Within.bind (R := Listening.Logged A) (Within.read _)
  intro st
  apply Within.bind (h.destroyOffers st.offers)
  intro _
  exact Within.bind (h.request_logged _) fun _ => Within.pure _

theorem wait (h : Watching A) (display : Text) (primary : Bool) (mimes : List Text)
    (bytes : List UInt8) (timeoutMs : ℕ) :
    Within (Logs A) (waitForWlVisibility display primary mimes bytes timeoutMs) := by
  have hseat : Within (State.Logged A) (State.pickSeat []) := by
    apply Within.bind (R := State.Logged A) (Within.read _)
    intro seats
    exact Within.ite (Within.pure _) (Within.pure _)
  apply Within.bind (h.ask rfl _)
  intro start
  refine Within.zoom (R := State.Logged A) ?_ fun _ _ hlogs => hlogs
  apply Within.bind (State.sys_logged (h.ask rfl _))
  intro ok
  refine Within.ite (Within.bind h.initialSync fun _ => ?_) (Within.pure _)
  apply Within.bind (R := State.Logged A) (Within.read _)
  intro s
  refine Within.ite (Within.pure _) (Within.ite (Within.pure _) (Within.bind hseat ?_))
  rintro (_ | seat)
  · exact Within.pure _
  · exact Listening.run_logged (h.awaitVisible seat primary mimes bytes _)

end Watching

end WlClip
