import WlClip.Process
import WlClip.Requests
import Mathlib.Tactic.SplitIfs

/-!
# The libwayland connection

`State` of `state.cpp`: the globals, the seats and the two managers, and how events change them.
`Listening` is a state with the user data of the listeners of an operation. Flushing is left out,
since nothing looks at its result.
-/

open ScriptedProgram ScriptedProgram.Prog

namespace WlClip

def kIfWlMgr : Text := text "wl_data_device_manager"

structure SeatInfo where
  proxy : Proxy
  name : UInt32
  version : UInt32
  identifier : Text
  deriving DecidableEq

structure GlobalInfo where
  name : UInt32
  interface : Text
  version : UInt32
  deriving DecidableEq

structure State extends Process where
  globals : List GlobalInfo
  seats : List SeatInfo
  zwlrManager : Bool
  zwlrManagerVersion : UInt32
  zwlrManagerGlobalName : UInt32
  wlManager : Bool
  wlManagerVersion : UInt32
  wlManagerGlobalName : UInt32

namespace State

def new (p : Process) : State :=
  { toProcess := p, globals := [], seats := [], zwlrManager := false, zwlrManagerVersion := 0,
    zwlrManagerGlobalName := 0, wlManager := false, wlManagerVersion := 0,
    wlManagerGlobalName := 0 }

def sys {α : Type} (p : Prog Halt Process α) : Prog Halt State α :=
  .zoom State.toProcess (fun s q => { s with toProcess := q }) p

def request (r : WlRequest) : Prog Halt State Unit := sys (Process.request r)

def connect (displayName : Text) : Prog Halt State Bool := sys (Process.displayConnect displayName)

/-! ## Registry and seat events -/

/-- A seat's proxy is its place among those that were bound. -/
def bindSeat (name version : UInt32) (s : State) : State :=
  { s with seats := s.seats ++ [⟨s.seats.length, name, version, []⟩] }

def onGlobal (name : UInt32) (interface : Text) (version : UInt32) : Prog Halt State Unit := do
  Prog.update fun s => { s with globals := s.globals ++ [⟨name, interface, version⟩] }
  if interface = kIfWlSeat then
    request (.bind name interface (min version 7))
    Prog.update (bindSeat name (min version 7))
  else if interface = kIfZwlrMgr then
    request (.bind name interface (min version 2))
    Prog.update fun s =>
      { s with
        zwlrManager := true
        zwlrManagerVersion := min version 2
        zwlrManagerGlobalName := name }
  else if interface = kIfWlMgr then
    request (.bind name interface (min version 3))
    Prog.update fun s =>
      { s with
        wlManager := true
        wlManagerVersion := min version 3
        wlManagerGlobalName := name }
  else return ()

def removeZwlr (name : UInt32) : Prog Halt State Unit := do
  let s ← Prog.read id
  if name = s.zwlrManagerGlobalName ∧ s.zwlrManager then
    request (.destroyManager kIfZwlrMgr)
    Prog.update fun s => { s with zwlrManager := false }
  else return ()

def removeWl (name : UInt32) : Prog Halt State Unit := do
  let s ← Prog.read id
  if name = s.wlManagerGlobalName ∧ s.wlManager then
    request (.destroyManager kIfWlMgr)
    Prog.update fun s => { s with wlManager := false }
  else return ()

def onGlobalRemove (name : UInt32) : Prog Halt State Unit := do
  Prog.update fun s => { s with globals := s.globals.filter fun g => g.name ≠ name }
  removeZwlr name
  removeWl name

/-- The first seat with the proxy gets the name. -/
def renameSeat (seat : Proxy) (name : Text) : List SeatInfo → List SeatInfo
  | [] => []
  | s :: seats =>
    if s.proxy = seat then { s with identifier := name } :: seats
    else s :: renameSeat seat name seats

def onSeatName (seat : Proxy) (name : Text) : Prog Halt State Unit :=
  .update fun s => { s with seats := renameSeat seat name s.seats }

/-! ## Seats -/

def seatByName (selector : Text) (seats : List SeatInfo) : Option SeatInfo :=
  seats.find? fun s => s.identifier = selector

/-- A number that is no index is looked up as a name. -/
def pickSeat (selector : Text) : Prog Halt State (Option SeatInfo) := do
  let seats ← Prog.read State.seats
  if seats = [] then return none
  else if selector = [] then return seats.head?
  else if allDigits selector then
    match stoul selector with
    | none => Prog.halt .uncaught
    | some idx => return (seats[idx]?).or (seatByName selector seats)
  else return seatByName selector seats

end State

/-! ## Listeners -/

structure Listening (σ : Type) extends State where
  st : σ

namespace Listening

variable {σ α : Type}

def onState (p : Prog Halt State α) : Prog Halt (Listening σ) α :=
  .zoom Listening.toState (fun l s => { l with toState := s }) p

def sys (p : Prog Halt Process α) : Prog Halt (Listening σ) α := onState (State.sys p)

def request (r : WlRequest) : Prog Halt (Listening σ) Unit := onState (State.request r)

def setState (f : σ → σ) : Prog Halt (Listening σ) Unit :=
  .update fun l => { l with st := f l.st }

/-- Runs an operation whose listeners share a state of their own. -/
def run (st : σ) (p : Prog Halt (Listening σ) α) : Prog Halt State α :=
  .zoom (fun s => ⟨s, st⟩) (fun _ l => l.toState) p

/-- The registry and the seats have their listeners in the state, all others in the operation. -/
def hear (h : WlEvent → Prog Halt (Listening σ) Unit) : WlEvent → Prog Halt (Listening σ) Unit
  | .global name interface version => onState (State.onGlobal name interface version)
  | .globalRemove name => onState (State.onGlobalRemove name)
  | .seatName seat name => onState (State.onSeatName seat name)
  | e => h e

def hearAll (h : WlEvent → Prog Halt (Listening σ) Unit) :
    List WlEvent → Prog Halt (Listening σ) Unit
  | [] => return ()
  | e :: es => do
    hear h e
    hearAll h es

/-- Every event that is queued is dispatched before the call returns. -/
def dispatch (h : WlEvent → Prog Halt (Listening σ) Unit) : Prog Halt (Listening σ) Bool := do
  let (events, ok) ← sys Process.displayDispatch
  hearAll h events
  return ok

theorem displayDispatch_cons {l : Listening σ} {events : List WlEvent} {ok : Bool}
    {rest : List Reply} (hs : l.script = .displayDispatch events ok :: rest) :
    sys Process.displayDispatch l = (.ok (events, ok), { l with
      toProcess := l.after [.call .displayDispatch (.displayDispatch events ok)] rest }) := by
  have hcons : Process.displayDispatch l.toProcess = _ := Process.ask_cons hs rfl
  simp only [sys, onState, State.sys, Prog.zoom_apply, hcons]
  rfl

def roundtrip (h : WlEvent → Prog Halt (Listening σ) Unit) : Prog Halt (Listening σ) Bool := do
  let (events, ok) ← sys Process.displayRoundtrip
  hearAll h events
  return ok

end Listening

/-! ## Progress -/

/-- The process has run on and logged only actions in `A`. -/
def State.Logged (A : Action → Prop) (s s' : State) : Prop :=
  Process.Logs A s.toProcess s'.toProcess

/-- The process has run on. -/
def State.Later (s s' : State) : Prop := Process.Logs (fun _ => True) s.toProcess s'.toProcess

instance (A : Action → Prop) : IsPreorder State (State.Logged A) where
  refl _ := .refl _
  trans _ _ _ := .trans

/-- A request that the listeners of the registry make. -/
def WlRequest.OfRegistry : WlRequest → Prop
  | .bind _ _ _ => True
  | .destroyManager _ => True
  | _ => False

namespace State

variable {A : Action → Prop}

theorem sys_logged {α : Type} {p : Prog Halt Process α} (h : Within (Process.Logs A) p) :
    Within (Logged A) (sys p) :=
  h.zoom fun _ _ hlogs => hlogs

theorem request_logged {r : WlRequest} (h : A (.request r)) : Within (Logged A) (request r) :=
  sys_logged (Process.record_logs h rfl)

theorem update_logged {f : State → State} (hf : ∀ s, (f s).toProcess = s.toProcess) :
    Within (Logged A) (Prog.update f : Prog Halt State PUnit) :=
  Within.update fun s => show Process.Logs A s.toProcess (f s).toProcess from hf s ▸ .refl _

theorem onGlobal_logged (h : ∀ r : WlRequest, r.OfRegistry → A (.request r)) (name : UInt32)
    (interface : Text) (version : UInt32) :
    Within (Logged A) (onGlobal name interface version) := by
  have hbind : ∀ version, Within (Logged A) (request (.bind name interface version)) :=
    fun version => request_logged (h _ trivial)
  refine Within.bind (update_logged fun _ => rfl) fun _ => Within.ite ?_ (Within.ite ?_
    (Within.ite ?_ (Within.pure _)))
  · exact Within.bind (hbind _) fun _ => update_logged fun _ => rfl
  · exact Within.bind (hbind _) fun _ => update_logged fun _ => rfl
  · exact Within.bind (hbind _) fun _ => update_logged fun _ => rfl

theorem onGlobalRemove_logged (h : ∀ r : WlRequest, r.OfRegistry → A (.request r))
    (name : UInt32) : Within (Logged A) (onGlobalRemove name) := by
  have hdestroy : ∀ interface, Within (Logged A) (request (.destroyManager interface)) :=
    fun interface => request_logged (h _ trivial)
  refine Within.bind (update_logged fun _ => rfl) fun _ => Within.bind ?_ fun _ => ?_
  · exact Within.bind (Within.read _) fun s => Within.ite
      (Within.bind (hdestroy _) fun _ => update_logged fun _ => rfl) (Within.pure _)
  · exact Within.bind (Within.read _) fun s => Within.ite
      (Within.bind (hdestroy _) fun _ => update_logged fun _ => rfl) (Within.pure _)

end State

namespace Listening

variable {σ : Type} {A : Action → Prop}

def Logged (A : Action → Prop) (l l' : Listening σ) : Prop := State.Logged A l.toState l'.toState

def Later (l l' : Listening σ) : Prop := State.Later l.toState l'.toState

instance (A : Action → Prop) : IsPreorder (Listening σ) (Logged A) where
  refl _ := .refl _
  trans _ _ _ := .trans

theorem onState_logged {α : Type} {p : Prog Halt State α} (h : Within (State.Logged A) p) :
    Within (Logged A) (onState p : Prog Halt (Listening σ) α) :=
  h.zoom fun _ _ hlogged => hlogged

theorem hear_logged (hA : ∀ r : WlRequest, r.OfRegistry → A (.request r))
    {h : WlEvent → Prog Halt (Listening σ) Unit} (hh : ∀ e, Within (Logged A) (h e))
    (e : WlEvent) : Within (Logged A) (hear h e) := by
  cases e with
  | global name interface version => exact onState_logged (State.onGlobal_logged hA _ _ _)
  | globalRemove name => exact onState_logged (State.onGlobalRemove_logged hA _)
  | seatName seat name => exact onState_logged (State.update_logged fun _ => rfl)
  | _ => exact hh _

theorem hearAll_logged (hA : ∀ r : WlRequest, r.OfRegistry → A (.request r))
    {h : WlEvent → Prog Halt (Listening σ) Unit} (hh : ∀ e, Within (Logged A) (h e))
    (es : List WlEvent) : Within (Logged A) (hearAll h es) := by
  induction es with
  | nil => exact Within.pure _
  | cons e es ih => exact Within.bind (hear_logged hA hh e) fun _ => ih

theorem hearAll_later {h : WlEvent → Prog Halt (Listening σ) Unit} (hh : ∀ e, Within Later (h e))
    (es : List WlEvent) : Within Later (hearAll h es) :=
  hearAll_logged (A := fun _ => True) (fun _ _ => trivial) hh es

theorem dispatch_logged (hcall : ∀ r, A (.call .displayDispatch r))
    (hA : ∀ r : WlRequest, r.OfRegistry → A (.request r))
    {h : WlEvent → Prog Halt (Listening σ) Unit} (hh : ∀ e, Within (Logged A) (h e)) :
    Within (Logged A) (dispatch h) :=
  Within.bind (onState_logged (State.sys_logged (Process.ask_logs fun r _ _ => hcall r)))
    fun _ => Within.bind (hearAll_logged hA hh _) fun _ => Within.pure _

theorem roundtrip_logged (hcall : ∀ r, A (.call .displayRoundtrip r))
    (hA : ∀ r : WlRequest, r.OfRegistry → A (.request r))
    {h : WlEvent → Prog Halt (Listening σ) Unit} (hh : ∀ e, Within (Logged A) (h e)) :
    Within (Logged A) (roundtrip h) :=
  Within.bind (onState_logged (State.sys_logged (Process.ask_logs fun r _ _ => hcall r)))
    fun _ => Within.bind (hearAll_logged hA hh _) fun _ => Within.pure _

theorem run_logged {α : Type} {st : σ} {p : Prog Halt (Listening σ) α} (h : Within (Logged A) p) :
    Within (State.Logged A) (run st p) :=
  h.zoom fun _ _ hlogged => hlogged

/-- A dispatch that returns has consumed a reply. -/
theorem dispatch_size {h : WlEvent → Prog Halt (Listening σ) Unit} (hh : ∀ e, Within Later (h e))
    {l l' : Listening σ} {ok : Bool} (hrun : dispatch h l = (.ok ok, l')) :
    l'.toProcess.size < l.toProcess.size := by
  obtain ⟨r, l₁, hask, hrest⟩ := bind_eq_ok (p := sys Process.displayDispatch) hrun
  have hlt : l₁.toProcess.size < l.toProcess.size := by
    simp only [sys, onState, State.sys, Prog.zoom_apply, Prod.mk.injEq] at hask
    rw [← hask.2]
    exact Process.ask_size (Prod.ext hask.1 rfl)
  obtain ⟨_, l₂, hall, hret⟩ := bind_eq_ok (p := hearAll h r.1) hrest
  have hle := ((hearAll_later hh r.1).of_eq hall).size_le
  cases hret
  exact Nat.lt_of_le_of_lt hle hlt

end Listening

/-- Collects the globals and then the names of the seats. -/
def State.initialSync : Prog Halt State Unit :=
  Listening.run () do
    let _ ← Listening.roundtrip fun _ => pure ()
    let _ ← Listening.roundtrip fun _ => pure ()
    return ()

def State.roundtrip : Prog Halt State Bool :=
  Listening.run () (Listening.roundtrip fun _ => pure ())

/-- Runs an operation on a connection of its own. -/
def State.run {α : Type} (p : Prog Halt State α) : Prog Halt Process α :=
  .zoom State.new (fun _ s => s.toProcess) p

/-- The connection to a compositor with one seat and both managers. -/
def State.synced (script : List Reply) : State :=
  (State.initialSync (State.new (.fresh (.displayRoundtrip [.global 1 kIfWlSeat 8,
    .global 2 kIfZwlrMgr 2, .global 3 kIfWlMgr 3] true :: .displayRoundtrip [] true :: script)))).2

end WlClip
