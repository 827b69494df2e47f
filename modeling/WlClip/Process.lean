import WlClip.ScriptedProgram
import WlClip.Protocol

/-!
# A process and its calls

A process reads the results of its calls from a script and logs what it does. A call whose
result the script does not hold leaves the process waiting in that call: the runs on all scripts
are the finite runs of the process, each cut at some call.
-/

open ScriptedProgram

namespace WlClip

/-- `EWOULDBLOCK` is `EAGAIN`. -/
inductive Errno
  | EINTR
  | EAGAIN
  | EPIPE
  | other (code : ℕ)
  deriving DecidableEq

inductive PollResult
  | timeout
  | ready (pollin : Bool)
  deriving DecidableEq

/-- `noReader` is what the kernel finds where every read end of the pipe is closed. -/
inductive WriteResult
  | wrote (n : ℕ)
  | failed (e : Errno)
  | noReader
  deriving DecidableEq

inductive Call
  | socket
  | connect (fd : Int) (path : Text)
  | sendmsg (fd : Int) (bytes : List UInt8) (fds : List Int)
  | poll (fd : Int) (timeout : Int)
  | recvmsg (fd : Int)
  | write (fd : Int) (bytes : List UInt8)
  | read (fd : Int)
  | pipe
  | fork
  | clock
  | displayConnect (name : Text)
  | displayDispatch
  | displayRoundtrip
  | displayPoll (timeout : Int)
  | xConnect (display : Text)
  | xInternAtom (name : Text)
  | xGetAtomName (atom : Atom)
  | xGetSelectionOwner (selection : Atom)
  | xWaitForEvent
  | xPollForEvent
  | xGetProperty (window : Window) (property : Atom) (offset length : UInt32)
  deriving DecidableEq

/-- The atom of a failed InternAtom is 0, the name of a failed GetAtomName empty. -/
inductive Reply
  | socket (r : Except Errno Int)
  | connect (r : Except Errno Unit)
  | sendmsg (r : Except Errno ℕ)
  | poll (r : Except Errno PollResult)
  | recvmsg (r : Except Errno (List UInt8 × List Int))
  | write (r : WriteResult)
  | read (r : Except Errno (List UInt8))
  | pipe (r : Except Errno (Int × Int))
  | fork (pid : Int)
  | clock (ms : ℕ)
  | displayConnect (ok : Bool)
  | displayDispatch (events : List WlEvent) (ok : Bool)
  | displayRoundtrip (events : List WlEvent) (ok : Bool)
  | xConnect (r : Option (Int × Window))
  | xInternAtom (atom : Atom)
  | xGetAtomName (name : Text)
  | xGetSelectionOwner (owner : Option Window)
  | xWaitForEvent (event : Option XEvent)
  | xPollForEvent (event : Option XEvent)
  | xGetProperty (r : Option PropertyReply)
  deriving DecidableEq

/-- What the log holds besides calls: bytes and descriptors queued for the socket, messages
handed to the dispatcher, transfers begun, descriptors closed and requests made. -/
inductive Action
  | call (c : Call) (r : Reply)
  | queue (bytes : List UInt8)
  | queueFd (fd : Int)
  | dispatch (objectId : UInt32) (opcode : UInt16) (payload : List UInt8)
  | serveSend (fd : Int) (data : List UInt8)
  | close (fd : Int)
  | request (r : WlRequest)
  | xRequest (r : XRequest)

/-- Why a run has not returned. `stuck` is a loop without rounds left. -/
inductive Halt
  | waiting (c : Call)
  | killed
  | uncaught
  | exited (code : ℕ)
  | stuck
  deriving DecidableEq

inductive SigDisposition
  | default
  | ignored
  deriving DecidableEq

structure Process where
  script : List Reply
  trace : List Action
  sigpipe : SigDisposition
  getenv : Text → Option Text

/-- A process that has done nothing yet. -/
def Process.fresh (script : List Reply) : Process :=
  ⟨script, [], .default, fun _ => some (text "/run/user/1000")⟩

/-- The bytes a reply adds to the receive buffer. -/
def Reply.received : Reply → List UInt8
  | .recvmsg (.ok (data, _)) => data
  | _ => []

/-- The descriptors that come with them: a stream socket delivers none without a byte. -/
def Reply.receivedFds : Reply → List Int
  | .recvmsg (.ok (data, fds)) => if data = [] then [] else fds
  | _ => []

def Reply.read? : Reply → Option (Except Errno (List UInt8))
  | .read r => some r
  | _ => none

def Reply.size (r : Reply) : ℕ := r.received.length + 1

namespace Process

def size (p : Process) : ℕ := (p.script.map Reply.size).sum

def record (a : Action) : Prog Halt Process PUnit :=
  .update fun p => { p with trace := p.trace ++ [a] }

/-- Makes a call: its result is the next reply of the script, if that answers the call. -/
def ask {α : Type} (c : Call) (answer : Reply → Option α) : Prog Halt Process α := fun p =>
  match p.script with
  | [] => (.error (.waiting c), p)
  | r :: rest =>
    match answer r with
    | none => (.error (.waiting c), p)
    | some a => (.ok a, { p with script := rest, trace := p.trace ++ [.call c r] })

def socket : Prog Halt Process (Except Errno Int) :=
  ask .socket fun | .socket r => some r | _ => none

def connect (fd : Int) (path : Text) : Prog Halt Process (Except Errno Unit) :=
  ask (.connect fd path) fun | .connect r => some r | _ => none

def sendmsg (fd : Int) (bytes : List UInt8) (fds : List Int) :
    Prog Halt Process (Except Errno ℕ) :=
  ask (.sendmsg fd bytes fds) fun | .sendmsg r => some r | _ => none

def poll (fd timeout : Int) : Prog Halt Process (Except Errno PollResult) :=
  ask (.poll fd timeout) fun | .poll r => some r | _ => none

def recvmsg (fd : Int) : Prog Halt Process (Except Errno (List UInt8 × List Int)) :=
  ask (.recvmsg fd) fun | .recvmsg r => some r | _ => none

def writeResult (fd : Int) (bytes : List UInt8) : Prog Halt Process WriteResult :=
  ask (.write fd bytes) fun | .write r => some r | _ => none

/-- A write to a pipe without a reader raises SIGPIPE, and fails where that is ignored. -/
def write (fd : Int) (bytes : List UInt8) : Prog Halt Process (Except Errno ℕ) := do
  match ← writeResult fd bytes with
  | .wrote n => return .ok n
  | .failed e => return .error e
  | .noReader =>
    match ← Prog.read Process.sigpipe with
    | .default => Prog.halt .killed
    | .ignored => return .error .EPIPE

def read (fd : Int) : Prog Halt Process (Except Errno (List UInt8)) := ask (.read fd) Reply.read?

def pipe : Prog Halt Process (Except Errno (Int × Int)) :=
  ask .pipe fun | .pipe r => some r | _ => none

def displayConnect (name : Text) : Prog Halt Process Bool :=
  ask (.displayConnect name) fun | .displayConnect ok => some ok | _ => none

/-- The events dispatched before the call returns, and whether it succeeds. -/
def displayDispatch : Prog Halt Process (List WlEvent × Bool) :=
  ask .displayDispatch fun | .displayDispatch events ok => some (events, ok) | _ => none

def displayRoundtrip : Prog Halt Process (List WlEvent × Bool) :=
  ask .displayRoundtrip fun | .displayRoundtrip events ok => some (events, ok) | _ => none

/-- Polls the descriptor of the connection. -/
def displayPoll (timeout : Int) : Prog Halt Process (Except Errno PollResult) :=
  ask (.displayPoll timeout) fun | .poll r => some r | _ => none

/-- The id of the child in the parent, and 0 in the child. -/
def fork : Prog Halt Process Int := ask .fork fun | .fork pid => some pid | _ => none

/-- The time in milliseconds. -/
def clock : Prog Halt Process ℕ := ask .clock fun | .clock ms => some ms | _ => none

/-- The descriptor of the connection and the id of a new window. -/
def xConnect (display : Text) : Prog Halt Process (Option (Int × Window)) :=
  ask (.xConnect display) fun | .xConnect r => some r | _ => none

def xInternAtom (name : Text) : Prog Halt Process Atom :=
  ask (.xInternAtom name) fun | .xInternAtom atom => some atom | _ => none

def xGetAtomName (atom : Atom) : Prog Halt Process Text :=
  ask (.xGetAtomName atom) fun | .xGetAtomName name => some name | _ => none

def xGetSelectionOwner (selection : Atom) : Prog Halt Process (Option Window) :=
  ask (.xGetSelectionOwner selection) fun | .xGetSelectionOwner owner => some owner | _ => none

def xWaitForEvent : Prog Halt Process (Option XEvent) :=
  ask .xWaitForEvent fun | .xWaitForEvent event => some event | _ => none

def xPollForEvent : Prog Halt Process (Option XEvent) :=
  ask .xPollForEvent fun | .xPollForEvent event => some event | _ => none

def xGetProperty (window : Window) (property : Atom) (offset length : UInt32) :
    Prog Halt Process (Option PropertyReply) :=
  ask (.xGetProperty window property offset length) fun | .xGetProperty r => some r | _ => none

def close (fd : Int) : Prog Halt Process PUnit := record (.close fd)

def request (r : WlRequest) : Prog Halt Process PUnit := record (.request r)

def xRequest (r : XRequest) : Prog Halt Process PUnit := record (.xRequest r)

/-- The process after a log of calls, with `rest` left of its script. -/
def after (p : Process) (log : List Action) (rest : List Reply) : Process :=
  { p with script := rest, trace := p.trace ++ log }

theorem after_after (p : Process) (log log' : List Action) (rest rest' : List Reply) :
    (p.after log rest).after log' rest' = p.after (log ++ log') rest' := by
  simp [after]

section Ask

variable {α : Type} {c : Call} {answer : Reply → Option α} {p p' : Process}

theorem ask_cons {r : Reply} {rest : List Reply} {a : α} (hs : p.script = r :: rest)
    (ha : answer r = some a) :
    ask c answer p = (.ok a, { p with script := rest, trace := p.trace ++ [.call c r] }) := by
  simp only [ask, hs, ha]

theorem ask_nil (hs : p.script = []) : ask c answer p = (.error (.waiting c), p) := by
  simp only [ask, hs]

/-- A call that the next reply does not answer waits. -/
theorem ask_blocked (h : ∀ r rest, p.script = r :: rest → answer r = none) :
    ask c answer p = (.error (.waiting c), p) := by
  rcases hs : p.script with _ | ⟨r, rest⟩
  · exact ask_nil hs
  · simp only [ask, hs, h r rest hs]

theorem ask_ok {a : α} (h : ask c answer p = (.ok a, p')) :
    ∃ r rest, p.script = r :: rest ∧ answer r = some a ∧
      p' = { p with script := rest, trace := p.trace ++ [.call c r] } := by
  unfold ask at h
  split at h
  · cases h
  · next r rest hs =>
    split at h
    · cases h
    · next b hb =>
      cases h
      exact ⟨r, rest, hs, hb, rfl⟩

theorem ask_error {e : Halt} (h : ask c answer p = (.error e, p')) :
    e = .waiting c ∧ p' = p := by
  unfold ask at h
  split at h
  · cases h
    exact ⟨rfl, rfl⟩
  · split at h
    · cases h
      exact ⟨rfl, rfl⟩
    · cases h

end Ask

/-! ## Logs -/

end Process

def Action.reply : Action → Option Reply
  | .call _ r => some r
  | _ => none

namespace Process

/-- What a function of the actions makes of the log. -/
def observe {β : Type} (f : Action → List β) (p : Process) : List β := p.trace.flatMap f

@[simp] theorem observe_after {β : Type} (f : Action → List β) (p : Process) (log : List Action)
    (rest : List Reply) : (p.after log rest).observe f = p.observe f ++ log.flatMap f := by
  simp [observe, after]

/-- What a function of the replies makes of those still to come. -/
def remaining {β : Type} (f : Reply → List β) (p : Process) : List β := p.script.flatMap f

/-- The run from `p` to `p'` logged only actions in `A`, and its calls used up the replies that
are no longer in the script. -/
structure Logs (A : Action → Prop) (p p' : Process) : Prop where
  log : ∃ log, p'.trace = p.trace ++ log ∧
    p.script = log.filterMap Action.reply ++ p'.script ∧ ∀ a ∈ log, A a
  sigpipe : p'.sigpipe = p.sigpipe
  getenv : p'.getenv = p.getenv

variable {A B : Action → Prop} {p p' p'' : Process}

theorem Logs.refl (p : Process) : Logs A p p := ⟨⟨[], by simp⟩, rfl, rfl⟩

theorem Logs.trans (h : Logs A p p') (h' : Logs A p' p'') : Logs A p p'' := by
  obtain ⟨log, htrace, hscript, hlog⟩ := h.log
  obtain ⟨log', htrace', hscript', hlog'⟩ := h'.log
  refine ⟨⟨log ++ log', ?_, ?_, ?_⟩, h'.sigpipe.trans h.sigpipe, h'.getenv.trans h.getenv⟩
  · rw [htrace', htrace, List.append_assoc]
  · rw [hscript, hscript', List.filterMap_append, List.append_assoc]
  · intro a ha
    exact (List.mem_append.mp ha).elim (hlog a) (hlog' a)

instance : IsPreorder Process (Logs A) where
  refl := Logs.refl
  trans _ _ _ := Logs.trans

theorem Logs.mono (h : Logs A p p') (hAB : ∀ a, A a → B a) : Logs B p p' := by
  obtain ⟨log, htrace, hscript, hlog⟩ := h.log
  exact ⟨⟨log, htrace, hscript, fun a ha => hAB a (hlog a ha)⟩, h.sigpipe, h.getenv⟩

/-- An observation that sees nothing of the actions in `A` is unchanged. -/
theorem Logs.observe_eq {β : Type} (h : Logs A p p') {f : Action → List β}
    (hf : ∀ a, A a → f a = []) : p'.observe f = p.observe f := by
  obtain ⟨log, htrace, -, hlog⟩ := h.log
  have hnil : log.flatMap f = [] := List.flatMap_eq_nil_iff.mpr fun a ha => hf a (hlog a ha)
  rw [observe, htrace, List.flatMap_append, hnil, List.append_nil]
  rfl

theorem Logs.remaining_eq {β : Type} (h : Logs A p p') {f : Reply → List β}
    (hf : ∀ c r, A (.call c r) → f r = []) : p'.remaining f = p.remaining f := by
  obtain ⟨log, -, hscript, hlog⟩ := h.log
  have hnil : (log.filterMap Action.reply).flatMap f = [] := by
    refine List.flatMap_eq_nil_iff.mpr fun r hr => ?_
    obtain ⟨a, ha, har⟩ := List.mem_filterMap.mp hr
    cases a with
    | call c r' =>
        obtain rfl := Option.some.inj har
        exact hf c _ (hlog _ ha)
    | _ => cases har
  rw [remaining, remaining, hscript, List.flatMap_append, hnil, List.nil_append]

theorem Logs.script_suffix (h : Logs A p p') : p'.script <:+ p.script := by
  obtain ⟨log, -, hscript, -⟩ := h.log
  exact ⟨_, hscript.symm⟩

theorem Logs.size_le (h : Logs A p p') : p'.size ≤ p.size := by
  obtain ⟨replies, hscript⟩ := h.script_suffix
  rw [size, size, ← hscript, List.map_append, List.sum_append]
  exact Nat.le_add_left _ _

theorem filterMap_close (fds : List Int) : (fds.map Action.close).filterMap Action.reply = [] := by
  induction fds with
  | nil => rfl
  | cons fd fds ih => exact ih

/-- What sees no descriptor closed sees nothing of a log that closes descriptors only. -/
theorem flatMap_closes {β : Type} {f : Action → List β} (hf : ∀ fd, f (.close fd) = [])
    {log : List Action} (hlog : ∀ a ∈ log, ∃ fd, a = .close fd) : log.flatMap f = [] := by
  rw [List.flatMap_eq_nil_iff]
  intro a ha
  obtain ⟨fd, rfl⟩ := hlog a ha
  exact hf fd

theorem ask_logs {α : Type} {c : Call} {answer : Reply → Option α}
    (h : ∀ r a, answer r = some a → A (.call c r)) : Within (Logs A) (ask c answer) := by
  intro p
  rcases hr : ask c answer p with ⟨e | a, p'⟩
  · obtain ⟨-, rfl⟩ := ask_error hr
    exact Logs.refl _
  · obtain ⟨r, rest, hs, ha, rfl⟩ := ask_ok hr
    refine ⟨⟨[.call c r], rfl, hs, ?_⟩, rfl, rfl⟩
    rintro _ (_ | ⟨_, ⟨⟩⟩)
    exact h r a ha

theorem record_logs {a : Action} (h : A a) (hcall : a.reply = none) :
    Within (Logs A) (record a) := by
  refine Within.update fun p => ⟨⟨[a], rfl, by simp [hcall], ?_⟩, rfl, rfl⟩
  rintro _ (_ | ⟨_, ⟨⟩⟩)
  exact h

/-- A call that returns has consumed a reply. -/
theorem ask_size {α : Type} {c : Call} {answer : Reply → Option α} {a : α}
    (h : ask c answer p = (.ok a, p')) : p'.size < p.size := by
  obtain ⟨r, rest, hs, -, rfl⟩ := ask_ok h
  simp only [size, hs, List.map_cons, List.sum_cons, Reply.size]
  omega

end Process

/-! ## What the log and the script say about the socket -/

/-- A message as the dispatcher gets it: object id, opcode and payload. -/
abbrev Delivery := UInt32 × UInt16 × List UInt8

def Action.dispatched : Action → List Delivery
  | .dispatch objectId opcode payload => [(objectId, opcode, payload)]
  | _ => []

def Action.queued : Action → List UInt8
  | .queue bytes => bytes
  | _ => []

/-- The bytes queued, one list for each message. -/
def Action.written : Action → List (List UInt8)
  | .queue bytes => [bytes]
  | _ => []

def Call.writes : Call → Bool
  | .write _ _ => true
  | _ => false

def Action.begun : Action → List (Int × List UInt8)
  | .serveSend fd data => [(fd, data)]
  | _ => []

/-- The events that a dispatch of libwayland hands over. -/
def Action.heard : Action → List WlEvent
  | .call _ (.displayDispatch events _) => events
  | _ => []

def Action.requested : Action → List WlRequest
  | .request r => [r]
  | _ => []

/-- The offers that libwayland is asked for, and as what types. -/
def Action.asked : Action → List (Proxy × Text)
  | .request (.receive offer mime _) => [(offer, mime)]
  | _ => []

/-- Closing, and calls that receive nothing. -/
inductive Action.Silent : Action → Prop
  | call (c : Call) (r : Reply) (h : r.received = []) (hfds : r.receivedFds = []) :
      Silent (.call c r)
  | close (fd : Int) : Silent (.close fd)

/-- Closing, and any call. -/
inductive Action.Io : Action → Prop
  | call (c : Call) (r : Reply) : Io (.call c r)
  | close (fd : Int) : Io (.close fd)

/-- Neither receives nor hands over a message. -/
inductive Action.Unheard : Action → Prop
  | call (c : Call) (r : Reply) (h : r.received = []) : Unheard (.call c r)
  | other (a : Action) (hcall : a.reply = none) (h : a.dispatched = []) : Unheard a

theorem Action.Silent.io {a : Action} (h : a.Silent) : a.Io := by
  cases h with
  | call c r => exact .call c r
  | close fd => exact .close fd

theorem Action.Silent.unheard {a : Action} (h : a.Silent) : a.Unheard := by
  cases h with
  | call c r h => exact .call c r h
  | close fd => exact .other _ rfl rfl

theorem Action.Unheard.dispatched {a : Action} (h : a.Unheard) : a.dispatched = [] := by
  cases h with
  | call c r h => rfl
  | other _ hcall h => exact h

theorem Action.Io.dispatched {a : Action} (h : a.Io) : a.dispatched = [] := by
  cases h <;> rfl

theorem Action.Io.queued {a : Action} (h : a.Io) : a.queued = [] := by
  cases h <;> rfl

theorem Action.Io.written {a : Action} (h : a.Io) : a.written = [] := by
  cases h <;> rfl

theorem Action.Io.begun {a : Action} (h : a.Io) : a.begun = [] := by
  cases h <;> rfl

namespace Process

/-- The bytes that the replies still to come deliver. -/
def pending (p : Process) : List UInt8 := p.remaining Reply.received

def pendingFds (p : Process) : List Int := p.remaining Reply.receivedFds

/-- The messages handed to the dispatcher so far. -/
def dispatched (p : Process) : List Delivery := p.observe Action.dispatched

/-- The transfers begun so far: descriptor and payload. -/
def begun (p : Process) : List (Int × List UInt8) := p.observe Action.begun

/-- What serving a consumer depends on and changes. -/
structure Background where
  begun : List (Int × List UInt8)
  sigpipe : SigDisposition

def background (p : Process) : Background := ⟨p.begun, p.sigpipe⟩

theorem Logs.background_eq {p p' : Process} (h : Logs Action.Io p p') :
    p'.background = p.background :=
  congrArg₂ Background.mk (h.observe_eq fun _ => Action.Io.begun) h.sigpipe

/-- The requests made to libwayland so far. -/
def requested (p : Process) : List WlRequest := p.observe Action.requested

/-- The bytes queued for the socket so far. -/
def queued (p : Process) : List UInt8 := p.observe Action.queued

/-- The same bytes, message by message. -/
def written (p : Process) : List (List UInt8) := p.observe Action.written

theorem queued_eq (p : Process) : p.queued = p.written.flatten := by
  have hflat : ∀ log : List Action,
      log.flatMap Action.queued = (log.flatMap Action.written).flatten := by
    intro log
    induction log with
    | nil => rfl
    | cons a log ih => cases a <;> simp [Action.queued, Action.written, ih]
  exact hflat p.trace

theorem ask_silent {α : Type} {c : Call} {answer : Reply → Option α}
    (h : ∀ r, answer (.recvmsg r) = none) : Within (Logs Action.Silent) (ask c answer) := by
  refine ask_logs fun r a ha => ?_
  cases r with
  | recvmsg r =>
      rw [h] at ha
      cases ha
  | _ => exact .call _ _ rfl rfl

theorem socket_silent : Within (Logs Action.Silent) socket := ask_silent fun _ => rfl

theorem connect_silent (fd : Int) (path : Text) : Within (Logs Action.Silent) (connect fd path) :=
  ask_silent fun _ => rfl

theorem sendmsg_silent (fd : Int) (bytes : List UInt8) (fds : List Int) :
    Within (Logs Action.Silent) (sendmsg fd bytes fds) := ask_silent fun _ => rfl

theorem poll_silent (fd timeout : Int) : Within (Logs Action.Silent) (poll fd timeout) :=
  ask_silent fun _ => rfl

theorem read_silent (fd : Int) : Within (Logs Action.Silent) (read fd) := ask_silent fun _ => rfl

theorem pipe_silent : Within (Logs Action.Silent) pipe := ask_silent fun _ => rfl

theorem write_silent (fd : Int) (bytes : List UInt8) :
    Within (Logs Action.Silent) (write fd bytes) := by
  refine Within.bind (ask_silent fun _ => rfl) ?_
  rintro (n | e | _)
  · exact Within.pure _
  · exact Within.pure _
  · refine Within.bind (Within.read _) ?_
    rintro (_ | _)
    · exact Within.halt _
    · exact Within.pure _

theorem close_silent (fd : Int) : Within (Logs Action.Silent) (close fd) :=
  record_logs (.close fd) rfl

theorem Logs.pending_eq {p p' : Process} (h : Logs Action.Unheard p p') :
    p'.pending = p.pending := by
  refine h.remaining_eq fun c r hr => ?_
  cases hr with
  | call _ _ h => exact h
  | other _ hcall => cases hcall

theorem Logs.pendingFds_eq {p p' : Process} (h : Logs Action.Silent p p') :
    p'.pendingFds = p.pendingFds := by
  refine h.remaining_eq fun c r hr => ?_
  cases hr with
  | call _ _ _ hfds => exact hfds

theorem recvmsg_ok {fd : Int} {p p' : Process} {r : Except Errno (List UInt8 × List Int)}
    (h : recvmsg fd p = (.ok r, p')) :
    ∃ rest, p.script = .recvmsg r :: rest ∧
      p' = { p with script := rest, trace := p.trace ++ [.call (.recvmsg fd) (.recvmsg r)] } := by
  obtain ⟨r', rest, hs, ha, rfl⟩ := ask_ok h
  cases r' with
  | recvmsg r' =>
      obtain rfl := Option.some.inj ha
      exact ⟨rest, hs, rfl⟩
  | _ => cases ha

end Process

end WlClip
