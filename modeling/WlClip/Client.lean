import WlClip.Connection

/-!
# The client of the handcrafted backend

The object table, the id allocator and `Client::dispatch_until`. The state `σ` is what the
dispatcher of the running operation updates and its stop predicates look at.
-/

open ScriptedProgram LittleEndian

namespace WlClip

inductive ObjKind
  | unknown
  | display
  | registry
  | callback
  | seat
  | manager
  | device
  | source
  | offer
  deriving DecidableEq

/-- The kinds of the objects that the requests and events of a manager make. -/
def ObjKind.Special (k : ObjKind) : Prop := k = .source ∨ k = .device ∨ k = .offer

structure Client (σ : Type) extends Connection where
  objects : UInt32 → ObjKind
  nextId : UInt32
  st : σ

namespace Client

variable {σ α : Type}

def new (p : Process) (st : σ) : Client σ :=
  { toConnection := .new p, objects := fun _ => .unknown, nextId := kClientIdMin, st := st }

def onConn (p : Prog Halt Connection α) : Prog Halt (Client σ) α :=
  .zoom Client.toConnection (fun cl c => { cl with toConnection := c }) p

def sys (p : Prog Halt Process α) : Prog Halt (Client σ) α := onConn (Connection.sys p)

def record (a : Action) : Prog Halt (Client σ) Unit := sys (Process.record a)

def setState (f : σ → σ) : Prog Halt (Client σ) Unit :=
  .update fun cl => { cl with st := f cl.st }

def allocId : Prog Halt (Client σ) UInt32 := fun cl =>
  (.ok cl.nextId, { cl with nextId := cl.nextId + 1 })

def setKind (id : UInt32) (kind : ObjKind) (cl : Client σ) : Client σ :=
  { cl with objects := fun i => if i = id then kind else cl.objects i }

def registerObject (id : UInt32) (kind : ObjKind) : Prog Halt (Client σ) Unit :=
  .update (setKind id kind)

def kindOf (id : UInt32) : Prog Halt (Client σ) ObjKind := .read fun cl => cl.objects id

def forget (id : UInt32) (cl : Client σ) : Client σ := cl.setKind id .unknown

def connect (display : Text) : Prog Halt (Client σ) Bool := do
  if ← onConn (Connection.connect display) then
    registerObject kDisplayId .display
    return true
  else return false

/-- Runs an operation on a client of its own, which is destroyed when the operation returns. -/
def run (st : σ) (p : Prog Halt (Client σ) α) : Prog Halt Process α := fun proc =>
  match p (Client.new proc st) with
  | (.ok a, cl) => (.ok a, (Connection.close cl.toConnection).2.toProcess)
  | (.error e, cl) => (.error e, cl.toProcess)

/-- A fact about the process that closing descriptors keeps carries over from the client. -/
theorem run_triple {st : σ} {p : Prog Halt (Client σ) α} {P : Process → Prop}
    {Q : α → Process → Prop} {H : Halt → Process → Prop}
    (h : Triple (fun cl => ∃ proc, P proc ∧ cl = Client.new proc st) p
      (fun a cl => Q a cl.toProcess) (fun e cl => H e cl.toProcess))
    (hQ : ∀ a q q', Process.Logs Action.Silent q q' → Q a q → Q a q') :
    Triple P (run st p) Q H := by
  intro proc hproc
  have hrun := h (Client.new proc st) ⟨proc, hproc, rfl⟩
  unfold run
  rcases hp : p (Client.new proc st) with ⟨e | a, cl⟩ <;> rw [hp] at hrun
  · exact hrun
  · exact hQ a _ _ (Connection.close_silent cl.toConnection) hrun

/-- A client that is destroyed closes descriptors and does no more. -/
theorem observe_run {β : Type} {f : Action → List β} (hf : ∀ fd, f (.close fd) = []) (st : σ)
    (p : Prog Halt (Client σ) α) (proc : Process) :
    (run st p proc).2.observe f = (p (Client.new proc st)).2.observe f := by
  unfold run
  rcases p (Client.new proc st) with ⟨e | a, cl⟩
  · rfl
  · exact Connection.observe_close hf cl.toConnection

def size (cl : Client σ) : ℕ := cl.toProcess.size + cl.inBuf.length

/-- Nothing was taken from the receive buffer, nothing received and no message handed over. -/
structure Steady (cl cl' : Client σ) : Prop where
  inBuf : cl'.inBuf = cl.inBuf
  logs : Process.Logs Action.Unheard cl.toProcess cl'.toProcess

instance : IsPreorder (Client σ) Steady where
  refl _ := ⟨rfl, .refl _⟩
  trans _ _ _ h h' := ⟨h'.inBuf.trans h.inBuf, h.logs.trans h'.logs⟩

theorem Steady.of_toConnection {cl cl' : Client σ} (h : cl'.toConnection = cl.toConnection) :
    Steady cl cl' := ⟨by rw [h], by rw [h]; exact .refl _⟩

end Client

structure Dispatcher (σ : Type) where
  handle : UInt32 → UInt16 → Reader → Prog Halt (Client σ) Unit
  steady : ∀ obj op r, Within Client.Steady (handle obj op r)

namespace Client

variable {σ α : Type}

/-- How the inner loop of `dispatch_until` ends: the predicate holds, or no complete message is
left, with or without one having been dispatched. -/
inductive Scan
  | stopped
  | consumed
  | idle
  deriving DecidableEq

def scanRound (predicate : σ → Bool) (d : Dispatcher σ) (consumedAny : Bool) :
    Prog Halt (Client σ) (Bool ⊕ Scan) := do
  let buf ← Prog.read fun cl => cl.inBuf
  let msgLen := peekMessageSize buf
  if msgLen = 0 then return .inr (if consumedAny then .consumed else .idle)
  else
    let objectId := loadU32 buf
    let opcode := opcodeField (loadU32 (buf.drop 4))
    let payload := (buf.take msgLen).drop 8
    record (.dispatch objectId opcode payload)
    d.handle objectId opcode (.new objectId opcode payload)
    onConn (Connection.inConsume msgLen)
    let st ← Prog.read Client.st
    if predicate st then return .inr .stopped
    else return .inl true

def scan (predicate : σ → Bool) (d : Dispatcher σ) : Prog Halt (Client σ) Scan :=
  loop .stuck (fun _ cl => cl.inBuf.length) (scanRound predicate d) false

def receiveRound : Prog Halt (Client σ) (Unit ⊕ Bool) := do
  if ← onConn (Connection.waitReadable (-1)) then
    let n ← onConn Connection.pump
    if n < 0 then return .inr false
    else if n = 0 then return .inr false
    else return .inl ()
  else return .inr false

def dispatchRound (predicate : σ → Bool) (d : Dispatcher σ) (_ : Unit) :
    Prog Halt (Client σ) (Unit ⊕ Bool) := do
  let st ← Prog.read Client.st
  if predicate st then return .inr true
  else if ← onConn Connection.flush then
    match ← scan predicate d with
    | .stopped => return .inr true
    | .consumed => return .inl ()
    | .idle => receiveRound
  else return .inr false

def dispatchUntil (predicate : σ → Bool) (d : Dispatcher σ) : Prog Halt (Client σ) Bool :=
  loop .stuck (fun _ cl => cl.size) (dispatchRound predicate d) ()

end Client

end WlClip
