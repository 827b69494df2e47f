import WlClip.Mime
import WlClip.Process
import Mathlib.Tactic.SplitIfs

/-!
# The X11 backend

`x11.cpp`, without the round trips that only describe a window or an atom in the log. An atom of
0 is `XCB_ATOM_NONE`.
-/

open ScriptedProgram ScriptedProgram.Prog LittleEndian

namespace WlClip

namespace X11

/-- `XCB_ATOM_PRIMARY`, `XCB_ATOM_ATOM`, `XCB_ATOM_INTEGER` and `XCB_ATOM_STRING`. -/
def atomPrimary : Atom := 1
def atomAtom : Atom := 4
def atomInteger : Atom := 19
def atomString : Atom := 31

structure Atoms where
  clipboard : Atom
  primary : Atom
  targets : Atom
  timestamp : Atom
  multiple : Atom
  incr : Atom
  utf8String : Atom
  string : Atom
  text : Atom
  wlSelection : Atom
  netWmName : Atom
  deriving DecidableEq

/-- What `xcb_intern_atom` is given of a name: its length is passed in 16 bits. -/
def internName (name : Text) : Text := name.take (name.length % 2 ^ 16)

def internAtom (name : Text) : Prog Halt Process Atom := Process.xInternAtom (internName name)

def loadAtoms : Prog Halt Process Atoms := do
  let clipboard ← internAtom (text "CLIPBOARD")
  let targets ← internAtom (text "TARGETS")
  let timestamp ← internAtom (text "TIMESTAMP")
  let multiple ← internAtom (text "MULTIPLE")
  let incr ← internAtom (text "INCR")
  let utf8String ← internAtom (text "UTF8_STRING")
  let textAtom ← internAtom (text "TEXT")
  let wlSelection ← internAtom (text "WLCLIP_SELECTION")
  let netWmName ← internAtom (text "_NET_WM_NAME")
  return ⟨clipboard, atomPrimary, targets, timestamp, multiple, incr, utf8String, atomString,
    textAtom, wlSelection, netWmName⟩

def selectionAtom (a : Atoms) (sel : Selection) : Atom :=
  if sel = .primary then a.primary else a.clipboard

structure Connection where
  fd : Int
  window : Window
  atoms : Atoms
  deriving DecidableEq

/-- The window is made when the atoms are loaded. -/
def connect (display : Text) : Prog Halt Process (Option Connection) := do
  match ← Process.xConnect display with
  | none => return none
  | some (fd, window) =>
    let atoms ← loadAtoms
    return some ⟨fd, window, atoms⟩

def destroy (x : Connection) : Prog Halt Process Unit := Process.xRequest (.destroyWindow x.window)

/-! ## Targets -/

/-- An atom that we advertise and its name. -/
structure Target where
  atom : Atom
  name : Text
  deriving DecidableEq

def addTarget (ts : List Target) (t : Target) : List Target :=
  if t.atom = 0 then ts
  else if t.atom ∈ ts.map Target.atom then ts
  else ts ++ [t]

def internAll : List Text → Prog Halt Process (List Target)
  | [] => return []
  | m :: mimes => do
    let atom ← internAtom m
    let ts ← internAll mimes
    return ⟨atom, m⟩ :: ts

/-- Of the textual types only `UTF8_STRING` is advertised. -/
def buildTargets (a : Atoms) (mimes : List Text) : Prog Halt Process (List Target) := do
  let interned ← internAll (mimes.filter fun m => !isTextual m)
  let ts := interned.foldl addTarget (addTarget [] ⟨a.targets, text "TARGETS"⟩)
  return if mimes.any isTextual then addTarget ts ⟨a.utf8String, text "UTF8_STRING"⟩ else ts

/-- The type to serve for a target; none is the empty string. -/
def matchTarget (ts : List Target) (mimes : List Text) (target : Atom) (a : Atoms) : Text :=
  if target = a.utf8String ∨ target = a.string ∨ target = a.text then
    (mimes.find? isTextual).getD []
  else
    match ts.find? fun t => t.atom = target with
    | none => []
    | some t => if t.name = text "TARGETS" ∨ t.name = text "TIMESTAMP" then [] else t.name

/-! ## Copy -/

structure CopyContext where
  x : Connection
  targets : List Target
  selatom : Atom
  data : CopyData
  deriving DecidableEq

/-- Takes the ownership of the selection and makes sure of it. -/
def acquireSelection (display : Text) (sel : Selection) (data : CopyData) :
    Prog Halt Process (Option CopyContext) := do
  if data.mimeTypes = [] then return none
  else
    match ← connect display with
    | none => return none
    | some x =>
      let selatom := selectionAtom x.atoms sel
      let targets ← buildTargets x.atoms data.mimeTypes
      Process.xRequest (.setSelectionOwner x.window selatom)
      let owner ← Process.xGetSelectionOwner selatom
      if owner = some x.window then return some ⟨x, targets, selatom, data⟩
      else
        destroy x
        return none

def sendSelectionNotify (req : SelectionRequest) (prop : Atom) : Prog Halt Process Unit :=
  Process.xRequest (.sendNotify req.requestor
    ⟨req.time, req.requestor, req.selection, req.target, prop⟩)

/-- The items that a 32-bit count makes of a list of them. -/
def counted {α : Type} (items : List α) : List α := items.take (items.length % 2 ^ 32)

def setProperty (req : SelectionRequest) (prop type : Atom) (format : ℕ) (data : List UInt8) :
    Prog Halt Process Unit := do
  Process.xRequest (.changeProperty req.requestor prop type format data)
  sendSelectionNotify req prop

/-- Answers a request and says whether the payload was served. The owner time is 0. -/
def answerRequest (ctx : CopyContext) (req : SelectionRequest) : Prog Halt Process Bool := do
  if req.selection ≠ ctx.selatom then
    sendSelectionNotify req 0
    return false
  else
    let prop := if req.property = 0 then req.target else req.property
    if req.target = ctx.x.atoms.targets then
      setProperty req prop atomAtom 32 ((counted ctx.targets).flatMap fun t => u32Bytes t.atom)
      return false
    else if req.target = ctx.x.atoms.timestamp then
      setProperty req prop atomInteger 32 (u32Bytes 0)
      return false
    else if matchTarget ctx.targets ctx.data.mimeTypes req.target ctx.x.atoms = [] then
      sendSelectionNotify req 0
      return false
    else
      setProperty req prop req.target 8 (counted ctx.data.bytes)
      return true

structure Serving where
  served : ℕ
  lost : Bool
  deriving DecidableEq

def serveRound (ctx : CopyContext) (oneshot : Bool) (s : Serving) :
    Prog Halt Process (Serving ⊕ Serving) := do
  if s.lost then return .inr s
  else
    match ← Process.xWaitForEvent with
    | none => return .inr s
    | some (.selectionRequest req) =>
      if ← answerRequest ctx req then
        return .inl ⟨s.served + 1, s.lost || oneshot⟩
      else return .inl s
    | some .selectionClear => return .inl { s with lost := true }
    | some _ => return .inl s

def serveSelection (ctx : CopyContext) (oneshot : Bool) : Prog Halt Process Bool := do
  let s ← loop .stuck (fun _ p => p.size) (serveRound ctx oneshot) ⟨0, false⟩
  return s.served > 0 || !s.lost

/-! ## Paste -/

/-- One look at the connection for the answer to a conversion. -/
def waitRound (fd : Int) (start timeout : ℕ) (_ : Unit) : Prog Halt Process (Unit ⊕ Bool) := do
  match ← Process.xPollForEvent with
  | some (.selectionNotify sn) => return .inr (sn.property ≠ 0)
  | some _ => return .inl ()
  | none =>
    let now ← Process.clock
    if now - start ≥ timeout then return .inr false
    else
      let _ ← Process.poll fd (timeout - (now - start) : ℕ)
      return .inl ()

def timeoutMs : ℕ := 2000

/-- Any `SelectionNotify` is taken for the answer. -/
def requestAndWait (x : Connection) (selatom target : Atom) : Prog Halt Process Bool := do
  Process.xRequest (.convertSelection x.window selatom target x.atoms.wlSelection)
  let start ← Process.clock
  loop .stuck (fun _ p => p.size) (waitRound x.fd start timeoutMs) ()

structure Reading where
  offset : UInt32
  data : List UInt8
  deriving DecidableEq

def longLength : UInt32 := 1024 * 1024

/-- What was read is returned where a request fails, and nothing for an INCR property. -/
def readReply (x : Connection) (r : Reading) : Option PropertyReply → Reading ⊕ List UInt8
  | none => .inr r.data
  | some reply =>
    if reply.type = x.atoms.incr then .inr []
    else
      let data := r.data ++ reply.value
      if reply.bytesAfter > 0 then .inl ⟨r.offset + UInt32.ofNat reply.value.length / 4, data⟩
      else .inr data

def readRound (x : Connection) (r : Reading) : Prog Halt Process (Reading ⊕ List UInt8) := do
  let reply ← Process.xGetProperty x.window x.atoms.wlSelection r.offset longLength
  return readReply x r reply

def readProperty (x : Connection) : Prog Halt Process (List UInt8) :=
  loop .stuck (fun _ p => p.size) (readRound x) ⟨0, []⟩

/-- The atoms that a property holds in the byte order of the host. -/
def decodeAtoms : List UInt8 → List Atom
  | b₀ :: b₁ :: b₂ :: b₃ :: rest => loadU32 [b₀, b₁, b₂, b₃] :: decodeAtoms rest
  | _ => []

def mimeNames (a : Atoms) : List Atom → Prog Halt Process (List Text)
  | [] => return []
  | t :: ts =>
    if t = 0 then mimeNames a ts
    else if t = a.utf8String then return text "text/plain;charset=utf-8" :: (← mimeNames a ts)
    else if t = a.string then return text "text/plain" :: (← mimeNames a ts)
    else if t = a.text then return text "TEXT" :: (← mimeNames a ts)
    else if t = a.targets ∨ t = a.timestamp ∨ t = a.multiple then mimeNames a ts
    else do
      let name ← Process.xGetAtomName t
      return name :: (← mimeNames a ts)

/-- The types that the owner of the selection offers. -/
def askTargets (x : Connection) (selatom : Atom) : Prog Halt Process (Option (List Text)) := do
  if ← requestAndWait x selatom x.atoms.targets then
    let raw ← readProperty x
    if raw = [] ∨ raw.length % 4 ≠ 0 then return none
    else return some (← mimeNames x.atoms (decodeAtoms raw))
  else return none

def targetAtom (a : Atoms) (mime : Text) : Prog Halt Process Atom :=
  if mime = text "text/plain;charset=utf-8" then return a.utf8String
  else if mime = text "text/plain" then return a.string
  else if mime = text "TEXT" then return a.text
  else internAtom mime

/-- Asks for the data as the type chosen: whether the owner has answered. -/
def askData (x : Connection) (selatom : Atom) (mime : Text) : Prog Halt Process Bool := do
  if mime = [] then return false
  else
    let target ← targetAtom x.atoms mime
    if target = 0 then return false else requestAndWait x selatom target

def pasteFrom (x : Connection) (sel : Selection) (preferMime : Text) (listOnly : Bool) :
    Prog Halt Process (Bool × PasteResult) := do
  let selatom := selectionAtom x.atoms sel
  match ← askTargets x selatom with
  | none => return (false, .empty)
  | some mimes =>
    if listOnly then return (true, ⟨[], [], mimes⟩)
    else
      let mime := chooseMime mimes preferMime
      if ← askData x selatom mime then
        let bytes ← readProperty x
        return (true, ⟨mime, bytes, mimes⟩)
      else return (false, ⟨[], [], mimes⟩)

end X11

namespace X11Backend

open X11

def serveAndRelease (ctx : CopyContext) (oneshot : Bool) : Prog Halt Process Bool := do
  let ok ← serveSelection ctx oneshot
  destroy ctx.x
  return ok

/-- The parent of the daemon exits without releasing the selection. -/
def copyAcquireThenDetach (display : Text) (sel : Selection) (data : CopyData)
    (oneshot detach : Bool) (afterForkInParent : Prog Halt Process Unit) :
    Prog Halt Process Bool := do
  match ← acquireSelection display sel data with
  | none => return false
  | some ctx =>
    if detach then
      let pid ← Process.fork
      if pid < 0 then
        destroy ctx.x
        return false
      else if pid > 0 then
        afterForkInParent
        Prog.halt (.exited 0)
      else serveAndRelease ctx oneshot
    else serveAndRelease ctx oneshot

def copy (display : Text) (sel : Selection) (data : CopyData) (oneshot : Bool) :
    Prog Halt Process Bool :=
  copyAcquireThenDetach display sel data oneshot false (return ())

def paste (display : Text) (sel : Selection) (preferMime : Text) (listOnly : Bool) :
    Prog Halt Process (Bool × PasteResult) := do
  match ← connect display with
  | none => return (false, .empty)
  | some x =>
    let r ← pasteFrom x sel preferMime listOnly
    destroy x
    return r

end X11Backend

end WlClip
