import WlClip.DispatchStream
import WlClip.Mime
import WlClip.Requests
import WlClip.Transfer

/-!
# The handcrafted backend

`handcrafted.cpp`: the states of a copy and a paste, their dispatchers, and the two operations on
a raw connection to the compositor. `HasSession` stands for the template parameter of the
functions that both operations share.
-/

open ScriptedProgram ScriptedProgram.Prog

namespace WlClip

structure SeatGlobal where
  name : UInt32
  version : UInt32
  deriving DecidableEq

structure ManagerGlobal where
  name : UInt32
  version : UInt32
  deriving DecidableEq

structure Globals where
  registryId : UInt32
  syncDone : Bool
  syncCbId : UInt32
  seats : List SeatGlobal
  managers : List ManagerGlobal
  deriving DecidableEq

/-- The fields that the states of both operations have. -/
structure Session where
  g : Globals
  seatId : UInt32
  seatName : Text
  managerId : UInt32
  managerVersion : UInt32
  deviceId : UInt32
  deriving DecidableEq

def Session.new : Session :=
  { g := ⟨0, false, 0, [], []⟩, seatId := 0, seatName := [], managerId := 0,
    managerVersion := 0, deviceId := 0 }

structure CopyState extends Session where
  sourceId : UInt32
  data : CopyData
  oneshot : Bool
  done : Bool
  cancelled : Bool
  served : ℕ
  cancelCount : ℕ
  deriving DecidableEq

def CopyState.new (data : CopyData) (oneshot : Bool) : CopyState :=
  { toSession := .new, sourceId := 0, data := data, oneshot := oneshot, done := false,
    cancelled := false, served := 0, cancelCount := 0 }

structure OfferRec where
  id : UInt32
  mimes : List Text
  deriving DecidableEq

structure PasteState extends Session where
  offers : List OfferRec
  currentRegular : UInt32
  currentPrimary : UInt32
  gotRegular : Bool
  gotPrimary : Bool
  finished : Bool
  deriving DecidableEq

def PasteState.new : PasteState :=
  { toSession := .new, offers := [], currentRegular := 0, currentPrimary := 0,
    gotRegular := false, gotPrimary := false, finished := false }

class HasSession (σ : Type) where
  session : σ → Session
  withSession : Session → σ → σ
  session_withSession : ∀ s st, session (withSession s st) = s
  withSession_withSession : ∀ s s' st, withSession s (withSession s' st) = withSession s st

export HasSession (session withSession session_withSession withSession_withSession)

instance : HasSession CopyState where
  session := CopyState.toSession
  withSession s st := { st with toSession := s }
  session_withSession _ _ := rfl
  withSession_withSession _ _ _ := rfl

instance : HasSession PasteState where
  session := PasteState.toSession
  withSession s st := { st with toSession := s }
  session_withSession _ _ := rfl
  withSession_withSession _ _ _ := rfl

attribute [simp] session_withSession withSession_withSession

namespace Handcrafted

variable {σ : Type} [HasSession σ]

def modifySession (f : Session → Session) : Prog Halt (Client σ) Unit :=
  Client.setState fun st => withSession (f (session st)) st

def modifyGlobals (f : Globals → Globals) : Prog Halt (Client σ) Unit :=
  modifySession fun s => { s with g := f s.g }

def readSession : Prog Halt (Client σ) Session := .read fun cl => session cl.st

/-- Queues a finished message. -/
def send (w : Writer) : Prog Halt (Client σ) Unit :=
  Client.onConn (Connection.outBytes w.finalize)

def sendGetRegistry : Prog Halt (Client σ) Unit := do
  let id ← Client.allocId
  modifyGlobals fun g => { g with registryId := id }
  Client.registerObject id .registry
  send ((Writer.new kDisplayId WlDisplay.kReqGetRegistry).u32 id)

def sendSync : Prog Halt (Client σ) UInt32 := do
  let cb ← Client.allocId
  Client.registerObject cb .callback
  send ((Writer.new kDisplayId WlDisplay.kReqSync).u32 cb)
  return cb

def sendBind (registryId globalName : UInt32) (interface : Text) (version newId : UInt32) :
    Prog Halt (Client σ) Unit :=
  send ((((Writer.new registryId WlRegistry.kReqBind).u32 globalName).str interface).u32 version
    |>.u32 newId)

/-! ## Events that both operations handle -/

def addGlobal (name : UInt32) (interface : Text) (version : UInt32) (g : Globals) : Globals :=
  if interface = kIfWlSeat then { g with seats := g.seats ++ [⟨name, version⟩] }
  else if interface = kIfZwlrMgr then { g with managers := g.managers ++ [⟨name, version⟩] }
  else g

def onSession (f : Session → Session) (cl : Client σ) : Client σ :=
  { cl with st := withSession (f (session cl.st)) cl.st }

/-- A protocol error is only logged. -/
def common (objectId : UInt32) (opcode : UInt16) (r : Reader) (cl : Client σ) : Client σ :=
  match cl.objects objectId with
  | .display => if opcode = WlDisplay.kEvDeleteId then cl.forget r.u32.1 else cl
  | .registry =>
    if opcode = WlRegistry.kEvGlobal then
      let name := r.u32
      let iface := name.2.str
      let ver := iface.2.u32
      onSession (fun s => { s with g := addGlobal name.1 iface.1 ver.1 s.g }) cl
    else cl
  | .callback =>
    if opcode = WlCallback.kEvDone ∧ objectId = (session cl.st).g.syncCbId then
      onSession (fun s => { s with g := { s.g with syncDone := true } }) cl
    else cl
  | .seat =>
    if opcode = WlSeat.kEvName then onSession (fun s => { s with seatName := r.str.1 }) cl else cl
  | _ => cl

def handleCommon (objectId : UInt32) (opcode : UInt16) (r : Reader) :
    Prog Halt (Client σ) Unit := .update (common objectId opcode r)

/-! ## Bootstrap -/

/-- The index that a selector names; any other than a number is looked up by name later. -/
def seatIndex (seatSelector : Text) : Prog Halt (Client σ) ℕ :=
  if seatSelector ≠ [] ∧ allDigits seatSelector then
    match stoul seatSelector with
    | none => Prog.halt .uncaught
    | some n => pure n
  else pure 0

def startSync : Prog Halt (Client σ) Unit := do
  let cb ← sendSync
  modifyGlobals fun g => { g with syncCbId := cb }

def bindSeat (registryId : UInt32) (sg : SeatGlobal) : Prog Halt (Client σ) Unit := do
  let id ← Client.allocId
  modifySession fun s => { s with seatId := id }
  Client.registerObject id .seat
  sendBind registryId sg.name kIfWlSeat (min sg.version 7) id

def bindManager (registryId : UInt32) (mg : ManagerGlobal) : Prog Halt (Client σ) Unit := do
  let id ← Client.allocId
  modifySession fun s => { s with managerId := id, managerVersion := min mg.version 2 }
  Client.registerObject id .manager
  sendBind registryId mg.name kIfZwlrMgr (min mg.version 2) id

def synced (st : σ) : Bool := (session st).g.syncDone

/-- Whether a selector that is a name is the name of the seat that was bound. -/
def seatNamed (seatSelector : Text) (s : Session) : Bool :=
  seatSelector = [] || allDigits seatSelector || s.seatName = seatSelector

def bindGlobals (d : Dispatcher σ) (seatSelector : Text) : Prog Halt (Client σ) Bool := do
  let s ← readSession
  match s.g.managers with
  | [] => return false
  | mg :: _ =>
    if s.g.seats = [] then return false
    else
      let seatIdx ← seatIndex seatSelector
      match s.g.seats[seatIdx]? with
      | none => return false
      | some sg =>
        bindSeat s.g.registryId sg
        bindManager s.g.registryId mg
        modifyGlobals fun g => { g with syncDone := false }
        startSync
        if ← Client.dispatchUntil synced d then
          return seatNamed seatSelector (← readSession)
        else return false

def bootstrap (d : Dispatcher σ) (seatSelector : Text) : Prog Halt (Client σ) Bool := do
  sendGetRegistry
  startSync
  if ← Client.dispatchUntil synced d then bindGlobals d seatSelector else return false

/-- Opens the connection and finds the globals; primary needs version 2 of the manager. -/
def start (d : Dispatcher σ) (display seat : Text) (sel : Selection) :
    Prog Halt (Client σ) Bool := do
  if ← Client.connect display then
    if ← bootstrap d seat then
      let s ← readSession
      return !(sel = .primary && s.managerVersion < 2)
    else return false
  else return false

/-! ## Copy -/

/-- The first `cancelled` event is ignored. -/
def cancel (st : CopyState) : CopyState :=
  if st.cancelCount = 0 then { st with cancelCount := 1 }
  else { st with cancelCount := st.cancelCount + 1, cancelled := true, done := true }

def countServed (st : CopyState) : CopyState :=
  { st with served := st.served + 1, done := st.done || st.oneshot }

/-- Without a descriptor nothing is served. -/
def serveOn (fd : Int) (data : List UInt8) : Prog Halt (Client CopyState) Unit :=
  if fd ≥ 0 then Client.sys (Process.serveSend fd data) else pure ()

def onSend : Prog Halt (Client CopyState) Unit := do
  let fd ← Client.onConn Connection.popFd
  let st ← Prog.read Client.st
  serveOn fd st.data.bytes
  Client.setState countServed

def handleCopy (obj : UInt32) (op : UInt16) (r : Reader) : Prog Halt (Client CopyState) Unit := do
  let k ← Client.kindOf obj
  if k = .source then
    if op = Zdcs.kEvSend then onSend
    else if op = Zdcs.kEvCancelled then Client.setState cancel
  else handleCommon obj op r

def sendOffers (sourceId : UInt32) : List Text → Prog Halt (Client CopyState) Unit
  | [] => return ()
  | m :: mimes => do
    send ((Writer.new sourceId Zdcs.kReqOffer).str m)
    sendOffers sourceId mimes

def setSelectionOpcode (sel : Selection) : UInt16 :=
  if sel = .primary then Zdcd.kReqSetPrimarySelection else Zdcd.kReqSetSelection

/-- From `create_data_source` to `set_selection`. -/
def announce (sel : Selection) : Prog Halt (Client CopyState) Unit := do
  let sourceId ← Client.allocId
  Client.setState fun st => { st with sourceId := sourceId }
  Client.registerObject sourceId .source
  let st ← Prog.read Client.st
  send ((Writer.new st.managerId Zdcm.kReqCreateDataSource).u32 sourceId)
  let deviceId ← Client.allocId
  Client.setState fun st => { st with deviceId := deviceId }
  Client.registerObject deviceId .device
  send (((Writer.new st.managerId Zdcm.kReqGetDataDevice).u32 deviceId).u32 st.seatId)
  sendOffers sourceId st.data.mimeTypes
  send ((Writer.new deviceId (setSelectionOpcode sel)).u32 sourceId)

/-! ## Paste -/

/-- The record that a type is added to: the first of the offer. -/
def addMime (id : UInt32) (m : Text) : List OfferRec → List OfferRec
  | [] => []
  | o :: offers =>
    if o.id = id then { o with mimes := o.mimes ++ [m] } :: offers
    else o :: addMime id m offers

def pasteDevice (op : UInt16) (r : Reader) (cl : Client PasteState) : Client PasteState :=
  let off := r.u32.1
  if op = Zdcd.kEvDataOffer then
    { cl.setKind off .offer with st := { cl.st with offers := cl.st.offers ++ [⟨off, []⟩] } }
  else if op = Zdcd.kEvSelection then
    { cl with st := { cl.st with currentRegular := off, gotRegular := true } }
  else if op = Zdcd.kEvPrimarySelection then
    { cl with st := { cl.st with currentPrimary := off, gotPrimary := true } }
  else if op = Zdcd.kEvFinished then { cl with st := { cl.st with finished := true } }
  else cl

def pasteStep (obj : UInt32) (op : UInt16) (r : Reader) (cl : Client PasteState) :
    Client PasteState :=
  match cl.objects obj with
  | .device => pasteDevice op r cl
  | .offer =>
    if op = Zdco.kEvOffer then
      { cl with st := { cl.st with offers := addMime obj r.str.1 cl.st.offers } }
    else cl
  | _ => common obj op r cl

def handlePaste (obj : UInt32) (op : UInt16) (r : Reader) :
    Prog Halt (Client PasteState) Unit := .update (pasteStep obj op r)

def haveTarget (sel : Selection) (st : PasteState) : Bool :=
  st.finished || if sel = .primary then st.gotPrimary else st.gotRegular

def getDevice : Prog Halt (Client PasteState) Unit := do
  let deviceId ← Client.allocId
  Client.setState fun st => { st with deviceId := deviceId }
  Client.registerObject deviceId .device
  let st ← Prog.read Client.st
  send (((Writer.new st.managerId Zdcm.kReqGetDataDevice).u32 deviceId).u32 st.seatId)

/-- Asks for the offer as `mime` through a pipe and reads it to the end. -/
def fetch (offId : UInt32) (mime : Text) (available : List Text) :
    Prog Halt (Client PasteState) (Bool × PasteResult) := do
  match ← Client.sys Process.makePipe with
  | none => return (false, ⟨mime, [], available⟩)
  | some (readEnd, writeEnd) =>
    send ((Writer.new offId Zdco.kReqReceive).str mime)
    Client.onConn (Connection.outFd writeEnd)
    let _ ← Client.onConn Connection.flush
    let bytes ← Client.sys (Process.drainFd readEnd)
    Client.sys (Process.close readEnd)
    return (true, ⟨mime, bytes, available⟩)

def target (sel : Selection) (st : PasteState) : UInt32 :=
  if sel = .primary then st.currentPrimary else st.currentRegular

/-- What is left to do when the selection is known. -/
def take (sel : Selection) (preferMime : Text) (listOnly : Bool) :
    Prog Halt (Client PasteState) (Bool × PasteResult) := do
  let st ← Prog.read Client.st
  let offId := target sel st
  if offId = 0 then return (false, .empty)
  else
    match st.offers.find? fun o => o.id = offId with
    | none => return (false, .empty)
    | some o =>
      if listOnly then return (true, ⟨[], [], o.mimes⟩)
      else
        let mime := chooseMime o.mimes preferMime
        if mime = [] then return (false, ⟨[], [], o.mimes⟩)
        else fetch offId mime o.mimes

/-! ## The dispatchers -/

theorem common_toConnection (objectId : UInt32) (opcode : UInt16) (r : Reader) (cl : Client σ) :
    (common objectId opcode r cl).toConnection = cl.toConnection := by
  unfold common
  split
  · split_ifs <;> rfl
  · split_ifs <;> rfl
  · split_ifs <;> rfl
  · split_ifs <;> rfl
  · rfl

theorem pasteStep_toConnection (obj : UInt32) (op : UInt16) (r : Reader) (cl : Client PasteState) :
    (pasteStep obj op r cl).toConnection = cl.toConnection := by
  unfold pasteStep
  split
  · unfold pasteDevice
    split_ifs <;> rfl
  · split_ifs <;> rfl
  · exact common_toConnection obj op r cl

theorem onSend_steady : Within Client.Steady onSend := by
  refine Within.bind (R := Client.Steady) ?_ fun fd => Within.bind (Within.read _) fun st =>
    Within.bind (Within.ite ?_ (Within.pure _)) fun _ => Within.update fun cl => ⟨rfl, .refl _⟩
  · rintro ⟨⟨p, sock, inBuf, _ | ⟨fd, inFds⟩, outBuf, outFds⟩, objects, nextId, st⟩ <;>
      exact ⟨rfl, .refl _⟩
  · exact fun cl => ⟨rfl, Process.serveSend_unheard fd st.data.bytes cl.toProcess⟩

theorem handleCopy_steady (obj : UInt32) (op : UInt16) (r : Reader) :
    Within Client.Steady (handleCopy obj op r) := by
  refine Within.bind (Within.read _) fun k => Within.ite ?_ ?_
  · refine Within.ite onSend_steady (Within.ite ?_ (Within.pure _))
    exact Within.update fun cl => ⟨rfl, .refl _⟩
  · exact Within.update fun cl => .of_toConnection (common_toConnection obj op r cl)

def copyDispatcher : Dispatcher CopyState where
  handle := handleCopy
  steady := handleCopy_steady

def pasteDispatcher : Dispatcher PasteState where
  handle := handlePaste
  steady obj op r := Within.update fun cl => .of_toConnection (pasteStep_toConnection obj op r cl)

/-! ## The operations -/

def copySetup (display seat : Text) (sel : Selection) : Prog Halt (Client CopyState) Bool := do
  if ← start copyDispatcher display seat sel then
    let st ← Prog.read Client.st
    if st.data.mimeTypes = [] then return false
    else
      announce sel
      let _ ← Client.onConn Connection.flush
      return true
  else return false

def copyServe : Prog Halt (Client CopyState) Bool := do
  let ok ← Client.dispatchUntil CopyState.done copyDispatcher
  let st ← Prog.read Client.st
  return ok && (!st.cancelled || st.served > 0)

def copyClient (display seat : Text) (sel : Selection) : Prog Halt (Client CopyState) Bool := do
  if ← copySetup display seat sel then copyServe else return false

def pasteSetup (display seat : Text) (sel : Selection) : Prog Halt (Client PasteState) Bool := do
  if ← start pasteDispatcher display seat sel then
    getDevice
    let _ ← Client.onConn Connection.flush
    return true
  else return false

def pasteReceive (sel : Selection) (preferMime : Text) (listOnly : Bool) :
    Prog Halt (Client PasteState) (Bool × PasteResult) := do
  if ← Client.dispatchUntil (haveTarget sel) pasteDispatcher then take sel preferMime listOnly
  else return (false, .empty)

def pasteClient (display seat : Text) (sel : Selection) (preferMime : Text) (listOnly : Bool) :
    Prog Halt (Client PasteState) (Bool × PasteResult) := do
  if ← pasteSetup display seat sel then pasteReceive sel preferMime listOnly
  else return (false, .empty)

end Handcrafted

namespace HandcraftedBackend

def copy (display seat : Text) (sel : Selection) (data : CopyData) (oneshot : Bool) :
    Prog Halt Process Bool :=
  Client.run (CopyState.new data oneshot) (Handcrafted.copyClient display seat sel)

/-- The result is `false` or `true` with the fields of `out` that were set by then. -/
def paste (display seat : Text) (sel : Selection) (preferMime : Text) (listOnly : Bool) :
    Prog Halt Process (Bool × PasteResult) :=
  Client.run PasteState.new (Handcrafted.pasteClient display seat sel preferMime listOnly)

end HandcraftedBackend

end WlClip
