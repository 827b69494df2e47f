import WlClip.Consumers
import WlClip.State

/-!
# Copying through libwayland

The copy operations of `data_control.cpp` and `data_device.cpp`. Both files have the same copy
state and the same source listener; what differs is the manager that they ask and what they check.
-/

open ScriptedProgram ScriptedProgram.Prog

namespace WlClip

namespace Libwayland

structure CopyState where
  data : CopyData
  oneshot : Bool
  done : Bool
  cancelled : Bool
  served : ℕ
  deriving DecidableEq

def CopyState.new (data : CopyData) (oneshot : Bool) : CopyState :=
  { data := data, oneshot := oneshot, done := false, cancelled := false, served := 0 }

def countServed (st : CopyState) : CopyState :=
  { st with served := st.served + 1, done := st.done || st.oneshot }

def onSourceSend (fd : Int) : Prog Halt (Listening CopyState) Unit := do
  let st ← Prog.read Listening.st
  Listening.sys (Process.serveSend fd st.data.bytes)
  Listening.setState countServed

def onSourceCancelled : Prog Halt (Listening CopyState) Unit :=
  Listening.setState fun st => { st with cancelled := true, done := true }

def sourceListener : WlEvent → Prog Halt (Listening CopyState) Unit
  | .sourceSend _ fd => onSourceSend fd
  | .sourceCancelled => onSourceCancelled
  | _ => return ()

/-- Whether the copy is done is looked at between two dispatches only. -/
def serveRound (_ : Unit) : Prog Halt (Listening CopyState) (Unit ⊕ Unit) := do
  let st ← Prog.read Listening.st
  if st.done then return .inr ()
  else if ← Listening.dispatch sourceListener then return .inl ()
  else return .inr ()

def serve : Prog Halt (Listening CopyState) Unit :=
  loop .stuck (fun _ l => l.toProcess.size) serveRound ()

def offerAll : List Text → Prog Halt (Listening CopyState) Unit
  | [] => return ()
  | m :: mimes => do
    Listening.request (.sourceOffer m)
    offerAll mimes

/-- Up to the flush after the selection was set. -/
def announce (seat : SeatInfo) (setSelection : WlRequest) : Prog Halt (Listening CopyState) Unit := do
  Listening.request (.getDataDevice seat.proxy)
  Listening.request .createDataSource
  let st ← Prog.read Listening.st
  offerAll st.data.mimeTypes
  Listening.request setSelection

/-- The end of a copy: the proxies are destroyed and the verdict is given. -/
def finish : Prog Halt (Listening CopyState) Bool := do
  Listening.request .destroySource
  Listening.request .destroyDevice
  let st ← Prog.read Listening.st
  return !st.cancelled || st.served > 0

def serveAndFinish : Prog Halt (Listening CopyState) Bool := do
  serve
  finish

/-- What both copies do when they have checked what they need. -/
def offer (seat : SeatInfo) (setSelection : WlRequest) (data : CopyData) (oneshot : Bool) :
    Prog Halt State Bool :=
  Listening.run (CopyState.new data oneshot) do
    announce seat setSelection
    serveAndFinish

end Libwayland

namespace DataControlBackend

open Libwayland

def setSelection (sel : Selection) : WlRequest :=
  if sel = .primary then .setPrimarySelection true else .setSelection true

def copy (seat : SeatInfo) (sel : Selection) (data : CopyData) (oneshot : Bool) :
    Prog Halt State Bool := do
  let s ← Prog.read id
  if !s.zwlrManager then return false
  else if sel = .primary ∧ s.zwlrManagerVersion < 2 then return false
  else if data.mimeTypes = [] then return false
  else offer seat (setSelection sel) data oneshot

end DataControlBackend

namespace DataDeviceBackend

open Libwayland

def copy (seat : SeatInfo) (sel : Selection) (data : CopyData) (oneshot : Bool) :
    Prog Halt State Bool := do
  let s ← Prog.read id
  if !s.wlManager then return false
  else if sel = .primary then return false
  else offer seat (.setSelection true) data oneshot

end DataDeviceBackend

end WlClip
