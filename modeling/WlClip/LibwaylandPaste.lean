import WlClip.Mime
import WlClip.State
import WlClip.Transfer

/-!
# Pasting through libwayland

The paste operations of `data_control.cpp` and `data_device.cpp`. A pointer to a pending offer is
its place in the list of offers, which only grows.
-/

open ScriptedProgram ScriptedProgram.Prog

namespace WlClip

namespace Libwayland

structure PendingOffer where
  proxy : Proxy
  mimes : List Text
  deriving DecidableEq

/-- The record that a type is added to: the first with the proxy. -/
def addMime (p : Proxy) (m : Text) : List PendingOffer → List PendingOffer
  | [] => []
  | o :: offers =>
    if o.proxy = p then { o with mimes := o.mimes ++ [m] } :: offers
    else o :: addMime p m offers

def findOffer (offers : List PendingOffer) : Option Proxy → Option ℕ
  | none => none
  | some p => offers.findIdx? fun o => o.proxy = p

def destroyOffers {σ : Type} : List PendingOffer → Prog Halt (Listening σ) Unit
  | [] => return ()
  | o :: offers => do
    Listening.request (.destroyOffer o.proxy)
    destroyOffers offers

/-- Asks for the offer as `mime` through a pipe and reads it to the end. -/
def fetch {σ : Type} (offer : PendingOffer) (mime : Text) (offers : List PendingOffer) :
    Prog Halt (Listening σ) (Bool × PasteResult) := do
  match ← Listening.sys Process.makePipe with
  | none =>
    Listening.request .destroyDevice
    return (false, ⟨mime, [], offer.mimes⟩)
  | some (readEnd, writeEnd) =>
    Listening.request (.receive offer.proxy mime writeEnd)
    Listening.sys (Process.close writeEnd)
    let bytes ← Listening.sys (Process.drainFd readEnd)
    destroyOffers offers
    Listening.request .destroyDevice
    Listening.sys (Process.close readEnd)
    return (true, ⟨mime, bytes, offer.mimes⟩)

/-- What is left to do when the selection is known. -/
def take {σ : Type} (current : Option ℕ) (offers : List PendingOffer) (preferMime : Text)
    (listOnly : Bool) : Prog Halt (Listening σ) (Bool × PasteResult) :=
  match current.bind fun i => offers[i]? with
  | none => do
    Listening.request .destroyDevice
    return (false, .empty)
  | some offer =>
    if listOnly then do
      Listening.request .destroyDevice
      return (true, ⟨[], [], offer.mimes⟩)
    else
      let mime := chooseMime offer.mimes preferMime
      if mime = [] then do
        Listening.request .destroyDevice
        return (false, ⟨[], [], offer.mimes⟩)
      else fetch offer mime offers

/-! ## Requests and calls -/

section

variable {σ α : Type} {l : Listening σ} {rest : List Reply}

theorem request_eq (r : WlRequest) (l : Listening σ) :
    Listening.request r l =
      (.ok (), { l with toProcess := l.after [.request r] l.script }) := rfl

theorem destroyOffers_eq (offers : List PendingOffer) (l : Listening σ) :
    destroyOffers offers l = (.ok (), { l with
      toProcess := l.after (offers.map fun o => .request (.destroyOffer o.proxy)) l.script }) := by
  induction offers generalizing l with
  | nil =>
      rw [List.map_nil, Process.after, List.append_nil]
      rfl
  | cons o offers ih =>
      rw [destroyOffers, bind_ok (request_eq _ l), ih, Process.after_after]
      rfl

theorem sys_eq {p : Prog Halt Process α} {r : Except Halt α} {q : Process}
    (h : p l.toProcess = (r, q)) : Listening.sys p l = (r, { l with toProcess := q }) := by
  simp only [Listening.sys, Listening.onState, State.sys, Prog.zoom_apply, h]

theorem close_eq (fd : Int) (l : Listening σ) :
    Listening.sys (Process.close fd) l =
      (.ok ⟨⟩, { l with toProcess := l.after [.close fd] l.script }) := rfl

theorem makePipe_cons {r : Except Errno (Int × Int)} (hs : l.script = .pipe r :: rest) :
    Listening.sys Process.makePipe l =
      (.ok r.toOption, { l with toProcess := l.after [.call .pipe (.pipe r)] rest }) := by
  have hpipe : Process.pipe l.toProcess = (.ok r, l.after [.call .pipe (.pipe r)] rest) :=
    Process.ask_cons hs rfl
  exact sys_eq ((bind_ok hpipe).trans (by rcases r with e | ends <;> rfl))

/-- A fetch reads when it has sent its request and closed the write end. -/
theorem fetch_reads {offer : PendingOffer} {mime : Text} {offers : List PendingOffer} {r w : Int}
    {reads : List Reply} (hs : l.script = .pipe (.ok (r, w)) :: reads) :
    fetch offer mime offers l = (do
      let bytes ← Listening.sys (Process.drainFd r)
      destroyOffers offers
      Listening.request .destroyDevice
      Listening.sys (Process.close r)
      return (true, ⟨mime, bytes, offer.mimes⟩) : Prog Halt (Listening σ) _)
        { l with toProcess := l.after [.call .pipe (.pipe (.ok (r, w))),
          .request (.receive offer.proxy mime w), .close w] reads } := by
  rw [fetch, bind_ok (makePipe_cons hs)]
  refine (bind_ok (request_eq _ _)).trans ((bind_ok (close_eq w _)).trans ?_)
  simp only [Process.after_after]
  rfl

end

end Libwayland

namespace DataControlBackend

open Libwayland

structure PasteState where
  offers : List PendingOffer
  currentRegular : Option ℕ
  currentPrimary : Option ℕ
  gotRegular : Bool
  gotPrimary : Bool
  finished : Bool
  deriving DecidableEq

def PasteState.new : PasteState :=
  { offers := [], currentRegular := none, currentPrimary := none, gotRegular := false,
    gotPrimary := false, finished := false }

def pasteEvent : WlEvent → PasteState → PasteState
  | .offerMime p m, st => { st with offers := addMime p m st.offers }
  | .dataOffer p, st => { st with offers := st.offers ++ [⟨p, []⟩] }
  | .selection p, st => { st with currentRegular := findOffer st.offers p, gotRegular := true }
  | .primarySelection p, st =>
    { st with currentPrimary := findOffer st.offers p, gotPrimary := true }
  | .finished, st => { st with finished := true }
  | _, st => st

def pasteListener (e : WlEvent) : Prog Halt (Listening PasteState) Unit :=
  Listening.setState (pasteEvent e)

def haveTarget (sel : Selection) (st : PasteState) : Bool :=
  st.finished || if sel = .primary then st.gotPrimary else st.gotRegular

def target (sel : Selection) (st : PasteState) : Option ℕ :=
  if sel = .primary then st.currentPrimary else st.currentRegular

def awaitRound (sel : Selection) (_ : Unit) : Prog Halt (Listening PasteState) (Unit ⊕ Bool) := do
  let st ← Prog.read Listening.st
  if haveTarget sel st then return .inr true
  else if ← Listening.dispatch pasteListener then return .inl ()
  else return .inr false

def awaitTarget (sel : Selection) : Prog Halt (Listening PasteState) Bool :=
  loop .stuck (fun _ l => l.toProcess.size) (awaitRound sel) ()

def receive (seat : SeatInfo) (sel : Selection) (preferMime : Text) (listOnly : Bool) :
    Prog Halt (Listening PasteState) (Bool × PasteResult) := do
  Listening.request (.getDataDevice seat.proxy)
  if ← awaitTarget sel then
    let st ← Prog.read Listening.st
    take (target sel st) st.offers preferMime listOnly
  else
    Listening.request .destroyDevice
    return (false, .empty)

def paste (seat : SeatInfo) (sel : Selection) (preferMime : Text) (listOnly : Bool) :
    Prog Halt State (Bool × PasteResult) := do
  let s ← Prog.read id
  if !s.zwlrManager then return (false, .empty)
  else if sel = .primary ∧ s.zwlrManagerVersion < 2 then return (false, .empty)
  else Listening.run .new (receive seat sel preferMime listOnly)

end DataControlBackend

namespace DataDeviceBackend

open Libwayland

structure PasteState where
  offers : List PendingOffer
  current : Option ℕ
  gotSelection : Bool
  deriving DecidableEq

def PasteState.new : PasteState := { offers := [], current := none, gotSelection := false }

def pasteEvent : WlEvent → PasteState → PasteState
  | .offerMime p m, st => { st with offers := addMime p m st.offers }
  | .dataOffer p, st => { st with offers := st.offers ++ [⟨p, []⟩] }
  | .selection p, st => { st with current := findOffer st.offers p, gotSelection := true }
  | _, st => st

def pasteListener (e : WlEvent) : Prog Halt (Listening PasteState) Unit :=
  Listening.setState (pasteEvent e)

def waitMs : Int := 1500

/-- Without a selection there are no events for long, unless the focus is ours. -/
def awaitRound (_ : Unit) : Prog Halt (Listening PasteState) (Unit ⊕ Bool) := do
  let st ← Prog.read Listening.st
  if st.gotSelection then return .inr true
  else
    match ← Listening.sys (Process.displayPoll waitMs) with
    | .ok (.ready _) =>
      if ← Listening.dispatch pasteListener then return .inl () else return .inr false
    | _ => return .inr false

def awaitSelection : Prog Halt (Listening PasteState) Bool :=
  loop .stuck (fun _ l => l.toProcess.size) awaitRound ()

def receive (seat : SeatInfo) (preferMime : Text) (listOnly : Bool) :
    Prog Halt (Listening PasteState) (Bool × PasteResult) := do
  Listening.request (.getDataDevice seat.proxy)
  if ← awaitSelection then
    let st ← Prog.read Listening.st
    take st.current st.offers preferMime listOnly
  else
    Listening.request .destroyDevice
    return (false, .empty)

def paste (seat : SeatInfo) (sel : Selection) (preferMime : Text) (listOnly : Bool) :
    Prog Halt State (Bool × PasteResult) := do
  let s ← Prog.read id
  if !s.wlManager then return (false, .empty)
  else if sel = .primary then return (false, .empty)
  else Listening.run .new (receive seat preferMime listOnly)

end DataDeviceBackend

end WlClip
