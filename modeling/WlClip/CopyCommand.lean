import WlClip.Handcrafted
import WlClip.LibwaylandCopy
import WlClip.LibwaylandPaste
import WlClip.X11

/-!
# The copy command

`run_copy` of `copy.cpp` with what it calls, and the choice of a backend in `factory.cpp`. Left out
are the redirection of the daemon's standard streams and the times that are only logged. The
variable `kind` of `run_copy` is not initialised: what it holds at first is a parameter.
-/

open ScriptedProgram ScriptedProgram.Prog

namespace WlClip

/-! ## Backends -/

/-- An uninitialised variable may hold a value that is none of the kinds. -/
inductive BackendKind
  | auto
  | dataControl
  | dataDevice
  | handcraftedControl
  | x11
  | unnamed (value : Int)
  deriving DecidableEq

def parseBackendKind (name : Text) : Option BackendKind :=
  if name = [] ∨ name = text "auto" then some .auto
  else if name = text "wlr" ∨ name = text "data-control" ∨ name = text "zwlr_data_control_v1" ∨
      name = text "zwlr_data_control_unstable_v1" then some .dataControl
  else if name = text "wl" ∨ name = text "data-device" ∨ name = text "wl_data_device_manager" then
    some .dataDevice
  else if name = text "raw" ∨ name = text "wlr-raw" ∨ name = text "handcrafted" ∨
      name = text "hand" then some .handcraftedControl
  else if name = text "x11" ∨ name = text "xcb" then some .x11
  else none

inductive Backend
  | dataControl
  | dataDevice
  | handcrafted
  | x11
  deriving DecidableEq

def makeBackend (s : State) : BackendKind → Option Backend
  | .dataControl => if s.zwlrManager then some .dataControl else none
  | .dataDevice => if s.wlManager then some .dataDevice else none
  | .handcraftedControl => some .handcrafted
  | .x11 => some .x11
  | _ =>
    if s.zwlrManager then some .dataControl
    else if s.wlManager then some .dataDevice
    else none

/-- The options before the command. -/
structure CommonOptions where
  display : Text
  seat : Text
  backend : Text
  primary : Bool
  deriving DecidableEq

def CommonOptions.selection (common : CommonOptions) : Selection :=
  if common.primary then .primary else .regular

def Backend.copy (common : CommonOptions) (seat : SeatInfo) (data : CopyData) (oneshot : Bool) :
    Backend → Prog Halt State Bool
  | .dataControl => DataControlBackend.copy seat common.selection data oneshot
  | .dataDevice => DataDeviceBackend.copy seat common.selection data oneshot
  | .handcrafted => State.sys
      (HandcraftedBackend.copy common.display common.seat common.selection data oneshot)
  | .x11 => State.sys (X11Backend.copy common.display common.selection data oneshot)

namespace CopyCommand

/-! ## Arguments -/

structure CopyOpts where
  mimeTypes : List Text
  oneshot : Bool
  trimNewline : Bool
  clear : Bool
  foreground : Bool
  syncWait : Bool
  syncTimeoutMs : ℕ
  rest : List Text
  deriving DecidableEq

def CopyOpts.new : CopyOpts :=
  { mimeTypes := [], oneshot := false, trimNewline := false, clear := false, foreground := false,
    syncWait := false, syncTimeoutMs := 500, rest := [] }

def isSpace (c : UInt8) : Bool := c = 0x20 || 0x09 ≤ c && c ≤ 0x0D

/-- `std::stoi`, which throws where there is no number or it is no `int`. -/
def stoi (s : Text) : Option Int :=
  let s := s.dropWhile isSpace
  let negative := s.head? = some 0x2D
  let s := if s.head? = some 0x2D ∨ s.head? = some 0x2B then s.tail else s
  let digits := s.takeWhile fun c => 0x30 ≤ c && c ≤ 0x39
  let n : ℕ := digits.foldl (fun n c => 10 * n + (c.toNat - 48)) 0
  let value : Int := if negative then -n else n
  if digits = [] ∨ value < -2147483648 ∨ 2147483647 < value then none else some value

def parse : List Text → CopyOpts → Option CopyOpts
  | [], o => some o
  | a :: args, o =>
    if a = text "-t" ∨ a = text "--type" then
      match args with
      | [] => none
      | v :: args => parse args { o with mimeTypes := o.mimeTypes ++ [v] }
    else if a = text "-n" ∨ a = text "--trim-newline" then parse args { o with trimNewline := true }
    else if a = text "-o" ∨ a = text "--oneshot" then parse args { o with oneshot := true }
    else if a = text "-c" ∨ a = text "--clear" then parse args { o with clear := true }
    else if a = text "-f" ∨ a = text "--foreground" then parse args { o with foreground := true }
    else if a = text "-s" ∨ a = text "--sync" then parse args { o with syncWait := true }
    else if a = text "--sync-timeout" then
      match args with
      | [] => none
      | v :: args =>
        match stoi v with
        | none => none
        | some ms => parse args { o with syncTimeoutMs := ms.toNat }
    else if a = text "-h" ∨ a = text "--help" then none
    else if a = text "--" then some { o with rest := o.rest ++ args }
    else if a.head? = some 0x2D then none
    else parse args { o with rest := o.rest ++ [a] }

/-- Every list of types is admitted. -/
theorem parse_types (types : List Text) (o : CopyOpts) :
    parse (types.flatMap fun t => [text "-t", t]) o =
      some { o with mimeTypes := o.mimeTypes ++ types } := by
  induction types generalizing o with
  | nil => simp [parse]
  | cons t types ih =>
      have hnext := ih { o with mimeTypes := o.mimeTypes ++ [t] }
      simp only [List.flatMap_cons, List.cons_append, List.nil_append, parse, true_or, if_true]
      rw [hnext, List.append_assoc, List.singleton_append]

/-! ## The payload -/

def stdinFileno : Int := 0

/-- The arguments with a blank between two of them and a newline at the end. -/
def joinArgs : List Text → List UInt8
  | [] => []
  | [s] => s ++ [0x0A]
  | s :: rest => s ++ 0x20 :: joinArgs rest

def collectPayload (o : CopyOpts) : Prog Halt Process (List UInt8) := do
  let bytes ← if o.rest ≠ [] then pure (joinArgs o.rest) else Process.drainFd stdinFileno
  return if o.trimNewline ∧ bytes.getLast? = some 0x0A then bytes.dropLast else bytes

def textTypes : List Text :=
  [text "text/plain;charset=utf-8", text "text/plain", text "UTF8_STRING", text "STRING",
    text "TEXT"]

/-- Nothing is read to clear a selection. -/
def collectData (o : CopyOpts) : Prog Halt Process CopyData := do
  if o.clear then return ⟨[], []⟩
  else
    let bytes ← collectPayload o
    if o.mimeTypes = [] then
      let guessed := guessMime bytes []
      return ⟨bytes, if startsWith guessed (text "text/") then textTypes else [guessed]⟩
    else return ⟨bytes, o.mimeTypes⟩

/-- The parent exits. -/
def detachToBackground : Prog Halt Process Bool := do
  let pid ← Process.fork
  if pid < 0 then return false
  else if pid > 0 then Prog.halt (.exited 0)
  else return true

/-! ## Waiting until the selection is visible -/

open Libwayland (PendingOffer addMime destroyOffers)

structure SyncState where
  offers : List PendingOffer
  currentRegular : Option Proxy
  currentPrimary : Option Proxy
  deriving DecidableEq

def SyncState.new : SyncState := { offers := [], currentRegular := none, currentPrimary := none }

def syncEvent : WlEvent → SyncState → SyncState
  | .offerMime p m, st => { st with offers := addMime p m st.offers }
  | .dataOffer p, st => { st with offers := st.offers ++ [⟨p, []⟩] }
  | .selection p, st => { st with currentRegular := p }
  | .primarySelection p, st => { st with currentPrimary := p }
  | _, st => st

def syncListener (e : WlEvent) : Prog Halt (Listening SyncState) Unit :=
  Listening.setState (syncEvent e)

inductive Probe
  | verified
  | notYet
  | failed
  deriving DecidableEq

/-- Reads the current offer as the first of our types that it has. -/
def probeCurrentOffer (primary : Bool) (mimes : List Text) (bytes : List UInt8) :
    Prog Halt (Listening SyncState) Probe := do
  let st ← Prog.read Listening.st
  let current := if primary then st.currentPrimary else st.currentRegular
  match current.bind fun p => st.offers.find? fun o => o.proxy = p with
  | none => return .notYet
  | some offer =>
    match mimes.find? fun m => m ∈ offer.mimes with
    | none => return .notYet
    | some mime =>
      if mime = [] then return .notYet
      else
        match ← Listening.sys Process.makePipe with
        | none => return .failed
        | some (readEnd, writeEnd) =>
          Listening.request (.receive offer.proxy mime writeEnd)
          Listening.sys (Process.close writeEnd)
          let got ← Listening.sys (Process.drainFd readEnd)
          Listening.sys (Process.close readEnd)
          return if got = bytes then .verified else .notYet

def probeIntervalMs : ℕ := 30

/-- Tries again after an event or a while, until the deadline. -/
def visibilityRound (primary : Bool) (mimes : List Text) (bytes : List UInt8) (deadline : ℕ)
    (_ : Unit) : Prog Halt (Listening SyncState) (Unit ⊕ Bool) := do
  match ← probeCurrentOffer primary mimes bytes with
  | .verified => return .inr true
  | .failed => return .inr false
  | .notYet =>
    let now ← Listening.sys Process.clock
    if deadline ≤ now then return .inr false
    else
      match ← Listening.sys (Process.displayPoll (min probeIntervalMs (deadline - now) : ℕ)) with
      | .error _ => return .inr false
      | .ok .timeout => return .inl ()
      | .ok (.ready _) =>
        if ← Listening.dispatch syncListener then return .inl () else return .inr false

def awaitVisible (seat : SeatInfo) (primary : Bool) (mimes : List Text) (bytes : List UInt8)
    (deadline : ℕ) : Prog Halt (Listening SyncState) Bool := do
  Listening.request (.getDataDevice seat.proxy)
  let _ ← Listening.roundtrip syncListener
  let verified ← loop .stuck (fun _ l => l.toProcess.size)
    (visibilityRound primary mimes bytes deadline) ()
  let st ← Prog.read Listening.st
  destroyOffers st.offers
  Listening.request .destroyDevice
  return verified

def waitForWlVisibility (display : Text) (primary : Bool) (mimes : List Text) (bytes : List UInt8)
    (timeoutMs : ℕ) : Prog Halt Process Bool := do
  let start ← Process.clock
  State.run do
    if ← State.connect display then
      State.initialSync
      let s ← Prog.read id
      if !s.zwlrManager then return false
      else if primary ∧ s.zwlrManagerVersion < 2 then return false
      else
        match ← State.pickSeat [] with
        | none => return false
        | some seat =>
          Listening.run .new (awaitVisible seat primary mimes bytes (start + timeoutMs))
    else return false

/-! ## The command -/

/-- Clears the selection; the type of the request depends on the version of the manager. -/
def handleClear (seat : SeatInfo) (primary : Bool) : Prog Halt State ℕ := do
  let s ← Prog.read id
  if !s.zwlrManager then return 1
  else
    State.request (.getDataDevice seat.proxy)
    State.request <|
      if primary ∧ s.zwlrManagerVersion ≥ 2 then .setPrimarySelection false else .setSelection false
    let _ ← State.roundtrip
    State.request .destroyDevice
    return 0

/-- What `kind` holds when it is looked at, unless the name of the protocol is unknown. -/
def selectKind (common : CommonOptions) (o : CopyOpts) (kind : BackendKind) : Option BackendKind :=
  if o.clear then some kind else parseBackendKind common.backend

inductive Branch
  | x11
  | handcrafted
  | libwayland
  deriving DecidableEq

def branch (kind : BackendKind) : Branch :=
  if kind = .x11 then .x11 else if kind = .handcraftedControl then .handcrafted else .libwayland

def exitCode (ok : Bool) : ℕ := if ok then 0 else 1

def runX11 (common : CommonOptions) (o : CopyOpts) (data : CopyData) : Prog Halt Process ℕ := do
  if o.clear then return 1
  else
    let ok ← X11Backend.copyAcquireThenDetach common.display common.selection data o.oneshot
      (!o.foreground) <|
        if o.syncWait ∧ !o.foreground then do
          let _ ← waitForWlVisibility common.display common.primary data.mimeTypes data.bytes
            o.syncTimeoutMs
        else return ()
    return exitCode ok

def runHandcrafted (common : CommonOptions) (o : CopyOpts) (data : CopyData) :
    Prog Halt Process ℕ := do
  if o.clear then return 1
  else
    let ok ← HandcraftedBackend.copy common.display common.seat common.selection data o.oneshot
    return exitCode ok

def runLibwayland (common : CommonOptions) (o : CopyOpts) (kind : BackendKind) (data : CopyData) :
    Prog Halt Process ℕ :=
  State.run do
    if ← State.connect common.display then
      State.initialSync
      match ← State.pickSeat common.seat with
      | none => return 1
      | some seat =>
        if o.clear then handleClear seat common.primary
        else
          let s ← Prog.read id
          match makeBackend s kind with
          | none => return 1
          | some backend =>
            let ok ← backend.copy common seat data o.oneshot
            return exitCode ok
    else return 1

/-- All but the X11 backend are detached before they connect. -/
def runDetached (common : CommonOptions) (o : CopyOpts) (kind : BackendKind) (data : CopyData) :
    Prog Halt Process ℕ := do
  let detached ← if !o.clear ∧ !o.foreground then detachToBackground else pure true
  if !detached then return 1
  else if branch kind = .handcrafted then runHandcrafted common o data
  else runLibwayland common o kind data

def runCopy (common : CommonOptions) (args : List Text) (kind : BackendKind) :
    Prog Halt Process ℕ :=
  match parse args .new with
  | none => return 2
  | some o =>
    match selectKind common o kind with
    | none => return 2
    | some kind => do
      let data ← collectData o
      if branch kind = .x11 then runX11 common o data else runDetached common o kind data

/-! ## The indeterminate kind -/

/-- The branch that is taken, if the command comes to choose one. -/
def branchTaken (common : CommonOptions) (args : List Text) (kind : BackendKind) : Option Branch :=
  (parse args .new).bind fun o => (selectKind common o kind).map branch

/-- What the variable holds at first makes no difference. -/
def Determinate (common : CommonOptions) (args : List Text) : Prop :=
  ∀ kind kind', branchTaken common args kind = branchTaken common args kind' ∧
    ∀ p, runCopy common args kind p = runCopy common args kind' p

theorem selectKind_copy {o : CopyOpts} (h : o.clear = false) (common : CommonOptions)
    (kind kind' : BackendKind) : selectKind common o kind = selectKind common o kind' := by
  rw [selectKind, selectKind, h]
  rfl

/-- The command is determinate exactly where it is not told to clear the selection. -/
theorem runCopy_determinate_iff (common : CommonOptions) {args : List Text} {o : CopyOpts}
    (h : parse args .new = some o) : Determinate common args ↔ o.clear = false := by
  constructor
  · intro hdet
    by_contra hclear
    rw [Bool.not_eq_false] at hclear
    have hbranch : ∀ kind, branchTaken common args kind = some (branch kind) := fun kind => by
      rw [branchTaken, h, Option.bind_some, selectKind, if_pos hclear, Option.map_some]
    have hsame := (hdet .x11 .auto).1
    rw [hbranch, hbranch] at hsame
    exact absurd hsame (by decide)
  · intro hcopy kind kind'
    have hkind := selectKind_copy hcopy common kind kind'
    refine ⟨?_, fun p => ?_⟩
    · rw [branchTaken, branchTaken, h, Option.bind_some, Option.bind_some, hkind]
    · simp only [runCopy, h, hkind]

def defaultOptions : CommonOptions := ⟨[], [], [], false⟩

/-- The theorem at a command that copies its argument. -/
theorem runCopy_determinate_text : Determinate defaultOptions [text "hi"] :=
  (runCopy_determinate_iff defaultOptions (by decide : parse [text "hi"] .new =
    some { CopyOpts.new with rest := [text "hi"] })).mpr rfl

/-- A process whose compositor has a seat and a manager. -/
def clearing : Process where
  script := [.displayConnect true, .displayRoundtrip [.global 1 kIfWlSeat 8,
    .global 2 kIfZwlrMgr 2] true, .displayRoundtrip [] true, .displayRoundtrip [] true]
  trace := []
  sigpipe := .default
  getenv := fun _ => none

/-- To clear the selection is refused or done as the variable happens to hold. -/
theorem clear_indeterminate :
    parse [text "-c"] .new = some { CopyOpts.new with clear := true } ∧
    (runCopy defaultOptions [text "-c"] .x11 clearing).1 = .ok 1 ∧
    (runCopy defaultOptions [text "-c"] .x11 clearing).2.requested = [] ∧
    (runCopy defaultOptions [text "-c"] .auto clearing).1 = .ok 0 ∧
    .setSelection false ∈ (runCopy defaultOptions [text "-c"] .auto clearing).2.requested ∧
    ¬ Determinate defaultOptions [text "-c"] := by
  have hrefused : (runCopy defaultOptions [text "-c"] .x11 clearing).1 = .ok 1 := by decide +kernel
  have hdone : (runCopy defaultOptions [text "-c"] .auto clearing).1 = .ok 0 := by decide +kernel
  refine ⟨by decide, hrefused, by decide +kernel, hdone, by decide +kernel, fun hdet => ?_⟩
  have hsame := congrArg Prod.fst ((hdet .x11 .auto).2 clearing)
  rw [hrefused, hdone] at hsame
  cases hsame

end CopyCommand

end WlClip
