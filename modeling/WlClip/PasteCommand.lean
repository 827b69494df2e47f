import WlClip.CopyCommand

/-!
# The paste command

`run_paste` of `paste.cpp`. The listing goes through a buffered stream, which is written when the
command is over.
-/

open ScriptedProgram ScriptedProgram.Prog

namespace WlClip

def Backend.paste (common : CommonOptions) (seat : SeatInfo) (preferMime : Text) (listOnly : Bool) :
    Backend → Prog Halt State (Bool × PasteResult)
  | .dataControl => DataControlBackend.paste seat common.selection preferMime listOnly
  | .dataDevice => DataDeviceBackend.paste seat common.selection preferMime listOnly
  | .handcrafted => State.sys
      (HandcraftedBackend.paste common.display common.seat common.selection preferMime listOnly)
  | .x11 => State.sys (X11Backend.paste common.display common.selection preferMime listOnly)

namespace PasteCommand

open CopyCommand (branch)

/-! ## Arguments -/

structure PasteOpts where
  type : Text
  listTypes : Bool
  noNewline : Bool
  deriving DecidableEq

def PasteOpts.new : PasteOpts := { type := [], listTypes := false, noNewline := false }

def parse : List Text → PasteOpts → Option PasteOpts
  | [], o => some o
  | a :: args, o =>
    if a = text "-t" ∨ a = text "--type" then
      match args with
      | [] => none
      | v :: args => parse args { o with type := v }
    else if a = text "-l" ∨ a = text "--list-types" then parse args { o with listTypes := true }
    else if a = text "-n" ∨ a = text "--no-newline" then parse args { o with noNewline := true }
    else none

/-! ## The command -/

def stdoutFileno : Int := 1

def receiveLibwayland (common : CommonOptions) (o : PasteOpts) (kind : BackendKind) :
    Prog Halt Process (Bool × PasteResult) :=
  State.run do
    if ← State.connect common.display then
      State.initialSync
      match ← State.pickSeat common.seat with
      | none => return (false, .empty)
      | some seat =>
        let s ← Prog.read id
        match makeBackend s kind with
        | none => return (false, .empty)
        | some backend => backend.paste common seat o.type o.listTypes
    else return (false, .empty)

/-- Where no backend comes to paste the command fails as it does where one fails. -/
def receive (common : CommonOptions) (o : PasteOpts) (kind : BackendKind) :
    Prog Halt Process (Bool × PasteResult) :=
  match branch kind with
  | .handcrafted =>
    HandcraftedBackend.paste common.display common.seat common.selection o.type o.listTypes
  | .x11 => X11Backend.paste common.display common.selection o.type o.listTypes
  | .libwayland => receiveLibwayland common o kind

def listing (types : List Text) : List UInt8 := types.flatMap fun m => m ++ [0x0A]

/-- Whether a newline is put after the payload. -/
def addsNewline (o : PasteOpts) (out : PasteResult) : Bool :=
  !o.noNewline && isTextual out.mime && out.bytes.getLast? ≠ some 0x0A

def output (o : PasteOpts) (out : PasteResult) : Prog Halt Process ℕ := do
  if o.listTypes then
    if listing out.available = [] then return 0
    else
      let _ ← Process.write stdoutFileno (listing out.available)
      return 0
  else
    let ok ← if out.bytes = [] then pure true else Process.writeAll stdoutFileno out.bytes
    if !ok then return 1
    else if addsNewline o out then
      let _ ← Process.write stdoutFileno [0x0A]
      return 0
    else return 0

def runPaste (common : CommonOptions) (args : List Text) : Prog Halt Process ℕ :=
  match parse args .new with
  | none => return 2
  | some o =>
    match parseBackendKind common.backend with
    | none => return 2
    | some kind => do
      let (ok, out) ← receive common o kind
      if ok then output o out else return 1

end PasteCommand

end WlClip
