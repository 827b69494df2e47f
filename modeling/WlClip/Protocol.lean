import WlClip.Wire

/-!
# What the program exchanges with libwayland and with an X server

Proxies of libwayland and windows and atoms of X are numbers; a null proxy is `none`. Only the
events that some listener of the program handles and the requests that it makes are listed.
-/

namespace WlClip

inductive Selection
  | regular
  | primary
  deriving DecidableEq

/-- The MIME strings advertised to peers and the bytes served to them. -/
structure CopyData where
  bytes : List UInt8
  mimeTypes : List Text
  deriving DecidableEq

structure PasteResult where
  mime : Text
  bytes : List UInt8
  available : List Text
  deriving DecidableEq

def PasteResult.empty : PasteResult := ⟨[], [], []⟩

/-! ## Seat selectors -/

def allDigits (s : Text) : Bool := s.all fun c => 0x30 ≤ c && c ≤ 0x39

/-- The value of a string of digits; `std::stoul` throws where it does not fit. -/
def stoul (s : Text) : Option ℕ :=
  let n := s.foldl (fun n c => 10 * n + (c.toNat - 48)) 0
  if n < 2 ^ 64 then some n else none

/-! ## libwayland -/

abbrev Proxy := ℕ

inductive WlEvent
  | global (name : UInt32) (interface : Text) (version : UInt32)
  | globalRemove (name : UInt32)
  | seatName (seat : Proxy) (name : Text)
  | sourceSend (mime : Text) (fd : Int)
  | sourceCancelled
  | dataOffer (offer : Proxy)
  | offerMime (offer : Proxy) (mime : Text)
  | selection (offer : Option Proxy)
  | primarySelection (offer : Option Proxy)
  | finished
  deriving DecidableEq

/-- `setSelection` and `setPrimarySelection` name the source of the run or null. -/
inductive WlRequest
  | bind (name : UInt32) (interface : Text) (version : UInt32)
  | getDataDevice (seat : Proxy)
  | createDataSource
  | sourceOffer (mime : Text)
  | setSelection (source : Bool)
  | setPrimarySelection (source : Bool)
  | receive (offer : Proxy) (mime : Text) (fd : Int)
  | destroySource
  | destroyDevice
  | destroyOffer (offer : Proxy)
  | destroyManager (interface : Text)
  deriving DecidableEq

/-! ## X11 -/

abbrev Atom := UInt32

abbrev Window := UInt32

structure SelectionRequest where
  time : UInt32
  requestor : Window
  selection : Atom
  target : Atom
  property : Atom
  deriving DecidableEq

structure SelectionNotify where
  time : UInt32
  requestor : Window
  selection : Atom
  target : Atom
  property : Atom
  deriving DecidableEq

inductive XEvent
  | selectionRequest (r : SelectionRequest)
  | selectionNotify (n : SelectionNotify)
  | selectionClear
  | other
  deriving DecidableEq

/-- The reply to a GetProperty request. -/
structure PropertyReply where
  type : Atom
  value : List UInt8
  bytesAfter : ℕ
  deriving DecidableEq

inductive XRequest
  | convertSelection (requestor : Window) (selection target property : Atom)
  | setSelectionOwner (owner : Window) (selection : Atom)
  | changeProperty (window : Window) (property type : Atom) (format : ℕ) (data : List UInt8)
  | sendNotify (destination : Window) (event : SelectionNotify)
  | destroyWindow (window : Window)
  deriving DecidableEq

end WlClip
