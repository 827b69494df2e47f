import WlClip.Marshal

/-!
# The requests of a data-control client

Requests as values, how they are written, and how the compositor reads them. `ObjectTable` is the
compositor's view of one client: what each object id stands for and which id comes next.
-/

open LittleEndian

namespace WlClip

/-! ## Opcodes, as the protocol files number them -/

namespace WlDisplay

def kReqSync : UInt16 := 0
def kReqGetRegistry : UInt16 := 1
def kEvDeleteId : UInt16 := 1

end WlDisplay

namespace WlRegistry

def kReqBind : UInt16 := 0
def kEvGlobal : UInt16 := 0

end WlRegistry

namespace WlCallback

def kEvDone : UInt16 := 0

end WlCallback

namespace WlSeat

def kEvName : UInt16 := 1

end WlSeat

namespace Zdcm

def kReqCreateDataSource : UInt16 := 0
def kReqGetDataDevice : UInt16 := 1

end Zdcm

namespace Zdcd

def kReqSetSelection : UInt16 := 0
def kReqSetPrimarySelection : UInt16 := 2
def kEvDataOffer : UInt16 := 0
def kEvSelection : UInt16 := 1
def kEvFinished : UInt16 := 2
def kEvPrimarySelection : UInt16 := 3

end Zdcd

namespace Zdcs

def kReqOffer : UInt16 := 0
def kEvSend : UInt16 := 0
def kEvCancelled : UInt16 := 1

end Zdcs

namespace Zdco

def kReqReceive : UInt16 := 0
def kEvOffer : UInt16 := 0

end Zdco

def kIfWlSeat : Text := text "wl_seat"

def kIfZwlrMgr : Text := text "zwlr_data_control_manager_v1"

/-! ## Requests -/

inductive Interface
  | display
  | registry
  | callback
  | seat
  | manager
  | device
  | source
  | offer
  | other
  deriving DecidableEq

/-- A request without the object that it is made of. -/
inductive Request
  | getRegistry (registry : UInt32)
  | sync (callback : UInt32)
  | bind (name : UInt32) (interface : Text) (version : UInt32) (id : UInt32)
  | createDataSource (source : UInt32)
  | getDataDevice (device seat : UInt32)
  | offer (mime : Text)
  | setSelection (source : UInt32)
  | setPrimarySelection (source : UInt32)
  | receive (mime : Text)
  deriving DecidableEq

namespace Request

def interface : Request → Interface
  | .getRegistry _ => .display
  | .sync _ => .display
  | .bind .. => .registry
  | .createDataSource _ => .manager
  | .getDataDevice .. => .manager
  | .offer _ => .source
  | .setSelection _ => .device
  | .setPrimarySelection _ => .device
  | .receive _ => .offer

def opcode : Request → UInt16
  | .getRegistry _ => WlDisplay.kReqGetRegistry
  | .sync _ => WlDisplay.kReqSync
  | .bind .. => WlRegistry.kReqBind
  | .createDataSource _ => Zdcm.kReqCreateDataSource
  | .getDataDevice .. => Zdcm.kReqGetDataDevice
  | .offer _ => Zdcs.kReqOffer
  | .setSelection _ => Zdcd.kReqSetSelection
  | .setPrimarySelection _ => Zdcd.kReqSetPrimarySelection
  | .receive _ => Zdco.kReqReceive

def args : Request → List Arg
  | .getRegistry registry => [.u32 registry]
  | .sync callback => [.u32 callback]
  | .bind name interface version id => [.u32 name, .str interface, .u32 version, .u32 id]
  | .createDataSource source => [.u32 source]
  | .getDataDevice device seat => [.u32 device, .u32 seat]
  | .offer mime => [.str mime]
  | .setSelection source => [.u32 source]
  | .setPrimarySelection source => [.u32 source]
  | .receive mime => [.str mime]

/-- The bytes that the writer makes of a request. -/
def encode (target : UInt32) (r : Request) : List UInt8 :=
  (r.args.foldl Arg.write (Writer.new target r.opcode)).finalize

def Fits (r : Request) : Prop := (r.args.flatMap Arg.bytes).length + 8 < 65536

instance (r : Request) : Decidable r.Fits := inferInstanceAs (Decidable (_ < _))

/-- The message of a request that fits one, and an empty message otherwise. -/
def message (target : UInt32) (r : Request) : Message :=
  if h : r.Fits then .ofArgs target r.opcode r.args h else ⟨target, r.opcode, [], by decide⟩

theorem encode_eq (target : UInt32) {r : Request} (h : r.Fits) :
    r.encode target = (r.message target).bytes := by
  rw [encode, message, dif_pos h]
  exact finalize_args target r.opcode r.args h

theorem encode_header (target : UInt32) (r : Request) :
    ∃ opLen, opcodeField opLen = r.opcode ∧
      r.encode target = u32Bytes target ++ (u32Bytes opLen ++ r.args.flatMap Arg.bytes) :=
  ⟨_, opcodeField_header r.opcode _,
    (finalize_header target r.opcode r.args).trans (List.append_assoc _ _ _)⟩

@[simp] theorem objectId_encode (target : UInt32) (r : Request) :
    loadU32 (r.encode target) = target := by
  obtain ⟨opLen, -, hencode⟩ := encode_header target r
  rw [hencode, loadU32_u32Bytes_append]

@[simp] theorem opcode_encode (target : UInt32) (r : Request) :
    opcodeField (loadU32 ((r.encode target).drop 4)) = r.opcode := by
  obtain ⟨opLen, hop, hencode⟩ := encode_header target r
  rw [hencode, List.drop_left' (length_u32Bytes target), loadU32_u32Bytes_append, hop]

@[simp] theorem args_encode (target : UInt32) (r : Request) :
    (r.encode target).drop 8 = r.args.flatMap Arg.bytes := by
  obtain ⟨opLen, -, hencode⟩ := encode_header target r
  rw [hencode, ← List.append_assoc]
  exact List.drop_left' rfl

theorem objectId_message (target : UInt32) (r : Request) :
    (r.message target).objectId = target := by
  unfold message
  split_ifs <;> rfl

end Request

/-! ## Decoding -/

/-- The kinds of the arguments of a request, by interface and opcode. -/
def Interface.signature : Interface → ℕ → Option (List ArgKind)
  | .display, 0 => some [.u32]
  | .display, 1 => some [.u32]
  | .registry, 0 => some [.u32, .str, .u32, .u32]
  | .manager, 0 => some [.u32]
  | .manager, 1 => some [.u32, .u32]
  | .device, 0 => some [.u32]
  | .device, 2 => some [.u32]
  | .source, 0 => some [.str]
  | .offer, 0 => some [.str]
  | _, _ => none

def Interface.request : Interface → ℕ → List Arg → Option Request
  | .display, 0, [.u32 id] => some (.sync id)
  | .display, 1, [.u32 id] => some (.getRegistry id)
  | .registry, 0, [.u32 name, .str iface, .u32 version, .u32 id] =>
      some (.bind name iface version id)
  | .manager, 0, [.u32 id] => some (.createDataSource id)
  | .manager, 1, [.u32 id, .u32 seatId] => some (.getDataDevice id seatId)
  | .device, 0, [.u32 id] => some (.setSelection id)
  | .device, 2, [.u32 id] => some (.setPrimarySelection id)
  | .source, 0, [.str mime] => some (.offer mime)
  | .offer, 0, [.str mime] => some (.receive mime)
  | _, _, _ => none

/-- What the compositor reads in a message to an object of the interface. -/
def Interface.decode (i : Interface) (m : Message) : Option Request := do
  let kinds ← i.signature m.opcode.toNat
  let as ← m.reads kinds
  i.request m.opcode.toNat as

theorem signature_request (r : Request) :
    r.interface.signature r.opcode.toNat = some (r.args.map Arg.kind) := by
  cases r <;> rfl

theorem request_args (r : Request) : r.interface.request r.opcode.toNat r.args = some r := by
  cases r <;> rfl

/-- Of an object of the right interface, the compositor reads the request that was written. -/
theorem decode_message (target : UInt32) {r : Request} (h : r.Fits) :
    r.interface.decode (r.message target) = some r := by
  have hreads := reads_ofArgs target r.opcode r.args h
  rw [Request.message, dif_pos h, Interface.decode]
  change ((r.interface.signature r.opcode.toNat).bind fun kinds =>
    ((Message.ofArgs target r.opcode r.args h).reads kinds).bind fun as =>
      r.interface.request r.opcode.toNat as) = _
  rw [signature_request, Option.bind_some, hreads, Option.bind_some, request_args]

/-! ## The objects of a client -/

structure ObjectTable where
  interfaces : UInt32 → Option Interface
  next : UInt32

def interfaceNamed (name : Text) : Interface :=
  if name = kIfWlSeat then .seat else if name = kIfZwlrMgr then .manager else .other

namespace Request

/-- The object that a request introduces. -/
def creates : Request → Option (UInt32 × Interface)
  | .getRegistry registry => some (registry, .registry)
  | .sync callback => some (callback, .callback)
  | .bind _ interface _ id => some (id, interfaceNamed interface)
  | .createDataSource source => some (source, .source)
  | .getDataDevice device _ => some (device, .device)
  | _ => none

/-- The objects that a request names as arguments. -/
def refers : Request → List (UInt32 × Interface)
  | .getDataDevice _ seat => [(seat, .seat)]
  | .setSelection source => [(source, .source)]
  | .setPrimarySelection source => [(source, .source)]
  | _ => []

end Request

namespace ObjectTable

def initial : ObjectTable :=
  { interfaces := fun id => if id = kDisplayId then some .display else none, next := kClientIdMin }

def insert (t : ObjectTable) (id : UInt32) (i : Interface) : ObjectTable :=
  { interfaces := fun j => if j = id then some i else t.interfaces j, next := t.next + 1 }

/-- The table after a request, if it refers to objects of the right interfaces and introduces the
next id. -/
def step (t : ObjectTable) (r : Request) : Option ObjectTable :=
  if ∀ a ∈ r.refers, t.interfaces a.1 = some a.2 then
    match r.creates with
    | none => some t
    | some (id, i) => if id = t.next then some (t.insert id i) else none
  else none

def accept (t : ObjectTable) (m : Message) : Option (Request × ObjectTable) := do
  let i ← t.interfaces m.objectId
  let r ← i.decode m
  let t' ← t.step r
  return (r, t')

/-- The requests of a message stream with the objects they are made of, if all are accepted. -/
def session (t : ObjectTable) : List Message → Option (List (UInt32 × Request))
  | [] => some []
  | m :: ms => do
    let (r, t') ← t.accept m
    let rs ← t'.session ms
    return (m.objectId, r) :: rs

/-- What the compositor reads in the whole of what a client has sent, if it is valid and ends
with a complete message. -/
def decode (bytes : List UInt8) : Option (List (UInt32 × Request)) :=
  let (ms, rest) := Message.framing.split bytes
  if rest = [] then initial.session ms else none

theorem decode_stream (ms : List Message) :
    decode (Message.framing.stream ms) = initial.session ms := by
  have hsplit := Message.framing.split_stream ms (Message.framing.first_nil)
  rw [List.append_nil] at hsplit
  rw [decode, hsplit]
  rfl

theorem accept_message {t t' : ObjectTable} {target : UInt32} {r : Request} (hfits : r.Fits)
    (htarget : t.interfaces target = some r.interface) (hstep : t.step r = some t') :
    t.accept (r.message target) = some (r, t') := by
  rw [accept, Request.objectId_message, htarget]
  change (r.interface.decode (r.message target)).bind _ = _
  rw [decode_message target hfits]
  change (t.step r).bind _ = _
  rw [hstep]
  rfl

theorem session_cons {t t' : ObjectTable} {target : UInt32} {r : Request} {ms : List Message}
    (hfits : r.Fits) (htarget : t.interfaces target = some r.interface)
    (hstep : t.step r = some t') :
    t.session (r.message target :: ms) = (t'.session ms).map ((target, r) :: ·) := by
  rw [session, accept_message hfits htarget hstep, Request.objectId_message]
  change (t'.session ms).bind _ = _
  rcases t'.session ms with _ | rs <;> rfl

/-- A session stays accepted when it is cut. -/
theorem session_prefix {t : ObjectTable} {ms ns : List Message} {rs : List (UInt32 × Request)}
    (h : t.session (ms ++ ns) = some rs) : t.session ms = some (rs.take ms.length) := by
  induction ms generalizing t rs with
  | nil => rfl
  | cons m ms ih =>
      rw [List.cons_append, session] at h
      obtain ⟨⟨r, t'⟩, haccept, h⟩ := Option.bind_eq_some_iff.mp h
      obtain ⟨rs', hrs', h⟩ := Option.bind_eq_some_iff.mp h
      obtain rfl := Option.some.inj h
      rw [session, haccept]
      change (t'.session ms).bind _ = _
      rw [ih hrs']
      rfl

end ObjectTable

end WlClip
