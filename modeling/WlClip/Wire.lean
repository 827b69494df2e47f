import WlClip.Framing
import WlClip.LittleEndian

/-!
# The Wayland wire format

`Writer`, `Reader` and `peekMessageSize` as in `wire.cpp`, over byte lists. A `std::string` is a
list of bytes. `Message` is what travels: a header whose length field is the real size, and a
payload; `Message.framing` reads a message stream with `peekMessageSize`.
-/

open LittleEndian

namespace WlClip

/-- A `std::string`: bytes of any value. -/
abbrev Text := List UInt8

instance : LawfulBEq Text := inferInstance

def text (s : String) : Text := s.toList.map fun c => c.toNat.toUInt8

def kDisplayId : UInt32 := 1
def kClientIdMin : UInt32 := 2

def pad4 (n : ℕ) : ℕ := (n + 3) / 4 * 4

theorem le_pad4 (n : ℕ) : n ≤ pad4 n := by
  unfold pad4
  omega

theorem pad4_mod (n : ℕ) : pad4 n % 4 = 0 := by
  unfold pad4
  omega

/-! ## Encoding -/

structure Writer where
  buf : List UInt8
  deriving DecidableEq

namespace Writer

def new (objectId : UInt32) (opcode : UInt16) : Writer :=
  ⟨u32Bytes objectId ++ u32Bytes opcode.toUInt32⟩

def u32 (w : Writer) (v : UInt32) : Writer := ⟨w.buf ++ u32Bytes v⟩

def i32 (w : Writer) (v : Int32) : Writer := w.u32 v.toUInt32

/-- The bytes, a NUL, and zeros while the size of the buffer is no multiple of four. -/
def str (w : Writer) (s : Text) : Writer :=
  let buf := (w.u32 (UInt32.ofNat (s.length + 1))).buf ++ s ++ [0]
  ⟨buf ++ List.replicate (pad4 buf.length - buf.length) 0⟩

def finalize (w : Writer) : List UInt8 :=
  let total := UInt32.ofNat w.buf.length
  let opLen := loadU32 (w.buf.drop 4)
  let opLen := (opLen &&& (0xFFFF : UInt32)) ||| (total <<< (16 : UInt32))
  w.buf.take 4 ++ u32Bytes opLen ++ w.buf.drop 8

end Writer

/-! ## Decoding -/

structure Reader where
  objectId : UInt32
  opcode : UInt16
  data : List UInt8
  cur : ℕ
  deriving DecidableEq

namespace Reader

def new (objectId : UInt32) (opcode : UInt16) (payload : List UInt8) : Reader :=
  ⟨objectId, opcode, payload, 0⟩

def len (r : Reader) : ℕ := r.data.length

/-- An underrun is logged and reads as zero. -/
def u32 (r : Reader) : UInt32 × Reader :=
  if r.cur + 4 > r.len then (0, r)
  else (loadU32 (r.data.drop r.cur), { r with cur := r.cur + 4 })

def i32 (r : Reader) : Int32 × Reader := (r.u32.1.toInt32, r.u32.2)

/-- A bad length is logged and reads as the empty string; the length word stays consumed. -/
def str (r : Reader) : Text × Reader :=
  let len := r.u32.1.toNat
  let r := r.u32.2
  if len = 0 ∨ r.cur + pad4 len > r.len then ([], r)
  else ((r.data.drop r.cur).take (len - 1), { r with cur := r.cur + pad4 len })

def eof (r : Reader) : Bool := r.cur ≥ r.len

end Reader

/-- The length field of an `opcode_and_length` word. -/
def lengthField (opLen : UInt32) : ℕ := ((opLen >>> (16 : UInt32)) &&& (0xFFFF : UInt32)).toNat

def peekMessageSize (buf : List UInt8) : ℕ :=
  if buf.length < 8 then 0
  else
    let total := lengthField (loadU32 (buf.drop 4))
    if total < 8 then 0
    else if buf.length < total then 0
    else total

def opcodeField (opLen : UInt32) : UInt16 := (opLen &&& (0xFFFF : UInt32)).toUInt16

/-! ## The `opcode_and_length` word -/

theorem toNat_and_low (x : UInt32) : (x &&& (0xFFFF : UInt32)).toNat = x.toNat % 65536 := by
  rw [UInt32.toNat_and]
  exact Nat.and_two_pow_sub_one_eq_mod x.toNat 16

theorem toNat_opLen (low : UInt32) (n : ℕ) (hlow : low.toNat < 65536) :
    (low ||| (UInt32.ofNat n <<< (16 : UInt32))).toNat = n % 65536 * 65536 + low.toNat := by
  have hshift : (UInt32.ofNat n <<< (16 : UInt32)).toNat = (n % 65536) <<< 16 := by
    rw [UInt32.toNat_shiftLeft, UInt32.toNat_ofNat']
    change (n % 2 ^ 32) <<< 16 % 2 ^ 32 = _
    simp only [Nat.shiftLeft_eq]
    omega
  rw [UInt32.toNat_or, hshift, Nat.or_comm, ← Nat.shiftLeft_add_eq_or_of_lt hlow,
    Nat.shiftLeft_eq]

theorem lengthField_eq (x : UInt32) : lengthField x = x.toNat / 65536 := by
  have hx := x.toNat_lt
  rw [lengthField, toNat_and_low, UInt32.toNat_shiftRight]
  change x.toNat >>> 16 % 65536 = _
  rw [Nat.shiftRight_eq_div_pow]
  omega

theorem toNat_opcodeField (x : UInt32) : (opcodeField x).toNat = x.toNat % 65536 := by
  rw [opcodeField, UInt32.toNat_toUInt16, toNat_and_low]
  omega

/-! ## Messages -/

/-- A message whose size fits the length field. -/
structure Message where
  objectId : UInt32
  opcode : UInt16
  payload : List UInt8
  fits : payload.length + 8 < 65536
  deriving DecidableEq

namespace Message

theorem fits_nil : ([] : List UInt8).length + 8 < 65536 := by decide

def size (m : Message) : ℕ := m.payload.length + 8

def opLen (m : Message) : UInt32 := m.opcode.toUInt32 ||| (UInt32.ofNat m.size <<< (16 : UInt32))

def bytes (m : Message) : List UInt8 := u32Bytes m.objectId ++ u32Bytes m.opLen ++ m.payload

theorem length_bytes (m : Message) : m.bytes.length = m.size := by
  simp [bytes, size]
  omega

theorem toNat_opLen (m : Message) : m.opLen.toNat = m.size * 65536 + m.opcode.toNat := by
  have hsize : m.size < 65536 := m.fits
  rw [opLen, WlClip.toNat_opLen _ _ (by simpa using m.opcode.toNat_lt), Nat.mod_eq_of_lt hsize,
    UInt16.toNat_toUInt32]

@[simp] theorem lengthField_opLen (m : Message) : lengthField m.opLen = m.size := by
  have hop := m.opcode.toNat_lt
  rw [lengthField_eq, m.toNat_opLen]
  omega

@[simp] theorem opcodeField_opLen (m : Message) : opcodeField m.opLen = m.opcode := by
  have hop := m.opcode.toNat_lt
  rw [← UInt16.toNat_inj, toNat_opcodeField, m.toNat_opLen]
  omega

@[simp] theorem loadU32_bytes (m : Message) (rest : List UInt8) :
    loadU32 (m.bytes ++ rest) = m.objectId := by
  simp only [bytes, List.append_assoc, loadU32_u32Bytes_append]

@[simp] theorem loadU32_drop_bytes (m : Message) (rest : List UInt8) :
    loadU32 ((m.bytes ++ rest).drop 4) = m.opLen := by
  rw [bytes, List.append_assoc, List.append_assoc, ← length_u32Bytes m.objectId, List.drop_left]
  exact loadU32_u32Bytes_append _ _

theorem peek_bytes (m : Message) (rest : List UInt8) :
    peekMessageSize (m.bytes ++ rest) = m.size := by
  have hsize : 8 ≤ m.size := Nat.le_add_left 8 _
  have hlen : (m.bytes ++ rest).length = m.size + rest.length := by
    rw [List.length_append, m.length_bytes]
  simp only [peekMessageSize, hlen, m.loadU32_drop_bytes, m.lengthField_opLen]
  rw [if_neg (by omega), if_neg (by omega), if_neg (by omega)]

@[simp] theorem payload_bytes (m : Message) (rest : List UInt8) :
    ((m.bytes ++ rest).take m.size).drop 8 = m.payload := by
  rw [← m.length_bytes, List.take_left]
  rfl

end Message

theorem peek_ne_zero {buf : List UInt8} (h : peekMessageSize buf ≠ 0) :
    peekMessageSize buf = lengthField (loadU32 (buf.drop 4)) ∧ 8 ≤ peekMessageSize buf ∧
      peekMessageSize buf ≤ buf.length := by
  unfold peekMessageSize at h ⊢
  dsimp only at h ⊢
  split_ifs at h ⊢ <;> first | contradiction | omega

/-- The message at the head of a buffer that holds one completely. -/
def headMessage (buf : List UInt8) : Option Message :=
  if h : peekMessageSize buf ≠ 0 then
    some {
      objectId := loadU32 buf
      opcode := opcodeField (loadU32 (buf.drop 4))
      payload := (buf.take (peekMessageSize buf)).drop 8
      fits := by
        obtain ⟨heq, hlow, hlen⟩ := peek_ne_zero h
        have hlt := (loadU32 (buf.drop 4)).toNat_lt
        rw [lengthField_eq] at heq
        rw [List.length_drop, List.length_take]
        omega }
  else none

theorem headMessage_eq_none {buf : List UInt8} :
    headMessage buf = none ↔ peekMessageSize buf = 0 := by
  by_cases h : peekMessageSize buf = 0 <;> simp [headMessage, h]

theorem headMessage_bytes (m : Message) (rest : List UInt8) :
    headMessage (m.bytes ++ rest) = some m := by
  have hpeek := m.peek_bytes rest
  have hne : peekMessageSize (m.bytes ++ rest) ≠ 0 := by
    rw [hpeek]
    exact Nat.succ_ne_zero _
  rw [headMessage, dif_pos hne]
  simp only [hpeek, m.loadU32_bytes, m.loadU32_drop_bytes, m.opcodeField_opLen, m.payload_bytes]

/-- The head message is written in the buffer byte for byte, and is as long as was peeked. -/
theorem headMessage_bytes_eq {buf : List UInt8} {m : Message} (h : headMessage buf = some m) :
    m.bytes = buf.take (peekMessageSize buf) := by
  by_cases hp : peekMessageSize buf = 0
  · rw [headMessage_eq_none.mpr hp] at h
    cases h
  · rw [headMessage, dif_pos hp] at h
    obtain ⟨heq, hlow, hlen⟩ := peek_ne_zero hp
    have hm := Option.some.inj h
    have hobject : m.objectId = loadU32 buf := by rw [← hm]
    have hopcode : m.opcode = opcodeField (loadU32 (buf.drop 4)) := by rw [← hm]
    have hpayload : m.payload = (buf.take (peekMessageSize buf)).drop 8 := by rw [← hm]
    have hsize : m.size = peekMessageSize buf := by
      rw [Message.size, hpayload, List.length_drop, List.length_take]
      omega
    have hop : m.opLen = loadU32 (buf.drop 4) := by
      rw [← UInt32.toNat_inj, m.toNat_opLen, hsize, heq, lengthField_eq, hopcode,
        toNat_opcodeField]
      omega
    have hhead : buf.take 4 ++ (buf.drop 4).take 4 = (buf.take (peekMessageSize buf)).take 8 := by
      rw [List.take_take, Nat.min_eq_left hlow, ← List.take_add]
    rw [Message.bytes, hop, hobject, hpayload, u32Bytes_loadU32 (by omega),
      u32Bytes_loadU32 (by rw [List.length_drop]; omega), hhead, List.take_append_drop]

namespace Message

/-- A message stream, read with `peekMessageSize`. -/
def framing : Framing Message UInt8 where
  bytes := bytes
  first := headMessage
  bytes_ne_nil m h := by
    have := m.length_bytes
    rw [h] at this
    exact absurd this (Nat.succ_ne_zero _).symm
  first_bytes := headMessage_bytes
  first_prefix l m h := by
    rw [headMessage_bytes_eq h]
    exact List.take_prefix _ _

end Message

end WlClip
