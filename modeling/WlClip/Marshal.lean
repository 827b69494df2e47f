import WlClip.Wire

/-!
# Message arguments

What `Writer` appends for a list of arguments, and that `Reader` reads the same arguments back
from the payload. `Message.reads` reads a payload that holds arguments of given kinds and
nothing else.
-/

open LittleEndian

namespace WlClip

inductive ArgKind
  | u32
  | i32
  | str
  deriving DecidableEq

inductive Arg
  | u32 (v : UInt32)
  | i32 (v : Int32)
  | str (s : Text)
  deriving DecidableEq

namespace Arg

def kind : Arg → ArgKind
  | .u32 _ => .u32
  | .i32 _ => .i32
  | .str _ => .str

def write (w : Writer) : Arg → Writer
  | .u32 v => w.u32 v
  | .i32 v => w.i32 v
  | .str s => w.str s

def bytes : Arg → List UInt8
  | .u32 v => u32Bytes v
  | .i32 v => u32Bytes v.toUInt32
  | .str s => u32Bytes (UInt32.ofNat (s.length + 1)) ++
      (s ++ 0 :: List.replicate (pad4 (s.length + 1) - (s.length + 1)) 0)

end Arg

namespace Reader

def arg (r : Reader) : ArgKind → Arg × Reader
  | .u32 => (.u32 r.u32.1, r.u32.2)
  | .i32 => (.i32 r.i32.1, r.i32.2)
  | .str => (.str r.str.1, r.str.2)

def args (r : Reader) : List ArgKind → List Arg × Reader
  | [] => ([], r)
  | k :: ks => ((r.arg k).1 :: ((r.arg k).2.args ks).1, ((r.arg k).2.args ks).2)

end Reader

/-! ## Writing -/

theorem length_str_bytes (s : Text) : (Arg.str s).bytes.length = 4 + pad4 (s.length + 1) := by
  have hle := le_pad4 (s.length + 1)
  simp only [Arg.bytes, List.length_append, length_u32Bytes, List.length_cons,
    List.length_replicate]
  omega

theorem length_bytes_mod (a : Arg) : a.bytes.length % 4 = 0 := by
  cases a with
  | u32 v => rw [Arg.bytes, length_u32Bytes]
  | i32 v => rw [Arg.bytes, length_u32Bytes]
  | str s =>
      have hmod := pad4_mod (s.length + 1)
      rw [length_str_bytes]
      omega

theorem buf_write {w : Writer} (hw : w.buf.length % 4 = 0) (a : Arg) :
    (a.write w).buf = w.buf ++ a.bytes := by
  cases a with
  | u32 v => rfl
  | i32 v => rfl
  | str s =>
      have hpad : pad4 (w.buf.length + (4 + (s.length + 1))) - (w.buf.length + (4 + (s.length + 1))) =
          pad4 (s.length + 1) - (s.length + 1) := by
        unfold pad4
        omega
      simp only [Arg.write, Writer.str, Writer.u32, Arg.bytes, List.length_append,
        length_u32Bytes, List.length_singleton, List.append_assoc, hpad, List.cons_append,
        List.nil_append]

theorem buf_args {w : Writer} (hw : w.buf.length % 4 = 0) (as : List Arg) :
    (as.foldl Arg.write w).buf = w.buf ++ as.flatMap Arg.bytes := by
  induction as generalizing w with
  | nil => simp
  | cons a as ih =>
      have hbuf := buf_write hw a
      have hmod : (a.write w).buf.length % 4 = 0 := by
        have ha := length_bytes_mod a
        rw [hbuf, List.length_append]
        omega
      rw [List.foldl_cons, ih hmod, hbuf, List.flatMap_cons, List.append_assoc]

/-- Written arguments follow a header, however long they are. -/
theorem finalize_header (objectId : UInt32) (opcode : UInt16) (as : List Arg) :
    (as.foldl Arg.write (Writer.new objectId opcode)).finalize =
      u32Bytes objectId ++ u32Bytes (opcode.toUInt32 |||
        (UInt32.ofNat (8 + (as.flatMap Arg.bytes).length) <<< (16 : UInt32))) ++
        as.flatMap Arg.bytes := by
  have hbuf := buf_args (w := Writer.new objectId opcode) (by simp [Writer.new]) as
  have hop := opcode.toNat_lt
  have hsize : (u32Bytes objectId ++ u32Bytes opcode.toUInt32 ++ as.flatMap Arg.bytes).length =
      8 + (as.flatMap Arg.bytes).length := by
    simp only [List.length_append, length_u32Bytes]
  have hlow : loadU32 (u32Bytes opcode.toUInt32 ++ as.flatMap Arg.bytes) &&& (0xFFFF : UInt32) =
      opcode.toUInt32 := by
    rw [loadU32_u32Bytes_append, ← UInt32.toNat_inj, toNat_and_low, UInt16.toNat_toUInt32]
    omega
  have hdrop : (u32Bytes objectId ++ u32Bytes opcode.toUInt32 ++ as.flatMap Arg.bytes).drop 4 =
      u32Bytes opcode.toUInt32 ++ as.flatMap Arg.bytes := by
    rw [List.append_assoc]
    exact List.drop_left' (length_u32Bytes objectId)
  have htake : (u32Bytes objectId ++ u32Bytes opcode.toUInt32 ++ as.flatMap Arg.bytes).take 4 =
      u32Bytes objectId := by
    rw [List.append_assoc]
    exact List.take_left' (length_u32Bytes objectId)
  have hrest : (u32Bytes objectId ++ u32Bytes opcode.toUInt32 ++ as.flatMap Arg.bytes).drop 8 =
      as.flatMap Arg.bytes := List.drop_left' rfl
  rw [Writer.finalize, hbuf, Writer.new]
  simp only [hdrop, hlow, hsize, htake, hrest]

theorem opcodeField_header (opcode : UInt16) (n : ℕ) :
    opcodeField (opcode.toUInt32 ||| (UInt32.ofNat n <<< (16 : UInt32))) = opcode := by
  have hop := opcode.toNat_lt
  have hlow : opcode.toUInt32.toNat = opcode.toNat := UInt16.toNat_toUInt32 opcode
  rw [← UInt16.toNat_inj, toNat_opcodeField, toNat_opLen _ n (by omega)]
  omega

/-- A message of the given arguments, if they are short enough for the length field. -/
def Message.ofArgs (objectId : UInt32) (opcode : UInt16) (as : List Arg)
    (h : (as.flatMap Arg.bytes).length + 8 < 65536) : Message :=
  ⟨objectId, opcode, as.flatMap Arg.bytes, h⟩

/-- Writing arguments that fit the length field makes a message of them. -/
theorem finalize_args (objectId : UInt32) (opcode : UInt16) (as : List Arg)
    (h : (as.flatMap Arg.bytes).length + 8 < 65536) :
    (as.foldl Arg.write (Writer.new objectId opcode)).finalize =
      (Message.ofArgs objectId opcode as h).bytes := by
  have hsize : 8 + (as.flatMap Arg.bytes).length = (Message.ofArgs objectId opcode as h).size :=
    Nat.add_comm _ _
  rw [finalize_header, hsize]
  rfl

/-! ## Reading -/

theorem u32_of_drop {r : Reader} {v : UInt32} {rest : List UInt8}
    (h : r.data.drop r.cur = u32Bytes v ++ rest) :
    r.u32 = (v, { r with cur := r.cur + 4 }) := by
  have hlen := congrArg List.length h
  simp only [List.length_drop, List.length_append, length_u32Bytes] at hlen
  rw [Reader.u32, Reader.len, if_neg (by omega), h, loadU32_u32Bytes_append]

/-- A string whose length word can hold its length. -/
def Arg.Fits : Arg → Prop
  | .str s => s.length + 1 < 2 ^ 32
  | _ => True

theorem str_of_drop {r : Reader} {s : Text} {rest : List UInt8} (hs : s.length + 1 < 2 ^ 32)
    (h : r.data.drop r.cur = (Arg.str s).bytes ++ rest) :
    r.str = (s, { r with cur := r.cur + (Arg.str s).bytes.length }) := by
  have hlen := congrArg List.length h
  have hle := le_pad4 (s.length + 1)
  rw [List.length_drop, List.length_append, length_str_bytes] at hlen
  rw [Arg.bytes, List.append_assoc] at h
  have hword : (UInt32.ofNat (s.length + 1)).toNat = s.length + 1 := by
    rw [UInt32.toNat_ofNat']
    exact Nat.mod_eq_of_lt hs
  have htail : r.data.drop (r.cur + 4) =
      s ++ (0 :: List.replicate (pad4 (s.length + 1) - (s.length + 1)) 0 ++ rest) := by
    rw [← List.drop_drop, h, List.drop_left' (length_u32Bytes _), List.append_assoc]
  rw [Reader.str, u32_of_drop h]
  simp only [hword, Reader.len]
  rw [if_neg (by omega), htail, Nat.add_sub_cancel, List.take_left, length_str_bytes,
    Nat.add_assoc]

theorem arg_of_drop {r : Reader} {a : Arg} {rest : List UInt8} (ha : a.Fits)
    (h : r.data.drop r.cur = a.bytes ++ rest) :
    r.arg a.kind = (a, { r with cur := r.cur + a.bytes.length }) := by
  cases a with
  | u32 v => simp only [Arg.kind, Reader.arg, u32_of_drop h, Arg.bytes, length_u32Bytes]
  | i32 v =>
      simp only [Arg.kind, Reader.arg, Reader.i32, u32_of_drop h, Arg.bytes, length_u32Bytes,
        Int32.toInt32_toUInt32]
  | str s => simp only [Arg.kind, Reader.arg, str_of_drop ha h]

theorem args_of_drop {r : Reader} {as : List Arg} {rest : List UInt8} (has : ∀ a ∈ as, a.Fits)
    (h : r.data.drop r.cur = as.flatMap Arg.bytes ++ rest) :
    r.args (as.map Arg.kind) = (as, { r with cur := r.cur + (as.flatMap Arg.bytes).length }) := by
  induction as generalizing r with
  | nil => rfl
  | cons a as ih =>
      rw [List.flatMap_cons, List.append_assoc] at h
      have hfirst := arg_of_drop (has a List.mem_cons_self) h
      have hrest := ih (r := { r with cur := r.cur + a.bytes.length })
        (fun b hb => has b (List.mem_cons_of_mem a hb))
        (by rw [← List.drop_drop, h, List.drop_left])
      simp only [List.map_cons, Reader.args, hfirst, hrest, List.flatMap_cons,
        List.length_append, Nat.add_assoc]

theorem fits_of_length {as : List Arg} (h : (as.flatMap Arg.bytes).length + 8 < 65536) :
    ∀ a ∈ as, a.Fits := by
  intro a ha
  have hle : a.bytes.length ≤ (as.flatMap Arg.bytes).length := by
    exact (List.sublist_flatten_of_mem (List.mem_map_of_mem ha)).length_le
  cases a with
  | str s =>
      rw [length_str_bytes] at hle
      have hpad := le_pad4 (s.length + 1)
      change s.length + 1 < 2 ^ 32
      omega
  | _ => trivial

/-- A read of a string gives nothing and takes its length word at most, or the length word counts
bytes that are in the payload with their padding. -/
theorem Reader.str_cases (r : Reader) :
    r.str = ([], r.u32.2) ∨ ∃ n, 0 < n ∧ r.cur + 4 + pad4 n ≤ r.len ∧
      r.str = ((r.data.drop (r.cur + 4)).take (n - 1), { r with cur := r.cur + 4 + pad4 n }) := by
  by_cases hshort : r.cur + 4 > r.len
  · have hword : r.u32 = (0, r) := if_pos hshort
    left
    simp [Reader.str, hword]
  · have hword : r.u32 = (loadU32 (r.data.drop r.cur), { r with cur := r.cur + 4 }) :=
      if_neg hshort
    simp only [Reader.str, hword]
    by_cases hbad : (loadU32 (r.data.drop r.cur)).toNat = 0 ∨
        r.cur + 4 + pad4 (loadU32 (r.data.drop r.cur)).toNat > r.len
    · left
      exact if_pos hbad
    · right
      obtain ⟨hpos, hroom⟩ := not_or.mp hbad
      exact ⟨_, Nat.pos_of_ne_zero hpos, Nat.le_of_not_lt hroom, if_neg hbad⟩

/-- The arguments of a payload that holds arguments of these kinds and nothing else. -/
def Message.reads (m : Message) (kinds : List ArgKind) : Option (List Arg) :=
  let as := ((Reader.new m.objectId m.opcode m.payload).args kinds).1
  if as.flatMap Arg.bytes = m.payload then some as else none

theorem reads_ofArgs (objectId : UInt32) (opcode : UInt16) (as : List Arg)
    (h : (as.flatMap Arg.bytes).length + 8 < 65536) :
    (Message.ofArgs objectId opcode as h).reads (as.map Arg.kind) = some as := by
  have hdrop : (as.flatMap Arg.bytes).drop 0 = as.flatMap Arg.bytes ++ [] := by simp
  have hargs := args_of_drop (r := Reader.new objectId opcode (as.flatMap Arg.bytes))
    (fits_of_length h) hdrop
  simp only [Message.reads, Message.ofArgs, hargs, if_true]

/-! ## Writing and then reading -/

theorem length_finalize (w : Writer) (h : 8 ≤ w.buf.length) :
    w.finalize.length = w.buf.length := by
  simp only [Writer.finalize, List.length_append, List.length_take, length_u32Bytes,
    List.length_drop]
  omega

theorem length_finalize_args (objectId : UInt32) (opcode : UInt16) (as : List Arg) :
    (as.foldl Arg.write (Writer.new objectId opcode)).finalize.length =
      8 + (as.flatMap Arg.bytes).length := by
  have hbuf := buf_args (w := Writer.new objectId opcode) (by simp [Writer.new]) as
  have hlen : (as.foldl Arg.write (Writer.new objectId opcode)).buf.length =
      8 + (as.flatMap Arg.bytes).length := by
    rw [hbuf, List.length_append]
    rfl
  rw [length_finalize _ (by omega), hlen]

theorem length_flatMap_bytes_mod (as : List Arg) : (as.flatMap Arg.bytes).length % 4 = 0 := by
  induction as with
  | nil => rfl
  | cons a as ih =>
      have ha := length_bytes_mod a
      rw [List.flatMap_cons, List.length_append]
      omega

/-- Writing arguments and reading arguments of their kinds gives the same arguments, and the
header that was written is the one that is peeked, whatever follows the message. -/
theorem written_args_read_back (objectId : UInt32) (opcode : UInt16) (as : List Arg)
    (h : (as.foldl Arg.write (Writer.new objectId opcode)).finalize.length < 65536) :
    let bytes := (as.foldl Arg.write (Writer.new objectId opcode)).finalize
    let read := (Reader.new objectId opcode (bytes.drop 8)).args (as.map Arg.kind)
    bytes.length % 4 = 0 ∧ (∀ rest, peekMessageSize (bytes ++ rest) = bytes.length) ∧
      loadU32 bytes = objectId ∧ opcodeField (loadU32 (bytes.drop 4)) = opcode ∧
      read.1 = as ∧ read.2.eof = true := by
  have hlen := length_finalize_args objectId opcode as
  have hfits : (as.flatMap Arg.bytes).length + 8 < 65536 := by omega
  have hmod := length_flatMap_bytes_mod as
  have hfinal := finalize_args objectId opcode as hfits
  let m := Message.ofArgs objectId opcode as hfits
  have hdrop : m.bytes.drop 8 = as.flatMap Arg.bytes := List.drop_left' rfl
  have hall : (as.flatMap Arg.bytes).drop 0 = as.flatMap Arg.bytes ++ [] := by simp
  have hargs := args_of_drop (r := Reader.new objectId opcode (as.flatMap Arg.bytes))
    (fits_of_length hfits) hall
  have hobject : loadU32 m.bytes = objectId := by
    have hload := m.loadU32_bytes []
    rwa [List.append_nil] at hload
  have hword : loadU32 (m.bytes.drop 4) = m.opLen := by simpa using m.loadU32_drop_bytes []
  intro bytes read
  have hbytes : bytes = m.bytes := hfinal
  have hsize : bytes.length = 8 + (as.flatMap Arg.bytes).length := hlen
  have hread : read = (as, { Reader.new objectId opcode (as.flatMap Arg.bytes) with
      cur := 0 + (as.flatMap Arg.bytes).length }) := by
    change (Reader.new objectId opcode (bytes.drop 8)).args (as.map Arg.kind) = _
    rw [hbytes, hdrop, hargs]
    rfl
  refine ⟨by omega, ?_, ?_, ?_, ?_, ?_⟩
  · intro rest
    rw [hbytes, m.peek_bytes, m.length_bytes]
  · rw [hbytes, hobject]
  · rw [hbytes, hword, m.opcodeField_opLen]
    rfl
  · rw [hread]
  · rw [hread]
    simp [Reader.eof, Reader.len, Reader.new]

theorem written_args_read_back_sample :
    let as : List Arg := [.u32 7, .i32 (-1), .str (text "a")]
    let bytes := (as.foldl Arg.write (Writer.new 3 1)).finalize
    let read := (Reader.new 3 1 (bytes.drop 8)).args (as.map Arg.kind)
    bytes.length < 65536 ∧ bytes.length % 4 = 0 ∧
      (∀ rest, peekMessageSize (bytes ++ rest) = bytes.length) ∧ loadU32 bytes = 3 ∧
      opcodeField (loadU32 (bytes.drop 4)) = 1 ∧ read.1 = as ∧ read.2.eof = true :=
  ⟨by decide +kernel,
    written_args_read_back 3 1 [.u32 7, .i32 (-1), .str (text "a")] (by decide +kernel)⟩

end WlClip
