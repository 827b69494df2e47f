import WlClip.Marshal

/-!
# The reader in machine arithmetic

`Reader` of `wire.cpp` with a cursor and a length that are 64-bit words, over a pointer into a
memory that goes on behind the payload. On every payload that fits into a memory it reads what
`Reader` reads from a list of bytes, and accesses nothing but that payload.
-/

open LittleEndian

namespace WlClip

/-- The bytes of an object. No object is larger than `PTRDIFF_MAX`. -/
structure Payload where
  bytes : List UInt8
  fits : bytes.length < 2 ^ 63

namespace Machine

def pad4 (n : UInt64) : UInt64 := (n + 3) &&& ~~~(3 : UInt64)

/-- The memory is given by the offsets from `data_`, and those that were accessed are kept. -/
structure Reader where
  objectId : UInt32
  opcode : UInt16
  data : UInt64 → UInt8
  cur : UInt64
  len : UInt64
  accessed : List UInt64

namespace Reader

/-- A reader that has come to some byte of the payload, or to its end. -/
def new (objectId : UInt32) (opcode : UInt16) (p : Payload) (beyond : UInt64 → UInt8)
    (start : Fin (p.bytes.length + 1)) : Reader where
  objectId := objectId
  opcode := opcode
  data i := p.bytes.getD i.toNat (beyond i)
  cur := UInt64.ofNat start
  len := UInt64.ofNat p.bytes.length
  accessed := []

def offsets (r : Reader) (n : ℕ) : List UInt64 :=
  (List.range n).map fun i => r.cur + UInt64.ofNat i

def copy (r : Reader) (n : ℕ) : List UInt8 × Reader :=
  ((r.offsets n).map r.data, { r with accessed := r.accessed ++ r.offsets n })

def u32 (r : Reader) : UInt32 × Reader :=
  if r.cur + 4 > r.len then (0, r)
  else (loadU32 (r.copy 4).1, { (r.copy 4).2 with cur := r.cur + 4 })

def i32 (r : Reader) : Int32 × Reader := (r.u32.1.toInt32, r.u32.2)

def str (r : Reader) : Text × Reader :=
  let len := r.u32.1
  let r := r.u32.2
  if len = 0 ∨ r.cur + pad4 len.toUInt64 > r.len then ([], r)
  else ((r.copy (len - 1).toNat).1,
    { (r.copy (len - 1).toNat).2 with cur := r.cur + pad4 len.toUInt64 })

def arg (r : Reader) : ArgKind → Arg × Reader
  | .u32 => (.u32 r.u32.1, r.u32.2)
  | .i32 => (.i32 r.i32.1, r.i32.2)
  | .str => (.str r.str.1, r.str.2)

def args (r : Reader) : List ArgKind → List Arg × Reader
  | [] => ([], r)
  | k :: ks => ((r.arg k).1 :: ((r.arg k).2.args ks).1, ((r.arg k).2.args ks).2)

end Reader

/-! ## Arithmetic -/

theorem toNat_add_of_lt {a b : UInt64} (h : a.toNat + b.toNat < 2 ^ 64) :
    (a + b).toNat = a.toNat + b.toNat := by
  rw [UInt64.toNat_add]
  exact Nat.mod_eq_of_lt h

/-- Rounding up by masking, where nothing is carried out of the word. -/
theorem toNat_pad4 {n : UInt64} (h : n.toNat + 3 < 2 ^ 64) :
    (pad4 n).toNat = WlClip.pad4 n.toNat := by
  have hsum : (n + 3).toNat = n.toNat + 3 := toNat_add_of_lt h
  have hmask : (~~~(3 : UInt64)).toNat = (2 ^ 62 - 1) <<< 2 := by decide
  have hround : WlClip.pad4 n.toNat = ((n.toNat + 3) >>> 2) <<< 2 := by
    rw [Nat.shiftLeft_eq, Nat.shiftRight_eq_div_pow]
    rfl
  rw [pad4, UInt64.toNat_and, hsum, hmask, hround]
  apply Nat.eq_of_testBit_eq
  intro i
  rw [Nat.testBit_and, Nat.testBit_shiftLeft, Nat.testBit_shiftLeft, Nat.testBit_two_pow_sub_one,
    Nat.testBit_shiftRight]
  by_cases hi : 2 ≤ i
  · have heq : 2 + (i - 2) = i := by omega
    by_cases hlt : i - 2 < 62
    · simp [hi, hlt, heq]
    · have hhigh : (n.toNat + 3).testBit i = false := by
        apply Nat.testBit_lt_two_pow
        exact Nat.lt_of_lt_of_le h (Nat.pow_le_pow_right (by omega) (by omega))
      simp [hi, heq, hhigh]
  · simp [hi]

/-- A length word is rounded up without a carry. -/
theorem toNat_pad4_word (n : UInt32) : (pad4 n.toUInt64).toNat = WlClip.pad4 n.toNat := by
  have hn := n.toNat_lt
  have hword : n.toUInt64.toNat = n.toNat := UInt32.toNat_toUInt64 n
  rw [toNat_pad4 (by omega), hword]

theorem pad4_word_le (n : UInt32) : WlClip.pad4 n.toNat ≤ 2 ^ 32 := by
  have hn := n.toNat_lt
  unfold WlClip.pad4
  omega

/-! ## The list reader -/

/-- The machine reader over the payload is where the list reader is, and has accessed the payload
only. -/
structure Tracks (p : Payload) (r : Reader) (a : WlClip.Reader) : Prop where
  payload : a.data = p.bytes
  holds : ∀ i, (h : i < p.bytes.length) → r.data (UInt64.ofNat i) = p.bytes[i]
  len : r.len.toNat = p.bytes.length
  cur : r.cur.toNat = a.cur
  inside : a.cur ≤ p.bytes.length
  accessed : ∀ i ∈ r.accessed, i < r.len

section

variable {p : Payload} {r : Reader} {a : WlClip.Reader}

theorem tracks_new (objectId : UInt32) (opcode : UInt16) (beyond : UInt64 → UInt8)
    (start : Fin (p.bytes.length + 1)) :
    Tracks p (.new objectId opcode p beyond start) ⟨objectId, opcode, p.bytes, start⟩ := by
  have hfits := p.fits
  have hstart := start.isLt
  refine ⟨rfl, fun i hi => ?_, ?_, ?_, Nat.le_of_lt_succ hstart, List.forall_mem_nil _⟩
  · have hlt : (UInt64.ofNat i).toNat = i := by
      rw [UInt64.toNat_ofNat']
      omega
    simp only [Reader.new, hlt]
    exact (List.getElem_eq_getD _).symm
  · change (UInt64.ofNat p.bytes.length).toNat = p.bytes.length
    rw [UInt64.toNat_ofNat']
    omega
  · change (UInt64.ofNat start).toNat = start
    rw [UInt64.toNat_ofNat']
    omega

theorem Tracks.offset (h : Tracks p r a) {n i : ℕ} (hn : a.cur + n ≤ p.bytes.length) (hi : i < n) :
    r.cur + UInt64.ofNat i = UInt64.ofNat (a.cur + i) ∧
      (r.cur + UInt64.ofNat i).toNat = a.cur + i := by
  have hfits := p.fits
  have hsmall : (UInt64.ofNat i).toNat = i := by
    rw [UInt64.toNat_ofNat']
    omega
  have hcur := h.cur
  have hsum : (r.cur + UInt64.ofNat i).toNat = a.cur + i := by
    rw [toNat_add_of_lt (by omega)]
    omega
  refine ⟨?_, hsum⟩
  rw [← UInt64.toNat_inj, hsum, UInt64.toNat_ofNat']
  omega

theorem Tracks.copy (h : Tracks p r a) {n : ℕ} (hn : a.cur + n ≤ p.bytes.length) :
    (r.copy n).1 = (a.data.drop a.cur).take n ∧ Tracks p (r.copy n).2 a := by
  constructor
  · apply List.ext_getElem
    · simp only [Reader.copy, Reader.offsets, List.length_map, List.length_range, h.payload,
        List.length_take, List.length_drop]
      omega
    · intro i hi hi'
      have hlt : i < n := by simpa [Reader.copy, Reader.offsets] using hi
      simp only [Reader.copy, Reader.offsets, List.getElem_map, List.getElem_range,
        (h.offset hn hlt).1, h.payload, List.getElem_take, List.getElem_drop]
      exact h.holds _ (by omega)
  · refine ⟨h.payload, h.holds, h.len, h.cur, h.inside, fun i hi => ?_⟩
    rcases List.mem_append.mp hi with hi | hi
    · exact h.accessed i hi
    · obtain ⟨k, hk, rfl⟩ := List.mem_map.mp hi
      have hlt : k < n := List.mem_range.mp hk
      have hat := (h.offset hn hlt).2
      have hlen := h.len
      change r.cur + UInt64.ofNat k < r.len
      rw [UInt64.lt_iff_toNat_lt]
      omega

theorem Tracks.moved (h : Tracks p r a) {cur : UInt64} {n : ℕ} (hcur : cur.toNat = a.cur + n)
    (hn : a.cur + n ≤ p.bytes.length) :
    Tracks p { r with cur := cur } { a with cur := a.cur + n } :=
  ⟨h.payload, h.holds, h.len, hcur, hn, h.accessed⟩

theorem Tracks.u32 (h : Tracks p r a) : r.u32.1 = a.u32.1 ∧ Tracks p r.u32.2 a.u32.2 := by
  have hfits := p.fits
  have hcur := h.cur
  have hinside := h.inside
  have hsum : (r.cur + 4).toNat = a.cur + 4 := by
    have hfour : (4 : UInt64).toNat = 4 := rfl
    rw [toNat_add_of_lt (by omega)]
    omega
  have hlen := h.len
  have hlength : a.len = p.bytes.length := congrArg List.length h.payload
  have hiff : r.cur + 4 > r.len ↔ a.cur + 4 > a.len := by
    rw [gt_iff_lt, UInt64.lt_iff_toNat_lt]
    omega
  unfold Reader.u32 WlClip.Reader.u32
  by_cases hshort : a.cur + 4 > a.len
  · rw [if_pos hshort, if_pos (hiff.mpr hshort)]
    exact ⟨rfl, h⟩
  · rw [if_neg hshort, if_neg fun hover => hshort (hiff.mp hover)]
    obtain ⟨hbytes, hcopied⟩ := h.copy (n := 4) (by omega)
    refine ⟨?_, hcopied.moved hsum (by omega)⟩
    have hfour : 4 ≤ ((a.data.drop a.cur).take 4).length := by
      rw [List.length_take, List.length_drop, h.payload]
      omega
    calc loadU32 (r.copy 4).1
        = loadU32 ((a.data.drop a.cur).take 4) := by rw [hbytes]
      _ = loadU32 ((a.data.drop a.cur).take 4 ++ (a.data.drop a.cur).drop 4) :=
          (loadU32_append hfour _).symm
      _ = loadU32 (a.data.drop a.cur) := by rw [List.take_append_drop]

theorem Tracks.str (h : Tracks p r a) : r.str.1 = a.str.1 ∧ Tracks p r.str.2 a.str.2 := by
  obtain ⟨hword, hafter⟩ := h.u32
  have hfits := p.fits
  have hcur := hafter.cur
  have hinside := hafter.inside
  have hpad := toNat_pad4_word a.u32.1
  have hbound := pad4_word_le a.u32.1
  have hsum : (r.u32.2.cur + pad4 a.u32.1.toUInt64).toNat =
      a.u32.2.cur + WlClip.pad4 a.u32.1.toNat := by
    rw [toNat_add_of_lt (by omega)]
    omega
  have hlen := hafter.len
  have hlength : a.u32.2.len = p.bytes.length := congrArg List.length hafter.payload
  have hzero : a.u32.1 = 0 ↔ a.u32.1.toNat = 0 := UInt32.toNat_inj.symm
  have hiff : a.u32.1 = 0 ∨ r.u32.2.cur + pad4 a.u32.1.toUInt64 > r.u32.2.len ↔
      a.u32.1.toNat = 0 ∨ a.u32.2.cur + WlClip.pad4 a.u32.1.toNat > a.u32.2.len := by
    rw [hzero, gt_iff_lt, UInt64.lt_iff_toNat_lt, hsum, hlen, hlength]
  simp only [Reader.str, WlClip.Reader.str, hword]
  by_cases hbad : a.u32.1.toNat = 0 ∨ a.u32.2.cur + WlClip.pad4 a.u32.1.toNat > a.u32.2.len
  · rw [if_pos hbad, if_pos (hiff.mpr hbad)]
    exact ⟨rfl, hafter⟩
  · rw [if_neg hbad, if_neg fun hover => hbad (hiff.mp hover)]
    obtain ⟨hpos, hroom⟩ := not_or.mp hbad
    have hle := le_pad4 a.u32.1.toNat
    have hone : (a.u32.1 - 1).toNat = a.u32.1.toNat - 1 := by
      apply UInt32.toNat_sub_of_le
      rw [UInt32.le_iff_toNat_le]
      exact Nat.pos_of_ne_zero hpos
    obtain ⟨hbytes, hcopied⟩ := hafter.copy (n := (a.u32.1 - 1).toNat) (by omega)
    refine ⟨?_, hcopied.moved hsum (by omega)⟩
    rw [hbytes, hone]

theorem Tracks.arg (h : Tracks p r a) (k : ArgKind) :
    (r.arg k).1 = (a.arg k).1 ∧ Tracks p (r.arg k).2 (a.arg k).2 := by
  cases k with
  | u32 => exact ⟨congrArg Arg.u32 h.u32.1, h.u32.2⟩
  | i32 => exact ⟨congrArg (fun v : UInt32 => Arg.i32 v.toInt32) h.u32.1, h.u32.2⟩
  | str => exact ⟨congrArg Arg.str h.str.1, h.str.2⟩

/-- The machine reader reads what the list reader reads. -/
theorem Tracks.args (h : Tracks p r a) (ks : List ArgKind) :
    (r.args ks).1 = (a.args ks).1 ∧ Tracks p (r.args ks).2 (a.args ks).2 := by
  induction ks generalizing r a with
  | nil => exact ⟨rfl, h⟩
  | cons k ks ih =>
      obtain ⟨hvalue, hnext⟩ := h.arg k
      obtain ⟨hvalues, hend⟩ := ih hnext
      exact ⟨congrArg₂ List.cons hvalue hvalues, hend⟩

end

end Machine

/-! ## Staying inside -/

namespace Reader

theorem u32_moves (a : Reader) : a.u32.2.cur = a.cur ∨ a.u32.2.cur = a.cur + 4 := by
  unfold u32
  split_ifs
  · exact .inl rfl
  · exact .inr rfl

theorem arg_moves (a : Reader) (k : ArgKind) : ∃ n, (a.arg k).2.cur = a.cur + 4 * n := by
  have hword : ∃ n, a.u32.2.cur = a.cur + 4 * n := by
    rcases a.u32_moves with h | h
    · exact ⟨0, h⟩
    · exact ⟨1, h⟩
  cases k with
  | u32 => exact hword
  | i32 => exact hword
  | str =>
      rcases a.str_cases with h | ⟨n, -, -, h⟩
      · obtain ⟨n, hn⟩ := hword
        exact ⟨n, (congrArg (fun r => r.2.cur) h).trans hn⟩
      · have hmod := pad4_mod n
        refine ⟨1 + pad4 n / 4, (congrArg (fun r => r.2.cur) h).trans ?_⟩
        change a.cur + 4 + pad4 n = _
        omega

theorem args_moves (a : Reader) (ks : List ArgKind) :
    ∃ n, (a.args ks).2.cur = a.cur + 4 * n := by
  induction ks generalizing a with
  | nil => exact ⟨0, rfl⟩
  | cons k ks ih =>
      obtain ⟨n, hn⟩ := a.arg_moves k
      obtain ⟨m, hm⟩ := ih (a.arg k).2
      exact ⟨n + m, by rw [args, hm, hn]; omega⟩

end Reader

namespace Machine

/-- A string that was read from the cursor on, which is at `after` now: its length word, its bytes,
its NUL and its padding are in the payload. -/
def Returned (p : Payload) (cur : ℕ) (s : Text) (after : ℕ) : Prop :=
  ∃ n, 0 < n ∧ after = cur + 4 + WlClip.pad4 n ∧ after ≤ p.bytes.length ∧
    s = (p.bytes.drop (cur + 4)).take (n - 1)

/-- The next read of this kind stays inside the payload. -/
structure Inside (p : Payload) (r : Reader) (k : ArgKind) : Prop where
  len : (r.arg k).2.len.toNat = p.bytes.length
  accessed : ∀ i ∈ (r.arg k).2.accessed, i < (r.arg k).2.len
  bound : (r.arg k).2.cur ≤ (r.arg k).2.len
  onward : r.cur ≤ (r.arg k).2.cur
  string : k = .str → r.str.1 = [] ∧ r.str.2.cur = r.u32.2.cur ∨
    Returned p r.cur.toNat r.str.1 r.str.2.cur.toNat

variable {p : Payload} {r : Reader} {a : WlClip.Reader}

theorem Tracks.string (h : Tracks p r a) : r.str.1 = [] ∧ r.str.2.cur = r.u32.2.cur ∨
    Returned p r.cur.toNat r.str.1 r.str.2.cur.toNat := by
  obtain ⟨hvalue, hafter⟩ := h.str
  have hword := h.u32.2
  rcases a.str_cases with hstr | ⟨n, hpos, hroom, hstr⟩
  · left
    rw [hstr] at hvalue hafter
    exact ⟨hvalue, UInt64.toNat_inj.mp (hafter.cur.trans hword.cur.symm)⟩
  · right
    rw [hstr] at hvalue hafter
    have hlength : a.len = p.bytes.length := congrArg List.length h.payload
    rw [hlength] at hroom
    rw [h.payload] at hvalue
    refine ⟨n, hpos, ?_, ?_, ?_⟩
    · rw [hafter.cur, h.cur]
    · rw [hafter.cur]
      exact hroom
    · rw [hvalue, h.cur]

theorem Tracks.next (h : Tracks p r a) (k : ArgKind) : Inside p r k := by
  obtain ⟨-, hafter⟩ := h.arg k
  have hcur := hafter.cur
  refine ⟨hafter.len, hafter.accessed, ?_, ?_, fun _ => h.string⟩
  · rw [UInt64.le_iff_toNat_le, hcur, hafter.len]
    exact hafter.inside
  · obtain ⟨n, hn⟩ := a.arg_moves k
    rw [UInt64.le_iff_toNat_le, hcur, h.cur]
    omega

/-- Whatever was read before, and whatever the payload and the memory behind it hold, the next read
stays inside the payload, and a reader that began at a word boundary is at one. -/
theorem reads_inside (objectId : UInt32) (opcode : UInt16) (p : Payload) (beyond : UInt64 → UInt8)
    (start : Fin (p.bytes.length + 1)) (ks : List ArgKind) :
    let r := ((Reader.new objectId opcode p beyond start).args ks).2
    (∀ k, Inside p r k) ∧ ((start : ℕ) % 4 = 0 → r.cur.toNat % 4 = 0) := by
  intro r
  have htracks := ((tracks_new (p := p) objectId opcode beyond start).args ks).2
  refine ⟨htracks.next, fun haligned => ?_⟩
  obtain ⟨n, hn⟩ := Reader.args_moves ⟨objectId, opcode, p.bytes, start⟩ ks
  have hcur : r.cur.toNat = start + 4 * n := htracks.cur.trans hn
  omega

end Machine

end WlClip
