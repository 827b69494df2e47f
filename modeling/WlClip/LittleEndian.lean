import Mathlib.Tactic.Common
import Mathlib.Algebra.Order.Ring.Nat

/-!
# Little-endian 32-bit words in a byte list

`loadU32` reads the word at the head of a list and is `0` on a list of fewer than four bytes.
-/

namespace LittleEndian

def u32Bytes (v : UInt32) : List UInt8 :=
  [UInt8.ofNat v.toNat, UInt8.ofNat (v.toNat / 256), UInt8.ofNat (v.toNat / 65536),
    UInt8.ofNat (v.toNat / 16777216)]

def loadU32 : List UInt8 → UInt32
  | a :: b :: c :: d :: _ =>
      UInt32.ofNat (a.toNat + 256 * b.toNat + 65536 * c.toNat + 16777216 * d.toNat)
  | _ => 0

@[simp] theorem length_u32Bytes (v : UInt32) : (u32Bytes v).length = 4 := rfl

@[simp] theorem loadU32_u32Bytes_append (v : UInt32) (l : List UInt8) :
    loadU32 (u32Bytes v ++ l) = v := by
  have hv := v.toNat_lt
  simp only [u32Bytes, List.cons_append, List.nil_append, loadU32, UInt8.toNat_ofNat']
  rw [← UInt32.toNat_inj, UInt32.toNat_ofNat']
  omega

@[simp] theorem loadU32_u32Bytes (v : UInt32) : loadU32 (u32Bytes v) = v := by
  simpa using loadU32_u32Bytes_append v []

theorem loadU32_append {l : List UInt8} (h : 4 ≤ l.length) (r : List UInt8) :
    loadU32 (l ++ r) = loadU32 l := by
  match l, h with
  | _ :: _ :: _ :: _ :: _, _ => rfl

theorem u32Bytes_loadU32 {l : List UInt8} (h : 4 ≤ l.length) :
    u32Bytes (loadU32 l) = l.take 4 := by
  match l, h with
  | a :: b :: c :: d :: l, _ =>
      have ha := a.toNat_lt
      have hb := b.toNat_lt
      have hc := c.toNat_lt
      have hd := d.toNat_lt
      simp only [loadU32, u32Bytes, List.take_succ_cons, List.take_zero, List.cons.injEq,
        and_true, ← UInt8.toNat_inj, UInt8.toNat_ofNat', UInt32.toNat_ofNat']
      omega

end LittleEndian
