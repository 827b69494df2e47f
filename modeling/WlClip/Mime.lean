import WlClip.Protocol

/-!
# MIME types

The functions of `mime.cpp`. Strings and data are byte lists.
-/

namespace WlClip

def startsWith (s starts : Text) : Bool := starts.isPrefixOf s

def looksLikeText (data : List UInt8) : Bool :=
  (data.take 1024).all fun c => !(c = 0 || c < 0x09 || c > 0x0D && c < 0x20)

def guessMime (data : List UInt8) (explicitType : Text) : Text :=
  if explicitType ≠ [] then explicitType
  else if data.length ≥ 8 ∧ startsWith data [0x89, 0x50, 0x4E, 0x47] then text "image/png"
  else if data.length ≥ 8 ∧ startsWith data [0xFF, 0xD8, 0xFF] then text "image/jpeg"
  else if data.length ≥ 8 ∧ startsWith data [0x47, 0x49, 0x46, 0x38] then text "image/gif"
  else if looksLikeText data then text "text/plain;charset=utf-8"
  else text "application/octet-stream"

/-- The rules of `choose_mime` in order: each looks for the first type that satisfies it. -/
def mimeRules (prefer : Text) : List (Text → Bool) :=
  (if prefer = [] then []
    else [fun m => m == prefer, fun m => startsWith m prefer || startsWith prefer m]) ++
  [fun m => m == text "text/plain;charset=utf-8", fun m => m == text "UTF8_STRING",
    fun m => startsWith m (text "text/"), fun _ => true]

def chooseMime (av : List Text) (prefer : Text) : Text :=
  ((mimeRules prefer).findSome? fun rule => av.find? rule).getD []

def isTextual (mime : Text) : Bool :=
  startsWith mime (text "text/") || mime = text "UTF8_STRING" || mime = text "TEXT" ||
    mime = text "STRING"

theorem chooseMime_nil (prefer : Text) : chooseMime [] prefer = [] := by
  have hnone : ((mimeRules prefer).findSome? fun rule => [].find? rule) = none := by
    rw [List.findSome?_eq_none_iff]
    intro rule _
    rfl
  rw [chooseMime, hnone]
  rfl

/-- A preferred type that is on offer is the choice. -/
theorem chooseMime_self {av : List Text} {prefer : Text} (hne : prefer ≠ []) (h : prefer ∈ av) :
    chooseMime av prefer = prefer := by
  obtain ⟨m, hm⟩ : ∃ m, (av.find? fun m => m == prefer) = some m :=
    Option.isSome_iff_exists.mp (List.find?_isSome.mpr ⟨prefer, h, beq_self_eq_true prefer⟩)
  have heq : (m == prefer) = true := List.find?_some (p := fun m => m == prefer) hm
  obtain rfl := eq_of_beq heq
  rw [chooseMime, mimeRules, if_neg hne, List.cons_append, List.findSome?_cons, hm]
  rfl

/-- The choice is one of the types on offer. -/
theorem chooseMime_mem {av : List Text} (hav : av ≠ []) (prefer : Text) :
    chooseMime av prefer ∈ av := by
  rcases h : (mimeRules prefer).findSome? fun rule => av.find? rule with _ | m
  · rw [List.findSome?_eq_none_iff] at h
    have hlast := h (fun _ => true) (by simp [mimeRules])
    rw [List.find?_eq_none] at hlast
    obtain ⟨a, ha⟩ := List.exists_mem_of_ne_nil av hav
    exact absurd rfl (hlast a ha)
  · obtain ⟨rule, -, hm⟩ := List.exists_of_findSome?_eq_some h
    rw [chooseMime, h]
    exact List.mem_of_find?_eq_some hm

end WlClip
