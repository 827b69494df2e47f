import WlClip.X11

/-!
# What a paste reads from an X server

The GetProperty rule of the server, what `read_property` makes of the replies, and when a paste
gives the contents of the property that the owner stored.
-/

open ScriptedProgram ScriptedProgram.Prog LittleEndian

namespace WlClip

/-- A property of a window. The offsets of GetProperty are 32-bit counts of four bytes. -/
structure Property where
  type : Atom
  value : List UInt8
  fits : value.length < 2 ^ 34

/-- The reply to GetProperty: at most `4 * length` bytes of the value from `4 * offset` on, and how
many are left after them. A property that is not there has type 0 and no bytes. -/
def Property.reply (stored : Option Property) (offset length : UInt32) : PropertyReply :=
  match stored with
  | none => ⟨0, [], 0⟩
  | some prop =>
    let value := (prop.value.drop (4 * offset.toNat)).take (4 * length.toNat)
    ⟨prop.type, value, prop.value.length - (4 * offset.toNat + value.length)⟩

namespace X11

/-- The replies to the requests for the property from an offset on, up to the last or to one that
fails. -/
inductive Answers (stored : Option Property) : UInt32 → List Reply → Prop
  | failed (offset : UInt32) : Answers stored offset [.xGetProperty none]
  | last {offset : UInt32} (h : (Property.reply stored offset longLength).bytesAfter = 0) :
      Answers stored offset [.xGetProperty (some (Property.reply stored offset longLength))]
  | more {offset : UInt32} {replies : List Reply}
      (h : 0 < (Property.reply stored offset longLength).bytesAfter)
      (hmore : Answers stored (offset +
        UInt32.ofNat (Property.reply stored offset longLength).value.length / 4) replies) :
      Answers stored offset
        (.xGetProperty (some (Property.reply stored offset longLength)) :: replies)

/-! ## Reading -/

theorem readRound_shrinks (x : Connection) : Shrinks (fun _ p => p.size) (readRound x) := by
  intro r p r' p' h
  obtain ⟨reply, p₁, hask, h⟩ := bind_eq_ok h
  obtain rfl : p₁ = p' := congrArg Prod.snd h
  exact Process.ask_size hask

theorem readRound_reply (x : Connection) (r : Reading) {p : Process} {rest : List Reply}
    {reply : Option PropertyReply} (hs : p.script = .xGetProperty reply :: rest) :
    ∃ p', p'.script = rest ∧ readRound x r p = (.ok (readReply x r reply), p') := by
  have hask : Process.xGetProperty x.window x.atoms.wlSelection r.offset longLength p = _ :=
    Process.ask_cons hs rfl
  exact ⟨_, rfl, bind_ok hask⟩

def Answered (replies : List Reply) : Prop := .xGetProperty none ∉ replies

instance (replies : List Reply) : Decidable (Answered replies) :=
  inferInstanceAs (Decidable (_ ∉ _))

section

variable {x : X11.Connection} {prop : Property} {offset : UInt32} {replies rest : List Reply}
  {p : Process}

theorem readProperty_absent (h : Answers none 0 replies) (hs : p.script = replies ++ rest) :
    ∃ p', readProperty x p = (.ok [], p') := by
  cases h with
  | failed =>
      obtain ⟨p', -, hround⟩ := readRound_reply x ⟨0, []⟩ hs
      exact ⟨p', loop_return (readRound_shrinks x) hround⟩
  | last h =>
      obtain ⟨p', -, hround⟩ := readRound_reply x ⟨0, []⟩ hs
      refine ⟨p', loop_return (readRound_shrinks x) (hround.trans ?_)⟩
      by_cases hincr : (0 : Atom) = x.atoms.incr <;> simp [readReply, Property.reply, hincr]
  | more h => cases h

theorem readProperty_incr (hincr : prop.type = x.atoms.incr) (h : Answers (some prop) 0 replies)
    (hs : p.script = replies ++ rest) : ∃ p', readProperty x p = (.ok [], p') := by
  have hfirst : ∃ r rest', p.script = .xGetProperty r :: rest' ∧
      ∀ reply, r = some reply → reply.type = x.atoms.incr := by
    cases h with
    | failed => exact ⟨_, _, hs, nofun⟩
    | last h => exact ⟨_, _, hs, by rintro _ ⟨⟩; exact hincr⟩
    | more h => exact ⟨_, _, hs, by rintro _ ⟨⟩; exact hincr⟩
  obtain ⟨r, rest', hs', htype⟩ := hfirst
  obtain ⟨p', -, hround⟩ := readRound_reply x ⟨0, []⟩ hs'
  refine ⟨p', loop_return (readRound_shrinks x) (hround.trans ?_)⟩
  rcases r with _ | reply
  · rfl
  · rw [readReply, if_pos (htype reply rfl)]

def chunk : ℕ := 4194304

theorem longLength_toNat : 4 * longLength.toNat = chunk := rfl

theorem chunk_quarter : (UInt32.ofNat chunk / 4).toNat = 1048576 := rfl

theorem reply_more (h : 0 < (Property.reply (some prop) offset longLength).bytesAfter) :
    (Property.reply (some prop) offset longLength).value.length = chunk ∧
      4 * offset.toNat + chunk < prop.value.length := by
  have hlen : (Property.reply (some prop) offset longLength).value.length =
      min (chunk) (prop.value.length - 4 * offset.toNat) := by
    simp [Property.reply, longLength_toNat]
  have hafter : (Property.reply (some prop) offset longLength).bytesAfter = prop.value.length -
      (4 * offset.toNat + (Property.reply (some prop) offset longLength).value.length) := rfl
  omega

def next (prop : Property) (offset : UInt32) : UInt32 :=
  offset + UInt32.ofNat (Property.reply (some prop) offset longLength).value.length / 4

theorem next_toNat (h : 0 < (Property.reply (some prop) offset longLength).bytesAfter) :
    (next prop offset).toNat = offset.toNat + 1048576 := by
  obtain ⟨hlen, hlt⟩ := reply_more h
  have hfits := prop.fits
  rw [next, hlen, UInt32.toNat_add, chunk_quarter]
  simp only [chunk] at hlt
  omega

theorem reply_data (prop : Property) (offset : UInt32) :
    prop.value.take (4 * offset.toNat) ++ (Property.reply (some prop) offset longLength).value =
      prop.value.take (4 * (offset.toNat + 1048576)) := by
  have hvalue : (Property.reply (some prop) offset longLength).value =
      (prop.value.drop (4 * offset.toNat)).take (chunk) := by
    simp [Property.reply, longLength_toNat]
  rw [hvalue, ← List.take_add, Nat.mul_add]
  rfl

theorem reply_last (h : (Property.reply (some prop) offset longLength).bytesAfter = 0) :
    prop.value.take (4 * offset.toNat) ++ (Property.reply (some prop) offset longLength).value =
      prop.value := by
  have hvalue : (Property.reply (some prop) offset longLength).value =
      (prop.value.drop (4 * offset.toNat)).take (chunk) := by
    simp [Property.reply, longLength_toNat]
  have hafter : (Property.reply (some prop) offset longLength).bytesAfter = prop.value.length -
      (4 * offset.toNat + (Property.reply (some prop) offset longLength).value.length) := rfl
  have hlen : (prop.value.drop (4 * offset.toNat)).length ≤ chunk := by
    rw [hafter, hvalue, List.length_take, List.length_drop] at h
    rw [List.length_drop]
    omega
  rw [hvalue, List.take_of_length_le hlen, List.take_append_drop]

theorem readReply_last (htype : prop.type ≠ x.atoms.incr)
    (h : (Property.reply (some prop) offset longLength).bytesAfter = 0) :
    readReply x ⟨offset, prop.value.take (4 * offset.toNat)⟩
      (some (Property.reply (some prop) offset longLength)) = .inr prop.value := by
  have hread : ¬ (Property.reply (some prop) offset longLength).type = x.atoms.incr := htype
  have hafter : ¬ (Property.reply (some prop) offset longLength).bytesAfter > 0 := by omega
  simp only [readReply, if_neg hread, if_neg hafter, reply_last h]

theorem readReply_more (htype : prop.type ≠ x.atoms.incr)
    (h : 0 < (Property.reply (some prop) offset longLength).bytesAfter) :
    readReply x ⟨offset, prop.value.take (4 * offset.toNat)⟩
        (some (Property.reply (some prop) offset longLength)) =
      .inl ⟨next prop offset, prop.value.take (4 * (next prop offset).toNat)⟩ := by
  have hread : ¬ (Property.reply (some prop) offset longLength).type = x.atoms.incr := htype
  simp only [readReply, if_neg hread, if_pos h, reply_data, next_toNat h]
  rfl

/-- What is read from an offset on makes the value exactly if no request fails. -/
theorem readLoop_property (htype : prop.type ≠ x.atoms.incr) (h : Answers (some prop) offset replies)
    (hoffset : prop.value = [] ∨ 4 * offset.toNat < prop.value.length)
    (hs : p.script = replies ++ rest) :
    ∃ bytes p', loop .stuck (fun _ p => p.size) (readRound x)
        ⟨offset, prop.value.take (4 * offset.toNat)⟩ p = (.ok bytes, p') ∧
      (bytes = prop.value ↔ prop.value = [] ∨ Answered replies) := by
  induction h generalizing p with
  | failed offset =>
      obtain ⟨p', -, hround⟩ := readRound_reply x ⟨offset, prop.value.take (4 * offset.toNat)⟩ hs
      refine ⟨prop.value.take (4 * offset.toNat), p', loop_return (readRound_shrinks x) hround, ?_⟩
      rcases hoffset with hnil | hlt
      · simp [hnil]
      · have hne : prop.value ≠ [] := List.ne_nil_of_length_pos (by omega)
        have hfailed : ¬ Answered [.xGetProperty none] := by simp [Answered]
        refine ⟨fun heq => ?_, fun hans => absurd (hans.resolve_left hne) hfailed⟩
        have hlen := congrArg List.length heq
        rw [List.length_take] at hlen
        omega
  | @last offset h =>
      obtain ⟨p', -, hround⟩ := readRound_reply x ⟨offset, prop.value.take (4 * offset.toNat)⟩ hs
      rw [readReply_last htype h] at hround
      exact ⟨prop.value, p', loop_return (readRound_shrinks x) hround, by simp [Answered]⟩
  | @more offset replies h hmore ih =>
      have hlt : 4 * (next prop offset).toNat < prop.value.length := by
        rw [next_toNat h, Nat.mul_add]
        exact (reply_more h).2
      obtain ⟨p₁, hs₁, hround⟩ := readRound_reply x ⟨offset, prop.value.take (4 * offset.toNat)⟩ hs
      rw [readReply_more htype h] at hround
      obtain ⟨bytes, p', hrun, hbytes⟩ := ih (.inr hlt) hs₁
      refine ⟨bytes, p', (loop_next (readRound_shrinks x) hround).trans hrun, hbytes.trans ?_⟩
      simp [Answered]

theorem readProperty_found {found : Option Property} (h : Answers found 0 replies)
    (hs : p.script = replies ++ rest) :
    ∃ bytes p', readProperty x p = (.ok bytes, p') ∧ ∀ prop, found = some prop →
      (bytes = prop.value ↔ prop.value = [] ∨ prop.type ≠ x.atoms.incr ∧ Answered replies) := by
  rcases found with _ | prop
  · obtain ⟨p', hread⟩ := readProperty_absent (x := x) h hs
    exact ⟨[], p', hread, by simp⟩
  · by_cases hincr : prop.type = x.atoms.incr
    · obtain ⟨p', hread⟩ := readProperty_incr hincr h hs
      refine ⟨[], p', hread, ?_⟩
      rintro _ ⟨⟩
      simp [hincr, eq_comm]
    · have hoffset : prop.value = [] ∨ 4 * (0 : UInt32).toNat < prop.value.length :=
        prop.value.length.eq_zero_or_pos.imp List.eq_nil_of_length_eq_zero fun hpos => hpos
      obtain ⟨bytes, p', hread, hbytes⟩ := readLoop_property hincr h hoffset hs
      refine ⟨bytes, p', hread, ?_⟩
      rintro _ ⟨⟩
      simpa [hincr] using hbytes

end

/-! ## The paste -/

/-- What is stored when the paste reads: nothing, a property that the owner did not store in
answer to this conversion, or the one that it did. -/
inductive Stored
  | nothing
  | foreign (prop : Property)
  | answer (prop : Property)

def Stored.property : Stored → Option Property
  | .nothing => none
  | .foreign prop => some prop
  | .answer prop => some prop

/-- The bytes are all that the owner stored in answer. -/
def Whole (stored : Stored) (bytes : List UInt8) : Prop :=
  ∃ prop, stored = .answer prop ∧ bytes = prop.value

def Asked (display : Text) (sel : Selection) (preferMime : Text) (p : Process) (x : Connection)
    (mimes : List Text) (p₁ : Process) : Prop :=
  ∃ pc pt, connect display p = (.ok (some x), pc) ∧
    askTargets x (selectionAtom x.atoms sel) pc = (.ok (some mimes), pt) ∧
    askData x (selectionAtom x.atoms sel) (chooseMime mimes preferMime) pt = (.ok true, p₁)

end X11

namespace X11Backend

open X11

variable {display : Text} {sel : Selection} {preferMime : Text} {p p₁ : Process} {x : X11.Connection}
  {mimes : List Text}

/-- A paste that has come to read the data returns true, whatever it reads. -/
theorem paste_asked (h : Asked display sel preferMime p x mimes p₁) {bytes : List UInt8}
    {p₂ : Process} (hread : readProperty x p₁ = (.ok bytes, p₂)) :
    ∃ p', paste display sel preferMime false p =
      (.ok (true, ⟨chooseMime mimes preferMime, bytes, mimes⟩), p') := by
  obtain ⟨pc, pt, hconnect, htargets, hdata⟩ := h
  have hfrom : pasteFrom x sel preferMime false pc =
      (.ok (true, ⟨chooseMime mimes preferMime, bytes, mimes⟩), p₂) :=
    (bind_ok htargets).trans ((bind_ok hdata).trans (bind_ok hread))
  exact ⟨_, (bind_ok hconnect).trans (bind_ok hfrom)⟩

/-- A paste that returns true has come to read the data. -/
theorem asked_of_paste {out : PasteResult} {p' : Process}
    (h : paste display sel preferMime false p = (.ok (true, out), p')) :
    ∃ x mimes p₁, Asked display sel preferMime p x mimes p₁ := by
  obtain ⟨x, pc, hconnect, h⟩ := bind_eq_ok h
  rcases x with _ | x
  · cases h
  obtain ⟨r, p₂, hfrom, h⟩ := bind_eq_ok h
  obtain ⟨u, p₃, -, h⟩ := bind_eq_ok h
  obtain rfl : r = (true, out) := Except.ok.inj (congrArg Prod.fst h)
  obtain ⟨mimes, pt, htargets, hfrom⟩ := bind_eq_ok hfrom
  rcases mimes with _ | mimes
  · cases hfrom
  obtain ⟨ok, p₁, hdata, hfrom⟩ := bind_eq_ok hfrom
  cases ok
  · cases hfrom
  · exact ⟨x, mimes, p₁, pc, pt, hconnect, htargets, hdata⟩

/-- A paste returns true only after a notification for the type chosen, and then always. The
bytes are the whole answer of the owner exactly if the answer is what is stored, and is empty, or
is no INCR property and is read without a failure. -/
theorem paste_whole_iff (display : Text) (sel : Selection) (preferMime : Text) (p : Process) :
    (∀ out p', paste display sel preferMime false p = (.ok (true, out), p') →
      ∃ x mimes p₁, Asked display sel preferMime p x mimes p₁) ∧
    ∀ x mimes p₁, Asked display sel preferMime p x mimes p₁ →
      ∀ stored replies rest, Answers stored.property 0 replies → p₁.script = replies ++ rest →
        ∃ out p', paste display sel preferMime false p = (.ok (true, out), p') ∧
          (Whole stored out.bytes ↔ ∃ prop, stored = .answer prop ∧
            (prop.value = [] ∨ prop.type ≠ x.atoms.incr ∧ Answered replies)) := by
  refine ⟨fun out p' => asked_of_paste, fun x mimes p₁ hasked stored replies rest h hs => ?_⟩
  obtain ⟨bytes, p₂, hread, hbytes⟩ := readProperty_found (x := x) h hs
  obtain ⟨p', hpaste⟩ := paste_asked hasked hread
  refine ⟨_, p', hpaste, exists_congr fun prop => and_congr_right fun hstored => ?_⟩
  exact hbytes prop (by rw [hstored]; rfl)

/-- The process of a paste whose owner offers text, up to the notification for the data. -/
def asking (replies : List Reply) : Process where
  script := .xConnect (some (3, 42)) ::
    [300, 301, 302, 303, 304, 305, 306, 307, 308].map .xInternAtom ++
    [.clock 0, .xPollForEvent (some (.selectionNotify ⟨0, 42, 300, 301, 307⟩)),
      .xGetProperty (some ⟨atomAtom, u32Bytes 305, 0⟩),
      .clock 5, .xPollForEvent (some (.selectionNotify ⟨0, 42, 300, 305, 307⟩))] ++ replies
  trace := []
  sigpipe := .default
  getenv := fun _ => none

def atoms : Atoms := ⟨300, atomPrimary, 301, 302, 303, 304, 305, atomString, 306, 307, 308⟩

theorem asked_asking {replies : List Reply} {pc pt p₁ : Process}
    (hc : (connect [] (asking replies)).2 = pc)
    (hconnect : (connect [] (asking replies)).1 = .ok (some ⟨3, 42, atoms⟩))
    (ht : (askTargets ⟨3, 42, atoms⟩ 300 pc).2 = pt)
    (htargets : (askTargets ⟨3, 42, atoms⟩ 300 pc).1 =
      .ok (some [text "text/plain;charset=utf-8"]))
    (h₁ : (askData ⟨3, 42, atoms⟩ 300 (text "text/plain;charset=utf-8") pt).2 = p₁)
    (hdata : (askData ⟨3, 42, atoms⟩ 300 (text "text/plain;charset=utf-8") pt).1 = .ok true) :
    Asked [] .regular [] (asking replies) ⟨3, 42, atoms⟩ [text "text/plain;charset=utf-8"] p₁ :=
  ⟨pc, pt, Prod.ext hconnect hc, Prod.ext htargets ht, Prod.ext hdata h₁⟩

def hi : Property := ⟨305, [0x68, 0x69], by decide⟩

theorem paste_whole_hi : ∃ out p', paste [] .regular [] false
    (asking [.xGetProperty (some (Property.reply hi 0 longLength))]) = (.ok (true, out), p') ∧
      Whole (.answer hi) out.bytes := by
  have hasked : Asked [] .regular []
      (asking [.xGetProperty (some (Property.reply hi 0 longLength))]) ⟨3, 42, atoms⟩
      [text "text/plain;charset=utf-8"] _ :=
    asked_asking rfl (by decide +kernel) rfl (by decide +kernel) rfl (by decide +kernel)
  obtain ⟨out, p', hpaste, hiff⟩ := (paste_whole_iff [] .regular [] _).2 _ _ _ hasked (.answer hi)
    [.xGetProperty (some (Property.reply hi 0 longLength))] [] (.last (by decide +kernel))
    (by decide +kernel)
  exact ⟨out, p', hpaste, hiff.mpr ⟨hi, rfl, .inr ⟨by decide, by decide +kernel⟩⟩⟩

/-- Where the request for the property fails, the paste succeeds with nothing. -/
theorem paste_truncated :
    let p := asking [.xGetProperty none]
    let mime := text "text/plain;charset=utf-8"
    (∃ x mimes p₁, Asked [] .regular [] p x mimes p₁ ∧ p₁.script = [.xGetProperty none] ∧
      Answers (Stored.answer hi).property 0 [.xGetProperty none]) ∧
    (paste [] .regular [] false p).1 = .ok (true, ⟨mime, [], [mime]⟩) ∧ ¬ Whole (.answer hi) [] := by
  intro p mime
  have hasked : Asked [] .regular [] p ⟨3, 42, atoms⟩ [mime] _ :=
    asked_asking rfl (by decide +kernel) rfl (by decide +kernel) rfl (by decide +kernel)
  refine ⟨⟨_, _, _, hasked, by decide +kernel, .failed 0⟩, by decide +kernel, ?_⟩
  rintro ⟨prop, ⟨⟩, hbytes⟩
  exact absurd hbytes (by decide)

end X11Backend

end WlClip
