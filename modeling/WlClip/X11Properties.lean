import WlClip.X11Paste

/-!
# A property read in chunks

A server that keeps a property until its last bytes are read, and what `read_property` makes of it:
over any number of chunks it gets the value, and the server deletes the property once.
-/

open ScriptedProgram ScriptedProgram.Prog

namespace WlClip

/-- A server with at most one property, and how many it has deleted. -/
structure PropertyServer where
  stored : Option Property
  deleted : ℕ

namespace PropertyServer

/-- GetProperty as `read_property` asks for it, with `delete` set: the property goes when no bytes
are left after those of the reply. -/
def getProperty (s : PropertyServer) (offset length : UInt32) : PropertyReply × PropertyServer :=
  let reply := Property.reply s.stored offset length
  (reply, if s.stored.isSome ∧ reply.bytesAfter = 0 then ⟨none, s.deleted + 1⟩ else s)

inductive Exchanged : PropertyServer → List Action → PropertyServer → Prop
  | nil (s : PropertyServer) : Exchanged s [] s
  | call {s s' : PropertyServer} {log : List Action} (window : Window) (property : Atom)
      (offset length : UInt32) (h : Exchanged (s.getProperty offset length).2 log s') :
      Exchanged s (.call (.xGetProperty window property offset length)
        (.xGetProperty (some (s.getProperty offset length).1)) :: log) s'

theorem Exchanged.concat {s s' : PropertyServer} {log : List Action} {window : Window}
    {property : Atom} {offset length : UInt32} {reply : Option PropertyReply}
    (h : Exchanged s (log ++ [.call (.xGetProperty window property offset length)
      (.xGetProperty reply)]) s') :
    ∃ t, Exchanged s log t ∧ reply = some (t.getProperty offset length).1 ∧
      s' = (t.getProperty offset length).2 := by
  induction log generalizing s with
  | nil =>
      cases h with
      | call _ _ _ _ h =>
          cases h
          exact ⟨s, .nil s, rfl, rfl⟩
  | cons a log ih =>
      cases h with
      | call window property offset length h =>
          obtain ⟨t, hlog, hreply, hs'⟩ := ih h
          exact ⟨t, .call window property offset length hlog, hreply, hs'⟩

theorem getProperty_last {prop : Property} {offset length : UInt32} {n : ℕ}
    (h : (Property.reply (some prop) offset length).bytesAfter = 0) :
    (getProperty ⟨some prop, n⟩ offset length).2 = ⟨none, n + 1⟩ :=
  if_pos ⟨rfl, h⟩

theorem getProperty_more {prop : Property} {offset length : UInt32} {n : ℕ}
    (h : 0 < (Property.reply (some prop) offset length).bytesAfter) :
    (getProperty ⟨some prop, n⟩ offset length).2 = ⟨some prop, n⟩ :=
  if_neg fun hlast => absurd hlast.2 (Nat.pos_iff_ne_zero.mp h)

end PropertyServer

open PropertyServer

def Action.offset : Action → List UInt32
  | .call (.xGetProperty _ _ offset _) _ => [offset]
  | _ => []

namespace X11

def InValue (prop : Property) (offset : UInt32) : Prop := 4 * offset.toNat ≤ prop.value.length

/-- The reading and the log, as long as the server has more. -/
structure Midway (prop : Property) (r : Reading) (log : List Action) (s : PropertyServer) :
    Prop where
  server : s = ⟨some prop, 0⟩
  data : r.data = prop.value.take (4 * r.offset.toNat)
  offset : r.offset.toNat = 1048576 * log.length
  within : InValue prop r.offset
  asked : ∀ o ∈ log.flatMap Action.offset, InValue prop o

structure Finished (prop : Property) (log : List Action) (s : PropertyServer) : Prop where
  server : s = ⟨none, 1⟩
  rounds : log.length ≤ prop.value.length / chunk + 1
  asked : ∀ o ∈ log.flatMap Action.offset, InValue prop o

section

variable {x : Connection} {prop : Property} {r : Reading} {log : List Action} {s : PropertyServer}

theorem Midway.rounds (h : Midway prop r log s) : log.length ≤ prop.value.length / chunk := by
  have hwithin : 4 * r.offset.toNat ≤ prop.value.length := h.within
  have hoffset := h.offset
  rw [Nat.le_div_iff_mul_le (by decide), chunk]
  omega

def exchange (x : Connection) (r : Reading) (s : PropertyServer) : Action :=
  .call (.xGetProperty x.window x.atoms.wlSelection r.offset longLength)
    (.xGetProperty (some (s.getProperty r.offset longLength).1))

theorem Midway.asked_concat (h : Midway prop r log s) :
    ∀ o ∈ (log ++ [exchange x r s]).flatMap Action.offset, InValue prop o := by
  intro o ho
  rw [List.flatMap_append] at ho
  rcases List.mem_append.mp ho with ho | ho
  · exact h.asked o ho
  · obtain rfl : o = r.offset := by simpa [exchange, Action.offset] using ho
    exact h.within

theorem Midway.next (htype : prop.type ≠ x.atoms.incr) (h : Midway prop r log s) :
    (∃ r', readReply x r (some (s.getProperty r.offset longLength).1) = .inl r' ∧
      Midway prop r' (log ++ [exchange x r s]) (s.getProperty r.offset longLength).2) ∨
    readReply x r (some (s.getProperty r.offset longLength).1) = .inr prop.value ∧
      Finished prop (log ++ [exchange x r s]) (s.getProperty r.offset longLength).2 := by
  have hasked := h.asked_concat (x := x)
  have hrounds := h.rounds
  obtain ⟨rfl, hdata, hoffset, hwithin, -⟩ := h
  obtain ⟨offset, data⟩ := r
  obtain rfl : data = prop.value.take (4 * offset.toNat) := hdata
  rcases Nat.eq_zero_or_pos (Property.reply (some prop) offset longLength).bytesAfter
    with hlast | hmore
  · refine .inr ⟨readReply_last htype hlast, getProperty_last hlast, ?_, hasked⟩
    rw [List.length_append]
    exact Nat.add_le_add_right hrounds 1
  · refine .inl ⟨_, readReply_more htype hmore, getProperty_more hmore, rfl, ?_, ?_, hasked⟩
    · rw [List.length_append, next_toNat hmore]
      simp only [List.length_singleton]
      simp only at hoffset
      omega
    · have hlt := (reply_more hmore).2
      rw [InValue, next_toNat hmore, Nat.mul_add]
      exact Nat.le_of_lt hlt

/-- While the server answers, a reading is midway. -/
def Reads (prop : Property) (p₀ : Process) (r : Reading) (p : Process) : Prop :=
  ∃ log, p.trace = p₀.trace ++ log ∧ ∀ s, Exchanged ⟨some prop, 0⟩ log s → Midway prop r log s

/-- If the server has answered all, the value was read. -/
def HasRead (prop : Property) (p₀ : Process) (bytes : List UInt8) (p : Process) : Prop :=
  ∃ log, p.trace = p₀.trace ++ log ∧
    ∀ s, Exchanged ⟨some prop, 0⟩ log s → bytes = prop.value ∧ Finished prop log s

def Awaits (x : Connection) (prop : Property) (p₀ : Process) (e : Halt) (p : Process) : Prop :=
  ∃ log, p.trace = p₀.trace ++ log ∧ ∀ s, Exchanged ⟨some prop, 0⟩ log s →
    ∃ r, e = .waiting (.xGetProperty x.window x.atoms.wlSelection r.offset longLength) ∧
      Midway prop r log s

theorem readRound_ok {p p' : Process} {next : Reading ⊕ List UInt8}
    (h : readRound x r p = (.ok next, p')) : ∃ reply, next = readReply x r reply ∧
      p'.trace = p.trace ++ [.call (.xGetProperty x.window x.atoms.wlSelection r.offset longLength)
        (.xGetProperty reply)] := by
  obtain ⟨reply, p₁, hask, hround⟩ := bind_eq_ok h
  obtain ⟨a, rest, -, hanswer, rfl⟩ := Process.ask_ok hask
  cases hround
  cases a with
  | xGetProperty result =>
      obtain rfl := Option.some.inj hanswer
      exact ⟨_, rfl, rfl⟩
  | _ => cases hanswer

theorem readRound_error {p p' : Process} {e : Halt} (h : readRound x r p = (.error e, p')) :
    e = .waiting (.xGetProperty x.window x.atoms.wlSelection r.offset longLength) ∧ p' = p := by
  rcases hask : Process.xGetProperty x.window x.atoms.wlSelection r.offset longLength p
    with ⟨e' | reply, p₁⟩
  · obtain ⟨rfl, rfl⟩ := Process.ask_error hask
    have heq := (bind_error hask : readRound x r p₁ = _).symm.trans h
    cases heq
    exact ⟨rfl, rfl⟩
  · have heq := (bind_ok hask : readRound x r p = _).symm.trans h
    cases heq

theorem readRound_reads (htype : prop.type ≠ x.atoms.incr) (p₀ : Process) (r : Reading) :
    Triple (Reads prop p₀ r) (readRound x r)
      (fun next p => match next with
        | .inl r' => Reads prop p₀ r' p
        | .inr bytes => HasRead prop p₀ bytes p) (Awaits x prop p₀) := by
  apply Triple.intro
  · rintro p next p' ⟨log, htrace, hmid⟩ hround
    obtain ⟨reply, rfl, htrace'⟩ := readRound_ok hround
    rw [htrace, List.append_assoc] at htrace'
    have hnext : ∀ s', Exchanged ⟨some prop, 0⟩ (log ++
        [.call (.xGetProperty x.window x.atoms.wlSelection r.offset longLength)
          (.xGetProperty reply)]) s' → ∃ s, Midway prop r log s ∧
        reply = some (s.getProperty r.offset longLength).1 ∧
        s' = (s.getProperty r.offset longLength).2 := by
      intro s' hs'
      obtain ⟨s, hlog, hreply, hs⟩ := hs'.concat
      exact ⟨s, hmid s hlog, hreply, hs⟩
    rcases hread : readReply x r reply with r' | bytes
    · refine ⟨_, htrace', fun s' hs' => ?_⟩
      obtain ⟨s, hmid, rfl, rfl⟩ := hnext s' hs'
      rcases hmid.next htype with ⟨r'', hgoes, hnext⟩ | ⟨hends, -⟩
      · obtain rfl := Sum.inl.inj (hgoes.symm.trans hread)
        exact hnext
      · cases hends.symm.trans hread
    · refine ⟨_, htrace', fun s' hs' => ?_⟩
      obtain ⟨s, hmid, rfl, rfl⟩ := hnext s' hs'
      rcases hmid.next htype with ⟨r'', hgoes, -⟩ | ⟨hends, hfinished⟩
      · cases hgoes.symm.trans hread
      · exact ⟨Sum.inr.inj (hread.symm.trans hends), hfinished⟩
  · rintro p e p' ⟨log, htrace, hmid⟩ hround
    obtain ⟨rfl, rfl⟩ := readRound_error hround
    exact ⟨log, htrace, fun s hs => ⟨r, rfl, hmid s hs⟩⟩

theorem readProperty_reads (htype : prop.type ≠ x.atoms.incr) (p : Process) :
    Triple (fun q => q = p) (readProperty x) (HasRead prop p) (Awaits x prop p) := by
  refine (Triple.loop_total (I := Reads prop p) (readRound_shrinks x) (fun r => ?_) ⟨0, []⟩).pre ?_
  · refine (readRound_reads htype p r).conseq (fun _ h => h) ?_ fun _ _ h => h
    rintro (r' | bytes) q h <;> exact h
  rintro _ rfl
  refine ⟨[], (List.append_nil _).symm, fun s hs => ?_⟩
  cases hs
  exact ⟨rfl, rfl, rfl, Nat.zero_le _, fun o ho => absurd ho List.not_mem_nil⟩

theorem readLoop_served (htype : prop.type ≠ x.atoms.incr) (offset : UInt32) :
    ∃ replies, ∀ (p : Process) (rest : List Reply), p.script = replies ++ rest →
      ∃ log, loop .stuck (fun _ p => p.size) (readRound x)
          ⟨offset, prop.value.take (4 * offset.toNat)⟩ p = (.ok prop.value, p.after log rest) ∧
        Exchanged ⟨some prop, 0⟩ log ⟨none, 1⟩ := by
  induction hk : prop.value.length - 4 * offset.toNat using Nat.strongRecOn generalizing offset with
  | _ k ih =>
      let s : PropertyServer := ⟨some prop, 0⟩
      let reply := (s.getProperty offset longLength).1
      have hround : ∀ (p : Process) (rest : List Reply), p.script = .xGetProperty reply :: rest →
          readRound x ⟨offset, prop.value.take (4 * offset.toNat)⟩ p =
            (.ok (readReply x ⟨offset, prop.value.take (4 * offset.toNat)⟩ reply),
              p.after [exchange x ⟨offset, []⟩ s] rest) := by
        intro p rest hs
        have hask : Process.xGetProperty x.window x.atoms.wlSelection offset longLength p =
            (.ok (some reply), p.after [exchange x ⟨offset, []⟩ s] rest) := Process.ask_cons hs rfl
        exact bind_ok hask
      rcases Nat.eq_zero_or_pos (Property.reply (some prop) offset longLength).bytesAfter
        with hlast | hmore
      · refine ⟨[.xGetProperty reply], fun p rest hs => ⟨[exchange x ⟨offset, []⟩ s], ?_, ?_⟩⟩
        · have hends := hround p rest hs
          rw [show readReply x _ (some reply) = _ from readReply_last htype hlast] at hends
          exact loop_return (readRound_shrinks x) hends
        · have hserver := Exchanged.nil (s.getProperty offset longLength).2
          rw [getProperty_last hlast] at hserver
          refine .call _ _ _ _ ?_
          rw [getProperty_last hlast]
          exact hserver
      · have hlt := (reply_more hmore).2
        have hnext := next_toNat hmore
        rw [chunk] at hlt
        obtain ⟨replies, hserved⟩ := ih (prop.value.length - 4 * (next prop offset).toNat)
          (by omega) (next prop offset) rfl
        refine ⟨.xGetProperty reply :: replies, fun p rest hs => ?_⟩
        obtain ⟨log, hrun, hlog⟩ := hserved (p.after [exchange x ⟨offset, []⟩ s] (replies ++ rest))
          rest rfl
        refine ⟨exchange x ⟨offset, []⟩ s :: log, ?_, ?_⟩
        · have hgoes := hround p _ hs
          rw [show readReply x _ (some reply) = _ from readReply_more htype hmore] at hgoes
          exact (loop_next (readRound_shrinks x) hgoes).trans
            (hrun.trans (by rw [Process.after_after]; rfl))
        · refine .call _ _ _ _ ?_
          rw [getProperty_more hmore]
          exact hlog

/-- A property of any length that is no INCR property is read by a server that answers by the rule
of GetProperty: after at most one reply to each chunk and one more the value is returned, and the
server has deleted the property once. Before that the reading waits for a reply, and it asks for
no offset that is past the end. With the replies it returns. -/
theorem readProperty_exact (x : Connection) (prop : Property) (htype : prop.type ≠ x.atoms.incr) :
    (∀ p, ∃ log, (readProperty x p).2.trace = p.trace ++ log ∧
      ∀ s, Exchanged ⟨some prop, 0⟩ log s →
        (∀ o ∈ log.flatMap Action.offset, 4 * o.toNat ≤ prop.value.length) ∧
        ((readProperty x p).1 = .ok prop.value ∧ s = ⟨none, 1⟩ ∧
            log.length ≤ prop.value.length / chunk + 1 ∨
          (∃ offset, (readProperty x p).1 =
              .error (.waiting (.xGetProperty x.window x.atoms.wlSelection offset longLength)) ∧
            4 * offset.toNat ≤ prop.value.length) ∧ s = ⟨some prop, 0⟩ ∧
            log.length ≤ prop.value.length / chunk)) ∧
    ∃ replies, ∀ (p : Process) (rest : List Reply), p.script = replies ++ rest →
      ∃ log, readProperty x p = (.ok prop.value, p.after log rest) ∧
        Exchanged ⟨some prop, 0⟩ log ⟨none, 1⟩ := by
  refine ⟨fun p => ?_, ?_⟩
  · have hreads := readProperty_reads htype p
    rcases hrun : readProperty x p with ⟨e | bytes, q⟩
    · obtain ⟨log, htrace, hawaits⟩ := hreads.error hrun rfl
      refine ⟨log, htrace, fun s hs => ?_⟩
      obtain ⟨r, rfl, hmid⟩ := hawaits s hs
      exact ⟨hmid.asked, .inr ⟨⟨r.offset, rfl, hmid.within⟩, hmid.server, hmid.rounds⟩⟩
    · obtain ⟨log, htrace, hread⟩ := hreads.ok hrun rfl
      refine ⟨log, htrace, fun s hs => ?_⟩
      obtain ⟨rfl, hfinished⟩ := hread s hs
      exact ⟨hfinished.asked, .inl ⟨rfl, hfinished.server, hfinished.rounds⟩⟩
  · obtain ⟨replies, hserved⟩ := readLoop_served (x := x) htype 0
    exact ⟨replies, fun p rest hs => hserved p rest hs⟩

end

theorem long_fits : (List.replicate (chunk + 2) (0x68 : UInt8)).length < 2 ^ 34 := by
  rw [List.length_replicate]
  decide

def long : Property := ⟨atomString, List.replicate (chunk + 2) 0x68, long_fits⟩

/-- A text that is not read at once. -/
theorem readProperty_exact_long : chunk < long.value.length ∧ ∃ replies, ∀ rest,
    (readProperty ⟨3, 42, X11Backend.atoms⟩ (.fresh (replies ++ rest))).1 = .ok long.value := by
  have hexact := readProperty_exact ⟨3, 42, X11Backend.atoms⟩ long
    (show atomString ≠ X11Backend.atoms.incr by decide)
  obtain ⟨replies, hserved⟩ := hexact.2
  refine ⟨?_, replies, fun rest => ?_⟩
  · rw [show long.value.length = chunk + 2 from List.length_replicate]
    exact Nat.lt_add_of_pos_right (by decide)
  · obtain ⟨log, hrun, -⟩ := hserved (.fresh (replies ++ rest)) rest rfl
    rw [hrun]

end X11

end WlClip
