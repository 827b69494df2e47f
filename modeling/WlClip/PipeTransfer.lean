import WlClip.Transfer

/-!
# A payload through a pipe

`serve_send` at the write end of a bounded pipe and `drain_fd` at its read end, their calls in any
order. The loops keep the pointer, the length and the buffer of the source; each is shown to be
the program of `Transfer`.
-/

open ScriptedProgram ScriptedProgram.Prog

namespace WlClip.PipeTransfer

/-! ## The loop of `serve_send` -/

/-- The next call: a write, the poll after a write to a full pipe, or the close after the loop. -/
inductive Place
  | write
  | poll
  | left
  | closed
  deriving DecidableEq

/-- The pointer is an offset into the payload. -/
structure Serve where
  p : ℕ
  len : ℕ
  place : Place
  deriving DecidableEq

namespace Serve

/-- The test at the head of the loop. -/
def head (s : Serve) : Serve := { s with place := if s.len > 0 then .write else .left }

def start (data : List UInt8) : Serve := head ⟨0, data.length, .write⟩

def written (s : Serve) : Except Errno ℕ → Serve
  | .ok n =>
    if n > 0 then head { s with p := s.p + n, len := s.len - n } else { s with place := .left }
  | .error e =>
    if e = .EINTR then s.head
    else if e = .EAGAIN then { s with place := .poll }
    else { s with place := .left }

def polled (s : Serve) : Except Errno PollResult → Serve
  | .ok (.ready _) => s.head
  | _ => { s with place := .left }

end Serve

/-! ## The loop of `drain_fd` -/

/-- `resize` of a vector, which adds zeros. -/
def resize (buf : List UInt8) (n : ℕ) : List UInt8 :=
  buf.take n ++ List.replicate (n - buf.length) 0

/-- The buffer when bytes are stored in it from an index on. -/
def store (buf : List UInt8) (i : ℕ) (bytes : List UInt8) : List UInt8 :=
  buf.take i ++ bytes ++ buf.drop (i + bytes.length)

def chunk : ℕ := 64 * 1024

structure Drain where
  buf : List UInt8
  returned : Bool
  deriving DecidableEq

/-- The buffer grows by a chunk before the read and shrinks to what was read. -/
def Drain.read (d : Drain) (r : Except Errno (List UInt8)) : Drain :=
  let old := d.buf.length
  let buf := resize d.buf (old + chunk)
  match r with
  | .ok bytes =>
    if bytes.length > 0 then { d with buf := resize (store buf old bytes) (old + bytes.length) }
    else ⟨resize buf old, true⟩
  | .error e =>
    if e = .EINTR then { d with buf := resize buf old } else ⟨resize buf old, true⟩

/-! ## The pipe between them -/

structure System where
  serve : Serve
  pipe : List UInt8
  drain : Drain
  deriving DecidableEq

def System.initial (data : List UInt8) : System := ⟨.start data, [], ⟨[], false⟩⟩

inductive Event
  | write (r : Except Errno ℕ)
  | poll (r : Except Errno PollResult)
  | close
  | read (r : Except Errno (List UInt8))
  deriving DecidableEq

/-- A write stores at most what there is room for, and may fail. A read takes bytes that are in
the pipe, at most a chunk, and waits while there are none until the write end is closed; it may be
interrupted. -/
def Allows (capacity : ℕ) (s : System) : Event → Prop
  | .write (.ok n) =>
    s.serve.place = .write ∧ n ≤ s.serve.len ∧ s.pipe.length + n ≤ capacity
  | .write (.error _) => s.serve.place = .write
  | .poll _ => s.serve.place = .poll
  | .close => s.serve.place = .left
  | .read (.ok bytes) =>
    s.drain.returned = false ∧ bytes <+: s.pipe ∧ bytes.length ≤ chunk ∧
      (bytes = [] → s.pipe = [] ∧ s.serve.place = .closed)
  | .read (.error e) => s.drain.returned = false ∧ e = .EINTR

instance (capacity : ℕ) (s : System) : (e : Event) → Decidable (Allows capacity s e)
  | .write (.ok _) => inferInstanceAs (Decidable (_ ∧ _))
  | .write (.error _) => inferInstanceAs (Decidable (_ = _))
  | .poll _ => inferInstanceAs (Decidable (_ = _))
  | .close => inferInstanceAs (Decidable (_ = _))
  | .read (.ok _) => inferInstanceAs (Decidable (_ ∧ _))
  | .read (.error _) => inferInstanceAs (Decidable (_ ∧ _))

def next (data : List UInt8) (s : System) : Event → System
  | .write r =>
    { s with
      serve := s.serve.written r
      pipe := s.pipe ++ (data.drop s.serve.p).take (r.toOption.getD 0) }
  | .poll r => { s with serve := s.serve.polled r }
  | .close => { s with serve := { s.serve with place := .closed } }
  | .read r =>
    { s with pipe := s.pipe.drop (r.toOption.getD []).length, drain := s.drain.read r }

def run (data : List UInt8) (capacity : ℕ) : System → List Event → Option System
  | s, [] => some s
  | s, e :: es => if Allows capacity s e then run data capacity (next data s e) es else none

/-! ## What the loops keep -/

section

variable {data : List UInt8} {capacity : ℕ} {s s' : System} {e : Event} {es : List Event}

theorem grown_eq (buf : List UInt8) (n : ℕ) :
    resize buf (buf.length + n) = buf ++ List.replicate n 0 := by
  rw [resize, List.take_of_length_le (Nat.le_add_right _ _), Nat.add_sub_cancel_left]

theorem resize_grown (buf : List UInt8) (n : ℕ) :
    resize (resize buf (buf.length + n)) buf.length = buf := by
  rw [grown_eq, resize, List.take_left]
  simp

theorem store_grown (buf bytes : List UInt8) (n : ℕ) :
    resize (store (resize buf (buf.length + n)) buf.length bytes) (buf.length + bytes.length) =
      buf ++ bytes := by
  rw [grown_eq, store, List.take_left, resize, ← List.length_append, List.take_left]
  simp

/-- A read adds just the bytes that it got. -/
theorem Drain.read_bytes (d : Drain) {bytes : List UInt8} (hne : bytes ≠ []) :
    d.read (.ok bytes) = { d with buf := d.buf ++ bytes } := by
  have hpos : bytes.length > 0 := List.length_pos_iff.mpr hne
  simp only [Drain.read, if_pos hpos, store_grown]

theorem Drain.read_end (d : Drain) : d.read (.ok []) = ⟨d.buf, true⟩ := by
  simp [Drain.read, resize_grown]

theorem Drain.read_interrupted (d : Drain) : d.read (.error .EINTR) = d := by
  simp [Drain.read, resize_grown]

@[simp] theorem Serve.head_p (v : Serve) : v.head.p = v.p := rfl

@[simp] theorem Serve.head_len (v : Serve) : v.head.len = v.len := rfl

theorem Serve.head_more (v : Serve) : v.head.place = .write ∨ v.head.place = .poll → 0 < v.len := by
  rw [Serve.head]
  split_ifs with h
  · exact fun _ => h
  · rintro (hplace | hplace) <;> cases hplace

/-- What was written is in the buffer or in the pipe, in order, and no more than has room. -/
structure Exact (data : List UInt8) (capacity : ℕ) (s : System) : Prop where
  span : s.serve.p + s.serve.len = data.length
  bytes : s.drain.buf ++ s.pipe = data.take s.serve.p
  room : s.pipe.length ≤ capacity
  more : s.serve.place = .write ∨ s.serve.place = .poll → 0 < s.serve.len
  ended : s.drain.returned = true → s.pipe = [] ∧ s.serve.place = .closed

theorem initial_exact (data : List UInt8) (capacity : ℕ) : Exact data capacity (.initial data) := by
  refine ⟨Nat.zero_add _, rfl, Nat.zero_le _, Serve.head_more _, nofun⟩

/-- A part of the server that does not move its pointer. -/
theorem Exact.serve (h : Exact data capacity s) {v : Serve} (hopen : s.serve.place ≠ .closed)
    (hp : v.p = s.serve.p) (hlen : v.len = s.serve.len)
    (hmore : v.place = .write ∨ v.place = .poll → 0 < v.len) :
    Exact data capacity { s with serve := v } := by
  refine ⟨?_, ?_, h.room, hmore, fun hended => absurd (h.ended hended).2 hopen⟩
  · rw [hp, hlen]
    exact h.span
  · rw [hp]
    exact h.bytes

theorem Serve.written_ok (v : Serve) (n : ℕ) : (v.written (.ok n)).p = v.p + n ∧
    (v.written (.ok n)).len = v.len - n ∧
    ((v.written (.ok n)).place = .write ∨ (v.written (.ok n)).place = .poll →
      0 < (v.written (.ok n)).len) := by
  rw [Serve.written]
  split_ifs with hn
  · exact ⟨rfl, rfl, Serve.head_more _⟩
  · obtain rfl : n = 0 := Nat.eq_zero_of_not_pos hn
    exact ⟨rfl, rfl, by simp⟩

theorem Exact.wrote (h : Exact data capacity s) {n : ℕ}
    (hallowed : Allows capacity s (.write (.ok n))) :
    Exact data capacity (next data s (.write (.ok n))) := by
  obtain ⟨hplace, hn, hroom⟩ := hallowed
  obtain ⟨hp, hlen, hmore⟩ := s.serve.written_ok n
  have hspan := h.span
  have hpipe : ((data.drop s.serve.p).take n).length = n := by
    rw [List.length_take, List.length_drop]
    omega
  have hnext : next data s (.write (.ok n)) = { s with
      serve := s.serve.written (.ok n), pipe := s.pipe ++ (data.drop s.serve.p).take n } := rfl
  rw [hnext]
  refine ⟨?_, ?_, ?_, hmore, fun hended => ?_⟩
  · rw [hp, hlen]
    omega
  · rw [hp, ← List.append_assoc, h.bytes, List.take_add]
  · rw [List.length_append, hpipe]
    exact hroom
  · have hclosed := (h.ended hended).2
    rw [hplace] at hclosed
    cases hclosed

theorem Exact.write_failed (h : Exact data capacity s) {e : Errno} (hplace : s.serve.place = .write) :
    Exact data capacity (next data s (.write (.error e))) := by
  have hpipe : next data s (.write (.error e)) =
      { s with serve := s.serve.written (.error e) } := by
    simp [next, Except.toOption]
  rw [hpipe]
  have hlen := h.more (.inl hplace)
  have hopen : s.serve.place ≠ .closed := by simp [hplace]
  rw [Serve.written]
  split_ifs
  · exact h.serve hopen rfl rfl (Serve.head_more _)
  · exact h.serve hopen rfl rfl fun _ => hlen
  · exact h.serve hopen rfl rfl (by simp)

theorem Exact.polled (h : Exact data capacity s) {r : Except Errno PollResult}
    (hplace : s.serve.place = .poll) : Exact data capacity (next data s (.poll r)) := by
  have hopen : s.serve.place ≠ .closed := by simp [hplace]
  rcases r with e | _ | pollin
  · exact h.serve hopen rfl rfl (by simp [Serve.polled])
  · exact h.serve hopen rfl rfl (by simp [Serve.polled])
  · exact h.serve hopen rfl rfl (Serve.head_more _)

theorem Exact.close (h : Exact data capacity s) (hplace : s.serve.place = .left) :
    Exact data capacity (next data s .close) :=
  h.serve (by simp [hplace]) rfl rfl (by simp)

theorem Exact.read (h : Exact data capacity s) {r : Except Errno (List UInt8)}
    (hallowed : Allows capacity s (.read r)) : Exact data capacity (next data s (.read r)) := by
  rcases r with e | bytes
  · obtain ⟨-, rfl⟩ := hallowed
    have hsame : next data s (.read (.error .EINTR)) = s := by
      simp [next, Except.toOption, Drain.read_interrupted]
    rw [hsame]
    exact h
  · obtain ⟨hreturned, ⟨rest, hrest⟩, hchunk, hend⟩ := hallowed
    by_cases hne : bytes = []
    · subst hne
      obtain ⟨hpipe, hclosed⟩ := hend rfl
      have hnext : next data s (.read (.ok [])) = { s with drain := ⟨s.drain.buf, true⟩ } := by
        simp [next, Except.toOption, Drain.read_end]
      rw [hnext]
      exact ⟨h.span, h.bytes, h.room, h.more, fun _ => ⟨hpipe, hclosed⟩⟩
    · have hnext : next data s (.read (.ok bytes)) =
          { s with pipe := rest, drain := { s.drain with buf := s.drain.buf ++ bytes } } := by
        simp [next, Except.toOption, Drain.read_bytes s.drain hne, ← hrest]
      rw [hnext]
      refine ⟨h.span, ?_, ?_, h.more, fun hended => absurd hended (by simp [hreturned])⟩
      · rw [List.append_assoc, hrest]
        exact h.bytes
      · have hroom := h.room
        rw [← hrest, List.length_append] at hroom
        exact Nat.le_trans (Nat.le_add_left _ _) hroom

theorem exact_next (h : Exact data capacity s) (hallowed : Allows capacity s e) :
    Exact data capacity (next data s e) := by
  cases e with
  | write r =>
      cases r with
      | ok n => exact h.wrote hallowed
      | error e => exact h.write_failed hallowed
  | poll r => exact h.polled hallowed
  | close => exact h.close hallowed
  | read r => exact h.read hallowed

theorem run_cons (h : run data capacity s (e :: es) = some s') :
    Allows capacity s e ∧ run data capacity (next data s e) es = some s' := by
  rw [run] at h
  split_ifs at h with hallowed
  exact ⟨hallowed, h⟩

theorem exact_run (h : Exact data capacity s) (hrun : run data capacity s es = some s') :
    Exact data capacity s' := by
  induction es generalizing s with
  | nil => exact Option.some.inj hrun ▸ h
  | cons e es ih =>
      obtain ⟨hallowed, hrest⟩ := run_cons hrun
      exact ih (exact_next h hallowed) hrest

/-! ## The end of a complete transfer -/

def Interrupted (e : Event) : Prop := e = .read (.error .EINTR) ∨ e = .write (.error .EINTR)

instance (e : Event) : Decidable (Interrupted e) := inferInstanceAs (Decidable (_ ∨ _))

/-- Nothing can happen but interruptions. -/
def Settled (capacity : ℕ) (s : System) : Prop := ∀ e, Allows capacity s e → Interrupted e

/-- How many more calls there can be once all is written. -/
def remaining (s : System) : ℕ :=
  s.pipe.length + (if s.serve.place = .closed then 0 else 1) +
    if s.drain.returned = true then 0 else 1

theorem Exact.place (h : Exact data capacity s) (hlen : s.serve.len = 0) :
    s.serve.place = .left ∨ s.serve.place = .closed := by
  have hmore := h.more
  cases hplace : s.serve.place with
  | write => exact absurd (hmore (.inl hplace)) (by omega)
  | poll => exact absurd (hmore (.inr hplace)) (by omega)
  | left => exact .inl rfl
  | closed => exact .inr rfl

/-- Where all is written and no call is left, the drain has returned. -/
theorem Exact.returned (h : Exact data capacity s) (hlen : s.serve.len = 0)
    (hsettled : Settled capacity s) : s.drain.returned = true := by
  by_contra hreturned
  rw [Bool.not_eq_true] at hreturned
  rcases h.place hlen with hleft | hclosed
  · rcases hsettled .close hleft with heq | heq <;> cases heq
  · have hread : Allows capacity s (.read (.ok (s.pipe.take 1))) := by
      refine ⟨hreturned, List.take_prefix 1 s.pipe, ?_, fun hnil => ⟨?_, hclosed⟩⟩
      · exact Nat.le_trans (List.length_take_le 1 s.pipe) (by decide)
      · rcases hpipe : s.pipe with _ | ⟨b, pipe⟩
        · rfl
        · rw [hpipe] at hnil
          cases hnil
    rcases hsettled _ hread with heq | heq <;> cases heq

/-- Every call but an interrupted one brings the end nearer. -/
theorem Exact.next_remaining (h : Exact data capacity s) (hlen : s.serve.len = 0)
    (hallowed : Allows capacity s e) : (next data s e).serve.len = 0 ∧
      remaining (next data s e) + (if Interrupted e then 0 else 1) ≤ remaining s := by
  have hplace := h.place hlen
  cases e with
  | write r =>
      have hwrite : s.serve.place = .write := by
        cases r with
        | ok n => exact hallowed.1
        | error e => exact hallowed
      rw [hwrite] at hplace
      rcases hplace with hplace | hplace <;> cases hplace
  | poll r =>
      rw [show s.serve.place = .poll from hallowed] at hplace
      rcases hplace with hplace | hplace <;> cases hplace
  | close =>
      refine ⟨hlen, ?_⟩
      have hleft : s.serve.place = .left := hallowed
      cases hreturned : s.drain.returned <;>
        simp [remaining, next, Interrupted, hleft, hreturned]
  | read r =>
      refine ⟨hlen, ?_⟩
      rcases r with err | bytes
      · obtain ⟨-, rfl⟩ := hallowed
        simp [remaining, next, Interrupted, Except.toOption, Drain.read_interrupted]
      · obtain ⟨hreturned, ⟨rest, hrest⟩, -, hend⟩ := hallowed
        by_cases hne : bytes = []
        · subst hne
          simp [remaining, next, Interrupted, Except.toOption, Drain.read_end,
            hreturned]
        · have hpos := List.length_pos_iff.mpr hne
          simp only [remaining, next, Interrupted, Except.toOption,
            Drain.read_bytes s.drain hne, ← hrest, Option.getD_some, List.drop_left,
            List.length_append, hreturned]
          simp
          omega

theorem Exact.run_remaining (h : Exact data capacity s) (hlen : s.serve.len = 0)
    (hrun : run data capacity s es = some s') :
    (es.filter fun e => ¬ Interrupted e).length + remaining s' ≤ remaining s := by
  induction es generalizing s with
  | nil =>
      cases hrun
      simp
  | cons e es ih =>
      obtain ⟨hallowed, hrest⟩ := run_cons hrun
      obtain ⟨hlen', hless⟩ := h.next_remaining hlen hallowed
      have hmore := ih (exact_next h hallowed) hlen' hrest
      by_cases hinterrupted : Interrupted e
      · rw [List.filter_cons_of_neg (by simpa using hinterrupted)]
        rw [if_pos hinterrupted] at hless
        omega
      · rw [List.filter_cons_of_pos (by simpa using hinterrupted), List.length_cons]
        rw [if_neg hinterrupted] at hless
        omega

/-! ## The programs -/

/-- The replies that the drain has had. -/
def Event.readReplies : Event → List Reply
  | .read r => [.read r]
  | _ => []

/-- The replies that the server has had. -/
def Event.serveReplies : Event → List Reply
  | .write (.ok n) => [.write (.wrote n)]
  | .write (.error e) => [.write (.failed e)]
  | .poll r => [.poll r]
  | _ => []

theorem next_drain (hreturned : s.drain.returned = true) (hallowed : Allows capacity s e) :
    (next data s e).drain = s.drain ∧ e.readReplies = [] := by
  cases e with
  | read r =>
      cases r with
      | ok bytes => exact absurd hallowed.1 (by simp [hreturned])
      | error e => exact absurd hallowed.1 (by simp [hreturned])
  | _ => exact ⟨rfl, rfl⟩

theorem run_drain (hreturned : s.drain.returned = true) (hrun : run data capacity s es = some s') :
    s'.drain = s.drain ∧ es.flatMap Event.readReplies = [] := by
  induction es generalizing s with
  | nil => exact ⟨Option.some.inj hrun ▸ rfl, rfl⟩
  | cons e es ih =>
      obtain ⟨hallowed, hrest⟩ := run_cons hrun
      obtain ⟨hsame, hreplies⟩ := @next_drain data _ _ _ hreturned hallowed
      obtain ⟨hsame', hreplies'⟩ := ih (hsame ▸ hreturned) hrest
      exact ⟨hsame'.trans hsame, by rw [List.flatMap_cons, hreplies, hreplies', List.append_nil]⟩

/-- The drain makes of its replies what `drain_fd` makes of them. -/
theorem run_drained (hreturned : s.drain.returned = false)
    (hrun : run data capacity s es = some s') (rest : List Reply) :
    Process.drained s.drain.buf (es.flatMap Event.readReplies ++ rest) =
      if s'.drain.returned = true then some s'.drain.buf
      else Process.drained s'.drain.buf rest := by
  induction es generalizing s with
  | nil =>
      cases hrun
      rw [if_neg (by simp [hreturned])]
      rfl
  | cons e es ih =>
      obtain ⟨hallowed, hrest⟩ := run_cons hrun
      cases e with
      | read r =>
          rcases r with err | bytes
          · obtain ⟨-, rfl⟩ := hallowed
            have hsame : (next data s (.read (.error .EINTR))).drain = s.drain :=
              s.drain.read_interrupted
            have hnext := ih (hsame ▸ hreturned) hrest
            rw [hsame] at hnext
            exact hnext
          · by_cases hne : bytes = []
            · subst hne
              have hend : (next data s (.read (.ok []))).drain = ⟨s.drain.buf, true⟩ :=
                s.drain.read_end
              have hdone := run_drain (by rw [hend]) hrest
              rw [hdone.1, hend, if_pos rfl]
              rfl
            · have hmore : (next data s (.read (.ok bytes))).drain =
                  { s.drain with buf := s.drain.buf ++ bytes } := s.drain.read_bytes hne
              have hnext := ih (by rw [hmore]; exact hreturned) hrest
              rw [hmore] at hnext
              rw [← hnext]
              simp [Event.readReplies, Process.drained, Reply.read?, Process.drainNext, hne]
      | write r => exact ih (s := next data s (.write r)) hreturned hrest
      | poll r => exact ih (s := next data s (.poll r)) hreturned hrest
      | close => exact ih (s := next data s .close) hreturned hrest

variable {fd : Int} {log : List Action} {whole : Bool}

/-- The calls are a transfer that ends with all written or not. -/
def Ends (fd : Int) (data : List UInt8) (log : List Action) (whole : Bool) : Prop :=
  ∃ out e, Process.Transfer fd data log out e ∧ e ≠ .broken ∧ (e = .complete ↔ whole = true)

/-- The calls that the server has still to make. -/
def Calls (fd : Int) (data : List UInt8) (v : Serve) (log : List Action) (whole : Bool) : Prop :=
  match v.place with
  | .write => Ends fd (data.drop v.p) log whole
  | .poll => Ends fd (data.drop v.p)
      (.call (.write fd (data.drop v.p)) (.write (.failed .EAGAIN)) :: log) whole
  | _ => log = [] ∧ whole = decide (v.len = 0)

theorem Calls.of_head {v : Serve} (hspan : v.p + v.len = data.length)
    (h : Calls fd data v.head log whole) : Ends fd (data.drop v.p) log whole := by
  by_cases hlen : v.len > 0
  · have hplace : v.head.place = .write := if_pos hlen
    rw [Calls, hplace] at h
    exact h
  · have hplace : v.head.place = .left := if_neg hlen
    rw [Calls, hplace] at h
    obtain ⟨rfl, hwhole⟩ := h
    have hzero : v.len = 0 := Nat.eq_zero_of_not_pos hlen
    have hnil : data.drop v.p = [] := List.drop_eq_nil_of_le (by omega)
    rw [hnil]
    exact ⟨[], .complete, .complete, by simp, by simp [hwhole, hzero]⟩

theorem calls_left {v : Serve} (hlen : 0 < v.len)
    (h : Calls fd data { v with place := .left } log whole) : log = [] ∧ whole = false :=
  ⟨h.1, h.2.trans (decide_eq_false (Nat.pos_iff_ne_zero.mp hlen))⟩

/-- What a write comes to, and the calls after it, are the calls from the write on. -/
theorem calls_written (h : Exact data capacity s) (hplace : s.serve.place = .write)
    {r : Except Errno ℕ} (hn : ∀ n, r = .ok n → n ≤ s.serve.len)
    (hcalls : Calls fd data (s.serve.written r) log whole) :
    ∃ log', log'.filterMap Action.reply = (Event.write r).serveReplies ++
        log.filterMap Action.reply ∧ Calls fd data s.serve log' whole := by
  have hspan := h.span
  have hlen := h.more (.inl hplace)
  have hdata : data.drop s.serve.p ≠ [] := by
    rw [Ne, List.drop_eq_nil_iff]
    omega
  rw [Serve.written.eq_def] at hcalls
  rcases r with e | n
  · by_cases hintr : e = .EINTR
    · subst hintr
      obtain ⟨out, e, htransfer, hends⟩ := Calls.of_head hspan hcalls
      refine ⟨.call (.write fd (data.drop s.serve.p)) (.write (.failed .EINTR)) :: log, rfl, ?_⟩
      rw [Calls, hplace]
      exact ⟨out, e, .interrupted hdata htransfer, hends⟩
    by_cases hagain : e = .EAGAIN
    · subst hagain
      refine ⟨.call (.write fd (data.drop s.serve.p)) (.write (.failed .EAGAIN)) :: log, rfl, ?_⟩
      rw [Calls, hplace]
      exact hcalls
    · simp only [if_neg hintr, if_neg hagain] at hcalls
      obtain ⟨rfl, rfl⟩ := calls_left hlen hcalls
      refine ⟨[.call (.write fd (data.drop s.serve.p)) (.write (.failed e))], rfl, ?_⟩
      rw [Calls, hplace]
      exact ⟨[], .dropped, .failed _ hdata (.inr ⟨e, rfl, hintr, hagain⟩), by simp, by simp⟩
  · have hle := hn n rfl
    refine ⟨.call (.write fd (data.drop s.serve.p)) (.write (.wrote n)) :: log, rfl, ?_⟩
    rw [Calls, hplace]
    by_cases hpos : n > 0
    · simp only [if_pos hpos] at hcalls
      obtain ⟨out, e, htransfer, hends⟩ := Calls.of_head (by
        change s.serve.p + n + (s.serve.len - n) = data.length
        omega) hcalls
      rw [← List.drop_drop] at htransfer
      exact ⟨_, e, .wrote n hdata hpos htransfer, hends⟩
    · obtain rfl : n = 0 := Nat.eq_zero_of_not_pos hpos
      simp only [if_neg hpos] at hcalls
      obtain ⟨rfl, rfl⟩ := calls_left hlen hcalls
      exact ⟨[], .dropped, .failed _ hdata (.inl rfl), by simp, by simp⟩

/-- What a poll comes to, and the calls after it, are the calls from the poll on. -/
theorem calls_polled (h : Exact data capacity s) (hplace : s.serve.place = .poll)
    {r : Except Errno PollResult} (hcalls : Calls fd data (s.serve.polled r) log whole) :
    Calls fd data s.serve (.call (.poll fd 5000) (.poll r) :: log) whole := by
  have hspan := h.span
  have hlen := h.more (.inr hplace)
  have hdata : data.drop s.serve.p ≠ [] := by
    rw [Ne, List.drop_eq_nil_iff]
    omega
  have htimedOut : (∀ pollin, r ≠ .ok (.ready pollin)) → log = [] → whole = false →
      Ends fd (data.drop s.serve.p) (.call (.write fd (data.drop s.serve.p))
        (.write (.failed .EAGAIN)) :: .call (.poll fd 5000) (.poll r) :: log) whole := by
    rintro hr rfl rfl
    exact ⟨[], .dropped, .timedOut r hdata hr, by simp, by simp⟩
  rw [Calls, hplace]
  rcases r with e | _ | pollin
  · obtain ⟨hlog, hwhole⟩ := calls_left hlen hcalls
    exact htimedOut nofun hlog hwhole
  · obtain ⟨hlog, hwhole⟩ := calls_left hlen hcalls
    exact htimedOut nofun hlog hwhole
  · obtain ⟨out, e, htransfer, hends⟩ := Calls.of_head hspan hcalls
    exact ⟨out, e, .waited pollin hdata htransfer, hends⟩

theorem calls_run (h : Exact data capacity s) (hrun : run data capacity s es = some s')
    (hclosed : s'.serve.place = .closed) : ∃ log, log.filterMap Action.reply =
      es.flatMap Event.serveReplies ∧ Calls fd data s.serve log (decide (s'.serve.len = 0)) := by
  induction es generalizing s with
  | nil =>
      cases hrun
      refine ⟨[], rfl, ?_⟩
      rw [Calls, hclosed]
      exact ⟨rfl, rfl⟩
  | cons e es ih =>
      obtain ⟨hallowed, hrest⟩ := run_cons hrun
      obtain ⟨log, hreplies, hcalls⟩ := ih (exact_next h hallowed) hrest
      rw [List.flatMap_cons, ← hreplies]
      cases e with
      | write r =>
          have hplace : s.serve.place = .write := by
            cases r with
            | ok n => exact hallowed.1
            | error e => exact hallowed
          refine calls_written h hplace (fun n hr => ?_) hcalls
          subst hr
          exact hallowed.2.1
      | poll r => exact ⟨_, rfl, calls_polled h hallowed hcalls⟩
      | close =>
          have hleft : s.serve.place = .left := hallowed
          refine ⟨log, rfl, ?_⟩
          rw [Calls, hleft]
          exact hcalls
      | read r => exact ⟨log, rfl, hcalls⟩

/-- The server of a run is `serve_send`, and all is written exactly if its transfer is complete. -/
theorem serve_runs (hrun : run data capacity (.initial data) es = some s)
    (hclosed : s.serve.place = .closed) (fd : Int) :
    ∃ log out e, Process.Transfer fd data log out e ∧ (e = .complete ↔ s.serve.len = 0) ∧
      ∀ (p : Process) (rest : List Reply), p.script = es.flatMap Event.serveReplies ++ rest →
        p.sigpipe = .default →
        Process.serveSend fd data p = (.ok (), p.after (Process.serveLog fd data log e) rest) := by
  have hexact := initial_exact data capacity
  obtain ⟨log, hreplies, hcalls⟩ := @calls_run data capacity _ _ _ fd hexact hrun hclosed
  have hall : Ends fd data log (decide (s.serve.len = 0)) := Calls.of_head (Nat.zero_add _) hcalls
  obtain ⟨out, e, htransfer, hbroken, hends⟩ := hall
  refine ⟨log, out, e, htransfer, hends.trans decide_eq_true_iff, fun p rest hs hsig => ?_⟩
  rw [← hreplies] at hs
  rw [Process.serveSend_of_transfer htransfer hs hsig, if_neg hbroken]

/-- The drain of a run is `drain_fd`. -/
theorem drain_runs (hrun : run data capacity (.initial data) es = some s)
    (hreturned : s.drain.returned = true) (fd : Int) {p : Process} {rest : List Reply}
    (hs : p.script = es.flatMap Event.readReplies ++ rest) :
    (Process.drainFd fd p).1 = .ok s.drain.buf := by
  obtain ⟨log, rest', hdrain, -⟩ := Process.drainFd_eq fd p
  have hdrained := run_drained rfl hrun rest
  rw [if_pos hreturned] at hdrained
  rw [hdrain, hs]
  exact congrArg (Process.drainResult fd) hdrained

/-- In every run the bytes of the drain and then those of the pipe are what was written so far, the
first bytes of the payload, and the pipe holds no more than it has room for. Once nothing is left
to write, the drain returns the payload if it returns. It does: but for interruptions there are at
most two more calls than bytes in the pipe, and it has returned when there are none. -/
theorem transfer_exact (hrun : run data capacity (.initial data) es = some s) :
    s.drain.buf ++ s.pipe <+: data ∧ s.drain.buf ++ s.pipe = data.take s.serve.p ∧
    s.serve.p + s.serve.len = data.length ∧ s.pipe.length ≤ capacity ∧
    (s.serve.len = 0 →
      (s.drain.returned = true → s.drain.buf = data ∧ ∀ fd (p : Process) rest,
        p.script = es.flatMap Event.readReplies ++ rest →
          (Process.drainFd fd p).1 = .ok data) ∧
      (Settled capacity s → s.drain.returned = true) ∧
      ∀ es' s', run data capacity s es' = some s' →
        (es'.filter fun e => ¬ Interrupted e).length ≤ s.pipe.length + 2) := by
  have hexact := exact_run (initial_exact data capacity) hrun
  have hspan := hexact.span
  refine ⟨hexact.bytes ▸ List.take_prefix _ _, hexact.bytes, hspan, hexact.room, fun hlen => ?_⟩
  refine ⟨fun hreturned => ?_, hexact.returned hlen, fun es' s' hrun' => ?_⟩
  · have hall : s.drain.buf = data := by
      have hbytes := hexact.bytes
      rw [(hexact.ended hreturned).1, List.append_nil] at hbytes
      rw [hbytes, List.take_of_length_le (by omega)]
    exact ⟨hall, fun fd p rest hs => hall ▸ drain_runs hrun hreturned fd hs⟩
  · have hless := hexact.run_remaining hlen hrun'
    have hremaining : remaining s ≤ s.pipe.length + 2 := by
      rw [remaining]
      split_ifs <;> omega
    omega

/-! ### Through a pipe of one byte -/

/-- Two bytes, with a full pipe, a poll and interruptions. -/
def narrow : List Event :=
  [.write (.error .EINTR), .write (.ok 1), .write (.error .EAGAIN), .read (.error .EINTR),
    .read (.ok [0x68]), .poll (.ok (.ready true)), .write (.ok 1), .close, .read (.ok [0x69]),
    .read (.ok [])]

theorem transfer_exact_narrow :
    (Process.drainFd 7 (.fresh (narrow.flatMap Event.readReplies))).1 = .ok [0x68, 0x69] := by
  have hrun : run [0x68, 0x69] 1 (.initial [0x68, 0x69]) narrow =
      some ⟨⟨2, 0, .closed⟩, [], ⟨[0x68, 0x69], true⟩⟩ := by
    simp [narrow, run, Allows, next, System.initial, Serve.start, Serve.head, Serve.written,
      Serve.polled, Drain.read_bytes, Drain.read_end, Drain.read_interrupted, chunk,
      Except.toOption]
  obtain ⟨-, -, -, -, hend⟩ := transfer_exact hrun
  exact ((hend rfl).1 rfl).2 7 _ [] (List.append_nil _).symm

end

end WlClip.PipeTransfer
