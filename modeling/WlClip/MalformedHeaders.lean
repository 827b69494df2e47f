import WlClip.ConnectionSteps
import WlClip.DispatchSteps
import WlClip.HandcraftedScript
import Mathlib.Logic.Relation

/-!
# Malformed headers

A header whose length field is below 8 reads as an incomplete message. `dispatch_until` then waits
for more bytes behind it, unless what it has queued cannot be sent. While no such header comes to
the front of the buffer the loop reads only behind a part of a message.
-/

open ScriptedProgram ScriptedProgram.Prog LittleEndian

namespace WlClip

def Malformed (buf : List UInt8) : Prop :=
  8 ≤ buf.length ∧ lengthField (loadU32 (buf.drop 4)) < 8

/-- Nothing, or a part of a message whose length is at least 8 or not yet known. -/
def Incomplete (buf : List UInt8) : Prop :=
  buf.length < 8 ∨
    8 ≤ lengthField (loadU32 (buf.drop 4)) ∧ buf.length < lengthField (loadU32 (buf.drop 4))

instance (buf : List UInt8) : Decidable (Malformed buf) := inferInstanceAs (Decidable (_ ∧ _))

theorem Malformed.head {buf : List UInt8} (h : Malformed buf) : headMessage buf = none := by
  rw [headMessage_eq_none, peekMessageSize, if_neg (Nat.not_lt.mpr h.1)]
  exact if_pos h.2

theorem Malformed.append {buf : List UInt8} (h : Malformed buf) (rest : List UInt8) :
    Malformed (buf ++ rest) := by
  have hdrop : 4 ≤ (buf.drop 4).length := by
    have hlen := h.1
    rw [List.length_drop]
    omega
  constructor
  · have hlen := h.1
    rw [List.length_append]
    omega
  · rw [List.drop_append_of_le_length (by have := h.1; omega), loadU32_append hdrop]
    exact h.2

theorem incomplete_of_head {buf : List UInt8} (hnone : headMessage buf = none)
    (h : ¬ Malformed buf) : Incomplete buf := by
  rw [headMessage_eq_none, peekMessageSize] at hnone
  unfold Malformed at h
  unfold Incomplete
  by_cases hlen : buf.length < 8
  · exact .inl hlen
  · right
    simp only [hlen, if_false] at hnone
    split_ifs at hnone <;> omega

/-- A stream in which no malformed header follows the complete messages. -/
def Sound (bytes : List UInt8) : Prop := ¬ Malformed (Message.framing.split bytes).2

def Reply.sent? : Reply → Option (Except Errno ℕ)
  | .sendmsg r => some r
  | _ => none

theorem Reply.sent?_eq {reply : Reply} {r : Except Errno ℕ} (h : reply.sent? = some r) :
    reply = .sendmsg r := by
  cases reply with
  | sendmsg r =>
      cases h
      rfl
  | _ => cases h

def Action.waited : Action → List Call
  | .call (.poll fd timeout) _ => [.poll fd timeout]
  | .call (.recvmsg fd) _ => [.recvmsg fd]
  | _ => []

namespace Process

def waited (p : Process) : List Call := p.observe Action.waited

end Process

namespace Connection

/-- Whether a flush of so many bytes and descriptors fails with the replies to come. -/
def refuses : List Reply → ℕ → ℕ → Bool
  | [], bytes, fds => bytes = 0 && 0 < fds
  | r :: replies, bytes, fds =>
    if bytes = 0 then 0 < fds
    else
      match r.sent? with
      | none => false
      | some (.error e) => e ≠ .EINTR || refuses replies bytes fds
      | some (.ok n) => refuses replies (bytes - n) (fds - min fds kMaxFdsPerMsg)

theorem refuses_nothing {replies : List Reply} {fds : ℕ} :
    refuses replies 0 fds = (0 < fds : Bool) := by
  cases replies <;> simp [refuses]

theorem flush_nothing {c : Connection} (hbuf : c.outBuf = []) :
    (flush c).1 = .ok false ↔ 0 < c.outFds.length := by
  have hround := flushRound_eq c
  by_cases hfds : c.outFds = []
  · rw [if_pos ⟨hbuf, hfds⟩] at hround
    simp [flush, loop_return flushRound_shrinks hround, hfds]
  · rw [if_neg fun h => hfds h.2, if_pos hbuf] at hround
    simp [flush, loop_return flushRound_shrinks hround, List.length_pos_iff, hfds]

theorem sendmsg_blocked {fd : Int} {bytes : List UInt8} {fds : List Int} {p : Process}
    (hs : ∀ r rest, p.script = r :: rest → r.sent? = none) :
    Process.sendmsg fd bytes fds p = (.error (.waiting (.sendmsg fd bytes fds)), p) :=
  Process.ask_blocked fun r rest hr => by
    have hnone := hs r rest hr
    cases r with
    | sendmsg r => cases hnone
    | _ => rfl

/-- A flush fails exactly if the results of its calls say so. -/
theorem flush_refuses (c : Connection) :
    (flush c).1 = .ok false ↔ refuses c.script c.outBuf.length c.outFds.length = true := by
  induction hscript : c.script generalizing c with
  | nil =>
      by_cases hbuf : c.outBuf = []
      · rw [flush_nothing hbuf, hbuf, List.length_nil, refuses_nothing, decide_eq_true_iff]
      · have hround := flushRound_eq c
        rw [if_neg fun h => hbuf h.1, if_neg hbuf, sendmsg_blocked (by simp [hscript])] at hround
        simp [flush, loop_error flushRound_shrinks hround, refuses, hbuf]
  | cons r rest ih =>
      by_cases hbuf : c.outBuf = []
      · rw [flush_nothing hbuf, hbuf, List.length_nil, refuses_nothing, decide_eq_true_iff]
      have hpos : 0 < c.outBuf.length := List.length_pos_iff.mpr hbuf
      rw [refuses, if_neg (Nat.pos_iff_ne_zero.mp hpos)]
      rcases hr : r.sent? with _ | (e | n)
      · have hround := flushRound_eq c
        rw [if_neg fun h => hbuf h.1, if_neg hbuf, sendmsg_blocked (by simp [hscript, hr])] at hround
        simp [flush, loop_error flushRound_shrinks hround]
      · obtain rfl : r = .sendmsg (.error e) := Reply.sent?_eq hr
        obtain ⟨q, hq, hround⟩ := flushRound_sendmsg hpos hscript
        by_cases he : e = .EINTR
        · subst he
          have hnext : flush c = flush { c with toProcess := q } := loop_next flushRound_shrinks hround
          have hih := ih { c with toProcess := q } hq
          rw [hnext, hih]
          simp
        · have hstop : flush c = (.ok false, { c with toProcess := q }) :=
            loop_return flushRound_shrinks (by cases e <;> first | exact absurd rfl he | exact hround)
          simp [hstop, he]
      · obtain rfl : r = .sendmsg (.ok n) := Reply.sent?_eq hr
        obtain ⟨q, hq, hround⟩ := flushRound_sendmsg hpos hscript
        have hnext : flush c = flush (sent n (min c.outFds.length kMaxFdsPerMsg)
            { c with toProcess := q }) := loop_next flushRound_shrinks hround
        have hih := ih (sent n (min c.outFds.length kMaxFdsPerMsg) { c with toProcess := q }) hq
        rw [hnext, hih]
        simp [sent]

def Unwaited (c c' : Connection) : Prop := c'.waited = c.waited

theorem flush_unwaited : Within Unwaited flush := fun c =>
  (flush_moves c).observe_eq fun _ ha => by cases ha <;> rfl

end Connection

namespace Client

variable {σ α : Type} {predicate : σ → Bool} {d : Dispatcher σ} {cl cl' : Client σ}

def Begun (log : List Action) (cl : Client σ) : Prop := log <+: cl.trace

theorem Begun.logs {log : List Action} {A : Action → Prop} (h : Begun log cl)
    (hlogs : Process.Logs A cl.toProcess cl'.toProcess) : Begun log cl' := by
  obtain ⟨more, htrace, -⟩ := hlogs.log
  exact List.IsPrefix.trans h ⟨more, htrace.symm⟩

theorem quiet_begun {log : List Action} {p : Prog Halt Connection α}
    (h : Within Connection.Quiet p) : Keeps (Begun log) (onConn (σ := σ) p) :=
  quiet_triple (fun _ _ h hq => h.logs hq.1.logs) h

theorem dispatchUntil_begun (log : List Action) : Keeps (Begun log) (dispatchUntil predicate d) := by
  refine (dispatchUntil_keeps (I := Begun log) (fun _ _ h hq => h.logs hq.1.logs) fun m => ?_).conseq
    (fun _ h => h) (fun _ _ h => h.1) fun _ _ h => h
  have hhandle := (d.steady m.objectId m.opcode (.new m.objectId m.opcode m.payload)).keeps
    (I := Begun log) fun _ _ hs h => h.logs hs.logs
  exact (deliver_triple (P := Begun log) (Q := Begun log) hhandle).pre
    fun cl h => h.trans (List.prefix_append _ _)

theorem receiveRound_polls {r : Unit ⊕ Bool} (h : receiveRound cl = (.ok r, cl')) :
    ∃ reply, Begun (cl.trace ++ [.call (.poll cl.sock (-1)) reply]) cl' := by
  obtain ⟨ready, cl₁, hwait, h⟩ := bind_eq_ok h
  rcases hq : Process.poll cl.sock (-1) cl.toProcess with ⟨e | res, q⟩
  · simp [onConn, Connection.waitReadable, bind_apply, Connection.sys, hq] at hwait
  obtain ⟨reply, rest, -, -, rfl⟩ := Process.ask_ok hq
  have htrace : cl₁.trace = cl.trace ++ [.call (.poll cl.sock (-1)) reply] := by
    simp only [onConn, Prog.zoom_apply, Connection.waitReadable, bind_apply, Prog.read_apply,
      Connection.sys, hq] at hwait
    rcases res with e | _ | pollin <;> cases hwait <;> rfl
  refine ⟨reply, ?_⟩
  rw [← htrace]
  have hkeeps : Keeps (Begun cl₁.trace) (if ready = true then do
      let n ← onConn Connection.pump
      if n < 0 then return .inr false
      else if n = 0 then return .inr false
      else return .inl ()
    else return .inr false : Prog Halt (Client σ) (Unit ⊕ Bool)) := by
    refine Triple.ite (fun _ => ?_) fun _ => Triple.pure _ fun _ h => h
    refine Triple.bind (quiet_begun Connection.pump_quiet) fun n => ?_
    exact Triple.ite (fun _ => Triple.pure _ fun _ h => h) fun _ =>
      Triple.ite (fun _ => Triple.pure _ fun _ h => h) fun _ => Triple.pure _ fun _ h => h
  exact hkeeps.ok h List.prefix_rfl

/-- `dispatch_until` has failed without waiting for the socket or receiving more. -/
def StopsUnread (cl : Client σ) (r : Except Halt Bool × Client σ) : Prop :=
  r.1 = .ok false ∧ r.2.inBuf = cl.inBuf ∧ r.2.waited = cl.waited

theorem not_stopsUnread {cl₁ : Client σ} {r : Except Halt Bool × Client σ} {reply : Reply}
    (hwaited : cl₁.waited = cl.waited)
    (h : Begun (cl₁.trace ++ [.call (.poll cl₁.sock (-1)) reply]) r.2) : ¬ StopsUnread cl r := by
  rintro ⟨-, -, hsame⟩
  obtain ⟨log, hlog⟩ := h
  have hlen := congrArg List.length (hsame.trans hwaited.symm)
  simp only [Process.waited, Process.observe, ← hlog, List.flatMap_append, List.length_append,
    List.flatMap_singleton, Action.waited, List.length_singleton] at hlen
  omega

theorem malformed_round {c : Connection} (hpred : predicate cl.st = false)
    (hmal : Malformed cl.inBuf) (hf : Connection.flush cl.toConnection = (.ok true, c)) :
    dispatchRound predicate d () cl = receiveRound { cl with toConnection := c } := by
  have hkeeps := Connection.flush_keepsInput.of_eq hf
  have hnone : headMessage { cl with toConnection := c }.inBuf = none := by
    rw [hkeeps.inBuf]
    exact hmal.head
  have hscan : scan predicate d { cl with toConnection := c } = (.ok .idle, _) :=
    loop_return (scanRound_shrinks predicate d) (scanRound_none predicate d false hnone)
  simp only [dispatchRound, bind_apply, Prog.read_apply, hpred, Bool.false_eq_true, if_false,
    onConn_eq hf, if_true, hscan]

theorem malformed_reads {c : Connection} (hpred : predicate cl.st = false)
    (hmal : Malformed cl.inBuf) (hf : Connection.flush cl.toConnection = (.ok true, c)) :
    ¬ StopsUnread cl (dispatchUntil predicate d cl) := by
  have hround := malformed_round (d := d) hpred hmal hf
  let cl₁ : Client σ := { cl with toConnection := c }
  have hwaited : cl₁.waited = cl.waited := Connection.flush_unwaited.of_eq hf
  rcases hr : receiveRound cl₁ with ⟨e | next, cl'⟩
  · have hrun : dispatchUntil predicate d cl = _ :=
      loop_error (dispatchRound_shrinks predicate d) (hround.trans hr)
    simp [StopsUnread, hrun]
  · obtain ⟨reply, hbegun⟩ := receiveRound_polls hr
    rcases next with _ | ok
    · have hrun : dispatchUntil predicate d cl = _ :=
        loop_next (dispatchRound_shrinks predicate d) (hround.trans hr)
      rw [hrun]
      exact not_stopsUnread hwaited ((dispatchUntil_begun _).reached hbegun)
    · have hrun : dispatchUntil predicate d cl = _ :=
        loop_return (dispatchRound_shrinks predicate d) (hround.trans hr)
      rw [hrun]
      exact not_stopsUnread hwaited hbegun

/-- Behind a malformed header the loop stops unread exactly if it cannot send. -/
theorem stopsUnread_iff (hpred : predicate cl.st = false) (hmal : Malformed cl.inBuf) :
    StopsUnread cl (dispatchUntil predicate d cl) ↔
      Connection.refuses cl.script cl.outBuf.length cl.outFds.length = true := by
  rw [← Connection.flush_refuses]
  have hkeeps := Connection.flush_keepsInput cl.toConnection
  have hunwaited := Connection.flush_unwaited cl.toConnection
  rcases hf : Connection.flush cl.toConnection with ⟨e | _ | _, c⟩ <;> rw [hf] at hkeeps hunwaited
  · have hround : dispatchRound predicate d () cl = (.error e, { cl with toConnection := c }) := by
      simp only [dispatchRound, bind_apply, Prog.read_apply, hpred, Bool.false_eq_true, if_false,
        onConn_eq hf]
    have hrun : dispatchUntil predicate d cl = _ :=
      loop_error (dispatchRound_shrinks predicate d) hround
    simp [StopsUnread, hrun]
  · have hround : dispatchRound predicate d () cl =
        (.ok (.inr false), { cl with toConnection := c }) := by
      simp only [dispatchRound, bind_apply, Prog.read_apply, hpred, Bool.false_eq_true, if_false,
        onConn_eq hf, pure_apply]
    have hrun : dispatchUntil predicate d cl = _ :=
      loop_return (dispatchRound_shrinks predicate d) hround
    rw [hrun]
    exact iff_of_true ⟨rfl, hkeeps.inBuf, hunwaited⟩ rfl
  · exact iff_of_false (malformed_reads hpred hmal hf) (by simp)

/-! ## Runs of the loop -/

/-- The states at the head of the loop that a call of `dispatch_until` comes to. -/
def Reaches (predicate : σ → Bool) (d : Dispatcher σ) : Client σ → Client σ → Prop :=
  Relation.ReflTransGen fun cl cl' => dispatchRound predicate d () cl = (.ok (.inl ()), cl')

/-- From the head of the loop the client comes to read, as `cl'`. -/
def ComesToRead (predicate : σ → Bool) (d : Dispatcher σ) (cl cl' : Client σ) : Prop :=
  predicate cl.st = false ∧ (do
    let _ ← onConn Connection.flush
    scan predicate d) cl = (.ok .idle, cl')

theorem reaches_unread (h : Reaches predicate d cl cl') : ∃ ds, Unread cl.origin ds cl' := by
  have hJ : Invariant predicate d cl.origin (fun _ _ => True) fun _ _ => True :=
    ⟨fun _ _ _ _ _ => trivial, fun _ _ => Triple.intro (fun _ _ _ _ _ => trivial)
      fun _ _ _ _ _ => trivial⟩
  induction h with
  | refl => exact ⟨[], unread_origin cl⟩
  | tail _ hround ih =>
      obtain ⟨ds, hunread⟩ := ih
      obtain ⟨⟨ds', -, h⟩, -⟩ := (dispatchRound_triple hJ).ok hround ⟨ds, trivial, hunread⟩
      exact ⟨ds', h⟩

/-- What is in the buffer where the loop comes to read. -/
theorem comesToRead_incomplete {cl'' : Client σ} (hsound : Sound (cl.inBuf ++ cl.pending))
    (h : Reaches predicate d cl cl') (hread : ComesToRead predicate d cl' cl'') :
    Incomplete cl''.inBuf := by
  have hJ : Invariant predicate d cl.origin (fun _ _ => True) fun _ _ => True :=
    ⟨fun _ _ _ _ _ => trivial, fun _ _ => Triple.intro (fun _ _ _ _ _ => trivial)
      fun _ _ _ _ _ => trivial⟩
  obtain ⟨ds, hunread⟩ := reaches_unread h
  obtain ⟨ok, cl₁, hflush, hscan⟩ := bind_eq_ok hread.2
  have hflushed := (flush_triple hJ).ok hflush ⟨⟨ds, trivial, hunread⟩, hread.1⟩
  obtain ⟨⟨ds', -, hunread'⟩, -, hnone⟩ := (scan_triple hJ).ok hscan hflushed.1
  apply incomplete_of_head hnone
  intro hmal
  have hrest := hmal.append cl''.pending
  have hsplit := Message.framing.split_stream ds' hrest.head
  rw [hunread'.stream] at hsplit
  apply hsound
  have hbytes : cl.origin.bytes = cl.inBuf ++ cl.pending := rfl
  rw [← hbytes, hsplit]
  exact hrest

variable (predicate d) in
/-- In whatever state of the loop a malformed header is at the front of the buffer, the loop stops
unread exactly if it cannot send; and in a run on a sound stream it reads only behind a part of a
message. -/
theorem dispatch_malformed :
    (∀ cl cl' : Client σ, Reaches predicate d cl cl' → predicate cl'.st = false →
      Malformed cl'.inBuf →
      (StopsUnread cl' (dispatchUntil predicate d cl') ↔
        Connection.refuses cl'.script cl'.outBuf.length cl'.outFds.length = true)) ∧
    ∀ cl cl' cl'' : Client σ, Sound (cl.inBuf ++ cl.pending) → Reaches predicate d cl cl' →
      ComesToRead predicate d cl' cl'' → Incomplete cl''.inBuf :=
  ⟨fun _ _ _ hpred hmal => stopsUnread_iff hpred hmal,
    fun _ _ _ hsound h hread => comesToRead_incomplete hsound h hread⟩

theorem reaches_next (h : (dispatchRound predicate d () cl).1 = .ok (.inl ())) :
    Reaches predicate d cl (dispatchRound predicate d () cl).2 :=
  .single (Prod.ext h rfl)

end Client

namespace Handcrafted

open Client

/-- The first answer of the compositor is a header with a length field of 4. -/
def misled : Process :=
  .fresh [.socket (.ok 3), .connect (.ok ()), .sendmsg (.ok 24), .poll (.ok (.ready true)),
    .recvmsg (.ok ([2, 0, 0, 0, 0, 0, 4, 0], [])), .poll (.ok (.ready true)),
    .recvmsg (.ok (event 3 0 [.u32 0], []))]

def asking : Client CopyState :=
  ((do
    let _ ← Client.connect []
    sendGetRegistry
    startSync) (Client.new misled (CopyState.new ⟨[], [text "text/plain"]⟩ false))).2

theorem malformed_read_on :
    let cl := (dispatchRound synced copyDispatcher () asking).2
    Reaches synced copyDispatcher asking cl ∧ synced cl.st = false ∧ Malformed cl.inBuf ∧
      ¬ StopsUnread cl (dispatchUntil synced copyDispatcher cl) ∧
      (HandcraftedBackend.copy [] [] .regular ⟨[], [text "text/plain"]⟩ false misled).1 =
        .error (.waiting (.poll 3 (-1))) := by
  intro cl
  have hpred : synced cl.st = false := by decide +kernel
  have hmal : Malformed cl.inBuf := by decide +kernel
  have hsends : Connection.refuses cl.script cl.outBuf.length cl.outFds.length = false := by
    decide +kernel
  refine ⟨reaches_next (by decide +kernel), hpred, hmal, ?_, by decide +kernel⟩
  intro hstops
  rw [(stopsUnread_iff hpred hmal).mp hstops] at hsends
  cases hsends

end Handcrafted

end WlClip
