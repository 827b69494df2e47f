import WlClip.Consumers
import WlClip.DispatchStream

/-!
# `dispatch_until` step by step

A client that has sent all it queued hands over the message at the head of its buffer, or reads
if none is complete. Each step leads from a call of `dispatch_until` to a call of it on the client
after the step, so that a run can be followed however the bytes are cut into reads.
-/

open ScriptedProgram ScriptedProgram.Prog

namespace WlClip

/-- The socket took some bytes, and with them the descriptors. -/
def Reply.taken : Reply → Bool
  | .sendmsg (.ok _) => true
  | _ => false

/-- A call after which a flush gives up. -/
def Reply.refused : Reply → Bool
  | .sendmsg (.error e) => e ≠ .EINTR
  | _ => false

namespace Connection

theorem flush_flushed {c : Connection} (h : Flushed c) : flush c = (.ok true, c) := by
  have hround : flushRound () c = (.ok (.inr true), c) := by
    rw [flushRound_eq]
    exact if_pos h
  exact loop_return flushRound_shrinks hround

theorem recvmsg_cons (fd : Int) {p : Process} {r : Except Errno (List UInt8 × List Int)}
    {rest : List Reply} (hs : p.script = .recvmsg r :: rest) :
    Process.recvmsg fd p = (.ok r, p.after [.call (.recvmsg fd) (.recvmsg r)] rest) :=
  Process.ask_cons hs rfl

theorem pump_data {c : Connection} {data : List UInt8} {fds : List Int} {rest : List Reply}
    (hdata : data ≠ []) (hs : c.script = .recvmsg (.ok (data, fds)) :: rest) :
    pump c = (.ok (data.length : ℕ),
      { c with
        toProcess := c.after [.call (.recvmsg c.sock) (.recvmsg (.ok (data, fds)))] rest
        inBuf := c.inBuf ++ data
        inFds := c.inFds ++ fds }) := by
  obtain ⟨b, data, rfl⟩ := List.exists_cons_of_ne_nil hdata
  rw [pump_eq, recvmsg_cons c.sock hs]

/-- The replies to the calls of a flush that has `n` bytes to send. -/
inductive Sends : ℕ → List Reply → Prop
  | done : Sends 0 []
  | sent {n replies} (k : ℕ) (hn : 0 < n) (h : Sends (n - k) replies) :
      Sends n (.sendmsg (.ok k) :: replies)
  | interrupted {n replies} (hn : 0 < n) (h : Sends n replies) :
      Sends n (.sendmsg (.error .EINTR) :: replies)
  | failed {n} (e : Errno) (hn : 0 < n) (he : e ≠ .EINTR) : Sends n [.sendmsg (.error e)]

theorem sends_once {n k : ℕ} (hn : 0 < n) (hk : n ≤ k) : Sends n [.sendmsg (.ok k)] := by
  refine .sent k hn ?_
  rw [Nat.sub_eq_zero_of_le hk]
  exact .done

theorem sendmsg_cons (fd : Int) (bytes : List UInt8) (fds : List Int) {p : Process}
    {r : Except Errno ℕ} {rest : List Reply} (hs : p.script = .sendmsg r :: rest) :
    Process.sendmsg fd bytes fds p =
      (.ok r, p.after [.call (.sendmsg fd bytes fds) (.sendmsg r)] rest) :=
  Process.ask_cons hs rfl

theorem flushRound_sendmsg {c : Connection} {r : Except Errno ℕ} {rest : List Reply}
    (hout : 0 < c.outBuf.length) (hs : c.script = .sendmsg r :: rest) :
    ∃ q, q.script = rest ∧ flushRound () c = match r with
      | .error .EINTR => (.ok (.inl ()), { c with toProcess := q })
      | .error _ => (.ok (.inr false), { c with toProcess := q })
      | .ok n =>
        (.ok (.inl ()), sent n (min c.outFds.length kMaxFdsPerMsg) { c with toProcess := q }) := by
  have hne : c.outBuf ≠ [] := List.length_pos_iff.mp hout
  let fds := c.outFds.take (min c.outFds.length kMaxFdsPerMsg)
  refine ⟨c.after [.call (.sendmsg c.sock c.outBuf fds) (.sendmsg r)] rest, rfl, ?_⟩
  rw [flushRound_eq, if_neg fun h => hne h.1, if_neg hne, sendmsg_cons _ _ _ hs]
  rcases r with e | n
  · cases e <;> rfl
  · rfl

/-- A flush whose calls are answered returns. It succeeds unless a call fails for good or the calls
that take bytes are too few to take the descriptors. -/
theorem flush_result {n : ℕ} {replies rest : List Reply} (h : Sends n replies) {c : Connection}
    (hn : c.outBuf.length = n) (hs : c.script = replies ++ rest) :
    ∃ ok c', flush c = (.ok ok, c') ∧ c'.script = rest ∧
      (ok = true ↔ replies.any Reply.refused = false ∧
        c.outFds.length ≤ kMaxFdsPerMsg * replies.countP Reply.taken) ∧
      c'.outFds = c.outFds.drop (kMaxFdsPerMsg * replies.countP Reply.taken) := by
  induction h generalizing c with
  | done =>
      have hnil : c.outBuf = [] := List.length_eq_zero_iff.mp hn
      by_cases hfds : c.outFds = []
      · exact ⟨true, c, flush_flushed ⟨hnil, hfds⟩, hs, by simp [hfds], rfl⟩
      · have hround : flushRound () c = (.ok (.inr false), c) := by
          rw [flushRound_eq, if_neg fun h => hfds h.2, if_pos hnil]
        exact ⟨false, c, loop_return flushRound_shrinks hround, hs, by simp [hfds], rfl⟩
  | @sent _ replies k hpos _ ih =>
      obtain ⟨q, hq, hround⟩ := flushRound_sendmsg (hn ▸ hpos) hs
      have hlen := List.length_drop (i := k) (l := c.outBuf)
      have hmin : c.outFds.drop (min c.outFds.length kMaxFdsPerMsg) =
          c.outFds.drop kMaxFdsPerMsg := by
        by_cases hfew : c.outFds.length ≤ kMaxFdsPerMsg
        · rw [Nat.min_eq_left hfew, List.drop_length, List.drop_of_length_le hfew]
        · rw [Nat.min_eq_right (Nat.le_of_not_le hfew)]
      obtain ⟨ok, c', hrun, hrest, hok, hleft⟩ := ih (c := sent k
        (min c.outFds.length kMaxFdsPerMsg) { c with toProcess := q }) (hlen.trans (hn ▸ rfl)) hq
      have hcount : (Reply.sendmsg (.ok k) :: replies).countP Reply.taken =
          replies.countP Reply.taken + 1 := List.countP_cons_of_pos rfl
      have henough : c.outFds.length - kMaxFdsPerMsg ≤ kMaxFdsPerMsg * replies.countP Reply.taken ↔
          c.outFds.length ≤ kMaxFdsPerMsg * (replies.countP Reply.taken + 1) := by
        rw [Nat.mul_succ]
        omega
      simp only [sent, hmin, List.length_drop, henough] at hok hleft
      refine ⟨ok, c', (loop_next flushRound_shrinks hround).trans hrun, hrest, ?_, ?_⟩
      · rw [hok, hcount]
        rfl
      · rw [hleft, hcount, List.drop_drop, Nat.mul_succ, Nat.add_comm]
  | interrupted hpos _ ih =>
      obtain ⟨q, hq, hround⟩ := flushRound_sendmsg (hn ▸ hpos) hs
      obtain ⟨ok, c', hrun, hrest, hok, hleft⟩ := ih (c := { c with toProcess := q }) hn hq
      refine ⟨ok, c', (loop_next flushRound_shrinks hround).trans hrun, hrest, ?_, ?_⟩
      · simpa [Reply.refused, Reply.taken] using hok
      · simpa [Reply.taken] using hleft
  | failed e hpos he =>
      obtain ⟨q, hq, hround⟩ := flushRound_sendmsg (hn ▸ hpos) hs
      refine ⟨false, { c with toProcess := q }, loop_return flushRound_shrinks ?_, hq, ?_, rfl⟩
      · cases e with
        | EINTR => exact absurd rfl he
        | _ => exact hround
      · simp [Reply.refused, he]

theorem flush_sends {n : ℕ} {replies rest : List Reply} (h : Sends n replies) {c : Connection}
    (hn : c.outBuf.length = n) (hs : c.script = replies ++ rest) :
    ∃ ok c', flush c = (.ok ok, c') ∧ c'.script = rest := by
  obtain ⟨ok, c', hrun, hrest, -⟩ := flush_result h hn hs
  exact ⟨ok, c', hrun, hrest⟩

/-- Where there are bytes to send some call takes some, or one fails for good. -/
theorem Sends.taken {n : ℕ} {replies : List Reply} (h : Sends n replies) (hpos : 0 < n)
    (hall : replies.any Reply.refused = false) : replies.any Reply.taken = true := by
  induction h with
  | done => cases hpos
  | sent => rfl
  | interrupted hn _ ih => exact ih hn hall
  | failed e hn he => simp [Reply.refused, he] at hall

/-- A flush with few descriptors succeeds unless a call fails for good, and the first call that
takes bytes takes the descriptors. -/
theorem flush_outcome {n : ℕ} {replies rest : List Reply} (h : Sends n replies) {c : Connection}
    (hn : c.outBuf.length = n) (hfds : c.outFds.length ≤ kMaxFdsPerMsg ∧ (n = 0 → c.outFds = []))
    (hs : c.script = replies ++ rest) :
    ∃ ok c', flush c = (.ok ok, c') ∧ c'.script = rest ∧
      (ok = true ↔ replies.any Reply.refused = false) ∧
      c'.outFds = if replies.any Reply.taken then [] else c.outFds := by
  obtain ⟨ok, c', hrun, hrest, hok, hleft⟩ := flush_result h hn hs
  have henough : replies.any Reply.taken = true →
      c.outFds.length ≤ kMaxFdsPerMsg * replies.countP Reply.taken := by
    intro htaken
    obtain ⟨r, hr, hrtaken⟩ := List.any_eq_true.mp htaken
    have hcount : 0 < replies.countP Reply.taken := List.countP_pos_iff.mpr ⟨r, hr, hrtaken⟩
    exact Nat.le_trans hfds.1 (Nat.le_mul_of_pos_right _ hcount)
  refine ⟨ok, c', hrun, hrest, hok.trans (and_iff_left_of_imp fun hall => ?_), ?_⟩
  · by_cases hzero : n = 0
    · rw [hfds.2 hzero]
      exact Nat.zero_le _
    · exact henough (h.taken (Nat.pos_of_ne_zero hzero) hall)
  · by_cases htaken : replies.any Reply.taken = true
    · rw [hleft, if_pos htaken, List.drop_of_length_le (henough htaken)]
    · have hnone : replies.countP Reply.taken = 0 := by
        simpa [List.countP_eq_zero, List.any_eq_true] using htaken
      rw [hleft, if_neg htaken, hnone]
      rfl

end Connection

/-- Only calls in which a client waits for its socket. -/
def Polled (log : List Action) : Prop :=
  ∀ a ∈ log, (∃ fd timeout r, a = .call (.poll fd timeout) (.poll r)) ∨
    ∃ fd r, a = .call (.recvmsg fd) (.recvmsg r)

theorem Polled.flatMap {log : List Action} (h : Polled log) {β : Type} {f : Action → List β}
    (hpoll : ∀ fd timeout r, f (.call (.poll fd timeout) (.poll r)) = [])
    (hrecv : ∀ fd r, f (.call (.recvmsg fd) (.recvmsg r)) = []) : log.flatMap f = [] :=
  List.flatMap_eq_nil_iff.mpr fun a ha => by
    obtain ⟨fd, timeout, r, rfl⟩ | ⟨fd, r, rfl⟩ := h a ha
    · exact hpoll fd timeout r
    · exact hrecv fd r

theorem polled_poll (fd timeout : Int) (r : Except Errno PollResult) :
    Polled [.call (.poll fd timeout) (.poll r)] := fun _ ha =>
  .inl ⟨fd, timeout, r, List.mem_singleton.mp ha⟩

/-- The replies to the waiting calls of a client that has lost its connection. -/
inductive Lost : List Reply → Prop
  | pollFailed (e : Errno) : Lost [.poll (.error e)]
  | timedOut : Lost [.poll (.ok .timeout)]
  | hungUp : Lost [.poll (.ok (.ready false))]
  | closed (fds : List Int) : Lost [.poll (.ok (.ready true)), .recvmsg (.ok ([], fds))]
  | failed (e : Errno) : Lost [.poll (.ok (.ready true)), .recvmsg (.error e)]

namespace Client

variable {σ α : Type} {cl : Client σ}

theorem onConn_eq {p : Prog Halt Connection α} {r : Except Halt α} {c : Connection}
    (h : p cl.toConnection = (r, c)) : onConn p cl = (r, { cl with toConnection := c }) := by
  simp only [onConn, Prog.zoom_apply, h]

def received (data : List UInt8) (fds : List Int) (rest : List Reply) (cl : Client σ) : Client σ :=
  { cl with
    script := rest
    trace := cl.trace ++ [.call (.poll cl.sock (-1)) (.poll (.ok (.ready true))),
      .call (.recvmsg cl.sock) (.recvmsg (.ok (data, fds)))]
    inBuf := cl.inBuf ++ data
    inFds := cl.inFds ++ fds }

theorem flush_flushed (h : Flushed cl) : onConn Connection.flush cl = (.ok true, cl) :=
  onConn_eq (Connection.flush_flushed h)

def advanced (log : List Action) (rest : List Reply) (cl : Client σ) : Client σ :=
  { cl with toProcess := cl.after log rest }

theorem waitReadable_poll {r : Except Errno PollResult} {rest : List Reply}
    (hs : cl.script = .poll r :: rest) :
    onConn (Connection.waitReadable (-1)) cl =
      (.ok (match r with | .ok (.ready pollin) => pollin | _ => false),
        cl.advanced [.call (.poll cl.sock (-1)) (.poll r)] rest) := by
  have hpoll : Process.poll cl.sock (-1) cl.toProcess = _ := Process.poll_cons hs
  simp only [onConn, Prog.zoom_apply, Connection.waitReadable, bind_apply, Prog.read_apply,
    Connection.sys, hpoll]
  rcases r with e | _ | pollin <;> rfl

theorem receiveRound_data {data : List UInt8} {fds : List Int} {rest : List Reply}
    (hdata : data ≠ [])
    (hs : cl.script = .poll (.ok (.ready true)) :: .recvmsg (.ok (data, fds)) :: rest) :
    receiveRound cl = (.ok (.inl ()), received data fds rest cl) := by
  have hpump := onConn_eq (Connection.pump_data (c := (cl.advanced
    [.call (.poll cl.sock (-1)) (.poll (.ok (.ready true)))]
    (.recvmsg (.ok (data, fds)) :: rest)).toConnection) hdata rfl)
  have hpos : 0 < data.length := List.length_pos_iff.mpr hdata
  rw [receiveRound, bind_ok (waitReadable_poll hs)]
  simp only [if_true]
  rw [bind_ok hpump, if_neg (by omega), if_neg (by omega)]
  simp [received, advanced, Process.after]

theorem pump_nothing {r : Except Errno (List UInt8 × List Int)} {rest : List Reply}
    (hr : ∀ data fds, r = .ok (data, fds) → data = []) (hs : cl.script = .recvmsg r :: rest) :
    ∃ n ≤ 0, onConn Connection.pump cl =
      (.ok n, cl.advanced [.call (.recvmsg cl.sock) (.recvmsg r)] rest) := by
  have hrecv := Connection.recvmsg_cons cl.sock hs
  rcases r with e | ⟨data, fds⟩
  · refine ⟨if e = .EAGAIN ∨ e = .EINTR then 0 else -1, by split_ifs <;> decide, onConn_eq ?_⟩
    rw [Connection.pump_eq, hrecv]
    cases e <;> rfl
  · obtain rfl := hr data fds rfl
    refine ⟨0, Int.le_refl 0, onConn_eq ?_⟩
    rw [Connection.pump_eq, hrecv]

theorem receiveRound_nothing {r : Except Errno (List UInt8 × List Int)} {rest : List Reply}
    (hr : ∀ data fds, r = .ok (data, fds) → data = [])
    (hs : cl.script = .poll (.ok (.ready true)) :: .recvmsg r :: rest) :
    ∃ log, receiveRound cl = (.ok (.inr false), cl.advanced log rest) ∧ Polled log := by
  let cl₁ := cl.advanced [.call (.poll cl.sock (-1)) (.poll (.ok (.ready true)))] (.recvmsg r :: rest)
  have hs₁ : cl₁.script = .recvmsg r :: rest := rfl
  obtain ⟨n, hn, hpump⟩ := pump_nothing hr hs₁
  have hlog : Polled [.call (.poll cl.sock (-1)) (.poll (.ok (.ready true))),
      .call (.recvmsg cl.sock) (.recvmsg r)] := List.forall_mem_cons.mpr
    ⟨.inl ⟨_, _, _, rfl⟩, List.forall_mem_singleton.mpr (.inr ⟨_, _, rfl⟩)⟩
  refine ⟨_, ?_, hlog⟩
  rw [receiveRound, bind_ok (waitReadable_poll hs)]
  simp only [if_true]
  rw [bind_ok hpump]
  rcases Int.lt_or_eq_of_le hn with hneg | rfl
  · rw [if_pos hneg]
    simp [cl₁, advanced, Process.after]
  · simp [cl₁, advanced, Process.after]

theorem receiveRound_lost {l rest : List Reply} (hl : Lost l) (hs : cl.script = l ++ rest) :
    ∃ log, receiveRound cl = (.ok (.inr false), cl.advanced log rest) ∧ Polled log := by
  cases hl with
  | pollFailed e => exact ⟨_, bind_ok (waitReadable_poll hs), polled_poll _ _ _⟩
  | timedOut => exact ⟨_, bind_ok (waitReadable_poll hs), polled_poll _ _ _⟩
  | hungUp => exact ⟨_, bind_ok (waitReadable_poll hs), polled_poll _ _ _⟩
  | closed fds => exact receiveRound_nothing (by rintro _ _ ⟨⟩; rfl) hs
  | failed e => exact receiveRound_nothing (fun _ _ h => by cases h) hs

/-- A client at the head of the loop of `dispatch_until`, which is to go on. -/
structure Dispatching (predicate : σ → Bool) (cl : Client σ) : Prop where
  flushed : Flushed cl
  pred : predicate cl.st = false

section Rounds

variable {predicate : σ → Bool} {d : Dispatcher σ} {m : Message}

variable (predicate d) in
/-- What `dispatch_until` does after a scan. -/
def afterScan : Scan → Prog Halt (Client σ) Bool
  | .stopped => return true
  | .consumed => dispatchUntil predicate d
  | .idle => do
    match ← receiveRound with
    | .inl _ => dispatchUntil predicate d
    | .inr ok => return ok

theorem dispatchUntil_scan (h : Dispatching predicate cl) :
    dispatchUntil predicate d cl = (scan predicate d >>= afterScan predicate d) cl := by
  rw [dispatchUntil, loop_eq _ (dispatchRound_shrinks predicate d)]
  simp only [bind_apply, dispatchRound, Prog.read_apply, h.pred, Bool.false_eq_true, if_false,
    flush_flushed h.flushed, if_true]
  rcases scan predicate d cl with ⟨e | r, cl'⟩
  · rfl
  · cases r with
    | idle =>
        simp only [afterScan, bind_apply]
        rcases receiveRound cl' with ⟨e | u | ok, cl''⟩ <;> rfl
    | _ => rfl

theorem dispatchUntil_stop (h : predicate cl.st = true) :
    dispatchUntil predicate d cl = (.ok true, cl) := by
  have hround : dispatchRound predicate d () cl = (.ok (.inr true), cl) := by
    simp only [dispatchRound, bind_apply, Prog.read_apply, h, if_true, pure_apply]
  exact loop_return (dispatchRound_shrinks predicate d) hround

theorem dispatchRound_none (h : Dispatching predicate cl) (hnone : headMessage cl.inBuf = none) :
    dispatchRound predicate d () cl = receiveRound cl := by
  have hscan : scan predicate d cl = (.ok .idle, cl) :=
    loop_return (scanRound_shrinks predicate d) (scanRound_none predicate d false hnone)
  simp only [dispatchRound, bind_apply, Prog.read_apply, h.pred, Bool.false_eq_true, if_false,
    flush_flushed h.flushed, if_true, hscan]

variable (predicate d) in
theorem dispatchUntil_read {data : List UInt8} {fds : List Int} {rest : List Reply}
    (h : Dispatching predicate cl) (hnone : headMessage cl.inBuf = none) (hdata : data ≠ [])
    (hs : cl.script = .poll (.ok (.ready true)) :: .recvmsg (.ok (data, fds)) :: rest) :
    dispatchUntil predicate d cl = dispatchUntil predicate d (received data fds rest cl) :=
  loop_next (dispatchRound_shrinks predicate d)
    ((dispatchRound_none h hnone).trans (receiveRound_data hdata hs))

variable (predicate d) in
theorem dispatchUntil_lost {l rest : List Reply} (h : Dispatching predicate cl)
    (hnone : headMessage cl.inBuf = none) (hl : Lost l) (hs : cl.script = l ++ rest) :
    ∃ log, dispatchUntil predicate d cl = (.ok false, cl.advanced log rest) ∧ Polled log := by
  obtain ⟨log, hlost, hlog⟩ := receiveRound_lost hl hs
  have hround := (dispatchRound_none (d := d) h hnone).trans hlost
  exact ⟨log, loop_return (dispatchRound_shrinks predicate d) hround, hlog⟩

theorem dispatchUntil_flush {cl₀ : Client σ}
    (hflush : onConn Connection.flush cl₀ = (.ok true, cl)) (hst : cl.st = cl₀.st)
    (hgo : predicate cl.st = false) :
    dispatchUntil predicate d cl₀ = dispatchUntil predicate d cl := by
  have hflushed : Flushed cl := ((onConn_triple Connection.flush_triple).ok hflush trivial).mp rfl
  have hround : dispatchRound predicate d () cl₀ = dispatchRound predicate d () cl := by
    simp only [dispatchRound, bind_apply, Prog.read_apply, ← hst, hgo, Bool.false_eq_true, if_false,
      hflush, flush_flushed hflushed]
  have hshrinks := dispatchRound_shrinks predicate d
  rw [dispatchUntil, loop_eq _ hshrinks, bind_apply, bind_apply, hround]

variable (predicate d) in
theorem dispatchUntil_wait (h : Dispatching predicate cl) (hnone : headMessage cl.inBuf = none)
    (hs : ∀ r rest, cl.script ≠ .poll r :: rest) :
    dispatchUntil predicate d cl = (.error (.waiting (.poll cl.sock (-1))), cl) := by
  have hpoll : Process.poll cl.sock (-1) cl.toProcess = _ := Process.ask_blocked fun r rest hr => by
    cases r with
    | poll r => exact absurd hr (hs r rest)
    | _ => rfl
  have hwait : onConn (Connection.waitReadable (-1)) cl =
      (.error (.waiting (.poll cl.sock (-1))), cl) := by
    simp only [onConn, Prog.zoom_apply, Connection.waitReadable, bind_apply, Prog.read_apply,
      Connection.sys, hpoll]
  exact loop_error (dispatchRound_shrinks predicate d)
    ((dispatchRound_none h hnone).trans (bind_error hwait))

/-- Between two deliveries of a scan the client might as well begin `dispatch_until` again. -/
theorem scan_again (h : Dispatching predicate cl) :
    (loop .stuck (fun _ cl => cl.inBuf.length) (scanRound predicate d) true >>=
      afterScan predicate d) cl = dispatchUntil predicate d cl := by
  rcases hm : headMessage cl.inBuf with _ | m
  · exact bind_ok (loop_return (scanRound_shrinks predicate d)
      (scanRound_none predicate d true hm))
  · have hround := (scanRound_some predicate d true hm).trans
      (scanRound_some predicate d false hm).symm
    have hscan : loop .stuck (fun _ cl => cl.inBuf.length) (scanRound predicate d) true cl =
        scan predicate d cl := by
      rw [scan, loop_eq _ (scanRound_shrinks predicate d), loop_eq _ (scanRound_shrinks predicate d),
        bind_apply, bind_apply, hround]
    rw [dispatchUntil_scan h, bind_apply, bind_apply, hscan]

variable (predicate d) in
/-- A complete message is handed over. -/
theorem dispatchUntil_head (h : Dispatching predicate cl) (hm : headMessage cl.inBuf = some m)
    (hflushed : ∀ cl', deliver d m cl = (.ok (), cl') → Flushed cl') :
    dispatchUntil predicate d cl = match deliver d m cl with
      | (.ok _, cl') => dispatchUntil predicate d cl'
      | (.error e, cl') => (.error e, cl') := by
  have hround := scanRound_some predicate d false hm
  rw [dispatchUntil_scan h, scan]
  rcases hr : deliver d m cl with ⟨e | u, cl'⟩ <;> rw [hr] at hround
  · exact bind_error (loop_error (scanRound_shrinks predicate d) hround)
  · dsimp only at hround ⊢
    by_cases hstop : predicate cl'.st = true
    · rw [if_pos hstop] at hround
      rw [dispatchUntil_stop hstop]
      exact bind_ok (loop_return (scanRound_shrinks predicate d) hround)
    · rw [if_neg hstop] at hround
      have hnext : loop .stuck (fun _ cl => cl.inBuf.length) (scanRound predicate d) false cl = _ :=
        loop_next (scanRound_shrinks predicate d) hround
      rw [← scan_again ⟨hflushed cl' hr, Bool.eq_false_iff.mpr hstop⟩, bind_apply, bind_apply, hnext]

variable {buf : List UInt8} {cl' : Client σ}

theorem head_bytes (hbuf : cl.inBuf = m.bytes ++ buf) : headMessage cl.inBuf = some m :=
  hbuf ▸ headMessage_bytes m buf

theorem dispatchUntil_handled (h : Dispatching predicate cl) (hbuf : cl.inBuf = m.bytes ++ buf)
    (hhandle : d.handle m.objectId m.opcode (.new m.objectId m.opcode m.payload) (cl.logged m) =
      (.ok (), cl')) (hflushed : Flushed cl') :
    dispatchUntil predicate d cl = dispatchUntil predicate d (cl'.consumed m.size) := by
  have hdeliver := deliver_ok hhandle
  rw [dispatchUntil_head predicate d h (head_bytes hbuf), hdeliver]
  rintro _ h
  cases hdeliver.symm.trans h
  exact hflushed

theorem dispatchUntil_halted {e : Halt} (h : Dispatching predicate cl)
    (hbuf : cl.inBuf = m.bytes ++ buf)
    (hhandle : d.handle m.objectId m.opcode (.new m.objectId m.opcode m.payload) (cl.logged m) =
      (.error e, cl')) : dispatchUntil predicate d cl = (.error e, cl') := by
  have hdeliver := deliver_error hhandle
  rw [dispatchUntil_head predicate d h (head_bytes hbuf), hdeliver]
  rintro _ h
  cases hdeliver.symm.trans h

theorem consumed_bytes (hbuf : cl.inBuf = m.bytes ++ buf) : (cl.consumed m.size).inBuf = buf := by
  rw [consumed, hbuf, ← m.length_bytes, List.drop_left]

theorem logged_handed (m : Message) (cl : Client σ) : (cl.logged m).handed = cl.handed := by
  simp [logged, Process.handed, Process.observe, Action.handed]

theorem received_handed (data : List UInt8) (fds : List Int) (rest : List Reply) (cl : Client σ) :
    (cl.received data fds rest).handed = cl.handed := by
  simp [received, Process.handed, Process.observe, Action.handed]

end Rounds

end Client

end WlClip
