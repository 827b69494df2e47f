import WlClip.ConnectionSteps
import WlClip.DescriptorLedger

/-!
# What a flush takes from the queues

The socket takes bytes from the head of one queue and descriptors, at most 28 at a time, from the
head of another. Nothing is lost in either, and a descriptor is closed when it was taken. But bytes
may run out before descriptors do, and without a byte no descriptor can be sent.
-/

open ScriptedProgram ScriptedProgram.Prog

namespace WlClip

namespace Connection

/-- The descriptors that were closed are those that the socket took, each of them after that. -/
structure ClosesTaken (log : List Action) : Prop where
  all : log.flatMap Action.closed = log.flatMap Action.sentFds
  after : ∀ before, before <+: log →
    before.flatMap Action.closed <+: before.flatMap Action.sentFds

/-- What an operation took from the queues of `c` is what `c'` lacks of them. -/
structure Conserves (c c' : Connection) : Prop where
  log : ∃ log, c'.trace = c.trace ++ log ∧ ClosesTaken log ∧
    log.flatMap Action.sent ++ c'.outBuf = c.outBuf ∧
    log.flatMap Action.sentFds ++ c'.outFds = c.outFds

/-! ## Closing -/

section

variable {log log' : List Action} {c c' : Connection}

theorem closesTaken_nil : ClosesTaken [] := by
  refine ⟨rfl, fun before h => ?_⟩
  rw [List.prefix_nil.mp h]
  exact List.prefix_rfl

theorem ClosesTaken.append (h : ClosesTaken log) (h' : ClosesTaken log') :
    ClosesTaken (log ++ log') := by
  constructor
  · rw [List.flatMap_append, List.flatMap_append, h.all, h'.all]
  · intro before hbefore
    rcases List.prefix_or_prefix_of_prefix hbefore (List.prefix_append log log') with hfirst | hlog
    · exact h.after before hfirst
    · obtain ⟨more, rfl⟩ := hlog
      have hmore : more <+: log' := (List.prefix_append_right_inj log).mp hbefore
      rw [List.flatMap_append, List.flatMap_append, h.all]
      exact (List.prefix_append_right_inj _).mpr (h'.after more hmore)

theorem flatMap_closed (fds : List Int) : (fds.map Action.close).flatMap Action.closed = fds := by
  induction fds with
  | nil => rfl
  | cons fd fds ih => exact congrArg (fd :: ·) ih

theorem flatMap_sentFds_close (fds : List Int) :
    (fds.map Action.close).flatMap Action.sentFds = [] := by
  induction fds with
  | nil => rfl
  | cons fd fds ih => exact ih

theorem closesTaken_call {a : Action} {fds : List Int} (hclosed : a.closed = [])
    (hsent : a.sentFds = fds) : ClosesTaken (a :: fds.map .close) := by
  constructor
  · rw [List.flatMap_cons, List.flatMap_cons, hclosed, hsent, flatMap_closed,
      flatMap_sentFds_close, List.append_nil]
    rfl
  · intro before hbefore
    rcases List.prefix_cons_iff.mp hbefore with rfl | ⟨closes, rfl, hcloses⟩
    · exact List.prefix_rfl
    · have hprefix : closes.flatMap Action.closed <+: fds := by
        rw [← flatMap_closed fds]
        exact hcloses.flatMap _
      rw [List.flatMap_cons, List.flatMap_cons, hclosed, hsent, List.nil_append]
      exact hprefix.trans (List.prefix_append _ _)

def Closes (c c' : Connection) : Prop := ∃ log, c'.trace = c.trace ++ log ∧ ClosesTaken log

instance : IsPreorder Connection Closes where
  refl _ := ⟨[], (List.append_nil _).symm, closesTaken_nil⟩
  trans _ _ _ h h' := by
    obtain ⟨log, htrace, hlog⟩ := h
    obtain ⟨log', htrace', hlog'⟩ := h'
    exact ⟨log ++ log', by rw [htrace', htrace, List.append_assoc], hlog.append hlog'⟩

theorem flushRound_closes : Within Closes (flushRound ()) := by
  refine flushRound_step.mono fun c c' hstep => ?_
  cases hstep with
  | idle => exact refl _
  | failed e rest =>
      have hcall : ClosesTaken (c.sendAction (.error e) :: ([] : List Int).map .close) :=
        closesTaken_call rfl rfl
      exact ⟨_, rfl, hcall⟩
  | took n rest =>
      let fds := c.outFds.take (min c.outFds.length kMaxFdsPerMsg)
      exact ⟨c.sendAction (.ok n) :: fds.map .close, by simp [sent, Process.after, fds],
        closesTaken_call rfl rfl⟩

theorem flush_closes : Within Closes flush := Within.loop (fun _ => flushRound_closes) ()

end

/-! ## Flushing -/

theorem flush_conserves (c : Connection) : Conserves c (flush c).2 := by
  obtain ⟨log, htrace, hsending, -, -, hsent, hsentFds⟩ := (flush_moves c).log
  obtain ⟨log', htrace', hcloses⟩ := flush_closes c
  obtain rfl : log = log' := List.append_cancel_left (htrace.symm.trans htrace')
  have hqueued : log.flatMap Action.queued = [] :=
    List.flatMap_eq_nil_iff.mpr fun a ha => by cases hsending a ha <;> rfl
  have hqueuedFds : log.flatMap Action.queuedFds = [] :=
    List.flatMap_eq_nil_iff.mpr fun a ha => by cases hsending a ha <;> rfl
  rw [hqueued, List.append_nil] at hsent
  rw [hqueuedFds, List.append_nil] at hsentFds
  exact ⟨log, htrace, hcloses, hsent.symm, hsentFds.symm⟩

def answered (replies : List Reply) (c : Connection) : Connection := { c with script := replies }

/-- With these results of its calls a flush loses nothing, whichever call it comes to, and unless a
call fails for good it succeeds and leaves nothing. -/
structure Delivers (c : Connection) (sends : List Reply) : Prop where
  conserves : ∀ n, Conserves c (flush (c.answered (sends.take n))).2
  completes : sends.any Reply.refused = false →
    ∃ c', flush (c.answered sends) = (.ok true, c') ∧ c'.outBuf = [] ∧ c'.outFds = []

/-- A flush delivers exactly if a call fails for good or the calls that take bytes are enough for the
descriptors. -/
theorem flush_delivers_iff {c : Connection} {sends : List Reply} (h : Sends c.outBuf.length sends) :
    Delivers c sends ↔ sends.any Reply.refused = true ∨
      c.outFds.length ≤ kMaxFdsPerMsg * sends.countP Reply.taken := by
  have hconserves : ∀ replies, Conserves c (flush (c.answered replies)).2 := fun replies =>
    ⟨(flush_conserves (c.answered replies)).log⟩
  obtain ⟨ok, c', hrun, -, hok, -⟩ := flush_result (c := c.answered sends) h rfl
    (List.append_nil sends).symm
  have hflushed : ok = true ↔ Flushed c' := flush_triple.ok hrun trivial
  constructor
  · intro hdelivers
    by_cases hrefused : sends.any Reply.refused = true
    · exact .inl hrefused
    · obtain ⟨c'', hrun', -⟩ := hdelivers.completes (Bool.not_eq_true _ ▸ hrefused)
      have htrue : ok = true := by
        rw [hrun] at hrun'
        cases hrun'
        rfl
      exact .inr (hok.mp htrue).2
  · intro hcond
    refine ⟨fun n => hconserves _, fun hall => ?_⟩
    rcases hcond with hrefused | henough
    · rw [hall] at hrefused
      cases hrefused
    · have htrue : ok = true := hok.mpr ⟨hall, henough⟩
      have hempty := hflushed.mp htrue
      rw [htrue] at hrun
      exact ⟨c', hrun, hempty.1, hempty.2⟩

/-- A connection on which some requests for a payload were queued, each with a descriptor. -/
def requesting (fds : List Int) : Connection :=
  { Connection.new (.fresh []) with
    sock := 3
    outBuf := fds.flatMap fun _ => (Request.receive (text "text/plain")).encode 8
    outFds := fds }

theorem delivers_parts : Delivers (requesting [7, 9])
    [.sendmsg (.ok 4), .sendmsg (.error .EINTR), .sendmsg (.ok 52)] := by
  have hsends : Sends (requesting [7, 9]).outBuf.length
      [.sendmsg (.ok 4), .sendmsg (.error .EINTR), .sendmsg (.ok 52)] :=
    .sent 4 (by decide +kernel) (.interrupted (by decide +kernel)
      (sends_once (by decide +kernel) (by decide +kernel)))
  exact (flush_delivers_iff hsends).mpr (.inr (by decide))

/-- Of the descriptors of 29 requests that the socket takes at once one is left, and the flush
fails. -/
theorem flush_strands :
    let c := requesting ((List.range 29).map fun i => 10 + i)
    let sends : List Reply := [.sendmsg (.ok 812)]
    Sends c.outBuf.length sends ∧ (flush (c.answered sends)).1 = .ok false ∧
      (flush (c.answered sends)).2.outFds = [38] ∧ ¬ Delivers c sends := by
  intro c sends
  have hfails : (flush (c.answered sends)).1 = .ok false := by decide +kernel
  refine ⟨sends_once (by decide +kernel) (by decide +kernel), hfails, by decide +kernel, ?_⟩
  intro hdelivers
  obtain ⟨c', hrun, -⟩ := hdelivers.completes (by decide)
  rw [hrun] at hfails
  cases hfails

end Connection

end WlClip
