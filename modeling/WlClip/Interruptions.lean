import WlClip.MalformedHeaders

/-!
# Interrupted calls

Results that a run need not notice are inserted before the results of its calls: `EINTR`, and a
readable poll whose receive finds nothing. A run tries a `sendmsg` or a `write` again that was
interrupted, and comes to the same; any other of these results ends it.
-/

open ScriptedProgram ScriptedProgram.Prog

namespace WlClip

/-- An interrupted call, or a poll and a receive for nothing. -/
inductive Interruption
  | sendmsg
  | write
  | poll
  | recvmsg
  | again
  deriving DecidableEq

namespace Interruption

def results : Interruption → List Reply
  | .sendmsg => [.sendmsg (.error .EINTR)]
  | .write => [.write (.failed .EINTR)]
  | .poll => [.poll (.error .EINTR)]
  | .recvmsg => [.recvmsg (.error .EINTR)]
  | .again => [.poll (.ok (.ready true)), .recvmsg (.error .EAGAIN)]

/-- The results before which it may come. -/
inductive Before : Interruption → Reply → Prop
  | sendmsg r : Before .sendmsg (.sendmsg r)
  | write r : Before .write (.write r)
  | poll r : Before .poll (.poll r)
  | recvmsg r : Before .recvmsg (.recvmsg r)
  | again r : Before .again (.poll r)

end Interruption

/-- The second script is the first with interruptions of the kinds `K` before any of its results. -/
inductive Interrupts (K : Interruption → Prop) : List Reply → List Reply → Prop
  | nil : Interrupts K [] []
  | cons {script script'} (r : Reply) (ks : List Interruption) (hks : ∀ k ∈ ks, K k ∧ k.Before r)
      (h : Interrupts K script script') :
      Interrupts K (r :: script) (ks.flatMap Interruption.results ++ r :: script')

theorem Interrupts.mono {K K' : Interruption → Prop} (hKK' : ∀ k, K k → K' k)
    {script script' : List Reply} (h : Interrupts K script script') :
    Interrupts K' script script' := by
  induction h with
  | nil => exact .nil
  | cons r ks hks _ ih => exact .cons r ks (fun k hk => ⟨hKK' k (hks k hk).1, (hks k hk).2⟩) ih

def SameRun {α : Type} (x y : Except Halt α × Process) : Prop :=
  y.1 = x.1 ∧ y.2.dispatched = x.2.dispatched ∧ y.2.handed = x.2.handed

/-- No call of `dispatch_until` with this dispatcher notices the interruptions. -/
def DispatchInvisible {σ : Type} (K : Interruption → Prop) (d : Dispatcher σ) : Prop :=
  ∀ (predicate : σ → Bool) (cl : Client σ) script', Interrupts K cl.script script' →
    let r := Client.dispatchUntil predicate d cl
    let r' := Client.dispatchUntil predicate d { cl with script := script' }
    SameRun (r.1, r.2.toProcess) (r'.1, r'.2.toProcess)

def Invisible (K : Interruption → Prop) : Prop :=
  DispatchInvisible K Handcrafted.copyDispatcher ∧
  DispatchInvisible K Handcrafted.pasteDispatcher ∧
  ∀ fd data (p : Process) script', Interrupts K p.script script' →
    SameRun (Process.serveSend fd data p) (Process.serveSend fd data { p with script := script' })

/-- Two processes that have handed over the same messages and written the same bytes. -/
structure Level (p p' : Process) : Prop where
  dispatched : p'.dispatched = p.dispatched
  handed : p'.handed = p.handed
  sigpipe : p'.sigpipe = p.sigpipe

/-- A process and the same one with interruptions in what is still to come. -/
structure Interrupted (K : Interruption → Prop) (p p' : Process) : Prop extends Level p p' where
  script : Interrupts K p.script p'.script

/-- The interruptions are those of calls that are tried again. -/
def Retried (K : Interruption → Prop) : Prop := ∀ k, K k → k = .sendmsg ∨ k = .write

variable {K : Interruption → Prop}

/-! ## Calls -/

/-- The next result answers the call in both runs, or in neither. -/
inductive Aligned {α : Type} (K : Interruption → Prop) (answer : Reply → Option α) :
    List Reply → List Reply → Prop
  | nil : Aligned K answer [] []
  | cons {script script'} (r : Reply) (h : Interrupts K script script') :
      Aligned K answer (r :: script) (r :: script')
  | blocked {script script'} {r r' : Reply} (hr : answer r = none) (hr' : answer r' = none)
      (h : Interrupts K (r :: script) (r' :: script')) :
      Aligned K answer (r :: script) (r' :: script')

theorem Aligned.interrupts {α : Type} {answer : Reply → Option α} {script script' : List Reply}
    (h : Aligned K answer script script') : Interrupts K script script' := by
  cases h with
  | nil => exact .nil
  | cons r h => exact .cons r [] (List.forall_mem_nil _) h
  | blocked hr hr' h => exact h

/-- Behind interruptions of a call's own kind the scripts are aligned for the call. -/
theorem Interrupts.align {α : Type} (answer : Reply → Option α) (hK : Retried K)
    (own : Interruption) {script script' : List Reply} (h : Interrupts K script script')
    (hsendmsg : own ≠ .sendmsg → ∀ r, answer (.sendmsg r) = none)
    (hwrite : own ≠ .write → ∀ r, answer (.write r) = none) :
    ∃ (ks : List Interruption) (rest : List Reply), (∀ k ∈ ks, k = own ∧ K k) ∧
      script' = ks.flatMap Interruption.results ++ rest ∧ Aligned K answer script rest := by
  have hall := h
  cases h with
  | nil => exact ⟨[], [], List.forall_mem_nil _, rfl, .nil⟩
  | @cons script script' r ks hks hrest =>
      rcases ks with _ | ⟨k, ks⟩
      · exact ⟨[], r :: script', List.forall_mem_nil _, rfl, .cons r hrest⟩
      obtain ⟨hk, hbefore⟩ := hks k List.mem_cons_self
      have hsame : ∀ k' ∈ k :: ks, k' = k := by
        intro k' hk'
        obtain ⟨hK', hbefore'⟩ := hks k' hk'
        rcases hK k hk with rfl | rfl <;> cases hbefore <;>
          rcases hK k' hK' with rfl | rfl <;> cases hbefore' <;> rfl
      by_cases hown : k = own
      · subst hown
        exact ⟨k :: ks, r :: script', fun k' hk' => ⟨hsame k' hk', (hks k' hk').1⟩, rfl, .cons r hrest⟩
      · refine ⟨[], _, List.forall_mem_nil _, rfl, ?_⟩
        rcases hK k hk with rfl | rfl <;> cases hbefore
        · exact .blocked (hsendmsg (Ne.symm hown) _) (hsendmsg (Ne.symm hown) _) hall
        · exact .blocked (hwrite (Ne.symm hown) _) (hwrite (Ne.symm hown) _) hall

theorem Level.after {p p' : Process} (h : Level p p') {log : List Action} (rest : List Reply)
    (hdispatched : log.flatMap Action.dispatched = [])
    (hhanded : log.flatMap Action.handed = []) : Level p (p'.after log rest) where
  dispatched := by
    rw [← h.dispatched, Process.dispatched, Process.observe_after, hdispatched, List.append_nil]
    rfl
  handed := by
    rw [← h.handed, Process.handed, Process.observe_after, hhanded, List.append_nil]
    rfl
  sigpipe := h.sigpipe

namespace Interrupted

variable {p p' : Process}

theorem logged (h : Interrupted K p p') (log : List Action) :
    Interrupted K { p with trace := p.trace ++ log } { p' with trace := p'.trace ++ log } where
  script := h.script
  dispatched := by
    have hdispatched := h.dispatched
    simp only [Process.dispatched, Process.observe, List.flatMap_append] at hdispatched ⊢
    rw [hdispatched]
  handed := by
    have hhanded := h.handed
    simp only [Process.handed, Process.observe, List.flatMap_append] at hhanded ⊢
    rw [hhanded]
  sigpipe := h.sigpipe

theorem ask_aligned {α : Type} {c : Call} {answer : Reply → Option α} (h : Level p p')
    (hscript : Aligned K answer p.script p'.script) :
    Concur (Interrupted K) (Process.ask c answer p) (Process.ask c answer p') := by
  have hboth : Interrupted K p p' := ⟨h, hscript.interrupts⟩
  rcases hs : p.script with _ | ⟨r, rest⟩ <;> rcases hs' : p'.script with _ | ⟨r', rest'⟩ <;>
    rw [hs, hs'] at hscript
  · rw [Process.ask_nil hs, Process.ask_nil hs']
    exact ⟨rfl, hboth⟩
  · cases hscript
  · cases hscript
  · have hblocked : answer r = none → answer r' = none →
        Concur (Interrupted K) (Process.ask c answer p) (Process.ask c answer p') := by
      intro hr hr'
      rw [Process.ask_blocked (by rintro _ _ hq; cases hs.symm.trans hq; exact hr),
        Process.ask_blocked (by rintro _ _ hq; cases hs'.symm.trans hq; exact hr')]
      exact ⟨rfl, hboth⟩
    cases hscript with
    | blocked hr hr' => exact hblocked hr hr'
    | cons r hrest =>
        rcases ha : answer r with _ | a
        · exact hblocked ha ha
        · have hlogged := hboth.logged [.call c r]
          rw [Process.ask_cons hs ha, Process.ask_cons hs' ha]
          exact ⟨rfl, ⟨hlogged.dispatched, hlogged.handed, hlogged.sigpipe⟩, hrest⟩

theorem ask_alike {α : Type} (hK : Retried K) (c : Call) {answer : Reply → Option α}
    (hsendmsg : ∀ r, answer (.sendmsg r) = none) (hwrite : ∀ r, answer (.write r) = none) :
    Alike (Interrupted K) (Process.ask c answer) := by
  intro p p' h
  obtain ⟨ks, rest, hks, hs, haligned⟩ :=
    h.script.align answer hK .poll (fun _ => hsendmsg) fun _ => hwrite
  obtain rfl : ks = [] := by
    apply List.eq_nil_iff_forall_not_mem.mpr
    intro k hk
    obtain ⟨rfl, hpoll⟩ := hks k hk
    rcases hK .poll hpoll with h | h <;> cases h
  exact ask_aligned h.toLevel (hs ▸ haligned)

end Interrupted

/-! ## Transfers -/

def Reply.write? : Reply → Option WriteResult
  | .write r => some r
  | _ => none

namespace Process

theorem write_aligned {p p' : Process} (h : Level p p')
    (hscript : Aligned K Reply.write? p.script p'.script) (fd : Int) (data : List UInt8) :
    Concur (Interrupted K) (write fd data p) (write fd data p') := by
  have hresult : Concur (Interrupted K) (ask (.write fd data) Reply.write? p)
      (ask (.write fd data) Reply.write? p') := Interrupted.ask_aligned h hscript
  apply hresult.bind
  rintro (n | e | _)
  · exact Alike.pure _
  · exact Alike.pure _
  · apply Alike.bind (Alike.read fun _ _ h => h.sigpipe.symm)
    rintro (_ | _)
    · exact Alike.halt _
    · exact Alike.pure _

theorem serveWritten_alike (hK : Retried K) (fd : Int) (data : List UInt8) (r : Except Errno ℕ) :
    Alike (Interrupted K) (serveWritten fd data r) := by
  have hpoll : Alike (Interrupted K) (poll fd 5000) :=
    Interrupted.ask_alike hK _ (fun _ => rfl) fun _ => rfl
  rcases r with e | n
  · cases e with
    | EAGAIN =>
        apply hpoll.bind
        rintro (e | _ | ready) <;> exact Alike.pure _
    | _ => exact Alike.pure _
  · exact Alike.ite (Alike.pure _) (Alike.pure _)

/-- The rounds that find their write interrupted come to a round in which it is not. -/
theorem serveRounds_retry (fd : Int) {data : List UInt8} (hdata : data ≠ []) {p p' : Process}
    {rest : List Reply} (ks : List Interruption) (hks : ∀ k ∈ ks, k = .write) (h : Level p p')
    (hs : p'.script = ks.flatMap Interruption.results ++ rest) :
    ∃ p'', loop .stuck (fun _ p => p.size) (serveRound fd) data p' =
        loop .stuck (fun _ p => p.size) (serveRound fd) data p'' ∧
      Level p p'' ∧ p''.script = rest := by
  induction ks generalizing p' with
  | nil => exact ⟨p', rfl, h, hs⟩
  | cons k ks ih =>
      obtain rfl := hks k List.mem_cons_self
      have hround : serveRound fd data p' = (.ok (.inl data), p'.after
          [.call (.write fd data) (.write (.failed .EINTR))]
          (ks.flatMap Interruption.results ++ rest)) :=
        serveRound_write hdata (write_failed hs)
      rw [loop_next (serveRound_shrinks fd) hround]
      exact ih (fun k hk => hks k (List.mem_cons_of_mem _ hk)) (h.after _ rfl rfl) rfl

theorem serveLoop_alike (hK : Retried K) (fd : Int) (data : List UInt8) :
    Alike (Interrupted K) (loop .stuck (fun _ p => p.size) (serveRound fd) data) := by
  refine Alike.loop_stutter (serveRound_shrinks fd) (fun data p p' h => ?_) data
  by_cases hdata : data = []
  · refine ⟨p', rfl, ?_⟩
    rw [serveRound, if_pos hdata]
    exact Alike.pure _ p p' h
  · obtain ⟨ks, rest, hks, hs, haligned⟩ :=
      h.script.align Reply.write? hK .write (fun _ _ => rfl) fun hne => absurd rfl hne
    obtain ⟨p'', hloop, hlevel, hscript⟩ :=
      serveRounds_retry fd hdata ks (fun k hk => (hks k hk).1) h.toLevel hs
    refine ⟨p'', hloop, ?_⟩
    rw [serveRound, if_neg hdata]
    exact (write_aligned hlevel (hscript ▸ haligned) fd data).bind (serveWritten_alike hK fd data)

theorem serveSend_alike (hK : Retried K) (fd : Int) (data : List UInt8) :
    Alike (Interrupted K) (serveSend fd data) := by
  have hrecord : ∀ a, Alike (Interrupted K) (record a) :=
    fun a => Alike.update fun _ _ h => h.logged [a]
  apply Alike.bind (hrecord _)
  intro _
  apply Alike.bind (serveLoop_alike hK fd data)
  intro _
  exact Alike.ite (hrecord _) (Alike.pure _)

end Process

/-! ## The connection -/

namespace Connection

def Resumed (K : Interruption → Prop) (c c' : Connection) : Prop :=
  ∃ q, c' = { c with toProcess := q } ∧ Interrupted K c.toProcess q

theorem sys_alike {α : Type} {p : Prog Halt Process α} (h : Alike (Interrupted K) p) :
    Alike (Resumed K) (sys p) := by
  refine Alike.zoom h ?_ ?_
  · rintro c _ ⟨q, rfl, hq⟩
    exact hq
  · rintro c _ p q ⟨_, rfl, -⟩ hq
    exact ⟨q, rfl, hq⟩

/-- The rounds that find their `sendmsg` interrupted come to a round in which it is not. -/
theorem flush_retry {c : Connection} (hout : c.outBuf ≠ []) {p' : Process} {rest : List Reply}
    (ks : List Interruption) (hks : ∀ k ∈ ks, k = .sendmsg) (h : Level c.toProcess p')
    (hs : p'.script = ks.flatMap Interruption.results ++ rest) :
    ∃ p'', flush { c with toProcess := p' } = flush { c with toProcess := p'' } ∧
      Level c.toProcess p'' ∧ p''.script = rest := by
  induction ks generalizing p' with
  | nil => exact ⟨p', rfl, h, hs⟩
  | cons k ks ih =>
      obtain rfl := hks k List.mem_cons_self
      let fds := c.outFds.take (min c.outFds.length kMaxFdsPerMsg)
      let q := p'.after [.call (.sendmsg c.sock c.outBuf fds) (.sendmsg (.error .EINTR))]
        (ks.flatMap Interruption.results ++ rest)
      have hround : flushRound () { c with toProcess := p' } =
          (.ok (.inl ()), { c with toProcess := q }) := by
        rw [flushRound_eq, if_neg fun h => hout h.1, if_neg hout, sendmsg_cons _ _ _ hs]
        rfl
      have hnext : flush { c with toProcess := p' } = flush { c with toProcess := q } :=
        loop_next flushRound_shrinks hround
      rw [hnext]
      exact ih (fun k hk => hks k (List.mem_cons_of_mem _ hk)) (h.after _ rfl rfl) rfl

theorem flush_alike (hK : Retried K) : Alike (Resumed K) flush := by
  refine Alike.loop_stutter flushRound_shrinks (fun _ c c' h => ?_) ()
  obtain ⟨p', rfl, hp⟩ := h
  by_cases hout : c.outBuf = []
  · have hround : ∀ c : Connection, c.outBuf = [] →
        flushRound () c = (.ok (.inr (decide (c.outFds = []))), c) := by
      intro c hout
      rw [flushRound_eq]
      by_cases hfds : c.outFds = [] <;> simp [hout, hfds]
    have hfirst := hround c hout
    have hsecond := hround { c with toProcess := p' } hout
    refine ⟨_, rfl, ?_⟩
    rw [hfirst]
    exact ⟨(congrArg Prod.fst hsecond).symm, p', congrArg Prod.snd hsecond, hp⟩
  · obtain ⟨ks, rest, hks, hs, haligned⟩ :=
      hp.script.align Reply.sent? hK .sendmsg (fun hne => absurd rfl hne) fun _ _ => rfl
    obtain ⟨p'', hloop, hlevel, hscript⟩ :=
      flush_retry hout ks (fun k hk => (hks k hk).1) hp.toLevel hs
    refine ⟨_, hloop, ?_⟩
    let fds := c.outFds.take (min c.outFds.length kMaxFdsPerMsg)
    have hagree : Concur (Interrupted K)
        (Process.ask (.sendmsg c.sock c.outBuf fds) Reply.sent? c.toProcess)
        (Process.ask (.sendmsg c.sock c.outBuf fds) Reply.sent? p'') :=
      Interrupted.ask_aligned hlevel (hscript ▸ haligned)
    obtain ⟨hresult, hstate⟩ : Concur (Interrupted K)
      (Process.sendmsg c.sock c.outBuf fds c.toProcess)
      (Process.sendmsg c.sock c.outBuf fds p'') := hagree
    rw [flushRound_eq, flushRound_eq]
    simp only [hout, false_and, if_false]
    rcases hr : Process.sendmsg c.sock c.outBuf fds c.toProcess with ⟨r, q⟩
    rcases hr' : Process.sendmsg c.sock c.outBuf fds p'' with ⟨r', q'⟩
    rw [hr, hr'] at hresult hstate
    obtain rfl : r = r' := hresult
    rcases r with e | (e | n)
    · exact ⟨rfl, q', rfl, hstate⟩
    · cases e <;> exact ⟨rfl, q', rfl, hstate⟩
    · exact ⟨rfl, _, rfl, hstate.logged _⟩

theorem waitReadable_alike (hK : Retried K) (timeout : Int) :
    Alike (Resumed K) (waitReadable timeout) := by
  apply Alike.bind
  · apply Alike.read
    rintro c _ ⟨q, rfl, -⟩
    rfl
  intro sock
  apply Alike.bind (sys_alike (Interrupted.ask_alike hK _ (fun _ => rfl) fun _ => rfl))
  rintro (e | _ | pollin) <;> exact Alike.pure _

theorem pump_alike (hK : Retried K) : Alike (Resumed K) pump := by
  apply Alike.bind
  · apply Alike.read
    rintro c _ ⟨q, rfl, -⟩
    rfl
  intro sock
  apply Alike.bind (sys_alike (Interrupted.ask_alike hK _ (fun _ => rfl) fun _ => rfl))
  rintro (e | ⟨data, fds⟩)
  · cases e <;> exact Alike.pure _
  · apply Alike.ite (Alike.pure _)
    apply Alike.bind
    · apply Alike.update
      rintro c _ ⟨q, rfl, hq⟩
      exact ⟨q, rfl, hq⟩
    · exact fun _ => Alike.pure _

end Connection

/-! ## The client -/

namespace Client

variable {σ : Type}

def Resumed (K : Interruption → Prop) (cl cl' : Client σ) : Prop :=
  ∃ q, cl' = { cl with toProcess := q } ∧ Interrupted K cl.toProcess q

theorem onConn_alike {α : Type} {p : Prog Halt Connection α} (h : Alike (Connection.Resumed K) p) :
    Alike (Resumed K) (onConn p : Prog Halt (Client σ) α) := by
  refine Alike.zoom h ?_ ?_
  · rintro cl _ ⟨q, rfl, hq⟩
    exact ⟨q, rfl, hq⟩
  · rintro cl _ c _ ⟨_, rfl, -⟩ ⟨q, rfl, hq⟩
    exact ⟨q, rfl, hq⟩

theorem setState_alike (f : σ → σ) : Alike (Resumed K) (setState f) := by
  apply Alike.update
  rintro cl _ ⟨q, rfl, hq⟩
  exact ⟨q, rfl, hq⟩

theorem update_alike {f : Client σ → Client σ}
    (hconn : ∀ cl, (f cl).toConnection = cl.toConnection)
    (hf : ∀ (cl : Client σ) q, f { cl with toProcess := q } = { f cl with toProcess := q }) :
    Alike (Resumed K) (Prog.update f : Prog Halt (Client σ) Unit) := by
  apply Alike.update
  rintro cl _ ⟨q, rfl, hq⟩
  exact ⟨q, hf cl q, by rw [hconn]; exact hq⟩

theorem tolerates_interrupted (hK : Retried K) (predicate : σ → Bool) {d : Dispatcher σ}
    (hhandle : ∀ obj op r, Alike (Resumed K) (d.handle obj op r)) :
    Tolerates predicate d (Resumed K) where
  inBuf := by
    rintro cl _ ⟨q, rfl, -⟩
    rfl
  stop := by
    rintro cl _ ⟨q, rfl, -⟩
    rfl
  record a := onConn_alike (Connection.sys_alike (Alike.update fun _ _ h => h.logged [a]))
  handle := hhandle
  inConsume n := by
    apply onConn_alike
    apply Alike.update
    rintro c _ ⟨q, rfl, hq⟩
    exact ⟨q, rfl, hq⟩
  flush := onConn_alike (Connection.flush_alike hK)
  waitReadable := onConn_alike (Connection.waitReadable_alike hK _)
  pump := onConn_alike (Connection.pump_alike hK)

theorem dispatchInvisible (hK : Retried K) {d : Dispatcher σ}
    (hhandle : ∀ obj op r, Alike (Resumed K) (d.handle obj op r)) : DispatchInvisible K d := by
  intro predicate cl script' hscript
  have hstart : Resumed K cl { cl with script := script' } := ⟨_, rfl, ⟨rfl, rfl, rfl⟩, hscript⟩
  obtain ⟨hresult, q, hstate, hq⟩ :=
    dispatchUntil_alike (tolerates_interrupted hK predicate hhandle) _ _ hstart
  refine ⟨hresult.symm, ?_, ?_⟩
  · simp only [hstate]
    exact hq.dispatched
  · simp only [hstate]
    exact hq.handed

end Client

namespace Handcrafted

open Client

variable {σ : Type} [HasSession σ] (obj : UInt32) (op : UInt16) (r : Reader)

theorem common_resumed (cl : Client σ) (q : Process) :
    common obj op r { cl with toProcess := q } = { common obj op r cl with toProcess := q } := by
  unfold common
  cases cl.objects obj with
  | display | registry | callback | seat => dsimp only; split_ifs <;> rfl
  | _ => rfl

theorem handleCommon_alike : Alike (Resumed K) (handleCommon (σ := σ) obj op r) :=
  update_alike (common_toConnection obj op r) (common_resumed obj op r)

theorem handlePaste_alike : Alike (Resumed K) (handlePaste obj op r) := by
  apply update_alike (pasteStep_toConnection obj op r)
  intro cl q
  unfold pasteStep
  dsimp only
  cases cl.objects obj with
  | device => dsimp only [pasteDevice]; split_ifs <;> rfl
  | offer => dsimp only; split_ifs <;> rfl
  | _ => exact common_resumed obj op r cl q

theorem onSend_alike (hK : Retried K) : Alike (Resumed K) onSend := by
  apply Alike.bind
  · apply onConn_alike
    rintro ⟨p, sock, inBuf, _ | ⟨fd, inFds⟩, outBuf, outFds⟩ _ ⟨q, rfl, hq⟩ <;>
      exact ⟨rfl, q, rfl, hq⟩
  intro fd
  apply Alike.bind
  · apply Alike.read
    rintro cl _ ⟨q, rfl, -⟩
    rfl
  intro st
  apply Alike.bind _ fun _ => setState_alike countServed
  exact Alike.ite (onConn_alike (Connection.sys_alike (Process.serveSend_alike hK _ _)))
    (Alike.pure _)

theorem handleCopy_alike (hK : Retried K) : Alike (Resumed K) (handleCopy obj op r) := by
  apply Alike.bind
  · apply Alike.read
    rintro cl _ ⟨q, rfl, -⟩
    rfl
  intro k
  apply Alike.ite
  · apply Alike.ite (onSend_alike hK)
    exact Alike.ite (setState_alike cancel) (Alike.pure _)
  · exact handleCommon_alike obj op r

/-! ## What is noticed -/

def answers : List Reply :=
  [.sendmsg (.ok 24), .poll (.ok (.ready true)), .recvmsg (.ok (event 3 0 [.u32 0], []))]

def answersAfter (poll recvmsg : List Interruption) : List Reply :=
  .sendmsg (.ok 24) :: (poll.flatMap Interruption.results ++ .poll (.ok (.ready true)) ::
    (recvmsg.flatMap Interruption.results ++ [.recvmsg (.ok (event 3 0 [.u32 0], []))]))

theorem answersAfter_interrupts (poll recvmsg : List Interruption)
    (hpoll : ∀ k ∈ poll, K k ∧ k.Before (.poll (.ok (.ready true))))
    (hrecvmsg : ∀ k ∈ recvmsg, K k ∧ k.Before (.recvmsg (.ok (event 3 0 [.u32 0], [])))) :
    Interrupts K answers (answersAfter poll recvmsg) :=
  .cons _ [] (List.forall_mem_nil _) (.cons _ poll hpoll (.cons _ recvmsg hrecvmsg .nil))

/-- Whether the copy that sent its first requests comes to the end of its first round trip. -/
def comesThrough (script : List Reply) : Except Halt Bool :=
  (dispatchUntil synced copyDispatcher { asking with script := script }).1

/-- An interruption of any other kind ends the run. -/
theorem comesThrough_unless {k : Interruption} (hk : k = .poll ∨ k = .recvmsg ∨ k = .again) :
    ∃ script, Interrupts (fun k' => k' = k) answers script ∧
      comesThrough answers = .ok true ∧ comesThrough script = .ok false := by
  rcases hk with rfl | rfl | rfl
  · refine ⟨answersAfter [.poll] [], answersAfter_interrupts _ _ ?_ (List.forall_mem_nil _), ?_, ?_⟩
    · exact List.forall_mem_singleton.mpr ⟨rfl, .poll _⟩
    · decide +kernel
    · decide +kernel
  · refine ⟨answersAfter [] [.recvmsg], answersAfter_interrupts _ _ (List.forall_mem_nil _) ?_, ?_, ?_⟩
    · exact List.forall_mem_singleton.mpr ⟨rfl, .recvmsg _⟩
    · decide +kernel
    · decide +kernel
  · refine ⟨answersAfter [.again] [], answersAfter_interrupts _ _ ?_ (List.forall_mem_nil _), ?_, ?_⟩
    · exact List.forall_mem_singleton.mpr ⟨rfl, .again _⟩
    · decide +kernel
    · decide +kernel

theorem retried_of_invisible (h : Invisible K) : Retried K := by
  intro k hk
  have hsame : ¬ (k = .poll ∨ k = .recvmsg ∨ k = .again) := by
    intro hkind
    obtain ⟨script, hscript, hplain, hcut⟩ := comesThrough_unless hkind
    have hresult := (h.1 synced { asking with script := answers } script
      (hscript.mono fun _ hk' => hk' ▸ hk)).1
    cases hplain.symm.trans (hresult.symm.trans hcut)
  cases k with
  | sendmsg => exact .inl rfl
  | write => exact .inr rfl
  | _ => simp at hsame

theorem invisible_of_retried (hK : Retried K) : Invisible K :=
  ⟨dispatchInvisible hK (handleCopy_alike · · · hK), dispatchInvisible hK handlePaste_alike, by
    intro fd data p script' hscript
    obtain ⟨hresult, hp⟩ := Process.serveSend_alike hK fd data p { p with script := script' }
      ⟨⟨rfl, rfl, rfl⟩, hscript⟩
    exact ⟨hresult.symm, hp.dispatched, hp.handed⟩⟩

/-- Exactly the interruptions of calls that are tried again go unnoticed. -/
theorem invisible_iff (K : Interruption → Prop) :
    Invisible K ↔ ∀ k, K k → k = .sendmsg ∨ k = .write :=
  ⟨retried_of_invisible, invisible_of_retried⟩

/-- A poll that is interrupted once ends a run that comes through otherwise. -/
theorem interrupted_poll_noticed :
    Interrupts (fun _ => True) answers
      [.sendmsg (.ok 24), .poll (.error .EINTR), .poll (.ok (.ready true)),
        .recvmsg (.ok (event 3 0 [.u32 0], []))] ∧
      comesThrough answers = .ok true ∧
      comesThrough [.sendmsg (.ok 24), .poll (.error .EINTR), .poll (.ok (.ready true)),
        .recvmsg (.ok (event 3 0 [.u32 0], []))] = .ok false ∧
      ¬ Invisible fun _ => True := by
  refine ⟨?_, by decide +kernel, by decide +kernel, ?_⟩
  · exact answersAfter_interrupts [.poll] []
      (List.forall_mem_singleton.mpr ⟨trivial, .poll _⟩) (List.forall_mem_nil _)
  · intro h
    rcases retried_of_invisible h .poll trivial with h | h <;> cases h

end Handcrafted

end WlClip
