import WlClip.CopyThenPaste
import WlClip.Deliveries
import WlClip.Flushing
import WlClip.TruncatedEvents

/-!
# The write end of a paste

The handcrafted paste queues the write end of its pipe with its request, and the flush that sends
both closes the paste's own descriptor. The paste reads from the pipe however that flush has ended,
so that it may wait for the end of a file that it holds open itself.
-/

open ScriptedProgram ScriptedProgram.Prog

namespace WlClip

/-! ## Flushes -/

namespace Connection

structure KeepsQueue (c c' : Connection) : Prop where
  outBuf : c'.outBuf = c.outBuf
  outFds : c'.outFds = c.outFds

instance : IsPreorder Connection KeepsQueue where
  refl _ := ⟨rfl, rfl⟩
  trans _ _ _ h h' := ⟨h'.outBuf.trans h.outBuf, h'.outFds.trans h.outFds⟩

theorem sys_keepsQueue {α : Type} (p : Prog Halt Process α) : Within KeepsQueue (sys p) :=
  fun _ => ⟨rfl, rfl⟩

theorem waitReadable_keepsQueue (timeout : Int) : Within KeepsQueue (waitReadable timeout) := by
  apply Within.bind (R := KeepsQueue) (Within.read _)
  intro sock
  apply Within.bind (sys_keepsQueue _)
  rintro (e | _ | pollin) <;> exact Within.pure _

theorem pump_keepsQueue : Within KeepsQueue pump := by
  apply Within.bind (R := KeepsQueue) (Within.read _)
  intro sock
  apply Within.bind (sys_keepsQueue _)
  rintro (e | ⟨data, fds⟩)
  · cases e <;> exact Within.pure _
  · refine Within.ite (Within.pure _) ?_
    exact Within.bind (Within.update fun _ => ⟨rfl, rfl⟩) fun _ => Within.pure _

end Connection

namespace Client

variable {σ : Type} {predicate : σ → Bool} {d : Dispatcher σ} {cl cl' : Client σ}

theorem onConn_flushed {α : Type} {p : Prog Halt Connection α}
    (h : Within Connection.KeepsQueue p) :
    Triple (Flushed (σ := σ)) (onConn p) (fun _ => Flushed) (fun _ _ => True) := by
  refine ((onConn_within h).keeps fun cl cl' hsame hcl => ?_).returns
  exact ⟨hsame.1.outBuf.trans hcl.1, hsame.1.outFds.trans hcl.2⟩

theorem flushed_stable (hd : Unsending d) : Stable d Flushed fun _ _ => True where
  flush cl h := by
    rw [flush_flushed h]
    exact h
  waitReadable := onConn_flushed (Connection.waitReadable_keepsQueue _)
  pump := onConn_flushed Connection.pump_keepsQueue
  deliver m := by
    rintro cl ⟨h, -⟩
    rcases hr : deliver d m cl with ⟨e | u, cl'⟩
    · trivial
    · exact hd.flushed h hr

/-- A wait that does not begin satisfied ends with everything sent, if it ends well. -/
theorem dispatchUntil_flushed (hd : Unsending d) (hgo : predicate cl.st = false)
    (h : dispatchUntil predicate d cl = (.ok true, cl')) : Flushed cl' := by
  rcases hflush : onConn Connection.flush cl with ⟨e | _ | _, cl₁⟩
  · have hround : dispatchRound predicate d () cl = (.error e, cl₁) := by
      simp only [dispatchRound, bind_apply, Prog.read_apply, hgo, Bool.false_eq_true, if_false,
        hflush]
    cases (loop_error (dispatchRound_shrinks predicate d) hround).symm.trans h
  · have hround : dispatchRound predicate d () cl = (.ok (.inr false), cl₁) := by
      simp only [dispatchRound, bind_apply, Prog.read_apply, hgo, Bool.false_eq_true, if_false,
        hflush]
      rfl
    cases (loop_return (dispatchRound_shrinks predicate d) hround).symm.trans h
  · have hkept := (onConn_within Connection.flush_keepsInput).of_eq hflush
    have hst : cl₁.st = cl.st := congrArg (fun l : Local σ => l.2.2) hkept.2
    rw [dispatchUntil_flush hflush hst (hst ▸ hgo)] at h
    have hflushed : Flushed cl₁ :=
      ((onConn_triple Connection.flush_triple).ok hflush trivial).mp rfl
    exact ((flushed_stable hd).dispatchUntil predicate).ok h hflushed

end Client

namespace Handcrafted

variable {i : UInt32} {mime : Text} {available : List Text} {r w : Int} {sends reads : List Reply}
  {cl : Client PasteState}

/-! ## A fetch -/

/-- A fetch that begins to read has logged `begun` from its pipe on; what the socket did not take
of the request and the write end is still queued. -/
structure Requested (message : List UInt8) (w : Int) (sends : List Reply) (begun : List Action)
    (c : Connection) : Prop where
  unread : ∀ fd reply, .call (.read fd) reply ∉ begun
  bytes : message = begun.flatMap Action.sent ++ c.outBuf
  fds : [w] = begun.flatMap Action.sentFds ++ c.outFds
  closed : begun.flatMap Action.closed = begun.flatMap Action.sentFds
  whole : c.outBuf = [] ∧ c.outFds = [] ↔ sends.any Reply.refused = false
  taken : c.outFds = [] ↔ sends.any Reply.taken = true

theorem fetch_requested (hflushed : Client.Flushed cl)
    (hsends : Connection.Sends ((Request.receive mime).encode i).length sends)
    (hs : cl.script = .pipe (.ok (r, w)) :: (sends ++ reads)) :
    ∃ c begun, c.script = reads ∧ c.trace = cl.trace ++ begun ∧
      Requested ((Request.receive mime).encode i) w sends begun c ∧
      fetch i mime available cl = (do
        let bytes ← Client.sys (Process.drainFd r)
        Client.sys (Process.close r)
        return (true, ⟨mime, bytes, available⟩) : Prog Halt (Client PasteState) _)
          { cl with toConnection := c } := by
  let message := (Request.receive mime).encode i
  let c₁ := receiving i mime r w (sends ++ reads) cl
  obtain ⟨hout, hfds, hfew⟩ := receiving_queue i mime r w (sends ++ reads) hflushed
  obtain ⟨ok, c, hflush, hscript, hok, hleft⟩ :=
    Connection.flush_outcome hsends (congrArg List.length hout) hfew rfl
  obtain ⟨flushed, htrace, hsending, -, -, hsent, hsentFds⟩ :=
    (Connection.flush_moves.of_eq hflush).log
  obtain ⟨log, htrace', hclosed⟩ := Connection.flush_closes.of_eq hflush
  obtain rfl : flushed = log := List.append_cancel_left (htrace.symm.trans htrace')
  have hunqueued : flushed.flatMap Action.queued = [] ∧ flushed.flatMap Action.queuedFds = [] :=
    ⟨List.flatMap_eq_nil_iff.mpr fun a ha => by cases hsending a ha <;> rfl,
      List.flatMap_eq_nil_iff.mpr fun a ha => by cases hsending a ha <;> rfl⟩
  rw [hout, hunqueued.1, List.append_nil] at hsent
  rw [hfds, hunqueued.2, List.append_nil] at hsentFds
  rw [hfds] at hleft
  refine ⟨c, .call .pipe (.pipe (.ok (r, w))) :: .queue message :: .queueFd w :: flushed, hscript,
    ?_, ⟨?_, hsent, hsentFds, hclosed.all, ?_, ?_⟩, fetch_flush hs hflush⟩
  · rw [htrace]
    simp [receiving, message]
  · intro fd reply hmem
    simp only [List.mem_cons, reduceCtorEq, false_or, Action.call.injEq] at hmem
    rcases hmem with ⟨⟨⟩, -⟩ | hmem
    cases hsending _ hmem
  · exact ((Connection.flush_triple.ok hflush trivial).symm.trans hok)
  · rw [hleft]
    split_ifs with htaken <;> simp [htaken]

theorem fetch_run (hflushed : Client.Flushed cl)
    (hsends : Connection.Sends ((Request.receive mime).encode i).length sends)
    (hs : cl.script = .pipe (.ok (r, w)) :: (sends ++ reads)) :
    ∃ c begun got cl', Requested ((Request.receive mime).encode i) w sends begun c ∧
      Process.Reads r got ∧ match Process.drained [] reads with
        | some bytes => fetch i mime available cl = (.ok (true, ⟨mime, bytes, available⟩), cl') ∧
          cl'.trace = cl.trace ++ (begun ++ (got ++ [.close r]))
        | none => fetch i mime available cl = (.error (.waiting (.read r)), cl') ∧
          cl'.trace = cl.trace ++ (begun ++ got) := by
  obtain ⟨c, begun, hscript, htrace, hrequested, hfetch⟩ :=
    @fetch_requested _ _ available _ _ _ _ _ hflushed hsends hs
  obtain ⟨got, rest, hdrain, hgot⟩ := Process.drainFd_eq r c.toProcess
  have hsys : Client.sys (Process.drainFd r) { cl with toConnection := c } =
      (Process.drainResult r (Process.drained [] reads),
        { cl with toConnection := { c with toProcess := c.after got rest } }) := by
    simp only [Client.sys, Client.onConn, Connection.sys, Prog.zoom_apply, hdrain, hscript]
  rcases hbytes : Process.drained [] reads with _ | bytes <;> rw [hbytes] at hsys
  · refine ⟨c, begun, got, _, hrequested, hgot, hfetch.trans (bind_error hsys), ?_⟩
    change c.trace ++ got = _
    rw [htrace, List.append_assoc]
  · refine ⟨c, begun, got, _, hrequested, hgot, hfetch.trans ((bind_ok hsys).trans rfl), ?_⟩
    change c.trace ++ got ++ [.close r] = _
    rw [htrace, List.append_assoc, List.append_assoc]

/-! ## The whole paste -/

/-- The log of a run at one of its reads from `fd`, or at the read that it waits in. -/
def ReadsAt {α : Type} (fd : Int) (run : Except Halt α × Process) (log : List Action) : Prop :=
  (∃ reply rest, run.2.trace = log ++ .call (.read fd) reply :: rest) ∨
    run.1 = .error (.waiting (.read fd)) ∧ run.2.trace = log

/-- The run reads from its pipe only after it has closed the write end, and returns `true` only
when the socket has taken the whole request and the write end. `before` is what it had logged when
it made the pipe. -/
structure HandsOver (message : List UInt8) (r w : Int) (before : List Action)
    (run : Except Halt (Bool × PasteResult) × Process) : Prop where
  closed : ∀ since, ReadsAt r run (before ++ since) → w ∈ since.flatMap Action.closed
  whole : ∀ since out, run.1 = .ok (true, out) → run.2.trace = before ++ since →
    since.flatMap Action.sent = message ∧ w ∈ since.flatMap Action.sentFds

variable {message : List UInt8} {begun got closes before : List Action} {c : Connection}
  {run : Except Halt (Bool × PasteResult) × Process}

theorem ReadsAt.past {since : List Action} (h : ReadsAt r run (before ++ since))
    (htrace : run.2.trace = before ++ (begun ++ (got ++ closes)))
    (hunread : ∀ fd reply, .call (.read fd) reply ∉ begun) : begun <+: since := by
  rcases h with ⟨reply, rest, hlog⟩ | ⟨-, hlog⟩
  · rw [htrace, List.append_assoc] at hlog
    rcases List.append_eq_append_iff.mp (List.append_cancel_left hlog) with
      ⟨more, hsince, -⟩ | ⟨more, hbegun, hmore⟩
    · exact ⟨more, hsince.symm⟩
    · cases more with
      | nil => exact ⟨[], by rw [hbegun, List.append_nil, List.append_nil]⟩
      | cons a more =>
          obtain ⟨rfl, -⟩ := List.cons.inj hmore
          refine absurd ?_ (hunread r reply)
          rw [hbegun]
          exact List.mem_append_right _ List.mem_cons_self
  · rw [htrace] at hlog
    exact ⟨got ++ closes, List.append_cancel_left hlog⟩

/-- A run that comes to its fetch hands its pipe over exactly if no call of the flush fails for
good, but for one that got rid of the write end and then waits for ever. -/
theorem handsOver_iff (result : Option (List UInt8)) (out : List UInt8 → PasteResult)
    (hrequested : Requested message w sends begun c) (hgot : Process.Reads r got)
    (hcloses : ∀ a ∈ closes, ∃ fd, a = .close fd)
    (htrace : run.2.trace = before ++ (begun ++ (got ++ closes)))
    (hrun : run.1 = match result with
      | some bytes => .ok (true, out bytes)
      | none => .error (.waiting (.read r)))
    (hwaits : result = none → closes = []) :
    HandsOver message r w before run ↔
      sends.any Reply.refused = false ∨ sends.any Reply.taken = true ∧ result = none := by
  have hsent : (begun ++ (got ++ closes)).flatMap Action.sent = begun.flatMap Action.sent := by
    have hnone : closes.flatMap Action.sent = [] := Process.flatMap_closes (fun _ => rfl) hcloses
    have hnone' : got.flatMap Action.sent = [] := hgot.flatMap fun _ => rfl
    simp [hnone, hnone']
  have hsentFds : (begun ++ (got ++ closes)).flatMap Action.sentFds =
      begun.flatMap Action.sentFds := by
    have hnone : closes.flatMap Action.sentFds = [] :=
      Process.flatMap_closes (fun _ => rfl) hcloses
    have hnone' : got.flatMap Action.sentFds = [] := hgot.flatMap fun _ => rfl
    simp [hnone, hnone']
  have hpassed : w ∈ begun.flatMap Action.sentFds → c.outFds = [] := by
    intro hw
    have hfds := hrequested.fds
    rcases hnone : begun.flatMap Action.sentFds with _ | ⟨fd, fds⟩
    · rw [hnone] at hw
      cases hw
    · rw [hnone, List.cons_append] at hfds
      exact (List.append_eq_nil_iff.mp (List.cons.inj hfds).2.symm).2
  have hclosed : c.outFds = [] → ∀ since, ReadsAt r run (before ++ since) →
      w ∈ since.flatMap Action.closed := by
    intro hleft since hreads
    have hfds := hrequested.fds
    rw [hleft, List.append_nil] at hfds
    refine ((hreads.past htrace hrequested.unread).flatMap Action.closed).subset ?_
    rw [hrequested.closed, ← hfds]
    exact List.mem_singleton_self w
  constructor
  · intro hands
    rcases result with _ | bytes
    · rw [hwaits rfl, List.append_nil] at htrace
      have hw := hands.closed (begun ++ got) (.inr ⟨hrun, htrace⟩)
      have hnone : got.flatMap Action.closed = [] := hgot.flatMap fun _ => rfl
      rw [List.flatMap_append, hnone, List.append_nil, hrequested.closed] at hw
      exact .inr ⟨hrequested.taken.mp (hpassed hw), rfl⟩
    · obtain ⟨hall, hw⟩ := hands.whole _ _ hrun htrace
      rw [hsent] at hall
      rw [hsentFds] at hw
      have hbytes := hrequested.bytes
      rw [hall] at hbytes
      exact .inl (hrequested.whole.mp ⟨List.self_eq_append_right.mp hbytes, hpassed hw⟩)
  · rintro (hok | ⟨htaken, rfl⟩)
    · obtain ⟨hleft, hleftFds⟩ := hrequested.whole.mpr hok
      refine ⟨hclosed hleftFds, fun since _ _ hlog => ?_⟩
      obtain rfl := List.append_cancel_left (htrace.symm.trans hlog)
      have hbytes := hrequested.bytes
      have hfds := hrequested.fds
      rw [hleft, List.append_nil] at hbytes
      rw [hleftFds, List.append_nil] at hfds
      rw [hsent, hsentFds, ← hfds]
      exact ⟨hbytes.symm, List.mem_singleton_self w⟩
    · refine ⟨hclosed (hrequested.taken.mpr htaken), fun since out' hret _ => ?_⟩
      cases hrun.symm.trans hret

end Handcrafted

namespace HandcraftedBackend

open Handcrafted

structure Asks (display seat : Text) (sel : Selection) (preferMime : Text) (p : Process)
    (cl : Client PasteState) (o : OfferRec) : Prop where
  trace : p.trace = []
  reached : ∃ cl₀, pasteSetup display seat sel (Client.new p .new) = (.ok true, cl₀) ∧
    Client.dispatchUntil (haveTarget sel) pasteDispatcher cl₀ = (.ok true, cl)
  named : target sel cl.st ≠ 0
  known : cl.st.offers.find? (fun o => o.id = target sel cl.st) = some o
  chosen : chooseMime o.mimes preferMime ≠ []

variable {display seat : Text} {sel : Selection} {preferMime : Text} {p : Process}
  {cl : Client PasteState} {o : OfferRec}

theorem Asks.flushed (h : Asks display seat sel preferMime p cl o) : Client.Flushed cl := by
  obtain ⟨cl₀, hsetup, hawait⟩ := h.reached
  have hready := pasteSetup_triple display seat sel _ (fresh_start p rfl h.trace)
  rw [hsetup] at hready
  have hst := (hready.1 rfl).1.st
  have hgo : haveTarget sel cl₀.st = false := by
    have hfinished : cl₀.st.finished = false := congrArg PasteState.finished hst
    have hregular : cl₀.st.gotRegular = false := congrArg PasteState.gotRegular hst
    have hprimary : cl₀.st.gotPrimary = false := congrArg PasteState.gotPrimary hst
    simp [haveTarget, hfinished, hregular, hprimary]
  exact Client.dispatchUntil_flushed paste_unsending hgo hawait

theorem Asks.fetches (h : Asks display seat sel preferMime p cl o) :
    pasteClient display seat sel preferMime false (Client.new p .new) =
      fetch (target sel cl.st) (chooseMime o.mimes preferMime) o.mimes cl := by
  obtain ⟨cl₀, hsetup, hawait⟩ := h.reached
  rw [pasteClient, bind_ok hsetup, if_pos rfl, pasteReceive, bind_ok hawait, if_pos rfl]
  simp only [take, bind_apply, Prog.read_apply, h.named, if_false, h.known, h.chosen,
    Bool.false_eq_true]

theorem Asks.paste {r w : Int} {sends reads : List Reply}
    (h : Asks display seat sel preferMime p cl o)
    (hsends : Connection.Sends ((Request.receive (chooseMime o.mimes preferMime)).encode
      (target sel cl.st)).length sends)
    (hs : cl.script = .pipe (.ok (r, w)) :: (sends ++ reads)) :
    let run := paste display seat sel preferMime false p
    ∃ c begun got closes, Requested ((Request.receive (chooseMime o.mimes preferMime)).encode
        (target sel cl.st)) w sends begun c ∧
      Process.Reads r got ∧ (∀ a ∈ closes, ∃ fd, a = .close fd) ∧
      run.2.trace = cl.trace ++ (begun ++ (got ++ closes)) ∧
      (run.1 = match Process.drained [] reads with
        | some bytes => .ok (true, ⟨chooseMime o.mimes preferMime, bytes, o.mimes⟩)
        | none => .error (.waiting (.read r))) ∧
      (Process.drained [] reads = none → closes = []) := by
  intro run
  obtain ⟨c, begun, got, cl', hrequested, hgot, hfetch⟩ :=
    @fetch_run _ _ o.mimes _ _ _ _ _ h.flushed hsends hs
  rw [← h.fetches] at hfetch
  refine ⟨c, begun, got, ?_⟩
  rcases hbytes : Process.drained [] reads with _ | bytes <;> rw [hbytes] at hfetch
  · obtain ⟨hrun, htrace⟩ := hfetch
    have hpaste : run = (.error (.waiting (.read r)), cl'.toProcess) := by
      simp only [run, HandcraftedBackend.paste, Client.run, hrun]
    refine ⟨[], hrequested, hgot, List.forall_mem_nil _, ?_, ?_, fun _ => rfl⟩
    · rw [hpaste, htrace, List.append_nil]
    · rw [hpaste]
  · obtain ⟨hrun, htrace⟩ := hfetch
    obtain ⟨log, hclose, hlog⟩ := Connection.close_trace cl'.toConnection
    have hpaste : run = (.ok (true, ⟨chooseMime o.mimes preferMime, bytes, o.mimes⟩),
        (Connection.close cl'.toConnection).2.toProcess) := by
      simp only [run, HandcraftedBackend.paste, Client.run, hrun]
    refine ⟨.close r :: log, hrequested, hgot, List.forall_mem_cons.mpr ⟨⟨r, rfl⟩, hlog⟩, ?_, ?_,
      by simp⟩
    · rw [hpaste, hclose, htrace]
      simp
    · rw [hpaste]

theorem Asks.logs {r w : Int} {sends reads : List Reply}
    (h : Asks display seat sel preferMime p cl o)
    (hsends : Connection.Sends ((Request.receive (chooseMime o.mimes preferMime)).encode
      (target sel cl.st)).length sends)
    (hs : cl.script = .pipe (.ok (r, w)) :: (sends ++ reads)) :
    ∃ since, (HandcraftedBackend.paste display seat sel preferMime false p).2.trace =
      cl.trace ++ since := by
  obtain ⟨c, begun, got, closes, -, -, -, htrace, -⟩ := h.paste hsends hs
  exact ⟨_, htrace⟩

/-- A handcrafted paste that comes to ask for an offer never waits on a pipe that it holds open
itself, and returns `true` only with its request handed over, exactly if no `sendmsg` of that
request fails for good, but for a paste that goes on waiting when a part of it was taken. -/
theorem paste_handsOver_iff {r w : Int} {sends reads : List Reply}
    (h : Asks display seat sel preferMime p cl o)
    (hsends : Connection.Sends ((Request.receive (chooseMime o.mimes preferMime)).encode
      (target sel cl.st)).length sends)
    (hs : cl.script = .pipe (.ok (r, w)) :: (sends ++ reads)) :
    HandsOver ((Request.receive (chooseMime o.mimes preferMime)).encode (target sel cl.st)) r w
        cl.trace (paste display seat sel preferMime false p) ↔
      sends.any Reply.refused = false ∨
        sends.any Reply.taken = true ∧ Process.drained [] reads = none := by
  obtain ⟨c, begun, got, closes, hrequested, hgot, hcloses, htrace, hrun, hwaits⟩ :=
    h.paste hsends hs
  exact handsOver_iff (Process.drained [] reads)
    (fun bytes => ⟨chooseMime o.mimes preferMime, bytes, o.mimes⟩) hrequested hgot hcloses htrace
    hrun hwaits

/-- The process of a paste that is offered a text and gets these replies for its request. -/
def requesting (sends reads : List Reply) : Process :=
  .fresh (bootReplies 2 ++ .sendmsg (.ok 1000) ::
    ((Offers.State.initial.processed .regular showing).flatMap eventReads ++
      .pipe (.ok (7, 8)) :: (sends ++ reads)))

def requestingClient (sends reads : List Reply) : Client PasteState :=
  (Client.dispatchUntil (haveTarget .regular) pasteDispatcher
    (pasteSetup [] [] .regular (Client.new (requesting sends reads) .new)).2).2

def plainOffer : OfferRec := ⟨0xff000000, [text "text/plain"]⟩

theorem Asks.of_requesting {sends reads : List Reply}
    (hsetup : (pasteSetup [] [] .regular (Client.new (requesting sends reads) .new)).1 = .ok true)
    (hawait : (Client.dispatchUntil (haveTarget .regular) pasteDispatcher
      (pasteSetup [] [] .regular (Client.new (requesting sends reads) .new)).2).1 = .ok true)
    (htarget : target .regular (requestingClient sends reads).st = 0xff000000)
    (hoffers : (requestingClient sends reads).st.offers = [plainOffer]) :
    Asks [] [] .regular [] (requesting sends reads) (requestingClient sends reads) plainOffer where
  trace := rfl
  reached := ⟨_, returned_fst hsetup, returned_fst hawait⟩
  named := by
    rw [htarget]
    decide
  known := by
    rw [htarget, hoffers]
    rfl
  chosen := by decide

theorem paste_handsOver_parts :
    let sends : List Reply := [.sendmsg (.ok 4), .sendmsg (.error .EINTR), .sendmsg (.ok 1000)]
    let reads : List Reply := [.read (.ok [0x68, 0x69]), .read (.ok [])]
    HandsOver ((Request.receive (text "text/plain")).encode 0xff000000) 7 8
      (requestingClient sends reads).trace
      (paste [] [] .regular [] false (requesting sends reads)) := by
  intro sends reads
  have h : Asks [] [] .regular [] (requesting sends reads) (requestingClient sends reads)
      plainOffer :=
    .of_requesting (by decide +kernel) (by decide +kernel) (by decide +kernel) (by decide +kernel)
  have htarget : target .regular (requestingClient sends reads).st = 0xff000000 := by
    decide +kernel
  have hsends : Connection.Sends ((Request.receive (text "text/plain")).encode
      (target .regular (requestingClient sends reads).st)).length sends := by
    rw [htarget]
    exact .sent 4 (by decide) (.interrupted (by decide)
      (Connection.sends_once (by decide) (by decide)))
  have hs : (requestingClient sends reads).script = .pipe (.ok (7, 8)) :: (sends ++ reads) := by
    decide +kernel
  have hands := (paste_handsOver_iff h hsends hs).mpr (.inl rfl)
  rw [htarget] at hands
  exact hands

/-- The replies to a request of which the socket takes no more than four bytes. -/
def tornSends : List Reply := [.sendmsg (.ok 4), .sendmsg (.error .EPIPE)]

/-- A paste whose request is refused waits for the end of a pipe whose write end it still has; one
that could send a part of its request only returns `true`. -/
theorem paste_holds_its_pipe :
    (∃ cl run, paste [] [] .regular [] false (requesting [.sendmsg (.error .EPIPE)] []) = run ∧
      Asks [] [] .regular [] (requesting [.sendmsg (.error .EPIPE)] []) cl plainOffer ∧
      run.1 = .error (.waiting (.read 7)) ∧ 8 ∉ run.2.trace.flatMap Action.closed ∧
      ¬ HandsOver ((Request.receive (text "text/plain")).encode 0xff000000) 7 8 cl.trace run) ∧
    ∃ cl run, paste [] [] .regular [] false (requesting tornSends [.read (.ok [])]) = run ∧
      Asks [] [] .regular [] (requesting tornSends [.read (.ok [])]) cl plainOffer ∧
      run.1 = .ok (true, ⟨text "text/plain", [], [text "text/plain"]⟩) ∧
      ¬ HandsOver ((Request.receive (text "text/plain")).encode 0xff000000) 7 8 cl.trace run := by
  constructor
  · have h : Asks [] [] .regular [] (requesting [.sendmsg (.error .EPIPE)] [])
        (requestingClient [.sendmsg (.error .EPIPE)] []) plainOffer :=
      .of_requesting (by decide +kernel) (by decide +kernel) (by decide +kernel) (by decide +kernel)
    have hrun : (paste [] [] .regular [] false (requesting [.sendmsg (.error .EPIPE)] [])).1 =
      .error (.waiting (.read 7)) := by decide +kernel
    have hopen : 8 ∉ (paste [] [] .regular [] false
      (requesting [.sendmsg (.error .EPIPE)] [])).2.trace.flatMap Action.closed := by decide +kernel
    have hs : (requestingClient [.sendmsg (.error .EPIPE)] []).script =
      .pipe (.ok (7, 8)) :: ([.sendmsg (.error .EPIPE)] ++ []) := by decide +kernel
    obtain ⟨since, hlog⟩ := h.logs (.failed .EPIPE (by decide +kernel) (by decide)) hs
    refine ⟨_, _, rfl, h, hrun, hopen, fun hands => hopen ?_⟩
    rw [hlog, List.flatMap_append]
    exact List.mem_append_right _ (hands.closed since (.inr ⟨hrun, hlog⟩))
  · have h : Asks [] [] .regular [] (requesting tornSends [.read (.ok [])])
        (requestingClient tornSends [.read (.ok [])]) plainOffer :=
      .of_requesting (by decide +kernel) (by decide +kernel) (by decide +kernel) (by decide +kernel)
    have hrun : (paste [] [] .regular [] false (requesting tornSends [.read (.ok [])])).1 =
      .ok (true, ⟨text "text/plain", [], [text "text/plain"]⟩) := by decide +kernel
    have hs : (requestingClient tornSends [.read (.ok [])]).script =
      .pipe (.ok (7, 8)) :: (tornSends ++ [.read (.ok [])]) := by decide +kernel
    have hpart : (paste [] [] .regular [] false
        (requesting tornSends [.read (.ok [])])).2.trace.flatMap Action.sent ≠
      (requestingClient tornSends [.read (.ok [])]).trace.flatMap Action.sent ++
        (Request.receive (text "text/plain")).encode 0xff000000 := by decide +kernel
    obtain ⟨since, hlog⟩ := h.logs
      (.sent 4 (by decide +kernel) (.failed .EPIPE (by decide +kernel) (by decide))) hs
    refine ⟨_, _, rfl, h, hrun, fun hands => hpart ?_⟩
    rw [hlog, List.flatMap_append, (hands.whole since _ hrun hlog).1]

end HandcraftedBackend

end WlClip
