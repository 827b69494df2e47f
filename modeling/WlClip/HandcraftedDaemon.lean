import WlClip.CopyScript
import WlClip.DispatchSteps

/-!
# The handcrafted backend as a daemon

However the events of its source come in, the serving loop of the handcrafted copy is the daemon
that ignores one cancel.
-/

open ScriptedProgram ScriptedProgram.Prog Daemon

namespace WlClip

def CopyState.status (st : CopyState) : Status := ⟨st.served, st.cancelCount, st.cancelled, st.done⟩

namespace Handcrafted

variable {data : List UInt8}

/-- The event as the compositor sends it to the source, object 7. -/
def sourceMessage : Event (Consumer data) → Message
  | .request c => .ofArgs 7 Zdcs.kEvSend [.str c.mime] c.fits
  | .cancel => ⟨7, Zdcs.kEvCancelled, [], Message.fits_nil⟩

/-- A message that leaves the source alone. -/
def Aside (m : Message) : Prop :=
  m.objectId ≠ 7 ∧ (m.opcode = WlDisplay.kEvDeleteId →
    (Reader.new m.objectId m.opcode m.payload).u32.1 ≠ 7)

/-- How source events come in and are served: `buf` and `fds` are received and not yet taken, the
script holds the reads to come and the calls of each transfer, and `rest` is what is left of it
when the client waits again. A descriptor is there when its event is complete. -/
inductive Arrives : List UInt8 → List Int → List Reply → List (Event (Consumer data)) →
    List Reply → Prop
  | wait {buf fds rest} (h : headMessage buf = none) : Arrives buf fds rest [] rest
  | read {buf fds script es rest} (bytes : List UInt8) (new : List Int)
      (hnone : headMessage buf = none) (hbytes : bytes ≠ [])
      (h : Arrives (buf ++ bytes) (fds ++ new) script es rest) :
      Arrives buf fds (.poll (.ok (.ready true)) :: .recvmsg (.ok (bytes, new)) :: script) es rest
  | aside {buf fds script es rest} (m : Message) (hm : Aside m)
      (h : Arrives buf fds script es rest) : Arrives (m.bytes ++ buf) fds script es rest
  | request {buf fds script es rest} (c : Consumer data) (h : Arrives buf fds script es rest) :
      Arrives ((sourceMessage (.request c)).bytes ++ buf) (c.fd :: fds) (c.replies ++ script)
        (.request c :: es) rest
  | cancel {buf fds script es rest} (h : Arrives buf fds script es rest) :
      Arrives ((sourceMessage (.cancel : Event (Consumer data))).bytes ++ buf) fds script
        (.cancel :: es) rest

/-- A client that waits for source events. -/
structure Attending (once : Bool) (data : List UInt8) (cl : Client CopyState) : Prop where
  flushed : Client.Flushed cl
  source : ∀ id, cl.objects id = .source ↔ id = 7
  sigpipe : cl.sigpipe = .default
  bytes : cl.st.data.bytes = data
  oneshot : cl.st.oneshot = once

theorem status_serve (st : CopyState) :
    (countServed st).status = st.status.serve ⟨st.oneshot, 1⟩ := rfl

theorem status_cancel (once : Bool) (st : CopyState) :
    (cancel st).status = st.status.cancel ⟨once, 1⟩ := by
  rcases hc : st.cancelCount with _ | k
  · simp [cancel, CopyState.status, Status.cancel, hc]
  · simp [cancel, CopyState.status, Status.cancel, hc]

theorem cancel_oneshot (st : CopyState) : (cancel st).oneshot = st.oneshot := by
  unfold cancel
  split_ifs <;> rfl

variable {once : Bool} {cl : Client CopyState} {buf : List UInt8} {fds : List Int}
  {rest : List Reply}

abbrev serving : Prog Halt (Client CopyState) Bool :=
  Client.dispatchUntil CopyState.done copyDispatcher

theorem handed_after (p : Process) (log : List Action) (rest : List Reply) :
    (p.after log rest).handed = p.handed ++ log.flatMap Action.handed := by
  simp [Process.after, Process.handed, Process.observe]

theorem onSend_consumer (c : Consumer data) (cl : Client CopyState) (hfds : cl.inFds = c.fd :: fds)
    (hbytes : cl.st.data.bytes = data) (hsig : cl.sigpipe = .default)
    (hs : cl.script = c.replies ++ rest) :
    onSend cl = if c.fatal then
        (.error .killed, { cl with toProcess := cl.after c.trace rest, inFds := fds })
      else (.ok (), { cl with
        toProcess := cl.after c.trace rest, inFds := fds, st := countServed cl.st }) := by
  have hserve := c.serve hs hsig
  rw [onSend_descriptor hfds c.valid, hbytes, hserve]
  split_ifs <;> rfl

/-! ## One step -/

/-- The client goes on as `cl'`, which has the bytes, descriptors and script given. -/
structure GoesOn (once : Bool) (data buf : List UInt8) (fds : List Int) (script : List Reply)
    (status : Status) (cs : List (Consumer data)) (cl cl' : Client CopyState) : Prop where
  step : serving cl = serving cl'
  attending : Attending once data cl'
  inBuf : cl'.inBuf = buf
  inFds : cl'.inFds = fds
  script : cl'.script = script
  status : cl'.st.status = status
  handed : cl'.handed = cl.handed ++ cs.flatMap Consumer.handed

theorem serving_read {bytes : List UInt8} {new : List Int} (h : Attending once data cl)
    (hdone : cl.st.done = false) (hnone : headMessage cl.inBuf = none) (hbytes : bytes ≠ [])
    (hs : cl.script = .poll (.ok (.ready true)) :: .recvmsg (.ok (bytes, new)) :: rest) :
    ∃ cl', GoesOn once data (cl.inBuf ++ bytes) (cl.inFds ++ new) rest cl.st.status [] cl cl' := by
  have hstep := Client.dispatchUntil_read CopyState.done copyDispatcher ⟨h.flushed, hdone⟩ hnone
    hbytes hs
  exact ⟨_, hstep, ⟨h.flushed, h.source, h.sigpipe, h.bytes, h.oneshot⟩, rfl, rfl, rfl, rfl,
    (Client.received_handed _ _ _ _).trans (List.append_nil _).symm⟩

variable (cl) in
theorem common_aside {m : Message} (hm : Aside m) (hsource : ∀ id, cl.objects id = .source ↔ id = 7) :
    let cl' := common m.objectId m.opcode (.new m.objectId m.opcode m.payload) cl
    (∀ id, cl'.objects id = .source ↔ id = 7) ∧ ∃ s, cl'.st = withSession s cl.st := by
  have hsame : ∃ s, cl.st = withSession s cl.st := ⟨session cl.st, rfl⟩
  unfold common
  split
  · split_ifs with hop
    · refine ⟨fun id => ?_, hsame⟩
      have hne := hm.2 hop
      change (if id = _ then ObjKind.unknown else cl.objects id) = .source ↔ id = 7
      split_ifs with hid
      · simpa [hid] using hne
      · exact hsource id
    · exact ⟨hsource, hsame⟩
  all_goals
    first
    | exact ⟨hsource, hsame⟩
    | (split_ifs
       · exact ⟨hsource, _, rfl⟩
       · exact ⟨hsource, hsame⟩)

theorem serving_aside {m : Message} (hm : Aside m) (h : Attending once data cl)
    (hdone : cl.st.done = false) (hbuf : cl.inBuf = m.bytes ++ buf) :
    ∃ cl', GoesOn once data buf cl.inFds cl.script cl.st.status [] cl cl' := by
  let cl₁ := common m.objectId m.opcode (.new m.objectId m.opcode m.payload) (cl.logged m)
  have hother : (cl.logged m).objects m.objectId ≠ .source := fun hs => hm.1 ((h.source _).mp hs)
  have hconn : cl₁.toConnection = (cl.logged m).toConnection :=
    common_toConnection _ _ _ (cl.logged m)
  obtain ⟨hsource, s, hst⟩ := common_aside (cl.logged m) hm h.source
  have hst' : cl₁.st = withSession s cl.st := hst
  have hflushed : Client.Flushed cl₁ := by
    unfold Client.Flushed
    rw [hconn]
    exact h.flushed
  have hbuf' : cl₁.inBuf = m.bytes ++ buf := (congrArg Connection.inBuf hconn).trans hbuf
  have hfds : cl₁.inFds = cl.inFds := (congrArg Connection.inFds hconn).trans rfl
  have hscript : cl₁.script = cl.script :=
    (congrArg (fun c : Connection => c.script) hconn).trans rfl
  have hstatus : cl₁.st.status = cl.st.status := (congrArg CopyState.status hst').trans rfl
  refine ⟨cl₁.consumed m.size, ?_, ⟨hflushed, hsource, ?_, ?_, ?_⟩, Client.consumed_bytes hbuf',
    hfds, hscript, hstatus, ?_⟩
  · exact Client.dispatchUntil_handled ⟨h.flushed, hdone⟩ hbuf (handleCopy_other hother) hflushed
  · exact (congrArg (fun c : Connection => c.sigpipe) hconn).trans h.sigpipe
  · exact (congrArg (fun st : CopyState => st.data.bytes) hst').trans h.bytes
  · exact (congrArg CopyState.oneshot hst').trans h.oneshot
  · have hhanded := congrArg (fun c : Connection => c.handed) hconn
    exact (hhanded.trans (Client.logged_handed m cl)).trans (List.append_nil _).symm

theorem serving_cancel (h : Attending once data cl) (hdone : cl.st.done = false)
    (hbuf : cl.inBuf = (sourceMessage (.cancel : Event (Consumer data))).bytes ++ buf) :
    ∃ cl', GoesOn once data buf cl.inFds cl.script (cl.st.status.cancel ⟨once, 1⟩) [] cl cl' := by
  let m : Message := sourceMessage (.cancel : Event (Consumer data))
  have hhandle : copyDispatcher.handle 7 Zdcs.kEvCancelled (.new 7 Zdcs.kEvCancelled [])
      (cl.logged m) = (.ok (), { cl.logged m with st := cancel cl.st }) :=
    handleCopy_source ((h.source 7).mpr rfl)
  refine ⟨_, Client.dispatchUntil_handled ⟨h.flushed, hdone⟩ hbuf hhandle h.flushed,
    ⟨h.flushed, h.source, h.sigpipe, ?_, ?_⟩, Client.consumed_bytes hbuf, rfl, rfl,
    status_cancel once cl.st, (Client.logged_handed m cl).trans (List.append_nil _).symm⟩
  · exact (congrArg CopyData.bytes (cancel_serving cl).data).trans h.bytes
  · exact (cancel_oneshot cl.st).trans h.oneshot

theorem handle_request (c : Consumer data) (h : Attending once data cl)
    (hfds : cl.inFds = c.fd :: fds) (hs : cl.script = c.replies ++ rest) :
    let cl₁ := cl.logged (sourceMessage (.request c))
    copyDispatcher.handle 7 Zdcs.kEvSend
        (.new 7 Zdcs.kEvSend (sourceMessage (.request c)).payload) cl₁ =
      if c.fatal then
        (.error .killed, { cl₁ with toProcess := cl₁.after c.trace rest, inFds := fds })
      else (.ok (), { cl₁ with
        toProcess := cl₁.after c.trace rest, inFds := fds, st := countServed cl.st }) := by
  have hsource : (cl.logged (sourceMessage (.request c))).objects 7 = .source :=
    (h.source 7).mpr rfl
  refine (handleCopy_source hsource).trans ?_
  exact onSend_consumer c (cl.logged (sourceMessage (.request c))) hfds h.bytes h.sigpipe hs

theorem serving_fatal (c : Consumer data) (hc : c.fatal = true) (h : Attending once data cl)
    (hdone : cl.st.done = false) (hbuf : cl.inBuf = (sourceMessage (.request c)).bytes ++ buf)
    (hfds : cl.inFds = c.fd :: fds) (hs : cl.script = c.replies ++ rest) :
    ∃ cl', serving cl = (.error .killed, cl') ∧ cl'.handed = cl.handed ++ c.handed := by
  have hhandle := (handle_request c h hfds hs).trans (if_pos hc)
  refine ⟨_, Client.dispatchUntil_halted ⟨h.flushed, hdone⟩ hbuf hhandle, ?_⟩
  exact (handed_after _ _ _).trans (congrArg (· ++ c.handed) (Client.logged_handed _ cl))

theorem serving_request (c : Consumer data) (hc : ¬ c.fatal = true) (h : Attending once data cl)
    (hdone : cl.st.done = false) (hbuf : cl.inBuf = (sourceMessage (.request c)).bytes ++ buf)
    (hfds : cl.inFds = c.fd :: fds) (hs : cl.script = c.replies ++ rest) :
    ∃ cl', GoesOn once data buf fds rest (cl.st.status.serve ⟨once, 1⟩) [c] cl cl' := by
  have hhandle := (handle_request c h hfds hs).trans (if_neg hc)
  refine ⟨_, Client.dispatchUntil_handled ⟨h.flushed, hdone⟩ hbuf hhandle h.flushed,
    ⟨h.flushed, h.source, h.sigpipe, h.bytes, h.oneshot⟩, Client.consumed_bytes hbuf, rfl, rfl,
    ?_, ?_⟩
  · rw [← h.oneshot]
    exact status_serve cl.st
  · refine (handed_after _ _ _).trans ?_
    rw [Client.logged_handed]
    simp [Consumer.handed]

/-! ## A run -/

/-- The client `cl` has run as far as the events go: it is dead, its loop is over, or it waits with
`rest` left of its script; `cs` are the consumers that it served. -/
def Ran (once : Bool) (data : List UInt8) (rest : List Reply) (cl : Client CopyState) :
    List (Consumer data) × Outcome → Prop
  | (cs, .killed) => ∃ cl', serving cl = (.error .killed, cl') ∧
      cl'.handed = cl.handed ++ cs.flatMap Consumer.handed
  | (cs, .ended s) => ∃ cl', serving cl = (.ok true, cl') ∧ cl'.st.status = s ∧
      cl'.handed = cl.handed ++ cs.flatMap Consumer.handed
  | (cs, .waiting s) => ∃ cl', serving cl = serving cl' ∧ Attending once data cl' ∧
      headMessage cl'.inBuf = none ∧ cl'.script = rest ∧ cl'.st.status = s ∧ s.done = false ∧
      cl'.handed = cl.handed ++ cs.flatMap Consumer.handed

variable {script : List Reply} {status : Status} {cs cs' : List (Consumer data)}
  {cl' : Client CopyState} {o : Outcome}

theorem GoesOn.ran (hstep : GoesOn once data buf fds script status cs' cl cl')
    (h : Ran once data rest cl' (cs, o)) : Ran once data rest cl (cs' ++ cs, o) := by
  have hlog : ∀ {cl'' : Client CopyState}, cl''.handed = cl'.handed ++ cs.flatMap Consumer.handed →
      cl''.handed = cl.handed ++ (cs' ++ cs).flatMap Consumer.handed := fun h => by
    rw [h, hstep.handed, List.flatMap_append, List.append_assoc]
  cases o with
  | killed =>
      obtain ⟨cl'', hrun, hhanded⟩ := h
      exact ⟨cl'', hstep.step.trans hrun, hlog hhanded⟩
  | ended s =>
      obtain ⟨cl'', hrun, hs, hhanded⟩ := h
      exact ⟨cl'', hstep.step.trans hrun, hs, hlog hhanded⟩
  | waiting s =>
      obtain ⟨cl'', hrun, hat, hnone, hscript, hs, hdone, hhanded⟩ := h
      exact ⟨cl'', hstep.step.trans hrun, hat, hnone, hscript, hs, hdone, hlog hhanded⟩

/-- However its source events come in, the loop of the handcrafted copy is the daemon that ignores
one cancel. -/
theorem serving_run {es : List (Event (Consumer data))} (harr : Arrives buf fds script es rest)
    (h : Attending once data cl) (hbuf : cl.inBuf = buf) (hfds : cl.inFds = fds)
    (hs : cl.script = script) :
    Ran once data rest cl (run ⟨once, 1⟩ Consumer.fatal cl.st.status (singly es)) := by
  induction harr generalizing cl with
  | wait hnone =>
      by_cases hdone : cl.st.done = true
      · rw [run_done hdone]
        exact ⟨cl, Client.dispatchUntil_stop hdone, rfl, by simp⟩
      · rw [Bool.not_eq_true] at hdone
        have hrun : run ⟨once, 1⟩ Consumer.fatal cl.st.status (singly []) =
            (([], .waiting cl.st.status) : List (Consumer data) × Outcome) := by
          simp [singly, run, CopyState.status, hdone]
        rw [hrun]
        exact ⟨cl, rfl, h, hbuf ▸ hnone, hs, rfl, hdone, by simp⟩
  | read bytes new hnone hbytes _ ih =>
      by_cases hdone : cl.st.done = true
      · rw [run_done hdone]
        exact ⟨cl, Client.dispatchUntil_stop hdone, rfl, by simp⟩
      · rw [Bool.not_eq_true] at hdone
        obtain ⟨cl', hstep⟩ := serving_read h hdone (hbuf ▸ hnone) hbytes hs
        have htail := ih hstep.attending (hbuf ▸ hstep.inBuf) (hfds ▸ hstep.inFds) hstep.script
        rw [hstep.status] at htail
        exact hstep.ran htail
  | aside m hm _ ih =>
      by_cases hdone : cl.st.done = true
      · rw [run_done hdone]
        exact ⟨cl, Client.dispatchUntil_stop hdone, rfl, by simp⟩
      · rw [Bool.not_eq_true] at hdone
        obtain ⟨cl', hstep⟩ := serving_aside hm h hdone hbuf
        have htail := ih hstep.attending hstep.inBuf (hstep.inFds.trans hfds) (hstep.script.trans hs)
        rw [hstep.status] at htail
        exact hstep.ran htail
  | request c _ ih =>
      by_cases hdone : cl.st.done = true
      · rw [run_done hdone]
        exact ⟨cl, Client.dispatchUntil_stop hdone, rfl, by simp⟩
      · rw [Bool.not_eq_true] at hdone
        rw [run_request hdone]
        by_cases hc : c.fatal = true
        · rw [if_pos hc]
          obtain ⟨cl', hrun, hlog⟩ := serving_fatal c hc h hdone hbuf hfds hs
          exact ⟨cl', hrun, by simpa using hlog⟩
        · rw [if_neg hc]
          obtain ⟨cl', hstep⟩ := serving_request c hc h hdone hbuf hfds hs
          have htail := ih hstep.attending hstep.inBuf hstep.inFds hstep.script
          rw [hstep.status] at htail
          exact hstep.ran htail
  | cancel _ ih =>
      by_cases hdone : cl.st.done = true
      · rw [run_done hdone]
        exact ⟨cl, Client.dispatchUntil_stop hdone, rfl, by simp⟩
      · rw [Bool.not_eq_true] at hdone
        rw [run_cancel hdone]
        obtain ⟨cl', hstep⟩ := serving_cancel h hdone hbuf
        have htail := ih hstep.attending hstep.inBuf (hstep.inFds.trans hfds) (hstep.script.trans hs)
        rw [hstep.status] at htail
        exact hstep.ran htail

/-- The replies on which a waiting client gets the event in a read of its own and serves it. -/
def eventReplies (e : Event (Consumer data)) : List Reply :=
  match e with
  | .request c => .poll (.ok (.ready true)) ::
      .recvmsg (.ok ((sourceMessage e).bytes, [c.fd])) :: c.replies
  | .cancel => [.poll (.ok (.ready true)), .recvmsg (.ok ((sourceMessage e).bytes, []))]

theorem arrives_singly (es : List (Event (Consumer data))) (rest : List Reply) :
    Arrives [] [] (es.flatMap eventReplies ++ rest) es rest := by
  have hnone : headMessage [] = none := rfl
  induction es with
  | nil => exact .wait hnone
  | cons e es ih =>
      rw [List.flatMap_cons, List.append_assoc]
      have hne := Message.framing.bytes_ne_nil (sourceMessage e)
      cases e with
      | request c =>
          refine .read _ _ hnone hne ?_
          rw [List.nil_append, List.nil_append, ← List.append_nil (sourceMessage _).bytes]
          exact .request c ih
      | cancel =>
          refine .read _ _ hnone hne ?_
          rw [List.nil_append, List.nil_append, ← List.append_nil (sourceMessage _).bytes]
          exact .cancel ih

end Handcrafted

end WlClip
