import WlClip.Connection

/-!
# What an operation of a connection moves

Whatever an operation receives is appended to the buffers, and whatever it sends comes from the head
of what was queued. This is said once for each operation; what a run as a whole receives and sends
follows from it.
-/

open ScriptedProgram ScriptedProgram.Prog

namespace WlClip

def Action.received (a : Action) : List UInt8 := (a.reply.map Reply.received).getD []

def Action.receivedFds (a : Action) : List Int := (a.reply.map Reply.receivedFds).getD []

/-- The bytes that the socket took. -/
def Action.sent : Action → List UInt8
  | .call (.sendmsg _ bytes _) (.sendmsg (.ok n)) => bytes.take n
  | _ => []

def Action.sentFds : Action → List Int
  | .call (.sendmsg _ _ fds) (.sendmsg (.ok _)) => fds
  | _ => []

def Action.queuedFds : Action → List Int
  | .queueFd fd => [fd]
  | _ => []

/-- Sends, or closes what was sent. -/
inductive Action.Sending : Action → Prop
  | sendmsg (fd : Int) (bytes : List UInt8) (fds : List Int) (r : Reply) :
      Sending (.call (.sendmsg fd bytes fds) r)
  | close (fd : Int) : Sending (.close fd)

/-- What an operation of a connection does to the socket besides sending. -/
inductive Action.Carries : Action → Prop
  | socket (r : Reply) : Carries (.call .socket r)
  | connect (fd : Int) (path : Text) (r : Reply) : Carries (.call (.connect fd path) r)
  | poll (fd timeout : Int) (r : Reply) : Carries (.call (.poll fd timeout) r)
  | recvmsg (fd : Int) (r : Reply) : Carries (.call (.recvmsg fd) r)
  | close (fd : Int) : Carries (.close fd)
  | queue (bytes : List UInt8) : Carries (.queue bytes)

namespace Connection

/-- What was received is at the end of the buffers, and what was queued has been sent or is left. -/
structure Moves (A : Action → Prop) (c c' : Connection) : Prop where
  log : ∃ log, c'.trace = c.trace ++ log ∧ (∀ a ∈ log, A a) ∧
    c'.inBuf = c.inBuf ++ log.flatMap Action.received ∧
    c'.inFds = c.inFds ++ log.flatMap Action.receivedFds ∧
    c.outBuf ++ log.flatMap Action.queued = log.flatMap Action.sent ++ c'.outBuf ∧
    c.outFds ++ log.flatMap Action.queuedFds = log.flatMap Action.sentFds ++ c'.outFds

/-- Has nothing to do with the buffers. -/
structure Still (a : Action) : Prop where
  received : a.received = []
  receivedFds : a.receivedFds = []
  sent : a.sent = []
  sentFds : a.sentFds = []
  queued : a.queued = []
  queuedFds : a.queuedFds = []

section

variable {A : Action → Prop} {c c' c'' : Connection} {α : Type}

theorem Moves.trans (h : Moves A c c') (h' : Moves A c' c'') : Moves A c c'' := by
  obtain ⟨log, htrace, hlog, hin, hinFds, hout, houtFds⟩ := h.log
  obtain ⟨log', htrace', hlog', hin', hinFds', hout', houtFds'⟩ := h'.log
  refine ⟨log ++ log', ?_, ?_, ?_, ?_, ?_, ?_⟩
  · rw [htrace', htrace, List.append_assoc]
  · exact fun a ha => (List.mem_append.mp ha).elim (hlog a) (hlog' a)
  · rw [hin', hin, List.flatMap_append, List.append_assoc]
  · rw [hinFds', hinFds, List.flatMap_append, List.append_assoc]
  · rw [List.flatMap_append, List.flatMap_append, ← List.append_assoc, hout, List.append_assoc,
      hout', List.append_assoc]
  · rw [List.flatMap_append, List.flatMap_append, ← List.append_assoc, houtFds, List.append_assoc,
      houtFds', List.append_assoc]

instance : IsPreorder Connection (Moves A) where
  refl _ := ⟨[], by simp⟩
  trans _ _ _ := Moves.trans

/-- What the actions of an operation do not show it leaves as it is. -/
theorem Moves.observe_eq {β : Type} {f : Action → List β} (h : Moves A c c')
    (hf : ∀ a, A a → f a = []) : c'.observe f = c.observe f := by
  obtain ⟨log, htrace, hlog, -⟩ := h.log
  have hnone : log.flatMap f = [] := List.flatMap_eq_nil_iff.mpr fun a ha => hf a (hlog a ha)
  rw [Process.observe, htrace, List.flatMap_append, hnone, List.append_nil]
  rfl

/-- Actions that have nothing to do with the buffers, which are left alone. -/
theorem Moves.of_still (log : List Action) (htrace : c'.trace = c.trace ++ log)
    (hlog : ∀ a ∈ log, A a ∧ Still a) (hin : c'.inBuf = c.inBuf) (hinFds : c'.inFds = c.inFds)
    (hout : c'.outBuf = c.outBuf) (houtFds : c'.outFds = c.outFds) : Moves A c c' := by
  have hnil : ∀ {β : Type} {f : Action → List β}, (∀ a, Still a → f a = []) → log.flatMap f = [] :=
    fun hf => List.flatMap_eq_nil_iff.mpr fun a ha => hf a (hlog a ha).2
  refine ⟨log, htrace, fun a ha => (hlog a ha).1, ?_, ?_, ?_, ?_⟩
  · rw [hnil fun _ h => h.received, hin, List.append_nil]
  · rw [hnil fun _ h => h.receivedFds, hinFds, List.append_nil]
  · rw [hnil fun _ h => h.queued, hnil fun _ h => h.sent, hout, List.append_nil, List.nil_append]
  · rw [hnil fun _ h => h.queuedFds, hnil fun _ h => h.sentFds, houtFds, List.append_nil,
      List.nil_append]

theorem still_close (fd : Int) : Still (.close fd) := ⟨rfl, rfl, rfl, rfl, rfl, rfl⟩

theorem sock_moves (fd : Int) :
    Within (Moves A) (Prog.update fun c : Connection => { c with sock := fd } :
      Prog Halt Connection Unit) :=
  Within.update fun _ =>
    .of_still [] (List.append_nil _).symm (List.forall_mem_nil _) rfl rfl rfl rfl

theorem ask_moves {call : Call} {answer : Reply → Option α} (hcarries : ∀ r, A (.call call r))
    (hsent : ∀ r, (Action.call call r).sent = [] ∧ (Action.call call r).sentFds = [])
    (hanswer : ∀ r, answer (.recvmsg r) = none) :
    Within (Moves A) (sys (Process.ask call answer)) := by
  intro c
  simp only [sys, Prog.zoom_apply]
  rcases hr : Process.ask call answer c.toProcess with ⟨e | a, q⟩
  · obtain ⟨-, rfl⟩ := Process.ask_error hr
    exact refl _
  · obtain ⟨r, rest, -, ha, rfl⟩ := Process.ask_ok hr
    have hreceived : r.received = [] ∧ r.receivedFds = [] := by
      cases r with
      | recvmsg r => cases (hanswer r).symm.trans ha
      | _ => exact ⟨rfl, rfl⟩
    have hstill : Still (.call call r) :=
      ⟨hreceived.1, hreceived.2, (hsent r).1, (hsent r).2, rfl, rfl⟩
    exact .of_still _ rfl (List.forall_mem_singleton.mpr ⟨hcarries r, hstill⟩) rfl rfl rfl rfl

theorem flushRound_moves : Within (Moves Action.Sending) (flushRound ()) := by
  refine flushRound_step.mono fun c c' hstep => ?_
  have hcall : ∀ r, Action.Sending (c.sendAction r) := fun r => .sendmsg _ _ _ _
  cases hstep with
  | idle => exact refl _
  | failed e rest =>
      have hstill : Still (c.sendAction (.error e)) := ⟨rfl, rfl, rfl, rfl, rfl, rfl⟩
      exact .of_still _ rfl (List.forall_mem_singleton.mpr ⟨hcall _, hstill⟩) rfl rfl rfl rfl
  | took n rest =>
      have hsent : Moves Action.Sending c { c with
          toProcess := c.after [c.sendAction (.ok n)] rest
          outBuf := c.outBuf.drop n
          outFds := c.outFds.drop (min c.outFds.length kMaxFdsPerMsg) } := by
        refine ⟨_, rfl, List.forall_mem_singleton.mpr (hcall _), ?_, ?_, ?_, ?_⟩
        · exact (List.append_nil _).symm
        · exact (List.append_nil _).symm
        · simp [Action.queued, Action.sent]
        · simp [Action.queuedFds, Action.sentFds]
      apply hsent.trans
      refine .of_still _ rfl (fun a ha => ?_) rfl rfl rfl rfl
      obtain ⟨fd, -, rfl⟩ := List.mem_map.mp ha
      exact ⟨.close fd, still_close fd⟩

theorem flush_moves : Within (Moves Action.Sending) flush :=
  Within.loop (fun _ => flushRound_moves) ()

theorem waitReadable_moves (timeout : Int) :
    Within (Moves Action.Carries) (waitReadable timeout) := by
  apply Within.bind (R := Moves Action.Carries) (Within.read _)
  intro sock
  apply Within.bind (ask_moves (fun r => .poll _ _ r) (fun _ => ⟨rfl, rfl⟩) fun _ => rfl)
  rintro (e | _ | pollin) <;> exact Within.pure _

theorem pump_moves : Within (Moves Action.Carries) pump := by
  intro c
  rw [pump_eq]
  rcases hq : Process.recvmsg c.sock c.toProcess with ⟨e | r, q⟩
  · obtain ⟨-, rfl⟩ := Process.ask_error hq
    exact refl _
  · obtain ⟨rest, -, rfl⟩ := Process.recvmsg_ok hq
    have hlog : ∀ a ∈ [Action.call (.recvmsg c.sock) (.recvmsg r)], a.Carries :=
      List.forall_mem_singleton.mpr (.recvmsg _ _)
    rcases r with e | ⟨_ | ⟨b, data⟩, fds⟩
    · cases e <;> exact ⟨_, rfl, hlog, (List.append_nil _).symm, (List.append_nil _).symm,
        List.append_nil _, List.append_nil _⟩
    · exact ⟨_, rfl, hlog, (List.append_nil _).symm, (List.append_nil _).symm,
        List.append_nil _, List.append_nil _⟩
    · refine ⟨_, rfl, hlog, ?_, ?_, List.append_nil _, List.append_nil _⟩ <;>
        simp [Action.received, Action.receivedFds, Action.reply, Reply.received, Reply.receivedFds]

theorem connect_moves (display : Text) : Within (Moves Action.Carries) (connect display) := by
  apply Within.bind (R := Moves Action.Carries) (Within.read _)
  intro getenv
  rcases getenv (text "XDG_RUNTIME_DIR") with _ | runtime
  · exact Within.pure _
  apply Within.bind (ask_moves (fun r => .socket r) (fun _ => ⟨rfl, rfl⟩) fun _ => rfl)
  rintro (e | fd)
  · exact Within.pure _
  apply Within.bind (sock_moves fd)
  intro _
  refine Within.ite (Within.pure _) ?_
  apply Within.bind (ask_moves (fun r => .connect _ _ r) (fun _ => ⟨rfl, rfl⟩) fun _ => rfl)
  rintro (e | u)
  · have hclose : Within (Moves Action.Carries) (sys (Process.close fd)) := fun c =>
      .of_still _ rfl (List.forall_mem_singleton.mpr ⟨.close fd, still_close fd⟩) rfl rfl rfl rfl
    apply Within.bind hclose
    intro _
    exact Within.bind (sock_moves (-1)) fun _ => Within.pure _
  · exact Within.pure _

theorem outBytes_moves (bytes : List UInt8) : Within (Moves Action.Carries) (outBytes bytes) := by
  apply Within.update
  intro c
  refine ⟨_, rfl, List.forall_mem_singleton.mpr (.queue bytes), ?_, ?_, ?_, ?_⟩
  · exact (List.append_nil _).symm
  · exact (List.append_nil _).symm
  · simp [Action.queued, Action.sent]
  · simp [Action.queuedFds, Action.sentFds]

end

end Connection

end WlClip
