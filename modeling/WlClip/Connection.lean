import WlClip.Process
import Mathlib.Tactic.SplitIfs

/-!
# The socket connection

`Connection` of `wire.cpp`: the bytes and descriptors received and not yet taken, and those
queued and not yet sent. A connection is kept together with the process that owns it.
-/

open ScriptedProgram ScriptedProgram.Prog LittleEndian

namespace WlClip

def kMaxFdsPerMsg : ℕ := 28

/-- `sizeof(sockaddr_un::sun_path)`. -/
def kSunPathSize : ℕ := 108

structure Connection extends Process where
  sock : Int
  inBuf : List UInt8
  inFds : List Int
  outBuf : List UInt8
  outFds : List Int

namespace Connection

def new (p : Process) : Connection :=
  { toProcess := p, sock := -1, inBuf := [], inFds := [], outBuf := [], outFds := [] }

def sys {α : Type} (p : Prog Halt Process α) : Prog Halt Connection α :=
  .zoom Connection.toProcess (fun c q => { c with toProcess := q }) p

def connect (displayName : Text) : Prog Halt Connection Bool := do
  let getenv ← Prog.read fun c => c.getenv
  match getenv (text "XDG_RUNTIME_DIR") with
  | none => return false
  | some runtime =>
    let name := if displayName.isEmpty then
      (getenv (text "WAYLAND_DISPLAY")).getD (text "wayland-0") else displayName
    let path := if name.head? = some 0x2F then name else runtime ++ text "/" ++ name
    match ← sys Process.socket with
    | .error _ => return false
    | .ok fd =>
      Prog.update fun c => { c with sock := fd }
      if path.length ≥ kSunPathSize then return false
      else
        match ← sys (Process.connect fd path) with
        | .error _ =>
          sys (Process.close fd)
          Prog.update fun c => { c with sock := -1 }
          return false
        | .ok _ => return true

/-- Closes the socket and every descriptor still queued either way. -/
def close : Prog Halt Connection Unit :=
  .update fun c =>
    { c with
      trace := c.trace ++ (if c.sock ≥ 0 then [.close c.sock] else []) ++
        c.inFds.map .close ++ c.outFds.map .close
      sock := -1, inBuf := [], inFds := [], outBuf := [], outFds := [] }

def outBytes (data : List UInt8) : Prog Halt Connection Unit :=
  .update fun c => { c with outBuf := c.outBuf ++ data, trace := c.trace ++ [.queue data] }

def outFd (fd : Int) : Prog Halt Connection Unit :=
  .update fun c => { c with outFds := c.outFds ++ [fd], trace := c.trace ++ [.queueFd fd] }

/-- What one `sendmsg` that took `n` bytes and `nfd` descriptors leaves to be sent. -/
def sent (n nfd : ℕ) (c : Connection) : Connection :=
  { c with
    outBuf := c.outBuf.drop n
    trace := c.trace ++ (c.outFds.take nfd).map .close
    outFds := c.outFds.drop nfd }

def flushRound (_ : Unit) : Prog Halt Connection (Unit ⊕ Bool) := do
  let c ← Prog.read id
  if c.outBuf = [] ∧ c.outFds = [] then return .inr true
  else if c.outBuf = [] then return .inr false
  else
    let nfd := min c.outFds.length kMaxFdsPerMsg
    match ← sys (Process.sendmsg c.sock c.outBuf (c.outFds.take nfd)) with
    | .error .EINTR => return .inl ()
    | .error _ => return .inr false
    | .ok n =>
      Prog.update (sent n nfd)
      return .inl ()

def flush : Prog Halt Connection Bool :=
  loop .stuck (fun _ c => c.toProcess.size) flushRound ()

def waitReadable (timeout : Int) : Prog Halt Connection Bool := do
  let sock ← Prog.read Connection.sock
  match ← sys (Process.poll sock timeout) with
  | .error _ => return false
  | .ok .timeout => return false
  | .ok (.ready pollin) => return pollin

def pump : Prog Halt Connection Int := do
  let sock ← Prog.read Connection.sock
  match ← sys (Process.recvmsg sock) with
  | .error .EAGAIN => return 0
  | .error .EINTR => return 0
  | .error _ => return -1
  | .ok (data, fds) =>
    if data = [] then return 0
    else
      Prog.update fun c => { c with inBuf := c.inBuf ++ data, inFds := c.inFds ++ fds }
      return data.length

def inConsume (n : ℕ) : Prog Halt Connection Unit :=
  .update fun c => { c with inBuf := c.inBuf.drop n }

/-- The next descriptor delivered, or `-1`. -/
def popFd : Prog Halt Connection Int := fun c =>
  match c.inFds with
  | [] => (.ok (-1), c)
  | fd :: rest => (.ok fd, { c with inFds := rest })

/-! ## What the operations leave alone -/

/-- Neither the receive buffer nor what is still to be received has changed. -/
structure KeepsInput (c c' : Connection) : Prop where
  logs : Process.Logs Action.Silent c.toProcess c'.toProcess
  inBuf : c'.inBuf = c.inBuf
  inFds : c'.inFds = c.inFds

/-- Bytes and descriptors may have moved from those still to come into the receive buffer. -/
structure Quiet (c c' : Connection) : Prop where
  logs : Process.Logs Action.Io c.toProcess c'.toProcess
  grows : c.inBuf <+: c'.inBuf
  bytes : c'.inBuf ++ c'.pending = c.inBuf ++ c.pending
  fds : c'.inFds ++ c'.pendingFds = c.inFds ++ c.pendingFds

variable {α : Type} {c c' : Connection}

instance : IsPreorder Connection KeepsInput where
  refl _ := ⟨.refl _, rfl, rfl⟩
  trans _ _ _ h h' := ⟨h.logs.trans h'.logs, h'.inBuf.trans h.inBuf, h'.inFds.trans h.inFds⟩

theorem KeepsInput.pending (h : KeepsInput c c') : c'.pending = c.pending :=
  (h.logs.mono fun _ => Action.Silent.unheard).pending_eq

theorem KeepsInput.quiet (h : KeepsInput c c') : Quiet c c' where
  logs := h.logs.mono fun _ => Action.Silent.io
  grows := h.inBuf ▸ List.prefix_rfl
  bytes := by rw [h.inBuf, h.pending]
  fds := by rw [h.inFds, show c'.pendingFds = c.pendingFds from h.logs.pendingFds_eq]

theorem Quiet.dispatched (h : Quiet c c') : c'.dispatched = c.dispatched :=
  h.logs.observe_eq fun _ => Action.Io.dispatched

theorem Quiet.queued (h : Quiet c c') : c'.queued = c.queued :=
  h.logs.observe_eq fun _ => Action.Io.queued

theorem sys_keepsInput {p : Prog Halt Process α} (h : Within (Process.Logs Action.Silent) p) :
    Within KeepsInput (sys p) :=
  h.zoom fun _ _ hlogs => ⟨hlogs, rfl, rfl⟩

theorem sent_keepsInput (n nfd : ℕ) (c : Connection) : KeepsInput c (sent n nfd c) := by
  refine ⟨⟨⟨_, rfl, ?_, ?_⟩, rfl, rfl⟩, rfl, rfl⟩
  · rw [Process.filterMap_close]
    rfl
  · intro a ha
    obtain ⟨fd, -, rfl⟩ := List.mem_map.mp ha
    exact .close fd

theorem flushRound_keepsInput : Within KeepsInput (flushRound ()) := by
  refine Within.bind (Within.read _) fun c => Within.ite (Within.pure _) <|
    Within.ite (Within.pure _) <| Within.bind (sys_keepsInput (Process.sendmsg_silent _ _ _)) ?_
  rintro (e | n)
  · cases e <;> exact Within.pure _
  · exact Within.bind (Within.update (sent_keepsInput _ _)) fun _ => Within.pure _

theorem flush_keepsInput : Within KeepsInput flush :=
  Within.loop (fun _ => flushRound_keepsInput) ()

theorem waitReadable_keepsInput (timeout : Int) : Within KeepsInput (waitReadable timeout) := by
  refine Within.bind (Within.read _) fun fd =>
    Within.bind (sys_keepsInput (Process.poll_silent _ _)) ?_
  rintro (e | _ | pollin) <;> exact Within.pure _

/-- The process logged calls that receive nothing and no more. -/
def SilentRun (c c' : Connection) : Prop := Process.Logs Action.Silent c.toProcess c'.toProcess

instance : IsPreorder Connection SilentRun where
  refl _ := .refl _
  trans _ _ _ := .trans

theorem connect_silent (displayName : Text) : Within SilentRun (connect displayName) := by
  have hsys {α : Type} {p : Prog Halt Process α} (h : Within (Process.Logs Action.Silent) p) :
      Within SilentRun (sys p) := h.zoom fun _ _ hlogs => hlogs
  refine Within.bind (Within.read _) fun getenv => ?_
  rcases getenv (text "XDG_RUNTIME_DIR") with _ | runtime
  · exact Within.pure _
  · refine Within.bind (hsys Process.socket_silent) ?_
    rintro (e | fd)
    · exact Within.pure _
    · refine Within.bind (Within.update fun _ => .refl _) fun _ =>
        Within.ite (Within.pure _) (Within.bind (hsys (Process.connect_silent _ _)) ?_)
      rintro (e | u)
      · exact Within.bind (hsys (Process.close_silent _)) fun _ =>
          Within.bind (Within.update fun _ => .refl _) fun _ => Within.pure _
      · exact Within.pure _

/-- A connection that is closed closes descriptors and does no more. -/
theorem close_trace (c : Connection) : ∃ log, (close c).2.trace = c.trace ++ log ∧
    ∀ a ∈ log, ∃ fd, a = .close fd := by
  refine ⟨(if c.sock ≥ 0 then [.close c.sock] else []) ++ (c.inFds ++ c.outFds).map .close,
    by simp [close], fun a ha => ?_⟩
  rcases List.mem_append.mp ha with ha | ha
  · split_ifs at ha
    · exact ⟨c.sock, List.mem_singleton.mp ha⟩
    · cases ha
  · obtain ⟨fd, -, rfl⟩ := List.mem_map.mp ha
    exact ⟨fd, rfl⟩

theorem close_silent : Within SilentRun close := by
  intro c
  obtain ⟨log, htrace, hlog⟩ := close_trace c
  have hreply : log.filterMap Action.reply = [] := by
    rw [List.filterMap_eq_nil_iff]
    intro a ha
    obtain ⟨fd, rfl⟩ := hlog a ha
    rfl
  refine ⟨⟨log, htrace, by rw [hreply]; rfl, fun a ha => ?_⟩, rfl, rfl⟩
  obtain ⟨fd, rfl⟩ := hlog a ha
  exact .close fd

theorem observe_close {β : Type} {f : Action → List β} (hf : ∀ fd, f (.close fd) = [])
    (c : Connection) : (close c).2.observe f = c.observe f := by
  obtain ⟨log, htrace, hlog⟩ := close_trace c
  rw [Process.observe, htrace, List.flatMap_append, Process.flatMap_closes hf hlog, List.append_nil]
  rfl

/-! ## Sending -/

/-- A round of `flush` goes on after an interrupted or a successful `sendmsg` only. -/
theorem flushRound_eq (c : Connection) :
    flushRound () c =
      if c.outBuf = [] ∧ c.outFds = [] then (.ok (.inr true), c)
      else if c.outBuf = [] then (.ok (.inr false), c)
      else match Process.sendmsg c.sock c.outBuf (c.outFds.take (min c.outFds.length kMaxFdsPerMsg))
          c.toProcess with
        | (.error e, q) => (.error e, { c with toProcess := q })
        | (.ok (.error .EINTR), q) => (.ok (.inl ()), { c with toProcess := q })
        | (.ok (.error _), q) => (.ok (.inr false), { c with toProcess := q })
        | (.ok (.ok n), q) =>
          (.ok (.inl ()), sent n (min c.outFds.length kMaxFdsPerMsg) { c with toProcess := q }) := by
  unfold flushRound
  simp only [bind_apply, Prog.read_apply, id_eq]
  split_ifs with hboth hbuf
  · rfl
  · rfl
  · simp only [bind_apply, sys, Prog.zoom_apply]
    rcases Process.sendmsg c.sock c.outBuf _ c.toProcess with ⟨e | (e | n), q⟩
    · rfl
    · cases e <;> rfl
    · rfl

/-- The next `sendmsg` with its result. -/
abbrev sendAction (c : Connection) (r : Except Errno ℕ) : Action :=
  .call (.sendmsg c.sock c.outBuf (c.outFds.take (min c.outFds.length kMaxFdsPerMsg))) (.sendmsg r)

/-- What a round of `flush` can do: nothing, a `sendmsg` that fails, or one after which the
descriptors that it passed are closed. -/
inductive FlushStep (c : Connection) : Connection → Prop
  | idle : FlushStep c c
  | failed (e : Errno) (rest : List Reply) :
      FlushStep c { c with toProcess := c.after [c.sendAction (.error e)] rest }
  | took (n : ℕ) (rest : List Reply) :
      FlushStep c (sent n (min c.outFds.length kMaxFdsPerMsg)
        { c with toProcess := c.after [c.sendAction (.ok n)] rest })

theorem flushRound_step : Within FlushStep (flushRound ()) := by
  intro c
  rw [flushRound_eq]
  split_ifs
  · exact .idle
  · exact .idle
  · rcases hq : Process.sendmsg c.sock c.outBuf _ c.toProcess with ⟨e | r, q⟩
    · obtain ⟨-, rfl⟩ := Process.ask_error hq
      exact .idle
    · obtain ⟨r', rest, -, ha, rfl⟩ := Process.ask_ok hq
      cases r' with
      | sendmsg r' =>
          obtain rfl := Option.some.inj ha
          rcases r' with e | n
          · cases e <;> exact .failed _ rest
          · exact .took n rest
      | _ => cases ha

theorem flushRound_shrinks : Shrinks (fun _ c => c.toProcess.size) flushRound := by
  intro _ c _ c' h
  rw [flushRound_eq] at h
  split_ifs at h with hboth hbuf
  · cases h
  · cases h
  · rcases hq : Process.sendmsg c.sock c.outBuf
      (c.outFds.take (min c.outFds.length kMaxFdsPerMsg)) c.toProcess with ⟨e | (e | n), q⟩ <;>
      rw [hq] at h
    · cases h
    · cases e with
      | EINTR =>
          cases h
          exact Process.ask_size hq
      | _ => cases h
    · cases h
      have hsize := Process.ask_size hq
      exact hsize

def Flushed (c : Connection) : Prop := c.outBuf = [] ∧ c.outFds = []

/-- A flush succeeds exactly when it leaves nothing to be sent. -/
theorem flush_triple :
    Triple (fun _ => True) flush (fun r c => r = true ↔ Flushed c)
      (fun e _ => ∃ fd bytes fds, e = .waiting (.sendmsg fd bytes fds)) := by
  refine Triple.loop_total (I := fun _ _ => True) flushRound_shrinks ?_ ()
  rintro _ c -
  rw [flushRound_eq]
  split_ifs with hboth hbuf
  · simpa [Flushed] using hboth
  · simpa [Flushed] using hboth
  · rcases hq : Process.sendmsg c.sock c.outBuf _ c.toProcess with ⟨e | (e | n), q⟩
    · obtain ⟨rfl, rfl⟩ := Process.ask_error hq
      exact ⟨_, _, _, rfl⟩
    · cases e <;> simp [Flushed, hbuf]
    · trivial

/-! ## Receiving -/

/-- A receive appends its bytes to the buffer unless it fails or is empty. -/
theorem pump_eq (c : Connection) :
    pump c = match Process.recvmsg c.sock c.toProcess with
      | (.error e, q) => (.error e, { c with toProcess := q })
      | (.ok (.error .EAGAIN), q) => (.ok 0, { c with toProcess := q })
      | (.ok (.error .EINTR), q) => (.ok 0, { c with toProcess := q })
      | (.ok (.error _), q) => (.ok (-1), { c with toProcess := q })
      | (.ok (.ok ([], _)), q) => (.ok 0, { c with toProcess := q })
      | (.ok (.ok (b :: data, fds)), q) =>
        (.ok ((b :: data).length : ℕ),
          { c with toProcess := q, inBuf := c.inBuf ++ b :: data, inFds := c.inFds ++ fds }) := by
  simp only [pump, bind_apply, Prog.read_apply, sys, Prog.zoom_apply]
  rcases Process.recvmsg c.sock c.toProcess with ⟨e | (e | ⟨_ | ⟨b, data⟩, fds⟩), q⟩
  · rfl
  · cases e <;> rfl
  · rfl
  · rfl

theorem pump_quiet : Within Quiet pump := by
  intro c
  rw [pump_eq]
  rcases hq : Process.recvmsg c.sock c.toProcess with ⟨e | r, q⟩
  · obtain ⟨-, rfl⟩ := Process.ask_error hq
    exact KeepsInput.quiet ⟨.refl _, rfl, rfl⟩
  · obtain ⟨rest, hs, rfl⟩ := Process.recvmsg_ok hq
    have hlogs : Process.Logs Action.Io c.toProcess { c.toProcess with
        script := rest, trace := c.trace ++ [.call (.recvmsg c.sock) (.recvmsg r)] } := by
      refine ⟨⟨[_], rfl, hs, ?_⟩, rfl, rfl⟩
      rintro _ (_ | ⟨_, ⟨⟩⟩)
      exact .call _ _
    rcases r with e | ⟨_ | ⟨b, data⟩, fds⟩
    · cases e <;> exact ⟨hlogs, List.prefix_rfl,
        by simp [Process.pending, Process.remaining, hs, Reply.received],
        by simp [Process.pendingFds, Process.remaining, hs, Reply.receivedFds]⟩
    · exact ⟨hlogs, List.prefix_rfl,
        by simp [Process.pending, Process.remaining, hs, Reply.received],
        by simp [Process.pendingFds, Process.remaining, hs, Reply.receivedFds]⟩
    · exact ⟨hlogs, List.prefix_append _ _,
        by simp [Process.pending, Process.remaining, hs, Reply.received],
        by simp [Process.pendingFds, Process.remaining, hs, Reply.receivedFds]⟩

/-- A positive count makes what is left to receive and to dispatch smaller; any other leaves the
buffer as it was. -/
theorem pump_count {c c' : Connection} {n : Int} (h : pump c = (.ok n, c')) :
    if 0 < n then c'.toProcess.size + c'.inBuf.length < c.toProcess.size + c.inBuf.length
    else c'.inBuf = c.inBuf := by
  rw [pump_eq] at h
  rcases hq : Process.recvmsg c.sock c.toProcess with ⟨e | r, q⟩ <;> rw [hq] at h
  · cases h
  · rcases r with e | ⟨_ | ⟨b, data⟩, fds⟩
    · cases e <;> cases h <;> rfl
    · cases h
      rfl
    · cases h
      obtain ⟨rest, hs, rfl⟩ := Process.recvmsg_ok hq
      have hpos : (0 : Int) < ((b :: data).length : ℕ) := by simp
      rw [if_pos hpos]
      simp only [Process.size, hs, List.map_cons, List.sum_cons, Reply.size, Reply.received,
        List.length_append]
      omega

theorem pump_error {c c' : Connection} {e : Halt} (h : pump c = (.error e, c')) :
    e = .waiting (.recvmsg c.sock) ∧ c' = c := by
  rw [pump_eq] at h
  rcases hq : Process.recvmsg c.sock c.toProcess with ⟨e' | r, q⟩ <;> rw [hq] at h
  · cases h
    obtain ⟨rfl, rfl⟩ := Process.ask_error hq
    exact ⟨rfl, rfl⟩
  · rcases r with e' | ⟨_ | ⟨b, data⟩, fds⟩
    · cases e' <;> cases h
    · cases h
    · cases h

end Connection

end WlClip
