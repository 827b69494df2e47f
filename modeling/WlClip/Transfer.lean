import WlClip.Process

/-!
# Pipes

`serve_send` of `transfer.cpp` and the functions of `fd.cpp`. A consumer is known by the results
its pipe gives to the writes and polls of one transfer; `Transfer` lists the finished ones.
-/

open ScriptedProgram ScriptedProgram.Prog

namespace WlClip

namespace Process

/-! ## `transfer.cpp` -/

def serveWritten (fd : Int) (data : List UInt8) :
    Except Errno ℕ → Prog Halt Process (List UInt8 ⊕ Unit)
  | .ok n => if 0 < n then return .inl (data.drop n) else return .inr ()
  | .error .EINTR => return .inl data
  | .error .EAGAIN => do
    match ← poll fd 5000 with
    | .ok (.ready _) => return .inl data
    | _ => return .inr ()
  | .error _ => return .inr ()

def serveRound (fd : Int) (data : List UInt8) : Prog Halt Process (List UInt8 ⊕ Unit) := do
  if data = [] then return .inr () else serveWritten fd data (← write fd data)

/-- The owner of the descriptor closes it when the transfer is over. -/
def serveSend (fd : Int) (data : List UInt8) : Prog Halt Process Unit := do
  record (.serveSend fd data)
  loop .stuck (fun _ p => p.size) (serveRound fd) data
  if fd ≥ 0 then close fd

/-! ## `fd.cpp` -/

/-- The read end and the write end. -/
def makePipe : Prog Halt Process (Option (Int × Int)) := do
  match ← pipe with
  | .error _ => return none
  | .ok ends => return some ends

def drainRound (fd : Int) (buf : List UInt8) :
    Prog Halt Process (List UInt8 ⊕ List UInt8) := do
  match ← read fd with
  | .ok [] => return .inr buf
  | .ok data => return .inl (buf ++ data)
  | .error .EINTR => return .inl buf
  | .error _ => return .inr buf

/-- Every byte up to the end of the file or a failed read. -/
def drainFd (fd : Int) : Prog Halt Process (List UInt8) :=
  loop .stuck (fun _ p => p.size) (drainRound fd) []

/-- A write of no byte is made again. -/
def writeRound (fd : Int) (data : List UInt8) : Prog Halt Process (List UInt8 ⊕ Bool) := do
  if data = [] then return .inr true
  else
    match ← write fd data with
    | .ok n => return .inl (data.drop n)
    | .error .EINTR => return .inl data
    | .error _ => return .inr false

/-- Whether all bytes were written. -/
def writeAll (fd : Int) (data : List UInt8) : Prog Halt Process Bool :=
  loop .stuck (fun _ p => p.size) (writeRound fd) data

/-! ## Progress -/

theorem ask_bind_size {α β : Type} {c : Call} {answer : Reply → Option α}
    {f : α → Prog Halt Process β} (hf : ∀ a, Within (Logs Action.Silent) (f a))
    {p p' : Process} {b : β} (h : (ask c answer >>= f) p = (.ok b, p')) : p'.size < p.size := by
  obtain ⟨a, q, hask, h⟩ := bind_eq_ok h
  exact Nat.lt_of_le_of_lt ((hf a).of_eq h).size_le (ask_size hask)

theorem drainRound_shrinks (fd : Int) : Shrinks (fun _ p => p.size) (drainRound fd) := by
  intro buf p buf' p' h
  refine ask_bind_size ?_ h
  rintro (e | _ | ⟨b, data⟩)
  · cases e <;> exact Within.pure _
  · exact Within.pure _
  · exact Within.pure _

theorem write_size {fd : Int} {data : List UInt8} {p p' : Process} {r : Except Errno ℕ}
    (h : write fd data p = (.ok r, p')) : p'.size < p.size := by
  refine ask_bind_size ?_ h
  rintro (n | e | _)
  · exact Within.pure _
  · exact Within.pure _
  · refine Within.bind (Within.read _) ?_
    rintro (_ | _)
    · exact Within.halt _
    · exact Within.pure _

theorem serveRound_shrinks (fd : Int) : Shrinks (fun _ p => p.size) (serveRound fd) := by
  intro data p data' p' h
  unfold serveRound at h
  split_ifs at h with hdata
  · cases h
  · obtain ⟨r, q, hwrite, h⟩ := bind_eq_ok h
    have hlt := write_size hwrite
    rcases r with e | n
    · cases e with
      | EINTR =>
          cases h
          exact hlt
      | EAGAIN =>
          obtain ⟨r, q', hpoll, h⟩ := bind_eq_ok h
          have hlt' := ask_size hpoll
          rcases r with e | _ | ready <;> cases h
          exact Nat.lt_trans hlt' hlt
      | _ => cases h
    · simp only [serveWritten] at h
      split_ifs at h <;> cases h
      exact hlt

/-! ## Draining -/

/-- A drain goes on with more bytes, or ends with those that it has. -/
def drainNext (buf : List UInt8) : Except Errno (List UInt8) → List UInt8 ⊕ List UInt8
  | .ok data => if data = [] then .inr buf else .inl (buf ++ data)
  | .error e => if e = .EINTR then .inl buf else .inr buf

/-- What a drain makes of the replies to its reads, if they end it. -/
def drained (buf : List UInt8) : List Reply → Option (List UInt8)
  | [] => none
  | r :: replies =>
    match r.read?.map (drainNext buf) with
    | some (.inl buf') => drained buf' replies
    | some (.inr bytes) => some bytes
    | none => none

def Reads (fd : Int) (log : List Action) : Prop :=
  ∀ a ∈ log, ∃ r, a = .call (.read fd) (.read r)

theorem Reads.flatMap {fd : Int} {log : List Action} (h : Reads fd log) {β : Type}
    {f : Action → List β} (hf : ∀ r, f (.call (.read fd) (.read r)) = []) : log.flatMap f = [] :=
  List.flatMap_eq_nil_iff.mpr fun a ha => by
    obtain ⟨r, rfl⟩ := h a ha
    exact hf r

/-- The result of a drain; it waits in a read if the replies do not end it. -/
def drainResult (fd : Int) : Option (List UInt8) → Except Halt (List UInt8)
  | some bytes => .ok bytes
  | none => .error (.waiting (.read fd))

theorem read_cons {fd : Int} {p : Process} {r : Except Errno (List UInt8)} {rest : List Reply}
    (hs : p.script = .read r :: rest) :
    read fd p = (.ok r, p.after [.call (.read fd) (.read r)] rest) := ask_cons hs rfl

theorem drainRound_read (fd : Int) (buf : List UInt8) {p : Process}
    {r : Except Errno (List UInt8)} {rest : List Reply} (hs : p.script = .read r :: rest) :
    drainRound fd buf p =
      (.ok (drainNext buf r), p.after [.call (.read fd) (.read r)] rest) := by
  rw [drainRound, bind_ok (read_cons hs)]
  rcases r with e | _ | ⟨b, data⟩
  · cases e <;> rfl
  · rfl
  · rfl

/-- A drain waits if the next reply is not to a read. -/
theorem drainLoop_blocked (fd : Int) (buf : List UInt8) {p : Process}
    (hs : ∀ r rest, p.script = r :: rest → r.read? = none) :
    loop .stuck (fun _ p => p.size) (drainRound fd) buf p =
      (drainResult fd none, p.after [] p.script) := by
  have hread : read fd p = (.error (.waiting (.read fd)), p) := ask_blocked hs
  rw [loop_error (drainRound_shrinks fd) (bind_error hread), after, List.append_nil]
  rfl

theorem drainLoop_eq (fd : Int) (replies : List Reply) (buf : List UInt8) {p : Process}
    (hs : p.script = replies) :
    ∃ log rest, loop .stuck (fun _ p => p.size) (drainRound fd) buf p =
      (drainResult fd (drained buf replies), p.after log rest) ∧ Reads fd log := by
  induction replies generalizing buf p with
  | nil => exact ⟨[], _, drainLoop_blocked fd buf (by simp [hs]), List.forall_mem_nil _⟩
  | cons r replies ih =>
      rcases hr : r.read? with _ | result
      · have hblocked := drainLoop_blocked fd buf fun r' rest hs' => by
          obtain ⟨rfl, -⟩ := List.cons.inj (hs.symm.trans hs')
          exact hr
        rw [drained, hr]
        exact ⟨[], _, hblocked, List.forall_mem_nil _⟩
      · obtain rfl : r = .read result := by
          cases r with
          | read r => exact congrArg _ (Option.some.inj hr)
          | _ => cases hr
        have hround := drainRound_read fd buf hs
        have hlog : Reads fd [.call (.read fd) (.read result)] := fun a ha =>
          ⟨result, List.mem_singleton.mp ha⟩
        rw [drained, hr, Option.map_some]
        rcases hnext : drainNext buf result with buf' | bytes <;> rw [hnext] at hround
        · obtain ⟨log, rest, hrun, hreads⟩ := ih buf'
            (p := p.after [.call (.read fd) (.read result)] replies) rfl
          refine ⟨_, rest, ?_, fun a ha => (List.mem_append.mp ha).elim (hlog a) (hreads a)⟩
          rw [loop_next (drainRound_shrinks fd) hround, hrun, after_after]
        · exact ⟨_, replies, loop_return (drainRound_shrinks fd) hround, hlog⟩

theorem drainFd_eq (fd : Int) (p : Process) :
    ∃ log rest, drainFd fd p = (drainResult fd (drained [] p.script), p.after log rest) ∧
      Reads fd log := drainLoop_eq fd p.script [] rfl

/-! ## Finished transfers -/

inductive TransferEnd
  | complete
  | dropped
  | broken
  deriving DecidableEq

/-- The calls of a transfer of `data` that is over, what the consumer was given, and how the
transfer ended. `broken` is a write that finds no reader while bytes are left to be written. -/
inductive Transfer (fd : Int) : List UInt8 → List Action → List UInt8 → TransferEnd → Prop
  | complete : Transfer fd [] [] [] .complete
  | wrote {data log out e} (n : ℕ) (hdata : data ≠ []) (hn : 0 < n)
      (h : Transfer fd (data.drop n) log out e) :
      Transfer fd data (.call (.write fd data) (.write (.wrote n)) :: log) (data.take n ++ out) e
  | interrupted {data log out e} (hdata : data ≠ []) (h : Transfer fd data log out e) :
      Transfer fd data (.call (.write fd data) (.write (.failed .EINTR)) :: log) out e
  | waited {data log out e} (pollin : Bool) (hdata : data ≠ []) (h : Transfer fd data log out e) :
      Transfer fd data (.call (.write fd data) (.write (.failed .EAGAIN)) ::
        .call (.poll fd 5000) (.poll (.ok (.ready pollin))) :: log) out e
  | timedOut {data} (r : Except Errno PollResult) (hdata : data ≠ [])
      (hr : ∀ pollin, r ≠ .ok (.ready pollin)) :
      Transfer fd data [.call (.write fd data) (.write (.failed .EAGAIN)),
        .call (.poll fd 5000) (.poll r)] [] .dropped
  | failed {data} (r : WriteResult) (hdata : data ≠ [])
      (hr : r = .wrote 0 ∨ ∃ e, r = .failed e ∧ e ≠ .EINTR ∧ e ≠ .EAGAIN) :
      Transfer fd data [.call (.write fd data) (.write r)] [] .dropped
  | broken {data} (hdata : data ≠ []) :
      Transfer fd data [.call (.write fd data) (.write .noReader)] [] .broken

variable {fd : Int} {data out : List UInt8} {log : List Action} {e : TransferEnd}

/-- A consumer is given all of the payload exactly when its transfer ends as complete. -/
theorem Transfer.out_prefix (h : Transfer fd data log out e) :
    out <+: data ∧ (e = .complete ↔ out = data) := by
  induction h with
  | complete => simp
  | wrote n hdata hn h ih =>
      obtain ⟨⟨t, ht⟩, heq⟩ := ih
      refine ⟨⟨t, ?_⟩, heq.trans ⟨fun h => ?_, fun h => ?_⟩⟩
      · rw [List.append_assoc, ht, List.take_append_drop]
      · rw [h, List.take_append_drop]
      · exact List.append_cancel_left (h.trans (List.take_append_drop n _).symm)
  | interrupted hdata h ih => exact ih
  | waited pollin hdata h ih => exact ih
  | timedOut r hdata hr => exact ⟨List.nil_prefix, by simp [eq_comm, hdata]⟩
  | failed r hdata hr => exact ⟨List.nil_prefix, by simp [eq_comm, hdata]⟩
  | broken hdata => exact ⟨List.nil_prefix, by simp [eq_comm, hdata]⟩

/-- A transfer makes no other calls than writes and polls of its descriptor. -/
theorem Transfer.forall_mem {A : Action → Prop} (h : Transfer fd data log out e)
    (hwrite : ∀ data r, A (.call (.write fd data) (.write r)))
    (hpoll : ∀ r, A (.call (.poll fd 5000) (.poll r))) : ∀ a ∈ log, A a := by
  induction h with
  | complete => exact List.forall_mem_nil _
  | wrote n hdata hn h ih => exact List.forall_mem_cons.mpr ⟨hwrite _ _, ih⟩
  | interrupted hdata h ih => exact List.forall_mem_cons.mpr ⟨hwrite _ _, ih⟩
  | waited pollin hdata h ih =>
      exact List.forall_mem_cons.mpr ⟨hwrite _ _, List.forall_mem_cons.mpr ⟨hpoll _, ih⟩⟩
  | timedOut r hdata hr =>
      exact List.forall_mem_cons.mpr ⟨hwrite _ _, List.forall_mem_singleton.mpr (hpoll _)⟩
  | failed r hdata hr => exact List.forall_mem_singleton.mpr (hwrite _ _)
  | broken hdata => exact List.forall_mem_singleton.mpr (hwrite _ _)

theorem Transfer.silent (h : Transfer fd data log out e) : ∀ a ∈ log, a.Silent :=
  h.forall_mem (fun _ _ => .call _ _ rfl rfl) fun _ => .call _ _ rfl rfl

def closeLog (fd : Int) : List Action := if fd ≥ 0 then [.close fd] else []

/-! ## Running a transfer -/

section

variable {p : Process} {rest : List Reply}

theorem writeResult_cons {r : WriteResult} (hs : p.script = .write r :: rest) :
    writeResult fd data p = (.ok r, p.after [.call (.write fd data) (.write r)] rest) :=
  ask_cons hs rfl

theorem write_wrote {n : ℕ} (hs : p.script = .write (.wrote n) :: rest) :
    write fd data p =
      (.ok (.ok n), p.after [.call (.write fd data) (.write (.wrote n))] rest) :=
  bind_ok (writeResult_cons hs)

theorem write_failed {err : Errno} (hs : p.script = .write (.failed err) :: rest) :
    write fd data p =
      (.ok (.error err), p.after [.call (.write fd data) (.write (.failed err))] rest) :=
  bind_ok (writeResult_cons hs)

theorem write_noReader (hs : p.script = .write .noReader :: rest) (hsig : p.sigpipe = .default) :
    write fd data p =
      (.error .killed, p.after [.call (.write fd data) (.write .noReader)] rest) := by
  let q := p.after [.call (.write fd data) (.write .noReader)] rest
  have hread : (Prog.read sigpipe : Prog Halt Process SigDisposition) q = (.ok p.sigpipe, q) := rfl
  rw [hsig] at hread
  exact (bind_ok (writeResult_cons hs)).trans (bind_ok hread)

theorem poll_cons {timeout : Int} {r : Except Errno PollResult} (hs : p.script = .poll r :: rest) :
    poll fd timeout p = (.ok r, p.after [.call (.poll fd timeout) (.poll r)] rest) :=
  ask_cons hs rfl

theorem serveRound_write {r : Except Errno ℕ} {q : Process} (hdata : data ≠ [])
    (hw : write fd data p = (.ok r, q)) : serveRound fd data p = serveWritten fd data r q := by
  rw [serveRound, if_neg hdata]
  exact bind_ok hw

theorem serveRound_again {r : Except Errno PollResult} (hdata : data ≠ [])
    (hs : p.script = .write (.failed .EAGAIN) :: .poll r :: rest) :
    serveRound fd data p = (.ok (match r with | .ok (.ready _) => .inl data | _ => .inr ()),
      p.after [.call (.write fd data) (.write (.failed .EAGAIN)),
        .call (.poll fd 5000) (.poll r)] rest) := by
  refine (serveRound_write hdata (write_failed hs)).trans ((bind_ok (poll_cons rfl)).trans ?_)
  rw [after_after]
  rcases r with e | _ | pollin <;> rfl

/-- A transfer that is broken kills the process; any other leaves the loop. -/
theorem serveLoop_of_transfer (h : Transfer fd data log out e)
    (hs : p.script = log.filterMap Action.reply ++ rest) (hsig : p.sigpipe = .default) :
    loop .stuck (fun _ p => p.size) (serveRound fd) data p =
      (if e = .broken then .error .killed else .ok (), p.after log rest) := by
  induction h generalizing p with
  | complete =>
      rw [loop_eq _ (serveRound_shrinks fd)]
      change p.script = rest at hs
      subst hs
      simp [serveRound, bind_apply, after]
  | wrote n hdata hn h ih =>
      rw [loop_eq _ (serveRound_shrinks fd), bind_apply, serveRound_write hdata (write_wrote hs)]
      simp only [serveWritten, if_pos hn, pure_apply]
      exact (ih (p := p.after _ _) rfl hsig).trans (by rw [after_after]; rfl)
  | interrupted hdata h ih =>
      rw [loop_eq _ (serveRound_shrinks fd), bind_apply, serveRound_write hdata (write_failed hs)]
      simp only [serveWritten, pure_apply]
      exact (ih (p := p.after _ _) rfl hsig).trans (by rw [after_after]; rfl)
  | waited pollin hdata h ih =>
      rw [loop_eq _ (serveRound_shrinks fd), bind_ok (serveRound_again hdata hs)]
      exact (ih (p := p.after _ _) rfl hsig).trans (by rw [after_after]; rfl)
  | timedOut r hdata hr =>
      rw [loop_eq _ (serveRound_shrinks fd), bind_ok (serveRound_again hdata hs)]
      rcases r with err | _ | pollin
      · rfl
      · rfl
      · exact absurd rfl (hr pollin)
  | failed r hdata hr =>
      rw [loop_eq _ (serveRound_shrinks fd), bind_apply]
      rcases hr with rfl | ⟨err, rfl, hintr, hagain⟩
      · rw [serveRound_write hdata (write_wrote hs)]
        rfl
      · rw [serveRound_write hdata (write_failed hs)]
        cases err <;> first | contradiction | rfl
  | broken hdata =>
      rw [loop_eq _ (serveRound_shrinks fd), bind_apply, serveRound, if_neg hdata,
        bind_error (write_noReader hs hsig)]
      rfl

/-- The log of a finished transfer, from the start of the serving to its end. -/
def serveLog (fd : Int) (data : List UInt8) (log : List Action) (e : TransferEnd) : List Action :=
  .serveSend fd data :: log ++ if e = .broken then [] else closeLog fd

theorem serveSend_of_transfer (h : Transfer fd data log out e)
    (hs : p.script = log.filterMap Action.reply ++ rest) (hsig : p.sigpipe = .default) :
    serveSend fd data p = (if e = .broken then .error .killed else .ok (),
      p.after (serveLog fd data log e) rest) := by
  have hloop := serveLoop_of_transfer (p := p.after [.serveSend fd data] p.script) h hs hsig
  have hrecord : record (.serveSend fd data) p = (.ok ⟨⟩, p.after [.serveSend fd data] p.script) :=
    rfl
  rw [serveSend, bind_ok hrecord, serveLog]
  by_cases he : e = .broken
  · rw [if_pos he] at hloop ⊢
    rw [bind_error hloop, if_pos he, after_after]
    simp
  · rw [if_neg he] at hloop ⊢
    rw [bind_ok hloop, if_neg he, closeLog, after_after]
    split_ifs
    · simp [close, record, after]
    · simp

end

/-! ## What pipes leave alone -/

theorem serveWritten_silent (fd : Int) (data : List UInt8) (r : Except Errno ℕ) :
    Within (Logs Action.Silent) (serveWritten fd data r) := by
  rcases r with e | n
  · cases e with
    | EAGAIN =>
        refine Within.bind (poll_silent _ _) ?_
        rintro (e | _ | pollin) <;> exact Within.pure _
    | _ => exact Within.pure _
  · exact Within.ite (Within.pure _) (Within.pure _)

theorem serveRound_silent (fd : Int) (data : List UInt8) :
    Within (Logs Action.Silent) (serveRound fd data) :=
  Within.ite (Within.pure _) (Within.bind (write_silent _ _) (serveWritten_silent _ _))

theorem makePipe_silent : Within (Logs Action.Silent) makePipe := by
  refine Within.bind pipe_silent ?_
  rintro (e | ends) <;> exact Within.pure _

theorem drainFd_silent (fd : Int) : Within (Logs Action.Silent) (drainFd fd) := by
  refine Within.loop (fun buf => Within.bind (read_silent _) ?_) []
  rintro (e | _ | ⟨b, data⟩)
  · cases e <;> exact Within.pure _
  · exact Within.pure _
  · exact Within.pure _

/-- However a transfer goes on, it logs its start once and receives nothing. -/
theorem serveSend_logs (fd : Int) (data : List UInt8) :
    Within (fun p p' => Logs Action.Silent (p.after [.serveSend fd data] p.script) p')
      (serveSend fd data) := by
  have hrest : Within (Logs Action.Silent) (do
      loop .stuck (fun _ p => p.size) (serveRound fd) data
      if fd ≥ 0 then close fd) :=
    Within.bind (Within.loop (serveRound_silent fd) data) fun _ =>
      Within.ite (close_silent fd) (Within.pure _)
  exact fun p => hrest (p.after [.serveSend fd data] p.script)

theorem serveSend_logged {A : Action → Prop} (hserve : ∀ fd data, A (.serveSend fd data))
    (hsilent : ∀ a : Action, a.Silent → A a) (fd : Int) (data : List UInt8) :
    Within (Logs A) (serveSend fd data) := by
  intro p
  have hstart : Logs A p (p.after [.serveSend fd data] p.script) := by
    refine ⟨⟨_, rfl, rfl, ?_⟩, rfl, rfl⟩
    rintro _ (_ | ⟨_, ⟨⟩⟩)
    exact hserve fd data
  exact hstart.trans ((serveSend_logs fd data p).mono hsilent)

theorem serveSend_unheard (fd : Int) (data : List UInt8) :
    Within (Logs Action.Unheard) (serveSend fd data) :=
  serveSend_logged (fun _ _ => .other _ rfl rfl) (fun _ => Action.Silent.unheard) fd data

/-! ## Every run of a transfer -/

theorem write_ignored {p : Process} {rest : List Reply} (hs : p.script = .write .noReader :: rest)
    (hsig : p.sigpipe = .ignored) :
    write fd data p =
      (.ok (.error .EPIPE), p.after [.call (.write fd data) (.write .noReader)] rest) := by
  let q := p.after [.call (.write fd data) (.write .noReader)] rest
  have hread : (Prog.read sigpipe : Prog Halt Process SigDisposition) q = (.ok p.sigpipe, q) := rfl
  rw [hsig] at hread
  exact (bind_ok (writeResult_cons hs)).trans (bind_ok hread)

/-- What the process makes of the result of a write. -/
inductive Wrote : WriteResult → Except Halt (Except Errno ℕ) → Prop
  | wrote (n : ℕ) : Wrote (.wrote n) (.ok (.ok n))
  | failed (e : Errno) : Wrote (.failed e) (.ok (.error e))
  | killed : Wrote .noReader (.error .killed)
  | ignored : Wrote .noReader (.ok (.error .EPIPE))

theorem write_cases (fd : Int) (data : List UInt8) (p : Process) :
    write fd data p = (.error (.waiting (.write fd data)), p) ∨ ∃ r rest result, Wrote r result ∧
      write fd data p = (result, p.after [.call (.write fd data) (.write r)] rest) := by
  rcases hw : writeResult fd data p with ⟨e | r, q⟩
  · obtain ⟨rfl, rfl⟩ := ask_error hw
    exact .inl (bind_error hw)
  · obtain ⟨r', rest, hs, ha, -⟩ := ask_ok hw
    cases r' with
    | write r' =>
        cases ha
        refine .inr ⟨r, rest, ?_⟩
        rcases r with n | e | _
        · exact ⟨_, .wrote n, write_wrote hs⟩
        · exact ⟨_, .failed e, write_failed hs⟩
        · cases hsig : p.sigpipe with
          | default => exact ⟨_, .killed, write_noReader hs hsig⟩
          | ignored => exact ⟨_, .ignored, write_ignored hs hsig⟩
    | _ => cases ha

theorem poll_cases (fd timeout : Int) (p : Process) :
    poll fd timeout p = (.error (.waiting (.poll fd timeout)), p) ∨
      ∃ r rest, poll fd timeout p = (.ok r, p.after [.call (.poll fd timeout) (.poll r)] rest) := by
  rcases hp : poll fd timeout p with ⟨e | r, q⟩
  · obtain ⟨rfl, rfl⟩ := ask_error hp
    exact .inl rfl
  · obtain ⟨r', rest, hs, ha, -⟩ := ask_ok hp
    cases r' with
    | poll r' =>
        cases ha
        exact .inr ⟨r, rest, hp ▸ poll_cons hs⟩
    | _ => cases ha

/-- A transfer that need not be over: its calls are the first of one that is. -/
def Unfinished (fd : Int) (data : List UInt8) (log : List Action) : Prop :=
  ∃ more out e, Transfer fd data (log ++ more) out e

/-- After `log` a transfer of `data` has come to `left`. -/
def ComesTo (fd : Int) (data left : List UInt8) (log : List Action) : Prop :=
  ∀ more out e, Transfer fd left more out e → ∃ out, Transfer fd data (log ++ more) out e

theorem ComesTo.unfinished {left more : List UInt8} {log' : List Action}
    (h : ComesTo fd data left log) (hmore : Transfer fd left log' more e) :
    Unfinished fd data log := by
  obtain ⟨out, h⟩ := h log' _ _ hmore
  exact ⟨log', out, e, h⟩

theorem ComesTo.append {left left' : List UInt8} {log' : List Action}
    (h : ComesTo fd data left log) (h' : ComesTo fd left left' log') :
    ComesTo fd data left' (log ++ log') := by
  intro more out e hmore
  obtain ⟨out', htail⟩ := h' more out e hmore
  rw [List.append_assoc]
  exact h _ _ _ htail

/-- The log of a transfer from `t` on, as a round that gives `r` leaves it. -/
def Rounded (fd : Int) (data : List UInt8) (t : List Action) (r : List UInt8 ⊕ Unit)
    (p : Process) : Prop :=
  ∃ log, p.trace = t ++ log ∧ match r with
    | .inl left => ComesTo fd data left log
    | .inr _ => ∃ out e, Transfer fd data log out e

variable {left : List UInt8} {t : List Action} {p : Process}

/-- A transfer of what is left ends the transfer. -/
theorem Rounded.ended {more : List Action} (h : Rounded fd data t (.inl left) p)
    (hmore : Transfer fd left more out e) (c : Unit) (rest : List Reply) :
    Rounded fd data t (.inr c) (p.after more rest) := by
  obtain ⟨log, htrace, hcome⟩ := h
  obtain ⟨out', hall⟩ := hcome more out e hmore
  exact ⟨log ++ more, by rw [← List.append_assoc, ← htrace]; rfl, out', e, hall⟩

theorem Rounded.next {more : List Action} {left' : List UInt8}
    (h : Rounded fd data t (.inl left) p) (hmore : ComesTo fd left left' more)
    (rest : List Reply) : Rounded fd data t (.inl left') (p.after more rest) := by
  obtain ⟨log, htrace, hcome⟩ := h
  exact ⟨log ++ more, by rw [← List.append_assoc, ← htrace]; rfl, hcome.append hmore⟩

theorem timeout_not_ready (pollin : Bool) :
    (.ok .timeout : Except Errno PollResult) ≠ .ok (.ready pollin) := by simp

theorem serveRound_triple (fd : Int) (data left : List UInt8) (t : List Action) :
    Triple (Rounded fd data t (.inl left)) (serveRound fd left) (Rounded fd data t)
      (fun _ p => ∃ log, p.trace = t ++ log ∧ Unfinished fd data log) := by
  rintro p ⟨log, htrace, hcome⟩
  have hround : Rounded fd data t (.inl left) p := ⟨log, htrace, hcome⟩
  by_cases hleft : left = []
  · have hdone : serveRound fd left p = (.ok (.inr ()), p.after [] p.script) := by
      rw [serveRound, if_pos hleft]
      simp [after]
    rw [hdone]
    have hcomplete : Transfer fd left [] [] .complete := by
      rw [hleft]
      exact .complete
    exact hround.ended hcomplete () _
  have hbroken : Transfer fd left [.call (.write fd left) (.write .noReader)] [] .broken :=
    .broken hleft
  rcases write_cases fd left p with hw | ⟨r, rest, result, hr, hw⟩
  · rw [serveRound, if_neg hleft, bind_error hw]
    exact ⟨log, htrace, hcome.unfinished hbroken⟩
  cases hr with
  | wrote n =>
      rw [serveRound_write hleft hw]
      by_cases hn : 0 < n
      · have hwritten : serveWritten fd left (.ok n) = Pure.pure (.inl (left.drop n)) := if_pos hn
        rw [hwritten]
        exact hround.next (fun more out e h => ⟨_, .wrote n hleft hn h⟩) rest
      · obtain rfl : n = 0 := by omega
        exact hround.ended (.failed _ hleft (.inl rfl)) () rest
  | killed =>
      rw [serveRound, if_neg hleft, bind_error hw]
      obtain ⟨out, h⟩ := hcome _ _ _ hbroken
      refine ⟨log ++ _, by rw [← List.append_assoc, ← htrace]; rfl, [], out, .broken, ?_⟩
      rwa [List.append_nil]
  | ignored =>
      rw [serveRound_write hleft hw]
      exact hround.ended hbroken () rest
  | failed err =>
      rw [serveRound_write hleft hw]
      cases err with
      | EINTR => exact hround.next (fun more out e h => ⟨_, .interrupted hleft h⟩) rest
      | EAGAIN =>
          let q := p.after [.call (.write fd left) (.write (.failed .EAGAIN))] rest
          rcases poll_cases fd 5000 q with hp | ⟨r, rest', hp⟩
          · have hpolled : serveWritten fd left (.error .EAGAIN) q = _ := bind_error hp
            obtain ⟨out, h⟩ := hcome _ _ _ (.timedOut (.ok .timeout) hleft timeout_not_ready)
            rw [hpolled]
            refine ⟨log ++ [_], by rw [← List.append_assoc, ← htrace]; rfl,
              [.call (.poll fd 5000) (.poll (.ok .timeout))], out, .dropped, ?_⟩
            rwa [List.append_assoc]
          · have hpolled : serveWritten fd left (.error .EAGAIN) q = _ := bind_ok hp
            rw [hpolled, after_after]
            rcases r with err | _ | pollin
            · exact hround.ended (.timedOut (.error err) hleft (by simp)) () rest'
            · exact hround.ended (.timedOut (.ok .timeout) hleft timeout_not_ready) () rest'
            · exact hround.next (fun more out e h => ⟨_, .waited pollin hleft h⟩) rest'
      | EPIPE => exact hround.ended (.failed (.failed .EPIPE) hleft (.inr ⟨_, rfl, by simp⟩)) () rest
      | other code =>
          exact hround.ended (.failed (.failed (.other code)) hleft (.inr ⟨_, rfl, by simp⟩)) () rest

/-- Every run of a transfer is one that is over, and closes its descriptor, or a part of one. -/
theorem serveSend_transfers (fd : Int) (data : List UInt8) (t : List Action) :
    Triple (fun p => p.trace = t) (serveSend fd data)
      (fun _ p => ∃ log out e, Transfer fd data log out e ∧
        p.trace = t ++ .serveSend fd data :: (log ++ closeLog fd))
      (fun _ p => ∃ log, Unfinished fd data log ∧ p.trace = t ++ .serveSend fd data :: log) := by
  have hloop : ∀ t', Triple (Rounded fd data t' (.inl data))
      (loop .stuck (fun _ p => p.size) (serveRound fd) data)
      (fun _ p => Rounded fd data t' (.inr ()) p)
      (fun _ p => ∃ log, p.trace = t' ++ log ∧ Unfinished fd data log) := by
    intro t'
    refine Triple.loop_total (I := fun left => Rounded fd data t' (.inl left))
      (serveRound_shrinks fd) (fun left => ?_) data
    refine (serveRound_triple fd data left t').conseq (fun _ h => h) ?_ fun _ _ h => h
    rintro (left' | _) p h <;> exact h
  apply Triple.bind (Q := fun _ p => p.trace = t ++ [.serveSend fd data])
  · rintro p rfl
    rfl
  intro _
  apply Triple.bind
  · refine (hloop (t ++ [.serveSend fd data])).conseq ?_ (fun _ _ h => h) ?_
    · rintro p h
      exact ⟨[], by rw [h, List.append_nil], fun more out e h => ⟨out, h⟩⟩
    · rintro _ p ⟨log, htrace, hunfinished⟩
      exact ⟨log, hunfinished, by rw [htrace, List.append_assoc]; rfl⟩
  intro _
  rintro p ⟨log, htrace, out, e, h⟩
  have hlog : p.trace ++ closeLog fd = t ++ .serveSend fd data :: (log ++ closeLog fd) := by
    rw [htrace]
    simp
  by_cases hfd : fd ≥ 0
  · rw [if_pos hfd]
    refine ⟨log, out, e, h, ?_⟩
    rw [← hlog, closeLog, if_pos hfd]
  · rw [if_neg hfd]
    refine ⟨log, out, e, h, ?_⟩
    rw [← hlog, closeLog, if_neg hfd, List.append_nil]

end Process

end WlClip
