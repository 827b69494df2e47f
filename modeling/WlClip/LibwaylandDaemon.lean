import WlClip.LibwaylandCopy

/-!
# The libwayland copies as daemons

On batches of events, each dispatched by one call, the serving loop of the libwayland copies is
the daemon that ignores no cancel and looks at its status between batches.
-/

open ScriptedProgram ScriptedProgram.Prog Daemon

namespace WlClip

def WlEvent.OfSource : WlEvent → Prop
  | .sourceSend _ _ => True
  | .sourceCancelled => True
  | _ => False

namespace Libwayland

variable {data : List UInt8}

/-- An event of a batch: one of the source, or one that the copy does not listen to. -/
inductive Heard (data : List UInt8)
  | source (e : Event (Consumer data))
  | other (e : WlEvent) (h : ¬ e.OfSource)

namespace Heard

def event : Heard data → WlEvent
  | .source (.request c) => .sourceSend c.mime c.fd
  | .source .cancel => .sourceCancelled
  | .other e _ => e

def replies : Heard data → List Reply
  | .source (.request c) => c.replies
  | _ => []

def source? : Heard data → Option (Event (Consumer data))
  | .source e => some e
  | .other _ _ => none

end Heard

def sourceEvents (b : List (Heard data)) : List (Event (Consumer data)) := b.filterMap Heard.source?

/-- The replies on which a waiting copy gets a batch and serves it. -/
def batchReplies (b : List (Heard data)) : List Reply :=
  .displayDispatch (b.map Heard.event) true :: b.flatMap Heard.replies

/-- The copy has the status of a daemon, whose count of cancels it does not keep. -/
structure Matches (s : Status) (st : CopyState) : Prop where
  served : st.served = s.served
  cancelled : st.cancelled = s.cancelled
  done : st.done = s.done

structure Attending (once : Bool) (data : List UInt8) (l : Listening CopyState) : Prop where
  sigpipe : l.sigpipe = .default
  bytes : l.st.data.bytes = data
  oneshot : l.st.oneshot = once

variable {once : Bool} {l : Listening CopyState} {rest : List Reply} {s : Status}

theorem Matches.serve (h : Matches s l.st) (hl : Attending once data l) :
    Matches (s.serve ⟨once, 0⟩) (countServed l.st) :=
  ⟨congrArg (· + 1) h.served, h.cancelled, congrArg₂ or h.done hl.oneshot⟩

theorem Matches.cancel (h : Matches s l.st) :
    Matches (s.cancel ⟨once, 0⟩) { l.st with cancelled := true, done := true } :=
  ⟨h.served, rfl, rfl⟩

/-- What has become of a copy after a part of a batch: it is dead, or it goes on. -/
def HeardAll (once : Bool) (data : List UInt8) (rest : List Reply) (l : Listening CopyState)
    (r : Except Halt Unit × Listening CopyState) : List (Consumer data) × Option Status → Prop
  | (cs, none) => r.1 = .error .killed ∧
      r.2.handed = l.handed ++ cs.flatMap Consumer.handed
  | (cs, some s) => r.1 = .ok () ∧ Attending once data r.2 ∧ Matches s r.2.st ∧
      r.2.script = rest ∧ r.2.handed = l.handed ++ cs.flatMap Consumer.handed

/-- Nothing was called or served: only requests may have been made. -/
structure Noted (p p' : Process) : Prop where
  script : p'.script = p.script
  sigpipe : p'.sigpipe = p.sigpipe
  handed : p'.handed = p.handed

theorem request_noted {p : Process} (r : WlRequest) :
    Triple (fun s : State => Noted p s.toProcess) (State.request r)
      (fun _ s => Noted p s.toProcess) (fun _ _ => False) := by
  refine fun s h => ⟨h.script, h.sigpipe, ?_⟩
  rw [← h.handed]
  change List.flatMap Action.handed (s.trace ++ [.request r]) = _
  rw [List.flatMap_append]
  exact List.append_nil _

theorem update_noted {p : Process} {f : State → State} (hf : ∀ s, (f s).toProcess = s.toProcess) :
    Triple (fun s : State => Noted p s.toProcess) (Prog.update f : Prog Halt State PUnit)
      (fun _ s => Noted p s.toProcess) (fun _ _ => False) :=
  fun s h => show Noted p (f s).toProcess from (hf s).symm ▸ h

theorem onGlobal_noted {p : Process} (name : UInt32) (interface : Text) (version : UInt32) :
    Triple (fun s : State => Noted p s.toProcess) (State.onGlobal name interface version)
      (fun _ s => Noted p s.toProcess) (fun _ _ => False) := by
  refine Triple.bind (update_noted fun _ => rfl) fun _ => Triple.ite (fun _ => ?_) fun _ =>
    Triple.ite (fun _ => ?_) fun _ => Triple.ite (fun _ => ?_) fun _ => Triple.pure _ fun _ h => h
  · exact Triple.bind (request_noted _) fun _ => update_noted fun _ => rfl
  · exact Triple.bind (request_noted _) fun _ => update_noted fun _ => rfl
  · exact Triple.bind (request_noted _) fun _ => update_noted fun _ => rfl

theorem onGlobalRemove_noted {p : Process} (name : UInt32) :
    Triple (fun s : State => Noted p s.toProcess) (State.onGlobalRemove name)
      (fun _ s => Noted p s.toProcess) (fun _ _ => False) := by
  have hremove {c : State → Prop} [DecidablePred c] {r : WlRequest} {f : State → State}
      (hf : ∀ s, (f s).toProcess = s.toProcess) :
      Triple (fun s : State => Noted p s.toProcess)
        (do
          let s ← Prog.read id
          if c s then
            State.request r
            Prog.update f
          else return ())
        (fun _ s => Noted p s.toProcess) (fun _ _ => False) :=
    Triple.bind (Q := fun _ s => Noted p s.toProcess) (Triple.read _ fun _ h => h) fun s =>
      Triple.ite (fun _ => Triple.bind (request_noted _) fun _ => update_noted hf)
        fun _ => Triple.pure _ fun _ h => h
  exact Triple.bind (update_noted fun _ => rfl) fun _ =>
    Triple.bind (hremove fun _ => rfl) fun _ => hremove fun _ => rfl

/-- An event that the copy does not listen to changes the state of the connection only. -/
theorem hear_other {e : WlEvent} (he : ¬ e.OfSource) (l : Listening CopyState) :
    ∃ l', Listening.hear sourceListener e l = (.ok (), l') ∧ l'.st = l.st ∧
      Noted l.toProcess l'.toProcess := by
  have hself : Noted l.toProcess l.toProcess := ⟨rfl, rfl, rfl⟩
  have hstate {p : Prog Halt State Unit}
      (hp : Triple (fun s : State => Noted l.toProcess s.toProcess) p
        (fun _ s => Noted l.toProcess s.toProcess) (fun _ _ => False)) :
      ∃ l', Listening.onState p l = (.ok (), l') ∧ l'.st = l.st ∧
        Noted l.toProcess l'.toProcess := by
    have hrun := hp l.toState hself
    rcases hr : p l.toState with ⟨e | u, s'⟩ <;> rw [hr] at hrun
    · exact hrun.elim
    · exact ⟨{ l with toState := s' }, by simp [Listening.onState, hr], rfl, hrun⟩
  cases e with
  | global name interface version => exact hstate (onGlobal_noted name interface version)
  | globalRemove name => exact hstate (onGlobalRemove_noted name)
  | seatName seat name => exact hstate (update_noted fun _ => rfl)
  | sourceSend mime fd => exact absurd trivial he
  | sourceCancelled => exact absurd trivial he
  | _ => exact ⟨l, rfl, rfl, hself⟩

theorem hear_request (c : Consumer data) (h : Attending once data l)
    (hs : l.script = c.replies ++ rest) :
    Listening.hear sourceListener (.sourceSend c.mime c.fd) l =
      if c.fatal then (.error .killed, { l with toProcess := l.after c.trace rest })
      else (.ok (), { l with toProcess := l.after c.trace rest, st := countServed l.st }) := by
  have hserve := c.serve hs h.sigpipe
  change onSourceSend c.fd l = _
  simp only [onSourceSend, bind_apply, Prog.read_apply, h.bytes, Listening.sys, Listening.onState,
    State.sys, Prog.zoom_apply, hserve]
  split_ifs <;> rfl

theorem HeardAll.of_step {l l' : Listening CopyState} {r : Except Halt Unit × Listening CopyState}
    {cs : List (Consumer data)} {o : Option Status} (cs' : List (Consumer data))
    (h : HeardAll once data rest l' r (cs, o))
    (hhanded : l'.handed = l.handed ++ cs'.flatMap Consumer.handed) :
    HeardAll once data rest l r (cs' ++ cs, o) := by
  cases o with
  | none => exact ⟨h.1, by rw [h.2, hhanded, List.flatMap_append, List.append_assoc]⟩
  | some s =>
      obtain ⟨hok, hat, hm, hscript, hlog⟩ := h
      exact ⟨hok, hat, hm, hscript, by rw [hlog, hhanded, List.flatMap_append, List.append_assoc]⟩

/-- A batch is handled as the daemon handles the source events in it. -/
theorem hearAll_batch (b : List (Heard data)) (h : Attending once data l) (hm : Matches s l.st)
    (hs : l.script = b.flatMap Heard.replies ++ rest) :
    HeardAll once data rest l (Listening.hearAll sourceListener (b.map Heard.event) l)
      (handle ⟨once, 0⟩ Consumer.fatal s (sourceEvents b)) := by
  induction b generalizing l s with
  | nil => exact ⟨rfl, h, hm, hs, (List.append_nil _).symm⟩
  | cons e b ih =>
      rw [List.flatMap_cons, List.append_assoc] at hs
      rw [List.map_cons, Listening.hearAll]
      cases e with
      | other e he =>
          obtain ⟨l', hstep, hst, hnoted⟩ := hear_other he l
          have hat : Attending once data l' :=
            ⟨hnoted.sigpipe.trans h.sigpipe, hst ▸ h.bytes, hst ▸ h.oneshot⟩
          have htail := ih hat (hst ▸ hm) (hnoted.script.trans hs)
          have hstep' : Listening.hear sourceListener (Heard.event (.other e he : Heard data)) l =
              (.ok (), l') := hstep
          rw [bind_ok hstep']
          exact htail.of_step [] (by simpa using hnoted.handed)
      | source e =>
          cases e with
          | request c =>
              have hstep := hear_request c h hs
              change HeardAll once data rest l ((Listening.hear sourceListener
                (.sourceSend c.mime c.fd) >>= _) l) (handle _ _ s (.request c :: sourceEvents b))
              rw [handle]
              by_cases hc : c.fatal = true
              · rw [if_pos hc] at hstep ⊢
                rw [bind_error hstep]
                refine ⟨rfl, ?_⟩
                simp [Process.after, Process.handed, Process.observe, Consumer.handed]
              · rw [if_neg hc] at hstep ⊢
                rw [bind_ok hstep]
                have hat : Attending once data
                    { l with toProcess := l.after c.trace (b.flatMap Heard.replies ++ rest),
                             st := countServed l.st } := ⟨h.sigpipe, h.bytes, h.oneshot⟩
                refine (ih hat (hm.serve h) rfl).of_step [c] ?_
                simp [Process.after, Process.handed, Process.observe, Consumer.handed]
          | cancel => exact ih ⟨h.sigpipe, h.bytes, h.oneshot⟩ hm.cancel hs

/-! ## The serving loop -/

theorem sourceListener_logged {A : Action → Prop}
    (hserve : ∀ fd data, Within (Process.Logs A) (Process.serveSend fd data)) (e : WlEvent) :
    Within (Listening.Logged A) (sourceListener e) := by
  cases e with
  | sourceSend mime fd =>
      exact Within.bind (Within.read _) fun st => Within.bind
        (Listening.onState_logged (State.sys_logged (hserve fd st.data.bytes)))
        fun _ => Within.update fun l => .refl _
  | sourceCancelled => exact Within.update fun l => .refl _
  | _ => exact Within.pure _

theorem sourceListener_later (e : WlEvent) : Within Listening.Later (sourceListener e) :=
  sourceListener_logged (A := fun _ => True) (fun fd data =>
    (Process.serveSend_unheard fd data).mono fun _ _ hlogs => hlogs.mono fun _ _ => trivial) e

theorem serveRound_eq (l : Listening CopyState) :
    serveRound () l = if l.st.done then (.ok (.inr ()), l)
      else match Listening.dispatch sourceListener l with
        | (.ok ok, l') => (.ok (if ok then .inl () else .inr ()), l')
        | (.error e, l') => (.error e, l') := by
  simp only [serveRound, bind_apply, Prog.read_apply]
  split_ifs
  · rfl
  · rw [bind_apply]
    rcases Listening.dispatch sourceListener l with ⟨e | ok, l'⟩
    · rfl
    · cases ok <;> rfl

theorem serveRound_shrinks : Shrinks (fun _ l => l.toProcess.size) serveRound := by
  intro _ l _ l' h
  rw [serveRound_eq] at h
  split_ifs at h
  · cases h
  · rcases hr : Listening.dispatch sourceListener l with ⟨e | ok, l''⟩ <;> rw [hr] at h
    · cases h
    · cases ok <;> cases h
      exact Listening.dispatch_size sourceListener_later hr

/-- The run of the serving loop on the batches: it dies, it ends, or it waits with `rest` left of
its script; `cs` are the consumers that it served. -/
def Ran (once : Bool) (data : List UInt8) (rest : List Reply) (l : Listening CopyState) :
    List (Consumer data) × Outcome → Prop
  | (cs, .killed) => ∃ l', serve l = (.error .killed, l') ∧
      l'.handed = l.handed ++ cs.flatMap Consumer.handed
  | (cs, .ended s) => ∃ l', serve l = (.ok (), l') ∧ Matches s l'.st ∧
      l'.handed = l.handed ++ cs.flatMap Consumer.handed
  | (cs, .waiting s) => ∃ l', serve l = serve l' ∧ Attending once data l' ∧ l'.script = rest ∧
      Matches s l'.st ∧ s.done = false ∧ l'.handed = l.handed ++ cs.flatMap Consumer.handed

theorem dispatch_batch (b : List (Heard data)) (h : Attending once data l) (hm : Matches s l.st)
    (hs : l.script = batchReplies b ++ rest) :
    ∃ r, HeardAll once data rest l r (handle ⟨once, 0⟩ Consumer.fatal s (sourceEvents b)) ∧
      Listening.dispatch sourceListener l = (r.1.map fun _ => true, r.2) := by
  have hask := Listening.displayDispatch_cons hs
  have hall := hearAll_batch b (l := { l with toProcess := l.after [.call .displayDispatch
    (.displayDispatch (b.map Heard.event) true)] (b.flatMap Heard.replies ++ rest) })
    ⟨h.sigpipe, h.bytes, h.oneshot⟩ hm rfl
  refine ⟨_, hall.of_step [] ?_, ?_⟩
  · simp [Process.after, Process.handed, Process.observe, Action.handed]
  · rw [Listening.dispatch, bind_ok hask]
    change (Listening.hearAll sourceListener (b.map Heard.event) >>= fun _ => pure true) _ = _
    rw [bind_apply]
    rcases Listening.hearAll sourceListener (b.map Heard.event) _ with ⟨e | u, l'⟩ <;> rfl

theorem serve_done (h : l.st.done = true) : serve l = (.ok (), l) :=
  loop_return serveRound_shrinks ((serveRound_eq l).trans (if_pos h))

theorem serveRound_dispatch {r : Except Halt Bool} {l' : Listening CopyState}
    (h : l.st.done = false) (hr : Listening.dispatch sourceListener l = (r, l')) :
    serveRound () l = (r.map fun ok => if ok then .inl () else .inr (), l') := by
  rw [serveRound_eq, h, if_neg (by decide), hr]
  rcases r with e | ok <;> rfl

theorem Ran.of_step {l l' : Listening CopyState} {cs : List (Consumer data)} {o : Outcome}
    (cs' : List (Consumer data)) (h : Ran once data rest l' (cs, o)) (hstep : serve l = serve l')
    (hhanded : l'.handed = l.handed ++ cs'.flatMap Consumer.handed) :
    Ran once data rest l (cs' ++ cs, o) := by
  cases o with
  | killed =>
      obtain ⟨l'', hrun, hlog⟩ := h
      exact ⟨l'', hstep.trans hrun, by rw [hlog, hhanded, List.flatMap_append, List.append_assoc]⟩
  | ended s =>
      obtain ⟨l'', hrun, hm, hlog⟩ := h
      exact ⟨l'', hstep.trans hrun, hm,
        by rw [hlog, hhanded, List.flatMap_append, List.append_assoc]⟩
  | waiting s =>
      obtain ⟨l'', hrun, hat, hscript, hm, hdone, hlog⟩ := h
      exact ⟨l'', hstep.trans hrun, hat, hscript, hm, hdone,
        by rw [hlog, hhanded, List.flatMap_append, List.append_assoc]⟩

/-- On batches of events the loop of the libwayland copies is the daemon that ignores no cancel. -/
theorem serve_run (bs : List (List (Heard data))) (h : Attending once data l) (hm : Matches s l.st)
    (hs : l.script = bs.flatMap batchReplies ++ rest) :
    Ran once data rest l (run ⟨once, 0⟩ Consumer.fatal s (bs.map sourceEvents)) := by
  induction bs generalizing l s with
  | nil =>
      by_cases hdone : s.done = true
      · rw [run_done hdone]
        exact ⟨l, serve_done (hm.done.trans hdone), hm, by simp⟩
      · have hrun : run ⟨once, 0⟩ Consumer.fatal s (List.map sourceEvents []) =
            (([], .waiting s) : List (Consumer data) × Outcome) := by
          simp [run, hdone]
        rw [hrun]
        exact ⟨l, rfl, h, hs, hm, by simpa using hdone, by simp⟩
  | cons b bs ih =>
      by_cases hdone : s.done = true
      · rw [run_done hdone]
        exact ⟨l, serve_done (hm.done.trans hdone), hm, by simp⟩
      · rw [Bool.not_eq_true] at hdone
        rw [List.flatMap_cons, List.append_assoc] at hs
        obtain ⟨⟨r, l'⟩, hall, hdispatch⟩ := dispatch_batch b h hm hs
        have hround := serveRound_dispatch (hm.done.trans hdone) hdispatch
        rw [List.map_cons, run, hdone, if_neg (by decide)]
        rcases hb : handle ⟨once, 0⟩ Consumer.fatal s (sourceEvents b) with ⟨cs, _ | s'⟩ <;>
          rw [hb] at hall
        · obtain ⟨rfl, hlog⟩ := hall
          exact ⟨l', loop_error serveRound_shrinks hround, hlog⟩
        · obtain ⟨rfl, hat, hm', hscript, hlog⟩ := hall
          exact (ih hat hm' hscript).of_step cs (loop_next serveRound_shrinks hround) hlog

theorem serve_lost (h : l.st.done = false) (hs : l.script = .displayDispatch [] false :: rest) :
    ∃ l', serve l = (.ok (), l') ∧ l'.st = l.st ∧ l'.handed = l.handed := by
  have hask := Listening.displayDispatch_cons hs
  have hdispatch := bind_ok (f := fun r => Listening.hearAll sourceListener r.1 >>= fun _ => pure r.2)
    hask
  refine ⟨_, loop_return serveRound_shrinks (serveRound_dispatch h hdispatch), rfl, ?_⟩
  simp [Process.after, Process.handed, Process.observe, Action.handed]

end Libwayland

end WlClip
