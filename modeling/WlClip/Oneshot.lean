import WlClip.CopyDaemons
import WlClip.X11

/-!
# How many consumers a oneshot copy serves

The handcrafted copy looks at its state after every message and the X11 copy after every event: on
no script at all do they serve more than one consumer. The libwayland copies look at it after a
whole batch.
-/

open ScriptedProgram ScriptedProgram.Prog Daemon

namespace WlClip

/-- What `f` sees of the actions of a run is at most one thing. -/
def AtMostOne {β : Type} (f : Action → List β) (before after : Process) : Prop :=
  ∃ l, after.observe f = before.observe f ++ l ∧ l.length ≤ 1

theorem AtMostOne.of_start {β : Type} {f : Action → List β} {p p' : Process} (hp : p.trace = [])
    (h : (p'.observe f).length ≤ 1) : AtMostOne f p p' :=
  ⟨p'.observe f, by simp [Process.observe, hp], h⟩

/-! ## The handcrafted copy -/

namespace Handcrafted

variable {data : CopyData} {oneshot : Bool} {sigpipe : SigDisposition} {cl : Client CopyState}

theorem Spoken.begun {init : CopyState} {rest : UInt32 → Script}
    (h : Spoken (initialFrame init sigpipe) rest cl) : cl.begun = [] := by
  obtain ⟨sg, mg, rs, n, ids, h, -⟩ := h
  exact congrArg Process.Background.begun h.frame.background

theorem flush_begun : Keeps (fun cl : Client CopyState => cl.begun = [])
    (Client.onConn Connection.flush) := by
  refine (Client.onConn_within Connection.flush_keepsInput).keeps fun cl cl' h hcl => ?_
  exact (congrArg Process.Background.begun h.1.quiet.logs.background_eq).trans hcl

/-- No transfer is begun in the setup. -/
theorem copySetup_begun (display seat : Text) (sel : Selection) :
    Triple (Fresh (initialFrame (CopyState.new data oneshot) sigpipe)) (copySetup display seat sel)
      (fun _ cl => cl.begun = []) (fun _ cl => cl.begun = []) := by
  refine Triple.bind ((start_spoke (copyRest sel data.mimeTypes) (copy_initial _ _) display seat
    sel).conseq (fun _ h => h) (fun _ _ h => h) fun _ _ h => h.begun) fun ok =>
    Triple.ite (fun hok => ?_) fun _ => Triple.pure _ fun _ h => h.2.begun
  refine Triple.bind (Q := fun _ cl => ∃ sg mg,
    Booted (initialFrame (CopyState.new data oneshot) sigpipe) sg mg cl) (Triple.read _ fun cl h => ?_)
    fun st => Triple.ite (fun _ => Triple.pure _ ?_) fun _ => ?_
  · obtain ⟨sg, mg, h, -⟩ := h.1 hok
    exact ⟨sg, mg, h⟩
  · rintro cl ⟨sg, mg, h⟩
    exact congrArg Process.Background.begun h.frame.background
  · refine Triple.bind (Q := fun _ cl => cl.begun = []) ?_ fun _ =>
      Triple.bind flush_begun fun _ => Triple.pure _ fun _ h => h
    have hready : Triple _ (announce sel) (fun _ => Ready data oneshot sigpipe)
        (fun _ cl => cl.begun = []) := announce_ready sel
    refine hready.conseq
      ?_ (fun _ _ h => congrArg Process.Background.begun h.background) fun _ _ h => h
    rintro cl ⟨sg, mg, h⟩
    exact ⟨h.nextId, h.frame⟩

/-- At most one transfer was begun, and none while the copy goes on. -/
structure Once (cl : Client CopyState) : Prop where
  oneshot : cl.st.oneshot = true
  atMost : cl.begun.length ≤ 1
  idle : cl.st.done = false → cl.begun = []

theorem Once.quiet {cl' : Client CopyState} (h : Once cl) (hq : Client.Quiet cl cl') : Once cl' := by
  have hbegun : cl'.begun = cl.begun :=
    congrArg Process.Background.begun hq.1.logs.background_eq
  refine ⟨?_, ?_, ?_⟩
  · rw [hq.st]
    exact h.oneshot
  · rw [hbegun]
    exact h.atMost
  · rw [hq.st, hbegun]
    exact h.idle

theorem serveOn_begun (fd : Int) (data : List UInt8) :
    Triple (fun cl => cl.st.oneshot = true ∧ cl.begun = []) (serveOn fd data)
      (fun _ cl => cl.st.oneshot = true ∧ cl.begun.length ≤ 1) (fun _ cl => cl.begun.length ≤ 1) := by
  have hserve : Within (fun cl cl' : Client CopyState => cl'.st = cl.st ∧
      cl'.begun.length ≤ cl.begun.length + 1) (serveOn fd data) := by
    refine Within.ite (fun cl => ⟨rfl, ?_⟩) fun cl => ⟨rfl, Nat.le_succ _⟩
    have hlogs := Process.serveSend_logs fd data cl.toProcess
    have hbegun := hlogs.observe_eq (f := Action.begun) fun _ h => h.io.begun
    have hone : (Process.serveSend fd data cl.toProcess).2.begun = cl.begun ++ [(fd, data)] :=
      hbegun.trans (by simp [Process.after, Process.observe, Process.begun, Action.begun])
    change (Process.serveSend fd data cl.toProcess).2.begun.length ≤ cl.begun.length + 1
    rw [hone, List.length_append]
    exact Nat.le_refl _
  refine Triple.intro (fun cl _ cl' hcl hrun => ?_) fun cl _ cl' hcl hrun => ?_
  · obtain ⟨hst, hlen⟩ := hserve.of_eq hrun
    rw [hcl.2] at hlen
    exact ⟨hst ▸ hcl.1, hlen⟩
  · obtain ⟨-, hlen⟩ := hserve.of_eq hrun
    rwa [hcl.2] at hlen

theorem onSend_once : Triple (fun cl => cl.st.oneshot = true ∧ cl.begun = []) onSend
    (fun _ => Once) (fun _ cl => cl.begun.length ≤ 1) := by
  refine Triple.bind (Q := fun _ cl => cl.st.oneshot = true ∧ cl.begun = []) ?_ fun fd =>
    Triple.bind (Q := fun _ cl => cl.st.oneshot = true ∧ cl.begun = []) (Triple.read _ fun _ h => h)
      fun st => Triple.bind (serveOn_begun fd st.data.bytes) fun _ => Triple.update _ fun cl h => ?_
  · rintro ⟨⟨p, sock, inBuf, _ | ⟨fd, inFds⟩, outBuf, outFds⟩, objects, nextId, st⟩ h <;> exact h
  · have hdone : (countServed cl.st).done = true := by simp [countServed, h.1]
    exact ⟨h.1, h.2, fun hno => absurd (hno.symm.trans hdone) nofun⟩

theorem common_copy (obj : UInt32) (op : UInt16) (r : Reader) (cl : Client CopyState) :
    (common obj op r cl).st.oneshot = cl.st.oneshot ∧ (common obj op r cl).st.done = cl.st.done := by
  unfold common
  split <;> first | exact ⟨rfl, rfl⟩ | (split_ifs <;> exact ⟨rfl, rfl⟩)

theorem handleCopy_once (obj : UInt32) (op : UInt16) (r : Reader) :
    Triple (fun cl => Once cl ∧ cl.st.done = false) (handleCopy obj op r) (fun _ => Once)
      (fun _ cl => cl.begun.length ≤ 1) := by
  rintro cl ⟨h, hdone⟩
  by_cases hkind : cl.objects obj = .source
  · rw [handleCopy_source hkind]
    split_ifs
    · exact onSend_once cl ⟨h.oneshot, h.idle hdone⟩
    · have hcancel : (cancel cl.st).oneshot = cl.st.oneshot := by
        unfold cancel
        split_ifs <;> rfl
      exact ⟨hcancel.trans h.oneshot, h.atMost, fun _ => h.idle hdone⟩
    · exact h
  · rw [handleCopy_other hkind]
    have hbegun : (common obj op r cl).begun = cl.begun :=
      congrArg (fun c : Connection => c.begun) (common_toConnection obj op r cl)
    obtain ⟨honeshot, hsame⟩ := common_copy obj op r cl
    refine ⟨honeshot.trans h.oneshot, ?_, fun _ => ?_⟩
    · rw [hbegun]
      exact h.atMost
    · rw [hbegun]
      exact h.idle hdone

theorem once_invariant (o : Client.Origin) :
    Client.Invariant CopyState.done copyDispatcher o (fun _ => Once)
      (fun _ cl => cl.begun.length ≤ 1) where
  quiet _ _ _ h hq := h.quiet hq
  deliver ds m := by
    refine Triple.pre (Client.deliver_triple ((handleCopy_once _ _ _).conseq (fun _ h => h)
      (fun _ cl h => ⟨h.oneshot, h.atMost, h.idle⟩) fun _ _ h => h)) fun cl h => ?_
    have hbegun : (cl.logged m).begun = cl.begun := by
      simp [Client.logged, Process.begun, Process.observe, Action.begun]
    refine ⟨⟨h.1.oneshot, ?_, fun _ => ?_⟩, h.2.2.2⟩
    · rw [hbegun]
      exact h.1.atMost
    · rw [hbegun]
      exact h.1.idle h.2.2.2

theorem copyServe_once : Triple (fun cl => Once cl) copyServe (fun _ cl => cl.begun.length ≤ 1)
    (fun _ cl => cl.begun.length ≤ 1) := by
  refine Triple.bind (Q := fun _ cl => cl.begun.length ≤ 1) (fun cl h => ?_) fun ok =>
    Triple.bind (Q := fun _ cl => cl.begun.length ≤ 1) (Triple.read _ fun _ h => h) fun st =>
      Triple.pure _ fun _ h => h
  refine ((Client.dispatchUntil_rule (once_invariant cl.origin)).conseq (fun _ h => h) ?_ ?_) cl
    ⟨[], h, Client.unread_origin cl⟩
  · rintro ok cl' ⟨⟨_, h, -⟩, -⟩
    exact h.atMost
  · rintro e cl' (h | ⟨⟨_, h, -⟩, -⟩)
    · exact h
    · exact h.atMost

theorem copyClient_once (display seat : Text) (sel : Selection) :
    Triple (Fresh (initialFrame (CopyState.new data true) sigpipe)) (copyClient display seat sel)
      (fun _ cl => cl.begun.length ≤ 1) (fun _ cl => cl.begun.length ≤ 1) := by
  have hnone : ∀ cl : Client CopyState, cl.begun = [] → cl.begun.length ≤ 1 := fun cl h => by
    rw [h]
    exact Nat.zero_le 1
  refine Triple.bind (((copySetup_triple display seat sel).and
    (copySetup_begun display seat sel)).conseq (fun _ h => ⟨h, h⟩) (fun _ _ h => h)
      fun _ cl h => hnone cl h.2) fun ok => Triple.ite (fun hok => ?_) fun _ =>
        Triple.pure _ fun cl h => hnone cl h.2
  refine copyServe_once.pre fun cl h => ?_
  have hready := h.1.1 hok
  exact ⟨congrArg CopyState.oneshot hready.st, hnone cl h.2, fun _ => h.2⟩

end Handcrafted

namespace HandcraftedBackend

open Handcrafted

/-- Whatever happens to a oneshot copy, it begins at most one transfer. -/
theorem copy_once (display seat : Text) (sel : Selection) (data : CopyData) {p : Process}
    (hp : p.trace = []) : AtMostOne Action.begun p (copy display seat sel data true p).2 := by
  have hrun : Triple (fun proc => proc = p) (copy display seat sel data true)
      (fun _ q => q.begun.length ≤ 1) (fun _ q => q.begun.length ≤ 1) := by
    have honce : Triple (Fresh (initialFrame (CopyState.new data true) p.sigpipe))
        (copyClient display seat sel) _ _ := copyClient_once display seat sel
    refine Client.run_triple (honce.pre ?_) fun _ q q' hlogs hq => ?_
    · rintro cl ⟨proc, rfl, rfl⟩
      exact fresh_new proc data true hp
    · have hsame := hlogs.observe_eq (f := Action.begun) fun _ h => h.io.begun
      have hlen : q'.begun.length = q.begun.length := congrArg List.length hsame
      rw [hlen]
      exact hq
  exact .of_start hp (hrun.reached rfl)

end HandcraftedBackend

/-! ## The X11 copy -/

/-- The payloads that a copy has stored in properties: all else that it stores there has format 32. -/
def Action.stored : Action → List (Window × List UInt8)
  | .xRequest (.changeProperty window _ _ 8 data) => [(window, data)]
  | _ => []

namespace X11

def Unstored (p p' : Process) : Prop := p'.observe Action.stored = p.observe Action.stored

instance : IsPreorder Process Unstored where
  refl _ := rfl
  trans _ _ _ h h' := Eq.trans h' h

theorem ask_unstored {α : Type} (c : Call) (answer : Reply → Option α) :
    Within Unstored (Process.ask c answer) := by
  refine (Process.ask_logs (A := Action.Io) fun r _ _ => .call c r).mono fun _ _ h => ?_
  refine h.observe_eq fun a ha => ?_
  cases ha <;> rfl

theorem xRequest_unstored {r : XRequest} (h : Action.stored (.xRequest r) = []) :
    Within Unstored (Process.xRequest r) := by
  intro p
  change (p.trace ++ [Action.xRequest r]).flatMap Action.stored = _
  simp [List.flatMap_append, h, Process.observe]

theorem loadAtoms_unstored : Within Unstored loadAtoms := by
  unfold loadAtoms
  repeat' first
    | exact Within.pure _
    | refine Within.bind (ask_unstored _ _) fun _ => ?_

theorem connect_unstored (display : Text) : Within Unstored (connect display) := by
  refine Within.bind (ask_unstored _ _) ?_
  rintro (_ | ⟨fd, window⟩)
  · exact Within.pure _
  · exact Within.bind loadAtoms_unstored fun _ => Within.pure _

theorem internAll_unstored (mimes : List Text) : Within Unstored (internAll mimes) := by
  induction mimes with
  | nil => exact Within.pure _
  | cons m mimes ih =>
      exact Within.bind (ask_unstored _ _) fun _ => Within.bind ih fun _ => Within.pure _

theorem buildTargets_unstored (a : Atoms) (mimes : List Text) :
    Within Unstored (buildTargets a mimes) :=
  Within.bind (internAll_unstored _) fun _ => Within.pure _

theorem acquireSelection_unstored (display : Text) (sel : Selection) (data : CopyData) :
    Within Unstored (acquireSelection display sel data) := by
  refine Within.ite (Within.pure _) (Within.bind (connect_unstored display) ?_)
  rintro (_ | x)
  · exact Within.pure _
  · refine Within.bind (buildTargets_unstored _ _) fun targets => Within.bind (xRequest_unstored rfl)
      fun _ => Within.bind (ask_unstored _ _) fun owner => Within.ite (Within.pure _) ?_
    exact Within.bind (xRequest_unstored rfl) fun _ => Within.pure _

theorem notify_unstored (req : SelectionRequest) (prop : Atom) :
    Within Unstored (sendSelectionNotify req prop) := xRequest_unstored rfl

theorem setProperty_unstored (req : SelectionRequest) (prop type : Atom) (data : List UInt8) :
    Within Unstored (setProperty req prop type 32 data) :=
  Within.bind (xRequest_unstored rfl) fun _ => notify_unstored _ _

def Idle (p : Process) : Prop := p.observe Action.stored = []

def Served (p : Process) : Prop := (p.observe Action.stored).length ≤ 1

theorem Idle.served {p : Process} (h : Idle p) : Served p := by
  rw [Served, h]
  exact Nat.zero_le 1

theorem unstored_idle {α : Type} {prog : Prog Halt Process α} (h : Within Unstored prog) :
    Triple Idle prog (fun _ => Idle) (fun _ => Served) :=
  (h.keeps (I := Idle) fun _ _ hsame hidle => Eq.trans hsame hidle).conseq (fun _ h => h)
    (fun _ _ h => h) fun _ _ h => h.served

theorem unstored_served {α : Type} {prog : Prog Halt Process α} (h : Within Unstored prog) :
    Triple Served prog (fun _ => Served) (fun _ => Served) := by
  refine h.keeps fun p p' hsame hserved => ?_
  rw [Served, hsame]
  exact hserved

/-- Only an answer with the payload stores one. -/
theorem answerRequest_once (ctx : CopyContext) (req : SelectionRequest) :
    Triple Idle (answerRequest ctx req) (fun served p => Served p ∧ (served = false → Idle p))
      (fun _ => Served) := by
  have hrefused : ∀ {prog : Prog Halt Process Unit}, Within Unstored prog →
      Triple Idle (do prog; return false) (fun served p => Served p ∧ (served = false → Idle p))
        (fun _ => Served) := fun h =>
    Triple.bind (unstored_idle h) fun _ => Triple.pure _ fun _ hidle => ⟨hidle.served, fun _ => hidle⟩
  refine Triple.ite (fun _ => hrefused (notify_unstored _ _)) fun _ => ?_
  refine Triple.ite (fun _ => hrefused (setProperty_unstored _ _ _ _)) fun _ => ?_
  refine Triple.ite (fun _ => hrefused (setProperty_unstored _ _ _ _)) fun _ => ?_
  refine Triple.ite (fun _ => hrefused (notify_unstored _ _)) fun _ => ?_
  refine Triple.bind (Q := fun _ => Served) ?_ fun _ => Triple.pure _ fun _ h => ⟨h, nofun⟩
  refine Triple.bind (Q := fun _ => Served) (fun p hidle => ?_) fun _ =>
    unstored_served (notify_unstored _ _)
  change ((p.trace ++ [_]).flatMap Action.stored).length ≤ 1
  rw [List.flatMap_append, show p.trace.flatMap Action.stored = [] from hidle]
  exact Nat.le_refl 1

/-- The loop goes on only while nothing was served. -/
def Serving.Once (s : Serving) (p : Process) : Prop := Served p ∧ (s.lost = false → Idle p)

theorem serveRound_once (ctx : CopyContext) (s : Serving) :
    Triple s.Once (serveRound ctx true s)
      (fun r p => match r with | .inl s' => s'.Once p | .inr _ => Served p) (fun _ => Served) := by
  refine Triple.ite (fun _ => Triple.pure _ fun _ h => h.1) fun hlost => ?_
  rw [Bool.not_eq_true] at hlost
  refine Triple.bind ((unstored_idle (ask_unstored _ _)).pre fun p h => h.2 hlost) ?_
  rintro (_ | req | n | _ | _)
  · exact Triple.pure _ fun _ h => h.served
  · refine Triple.bind (answerRequest_once ctx req) fun served =>
      Triple.ite (fun _ => ?_) fun hno => ?_
    · exact Triple.pure _ fun p h => ⟨h.1, fun hcontra => by simp at hcontra⟩
    · exact Triple.pure _ fun p h => ⟨h.1, fun _ => h.2 (Bool.eq_false_iff.mpr hno)⟩
  all_goals exact Triple.pure _ fun p h => ⟨h.served, fun _ => h⟩

theorem serveSelection_once (ctx : CopyContext) :
    Triple Idle (serveSelection ctx true) (fun _ => Served) (fun _ => Served) := by
  refine Triple.bind (Q := fun _ => Served) ?_ fun _ => Triple.pure _ fun _ h => h
  refine (Triple.loop (I := Serving.Once) (Q := fun _ => Served) (fun s => ?_) (fun _ _ h => h.1)
    ⟨0, false⟩).pre fun _ h => ⟨h.served, fun _ => h⟩
  refine (serveRound_once ctx s).conseq (fun _ h => h) ?_ fun _ _ h => h
  rintro (s' | s') p h <;> exact h

end X11

namespace X11Backend

open X11

/-- Whatever happens to a oneshot copy, it stores at most one payload. -/
theorem copy_once (display : Text) (sel : Selection) (data : CopyData) {p : Process}
    (hp : p.trace = []) : AtMostOne Action.stored p (copy display sel data true p).2 := by
  have hrun : Triple Idle (copy display sel data true) (fun _ => Served) (fun _ => Served) := by
    refine Triple.bind (unstored_idle (acquireSelection_unstored display sel data)) ?_
    rintro (_ | ctx)
    · exact Triple.pure _ fun _ h => h.served
    · exact Triple.bind (serveSelection_once ctx) fun _ =>
        Triple.bind (unstored_served (xRequest_unstored rfl)) fun _ => Triple.pure _ fun _ h => h
  have hidle : Idle p := by simp [Idle, Process.observe, hp]
  exact .of_start hp (hrun.reached hidle)

end X11Backend

/-! ## The libwayland copies -/

def Handed.transfer : Handed → Option (Int × List UInt8)
  | .begun fd data => some (fd, data)
  | .wrote _ _ => none

theorem Action.begun_handed (a : Action) : a.begun = a.handed.filterMap Handed.transfer := by
  cases a with
  | call c r =>
      simp only [Action.handed]
      split <;> simp_all [Action.begun, Handed.transfer]
  | _ => rfl

theorem begun_handed (log : List Action) :
    (log.flatMap Action.handed).filterMap Handed.transfer = log.flatMap Action.begun := by
  rw [List.filterMap_flatMap]
  exact congrArg log.flatMap (funext fun a => (a.begun_handed).symm)

theorem Process.Transfer.begun {fd : Int} {data out : List UInt8} {log : List Action}
    {e : TransferEnd} (h : Transfer fd data log out e) : log.flatMap Action.begun = [] := by
  induction h with
  | complete => rfl
  | wrote n hdata hn h ih => exact ih
  | interrupted hdata h ih => exact ih
  | waited pollin hdata h ih => exact ih
  | timedOut r hdata hr => rfl
  | failed r hdata hr => rfl
  | broken hdata => rfl

theorem Consumer.begun {data : List UInt8} (c : Consumer data) :
    c.handed.filterMap Handed.transfer = [(c.fd, data)] := by
  rw [handed, begun_handed, c.trace_flatMap fun _ => rfl, c.finished.begun]
  rfl

/-- The transfers of a copy that shows a daemon's run are those to the consumers served. -/
theorem Shows.begun {data : List UInt8} {atEnd : Status → Except Halt Bool → Prop} {p : Process}
    {r : Except Halt Bool × Process} {cs : List (Consumer data)} {o : Outcome}
    (h : Shows atEnd p.handed r (cs, o)) :
    r.2.observe Action.begun = p.observe Action.begun ++ cs.map fun c => (c.fd, data) := by
  have hcs : (cs.flatMap Consumer.handed).filterMap Handed.transfer =
      cs.map fun c => (c.fd, data) := by
    rw [List.filterMap_flatMap]
    simp only [Consumer.begun]
    exact List.map_eq_flatMap.symm
  have hlog := congrArg (List.filterMap Handed.transfer) h.1
  rw [List.filterMap_append, hcs] at hlog
  exact (begun_handed _).symm.trans (hlog.trans (congrArg (· ++ _) (begun_handed _)))

namespace Libwayland

variable {data : CopyData}

/-- A batch in which the copy serves no more than one consumer: it holds one send at most, or the
first of its consumers kills the copy. -/
def Single (b : List (Event (Consumer data.bytes))) : Prop :=
  ∀ c c' rest, requests b = c :: c' :: rest → c.fatal = true

/-- Nothing more comes to the copy, or the connection is lost. -/
inductive Over : List Reply → Prop
  | waiting : Over []
  | lost (rest : List Reply) : Over (.displayDispatch [] false :: rest)

theorem offer_once_iff {s : State} {seat : SeatInfo} {setSelection : WlRequest}
    {bs : List (List (Heard data.bytes))} {rest : List Reply} (hsig : s.sigpipe = .default)
    (hs : s.script = bs.flatMap batchReplies ++ rest) (hrest : Over rest) :
    AtMostOne Action.begun s.toProcess (offer seat setSelection data true s).2.toProcess ↔
      Single (firstBatch (bs.map sourceEvents)) := by
  have hserved : (run ⟨true, 0⟩ Consumer.fatal .initial (bs.map sourceEvents)).1 = _ :=
    run_first rfl rfl rfl (bs.map sourceEvents)
  have hbegun : (offer seat setSelection data true s).2.observe Action.begun =
      s.observe Action.begun ++ (answered Consumer.fatal
        (requests (firstBatch (bs.map sourceEvents)))).map fun c => (c.fd, data.bytes) := by
    rw [← hserved]
    cases hrest with
    | waiting =>
        have hshows : let r := offer seat setSelection data true s
            Shows Waits s.handed (r.1, r.2.toProcess) _ :=
          shows_waiting hsig (hs.trans (List.append_nil _))
        exact hshows.begun
    | lost rest => exact (shows_lost hsig hs).begun
  rw [Single, ← answered_length,
    ← List.length_map (f := fun c : Consumer data.bytes => (c.fd, data.bytes))]
  constructor
  · rintro ⟨l, hl, hlen⟩
    rw [hbegun] at hl
    rwa [List.append_cancel_left hl]
  · exact fun hlen => ⟨_, hbegun, hlen⟩

end Libwayland

/-- A oneshot copy of the handcrafted or the X11 backend serves at most one consumer whatever
happens; one through libwayland does exactly if the first batch with a source event is single. -/
theorem copies_once_iff (data : CopyData) :
    (∀ display seat sel p, p.trace = [] →
      AtMostOne Action.begun p (HandcraftedBackend.copy display seat sel data true p).2) ∧
    (∀ display sel p, p.trace = [] →
      AtMostOne Action.stored p (X11Backend.copy display sel data true p).2) ∧
    (∀ seat sel s (bs : List (List (Libwayland.Heard data.bytes))) rest,
      DataControlBackend.Begins sel data s →
      s.script = bs.flatMap Libwayland.batchReplies ++ rest → Libwayland.Over rest →
      (AtMostOne Action.begun s.toProcess (DataControlBackend.copy seat sel data true s).2.toProcess ↔
        Libwayland.Single (firstBatch (bs.map Libwayland.sourceEvents)))) ∧
    (∀ seat sel s (bs : List (List (Libwayland.Heard data.bytes))) rest,
      DataDeviceBackend.Begins sel s →
      s.script = bs.flatMap Libwayland.batchReplies ++ rest → Libwayland.Over rest →
      (AtMostOne Action.begun s.toProcess (DataDeviceBackend.copy seat sel data true s).2.toProcess ↔
        Libwayland.Single (firstBatch (bs.map Libwayland.sourceEvents)))) := by
  refine ⟨fun display seat sel p => HandcraftedBackend.copy_once display seat sel data,
    fun display sel p => X11Backend.copy_once display sel data, ?_, ?_⟩
  · intro seat sel s bs rest h hs hrest
    rw [h.copy seat true]
    exact Libwayland.offer_once_iff h.sigpipe hs hrest
  · intro seat sel s bs rest h hs hrest
    rw [h.copy seat data true]
    exact Libwayland.offer_once_iff h.sigpipe hs hrest

/-- Another consumer of the text. -/
def nextTaker : Consumer plainText.bytes :=
  .taking (text "text/plain") plain_fits 6 (by decide) plainText_ne_nil

/-- The X server's side of a copy that is sent the requests. -/
def xCopying (requests : List SelectionRequest) : Process :=
  .fresh (.xConnect (some (3, 42)) ::
    [300, 301, 302, 303, 304, 305, 306, 307, 308].map .xInternAtom ++
    .xGetSelectionOwner (some 42) :: requests.map fun r => .xWaitForEvent (some (.selectionRequest r)))

/-- The theorem at two requests of their own batches. -/
theorem copies_once_apart :
    let es : List (Event (Consumer plainText.bytes)) := [.request taker, .request nextTaker]
    let bs : List (List (Libwayland.Heard plainText.bytes)) :=
      [[.source (.request taker)], [.source (.request nextTaker)]]
    let p := xCopying [⟨0, 50, 300, 305, 307⟩, ⟨0, 51, 300, 305, 307⟩]
    let s := State.synced (bs.flatMap Libwayland.batchReplies ++ [])
    AtMostOne Action.begun (Handcrafted.copying es [])
        (HandcraftedBackend.copy [] [] .regular plainText true (Handcrafted.copying es [])).2 ∧
      AtMostOne Action.stored p (X11Backend.copy [] .regular plainText true p).2 ∧
      AtMostOne Action.begun s.toProcess
        (DataControlBackend.copy plainSeat .regular plainText true s).2.toProcess ∧
      AtMostOne Action.begun s.toProcess
        (DataDeviceBackend.copy plainSeat .regular plainText true s).2.toProcess := by
  intro es bs p s
  have h := copies_once_iff plainText
  have hsingle : Libwayland.Single (firstBatch (bs.map Libwayland.sourceEvents)) := by
    rintro c c' rest ⟨⟩
  exact ⟨h.1 [] [] .regular (Handcrafted.copying es []) rfl, h.2.1 [] .regular p rfl,
    (h.2.2.1 plainSeat .regular s bs []
      ⟨by decide +kernel, by decide, by decide, by decide +kernel⟩ rfl .waiting).mpr hsingle,
    (h.2.2.2 plainSeat .regular s bs [] ⟨by decide +kernel, by decide, by decide +kernel⟩ rfl
      .waiting).mpr hsingle⟩

/-- Two requests in one batch are both served. -/
theorem copy_twice :
    let bs : List (List (Libwayland.Heard plainText.bytes)) :=
      [[.source (.request taker), .source (.request nextTaker)]]
    let s := State.synced (bs.flatMap Libwayland.batchReplies)
    let r := DataControlBackend.copy plainSeat .regular plainText true s
    DataControlBackend.Begins .regular plainText s ∧ r.1 = .ok true ∧
      r.2.observe Action.begun = [(5, plainText.bytes), (6, plainText.bytes)] ∧
      ¬ AtMostOne Action.begun s.toProcess r.2.toProcess := by
  intro bs s r
  have hbegun : r.2.observe Action.begun = [(5, plainText.bytes), (6, plainText.bytes)] := by
    decide +kernel
  have hnone : s.observe Action.begun = [] := by decide +kernel
  refine ⟨⟨by decide +kernel, by decide, by decide, by decide +kernel⟩, by decide +kernel, hbegun, ?_⟩
  rintro ⟨l, hl, hlen⟩
  rw [hbegun, hnone] at hl
  obtain rfl : _ = l := hl
  exact absurd hlen (by decide)

end WlClip
