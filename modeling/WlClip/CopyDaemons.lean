import WlClip.HandcraftedDaemon
import WlClip.LibwaylandDaemon

/-!
# The copy daemons

What is seen of a whole copy whose serving loop is one of the daemons: its result, and what the
consumers are given. From it follows which consumers kill a copy, how many consumers a oneshot
copy serves, and where the two copies over zwlr_data_control agree.
-/

open ScriptedProgram ScriptedProgram.Prog Daemon

namespace WlClip

variable {data : List UInt8}

/-- The result of a copy and the process that it leaves show what a daemon has done: the consumers
were given what is theirs, after what was handed `before`. `atEnd` is the result of a copy that
waits where its events end. -/
def Shows (atEnd : Status → Except Halt Bool → Prop) (before : List Handed)
    (r : Except Halt Bool × Process) : List (Consumer data) × Outcome → Prop
  | (cs, o) => r.2.handed = before ++ cs.flatMap Consumer.handed ∧ match o with
    | .killed => r.1 = .error .killed
    | .ended s => r.1 = .ok s.success
    | .waiting s => s.done = false ∧ atEnd s r.1

def Waits (_ : Status) (r : Except Halt Bool) : Prop := ∃ c, r = .error (.waiting c)

/-! ## The handcrafted copy -/

namespace HandcraftedBackend

open Handcrafted

/-- The copy on `p` has announced its source and begins to serve, as the client `cl`. -/
structure Begins (display seat : Text) (sel : Selection) (data : CopyData) (oneshot : Bool)
    (p : Process) (cl : Client CopyState) : Prop where
  trace : p.trace = []
  sigpipe : p.sigpipe = .default
  setup : copySetup display seat sel (Client.new p (CopyState.new data oneshot)) = (.ok true, cl)
  flushed : Client.Flushed cl

variable {display seat : Text} {sel : Selection} {data : CopyData} {oneshot : Bool} {p : Process}
  {cl : Client CopyState} {es : List (Event (Consumer data.bytes))} {rest : List Reply}

theorem Begins.ready (h : Begins display seat sel data oneshot p cl) :
    Ready data oneshot .default cl := by
  have htriple : Triple (Fresh (initialFrame (CopyState.new data oneshot) p.sigpipe))
      (copySetup display seat sel) (SetUp sel data oneshot p.sigpipe)
      (fun _ => Spoken (dataFrame data) (copyRest sel data.mimeTypes)) :=
    copySetup_triple display seat sel
  have hsetup := htriple.ok h.setup (fresh_new p data oneshot h.trace)
  rw [h.sigpipe] at hsetup
  exact hsetup.1 rfl

theorem Begins.attending (h : Begins display seat sel data oneshot p cl) :
    Attending oneshot data.bytes cl ∧ cl.st.status = .initial := by
  have hready := h.ready
  have hst := hready.st
  refine ⟨⟨h.flushed, hready.source, congrArg Process.Background.sigpipe hready.background,
    ?_, ?_⟩, ?_⟩
  · exact congrArg (fun st : CopyState => st.data.bytes) hst
  · exact congrArg CopyState.oneshot hst
  · exact congrArg CopyState.status hst

theorem Begins.copy (h : Begins display seat sel data oneshot p cl) :
    HandcraftedBackend.copy display seat sel data oneshot p = match serving cl with
      | (.ok ok, cl') => (.ok (ok && (!cl'.st.cancelled || cl'.st.served > 0)),
        (Connection.close cl'.toConnection).2.toProcess)
      | (.error e, cl') => (.error e, cl'.toProcess) := by
  have hclient : copyClient display seat sel (Client.new p (CopyState.new data oneshot)) =
      copyServe cl := bind_ok h.setup
  rw [HandcraftedBackend.copy, Client.run, hclient, copyServe]
  rcases hr : serving cl with ⟨e | ok, cl'⟩
  · rw [bind_error hr]
  · rw [bind_ok hr]
    rfl

/-- The copy shows what the daemon does, if its loop ends in `atEnd` where the events do. -/
theorem Begins.shows {atEnd : Status → Except Halt Bool → Prop}
    (h : Begins display seat sel data oneshot p cl)
    (harr : Arrives cl.inBuf cl.inFds cl.script es rest)
    (hend : ∀ cl', Client.Dispatching CopyState.done cl' → headMessage cl'.inBuf = none →
      cl'.script = rest → ∃ r cl'', serving cl' = (r, cl'') ∧ r ≠ .ok true ∧
        cl''.handed = cl'.handed ∧ atEnd cl'.st.status r) :
    Shows atEnd cl.handed (HandcraftedBackend.copy display seat sel data oneshot p)
      (run ⟨oneshot, 1⟩ Consumer.fatal .initial (singly es)) := by
  obtain ⟨hat, hstatus⟩ := h.attending
  have hran := serving_run harr hat rfl rfl rfl
  rw [hstatus] at hran
  have hcopy := h.copy
  rcases hr : run ⟨oneshot, 1⟩ Consumer.fatal .initial (singly es) with ⟨cs, s | s | _⟩ <;>
    rw [hr] at hran
  · obtain ⟨cl', hrun, hat', hnone, hscript, rfl, hdone, hhanded⟩ := hran
    obtain ⟨r, cl'', hloop, hr, hsame, hatEnd⟩ := hend cl' ⟨hat'.flushed, hdone⟩ hnone hscript
    rw [hrun, hloop] at hcopy
    rw [hcopy]
    rcases r with e | _ | _
    · exact ⟨hsame.trans hhanded, hdone, hatEnd⟩
    · exact ⟨(Connection.observe_close (fun _ => rfl) _).trans (hsame.trans hhanded), hdone, hatEnd⟩
    · exact absurd rfl hr
  · obtain ⟨cl', hrun, rfl, hhanded⟩ := hran
    rw [hrun] at hcopy
    rw [hcopy]
    exact ⟨(Connection.observe_close (fun _ => rfl) _).trans hhanded, rfl⟩
  · obtain ⟨cl', hrun, hhanded⟩ := hran
    rw [hrun] at hcopy
    rw [hcopy]
    exact ⟨hhanded, rfl⟩

theorem Begins.shows_waiting (h : Begins display seat sel data oneshot p cl)
    (harr : Arrives cl.inBuf cl.inFds cl.script es []) :
    Shows Waits cl.handed (HandcraftedBackend.copy display seat sel data oneshot p)
      (run ⟨oneshot, 1⟩ Consumer.fatal .initial (singly es)) := by
  refine h.shows harr fun cl' hcl' hnone hscript => ?_
  have hwait := Client.dispatchUntil_wait CopyState.done copyDispatcher hcl' hnone
    fun r rest hs => nomatch hscript.symm.trans hs
  exact ⟨_, cl', hwait, nofun, rfl, _, rfl⟩

theorem Begins.shows_lost {l : List Reply} (hl : Lost l)
    (h : Begins display seat sel data oneshot p cl)
    (harr : Arrives cl.inBuf cl.inFds cl.script es (l ++ rest)) :
    Shows (fun _ r => r = .ok false) cl.handed
      (HandcraftedBackend.copy display seat sel data oneshot p)
      (run ⟨oneshot, 1⟩ Consumer.fatal .initial (singly es)) := by
  refine h.shows harr fun cl' hcl' hnone hscript => ?_
  obtain ⟨log, hlost, hlog⟩ :=
    Client.dispatchUntil_lost CopyState.done copyDispatcher hcl' hnone hl hscript
  have hhanded : log.flatMap Action.handed = [] := hlog.flatMap (fun _ _ _ => rfl) fun _ _ => rfl
  refine ⟨_, _, hlost, nofun, ?_, rfl⟩
  simp [Client.advanced, Process.handed, hhanded]

end HandcraftedBackend

/-! ## The libwayland copies -/

namespace Libwayland

variable {oneshot : Bool} {l : Listening CopyState} {st : CopyState} {p : Process}
  {rest : List Reply}

theorem request_kept (r : WlRequest) :
    Triple (fun l : Listening CopyState => l.st = st ∧ Noted p l.toProcess) (Listening.request r)
      (fun _ l => l.st = st ∧ Noted p l.toProcess) (fun _ _ => False) := by
  refine fun l h => ⟨h.1, ?_⟩
  exact request_noted r l.toState h.2

theorem offerAll_kept (mimes : List Text) :
    Triple (fun l : Listening CopyState => l.st = st ∧ Noted p l.toProcess) (offerAll mimes)
      (fun _ l => l.st = st ∧ Noted p l.toProcess) (fun _ _ => False) := by
  induction mimes with
  | nil => exact Triple.pure _ fun _ h => h
  | cons m mimes ih => exact Triple.bind (request_kept _) fun _ => ih

theorem announce_kept (seat : SeatInfo) (setSelection : WlRequest) :
    Triple (fun l : Listening CopyState => l.st = st ∧ Noted p l.toProcess)
      (announce seat setSelection) (fun _ l => l.st = st ∧ Noted p l.toProcess)
      (fun _ _ => False) := by
  refine Triple.bind (request_kept _) fun _ => Triple.bind (request_kept _) fun _ => ?_
  refine Triple.bind (Q := fun _ (l : Listening CopyState) => l.st = st ∧ Noted p l.toProcess)
    (Triple.read _ fun _ h => h) fun st' => ?_
  exact Triple.bind (offerAll_kept _) fun _ => request_kept _

theorem finish_kept :
    Triple (fun l : Listening CopyState => l.st = st ∧ Noted p l.toProcess) finish
      (fun ok l => (l.st = st ∧ Noted p l.toProcess) ∧ ok = (!st.cancelled || st.served > 0))
      (fun _ _ => False) := by
  refine Triple.bind (request_kept _) fun _ => Triple.bind (request_kept _) fun _ => ?_
  refine Triple.bind (Q := fun st' (l : Listening CopyState) =>
    (l.st = st ∧ Noted p l.toProcess) ∧ st' = st) (Triple.read _ fun _ h => ⟨h, h.1⟩) fun st' => ?_
  exact Triple.pure _ fun l h => ⟨h.1, by rw [h.2]⟩

theorem shows_copy {atEnd : Status → Except Halt Bool → Prop} {s : State} {seat : SeatInfo}
    {setSelection : WlRequest} {data : CopyData} {bs : List (List (Heard data.bytes))}
    (hsig : s.sigpipe = .default) (hs : s.script = bs.flatMap batchReplies ++ rest)
    (hend : ∀ (l : Listening CopyState) st, l.st.done = false → Matches st l.st →
      l.script = rest → ∃ l', (serve l = (.ok (), l') ∧ l'.st = l.st ∧ atEnd st (.ok st.success) ∨
        ∃ c, serve l = (.error (.waiting c), l') ∧ atEnd st (.error (.waiting c))) ∧
        l'.handed = l.handed) :
    let r := offer seat setSelection data oneshot s
    Shows atEnd s.handed (r.1, r.2.toProcess)
      (run ⟨oneshot, 0⟩ Consumer.fatal .initial (bs.map sourceEvents)) := by
  let l : Listening CopyState := ⟨s, CopyState.new data oneshot⟩
  have hself : l.st = l.st ∧ Noted l.toProcess l.toProcess := ⟨rfl, rfl, rfl, rfl⟩
  have hannounce := announce_kept seat setSelection l hself
  rcases ha : announce seat setSelection l with ⟨e | u, l₁⟩ <;> rw [ha] at hannounce
  · exact hannounce.elim
  obtain ⟨hst, hnoted⟩ := hannounce
  have hrun : ∀ {r l'}, serveAndFinish l₁ = (r, l') →
      offer seat setSelection data oneshot s = (r, l'.toState) := by
    intro r l' h
    rw [offer, Listening.run, Prog.zoom_apply, bind_ok ha, h]
  have hat : Attending oneshot data.bytes l₁ :=
    ⟨hnoted.sigpipe.trans hsig, by rw [hst]; rfl, by rw [hst]; rfl⟩
  have hran := serve_run bs hat (s := .initial) (by rw [hst]; exact ⟨rfl, rfl, rfl⟩)
    (hnoted.script.trans hs)
  have hfinish : ∀ {l₂ : Listening CopyState} {st : Status}, serve l₁ = (.ok (), l₂) →
      Matches st l₂.st → ∃ l₃, serveAndFinish l₁ = (.ok st.success, l₃) ∧ l₃.handed = l₂.handed := by
    intro l₂ st hserve hm
    have hself₂ : l₂.st = l₂.st ∧ Noted l₂.toProcess l₂.toProcess := ⟨rfl, rfl, rfl, rfl⟩
    have hf := finish_kept l₂ hself₂
    rcases hl₃ : finish l₂ with ⟨e | ok, l₃⟩ <;> rw [hl₃] at hf
    · exact hf.elim
    · refine ⟨l₃, (bind_ok hserve).trans ?_, hf.1.2.handed⟩
      rw [hl₃, hf.2, hm.cancelled, hm.served]
      rfl
  have hbefore : l₁.handed = s.handed := hnoted.handed
  rcases hr : run ⟨oneshot, 0⟩ Consumer.fatal .initial (bs.map sourceEvents)
    with ⟨cs, s' | s' | _⟩ <;> rw [hr] at hran
  · obtain ⟨l₂, hserve, hat₂, hscript, hm, hdone, hlog⟩ := hran
    obtain ⟨l₃, hcase, hsame⟩ := hend l₂ s' (hm.done.trans hdone) hm hscript
    rcases hcase with ⟨hloop, hst₃, hatEnd⟩ | ⟨c, hloop, hatEnd⟩
    · obtain ⟨l₄, hcopy, hlast⟩ := hfinish (hserve.trans hloop) (hst₃ ▸ hm)
      rw [hrun hcopy]
      exact ⟨(hlast.trans hsame).trans (hlog.trans (by rw [hbefore])), hdone, hatEnd⟩
    · have hcopy : serveAndFinish l₁ = _ := bind_error (hserve.trans hloop)
      rw [hrun hcopy]
      exact ⟨hsame.trans (hlog.trans (by rw [hbefore])), hdone, hatEnd⟩
  · obtain ⟨l₂, hserve, hm, hlog⟩ := hran
    obtain ⟨l₃, hcopy, hlast⟩ := hfinish hserve hm
    rw [hrun hcopy]
    exact ⟨hlast.trans (hlog.trans (by rw [hbefore])), rfl⟩
  · obtain ⟨l₂, hserve, hlog⟩ := hran
    have hcopy : serveAndFinish l₁ = _ := bind_error hserve
    rw [hrun hcopy]
    exact ⟨hlog.trans (by rw [hbefore]), rfl⟩

theorem serve_wait (h : l.st.done = false) (hs : l.script = []) :
    serve l = (.error (.waiting .displayDispatch), l) := by
  have hask : Listening.sys Process.displayDispatch l =
      (.error (.waiting .displayDispatch), l) := by
    have hnil : Process.displayDispatch l.toProcess = _ := Process.ask_nil hs
    simp only [Listening.sys, Listening.onState, State.sys, Prog.zoom_apply, hnil]
  exact loop_error serveRound_shrinks (serveRound_dispatch h (bind_error hask))

section

variable {s : State} {seat : SeatInfo} {setSelection : WlRequest} {data : CopyData}
  {bs : List (List (Heard data.bytes))}

theorem shows_waiting (hsig : s.sigpipe = .default) (hs : s.script = bs.flatMap batchReplies) :
    let r := offer seat setSelection data oneshot s
    Shows Waits s.handed (r.1, r.2.toProcess)
      (run ⟨oneshot, 0⟩ Consumer.fatal .initial (bs.map sourceEvents)) :=
  shows_copy hsig (hs.trans (List.append_nil _).symm) fun l _ hdone _ hscript =>
    ⟨l, .inr ⟨_, serve_wait hdone hscript, _, rfl⟩, rfl⟩

theorem shows_lost (hsig : s.sigpipe = .default)
    (hs : s.script = bs.flatMap batchReplies ++ .displayDispatch [] false :: rest) :
    let r := offer seat setSelection data oneshot s
    Shows (fun st r => r = .ok st.success) s.handed (r.1, r.2.toProcess)
      (run ⟨oneshot, 0⟩ Consumer.fatal .initial (bs.map sourceEvents)) := by
  refine shows_copy hsig hs fun l _ hdone _ hscript => ?_
  obtain ⟨l', hlost, hst, hlog⟩ := serve_lost hdone hscript
  exact ⟨l', .inl ⟨hlost, hst, rfl⟩, hlog⟩

end

end Libwayland

namespace DataControlBackend

open Libwayland

structure Begins (sel : Selection) (data : CopyData) (s : State) : Prop where
  manager : s.zwlrManager = true
  version : sel = .primary → ¬ s.zwlrManagerVersion < 2
  types : data.mimeTypes ≠ []
  sigpipe : s.sigpipe = .default

theorem Begins.copy {sel : Selection} {data : CopyData} {s : State} (h : Begins sel data s)
    (seat : SeatInfo) (oneshot : Bool) :
    DataControlBackend.copy seat sel data oneshot s =
      offer seat (setSelection sel) data oneshot s := by
  have hversion : ¬ (sel = .primary ∧ s.zwlrManagerVersion < 2) := fun hlow => h.version hlow.1 hlow.2
  simp only [DataControlBackend.copy, bind_apply, Prog.read_apply, id_eq, h.manager, Bool.not_true,
    Bool.false_eq_true, if_false, if_neg hversion, if_neg h.types]

end DataControlBackend

namespace DataDeviceBackend

open Libwayland

/-- The copy does not fail before it announces its source. -/
structure Begins (sel : Selection) (s : State) : Prop where
  manager : s.wlManager = true
  regular : sel ≠ .primary
  sigpipe : s.sigpipe = .default

theorem Begins.copy {sel : Selection} {s : State} (h : Begins sel s) (seat : SeatInfo)
    (data : CopyData) (oneshot : Bool) :
    DataDeviceBackend.copy seat sel data oneshot s =
      offer seat (.setSelection true) data oneshot s := by
  simp only [DataDeviceBackend.copy, bind_apply, Prog.read_apply, id_eq, h.manager, Bool.not_true,
    Bool.false_eq_true, if_false, if_neg h.regular]

end DataDeviceBackend

/-! ## A copy of either kind -/

namespace Handcrafted

def copying {data : List UInt8} (es : List (Event (Consumer data))) (rest : List Reply) : Process :=
  .fresh (bootReplies 2 ++ .sendmsg (.ok 1000) :: es.flatMap eventReplies ++ rest)

end Handcrafted

namespace HandcraftedBackend

open Handcrafted

theorem Begins.of_setup {display seat : Text} {sel : Selection} {data : CopyData} {oneshot : Bool}
    {p : Process} {cl : Client CopyState} (htrace : p.trace = []) (hsigpipe : p.sigpipe = .default)
    (hcl : (copySetup display seat sel (Client.new p (CopyState.new data oneshot))).2 = cl)
    (hok : (copySetup display seat sel (Client.new p (CopyState.new data oneshot))).1 = .ok true)
    (hflushed : cl.outBuf = [] ∧ cl.outFds = []) : Begins display seat sel data oneshot p cl :=
  ⟨htrace, hsigpipe, Prod.ext hok hcl, hflushed⟩

end HandcraftedBackend

/-- A short text, and a consumer that takes it and one that does not. -/
def plainText : CopyData := ⟨[0x68, 0x69], [text "text/plain"]⟩

theorem plain_fits : ([Arg.str (text "text/plain")].flatMap Arg.bytes).length + 8 < 65536 := by
  decide

theorem plainText_ne_nil : plainText.bytes ≠ [] := by
  decide

theorem five_valid : (0 : Int) ≤ 5 := by
  decide

def taker : Consumer plainText.bytes :=
  .taking (text "text/plain") plain_fits 5 five_valid plainText_ne_nil

def closer : Consumer plainText.bytes :=
  .closing (text "text/plain") plain_fits 5 five_valid plainText_ne_nil

theorem plainText_tail : plainText.bytes.drop 1 ≠ [] := by
  decide

/-- A consumer that takes the text in two parts and lets the copy wait for the second. -/
def sipper : Consumer plainText.bytes where
  mime := text "text/plain"
  fits := plain_fits
  fd := 5
  valid := five_valid
  log := [.call (.write 5 plainText.bytes) (.write (.wrote 1)),
    .call (.write 5 (plainText.bytes.drop 1)) (.write (.failed .EAGAIN)),
    .call (.poll 5 5000) (.poll (.ok (.ready false))),
    .call (.write 5 (plainText.bytes.drop 1)) (.write (.wrote 1))]
  out := plainText.bytes.take 1 ++ ((plainText.bytes.drop 1).take 1 ++ [])
  ending := .complete
  finished := .wrote 1 plainText_ne_nil Nat.one_pos
    (.waited false plainText_tail (.wrote 1 plainText_tail Nat.one_pos .complete))

namespace HandcraftedBackend

open Handcrafted

def plainClient (oneshot : Bool) (es : List (Event (Consumer plainText.bytes)))
    (rest : List Reply) : Client CopyState :=
  (copySetup [] [] .regular (Client.new (copying es rest) (CopyState.new plainText oneshot))).2

/-- What can be computed of such a copy makes it one that begins and gets its events. -/
theorem plainClient_arrives (oneshot : Bool) (es : List (Event (Consumer plainText.bytes)))
    (rest : List Reply) (hbuf : (plainClient oneshot es rest).inBuf = [])
    (hfds : (plainClient oneshot es rest).inFds = [])
    (hs : (plainClient oneshot es rest).script = es.flatMap eventReplies ++ rest) :
    Arrives (plainClient oneshot es rest).inBuf (plainClient oneshot es rest).inFds
      (plainClient oneshot es rest).script es rest := by
  rw [hbuf, hfds, hs]
  exact arrives_singly es rest

end HandcraftedBackend

def plainSeat : SeatInfo := ⟨0, 1, 7, []⟩

/-! ## Consumers that kill -/

/-- No consumer has killed the copy. The copy has served the consumers that an unkillable one
serves, with the whole payload where they take it, and has returned only if that one would. -/
structure Survives (P : Policy) (bs : List (List (Event (Consumer data)))) (before : List Handed)
    (r : Except Halt Bool × Process) : Prop where
  alive : r.1 ≠ .error .killed
  served : r.2.handed = before ++ (ideal P .initial bs).1.flatMap Consumer.handed
  whole : ∀ c ∈ (ideal P .initial bs).1, c.ending = .complete →
    c.handed.flatMap Handed.bytes = data
  ended : ∀ ok, r.1 = .ok ok → ∃ s, (ideal P .initial bs).2 = .ended s

/-- Every consumer that the unkillable copy serves leaves its pipe open until it has it all. -/
def Harmless (P : Policy) (bs : List (List (Event (Consumer data)))) : Prop :=
  ∀ c ∈ (ideal P .initial bs).1, c.fatal = false

instance (P : Policy) (bs : List (List (Event (Consumer data)))) : Decidable (Harmless P bs) :=
  inferInstanceAs (Decidable (∀ c ∈ (ideal P .initial bs).1, c.fatal = false))

theorem Shows.survives_iff {P : Policy} {bs : List (List (Event (Consumer data)))}
    {before : List Handed} {r : Except Halt Bool × Process}
    (h : Shows Waits before r (run P Consumer.fatal .initial bs)) :
    Survives P bs before r ↔ Harmless P bs := by
  constructor
  · intro hr
    by_contra hharm
    have hkilled := (run_killed_iff .initial bs).mpr hharm
    rcases hrun : run P Consumer.fatal .initial bs with ⟨cs, o⟩
    rw [hrun] at h hkilled
    obtain rfl : o = .killed := hkilled
    exact hr.alive h.2
  · intro hharm
    have hideal := ideal_not_killed (P := P) .initial bs
    rw [run_eq_ideal hharm] at h
    have hwhole : ∀ c ∈ (ideal P .initial bs).1, c.ending = .complete →
        c.handed.flatMap Handed.bytes = data := fun c _ hc =>
      c.handed_bytes.trans (c.finished.out_prefix.2.mp hc)
    rcases hrun : ideal P .initial bs with ⟨cs, s | s | _⟩ <;> rw [hrun] at h hideal
    · obtain ⟨hhanded, -, c, hr⟩ := h
      refine ⟨by rw [hr]; nofun, by rw [hrun]; exact hhanded, hwhole, fun ok hok => ?_⟩
      rw [hr] at hok
      cases hok
    · obtain ⟨hhanded, hr⟩ := h
      exact ⟨by rw [hr]; nofun, by rw [hrun]; exact hhanded, hwhole, fun ok hok => ⟨s, by rw [hrun]⟩⟩
    · exact absurd rfl hideal

/-- A copy of any Wayland backend survives its consumers exactly when those that it would come to
serve are harmless. -/
theorem copies_survive_iff (data : CopyData) (oneshot : Bool) :
    (∀ display seat sel p cl (es : List (Event (Consumer data.bytes))),
      HandcraftedBackend.Begins display seat sel data oneshot p cl →
      Handcrafted.Arrives cl.inBuf cl.inFds cl.script es [] →
      (Survives ⟨oneshot, 1⟩ (singly es) cl.handed
          (HandcraftedBackend.copy display seat sel data oneshot p) ↔
        Harmless ⟨oneshot, 1⟩ (singly es))) ∧
    (∀ seat sel s (bs : List (List (Libwayland.Heard data.bytes))),
      DataControlBackend.Begins sel data s → s.script = bs.flatMap Libwayland.batchReplies →
      let r := DataControlBackend.copy seat sel data oneshot s
      (Survives ⟨oneshot, 0⟩ (bs.map Libwayland.sourceEvents) s.handed (r.1, r.2.toProcess) ↔
        Harmless ⟨oneshot, 0⟩ (bs.map Libwayland.sourceEvents))) ∧
    (∀ seat sel s (bs : List (List (Libwayland.Heard data.bytes))),
      DataDeviceBackend.Begins sel s → s.script = bs.flatMap Libwayland.batchReplies →
      let r := DataDeviceBackend.copy seat sel data oneshot s
      (Survives ⟨oneshot, 0⟩ (bs.map Libwayland.sourceEvents) s.handed (r.1, r.2.toProcess) ↔
        Harmless ⟨oneshot, 0⟩ (bs.map Libwayland.sourceEvents))) := by
  refine ⟨fun display seat sel p cl es h harr => (h.shows_waiting harr).survives_iff, ?_, ?_⟩
  · intro seat sel s bs h hs
    rw [h.copy seat oneshot]
    exact (Libwayland.shows_waiting h.sigpipe hs).survives_iff
  · intro seat sel s bs h hs
    rw [h.copy seat data oneshot]
    exact (Libwayland.shows_waiting h.sigpipe hs).survives_iff

/-- Two consumers take everything, and one of them in parts. -/
theorem copies_survive_takers :
    let es : List (Event (Consumer plainText.bytes)) := [.request sipper, .request taker]
    let bs : List (List (Libwayland.Heard plainText.bytes)) :=
      [[.source (.request sipper)], [.source (.request taker)]]
    let s := State.synced (bs.flatMap Libwayland.batchReplies)
    let control := DataControlBackend.copy plainSeat .regular plainText false s
    let device := DataDeviceBackend.copy plainSeat .regular plainText false s
    Survives ⟨false, 1⟩ (singly es) (HandcraftedBackend.plainClient false es []).handed
        (HandcraftedBackend.copy [] [] .regular plainText false (Handcrafted.copying es [])) ∧
      Survives ⟨false, 0⟩ (bs.map Libwayland.sourceEvents) s.handed
        (control.1, control.2.toProcess) ∧
      Survives ⟨false, 0⟩ (bs.map Libwayland.sourceEvents) s.handed
        (device.1, device.2.toProcess) := by
  intro es bs s control device
  have h := copies_survive_iff plainText false
  refine ⟨?_, ?_, ?_⟩
  · refine (h.1 [] [] .regular (Handcrafted.copying es []) (HandcraftedBackend.plainClient false es [])
      es (.of_setup rfl rfl rfl (by decide +kernel) (by decide +kernel)) ?_).mpr (by decide +kernel)
    exact HandcraftedBackend.plainClient_arrives false es [] (by decide +kernel) (by decide +kernel)
      (by decide +kernel)
  · exact (h.2.1 plainSeat .regular s bs
      ⟨by decide +kernel, by decide, by decide, by decide +kernel⟩ rfl).mpr (by decide +kernel)
  · exact (h.2.2 plainSeat .regular s bs
      ⟨by decide +kernel, by decide, by decide +kernel⟩ rfl).mpr (by decide +kernel)

/-- A consumer that closes its pipe kills the copy, and the next one is not served. -/
theorem copy_killed :
    let bs : List (List (Libwayland.Heard plainText.bytes)) :=
      [[.source (.request closer)], [.source (.request taker)]]
    let s := State.synced (bs.flatMap Libwayland.batchReplies)
    let r := DataControlBackend.copy plainSeat .regular plainText false s
    DataControlBackend.Begins .regular plainText s ∧ r.1 = .error .killed ∧
      r.2.handed = s.handed ++ closer.handed ∧
      ¬ Survives ⟨false, 0⟩ (bs.map Libwayland.sourceEvents) s.handed (r.1, r.2.toProcess) := by
  intro bs s r
  have hkilled : r.1 = .error .killed := by decide +kernel
  exact ⟨⟨by decide +kernel, by decide, by decide, by decide +kernel⟩, hkilled,
    by decide +kernel, fun h => h.alive hkilled⟩

/-! ## Where the copies over zwlr_data_control agree -/

/-- The copies return the same, and their consumers are given the same. -/
def Agree (before before' : List Handed) (r r' : Except Halt Bool × Process) : Prop :=
  r.1 = r'.1 ∧ ∃ hs, r.2.handed = before ++ hs ∧ r'.2.handed = before' ++ hs

/-- When the connection is lost in the end, the handcrafted copy and the copy through libwayland,
which is not sent the first cancel, agree exactly if the events alone end them. -/
theorem copies_agree_iff {display seat : Text} {sel : Selection} {data : CopyData} {oneshot : Bool}
    {p : Process} {cl : Client CopyState} {s : State} {es : List (Event (Consumer data.bytes))}
    {bs : List (List (Libwayland.Heard data.bytes))} {l rest rest' : List Reply}
    (h : HandcraftedBackend.Begins display seat sel data oneshot p cl)
    (h' : DataControlBackend.Begins sel data s) (info : SeatInfo) (hl : Lost l)
    (harr : Handcrafted.Arrives cl.inBuf cl.inFds cl.script es (l ++ rest))
    (hbs : bs.map Libwayland.sourceEvents = singly (dropCancel es))
    (hs : s.script = bs.flatMap Libwayland.batchReplies ++ .displayDispatch [] false :: rest') :
    let r := DataControlBackend.copy info sel data oneshot s
    Agree cl.handed s.handed (HandcraftedBackend.copy display seat sel data oneshot p)
        (r.1, r.2.toProcess) ↔
      Ends ⟨oneshot, 1⟩ Consumer.fatal 0 es := by
  intro r
  have hr : r = Libwayland.offer info (DataControlBackend.setSelection sel) data oneshot s :=
    h'.copy info oneshot
  have hhand := h.shows_lost hl harr
  have hlib : Shows (fun st r => r = .ok st.success) s.handed (r.1, r.2.toProcess)
      (run ⟨oneshot, 0⟩ Consumer.fatal .initial (singly (dropCancel es))) := by
    rw [hr, ← hbs]
    exact Libwayland.shows_lost h'.sigpipe hs
  have hends : (∃ st, (run ⟨oneshot, 1⟩ Consumer.fatal .initial (singly es)).2 = .waiting st) ↔
      ¬ Ends ⟨oneshot, 1⟩ Consumer.fatal 0 es := run_waiting_iff rfl (Nat.zero_le 1) es
  have hsame : Status.initial.Same .initial := ⟨rfl, rfl, rfl⟩
  obtain ⟨hserved, hout⟩ := run_dropCancel Consumer.fatal oneshot hsame rfl es
  rcases hrun : run ⟨oneshot, 1⟩ Consumer.fatal .initial (singly es) with ⟨cs, o⟩
  rcases hrun' : run ⟨oneshot, 0⟩ Consumer.fatal .initial (singly (dropCancel es)) with ⟨cs', o'⟩
  rw [hrun] at hhand hends hserved hout
  rw [hrun'] at hlib hserved hout
  obtain rfl : cs = cs' := hserved
  obtain ⟨hgiven, hresult⟩ := hhand
  obtain ⟨hgiven', hresult'⟩ := hlib
  have hagree : (HandcraftedBackend.copy display seat sel data oneshot p).1 = r.1 →
      Agree cl.handed s.handed (HandcraftedBackend.copy display seat sel data oneshot p)
        (r.1, r.2.toProcess) := fun heq => ⟨heq, _, hgiven, hgiven'⟩
  rcases o with st | st | _ <;> rcases o' with st' | st' | _ <;> try exact hout.elim
  · have hsuccess : st'.success = true := run_waiting_success (fun hc => by cases hc) hrun'
    refine ⟨fun hag => ?_, fun hend => absurd hend (hends.mp ⟨st, rfl⟩)⟩
    have heq := hag.1
    rw [hresult.2] at heq
    rw [hresult'.2, hsuccess] at heq
    cases heq
  · refine ⟨fun _ => ?_, fun _ => hagree ?_⟩
    · by_contra hno
      obtain ⟨st'', hw⟩ := hends.mpr hno
      cases hw
    · rw [hresult]
      refine Eq.trans ?_ hresult'.symm
      simp [Status.success, hout.served, hout.cancelled]
  · refine ⟨fun _ => ?_, fun _ => hagree (hresult.trans hresult'.symm)⟩
    by_contra hno
    obtain ⟨st'', hw⟩ := hends.mpr hno
    cases hw

theorem copies_agree_once :
    let es : List (Event (Consumer plainText.bytes)) := [.request taker, .cancel]
    let lost : List Reply := [.poll (.ok (.ready false))]
    let s := State.synced ([[.source (.request taker)]].flatMap Libwayland.batchReplies ++
      [.displayDispatch [] false])
    let r := DataControlBackend.copy plainSeat .regular plainText true s
    Agree (HandcraftedBackend.plainClient true es lost).handed s.handed
      (HandcraftedBackend.copy [] [] .regular plainText true (Handcrafted.copying es lost))
      (r.1, r.2.toProcess) := by
  intro es lost s r
  have h : HandcraftedBackend.Begins [] [] .regular plainText true (Handcrafted.copying es lost)
      (HandcraftedBackend.plainClient true es lost) :=
    .of_setup rfl rfl rfl (by decide +kernel) (by decide +kernel)
  have h' : DataControlBackend.Begins .regular plainText s :=
    ⟨by decide +kernel, by decide, by decide, by decide +kernel⟩
  have harr : Handcrafted.Arrives _ _ _ es ([.poll (.ok (.ready false))] ++ []) :=
    HandcraftedBackend.plainClient_arrives true es lost (by decide +kernel) (by decide +kernel)
      (by decide +kernel)
  have hs : s.script = ([[.source (.request taker)]] : List (List (Libwayland.Heard _))).flatMap
      Libwayland.batchReplies ++ .displayDispatch [] false :: [] := rfl
  exact (copies_agree_iff h h' plainSeat .hungUp harr rfl hs).mpr (.inr (.inl ⟨rfl, by decide⟩))

/-- Where the connection is lost at once, one copy fails and the other succeeds. -/
theorem copies_disagree :
    let es : List (Event (Consumer plainText.bytes)) := []
    let lost : List Reply := [.poll (.ok (.ready false))]
    let s := State.synced [.displayDispatch [] false]
    let r := HandcraftedBackend.copy [] [] .regular plainText false (Handcrafted.copying es lost)
    let r' := DataControlBackend.copy plainSeat .regular plainText false s
    HandcraftedBackend.Begins [] [] .regular plainText false (Handcrafted.copying es lost)
        (HandcraftedBackend.plainClient false es lost) ∧
      DataControlBackend.Begins .regular plainText s ∧ r.1 = .ok false ∧ r'.1 = .ok true ∧
      ¬ Agree (HandcraftedBackend.plainClient false es lost).handed s.handed r
        (r'.1, r'.2.toProcess) := by
  intro es lost s r r'
  have hr : r.1 = .ok false := by decide +kernel
  have hr' : r'.1 = .ok true := by decide +kernel
  refine ⟨.of_setup rfl rfl rfl (by decide +kernel) (by decide +kernel),
    ⟨by decide +kernel, by decide, by decide, by decide +kernel⟩, hr, hr', fun h => ?_⟩
  have heq := h.1
  rw [hr] at heq
  exact absurd (heq.trans hr') nofun

end WlClip
