import WlClip.DataControlPaste

/-!
# The two data_control pastes agree

When its events are over a paste has a plan, which depends on what it was told only: it goes on
listening, it returns, or it asks for an offer as one type. The two pastes have the same plan, and on
the same pipe the same result.
-/

open ScriptedProgram ScriptedProgram.Prog

namespace WlClip

open Offers

inductive Plan
  | listen
  | done (ok : Bool) (out : PasteResult)
  | ask (offer : UInt32 × List Text) (mime : Text)
  deriving DecidableEq

def planFor (preferMime : Text) (listOnly : Bool) : Option (UInt32 × List Text) → Plan
  | none => .done false .empty
  | some o =>
    if listOnly then .done true ⟨[], [], o.2⟩
    else if chooseMime o.2 preferMime = [] then .done false ⟨[], [], o.2⟩
    else .ask o (chooseMime o.2 preferMime)

def plan (sel : Selection) (preferMime : Text) (listOnly : Bool) (s : Tracked) : Plan :=
  if s.settled sel then planFor preferMime listOnly (s.choice sel) else .listen

/-- What comes after the events: nothing, the loss of the connection, or the replies to a fetch. -/
inductive Answer
  | nothing
  | lost (replies : List Reply)
  | noPipe (e : Errno)
  | piped (readEnd writeEnd : Int) (sends reads : List Reply)

namespace Answer

def handcrafted : Answer → List Reply
  | .nothing => []
  | .lost replies => replies
  | .noPipe e => [.pipe (.error e)]
  | .piped r w sends reads => .pipe (.ok (r, w)) :: (sends ++ reads)

def libwayland : Answer → List Reply
  | .nothing => []
  | .lost _ => [.displayDispatch [] false]
  | .noPipe e => [.pipe (.error e)]
  | .piped r w _ reads => .pipe (.ok (r, w)) :: reads

/-- The connection is lost in one of the ways there are, and a flush of `message` is answered. -/
def Possible (message : List UInt8) : Answer → Prop
  | .lost replies => Lost replies
  | .piped _ _ sends _ => Connection.Sends message.length sends
  | _ => True

end Answer

namespace Plan

def result : Plan → Answer → Option (Bool × PasteResult)
  | .listen, .lost _ => some (false, .empty)
  | .done ok out, _ => some (ok, out)
  | .ask o mime, .noPipe _ => some (false, ⟨mime, [], o.2⟩)
  | .ask o mime, .piped _ _ _ reads =>
    (Process.drained [] reads).map fun bytes => (true, ⟨mime, bytes, o.2⟩)
  | _, _ => none

def asked : Plan → Answer → List (UInt32 × Text)
  | .ask o mime, .piped .. => [(o.1, mime)]
  | _, _ => []

def message : Plan → List UInt8
  | .ask o mime => (Request.receive mime).encode o.1
  | _ => []

end Plan

/-- The program returns what is given, or it waits in a call. -/
def Returns {α : Type} (r : Except Halt α) : Option α → Prop
  | some a => r = .ok a
  | none => ∃ c, r = .error (.waiting c)

namespace Handcrafted

variable {l : List UInt32} {s : Tracked} {cl : Client PasteState} {sel : Selection}
  {preferMime : Text} {listOnly : Bool}

/-! ## The handcrafted paste -/

/-- A paste that has heard its events ends as planned. -/
structure Ends (r : Except Halt (Bool × PasteResult) × Client PasteState) (cl : Client PasteState)
    (result : Option (Bool × PasteResult)) (asked : List (UInt32 × Text)) : Prop where
  returns : Returns r.1 result
  offering : r.2.observe Action.offering = cl.observe Action.offering
  queued : r.2.queued = cl.queued ++ encodes (asked.map fun a => (a.1, .receive a.2))

theorem Ends.still {result : Option (Bool × PasteResult)} {r : Except Halt (Bool × PasteResult)}
    (h : Returns r result) : Ends (r, cl) cl result [] :=
  ⟨h, rfl, (List.append_nil _).symm⟩

theorem find_offer (i : UInt32) (offers : List (UInt32 × List Text)) :
    ((offers.map fun o => (⟨o.1, o.2⟩ : OfferRec)).find? fun o => o.id = i) =
      (find i offers).map fun o => ⟨o.1, o.2⟩ := by
  rw [List.find?_map]
  rfl

theorem take_found {i : UInt32} {o : UInt32 × List Text} (h : Tracking l s cl)
    (hcurrent : s.current sel = some i) (hi : i ≠ 0) (hfind : find i s.offers = some o) :
    take sel preferMime listOnly cl =
      if listOnly then (.ok (true, ⟨[], [], o.2⟩), cl)
      else if chooseMime o.2 preferMime = [] then (.ok (false, ⟨[], [], o.2⟩), cl)
      else fetch o.1 (chooseMime o.2 preferMime) o.2 cl := by
  have htarget : target sel cl.st = i := (h.target sel).trans (by rw [hcurrent]; rfl)
  obtain rfl := find_id hfind
  simp only [take, bind_apply, Prog.read_apply, htarget, hi, if_false, h.offers, find_offer, hfind,
    Option.map_some]
  split_ifs <;> rfl

theorem take_none (h : Tracking l s cl) (hchoice : s.choice sel = none) :
    take sel preferMime listOnly cl = (.ok (false, .empty), cl) := by
  have htarget := h.target sel
  rcases hcurrent : s.current sel with _ | i
  · have hzero : target sel cl.st = 0 := htarget.trans (by rw [hcurrent]; rfl)
    simp only [take, bind_apply, Prog.read_apply, hzero, if_true, pure_apply]
  · have hfind : find i s.offers = none := by
      rw [State.choice, hcurrent] at hchoice
      exact hchoice
    have hi : target sel cl.st = i := htarget.trans (by rw [hcurrent]; rfl)
    simp only [take, bind_apply, Prog.read_apply, hi, h.offers, find_offer, hfind, Option.map_none]
    split_ifs <;> rfl

theorem choice_found {o : UInt32 × List Text} (hfresh : ∀ o ∈ s.offers, OfferId o.1)
    (h : s.choice sel = some o) :
    ∃ i, s.current sel = some i ∧ i ≠ 0 ∧ find i s.offers = some o := by
  obtain ⟨i, hcurrent, hfind⟩ := Option.bind_eq_some_iff.mp h
  refine ⟨i, hcurrent, ?_, hfind⟩
  rintro rfl
  rw [find_null hfresh] at hfind
  cases hfind

variable {i : UInt32} {mime : Text} {available : List Text} {rest : List Reply}

theorem fetch_blocked (hs : ∀ r rest, cl.script ≠ .pipe r :: rest) :
    fetch i mime available cl = (.error (.waiting .pipe), cl) := by
  have hpipe : Process.pipe cl.toProcess = (.error (.waiting .pipe), cl.toProcess) :=
    Process.ask_blocked fun r rest hr => by
      cases r with
      | pipe r => exact absurd hr (hs r rest)
      | _ => rfl
  have hmake : Process.makePipe cl.toProcess = (.error (.waiting .pipe), cl.toProcess) :=
    bind_error hpipe
  refine bind_error ?_
  simp only [Client.sys, Client.onConn, Connection.sys, Prog.zoom_apply, hmake]

theorem makePipe_cons {r : Except Errno (Int × Int)} (hs : cl.script = .pipe r :: rest) :
    Client.sys Process.makePipe cl =
      (.ok (r.toOption), cl.advanced [.call .pipe (.pipe r)] rest) := by
  have hpipe : Process.pipe cl.toProcess = (.ok r, cl.after [.call .pipe (.pipe r)] rest) :=
    Process.ask_cons hs rfl
  have hmake : Process.makePipe cl.toProcess =
      (.ok r.toOption, cl.after [.call .pipe (.pipe r)] rest) :=
    (bind_ok hpipe).trans (by rcases r with e | ends <;> rfl)
  simp only [Client.sys, Client.onConn, Connection.sys, Prog.zoom_apply, hmake]
  rfl

theorem send_eq (w : Writer) (cl : Client PasteState) :
    send w cl = (.ok (), { cl with
      outBuf := cl.outBuf ++ w.finalize, trace := cl.trace ++ [.queue w.finalize] }) := rfl

theorem outFd_eq (fd : Int) (cl : Client PasteState) :
    Client.onConn (Connection.outFd fd) cl = (.ok (), { cl with
      outFds := cl.outFds ++ [fd], trace := cl.trace ++ [.queueFd fd] }) := rfl

/-- The connection of a paste that has queued its request for an offer, with the write end. -/
def receiving (i : UInt32) (mime : Text) (r w : Int) (rest : List Reply) (cl : Client PasteState) :
    Connection :=
  { cl.toConnection with
    script := rest
    outBuf := cl.outBuf ++ (Request.receive mime).encode i
    outFds := cl.outFds ++ [w]
    trace := cl.trace ++ [.call .pipe (.pipe (.ok (r, w)))] ++
      [.queue ((Request.receive mime).encode i)] ++ [.queueFd w] }

theorem receiving_queue (i : UInt32) (mime : Text) (r w : Int) (rest : List Reply)
    (hflushed : Client.Flushed cl) :
    let c := receiving i mime r w rest cl
    c.outBuf = (Request.receive mime).encode i ∧ c.outFds = [w] ∧
      c.outFds.length ≤ kMaxFdsPerMsg ∧
      (((Request.receive mime).encode i).length = 0 → c.outFds = []) := by
  intro c
  have hbuf : c.outBuf = (Request.receive mime).encode i := by
    change cl.outBuf ++ _ = _
    rw [hflushed.1, List.nil_append]
  have hfds : c.outFds = [w] := by
    change cl.outFds ++ [w] = _
    rw [hflushed.2, List.nil_append]
  refine ⟨hbuf, hfds, hfds ▸ show 1 ≤ kMaxFdsPerMsg by decide, fun hzero => ?_⟩
  obtain ⟨opLen, -, hencode⟩ := Request.encode_header i (.receive mime)
  have hlen := congrArg List.length hencode
  rw [List.length_append, LittleEndian.length_u32Bytes] at hlen
  omega

/-- However its flush ends, a fetch reads from its pipe after it. -/
theorem fetch_flush {r w : Int} {ok : Bool} {c : Connection}
    (hs : cl.script = .pipe (.ok (r, w)) :: rest)
    (hflush : Connection.flush (receiving i mime r w rest cl) = (.ok ok, c)) :
    fetch i mime available cl = (do
      let bytes ← Client.sys (Process.drainFd r)
      Client.sys (Process.close r)
      return (true, ⟨mime, bytes, available⟩) : Prog Halt (Client PasteState) _)
        { cl with toConnection := c } := by
  let cl₁ : Client PasteState := { cl with toConnection := receiving i mime r w rest cl }
  have hflush₁ : Client.onConn Connection.flush cl₁ = (.ok ok, { cl with toConnection := c }) :=
    Client.onConn_eq hflush
  rw [fetch, bind_ok (makePipe_cons hs)]
  exact (bind_ok (send_eq _ _)).trans ((bind_ok (outFd_eq w _)).trans (bind_ok hflush₁))

/-- The request for an offer is queued and sent; then its bytes are read. -/
theorem fetch_reads {r w : Int} {sends reads : List Reply} (hflushed : Client.Flushed cl)
    (hsends : Connection.Sends ((Request.receive mime).encode i).length sends)
    (hs : cl.script = .pipe (.ok (r, w)) :: (sends ++ reads)) :
    ∃ c : Connection, c.script = reads ∧
      c.observe Action.offering = cl.observe Action.offering ∧
      c.queued = cl.queued ++ (Request.receive mime).encode i ∧
      fetch i mime available cl = (do
        let bytes ← Client.sys (Process.drainFd r)
        Client.sys (Process.close r)
        return (true, ⟨mime, bytes, available⟩) : Prog Halt (Client PasteState) _)
          { cl with toConnection := c } := by
  let c₁ := receiving i mime r w (sends ++ reads) cl
  obtain ⟨hout, -⟩ := receiving_queue i mime r w (sends ++ reads) hflushed
  obtain ⟨ok, c, hflush, hscript⟩ := Connection.flush_sends hsends (congrArg List.length hout) rfl
  have hkept := Connection.flush_keepsInput.of_eq hflush
  refine ⟨c, hscript, ?_, ?_, fetch_flush hs hflush⟩
  · rw [hkept.logs.observe_eq fun a ha => by cases ha <;> rfl]
    simp [receiving, Process.observe, Action.offering]
  · rw [hkept.quiet.queued]
    simp [receiving, Process.queued, Process.observe, Action.queued]

theorem fetch_piped {r w : Int} {sends reads : List Reply} (hflushed : Client.Flushed cl)
    (hsends : Connection.Sends ((Request.receive mime).encode i).length sends)
    (hs : cl.script = .pipe (.ok (r, w)) :: (sends ++ reads)) :
    Ends (fetch i mime available cl) cl
      ((Process.drained [] reads).map fun bytes => (true, ⟨mime, bytes, available⟩)) [(i, mime)] := by
  obtain ⟨c, hscript, hoffering, hqueued, hfetch⟩ := fetch_reads hflushed hsends hs
  obtain ⟨log, rest, hdrain, hreads⟩ := Process.drainFd_eq r c.toProcess
  have hsys : Client.sys (Process.drainFd r) { cl with toConnection := c } =
      (Process.drainResult r (Process.drained [] reads),
        { cl with toConnection := { c with toProcess := c.after log rest } }) := by
    simp only [Client.sys, Client.onConn, Connection.sys, Prog.zoom_apply, hdrain, hscript]
  have hlog : log.flatMap Action.offering = [] := hreads.flatMap fun _ => rfl
  have hlog' : log.flatMap Action.queued = [] := hreads.flatMap fun _ => rfl
  rw [hfetch]
  rcases hbytes : Process.drained [] reads with _ | bytes <;> rw [hbytes] at hsys
  · rw [bind_error hsys]
    refine ⟨⟨_, rfl⟩, ?_, ?_⟩
    · rw [← hoffering]
      simp [hlog]
    · rw [encodes, List.map_singleton, List.flatMap_singleton, ← hqueued]
      simp [Process.queued, hlog']
  · rw [bind_ok hsys]
    refine ⟨rfl, ?_, ?_⟩
    · change ((c.after log rest).after [.close r] rest).observe Action.offering = _
      rw [← hoffering]
      simp [hlog, Action.offering]
    · change ((c.after log rest).after [.close r] rest).queued = _
      rw [encodes, List.map_singleton, List.flatMap_singleton, ← hqueued]
      simp [Process.queued, hlog', Action.queued]

theorem fetch_noPipe {e : Errno} (hs : cl.script = .pipe (.error e) :: rest) :
    Ends (fetch i mime available cl) cl (some (false, ⟨mime, [], available⟩)) [] := by
  rw [fetch, bind_ok (makePipe_cons hs)]
  refine ⟨rfl, ?_, ?_⟩
  · simp [Except.toOption, Client.advanced, Action.offering]
  · simp [Except.toOption, Client.advanced, Process.queued, Action.queued, encodes]

variable {a : Answer}

/-- A paste that has heard its events does as planned, whatever comes then. -/
theorem pasteReceive_ends (h : Tracking l s cl) (hfresh : ∀ o ∈ s.offers, OfferId o.1)
    (hend : s.settled sel = false → headMessage cl.inBuf = none) (hs : cl.script = a.handcrafted)
    (ha : a.Possible (plan sel preferMime listOnly s).message) :
    Ends (pasteReceive sel preferMime listOnly cl) cl
      ((plan sel preferMime listOnly s).result a) ((plan sel preferMime listOnly s).asked a) := by
  by_cases hsettled : s.settled sel = true
  · have hstop : awaiting sel cl = (.ok true, cl) :=
      Client.dispatchUntil_stop ((h.haveTarget sel).trans hsettled)
    rw [pasteReceive, bind_ok hstop, if_pos rfl]
    unfold plan at ha ⊢
    rw [if_pos hsettled] at ha ⊢
    rcases hchoice : s.choice sel with _ | o
    · rw [take_none h hchoice]
      exact .still rfl
    · rw [hchoice, planFor] at ha
      obtain ⟨i, hcurrent, hi, hfind⟩ := choice_found hfresh hchoice
      rw [take_found h hcurrent hi hfind, planFor]
      split_ifs at ha ⊢ with hlist hmime
      · exact .still rfl
      · exact .still rfl
      · cases a with
        | nothing => exact fetch_blocked (fun r rest hr => by cases hs.symm.trans hr) ▸ .still ⟨_, rfl⟩
        | lost replies =>
            refine fetch_blocked (fun r rest hr => ?_) ▸ .still ⟨_, rfl⟩
            have hlost : Lost replies := ha
            cases hlost <;> cases hs.symm.trans hr
        | noPipe e => exact fetch_noPipe hs
        | piped r w sends reads => exact fetch_piped h.flushed ha hs
  · rw [Bool.not_eq_true] at hsettled
    have hplan : plan sel preferMime listOnly s = .listen := by
      rw [plan, hsettled]
      rfl
    have hdispatching : Client.Dispatching (haveTarget sel) cl :=
      ⟨h.flushed, (h.haveTarget sel).trans hsettled⟩
    rw [hplan]
    have hwait : (∀ r rest, cl.script ≠ .poll r :: rest) →
        Ends (pasteReceive sel preferMime listOnly cl) cl none [] := fun hno => by
      have hblocked := Client.dispatchUntil_wait _ pasteDispatcher hdispatching (hend hsettled) hno
      rw [pasteReceive, bind_error hblocked]
      exact .still ⟨_, rfl⟩
    cases a with
    | lost replies =>
        obtain ⟨log, hlost, hlog⟩ := Client.dispatchUntil_lost _ pasteDispatcher hdispatching
          (hend hsettled) ha (hs.trans (List.append_nil _).symm)
        have hoffering : log.flatMap Action.offering = [] :=
          hlog.flatMap (fun _ _ _ => rfl) fun _ _ => rfl
        have hqueued : log.flatMap Action.queued = [] :=
          hlog.flatMap (fun _ _ _ => rfl) fun _ _ => rfl
        rw [pasteReceive, bind_ok hlost]
        exact ⟨rfl, by simp [Client.advanced, hoffering],
          by simp [Client.advanced, Process.queued, hqueued, Plan.asked, encodes]⟩
    | _ => exact hwait fun r rest hr => by cases hs.symm.trans hr

end Handcrafted

/-! ## The libwayland paste -/

namespace DataControlBackend

open Libwayland

variable {s : Tracked} {l : Listening PasteState} {sel : Selection} {preferMime : Text}
  {listOnly : Bool} {a : Answer} {rest : List Reply}

structure Ends (r : Except Halt (Bool × PasteResult) × Listening PasteState)
    (l : Listening PasteState) (result : Option (Bool × PasteResult))
    (asked : List (UInt32 × Text)) : Prop where
  returns : Returns r.1 result
  heard : r.2.observe Action.heard = l.observe Action.heard
  asked : r.2.observe Action.asked = l.observe Action.asked ++ asked.map fun a => (a.1.toNat, a.2)

theorem Ends.destroyed (out : Bool × PasteResult) :
    Ends ((do
      Listening.request .destroyDevice
      return out : Prog Halt (Listening PasteState) _) l) l (some out) [] := by
  rw [bind_ok (request_eq _ l)]
  exact ⟨rfl, by simp [Action.heard], by simp [Action.asked]⟩

variable {offer : PendingOffer} {mime : Text} {offers : List PendingOffer}

theorem fetch_blocked (hs : ∀ r rest, l.script ≠ .pipe r :: rest) :
    fetch offer mime offers l = (.error (.waiting .pipe), l) := by
  have hpipe : Process.pipe l.toProcess = (.error (.waiting .pipe), l.toProcess) :=
    Process.ask_blocked fun r rest hr => by
      cases r with
      | pipe r => exact absurd hr (hs r rest)
      | _ => rfl
  have hmake : Process.makePipe l.toProcess = (.error (.waiting .pipe), l.toProcess) :=
    bind_error hpipe
  exact bind_error (sys_eq hmake)

theorem fetch_noPipe {e : Errno} (hs : l.script = .pipe (.error e) :: rest) :
    Ends (fetch offer mime offers l) l (some (false, ⟨mime, [], offer.mimes⟩)) [] := by
  rw [fetch, bind_ok (makePipe_cons hs)]
  obtain ⟨hreturns, hheard, hasked⟩ := Ends.destroyed (l := { l with
    toProcess := l.after [.call .pipe (.pipe (.error e))] rest }) (false, ⟨mime, [], offer.mimes⟩)
  exact ⟨hreturns, hheard.trans (by simp [Action.heard]), hasked.trans (by simp [Action.asked])⟩

/-- Destroying the offers and the device asks for nothing. -/
theorem fetch_drained (offers : List PendingOffer) (r : Int) (out : PasteResult) :
    Ends ((do
      destroyOffers offers
      Listening.request .destroyDevice
      Listening.sys (Process.close r)
      return (true, out) : Prog Halt (Listening PasteState) _) l) l (some (true, out)) [] := by
  have hheard : (offers.map fun o => Action.request (.destroyOffer o.proxy)).flatMap Action.heard =
      [] := by
    simp [Action.heard]
  have hasked : (offers.map fun o => Action.request (.destroyOffer o.proxy)).flatMap Action.asked =
      [] := by
    simp [Action.asked]
  rw [bind_ok (destroyOffers_eq offers l), bind_ok (request_eq _ _), bind_ok (close_eq r _)]
  exact ⟨rfl, by simp [hheard, Action.heard], by simp [hasked, Action.asked]⟩

theorem fetch_piped {r w : Int} {reads : List Reply} {i : UInt32} (hi : offer.proxy = i.toNat)
    (hs : l.script = .pipe (.ok (r, w)) :: reads) :
    Ends (fetch offer mime offers l) l
      ((Process.drained [] reads).map fun bytes => (true, ⟨mime, bytes, offer.mimes⟩))
      [(i, mime)] := by
  let log₁ : List Action :=
    [.call .pipe (.pipe (.ok (r, w))), .request (.receive offer.proxy mime w), .close w]
  obtain ⟨log, rest, hdrain, hreads⟩ := Process.drainFd_eq r (l.after log₁ reads)
  have hlog : log.flatMap Action.heard = [] := hreads.flatMap fun _ => rfl
  have hlog' : log.flatMap Action.asked = [] := hreads.flatMap fun _ => rfl
  let l₂ : Listening PasteState := { l with toProcess := (l.after log₁ reads).after log rest }
  have hheard : l₂.observe Action.heard = l.observe Action.heard := by
    simp [l₂, log₁, hlog, Action.heard]
  have hasked : l₂.observe Action.asked = l.observe Action.asked ++ [(i.toNat, mime)] := by
    simp [l₂, log₁, hlog', Action.asked, hi]
  have hsys := sys_eq (l := { l with toProcess := l.after log₁ reads }) hdrain
  rw [fetch_reads hs]
  rcases hbytes : Process.drained [] reads with _ | bytes
  · have hresult : Process.drainResult r (Process.drained [] (l.after log₁ reads).script) =
        .error (.waiting (.read r)) := congrArg _ hbytes
    rw [hresult] at hsys
    rw [bind_error hsys]
    exact ⟨⟨_, rfl⟩, hheard, hasked⟩
  · have hresult : Process.drainResult r (Process.drained [] (l.after log₁ reads).script) =
        .ok bytes := congrArg _ hbytes
    rw [hresult] at hsys
    rw [bind_ok hsys]
    have hend := fetch_drained (l := l₂) offers r ⟨mime, bytes, offer.mimes⟩
    exact ⟨hend.returns, hend.heard.trans hheard, hend.asked.trans (by rw [hasked]; simp)⟩

theorem take_ends (h : Sees sel s l.st) (hsettled : s.settled sel = true)
    (hs : l.script = a.libwayland) :
    Ends (take (target sel l.st) l.st.offers preferMime listOnly l) l
      ((plan sel preferMime listOnly s).result a) ((plan sel preferMime listOnly s).asked a) := by
  rw [take, h.chosen, plan, if_pos hsettled]
  rcases s.choice sel with _ | o
  · exact Ends.destroyed _
  · rw [planFor]
    dsimp only [Option.map_some, pending]
    split_ifs with hlist hmime
    · exact Ends.destroyed _
    · exact Ends.destroyed _
    · cases a with
      | noPipe e => exact fetch_noPipe hs
      | piped r w sends reads => exact fetch_piped rfl hs
      | _ =>
          rw [fetch_blocked fun r rest hr => by cases hs.symm.trans hr]
          exact ⟨⟨_, rfl⟩, rfl, (List.append_nil _).symm⟩

/-- A paste whose events do not settle what it wants loses its connection or waits. -/
theorem awaitTarget_ends (h : Sees sel s l.st) (hsettled : s.settled sel = false)
    (hs : l.script = a.libwayland) :
    Ends ((do
      if ← awaitTarget sel then
        let st ← Prog.read Listening.st
        take (target sel st) st.offers preferMime listOnly
      else
        Listening.request .destroyDevice
        return (false, .empty) : Prog Halt (Listening PasteState) _) l) l
      (Plan.listen.result a) (Plan.listen.asked a) := by
  have hwait : (∀ events ok rest, l.script ≠ .displayDispatch events ok :: rest) →
      awaitTarget sel l = (.error (.waiting .displayDispatch), l) := fun hno => by
    have hblocked : Process.displayDispatch l.toProcess =
        (.error (.waiting .displayDispatch), l.toProcess) := Process.ask_blocked fun r rest hr => by
      cases r with
      | displayDispatch events ok => exact absurd hr (hno events ok rest)
      | _ => rfl
    have hdispatch : Listening.dispatch pasteListener l =
        (.error (.waiting .displayDispatch), l) := bind_error (sys_eq hblocked)
    refine loop_error (awaitRound_shrinks sel) ?_
    rw [awaitRound_waits h hsettled, hdispatch]
  have hends : (∀ events ok rest, l.script ≠ .displayDispatch events ok :: rest) →
      Ends ((do
        if ← awaitTarget sel then
          let st ← Prog.read Listening.st
          take (target sel st) st.offers preferMime listOnly
        else
          Listening.request .destroyDevice
          return (false, .empty) : Prog Halt (Listening PasteState) _) l) l none [] := fun hno => by
    rw [bind_error (hwait hno)]
    exact ⟨⟨_, rfl⟩, rfl, (List.append_nil _).symm⟩
  cases a with
  | lost replies =>
      let l' : Listening PasteState := { l with
        toProcess := l.after [.call .displayDispatch (.displayDispatch [] false)] [] }
      have hdispatch : Listening.dispatch pasteListener l = (.ok false, l') :=
        bind_ok (Listening.displayDispatch_cons hs)
      have hlost : awaitTarget sel l = (.ok false, l') := by
        refine loop_return (awaitRound_shrinks sel) ?_
        rw [awaitRound_waits h hsettled, hdispatch]
        rfl
      rw [bind_ok hlost]
      have hend := Ends.destroyed (l := l') (false, .empty)
      exact ⟨hend.returns, hend.heard.trans (by simp [l', Action.heard]),
        hend.asked.trans (by simp [l', Action.asked, Plan.asked])⟩
  | _ => exact hends fun events ok rest hr => by cases hs.symm.trans hr

theorem sees_new (sel : Selection) : Sees sel State.initial PasteState.new := by
  cases sel <;> exact ⟨rfl, rfl, rfl, rfl, fun _ => ⟨rfl, rfl⟩, rfl⟩

theorem receive_ends {es : List PasteEvent} (seat : SeatInfo) (hst : l.st = .new)
    (hv : Valid OfferId [] es)
    (hs : l.script = (State.initial.processed sel es).map eventReply ++ a.libwayland) :
    let heard := State.initial.processed sel es
    let planned := plan sel preferMime listOnly (State.initial.run heard)
    let r := receive seat sel preferMime listOnly l
    Returns r.1 (planned.result a) ∧
      r.2.observe Action.heard = l.observe Action.heard ++ heard.map wlEvent ∧
      r.2.observe Action.asked =
        l.observe Action.asked ++ (planned.asked a).map fun a => (a.1.toNat, a.2) := by
  intro heard planned r
  let l₁ : Listening PasteState := { l with
    toProcess := l.after [.request (.getDataDevice seat.proxy)] l.script }
  have hnew : Sees sel State.initial l₁.st := by
    change Sees sel State.initial l.st
    rw [hst]
    exact sees_new sel
  obtain ⟨l', hsees, hrun⟩ := awaitTarget_run hnew nofun hv hs
  have hends : Ends r l' (planned.result a) (planned.asked a) := by
    have hstart : r = (do
        if ← awaitTarget sel then
          let st ← Prog.read Listening.st
          take (target sel st) st.offers preferMime listOnly
        else
          Listening.request .destroyDevice
          return (false, .empty) : Prog Halt (Listening PasteState) _) l' := by
      refine (bind_ok (request_eq _ l)).trans ?_
      rw [bind_apply, bind_apply, hrun.run]
    rw [hstart]
    by_cases hsettled : (State.initial.run heard).settled sel = true
    · rw [bind_ok (awaitTarget_settled hsees hsettled), if_pos rfl]
      exact take_ends hsees hsettled hrun.script
    · rw [Bool.not_eq_true] at hsettled
      have hplan : planned = .listen := by
        simp only [planned, plan, hsettled, Bool.false_eq_true, if_false]
      rw [hplan]
      exact awaitTarget_ends hsees hsettled hrun.script
  have hheard : l₁.observe Action.heard = l.observe Action.heard := by simp [l₁, Action.heard]
  have hasked : l₁.observe Action.asked = l.observe Action.asked := by simp [l₁, Action.asked]
  refine ⟨hends.returns, ?_, ?_⟩
  · rw [hends.heard, hrun.heard, hheard]
  · rw [hends.asked, hrun.asked, hasked]

end DataControlBackend

/-! ## The whole runs -/

namespace HandcraftedBackend

open Handcrafted

variable {display seat : Text} {sel : Selection} {preferMime : Text} {listOnly : Bool}
  {p : Process} {cl : Client PasteState} {es : List PasteEvent} {a : Answer}

/-- A paste that has started, asked for its device and sent all that it had to send. -/
structure PasteBegins (display seat : Text) (sel : Selection) (p : Process)
    (cl : Client PasteState) : Prop where
  trace : p.trace = []
  setup : pasteSetup display seat sel (Client.new p .new) = (.ok true, cl)
  flushed : Client.Flushed cl

theorem PasteBegins.of_setup (htrace : p.trace = [])
    (hcl : (pasteSetup display seat sel (Client.new p .new)).2 = cl)
    (hok : (pasteSetup display seat sel (Client.new p .new)).1 = .ok true)
    (hflushed : cl.outBuf = [] ∧ cl.outFds = []) : PasteBegins display seat sel p cl :=
  ⟨htrace, Prod.ext hok hcl, hflushed⟩

theorem tracking_ready (hready : PasteReady cl) (hflushed : Client.Flushed cl) :
    Tracking [] State.initial cl := by
  have hst := hready.st
  refine ⟨hflushed, hready.device, hready.others, nofun, ?_, ?_, ?_, ?_, ?_, ?_⟩
  · exact congrArg PasteState.offers hst
  · exact congrArg PasteState.currentRegular hst
  · exact congrArg PasteState.currentPrimary hst
  · exact congrArg PasteState.gotRegular hst
  · exact congrArg PasteState.gotPrimary hst
  · exact congrArg PasteState.finished hst

theorem PasteBegins.tracking (h : PasteBegins display seat sel p cl) :
    Tracking [] State.initial cl := by
  have hsetup := pasteSetup_triple display seat sel _ (fresh_start p rfl h.trace)
  rw [h.setup] at hsetup
  exact tracking_ready (hsetup.1 rfl).1 h.flushed

theorem paste_ends (h : PasteBegins display seat sel p cl) (hv : Valid OfferId [] es)
    (hears : Hears sel .initial cl.inBuf cl.script es a.handcrafted)
    (ha : a.Possible (plan sel preferMime listOnly
      (State.initial.run (State.initial.processed sel es))).message) :
    let heard := State.initial.processed sel es
    let planned := plan sel preferMime listOnly (State.initial.run heard)
    let r := paste display seat sel preferMime listOnly p
    Returns r.1 (planned.result a) ∧
      r.2.observe Action.offering = cl.observe Action.offering ++ heard.map eventDelivery ∧
      r.2.queued = cl.queued ++ encodes ((planned.asked a).map fun a => (a.1, .receive a.2)) := by
  intro heard planned r
  obtain ⟨ids, cl', htrack, hheard, hend⟩ := awaiting_run hears h.tracking hv nofun rfl rfl
  have hfresh : ∀ o ∈ (State.initial.run heard).offers, OfferId o.1 :=
    fresh_run nofun (hv.processed _)
  have hends := pasteReceive_ends htrack hfresh hend hheard.script ha
  have hclient : pasteClient display seat sel preferMime listOnly (Client.new p .new) =
      pasteReceive sel preferMime listOnly cl' := by
    have hsame : Client.dispatchUntil (haveTarget sel) pasteDispatcher cl =
        Client.dispatchUntil (haveTarget sel) pasteDispatcher cl' := hheard.run
    rw [pasteClient, bind_ok h.setup, if_pos rfl, pasteReceive, bind_apply, bind_apply, hsame]
  have hrun : r = Client.run .new (pasteClient display seat sel preferMime listOnly) p := rfl
  rw [Client.run, hclient] at hrun
  have hoffering := hends.offering.trans hheard.offering
  have hqueued := hends.queued.trans (congrArg (· ++ _) hheard.queued)
  have hreturns := hends.returns
  rcases hr : pasteReceive sel preferMime listOnly cl' with ⟨e | out, cl''⟩ <;>
    rw [hr] at hrun hoffering hqueued hreturns
  · rw [hrun]
    exact ⟨hreturns, hoffering, hqueued⟩
  · have hclose := Connection.close_silent cl''.toConnection
    rw [hrun]
    refine ⟨hreturns, ?_, ?_⟩
    · exact (hclose.observe_eq fun a ha => by cases ha <;> rfl).trans hoffering
    · exact (hclose.observe_eq fun a ha => ha.io.queued).trans hqueued

end HandcraftedBackend

namespace DataControlBackend

variable {sel : Selection} {preferMime : Text} {listOnly : Bool} {s : State}
  {es : List PasteEvent} {a : Answer}

theorem paste_ends (seat : SeatInfo) (hmanager : s.zwlrManager = true)
    (hversion : sel = .primary → ¬ s.zwlrManagerVersion < 2) (hv : Valid OfferId [] es)
    (hs : s.script = (Offers.State.initial.processed sel es).map eventReply ++ a.libwayland) :
    let heard := Offers.State.initial.processed sel es
    let planned := plan sel preferMime listOnly (Offers.State.initial.run heard)
    let r := paste seat sel preferMime listOnly s
    Returns r.1 (planned.result a) ∧
      r.2.observe Action.heard = s.observe Action.heard ++ heard.map wlEvent ∧
      r.2.observe Action.asked =
        s.observe Action.asked ++ (planned.asked a).map fun a => (a.1.toNat, a.2) := by
  intro heard planned r
  have hrun : r = Listening.run .new (receive seat sel preferMime listOnly) s := by
    have hstart : ¬ (sel = .primary ∧ s.zwlrManagerVersion < 2) := fun h => hversion h.1 h.2
    simp only [r, paste, bind_apply, Prog.read_apply, id_eq, hmanager, hstart, Bool.not_true,
      Bool.false_eq_true, if_false]
  rw [hrun]
  exact receive_ends (l := ⟨s, .new⟩) seat rfl hv hs

end DataControlBackend

/-! ## Agreement -/

/-- What a paste returns as available: the types of the offer chosen, once one is known. -/
def availableTypes (sel : Selection) (heard : List PasteEvent) : List Text :=
  if (State.initial.run heard).settled sel then
    (((State.initial.run heard).choice sel).map fun o => typesOf o.1 heard).getD []
  else []

variable {sel : Selection} {preferMime : Text} {listOnly : Bool} {a : Answer}
  {chosen : Option (UInt32 × List Text)}

theorem planFor_available {ok : Bool} {out : PasteResult}
    (h : (planFor preferMime listOnly chosen).result a = some (ok, out)) :
    out.available = (chosen.map Prod.snd).getD [] := by
  rcases chosen with _ | o
  · cases h
    rfl
  · rw [planFor] at h
    split_ifs at h
    · cases h
      rfl
    · cases h
      rfl
    · cases a with
      | noPipe e =>
          cases h
          rfl
      | piped r w sends reads =>
          obtain ⟨bytes, -, hout⟩ := Option.map_eq_some_iff.mp h
          cases hout
          rfl
      | _ => cases h

theorem planFor_asked {x : UInt32 × Text} (h : x ∈ (planFor preferMime listOnly chosen).asked a) :
    ∃ types, chosen = some (x.1, types) ∧ x.2 = chooseMime types preferMime := by
  rcases chosen with _ | o
  · cases h
  · rw [planFor] at h
    split_ifs at h
    · cases h
    · cases h
    · cases a with
      | piped r w sends reads =>
          obtain rfl := List.mem_singleton.mp h
          exact ⟨o.2, rfl, rfl⟩
      | _ => cases h

theorem plan_available {s : Tracked} {ok : Bool} {out : PasteResult}
    (h : (plan sel preferMime listOnly s).result a = some (ok, out)) :
    out.available = if s.settled sel then ((s.choice sel).map Prod.snd).getD [] else [] := by
  unfold plan at h
  split_ifs at h ⊢
  · exact planFor_available h
  · cases a <;> cases h
    rfl

theorem plan_asked {s : Tracked} {x : UInt32 × Text}
    (h : x ∈ (plan sel preferMime listOnly s).asked a) :
    ∃ types, s.choice sel = some (x.1, types) ∧ x.2 = chooseMime types preferMime := by
  unfold plan at h
  split_ifs at h
  · exact planFor_asked h
  · cases a <;> cases h

open Handcrafted (eventDelivery encodes Hears) in
open HandcraftedBackend (PasteBegins) in
open DataControlBackend (wlEvent eventReply) in
/-- On the same events, and whatever comes after them, the two pastes stop after the same event,
return the same, and ask for the same offer as the same type. -/
theorem pastes_agree {display seatName : Text} {seat : SeatInfo} {p : Process}
    {cl : Client PasteState} {s : State} {es : List PasteEvent}
    (begins : PasteBegins display seatName sel p cl) (hmanager : s.zwlrManager = true)
    (hversion : sel = .primary → ¬ s.zwlrManagerVersion < 2) (hv : Valid OfferId [] es)
    (hears : Hears sel .initial cl.inBuf cl.script es a.handcrafted)
    (hs : s.script = (Offers.State.initial.processed sel es).map eventReply ++ a.libwayland)
    (ha : a.Possible (plan sel preferMime listOnly
      (Offers.State.initial.run (Offers.State.initial.processed sel es))).message) :
    let heard := Offers.State.initial.processed sel es
    let hand := HandcraftedBackend.paste display seatName sel preferMime listOnly p
    let lib := DataControlBackend.paste seat sel preferMime listOnly s
    ∃ (result : Option (Bool × PasteResult)) (asked : List (UInt32 × Text)),
      Returns hand.1 result ∧ Returns lib.1 result ∧
      hand.2.observe Action.offering = cl.observe Action.offering ++ heard.map eventDelivery ∧
      lib.2.observe Action.heard = s.observe Action.heard ++ heard.map wlEvent ∧
      hand.2.queued = cl.queued ++ encodes (asked.map fun x => (x.1, .receive x.2)) ∧
      lib.2.observe Action.asked = s.observe Action.asked ++ asked.map (fun x => (x.1.toNat, x.2)) ∧
      (∀ ok out, result = some (ok, out) → out.available = availableTypes sel heard) ∧
      (∀ x ∈ asked, .selection sel (some x.1) ∈ heard ∧
        x.2 = chooseMime (typesOf x.1 heard) preferMime) := by
  intro heard hand lib
  obtain ⟨hreturns, hoffering, hqueued⟩ := HandcraftedBackend.paste_ends begins hv hears ha
  obtain ⟨hreturns', hheard, hasked⟩ := DataControlBackend.paste_ends seat hmanager hversion hv hs
  have htypes : ∀ o, (Offers.State.initial.run heard).choice sel = some o →
      OfferId o.1 ∧ .selection sel (some o.1) ∈ heard ∧ o.2 = typesOf o.1 heard := fun o h =>
    choice_spec (hv.processed _) h
  refine ⟨_, _, hreturns, hreturns', hoffering, hheard, hqueued, hasked, ?_, ?_⟩
  · intro ok out hresult
    rw [plan_available hresult, availableTypes]
    rcases hchoice : (Offers.State.initial.run heard).choice sel with _ | o
    · rfl
    · have heq := (htypes o hchoice).2.2
      rw [Option.map_some, Option.map_some, ← heq]
  · intro x hx
    obtain ⟨types, hchoice, hmime⟩ := plan_asked hx
    obtain ⟨-, hnamed, heq⟩ := htypes _ hchoice
    exact ⟨hnamed, heq ▸ hmime⟩

/-- Two offers, of which the second becomes the regular selection. -/
def offering : List PasteEvent :=
  [.offered 0xff000000, .announced 0xff000000 (text "image/png"), .offered 0xff000001,
    .selection .primary (some 0xff000000), .announced 0xff000001 (text "text/plain"),
    .selection .regular (some 0xff000001)]

def piping : Answer :=
  .piped 7 8 [.sendmsg (.ok 1000)] [.read (.ok [0x68, 0x69]), .read (.ok [])]

def pasting : Process :=
  .fresh (Handcrafted.bootReplies 2 ++ .sendmsg (.ok 1000) ::
    ((State.initial.processed .regular offering).flatMap Handcrafted.eventReads ++
      piping.handcrafted))

def pastingClient : Client PasteState :=
  (Handcrafted.pasteSetup [] [] .regular (Client.new pasting .new)).2

theorem pastingClient_begins :
    HandcraftedBackend.PasteBegins [] [] .regular pasting pastingClient :=
  .of_setup rfl rfl (by decide +kernel) (by decide +kernel)

theorem pastes_agree_second :
    let s := State.synced ((State.initial.processed .regular offering).map
      DataControlBackend.eventReply ++ piping.libwayland)
    ∃ result,
      Returns (HandcraftedBackend.paste [] [] .regular [] false pasting).1 result ∧
      Returns (DataControlBackend.paste ⟨0, 1, 7, []⟩ .regular [] false s).1 result := by
  intro s
  have hears : Handcrafted.Hears .regular .initial pastingClient.inBuf pastingClient.script offering
      piping.handcrafted := by
    have hbuf : pastingClient.inBuf = [] := by decide +kernel
    have hscript : pastingClient.script = (State.initial.processed .regular offering).flatMap
        Handcrafted.eventReads ++ piping.handcrafted := by decide +kernel
    rw [hbuf, hscript]
    exact Handcrafted.hears_singly .regular .initial offering _ (by decide)
  have hs : s.script = (State.initial.processed .regular offering).map
      DataControlBackend.eventReply ++ piping.libwayland := by decide +kernel
  have hv : Valid OfferId [] offering := by simp [offering, Valid, OfferId]
  have hpossible : piping.Possible (plan .regular [] false
      (State.initial.run (State.initial.processed .regular offering))).message :=
    Connection.sends_once (by decide +kernel) (by decide +kernel)
  obtain ⟨result, _, h, h', _⟩ :=
    pastes_agree pastingClient_begins (by decide +kernel) nofun hv hears hs hpossible
  exact ⟨result, h, h'⟩

end WlClip
