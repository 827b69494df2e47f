import WlClip.Oneshot

/-!
# What a copy counts as served

A copy counts the requests that it handles, not the consumers that get the payload: a request
whose descriptor is missing and a transfer that is dropped are counted too. The law that the count
is that of the whole deliveries, and what would follow for the verdict, hold in just the runs in
which every request handled comes with a descriptor and is served to the end.
-/

open ScriptedProgram ScriptedProgram.Prog Daemon

namespace WlClip

/-! ## Whole deliveries -/

def receivedNext : List Handed → List UInt8
  | .wrote _ bytes :: hs => bytes ++ receivedNext hs
  | _ => []

/-- The number of transfers whose consumer was given the entire payload. -/
def deliveries : List Handed → ℕ
  | [] => 0
  | .begun _ data :: hs => deliveries hs + if receivedNext hs = data then 1 else 0
  | .wrote _ _ :: hs => deliveries hs

/-- Nothing is written before a transfer begins. -/
def Delimited (hs : List Handed) : Prop := ∀ h ∈ hs.head?, ∃ fd data, h = .begun fd data

theorem Delimited.receivedNext {hs : List Handed} (h : Delimited hs) : receivedNext hs = [] := by
  cases hs with
  | nil => rfl
  | cons a hs =>
      obtain ⟨fd, data, rfl⟩ := h a rfl
      rfl

variable {data : List UInt8}

theorem Process.Transfer.deliveries {fd : Int} {out : List UInt8} {log : List Action}
    {e : TransferEnd} (h : Transfer fd data log out e) {hs : List Handed} (hhs : Delimited hs) :
    receivedNext (log.flatMap Action.handed ++ hs) = out ∧
      WlClip.deliveries (log.flatMap Action.handed ++ hs) = WlClip.deliveries hs := by
  induction h with
  | complete => exact ⟨hhs.receivedNext, rfl⟩
  | wrote n hdata hn h ih => exact ⟨congrArg (_ ++ ·) ih.1, ih.2⟩
  | interrupted hdata h ih => exact ih
  | waited pollin hdata h ih => exact ih
  | timedOut r hdata hr => exact ⟨hhs.receivedNext, rfl⟩
  | failed r hdata hr =>
      rcases hr with rfl | ⟨e, rfl, -, -⟩
      · exact ⟨hhs.receivedNext, rfl⟩
      · exact ⟨hhs.receivedNext, rfl⟩
  | broken hdata => exact ⟨hhs.receivedNext, rfl⟩

namespace Consumer

def complete (c : Consumer data) : Bool := c.ending = .complete

theorem handed_eq (c : Consumer data) :
    c.handed = .begun c.fd data :: c.log.flatMap Action.handed := by
  rw [handed, c.trace_flatMap fun _ => rfl]
  rfl

theorem deliveries_handed (c : Consumer data) {hs : List Handed} (hhs : Delimited hs) :
    deliveries (c.handed ++ hs) = deliveries hs + if c.complete then 1 else 0 := by
  obtain ⟨hreceived, hrest⟩ := c.finished.deliveries hhs
  have hwhole : c.out = data ↔ c.complete = true := by
    rw [complete, decide_eq_true_iff]
    exact c.finished.out_prefix.2.symm
  rw [handed_eq, List.cons_append, deliveries, hrest, hreceived]
  simp only [hwhole]

theorem delimited_handed (cs : List (Consumer data)) : Delimited (cs.flatMap handed) := by
  cases cs with
  | nil => exact fun _ h => nomatch h
  | cons c cs =>
      rw [List.flatMap_cons, handed_eq]
      rintro h ⟨⟩
      exact ⟨_, _, rfl⟩

theorem deliveries_flatMap (cs : List (Consumer data)) :
    deliveries (cs.flatMap handed) = cs.countP complete := by
  induction cs with
  | nil => rfl
  | cons c cs ih =>
      rw [List.flatMap_cons, c.deliveries_handed (delimited_handed cs), ih, List.countP_cons]

end Consumer

/-! ## The law -/

/-- The consumers that were given the entire payload are as many as were counted. A cancelled copy,
and a oneshot one, return `true` only after there was one. -/
structure Truthful (hs : List Handed) (served : ℕ) (cancelled oneshot ok : Bool) : Prop where
  counted : served = deliveries hs
  cancelled : cancelled = true → ok = true → 0 < deliveries hs
  once : oneshot = true → ok = true → 0 < deliveries hs

/-- The law, where `after` was handed over in all and `before` when the copy began. -/
def CountsDeliveries (before after : List Handed) (served : ℕ) (cancelled oneshot ok : Bool) :
    Prop :=
  ∃ hs, after = before ++ hs ∧ Truthful hs served cancelled oneshot ok

/-- A daemon that has served `n` consumers is truthful exactly if it has served all of them to the
end, and did not take a run for a success in which it needed a request and had none. -/
theorem truthful_iff {P : Policy} {s : Status} {n : ℕ} {hs : List Handed} {ok : Bool}
    (h : s.Accounts P n) (hok : ok = true → s.success = true) :
    Truthful hs s.served s.cancelled P.once ok ↔
      deliveries hs = n ∧ (P.once = true → ok = true → s.done = true) := by
  have hpos : s.cancelled = true → ok = true → 0 < n := by
    intro hc hsuccess
    have hserved := hok hsuccess
    rw [Status.success, hc, h.served] at hserved
    simpa using hserved
  constructor
  · intro hlaw
    have hall : deliveries hs = n := hlaw.counted.symm.trans h.served
    refine ⟨hall, fun honce hsuccess => ?_⟩
    by_contra hdone
    rw [Bool.not_eq_true] at hdone
    have hnone : n = 0 := (h.going hdone).2 honce
    have hsome := hlaw.once honce hsuccess
    omega
  · rintro ⟨rfl, hdone⟩
    refine ⟨h.served, hpos, fun honce hsuccess => ?_⟩
    rcases h.ended (hdone honce hsuccess) with hc | hsome
    · exact hpos hc hsuccess
    · exact hsome

/-! ## The handcrafted copy -/

/-- A request for the payload: from a consumer, or without the descriptor of one. -/
inductive Demand (data : List UInt8)
  | consumer (c : Consumer data)
  | bare (mime : Text) (fits : ([Arg.str mime].flatMap Arg.bytes).length + 8 < 65536)

namespace Demand

def fatal : Demand data → Bool
  | .consumer c => c.fatal
  | .bare _ _ => false

def complete : Demand data → Bool
  | .consumer c => c.complete
  | .bare _ _ => false

def consumer? : Demand data → Option (Consumer data)
  | .consumer c => some c
  | .bare _ _ => none

def ofEvent : Event (Consumer data) → Event (Demand data)
  | .request c => .request (.consumer c)
  | .cancel => .cancel

theorem countP_consumers (ds : List (Demand data)) :
    (ds.filterMap consumer?).countP Consumer.complete = ds.countP complete := by
  induction ds with
  | nil => rfl
  | cons d ds ih =>
      cases d with
      | consumer c =>
          change (c :: ds.filterMap consumer?).countP Consumer.complete = _
          rw [List.countP_cons, List.countP_cons, ih]
          rfl
      | bare mime fits =>
          change (ds.filterMap consumer?).countP Consumer.complete = _
          rw [List.countP_cons, ih]
          rfl

end Demand

namespace Handcrafted

/-- How requests of either kind and cancels come in. -/
inductive Comes : List UInt8 → List Int → List Reply → List (Event (Demand data)) →
    List Reply → Prop
  | wait {buf fds rest} (h : headMessage buf = none) : Comes buf fds rest [] rest
  | read {buf fds script es rest} (bytes : List UInt8) (new : List Int)
      (hnone : headMessage buf = none) (hbytes : bytes ≠ [])
      (h : Comes (buf ++ bytes) (fds ++ new) script es rest) :
      Comes buf fds (.poll (.ok (.ready true)) :: .recvmsg (.ok (bytes, new)) :: script) es rest
  | aside {buf fds script es rest} (m : Message) (hm : Aside m)
      (h : Comes buf fds script es rest) : Comes (m.bytes ++ buf) fds script es rest
  | consumer {buf fds script es rest} (c : Consumer data) (h : Comes buf fds script es rest) :
      Comes ((sourceMessage (.request c)).bytes ++ buf) (c.fd :: fds) (c.replies ++ script)
        (.request (.consumer c) :: es) rest
  | bare {buf script es rest} (mime : Text)
      (fits : ([Arg.str mime].flatMap Arg.bytes).length + 8 < 65536)
      (h : Comes buf [] script es rest) :
      Comes ((Message.ofArgs 7 Zdcs.kEvSend [.str mime] fits).bytes ++ buf) [] script
        (.request (.bare mime fits) :: es) rest
  | cancel {buf fds script es rest} (h : Comes buf fds script es rest) :
      Comes ((sourceMessage (.cancel : Event (Consumer data))).bytes ++ buf) fds script
        (.cancel :: es) rest

variable {once : Bool} {cl : Client CopyState} {buf : List UInt8} {fds : List Int}
  {script rest : List Reply} {es : List (Event (Demand data))}

theorem Arrives.comes {es : List (Event (Consumer data))} (h : Arrives buf fds script es rest) :
    Comes buf fds script (es.map Demand.ofEvent) rest := by
  induction h with
  | wait hnone => exact .wait hnone
  | read bytes new hnone hbytes _ ih => exact .read bytes new hnone hbytes ih
  | aside m hm _ ih => exact .aside m hm ih
  | request c _ ih => exact .consumer c ih
  | cancel _ ih => exact .cancel ih

theorem onSend_bare (hfds : cl.inFds = []) :
    onSend cl = (.ok (), { cl with st := countServed cl.st }) := by
  have hpop : Client.onConn Connection.popFd cl = (.ok (-1), cl) := by
    simp only [Client.onConn, Prog.zoom_apply, Connection.popFd, hfds]
  rw [onSend, bind_ok hpop]
  rfl

theorem serving_bare (mime : Text)
    (fits : ([Arg.str mime].flatMap Arg.bytes).length + 8 < 65536) (h : Attending once data cl)
    (hdone : cl.st.done = false)
    (hbuf : cl.inBuf = (Message.ofArgs 7 Zdcs.kEvSend [.str mime] fits).bytes ++ buf)
    (hfds : cl.inFds = []) :
    ∃ cl', GoesOn once data buf [] cl.script (cl.st.status.serve ⟨once, 1⟩) [] cl cl' := by
  let m : Message := .ofArgs 7 Zdcs.kEvSend [.str mime] fits
  have hsource : (cl.logged m).objects 7 = .source := (h.source 7).mpr rfl
  have hnone : (cl.logged m).inFds = [] := hfds
  have hhandle : copyDispatcher.handle 7 Zdcs.kEvSend (.new 7 Zdcs.kEvSend m.payload)
      (cl.logged m) = (.ok (), { cl.logged m with st := countServed cl.st }) :=
    (handleCopy_source hsource).trans (onSend_bare hnone)
  refine ⟨_, Client.dispatchUntil_handled ⟨h.flushed, hdone⟩ hbuf hhandle h.flushed,
    ⟨h.flushed, h.source, h.sigpipe, h.bytes, h.oneshot⟩, Client.consumed_bytes hbuf, hfds, rfl, ?_,
    (Client.logged_handed m cl).trans (List.append_nil _).symm⟩
  rw [← h.oneshot]
  exact status_serve cl.st

def given (r : List (Demand data) × Daemon.Outcome) : List (Consumer data) × Daemon.Outcome :=
  (r.1.filterMap Demand.consumer?, r.2)

theorem ran_done (hdone : cl.st.done = true) (bs : List (List (Event (Demand data)))) :
    Ran once data rest cl (given (run ⟨once, 1⟩ Demand.fatal cl.st.status bs)) := by
  rw [run_done hdone]
  exact ⟨cl, Client.dispatchUntil_stop hdone, rfl, by simp⟩

/-- However its requests come in, with or without descriptors, the loop of the handcrafted copy is
the daemon that ignores one cancel. -/
theorem serving_demands (hcome : Comes buf fds script es rest) (h : Attending once data cl)
    (hbuf : cl.inBuf = buf) (hfds : cl.inFds = fds) (hs : cl.script = script) :
    Ran once data rest cl (given (run ⟨once, 1⟩ Demand.fatal cl.st.status (singly es))) := by
  induction hcome generalizing cl with
  | wait hnone =>
      by_cases hdone : cl.st.done = true
      · exact ran_done hdone _
      · rw [Bool.not_eq_true] at hdone
        have hrun : run ⟨once, 1⟩ Demand.fatal cl.st.status (singly []) =
            (([], .waiting cl.st.status) : List (Demand data) × Daemon.Outcome) := by
          simp [singly, run, CopyState.status, hdone]
        rw [hrun]
        exact ⟨cl, rfl, h, hbuf ▸ hnone, hs, rfl, hdone, by simp⟩
  | read bytes new hnone hbytes _ ih =>
      by_cases hdone : cl.st.done = true
      · exact ran_done hdone _
      · rw [Bool.not_eq_true] at hdone
        obtain ⟨cl', hstep⟩ := serving_read h hdone (hbuf ▸ hnone) hbytes hs
        have htail := ih hstep.attending (hbuf ▸ hstep.inBuf) (hfds ▸ hstep.inFds) hstep.script
        rw [hstep.status] at htail
        exact hstep.ran htail
  | aside m hm _ ih =>
      by_cases hdone : cl.st.done = true
      · exact ran_done hdone _
      · rw [Bool.not_eq_true] at hdone
        obtain ⟨cl', hstep⟩ := serving_aside hm h hdone hbuf
        have htail :=
          ih hstep.attending hstep.inBuf (hstep.inFds.trans hfds) (hstep.script.trans hs)
        rw [hstep.status] at htail
        exact hstep.ran htail
  | consumer c _ ih =>
      by_cases hdone : cl.st.done = true
      · exact ran_done hdone _
      · rw [Bool.not_eq_true] at hdone
        rw [run_request hdone]
        by_cases hc : c.fatal = true
        · have hfatal : (Demand.consumer c).fatal = true := hc
          rw [if_pos hfatal]
          obtain ⟨cl', hkilled, hhanded⟩ := serving_fatal c hc h hdone hbuf hfds hs
          exact ⟨cl', hkilled, by rw [hhanded]; simp [Demand.consumer?]⟩
        · have hfatal : ¬ (Demand.consumer c).fatal = true := hc
          rw [if_neg hfatal]
          obtain ⟨cl', hstep⟩ := serving_request c hc h hdone hbuf hfds hs
          have htail := ih hstep.attending hstep.inBuf hstep.inFds hstep.script
          rw [hstep.status] at htail
          exact hstep.ran htail
  | bare mime fits _ ih =>
      by_cases hdone : cl.st.done = true
      · exact ran_done hdone _
      · rw [Bool.not_eq_true] at hdone
        have hfatal : ¬ (Demand.bare mime fits : Demand data).fatal = true :=
          Bool.false_ne_true
        rw [run_request hdone, if_neg hfatal]
        obtain ⟨cl', hstep⟩ := serving_bare mime fits h hdone hbuf hfds
        have htail := ih hstep.attending hstep.inBuf hstep.inFds (hstep.script.trans hs)
        rw [hstep.status] at htail
        exact hstep.ran htail
  | cancel _ ih =>
      by_cases hdone : cl.st.done = true
      · exact ran_done hdone _
      · rw [Bool.not_eq_true] at hdone
        rw [run_cancel hdone]
        obtain ⟨cl', hstep⟩ := serving_cancel h hdone hbuf
        have htail :=
          ih hstep.attending hstep.inBuf (hstep.inFds.trans hfds) (hstep.script.trans hs)
        rw [hstep.status] at htail
        exact hstep.ran htail

inductive Over : List Reply → Prop
  | waiting : Over []
  | lost {l : List Reply} (hl : Lost l) (rest : List Reply) : Over (l ++ rest)

theorem Ran.returned {cs : List (Consumer data)} {o : Daemon.Outcome} {ok : Bool}
    {cl' : Client CopyState} (h : Ran once data rest cl (cs, o)) (hover : Over rest)
    (hret : copyServe cl = (.ok ok, cl')) :
    cl'.handed = cl.handed ++ cs.flatMap Consumer.handed ∧
      ((o = .ended cl'.st.status ∧ ok = cl'.st.status.success) ∨
        (o = .waiting cl'.st.status ∧ ok = false)) := by
  obtain ⟨loopOk, cl'', hloop, hfinish⟩ := bind_eq_ok hret
  obtain ⟨rfl, rfl⟩ : cl'' = cl' ∧ (loopOk && (!cl''.st.cancelled || cl''.st.served > 0)) = ok := by
    have hpair := Prod.mk.inj hfinish
    exact ⟨hpair.2, Except.ok.inj hpair.1⟩
  cases o with
  | killed =>
      obtain ⟨cl₁, hrun, -⟩ := h
      cases hrun.symm.trans hloop
  | ended s =>
      obtain ⟨cl₁, hrun, rfl, hhanded⟩ := h
      obtain ⟨hok, rfl⟩ := Prod.mk.inj (hrun.symm.trans hloop)
      obtain rfl : true = loopOk := Except.ok.inj hok
      exact ⟨hhanded, .inl ⟨rfl, rfl⟩⟩
  | waiting s =>
      obtain ⟨cl₁, hrun, hat, hnone, hscript, rfl, hdone, hhanded⟩ := h
      have hlast : serving cl₁ = (.ok loopOk, cl'') := hrun.symm.trans hloop
      cases hover with
      | waiting =>
          have hwait := Client.dispatchUntil_wait CopyState.done copyDispatcher
            ⟨hat.flushed, hdone⟩ hnone fun r rest hs => nomatch hscript.symm.trans hs
          cases hwait.symm.trans hlast
      | lost hl rest =>
          obtain ⟨log, hlost, hlog⟩ := Client.dispatchUntil_lost CopyState.done copyDispatcher
            ⟨hat.flushed, hdone⟩ hnone hl hscript
          have hnil : log.flatMap Action.handed = [] :=
            hlog.flatMap (fun _ _ _ => rfl) fun _ _ => rfl
          obtain ⟨hok, rfl⟩ := Prod.mk.inj (hlost.symm.trans hlast)
          obtain rfl : false = loopOk := Except.ok.inj hok
          refine ⟨?_, .inr ⟨rfl, rfl⟩⟩
          rw [← hhanded]
          simp [Client.advanced, Process.handed, hnil]

end Handcrafted

theorem initial_accounts (P : Policy) : Status.initial.Accounts P 0 :=
  ⟨rfl, nofun, fun _ => ⟨rfl, fun _ => rfl⟩⟩

namespace HandcraftedBackend

open Handcrafted

theorem Begins.truthful_iff {display seat : Text} {sel : Selection} {data : CopyData}
    {oneshot ok : Bool} {p : Process} {cl cl' : Client CopyState} {rest : List Reply}
    {es : List (Event (Demand data.bytes))} (h : Begins display seat sel data oneshot p cl)
    (hcome : Comes cl.inBuf cl.inFds cl.script es rest) (hover : Over rest)
    (hret : copyClient display seat sel (Client.new p (CopyState.new data oneshot)) =
      (.ok ok, cl')) :
    CountsDeliveries cl.handed cl'.handed cl'.st.served cl'.st.cancelled oneshot ok ↔
      ∀ d ∈ (run ⟨oneshot, 1⟩ Demand.fatal .initial (singly es)).1, d.complete = true := by
  obtain ⟨hat, hstatus⟩ := h.attending
  have hserve : copyServe cl = (.ok ok, cl') := (bind_ok h.setup).symm.trans hret
  have hran := serving_demands hcome hat rfl rfl rfl
  have haccounts : (run ⟨oneshot, 1⟩ Demand.fatal .initial (singly es)).2.Accounts ⟨oneshot, 1⟩
      (0 + (run ⟨oneshot, 1⟩ Demand.fatal .initial (singly es)).1.length) :=
    run_accounts (initial_accounts ⟨oneshot, 1⟩)
  rw [hstatus] at hran
  rcases hrun : run ⟨oneshot, 1⟩ Demand.fatal .initial (singly es) with ⟨ds, o⟩
  rw [hrun] at hran haccounts
  obtain ⟨hhanded, hend⟩ := hran.returned hover hserve
  have hcount : deliveries ((ds.filterMap Demand.consumer?).flatMap Consumer.handed) =
      ds.countP Demand.complete := by
    rw [Consumer.deliveries_flatMap, Demand.countP_consumers]
  have hlaw : Truthful ((ds.filterMap Demand.consumer?).flatMap Consumer.handed)
      cl'.st.served cl'.st.cancelled oneshot ok ↔ ds.countP Demand.complete = ds.length := by
    rw [Nat.zero_add] at haccounts
    rcases hend with ⟨rfl, rfl⟩ | ⟨rfl, rfl⟩
    · refine (WlClip.truthful_iff haccounts.1 id).trans ?_
      rw [hcount]
      exact and_iff_left fun _ _ => haccounts.2
    · have hfailed : false = true → cl'.st.status.success = true := nofun
      refine (WlClip.truthful_iff haccounts.1 hfailed).trans ?_
      rw [hcount]
      exact and_iff_left fun _ => nofun
  rw [CountsDeliveries, hhanded, ← List.countP_eq_length, ← hlaw]
  constructor
  · rintro ⟨hs, heq, htruth⟩
    rwa [List.append_cancel_left heq]
  · exact fun htruth => ⟨_, rfl, htruth⟩

end HandcraftedBackend

/-! ## The copies through libwayland -/

namespace Libwayland

variable {once ok : Bool} {l l' : Listening CopyState} {rest : List Reply}

def offering (seat : SeatInfo) (setSelection : WlRequest) :
    Prog Halt (Listening CopyState) Bool := do
  announce seat setSelection
  serveAndFinish

theorem Ran.returned {cs : List (Consumer data)} {o : Daemon.Outcome}
    (h : Ran once data rest l (cs, o)) (hover : Over rest)
    (hret : serveAndFinish l = (.ok ok, l')) :
    l'.handed = l.handed ++ cs.flatMap Consumer.handed ∧
      ∃ s, Matches s l'.st ∧ ok = s.success ∧ (o = .ended s ∨ o = .waiting s) := by
  obtain ⟨⟨⟩, l₁, hserve, hfinish⟩ := bind_eq_ok hret
  have hself : l₁.st = l₁.st ∧ Noted l₁.toProcess l₁.toProcess := ⟨rfl, rfl, rfl, rfl⟩
  have hkept := finish_kept l₁ hself
  rw [hfinish] at hkept
  obtain ⟨⟨hst, hnoted⟩, hok⟩ := hkept
  have hgive : ∀ s, Matches s l₁.st → l₁.handed = l.handed ++ cs.flatMap Consumer.handed →
      (o = .ended s ∨ o = .waiting s) → l'.handed = l.handed ++ cs.flatMap Consumer.handed ∧
        ∃ s, Matches s l'.st ∧ ok = s.success ∧ (o = .ended s ∨ o = .waiting s) := by
    intro s hm hhanded ho
    refine ⟨hnoted.handed.trans hhanded, s, by rwa [hst], ?_, ho⟩
    rw [hok, Status.success, hm.cancelled, hm.served]
  cases o with
  | killed =>
      obtain ⟨l₂, hrun, -⟩ := h
      cases hrun.symm.trans hserve
  | ended s =>
      obtain ⟨l₂, hrun, hm, hhanded⟩ := h
      obtain ⟨-, rfl⟩ := Prod.mk.inj (hrun.symm.trans hserve)
      exact hgive s hm hhanded (.inl rfl)
  | waiting s =>
      obtain ⟨l₂, hrun, -, hscript, hm, hdone, hhanded⟩ := h
      have hlast : serve l₂ = (.ok (), l₁) := hrun.symm.trans hserve
      have hgoing : l₂.st.done = false := hm.done.trans hdone
      cases hover with
      | waiting => cases (serve_wait hgoing hscript).symm.trans hlast
      | lost rest =>
          obtain ⟨l₃, hlost, hsame, hlog⟩ := serve_lost hgoing hscript
          obtain ⟨-, rfl⟩ := Prod.mk.inj (hlost.symm.trans hlast)
          exact hgive s (by rwa [hsame]) (hlog.trans hhanded) (.inr rfl)

theorem offering_truthful_iff {s : State} {seat : SeatInfo} {setSelection : WlRequest}
    {data : CopyData} {oneshot : Bool} {bs : List (List (Heard data.bytes))}
    (hsig : s.sigpipe = .default) (hs : s.script = bs.flatMap batchReplies ++ rest)
    (hover : Over rest)
    (hret : offering seat setSelection ⟨s, CopyState.new data oneshot⟩ = (.ok ok, l)) :
    CountsDeliveries s.handed l.handed l.st.served l.st.cancelled oneshot ok ↔
      (∀ c ∈ (run ⟨oneshot, 0⟩ Consumer.fatal .initial (bs.map sourceEvents)).1,
        c.complete = true) ∧ (oneshot = true → ∃ b ∈ bs, sourceEvents b ≠ []) := by
  obtain ⟨⟨⟩, l₁, ha, hserve⟩ := bind_eq_ok hret
  let l₀ : Listening CopyState := ⟨s, CopyState.new data oneshot⟩
  have hself : l₀.st = CopyState.new data oneshot ∧ Noted s.toProcess l₀.toProcess :=
    ⟨rfl, rfl, rfl, rfl⟩
  have hannounce := announce_kept seat setSelection l₀ hself
  rw [ha] at hannounce
  obtain ⟨hst, hnoted⟩ := hannounce
  have hat : Attending oneshot data.bytes l₁ :=
    ⟨hnoted.sigpipe.trans hsig, by rw [hst]; rfl, by rw [hst]; rfl⟩
  have hran := serve_run bs hat (s := .initial) (by rw [hst]; exact ⟨rfl, rfl, rfl⟩)
    (hnoted.script.trans hs)
  have haccounts : (run ⟨oneshot, 0⟩ Consumer.fatal .initial (bs.map sourceEvents)).2.Accounts
      ⟨oneshot, 0⟩
      (0 + (run ⟨oneshot, 0⟩ Consumer.fatal .initial (bs.map sourceEvents)).1.length) :=
    run_accounts (initial_accounts ⟨oneshot, 0⟩)
  have hheard : oneshot = true → ((∃ cs st, run ⟨oneshot, 0⟩ Consumer.fatal .initial
      (bs.map sourceEvents) = (cs, .waiting st)) ↔ ¬ ∃ b ∈ bs, sourceEvents b ≠ []) := by
    intro honce
    rw [run_waits_iff honce rfl rfl, List.forall_mem_map]
    simp
  rcases hrun : run ⟨oneshot, 0⟩ Consumer.fatal .initial (bs.map sourceEvents) with ⟨cs, o⟩
  rw [hrun] at hran haccounts hheard
  obtain ⟨hhanded, st, hm, rfl, ho⟩ := hran.returned hover hserve
  rw [Nat.zero_add] at haccounts
  have hlaw : Truthful (cs.flatMap Consumer.handed) l.st.served l.st.cancelled oneshot st.success ↔
      cs.countP Consumer.complete = cs.length ∧
        (oneshot = true → ∃ b ∈ bs, sourceEvents b ≠ []) := by
    rw [hm.served, hm.cancelled, ← Consumer.deliveries_flatMap]
    rcases ho with rfl | rfl
    · refine (WlClip.truthful_iff haccounts.1 id).trans (and_congr_right fun _ => ?_)
      refine iff_of_true (fun _ _ => haccounts.2) fun honce => ?_
      by_contra hnone
      obtain ⟨cs', st', heq⟩ := (hheard honce).mpr hnone
      cases heq
    · refine (WlClip.truthful_iff haccounts.1 id).trans (and_congr_right fun _ => ?_)
      have hsuccess : st.success = true := by
        simp [Status.success, (haccounts.1.going haccounts.2).1]
      constructor
      · intro hdone honce
        cases haccounts.2.symm.trans (hdone honce hsuccess)
      · intro hsome honce
        exact absurd (hsome honce) ((hheard honce).mp ⟨cs, st, rfl⟩)
  have hbefore : l₁.handed = s.handed := hnoted.handed
  rw [CountsDeliveries, hhanded, hbefore, ← List.countP_eq_length, ← hlaw]
  constructor
  · rintro ⟨hs, heq, htruth⟩
    rwa [List.append_cancel_left heq]
  · exact fun htruth => ⟨_, rfl, htruth⟩

end Libwayland

/-! ## Every copy -/

/-- When a copy that returns has counted whole deliveries, with all that follows for its verdict:
the handcrafted one if every request that it handled came with a descriptor and was served to the
end, one through libwayland if every request was served to the end and, where one request is enough,
an event of the source came before the connection was lost. -/
theorem copies_truthful_iff (data : CopyData) (oneshot : Bool) :
    (∀ display seat sel p cl cl' (es : List (Event (Demand data.bytes))) rest ok,
      HandcraftedBackend.Begins display seat sel data oneshot p cl →
      Handcrafted.Comes cl.inBuf cl.inFds cl.script es rest → Handcrafted.Over rest →
      Handcrafted.copyClient display seat sel (Client.new p (CopyState.new data oneshot)) =
        (.ok ok, cl') →
      (HandcraftedBackend.copy display seat sel data oneshot p).1 = .ok ok ∧
        (CountsDeliveries cl.handed cl'.handed cl'.st.served cl'.st.cancelled oneshot ok ↔
          ∀ d ∈ (run ⟨oneshot, 1⟩ Demand.fatal .initial (singly es)).1, d.complete = true)) ∧
    (∀ seat sel s l (bs : List (List (Libwayland.Heard data.bytes))) rest ok,
      DataControlBackend.Begins sel data s →
      s.script = bs.flatMap Libwayland.batchReplies ++ rest → Libwayland.Over rest →
      Libwayland.offering seat (DataControlBackend.setSelection sel)
        ⟨s, Libwayland.CopyState.new data oneshot⟩ = (.ok ok, l) →
      (DataControlBackend.copy seat sel data oneshot s).1 = .ok ok ∧
        (CountsDeliveries s.handed l.handed l.st.served l.st.cancelled oneshot ok ↔
          (∀ c ∈ (run ⟨oneshot, 0⟩ Consumer.fatal .initial (bs.map Libwayland.sourceEvents)).1,
            c.complete = true) ∧
          (oneshot = true → ∃ b ∈ bs, Libwayland.sourceEvents b ≠ []))) ∧
    (∀ seat sel s l (bs : List (List (Libwayland.Heard data.bytes))) rest ok,
      DataDeviceBackend.Begins sel s →
      s.script = bs.flatMap Libwayland.batchReplies ++ rest → Libwayland.Over rest →
      Libwayland.offering seat (.setSelection true) ⟨s, Libwayland.CopyState.new data oneshot⟩ =
        (.ok ok, l) →
      (DataDeviceBackend.copy seat sel data oneshot s).1 = .ok ok ∧
        (CountsDeliveries s.handed l.handed l.st.served l.st.cancelled oneshot ok ↔
          (∀ c ∈ (run ⟨oneshot, 0⟩ Consumer.fatal .initial (bs.map Libwayland.sourceEvents)).1,
            c.complete = true) ∧
          (oneshot = true → ∃ b ∈ bs, Libwayland.sourceEvents b ≠ []))) := by
  have hoffer : ∀ {seat : SeatInfo} {r : WlRequest} {s : State} {ok : Bool}
      {l : Listening Libwayland.CopyState},
      Libwayland.offering seat r ⟨s, Libwayland.CopyState.new data oneshot⟩ = (.ok ok, l) →
      (Libwayland.offer seat r data oneshot s).1 = .ok ok := by
    intro seat r s ok l hret
    have hret' : (Libwayland.announce seat r >>= fun _ => Libwayland.serveAndFinish)
        ⟨s, Libwayland.CopyState.new data oneshot⟩ = (.ok ok, l) := hret
    rw [Libwayland.offer, Listening.run, Prog.zoom_apply, hret']
  refine ⟨?_, ?_, ?_⟩
  · intro display seat sel p cl cl' es rest ok h hcome hover hret
    refine ⟨?_, h.truthful_iff hcome hover hret⟩
    rw [HandcraftedBackend.copy, Client.run, hret]
  · intro seat sel s l bs rest ok h hs hover hret
    refine ⟨?_, Libwayland.offering_truthful_iff h.sigpipe hs hover hret⟩
    rw [h.copy seat oneshot]
    exact hoffer hret
  · intro seat sel s l bs rest ok h hs hover hret
    refine ⟨?_, Libwayland.offering_truthful_iff h.sigpipe hs hover hret⟩
    rw [h.copy seat data oneshot]
    exact hoffer hret

/-- A consumer that does not read, so that the write is given up after five seconds. -/
def staller : Consumer plainText.bytes where
  mime := text "text/plain"
  fits := plain_fits
  fd := 5
  valid := five_valid
  log := [.call (.write 5 plainText.bytes) (.write (.failed .EAGAIN)),
    .call (.poll 5 5000) (.poll (.ok .timeout))]
  out := []
  ending := .dropped
  finished := .timedOut (.ok .timeout) plainText_ne_nil Process.timeout_not_ready

theorem returned_fst {σ : Type} {r : Except Halt Bool × σ} {ok : Bool} (h : r.1 = .ok ok) :
    r = (.ok ok, r.2) := by rw [← h]

/-- Two consumers take everything, one of them in parts, before the copy is cancelled. -/
theorem copies_truthful_twice :
    (let es : List (Event (Consumer plainText.bytes)) :=
       [.request sipper, .request taker, .cancel, .cancel]
     ∃ cl', Handcrafted.copyClient [] [] .regular
           (Client.new (Handcrafted.copying es []) (CopyState.new plainText false)) =
         (.ok true, cl') ∧
       CountsDeliveries (HandcraftedBackend.plainClient false es []).handed cl'.handed
         cl'.st.served cl'.st.cancelled false true) ∧
    (let bs : List (List (Libwayland.Heard plainText.bytes)) :=
      [[.source (.request sipper)], [.source (.request taker)], [.source .cancel]]
     let s := State.synced (bs.flatMap Libwayland.batchReplies)
     let l := (Libwayland.offering plainSeat (.setSelection true)
       ⟨s, Libwayland.CopyState.new plainText false⟩).2
     CountsDeliveries s.handed l.handed l.st.served l.st.cancelled false true ∧
       (DataControlBackend.copy plainSeat .regular plainText false s).1 = .ok true ∧
       (DataDeviceBackend.copy plainSeat .regular plainText false s).1 = .ok true) := by
  have h := copies_truthful_iff plainText false
  refine ⟨?_, ?_⟩
  · intro es
    have hbegins : HandcraftedBackend.Begins [] [] .regular plainText false
        (Handcrafted.copying es []) (HandcraftedBackend.plainClient false es []) :=
      .of_setup rfl rfl rfl (by decide +kernel) (by decide +kernel)
    have harr : Handcrafted.Arrives _ _ _ es [] :=
      HandcraftedBackend.plainClient_arrives false es [] (by decide +kernel) (by decide +kernel)
        (by decide +kernel)
    have hok : (Handcrafted.copyClient [] [] .regular (Client.new (Handcrafted.copying es [])
        (CopyState.new plainText false))).1 = .ok true := by decide +kernel
    have hret := returned_fst hok
    exact ⟨_, hret, (h.1 [] [] .regular _ _ _ _ [] true hbegins harr.comes .waiting hret).2.mpr
      (by decide +kernel)⟩
  · intro bs s l
    have hret : Libwayland.offering plainSeat (.setSelection true)
        ⟨s, Libwayland.CopyState.new plainText false⟩ = (.ok true, l) :=
      Prod.ext (by decide +kernel) rfl
    have hzwlr := h.2.1 plainSeat .regular s l bs [] true
      ⟨by decide +kernel, by decide, by decide, by decide +kernel⟩ (List.append_nil _).symm .waiting
      hret
    have hwl := h.2.2 plainSeat .regular s l bs [] true
      ⟨by decide +kernel, by decide, by decide +kernel⟩ (List.append_nil _).symm .waiting hret
    exact ⟨hzwlr.2.mpr ⟨by decide +kernel, nofun⟩, hzwlr.1, hwl.1⟩

/-- A oneshot copy succeeds on a request without a descriptor, and a cancelled one after a transfer
that timed out. Nothing was delivered, and one consumer counted as served. -/
theorem copies_overcount :
    (let p : Process := .fresh (Handcrafted.bootReplies 2 ++ [.sendmsg (.ok 1000),
       .poll (.ok (.ready true)),
       .recvmsg (.ok (Handcrafted.event 7 Zdcs.kEvSend [.str (text "text/plain")], []))])
     let setup := Handcrafted.copySetup [] [] .regular
       (Client.new p (CopyState.new plainText true))
     let r := Handcrafted.copyClient [] [] .regular (Client.new p (CopyState.new plainText true))
     setup.1 = .ok true ∧ r.1 = .ok true ∧ r.2.st.served = 1 ∧ r.2.handed = [] ∧
       ¬ CountsDeliveries setup.2.handed r.2.handed r.2.st.served r.2.st.cancelled true true) ∧
    (let bs : List (List (Libwayland.Heard plainText.bytes)) :=
      [[.source (.request staller)], [.source .cancel]]
     let s := State.synced (bs.flatMap Libwayland.batchReplies)
     let r := Libwayland.offering plainSeat (.setSelection true)
       ⟨s, Libwayland.CopyState.new plainText false⟩
     DataControlBackend.Begins .regular plainText s ∧ r.1 = .ok true ∧ r.2.st.cancelled = true ∧
       r.2.st.served = 1 ∧ r.2.handed = [.begun 5 plainText.bytes] ∧
       ¬ CountsDeliveries s.handed r.2.handed r.2.st.served r.2.st.cancelled false true) := by
  refine ⟨?_, ?_⟩
  · intro p setup r
    have hserved : r.2.st.served = 1 := by decide +kernel
    have hhanded : r.2.handed = [] := by decide +kernel
    refine ⟨by decide +kernel, by decide +kernel, hserved, hhanded, ?_⟩
    rintro ⟨hs, heq, htruth⟩
    rw [hhanded] at heq
    obtain rfl : hs = [] := (List.append_eq_nil_iff.mp heq.symm).2
    cases hserved.symm.trans htruth.counted
  · intro bs s r
    have hserved : r.2.st.served = 1 := by decide +kernel
    have hhanded : r.2.handed = [.begun 5 plainText.bytes] := by decide +kernel
    have hbefore : s.handed = [] := by decide +kernel
    refine ⟨⟨by decide +kernel, by decide, by decide, by decide +kernel⟩, by decide +kernel,
      by decide +kernel, hserved, hhanded, ?_⟩
    rintro ⟨hs, heq, htruth⟩
    rw [hhanded, hbefore] at heq
    obtain rfl : [.begun 5 plainText.bytes] = hs := heq
    cases hserved.symm.trans htruth.counted

end WlClip
