import WlClip.CopyCommand
import WlClip.WriteEnds

/-!
# Reads that fail

`drain_fd` is left at the end of the file and at a read that fails, with the bytes read so far. A
copy publishes them as its whole input, and a paste returns them as the whole payload.
-/

open ScriptedProgram ScriptedProgram.Prog

namespace WlClip

/-! ## Drains -/

inductive DrainEnd
  | eof
  | failed (e : Errno)

/-- The replies to the reads of a drain, the bytes that they give, and how they end. -/
inductive DrainedBy : List Reply → List UInt8 → DrainEnd → Prop
  | eof : DrainedBy [.read (.ok [])] [] .eof
  | failed (e : Errno) (he : e ≠ .EINTR) : DrainedBy [.read (.error e)] [] (.failed e)
  | chunk {reads out e} (data : List UInt8) (hdata : data ≠ []) (h : DrainedBy reads out e) :
      DrainedBy (.read (.ok data) :: reads) (data ++ out) e
  | interrupted {reads out e} (h : DrainedBy reads out e) :
      DrainedBy (.read (.error .EINTR) :: reads) out e

namespace DrainedBy

variable {reads rest : List Reply} {out out' : List UInt8} {e e' : DrainEnd}

theorem unique (h : DrainedBy reads out e) (h' : DrainedBy reads out' e') :
    out = out' ∧ e = e' := by
  induction h generalizing out' with
  | eof =>
      cases h' with
      | eof => exact ⟨rfl, rfl⟩
      | chunk _ hdata _ => exact absurd rfl hdata
  | failed err he =>
      cases h' with
      | failed => exact ⟨rfl, rfl⟩
      | interrupted => exact absurd rfl he
  | chunk data hdata h ih =>
      cases h' with
      | eof => exact absurd rfl hdata
      | chunk _ _ h' =>
          obtain ⟨rfl, rfl⟩ := ih h'
          exact ⟨rfl, rfl⟩
  | interrupted h ih =>
      cases h' with
      | failed _ he => exact absurd rfl he
      | interrupted h' => exact ih h'

/-- Where the reads end with a failure the drain has the same bytes as at the end of the file. -/
theorem drained (h : DrainedBy reads out e) (buf : List UInt8) (rest : List Reply) :
    Process.drained buf (reads ++ rest) = some (buf ++ out) := by
  induction h generalizing buf with
  | eof => simp [Process.drained, Reply.read?, Process.drainNext]
  | failed err he => simp [Process.drained, Reply.read?, Process.drainNext, he]
  | chunk data hdata h ih =>
      simp [Process.drained, Reply.read?, Process.drainNext, hdata, ih]
  | interrupted h ih => simp [Process.drained, Reply.read?, Process.drainNext, ih]

theorem of_drained {replies : List Reply} {buf bytes : List UInt8}
    (h : Process.drained buf replies = some bytes) :
    ∃ reads rest out e, replies = reads ++ rest ∧ DrainedBy reads out e ∧ bytes = buf ++ out := by
  induction replies generalizing buf with
  | nil => cases h
  | cons r replies ih =>
      cases r with
      | read result =>
          rcases result with err | data
          · by_cases herr : err = .EINTR
            · subst herr
              obtain ⟨reads, rest, out, e, rfl, hby, rfl⟩ := ih h
              exact ⟨_ :: reads, rest, out, e, rfl, .interrupted hby, rfl⟩
            · obtain rfl : buf = bytes := by
                simpa [Process.drained, Reply.read?, Process.drainNext, herr] using h
              exact ⟨[_], replies, [], _, rfl, .failed err herr, (List.append_nil _).symm⟩
          · by_cases hdata : data = []
            · subst hdata
              obtain rfl := Option.some.inj h
              exact ⟨[_], replies, [], _, rfl, .eof, (List.append_nil _).symm⟩
            · have hnext : Process.drained (buf ++ data) replies = some bytes := by
                simpa [Process.drained, Reply.read?, Process.drainNext, hdata] using h
              obtain ⟨reads, rest, out, e, rfl, hby, rfl⟩ := ih hnext
              exact ⟨_ :: reads, rest, data ++ out, e, rfl, .chunk data hdata hby,
                List.append_assoc ..⟩
      | _ => cases h

def log (fd : Int) (reads : List Reply) : List Action := reads.map (.call (.read fd))

theorem drainLoop (h : DrainedBy reads out e) (fd : Int) (buf : List UInt8) {p : Process}
    (hs : p.script = reads ++ rest) :
    loop .stuck (fun _ p => p.size) (Process.drainRound fd) buf p =
      (.ok (buf ++ out), p.after (log fd reads) rest) := by
  induction h generalizing buf p with
  | eof =>
      rw [loop_return (Process.drainRound_shrinks fd) (Process.drainRound_read fd buf hs),
        List.append_nil]
      rfl
  | failed err he =>
      have hround := Process.drainRound_read fd buf hs
      rw [Process.drainNext, if_neg he] at hround
      rw [loop_return (Process.drainRound_shrinks fd) hround, List.append_nil]
      rfl
  | chunk data hdata h ih =>
      have hround := Process.drainRound_read fd buf hs
      rw [Process.drainNext, if_neg hdata] at hround
      rw [loop_next (Process.drainRound_shrinks fd) hround, ih (buf ++ data) rfl,
        Process.after_after, List.append_assoc]
      rfl
  | interrupted h ih =>
      have hround := Process.drainRound_read fd buf hs
      rw [Process.drainNext, if_pos rfl] at hround
      rw [loop_next (Process.drainRound_shrinks fd) hround, ih buf rfl, Process.after_after]
      rfl

theorem drainFd (h : DrainedBy reads out e) (fd : Int) {p : Process}
    (hs : p.script = reads ++ rest) :
    Process.drainFd fd p = (.ok out, p.after (log fd reads) rest) := h.drainLoop fd [] hs

/-- A drain returns exactly where its reads come to the end of the file or to a failure. -/
theorem drainFd_iff {fd : Int} {p p' : Process} : Process.drainFd fd p = (.ok out, p') ↔
    ∃ reads rest e, p.script = reads ++ rest ∧ DrainedBy reads out e ∧
      p' = p.after (log fd reads) rest := by
  constructor
  · intro hrun
    obtain ⟨got, left, hdrain, -⟩ := Process.drainFd_eq fd p
    rcases hbytes : Process.drained [] p.script with _ | bytes <;> rw [hbytes] at hdrain
    · cases hdrain.symm.trans hrun
    · obtain ⟨reads, rest, out', e, hs, h, rfl⟩ := of_drained hbytes
      have hsame := (h.drainFd fd hs).symm.trans hrun
      cases hsame
      exact ⟨reads, rest, e, hs, h, rfl⟩
  · rintro ⟨reads, rest, e, hs, h, rfl⟩
    exact h.drainFd fd hs

end DrainedBy

/-! ## The copy -/

/-- Makes what a copy has collected the selection. -/
inductive Action.Publishes : Action → Prop
  | request (primary : Bool) :
      Publishes (.request (if primary then .setPrimarySelection true else .setSelection true))
  | queue (device source : UInt32) (sel : Selection) (hsource : source ≠ 0) :
      Publishes (.queue ((Handcrafted.setSelection sel source).encode device))
  | owner (window : Window) (selection : Atom) (hwindow : window ≠ 0) :
      Publishes (.xRequest (.setSelectionOwner window selection))

namespace CopyCommand

variable {common : CommonOptions} {args : List Text} {kind kind' : BackendKind} {o : CopyOpts}
  {p p' : Process} {reads rest : List Reply} {out : List UInt8} {e : DrainEnd} {data : CopyData}

def payload (o : CopyOpts) (bytes : List UInt8) : List UInt8 :=
  if o.trimNewline ∧ bytes.getLast? = some 0x0A then bytes.dropLast else bytes

theorem collectData_drained (hcopy : o.clear = false) (hstdin : o.rest = [])
    (h : DrainedBy reads out e) (hs : p.script = reads ++ rest) :
    ∃ types, collectData o p =
        (.ok ⟨payload o out, types⟩, p.after (DrainedBy.log stdinFileno reads) rest) ∧
      (o.mimeTypes ≠ [] → types = o.mimeTypes) := by
  have hdrain := h.drainFd stdinFileno hs
  have hpayload : collectPayload o p =
      (.ok (payload o out), p.after (DrainedBy.log stdinFileno reads) rest) := by
    rw [collectPayload, if_neg (not_not.mpr hstdin), bind_ok hdrain]
    rfl
  simp only [collectData, hcopy, Bool.false_eq_true, if_false, bind_ok hpayload]
  by_cases htypes : o.mimeTypes = []
  · rw [if_pos htypes]
    exact ⟨_, rfl, fun hne => absurd htypes hne⟩
  · rw [if_neg htypes]
    exact ⟨_, rfl, fun _ => rfl⟩

theorem runCopy_collected (hparse : parse args .new = some o)
    (hkind : selectKind common o kind = some kind') (h : collectData o p = (.ok data, p')) :
    runCopy common args kind p = (if branch kind' = .x11 then runX11 common o data
      else runDetached common o kind' data) p' := by
  simp only [runCopy, hparse, hkind, bind_ok h]

/-- A copy that reads its input publishes only what it has read up to the end of the file. -/
def PublishesWhole (reads : List Reply) : Prop :=
  ∀ (common : CommonOptions) (args : List Text) (kind : BackendKind) (o : CopyOpts) (p : Process)
    (rest : List Reply), parse args .new = some o → o.clear = false → o.rest = [] →
    p.trace = [] → p.script = reads ++ rest →
    (∃ a ∈ (runCopy common args kind p).2.trace, a.Publishes) →
    ∃ bytes types, DrainedBy reads bytes .eof ∧
      (collectData o p).1 = .ok ⟨payload o bytes, types⟩

def connecting : List Reply :=
  [.displayConnect true, .displayRoundtrip [.global 1 kIfWlSeat 8, .global 2 kIfWlMgr 3] true,
    .displayRoundtrip [] true]

def plainArgs : List Text := [text "-f", text "-t", text "text/plain"]

def plainOpts : CopyOpts :=
  { CopyOpts.new with foreground := true, mimeTypes := [text "text/plain"] }

def coreOptions : CommonOptions := ⟨[], [], text "wl", false⟩

theorem runDetached_publishes (bytes : List UInt8) (script : List Reply) (log : List Action) :
    ∃ a ∈ (runDetached coreOptions plainOpts .dataDevice ⟨bytes, [text "text/plain"]⟩
      ((Process.fresh script).after log connecting)).2.trace, a.Publishes := by
  have hlast : ∃ before, (runDetached coreOptions plainOpts .dataDevice
      ⟨bytes, [text "text/plain"]⟩ ((Process.fresh script).after log connecting)).2.trace =
      before ++ [.request (.setSelection true)] := ⟨_, rfl⟩
  obtain ⟨before, htrace⟩ := hlast
  refine ⟨.request (.setSelection true), ?_, .request false⟩
  rw [htrace]
  exact List.mem_append_right _ (List.mem_singleton_self _)

theorem publishesWhole_iff (h : DrainedBy reads out e) : PublishesWhole reads ↔ e = .eof := by
  constructor
  · intro hwhole
    have hparse : parse plainArgs .new = some plainOpts := by decide
    let p := Process.fresh (reads ++ connecting)
    obtain ⟨types, hcollect, htypes⟩ :=
      collectData_drained (o := plainOpts) (p := p) rfl rfl h rfl
    obtain rfl := htypes (by decide)
    have hrun : runCopy coreOptions plainArgs .auto p = _ := runCopy_collected hparse rfl hcollect
    have hpublished : ∃ a ∈ (runCopy coreOptions plainArgs .auto p).2.trace, a.Publishes := by
      rw [hrun]
      exact runDetached_publishes out _ _
    obtain ⟨bytes, -, heof, -⟩ :=
      hwhole coreOptions plainArgs .auto plainOpts p connecting hparse rfl rfl rfl rfl hpublished
    exact (h.unique heof).2
  · rintro rfl common args kind o p rest hparse hcopy hstdin - hs -
    obtain ⟨types, hcollect, -⟩ := collectData_drained hcopy hstdin h hs
    exact ⟨out, types, h, congrArg Prod.fst hcollect⟩

end CopyCommand

/-! ## The pastes -/

namespace Libwayland

/-- The state of an operation that has asked for its device. -/
def watching {σ : Type} (seat : SeatInfo) (st : σ) (s : State) : Listening σ :=
  ⟨{ s with toProcess := s.after [.request (.getDataDevice seat.proxy)] s.script }, st⟩

theorem watching_eq {σ : Type} (seat : SeatInfo) (st : σ) (s : State) :
    Listening.request (.getDataDevice seat.proxy) ⟨s, st⟩ = (.ok (), watching seat st s) := rfl

/-- What is left to do for an offer that was found. -/
def taken {σ : Type} (offer : PendingOffer) (preferMime : Text) (offers : List PendingOffer) :
    Prog Halt (Listening σ) (Bool × PasteResult) :=
  if chooseMime offer.mimes preferMime = [] then do
    Listening.request .destroyDevice
    return (false, ⟨[], [], offer.mimes⟩)
  else fetch offer (chooseMime offer.mimes preferMime) offers

theorem fetch_returns {σ : Type} {l : Listening σ} {offer : PendingOffer} {mime : Text}
    {offers : List PendingOffer} {r w : Int} {reads rest : List Reply} {out : List UInt8}
    {e : DrainEnd} (h : DrainedBy reads out e)
    (hs : l.script = .pipe (.ok (r, w)) :: (reads ++ rest)) :
    (fetch offer mime offers l).1 = .ok (true, ⟨mime, out, offer.mimes⟩) := by
  let asked : Process := l.after [.call .pipe (.pipe (.ok (r, w))),
    .request (.receive offer.proxy mime w), .close w] (reads ++ rest)
  have hdrain := sys_eq (l := { l with toProcess := asked }) (h.drainFd r rfl)
  rw [fetch_reads hs, bind_ok hdrain, bind_ok (destroyOffers_eq _ _), bind_ok (request_eq _ _),
    bind_ok (close_eq r _)]
  rfl

end Libwayland

namespace DataControlBackend

open Libwayland

/-- A paste that has found the offer of the selection: `l` is its state then. -/
structure Finds (seat : SeatInfo) (sel : Selection) (s : State) (l : Listening PasteState)
    (offer : PendingOffer) : Prop where
  manager : s.zwlrManager = true
  version : ¬ (sel = .primary ∧ s.zwlrManagerVersion < 2)
  reached : awaitTarget sel (watching seat .new s) = (.ok true, l)
  known : ((target sel l.st).bind fun i => l.st.offers[i]?) = some offer

theorem Finds.takes {seat : SeatInfo} {sel : Selection} {preferMime : Text} {s : State}
    {l : Listening PasteState} {offer : PendingOffer} (h : Finds seat sel s l offer) :
    paste seat sel preferMime false s = ((taken offer preferMime l.st.offers l).1,
      (taken offer preferMime l.st.offers l).2.toState) := by
  have htake : take (target sel l.st) l.st.offers preferMime false l =
      taken offer preferMime l.st.offers l := by
    simp only [take, taken, h.known, Bool.false_eq_true, if_false]
  have hreceive : receive seat sel preferMime false ⟨s, .new⟩ =
      take (target sel l.st) l.st.offers preferMime false l := by
    rw [receive, bind_ok (watching_eq seat PasteState.new s), bind_ok h.reached]
    rfl
  simp only [paste, bind_apply, Prog.read_apply, id_eq, h.manager, h.version, Bool.not_true,
    Bool.false_eq_true, if_false, Listening.run, Prog.zoom_apply, hreceive, htake]

end DataControlBackend

namespace DataDeviceBackend

open Libwayland

structure Finds (seat : SeatInfo) (sel : Selection) (s : State) (l : Listening PasteState)
    (offer : PendingOffer) : Prop where
  manager : s.wlManager = true
  regular : sel ≠ .primary
  reached : awaitSelection (watching seat .new s) = (.ok true, l)
  known : (l.st.current.bind fun i => l.st.offers[i]?) = some offer

theorem Finds.takes {seat : SeatInfo} {sel : Selection} {preferMime : Text} {s : State}
    {l : Listening PasteState} {offer : PendingOffer} (h : Finds seat sel s l offer) :
    paste seat sel preferMime false s = ((taken offer preferMime l.st.offers l).1,
      (taken offer preferMime l.st.offers l).2.toState) := by
  have htake : take l.st.current l.st.offers preferMime false l =
      taken offer preferMime l.st.offers l := by
    simp only [take, taken, h.known, Bool.false_eq_true, if_false]
  have hreceive : receive seat preferMime false ⟨s, .new⟩ =
      take l.st.current l.st.offers preferMime false l := by
    rw [receive, bind_ok (watching_eq seat PasteState.new s), bind_ok h.reached]
    rfl
  simp only [paste, bind_apply, Prog.read_apply, id_eq, h.manager, h.regular, Bool.not_true,
    Bool.false_eq_true, if_false, Listening.run, Prog.zoom_apply, hreceive, htake]

end DataDeviceBackend

/-- The result of a paste from a Wayland selection that drains its pipe with these reads. -/
inductive PastesBy (reads : List Reply) : Except Halt (Bool × PasteResult) → Prop
  | handcrafted {display seat sel preferMime p cl o} {r w : Int} {sends rest : List Reply}
      (h : HandcraftedBackend.Asks display seat sel preferMime p cl o)
      (hsends : Connection.Sends ((Request.receive (chooseMime o.mimes preferMime)).encode
        (Handcrafted.target sel cl.st)).length sends)
      (hs : cl.script = .pipe (.ok (r, w)) :: (sends ++ (reads ++ rest))) :
      PastesBy reads (HandcraftedBackend.paste display seat sel preferMime false p).1
  | dataControl {seat sel preferMime s l offer} {r w : Int} {rest : List Reply}
      (h : DataControlBackend.Finds seat sel s l offer)
      (hmime : chooseMime offer.mimes preferMime ≠ [])
      (hs : l.script = .pipe (.ok (r, w)) :: (reads ++ rest)) :
      PastesBy reads (DataControlBackend.paste seat sel preferMime false s).1
  | dataDevice {seat sel preferMime s l offer} {r w : Int} {rest : List Reply}
      (h : DataDeviceBackend.Finds seat sel s l offer)
      (hmime : chooseMime offer.mimes preferMime ≠ [])
      (hs : l.script = .pipe (.ok (r, w)) :: (reads ++ rest)) :
      PastesBy reads (DataDeviceBackend.paste seat sel preferMime false s).1

section

variable {reads : List Reply} {out : List UInt8} {e : DrainEnd}
  {result : Except Halt (Bool × PasteResult)}

theorem PastesBy.returns (hpaste : PastesBy reads result) (h : DrainedBy reads out e) :
    ∃ mime available, result = .ok (true, ⟨mime, out, available⟩) := by
  cases hpaste with
  | @handcrafted _ _ _ _ _ _ _ _ _ _ rest hasks hsends hs =>
      obtain ⟨-, -, -, -, -, -, -, -, hrun, -⟩ := hasks.paste hsends hs
      rw [h.drained [] rest] at hrun
      exact ⟨_, _, hrun⟩
  | dataControl hfinds hmime hs =>
      rw [hfinds.takes, Libwayland.taken, if_neg hmime]
      exact ⟨_, _, Libwayland.fetch_returns h hs⟩
  | dataDevice hfinds hmime hs =>
      rw [hfinds.takes, Libwayland.taken, if_neg hmime]
      exact ⟨_, _, Libwayland.fetch_returns h hs⟩

/-- A paste returns `true` only with what it has read up to the end of the file. -/
def ReturnsWhole (reads : List Reply) (result : Except Halt (Bool × PasteResult)) : Prop :=
  ∀ out, result = .ok (true, out) → DrainedBy reads out.bytes .eof

theorem PastesBy.returnsWhole_iff (hpaste : PastesBy reads result) (h : DrainedBy reads out e) :
    ReturnsWhole reads result ↔ e = .eof := by
  obtain ⟨mime, available, hresult⟩ := hpaste.returns h
  constructor
  · intro hwhole
    exact (h.unique (hwhole _ hresult)).2
  · rintro rfl result' hresult'
    cases hresult.symm.trans hresult'
    exact h

/-- A copy and every paste pass on only what was read up to the end of the file, exactly if that is
how the reads end: a failed read passes for it in all of them. -/
theorem reads_whole_iff (h : DrainedBy reads out e) :
    (CopyCommand.PublishesWhole reads ↔ e = .eof) ∧
      ∀ result, PastesBy reads result → (ReturnsWhole reads result ↔ e = .eof) :=
  ⟨CopyCommand.publishesWhole_iff h, fun _ hpaste => hpaste.returnsWhole_iff h⟩

end

def wholeReads : List Reply :=
  [.read (.ok [0x68, 0x69]), .read (.error .EINTR), .read (.ok [])]

def tornReads : List Reply := [.read (.ok [0x68]), .read (.error (.other 5))]

def pastingBy (reads : List Reply) : Process :=
  HandcraftedBackend.requesting [.sendmsg (.ok 1000)] reads

def askingClient (reads : List Reply) : Client PasteState :=
  HandcraftedBackend.requestingClient [.sendmsg (.ok 1000)] reads

theorem reads_whole_interrupted : CopyCommand.PublishesWhole wholeReads ∧
    ReturnsWhole wholeReads
      (HandcraftedBackend.paste [] [] .regular [] false (pastingBy wholeReads)).1 := by
  have hreads : DrainedBy wholeReads [0x68, 0x69] .eof :=
    .chunk [0x68, 0x69] (by decide) (.interrupted .eof)
  have hasks : HandcraftedBackend.Asks [] [] .regular [] (pastingBy wholeReads)
      (askingClient wholeReads) HandcraftedBackend.plainOffer :=
    .of_requesting (by decide +kernel) (by decide +kernel) (by decide +kernel) (by decide +kernel)
  have hs : (askingClient wholeReads).script =
    .pipe (.ok (7, 8)) :: ([.sendmsg (.ok 1000)] ++ (wholeReads ++ [])) := by decide +kernel
  have hpaste : PastesBy wholeReads _ :=
    .handcrafted hasks (Connection.sends_once (by decide +kernel) (by decide +kernel)) hs
  exact ⟨(reads_whole_iff hreads).1.mpr rfl, ((reads_whole_iff hreads).2 _ hpaste).mpr rfl⟩

/-- A copy whose input is torn, and then asked for it. -/
def tornCopy : Process :=
  .fresh (tornReads ++ CopyCommand.connecting ++
    [.displayDispatch [.sourceSend (text "text/plain") 9] true, .write (.wrote 1)])

def plainEvents : List WlEvent :=
  [.dataOffer 4, .offerMime 4 (text "text/plain"), .selection (some 4)]

def tornControl : State :=
  .synced (.displayDispatch plainEvents true :: .pipe (.ok (7, 8)) :: tornReads)

def tornDevice : State :=
  .synced (.poll (.ok (.ready true)) :: .displayDispatch plainEvents true ::
    .pipe (.ok (7, 8)) :: tornReads)

def tornResult : Except Halt (Bool × PasteResult) :=
  .ok (true, ⟨text "text/plain", [0x68], [text "text/plain"]⟩)

theorem torn_drained : DrainedBy tornReads [0x68] (.failed (.other 5)) :=
  .chunk [0x68] (by decide) (.failed _ nofun)

theorem torn_not_whole (h : PastesBy tornReads tornResult) : ¬ ReturnsWhole tornReads tornResult :=
  fun hwhole => by cases (h.returnsWhole_iff torn_drained).mp hwhole

theorem tornControl_finds : ∃ l,
    DataControlBackend.Finds plainSeat .regular tornControl l ⟨4, [text "text/plain"]⟩ ∧
      l.script = .pipe (.ok (7, 8)) :: (tornReads ++ []) := by
  have hreached : (DataControlBackend.awaitTarget .regular
    (Libwayland.watching plainSeat .new tornControl)).1 = .ok true := by decide +kernel
  exact ⟨_, ⟨by decide +kernel, nofun, returned_fst hreached, by decide +kernel⟩,
    by decide +kernel⟩

theorem tornDevice_finds : ∃ l,
    DataDeviceBackend.Finds plainSeat .regular tornDevice l ⟨4, [text "text/plain"]⟩ ∧
      l.script = .pipe (.ok (7, 8)) :: (tornReads ++ []) := by
  have hreached : (DataDeviceBackend.awaitSelection
    (Libwayland.watching plainSeat .new tornDevice)).1 = .ok true := by decide +kernel
  exact ⟨_, ⟨by decide +kernel, nofun, returned_fst hreached, by decide +kernel⟩,
    by decide +kernel⟩

/-- After a read that fails a copy hands the first byte to a consumer as its payload, and each of
the pastes returns `true` with it. -/
theorem failed_reads_pass :
    ¬ CopyCommand.PublishesWhole tornReads ∧
    (∃ run, CopyCommand.runCopy CopyCommand.coreOptions CopyCommand.plainArgs .auto tornCopy = run ∧
      run.2.handed = [.begun 9 [0x68], .wrote 9 [0x68]]) ∧
    (∃ result, (HandcraftedBackend.paste [] [] .regular [] false (pastingBy tornReads)).1 = result ∧
      result = tornResult ∧ PastesBy tornReads result ∧ ¬ ReturnsWhole tornReads result) ∧
    (∃ result, (DataControlBackend.paste plainSeat .regular [] false tornControl).1 = result ∧
      result = tornResult ∧ PastesBy tornReads result ∧ ¬ ReturnsWhole tornReads result) ∧
    ∃ result, (DataDeviceBackend.paste plainSeat .regular [] false tornDevice).1 = result ∧
      result = tornResult ∧ PastesBy tornReads result ∧ ¬ ReturnsWhole tornReads result := by
  have hcopy : ¬ CopyCommand.PublishesWhole tornReads := fun hwhole => by
    cases (CopyCommand.publishesWhole_iff torn_drained).mp hwhole
  have hmime : chooseMime [text "text/plain"] [] ≠ [] := by decide
  refine ⟨hcopy, ⟨_, rfl, by decide +kernel⟩, ?_, ?_, ?_⟩
  · have hasks : HandcraftedBackend.Asks [] [] .regular [] (pastingBy tornReads)
        (askingClient tornReads) HandcraftedBackend.plainOffer :=
      .of_requesting (by decide +kernel) (by decide +kernel) (by decide +kernel) (by decide +kernel)
    have hs : (askingClient tornReads).script =
      .pipe (.ok (7, 8)) :: ([.sendmsg (.ok 1000)] ++ (tornReads ++ [])) := by decide +kernel
    have hpaste : PastesBy tornReads _ :=
      .handcrafted hasks (Connection.sends_once (by decide +kernel) (by decide +kernel)) hs
    have hresult : (HandcraftedBackend.paste [] [] .regular [] false (pastingBy tornReads)).1 =
      tornResult := by decide +kernel
    rw [hresult] at hpaste
    exact ⟨_, hresult, rfl, hpaste, torn_not_whole hpaste⟩
  · obtain ⟨l, hfinds, hs⟩ := tornControl_finds
    have hpaste : PastesBy tornReads _ := .dataControl hfinds hmime hs
    have hresult : (DataControlBackend.paste plainSeat .regular [] false tornControl).1 =
      tornResult := by decide +kernel
    rw [hresult] at hpaste
    exact ⟨_, hresult, rfl, hpaste, torn_not_whole hpaste⟩
  · obtain ⟨l, hfinds, hs⟩ := tornDevice_finds
    have hpaste : PastesBy tornReads _ := .dataDevice hfinds hmime hs
    have hresult : (DataDeviceBackend.paste plainSeat .regular [] false tornDevice).1 =
      tornResult := by decide +kernel
    rw [hresult] at hpaste
    exact ⟨_, hresult, rfl, hpaste, torn_not_whole hpaste⟩

end WlClip
