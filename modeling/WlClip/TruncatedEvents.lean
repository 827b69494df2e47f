import WlClip.MalformedHeaders
import WlClip.Seats

/-!
# Truncated events

An event whose payload ends before its arguments do is dispatched with zeros and empty strings in
place of those that are missing. Which of these events leave the client as it was.
-/

open ScriptedProgram ScriptedProgram.Prog LittleEndian

namespace WlClip

/-! ## The arguments of events -/

/-- What an argument takes up in a payload; a descriptor takes up nothing. -/
inductive Field
  | word
  | string
  deriving DecidableEq

def eventFields : ObjKind → UInt16 → List Field
  | .display, 0 => [.word, .word, .string]
  | .display, 1 => [.word]
  | .registry, 0 => [.word, .string, .word]
  | .registry, 1 => [.word]
  | .callback, 0 => [.word]
  | .seat, 0 => [.word]
  | .seat, 1 => [.string]
  | .device, 0 => [.word]
  | .device, 1 => [.word]
  | .device, 3 => [.word]
  | .source, 0 => [.string]
  | .offer, 0 => [.string]
  | _, _ => []

/-- A payload that has the arguments: a string has a length that is not zero and ends before the
payload does. -/
def Readable : List Field → List UInt8 → Prop
  | [], _ => True
  | .word :: fields, payload => 4 ≤ payload.length ∧ Readable fields (payload.drop 4)
  | .string :: fields, payload =>
    4 ≤ payload.length ∧ 0 < (loadU32 payload).toNat ∧
      4 + pad4 (loadU32 payload).toNat ≤ payload.length ∧
      Readable fields (payload.drop (4 + pad4 (loadU32 payload).toNat))

instance decidableReadable : (fields : List Field) → (payload : List UInt8) →
    Decidable (Readable fields payload)
  | [], _ => .isTrue trivial
  | .word :: fields, payload =>
    have := decidableReadable fields (payload.drop 4)
    inferInstanceAs (Decidable (_ ∧ _))
  | .string :: fields, payload =>
    have := decidableReadable fields (payload.drop (4 + pad4 (loadU32 payload).toNat))
    inferInstanceAs (Decidable (_ ∧ _ ∧ _ ∧ _))

/-- An event to an object of the kind that lacks a part of its arguments. -/
def Truncated (k : ObjKind) (m : Message) : Prop := ¬ Readable (eventFields k m.opcode) m.payload

instance (k : ObjKind) (m : Message) : Decidable (Truncated k m) :=
  inferInstanceAs (Decidable (¬ _))

theorem u32_missing {obj : UInt32} {op : UInt16} {payload : List UInt8}
    (h : ¬ Readable [.word] payload) : (Reader.new obj op payload).u32.1 = 0 := by
  have hshort : payload.length < 4 := by
    by_contra hlen
    exact h ⟨by omega, trivial⟩
  rw [Reader.u32, if_pos]
  simpa [Reader.new, Reader.len] using hshort

theorem str_missing {obj : UInt32} {op : UInt16} {payload : List UInt8}
    (h : ¬ Readable [.string] payload) : (Reader.new obj op payload).str.1 = [] := by
  rw [Reader.str]
  by_cases hshort : payload.length < 4
  · have hzero : (Reader.new obj op payload).u32.1 = 0 :=
      u32_missing fun hread => absurd hread.1 (by omega)
    rw [if_pos (.inl (by rw [hzero]; rfl))]
  · have hword : (Reader.new obj op payload).u32 =
        (loadU32 payload, { Reader.new obj op payload with cur := 4 }) := by
      rw [Reader.u32, if_neg (by simpa [Reader.new, Reader.len] using hshort)]
      rfl
    rw [if_pos]
    rw [hword]
    by_contra hgood
    push Not at hgood
    exact h ⟨by omega, Nat.pos_of_ne_zero hgood.1, hgood.2, trivial⟩

namespace Client

/-! ## Events that make the loop fail -/

section

variable {σ : Type} {predicate : σ → Bool} {d : Dispatcher σ} {m : Message} {cl cl' : Client σ}

/-- `dispatch_until` fails when it has handed out the message, before it hands out another one or
waits for the socket. -/
def FailsAt (predicate : σ → Bool) (d : Dispatcher σ) (m : Message) (cl : Client σ) : Prop :=
  (dispatchUntil predicate d cl).1 = .ok false ∧
    ∃ log, (dispatchUntil predicate d cl).2.trace = (logged m cl).trace ++ log ∧
      ∀ a ∈ log, a.dispatched = [] ∧ ∀ fd r, a ≠ .call (.poll fd (-1)) r

/-- What is queued to be sent is the same. -/
structure SameQueue (cl cl' : Client σ) : Prop where
  outBuf : cl'.outBuf = cl.outBuf
  outFds : cl'.outFds = cl.outFds

instance : IsPreorder (Client σ) SameQueue where
  refl _ := ⟨rfl, rfl⟩
  trans _ _ _ h h' := ⟨h'.outBuf.trans h.outBuf, h'.outFds.trans h.outFds⟩

/-- A dispatcher that queues nothing to be sent. -/
def Unsending (d : Dispatcher σ) : Prop := ∀ obj op r, Within SameQueue (d.handle obj op r)

theorem Unsending.flushed (hd : Unsending d) (h : Flushed cl)
    (hdeliver : deliver d m cl = (.ok (), cl')) : Flushed cl' := by
  have hsame := hd m.objectId m.opcode (.new m.objectId m.opcode m.payload) (logged m cl)
  rw [deliver_eq] at hdeliver
  rcases hrun : d.handle m.objectId m.opcode (.new m.objectId m.opcode m.payload) (logged m cl)
    with ⟨e | u, cl₁⟩ <;> rw [hrun] at hdeliver hsame <;> cases hdeliver
  exact ⟨hsame.outBuf.trans h.1, hsame.outFds.trans h.2⟩

theorem deliver_begun (d : Dispatcher σ) (m : Message) (cl : Client σ) :
    Begun (logged m cl).trace (deliver d m cl).2 := by
  have hsteady := d.steady m.objectId m.opcode (.new m.objectId m.opcode m.payload) (logged m cl)
  have hbegun : Begun (logged m cl).trace (logged m cl) := List.prefix_rfl
  rw [deliver_eq]
  rcases hrun : d.handle m.objectId m.opcode (.new m.objectId m.opcode m.payload) (logged m cl)
    with ⟨e | u, cl₁⟩ <;> rw [hrun] at hsteady <;> exact hbegun.logs hsteady.logs

theorem fails_after (hd : Unsending d) (h : Dispatching predicate cl)
    (hfails : (dispatchUntil predicate d cl).1 = .ok false) :
    ∃ a, Begun (cl.trace ++ [a]) (dispatchUntil predicate d cl).2 ∧
      (a.dispatched ≠ [] ∨ ∃ fd r, a = .call (.poll fd (-1)) r) := by
  rcases hm : headMessage cl.inBuf with _ | m
  · have hround := dispatchRound_none (d := d) h hm
    rcases hr : receiveRound cl with ⟨e | next, cl'⟩
    · have hrun : dispatchUntil predicate d cl = _ :=
        loop_error (dispatchRound_shrinks predicate d) (hround.trans hr)
      rw [hrun] at hfails
      cases hfails
    · obtain ⟨reply, hbegun⟩ := receiveRound_polls hr
      refine ⟨_, ?_, .inr ⟨cl.sock, reply, rfl⟩⟩
      rcases next with _ | ok
      · have hrun : dispatchUntil predicate d cl = _ :=
          loop_next (dispatchRound_shrinks predicate d) (hround.trans hr)
        rw [hrun]
        exact (dispatchUntil_begun _).reached hbegun
      · have hrun : dispatchUntil predicate d cl = _ :=
          loop_return (dispatchRound_shrinks predicate d) (hround.trans hr)
        rw [hrun]
        exact hbegun
  · refine ⟨.dispatch m.objectId m.opcode m.payload, ?_, .inl (List.cons_ne_nil _ _)⟩
    have hbegun := deliver_begun d m cl
    rw [dispatchUntil_head predicate d h hm fun _ => hd.flushed h.flushed]
    rcases hr : deliver d m cl with ⟨e | u, cl'⟩ <;> rw [hr] at hbegun
    · exact hbegun
    · exact (dispatchUntil_begun _).reached hbegun

theorem not_failsAt (hd : Unsending d) (h : Dispatching predicate cl)
    (hm : headMessage cl.inBuf = some m) : ¬ FailsAt predicate d m cl := by
  rintro ⟨hfails, log, htrace, hlog⟩
  have hflushed : ∀ cl', deliver d m cl = (.ok (), cl') → Flushed cl' := fun _ =>
    hd.flushed h.flushed
  rw [dispatchUntil_head predicate d h hm hflushed] at hfails htrace
  have hbegun := deliver_begun d m cl
  rcases hr : deliver d m cl with ⟨e | u, cl'⟩ <;> rw [hr] at hfails htrace hbegun
  · cases hfails
  · dsimp only at hfails htrace hbegun
    by_cases hstop : predicate cl'.st = true
    · rw [dispatchUntil_stop hstop] at hfails
      cases hfails
    · have h' : Dispatching predicate cl' := ⟨hflushed cl' hr, Bool.eq_false_iff.mpr hstop⟩
      obtain ⟨a, ⟨more, hmore⟩, ha⟩ := fails_after hd h' hfails
      obtain ⟨before, hbefore⟩ := hbegun
      have hmem : a ∈ log := by
        have heq : (logged m cl).trace ++ log = (logged m cl).trace ++ (before ++ [a] ++ more) := by
          rw [← htrace, ← hmore, ← hbefore]
          simp
        rw [List.append_cancel_left heq]
        simp
      rcases ha with ha | ⟨fd, r, ha⟩
      · exact ha (hlog a hmem).1
      · exact (hlog a hmem).2 fd r ha

/-! ## Events that leave the client as it was -/

/-- The object table, the received descriptors and the state are the same. -/
def Untouched (cl cl' : Client σ) : Prop :=
  cl'.objects = cl.objects ∧ cl'.inFds = cl.inFds ∧ cl'.st = cl.st

theorem untouched_deliver (d : Dispatcher σ) (m : Message) (cl : Client σ) :
    Untouched cl (deliver d m cl).2 ↔ Untouched (logged m cl)
      (d.handle m.objectId m.opcode (.new m.objectId m.opcode m.payload) (logged m cl)).2 := by
  rw [deliver_eq]
  rcases d.handle m.objectId m.opcode (.new m.objectId m.opcode m.payload) (logged m cl)
    with ⟨e | u, cl₁⟩ <;> exact Iff.rfl

theorem untouched_self (cl : Client σ) : Untouched cl cl := ⟨rfl, rfl, rfl⟩

theorem untouched_setKind {id : UInt32} {k : ObjKind} :
    Untouched cl (cl.setKind id k) ↔ cl.objects id = k := by
  constructor
  · intro h
    exact ((congrFun h.1 id).symm.trans (if_pos rfl))
  · intro h
    refine ⟨funext fun i => ?_, rfl, rfl⟩
    change (if i = id then k else cl.objects i) = cl.objects i
    split_ifs with hi
    · rw [hi, h]
    · rfl

theorem untouched_state {st : σ} : Untouched cl { cl with st := st } ↔ st = cl.st :=
  ⟨fun h => h.2.2, fun h => ⟨rfl, rfl, h⟩⟩

end

end Client

namespace Handcrafted

open Client

section

variable {σ : Type} [HasSession σ] {cl : Client σ} {m : Message}

theorem untouched_session (hsame : ∀ st : σ, withSession (session st) st = st)
    {f : Session → Session} :
    Untouched cl (onSession f cl) ↔ f (session cl.st) = session cl.st := by
  refine untouched_state.trans ⟨fun h => ?_, fun h => ?_⟩
  · have hsession := congrArg session h
    rwa [session_withSession] at hsession
  · rw [h, hsame]

/-- The interface of a global, as far as it can be read. -/
def interfaceOf (m : Message) : Text := (Reader.new m.objectId m.opcode m.payload).u32.2.str.1

/-- A truncated event to an object of either operation that changes nothing: a deletion where
object 0 is not known, a global whose interface cannot be read or is of no use, an event to a callback
that is not waited for, and a name where none was known. -/
def CommonIgnored (cl : Client σ) (m : Message) : Prop :=
  match cl.objects m.objectId with
  | .display => m.opcode = WlDisplay.kEvDeleteId → cl.objects 0 = .unknown
  | .registry => m.opcode = WlRegistry.kEvGlobal →
    interfaceOf m ≠ kIfWlSeat ∧ interfaceOf m ≠ kIfZwlrMgr
  | .callback => m.opcode = WlCallback.kEvDone → m.objectId = (session cl.st).g.syncCbId →
    (session cl.st).g.syncDone = true
  | .seat => m.opcode = WlSeat.kEvName → (session cl.st).seatName = []
  | _ => True

theorem addGlobal_same {name version : UInt32} {interface : Text} {g : Globals} :
    addGlobal name interface version g = g ↔
      interface ≠ kIfWlSeat ∧ interface ≠ kIfZwlrMgr := by
  obtain ⟨hseats, hmanagers⟩ := addGlobal_seats name interface version g
  constructor
  · intro h
    rw [h] at hseats hmanagers
    constructor
    · intro hseat
      rw [if_pos hseat] at hseats
      have hlen := congrArg List.length hseats
      simp at hlen
    · intro hmanager
      rw [if_pos hmanager] at hmanagers
      have hlen := congrArg List.length hmanagers
      simp at hlen
  · intro h
    rw [addGlobal, if_neg h.1, if_neg h.2]

theorem common_untouched_iff (hsame : ∀ st : σ, withSession (session st) st = st)
    (h : Truncated (cl.objects m.objectId) m) :
    Untouched cl (common m.objectId m.opcode (.new m.objectId m.opcode m.payload) cl) ↔
      CommonIgnored cl m := by
  unfold CommonIgnored common
  rcases hkind : cl.objects m.objectId <;> rw [hkind] at h <;> dsimp only
  case display =>
    by_cases hop : m.opcode = WlDisplay.kEvDeleteId
    · have hzero : (Reader.new m.objectId m.opcode m.payload).u32.1 = 0 := by
        apply u32_missing
        rw [Truncated, hop] at h
        exact h
      rw [if_pos hop, hzero, Client.forget, untouched_setKind]
      exact ⟨fun h _ => h, fun h => h hop⟩
    · rw [if_neg hop]
      exact iff_of_true (untouched_self cl) fun h => absurd h hop
  case registry =>
    by_cases hop : m.opcode = WlRegistry.kEvGlobal
    · rw [if_pos hop, untouched_session hsame]
      refine ⟨fun h _ => addGlobal_same.mp (congrArg Session.g h), fun h => ?_⟩
      exact congrArg (fun g => { session cl.st with g := g }) (addGlobal_same.mpr (h hop))
    · rw [if_neg hop]
      exact iff_of_true (untouched_self cl) fun h => absurd h hop
  case callback =>
    by_cases hop : m.opcode = WlCallback.kEvDone ∧ m.objectId = (session cl.st).g.syncCbId
    · rw [if_pos hop, untouched_session hsame]
      refine ⟨fun h _ _ => ?_, fun h => ?_⟩
      · exact (congrArg (fun s => s.g.syncDone) h).symm
      · rw [← h hop.1 hop.2]
    · rw [if_neg hop]
      exact iff_of_true (untouched_self cl) fun hdone hid => absurd ⟨hdone, hid⟩ hop
  case seat =>
    by_cases hop : m.opcode = WlSeat.kEvName
    · have hempty : (Reader.new m.objectId m.opcode m.payload).str.1 = [] := by
        apply str_missing
        rw [Truncated, hop] at h
        exact h
      rw [if_pos hop, untouched_session hsame, hempty]
      refine ⟨fun h _ => ?_, fun h => ?_⟩
      · exact (congrArg Session.seatName h).symm
      · rw [← h hop]
    · rw [if_neg hop]
      exact iff_of_true (untouched_self cl) fun h => absurd h hop
  all_goals exact iff_of_true (untouched_self cl) trivial

end

/-! ## The dispatchers -/

theorem popFd_sameQueue :
    Within (SameQueue (σ := CopyState)) (Client.onConn Connection.popFd) := by
  rintro ⟨⟨p, sock, inBuf, _ | ⟨fd, inFds⟩, outBuf, outFds⟩, objects, nextId, st⟩ <;>
    exact ⟨rfl, rfl⟩

theorem copy_unsending : Unsending copyDispatcher := by
  intro obj op r
  refine Within.bind (Within.read _) fun k => Within.ite (Within.ite ?_ (Within.ite ?_ ?_)) ?_
  · apply Within.bind popFd_sameQueue
    intro fd
    refine Within.bind (Within.read _) fun st => Within.bind (Within.ite ?_ (Within.pure _)) fun _ =>
      Within.update fun cl => ⟨rfl, rfl⟩
    exact fun cl => ⟨rfl, rfl⟩
  · exact Within.update fun cl => ⟨rfl, rfl⟩
  · exact Within.pure _
  · refine Within.update fun cl => ?_
    have hconn := common_toConnection obj op r cl
    exact ⟨congrArg Connection.outBuf hconn, congrArg Connection.outFds hconn⟩

theorem paste_unsending : Unsending pasteDispatcher := by
  intro obj op r
  refine Within.update fun cl => ?_
  have hconn := pasteStep_toConnection obj op r cl
  exact ⟨congrArg Connection.outBuf hconn, congrArg Connection.outFds hconn⟩

/-- A request to send takes a descriptor or counts. -/
theorem onSend_touches (cl : Client CopyState) : ¬ Untouched cl (onSend cl).2 := by
  rcases hfds : cl.inFds with _ | ⟨fd, fds⟩
  · have hpop : Client.onConn Connection.popFd cl = (.ok (-1), cl) := by
      simp only [Client.onConn, Prog.zoom_apply, Connection.popFd, hfds]
    have hrun : onSend cl = (.ok (), { cl with st := countServed cl.st }) := by
      rw [onSend, bind_ok hpop]
      rfl
    intro h
    rw [hrun] at h
    have hserved := congrArg CopyState.served h.2.2
    simp [countServed] at hserved
  · have hpop : Client.onConn Connection.popFd cl = (.ok fd, { cl with inFds := fds }) := by
      simp only [Client.onConn, Prog.zoom_apply, Connection.popFd, hfds]
    intro h
    have hkept : (onSend cl).2.inFds = fds := by
      rw [onSend, bind_ok hpop]
      have hkeeps : ∀ data, Keeps (fun c : Client CopyState => c.inFds = fds)
          (serveOn fd data >>= fun _ => Client.setState countServed) := by
        intro data
        apply Triple.bind (Q := fun _ c => c.inFds = fds)
        · refine Triple.ite (fun _ => ?_) fun _ => Triple.pure _ fun _ h => h
          have hsys : Within (fun c c' : Client CopyState => c'.inFds = c.inFds)
            (Client.sys (Process.serveSend fd data)) := fun _ => rfl
          exact hsys.keeps fun _ _ hsame h => hsame.trans h
        · exact fun _ => Triple.update _ fun _ h => h
      exact (hkeeps _).reached rfl
    have hlen := congrArg List.length (hkept.symm.trans h.2.1)
    rw [hfds] at hlen
    simp at hlen

/-- A truncated event that changes nothing in a copy; a request to send always does. -/
def CopyIgnored (cl : Client CopyState) (m : Message) : Prop :=
  cl.objects m.objectId ≠ .source ∧ CommonIgnored cl m

theorem truncated_source {m : Message} (h : Truncated .source m) : m.opcode = Zdcs.kEvSend := by
  by_contra hop
  apply h
  unfold eventFields
  split <;> trivial

theorem copy_untouched_iff {cl : Client CopyState} {m : Message}
    (h : Truncated (cl.objects m.objectId) m) :
    Untouched cl (deliver copyDispatcher m cl).2 ↔ CopyIgnored cl m := by
  rw [untouched_deliver, CopyIgnored]
  by_cases hsource : cl.objects m.objectId = .source
  · rw [hsource] at h
    have hkind : (logged m cl).objects m.objectId = .source := hsource
    have hrun : copyDispatcher.handle m.objectId m.opcode
        (.new m.objectId m.opcode m.payload) (logged m cl) = onSend (logged m cl) := by
      refine (handleCopy_source hkind).trans ?_
      rw [if_pos (truncated_source h)]
    rw [hrun]
    exact iff_of_false (onSend_touches (logged m cl)) fun hignored => hignored.1 hsource
  · have hkind : (logged m cl).objects m.objectId ≠ .source := hsource
    have hrun : copyDispatcher.handle m.objectId m.opcode
        (.new m.objectId m.opcode m.payload) (logged m cl) = _ := handleCopy_other hkind
    have hcommon : Untouched (logged m cl) (common m.objectId m.opcode
        (.new m.objectId m.opcode m.payload) (logged m cl)) ↔ CommonIgnored (logged m cl) m :=
      common_untouched_iff (fun _ => rfl) h
    rw [hrun, hcommon]
    exact ⟨fun hignored => ⟨hsource, hignored⟩, fun hignored => hignored.2⟩

/-- A truncated event that changes nothing in a paste: to the device, one that again says that
there is no selection, and to an offer, one that the paste has no record of. -/
def PasteIgnored (cl : Client PasteState) (m : Message) : Prop :=
  match cl.objects m.objectId with
  | .device =>
    m.opcode ≠ Zdcd.kEvDataOffer ∧
    (m.opcode = Zdcd.kEvSelection → cl.st.currentRegular = 0 ∧ cl.st.gotRegular = true) ∧
    (m.opcode = Zdcd.kEvPrimarySelection → cl.st.currentPrimary = 0 ∧ cl.st.gotPrimary = true)
  | .offer => ∀ o ∈ cl.st.offers, o.id ≠ m.objectId
  | _ => CommonIgnored cl m

theorem addMime_same {id : UInt32} {m : Text} {offers : List OfferRec} :
    addMime id m offers = offers ↔ ∀ o ∈ offers, o.id ≠ id := by
  induction offers with
  | nil => simp [addMime]
  | cons o offers ih =>
      by_cases ho : o.id = id
      · rw [addMime, if_pos ho]
        refine iff_of_false (fun h => ?_) fun h => h o List.mem_cons_self ho
        have hmimes := congrArg OfferRec.mimes (List.cons.inj h).1
        simp at hmimes
      · rw [addMime, if_neg ho]
        simp [ih, ho]

theorem truncated_device {m : Message} (h : Truncated .device m) :
    ¬ Readable [.word] m.payload ∧ (m.opcode = Zdcd.kEvDataOffer ∨ m.opcode = Zdcd.kEvSelection ∨
      m.opcode = Zdcd.kEvPrimarySelection) := by
  by_cases hoffer : m.opcode = Zdcd.kEvDataOffer
  · rw [Truncated, hoffer] at h
    exact ⟨h, .inl hoffer⟩
  by_cases hregular : m.opcode = Zdcd.kEvSelection
  · rw [Truncated, hregular] at h
    exact ⟨h, .inr (.inl hregular)⟩
  by_cases hprimary : m.opcode = Zdcd.kEvPrimarySelection
  · rw [Truncated, hprimary] at h
    exact ⟨h, .inr (.inr hprimary)⟩
  refine absurd ?_ h
  unfold eventFields
  split <;> trivial

theorem truncated_offer {m : Message} (h : Truncated .offer m) : m.opcode = Zdco.kEvOffer := by
  by_contra hop
  apply h
  unfold eventFields
  split <;> trivial

theorem pasteDevice_untouched_iff {cl : Client PasteState} {m : Message} (h : Truncated .device m) :
    Untouched cl (pasteDevice m.opcode (.new m.objectId m.opcode m.payload) cl) ↔
      m.opcode ≠ Zdcd.kEvDataOffer ∧
      (m.opcode = Zdcd.kEvSelection → cl.st.currentRegular = 0 ∧ cl.st.gotRegular = true) ∧
      (m.opcode = Zdcd.kEvPrimarySelection →
        cl.st.currentPrimary = 0 ∧ cl.st.gotPrimary = true) := by
  obtain ⟨hword, hop⟩ := truncated_device h
  have hzero : (Reader.new m.objectId m.opcode m.payload).u32.1 = 0 := u32_missing hword
  unfold pasteDevice
  rw [hzero]
  rcases hop with hop | hop | hop <;> rw [hop]
  · refine iff_of_false (fun h => ?_) fun h => h.1 rfl
    have hoffers := congrArg (fun st => st.offers.length) h.2.2
    simp at hoffers
  · refine untouched_state.trans
      ⟨fun h => ⟨by decide, fun _ => ?_, fun hop => absurd hop (by decide)⟩, fun h => ?_⟩
    · exact ⟨(congrArg PasteState.currentRegular h).symm, (congrArg PasteState.gotRegular h).symm⟩
    · obtain ⟨hcurrent, hgot⟩ := h.2.1 rfl
      rw [← hcurrent, ← hgot]
  · refine untouched_state.trans
      ⟨fun h => ⟨by decide, fun hop => absurd hop (by decide), fun _ => ?_⟩, fun h => ?_⟩
    · exact ⟨(congrArg PasteState.currentPrimary h).symm, (congrArg PasteState.gotPrimary h).symm⟩
    · obtain ⟨hcurrent, hgot⟩ := h.2.2 rfl
      rw [← hcurrent, ← hgot]

theorem paste_untouched_iff {cl : Client PasteState} {m : Message}
    (h : Truncated (cl.objects m.objectId) m) :
    Untouched cl (deliver pasteDispatcher m cl).2 ↔ PasteIgnored cl m := by
  have hcommon : Untouched (logged m cl) (common m.objectId m.opcode
      (.new m.objectId m.opcode m.payload) (logged m cl)) ↔ CommonIgnored (logged m cl) m :=
    common_untouched_iff (fun _ => rfl) h
  have hstep : Untouched cl (deliver pasteDispatcher m cl).2 ↔ Untouched (logged m cl)
      (pasteStep m.objectId m.opcode (.new m.objectId m.opcode m.payload) (logged m cl)) :=
    untouched_deliver pasteDispatcher m cl
  rw [hstep, PasteIgnored]
  unfold pasteStep
  change (Untouched _ (match cl.objects m.objectId with
    | .device => _ | .offer => _ | _ => _)) ↔ _
  rcases hkind : cl.objects m.objectId <;> rw [hkind] at h
  case device => exact pasteDevice_untouched_iff h
  case offer =>
    rw [truncated_offer h]
    refine untouched_state.trans ⟨fun h => ?_, fun h => ?_⟩
    · exact addMime_same.mp (congrArg PasteState.offers h)
    · exact congrArg (fun offers => { cl.st with offers := offers }) (addMime_same.mpr h)
  all_goals exact hcommon

/-- Where `dispatch_until` hands out a truncated event, it fails at it or leaves the client as it was
exactly if the event is one that is ignored, in a copy and in a paste. -/
theorem truncated_harmless_iff (m : Message) :
    (∀ (predicate : CopyState → Bool) (cl : Client CopyState), Dispatching predicate cl →
      headMessage cl.inBuf = some m → cl.objects m.objectId ≠ .unknown →
      Truncated (cl.objects m.objectId) m →
      (FailsAt predicate copyDispatcher m cl ∨ Untouched cl (deliver copyDispatcher m cl).2 ↔
        CopyIgnored cl m)) ∧
    ∀ (predicate : PasteState → Bool) (cl : Client PasteState), Dispatching predicate cl →
      headMessage cl.inBuf = some m → cl.objects m.objectId ≠ .unknown →
      Truncated (cl.objects m.objectId) m →
      (FailsAt predicate pasteDispatcher m cl ∨ Untouched cl (deliver pasteDispatcher m cl).2 ↔
        PasteIgnored cl m) := by
  constructor
  · intro predicate cl h hm _ htruncated
    rw [or_iff_right (not_failsAt copy_unsending h hm)]
    exact copy_untouched_iff htruncated
  · intro predicate cl h hm _ htruncated
    rw [or_iff_right (not_failsAt paste_unsending h hm)]
    exact paste_untouched_iff htruncated

/-! ### A selection without its offer -/

def bare (objectId : UInt32) (opcode : UInt16) : Message := ⟨objectId, opcode, [], Message.fits_nil⟩

/-- A paste that has asked for its device, and has the event in its buffer. -/
def pasteOn (m : Message) : Client PasteState :=
  { (pasteSetup [] [] .regular
      (Client.new (.fresh (bootReplies 2 ++ [.sendmsg (.ok 1000)])) .new)).2 with inBuf := m.bytes }

def copyOn (m : Message) : Client CopyState :=
  { (copySetup [] [] .regular (Client.new (.fresh (bootReplies 2 ++ [.sendmsg (.ok 1000)]))
      (CopyState.new ⟨[0x68], [text "text/plain"]⟩ false))).2 with inBuf := m.bytes }

theorem truncated_harmless_bare :
    (FailsAt CopyState.done copyDispatcher (bare 1 1) (copyOn (bare 1 1)) ∨
      Untouched (copyOn (bare 1 1)) (deliver copyDispatcher (bare 1 1) (copyOn (bare 1 1))).2) ∧
    (FailsAt (haveTarget .regular) pasteDispatcher (bare 4 1) (pasteOn (bare 4 1)) ∨
      Untouched (pasteOn (bare 4 1))
        (deliver pasteDispatcher (bare 4 1) (pasteOn (bare 4 1))).2) := by
  have hcopy : (copyOn (bare 1 1)).objects 1 = .display := by decide +kernel
  have hpaste : (pasteOn (bare 4 1)).objects 4 = .seat := by decide +kernel
  constructor
  · refine ((truncated_harmless_iff (bare 1 1)).1 CopyState.done (copyOn (bare 1 1))
      ⟨⟨by decide +kernel, by decide +kernel⟩, by decide +kernel⟩ (by decide +kernel)
      (by decide +kernel) (by decide +kernel)).mpr ?_
    rw [CopyIgnored, CommonIgnored, show (bare 1 1).objectId = 1 from rfl, hcopy]
    exact ⟨nofun, fun _ => by decide +kernel⟩
  · refine ((truncated_harmless_iff (bare 4 1)).2 (haveTarget .regular) (pasteOn (bare 4 1))
      ⟨⟨by decide +kernel, by decide +kernel⟩, by decide +kernel⟩ (by decide +kernel)
      (by decide +kernel) (by decide +kernel)).mpr ?_
    rw [PasteIgnored, CommonIgnored, show (bare 4 1).objectId = 4 from rfl, hpaste]
    exact fun _ => by decide +kernel

/-- A selection event without its argument is taken for the news that nothing is selected. -/
theorem truncated_selection :
    let m := bare 7 1
    let cl := pasteOn m
    Dispatching (haveTarget .regular) cl ∧ headMessage cl.inBuf = some m ∧
      cl.objects m.objectId = .device ∧ Truncated .device m ∧
      ¬ FailsAt (haveTarget .regular) pasteDispatcher m cl ∧
      cl.st.gotRegular = false ∧ (deliver pasteDispatcher m cl).2.st.gotRegular = true := by
  intro m cl
  have hdispatching : Dispatching (haveTarget .regular) cl :=
    ⟨⟨by decide +kernel, by decide +kernel⟩, by decide +kernel⟩
  have hm : headMessage cl.inBuf = some m := by decide +kernel
  refine ⟨hdispatching, hm, by decide +kernel, by decide +kernel, ?_, by decide +kernel,
    by decide +kernel⟩
  exact not_failsAt paste_unsending hdispatching hm

end Handcrafted

end WlClip
