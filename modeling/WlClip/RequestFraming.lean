import WlClip.CopyCommand
import WlClip.CopyScript

/-!
# The framing of the requests of a copy

The requests that a copy queues are recovered by splitting the bytes with `peekMessageSize` while
every type is short enough for the length field. Nothing checks that: a copy of a longer type
queues its whole script, since the way there does not look at the types.
-/

open ScriptedProgram ScriptedProgram.Prog

namespace WlClip

open Message (framing)

/-- Splitting the bytes queued recovers the messages, one for each that was written. -/
def Framed (p : Process) : Prop :=
  (framing.split p.queued).1.map Message.bytes = p.written ∧ (framing.split p.queued).2 = []

theorem Framed.of_messages {p : Process} (ms : List Message) (h : p.written = ms.map Message.bytes) :
    Framed p := by
  have hqueued : p.queued = framing.stream ms ++ [] := by
    rw [Process.queued_eq, h, List.append_nil, ← List.flatMap_def]
    rfl
  have hsplit := framing.split_stream ms (r := []) framing.first_nil
  rw [Framed, hqueued, hsplit, h]
  exact ⟨rfl, rfl⟩

theorem Framed.length_lt {p : Process} (h : Framed p) {b : List UInt8} (hb : b ∈ p.written) :
    b.length < 65536 := by
  rw [← h.1] at hb
  obtain ⟨m, -, rfl⟩ := List.mem_map.mp hb
  have hfits := m.fits
  rw [m.length_bytes, Message.size]
  exact hfits

theorem Framed.logs {p p' : Process} (h : Framed p) (hlogs : Process.Logs Action.Silent p p') :
    Framed p' := by
  have hqueued : p'.queued = p.queued := hlogs.observe_eq fun _ ha => ha.io.queued
  have hwritten : p'.written = p.written := hlogs.observe_eq fun _ ha => ha.io.written
  rw [Framed, hqueued, hwritten]
  exact h

namespace Handcrafted

/-! ## The boot of a copy does not look at the types -/

def withTypes (types : List Text) (st : CopyState) : CopyState :=
  { st with data := { st.data with mimeTypes := types } }

/-- The two clients differ in the types that their copies offer only. -/
def Retyped (types : List Text) (cl cl' : Client CopyState) : Prop :=
  cl' = { cl with st := withTypes types cl.st }

section Blind

variable {types : List Text} {α : Type}

theorem onConn_blind (p : Prog Halt WlClip.Connection α) :
    Alike (Retyped types) (Client.onConn p) := by
  refine Alike.zoom (Alike.same p) ?_ ?_
  · rintro cl _ rfl
    rfl
  · rintro cl _ c _ rfl rfl
    rfl

theorem setState_blind {f : CopyState → CopyState}
    (h : ∀ st, f (withTypes types st) = withTypes types (f st)) :
    Alike (Retyped types) (Client.setState f) := by
  apply Alike.update
  rintro cl _ rfl
  exact congrArg (fun st => { cl with st := st }) (h cl.st)

theorem modifySession_blind (f : Session → Session) :
    Alike (Retyped types) (modifySession f) := setState_blind fun _ => rfl

theorem allocId_blind : Alike (Retyped types) Client.allocId := by
  rintro cl _ rfl
  exact ⟨rfl, rfl⟩

theorem registerObject_blind (id : UInt32) (k : ObjKind) :
    Alike (Retyped types) (Client.registerObject id k) := by
  apply Alike.update
  rintro cl _ rfl
  rfl

theorem send_blind (w : Writer) : Alike (Retyped types) (send w) := onConn_blind _

theorem cancel_blind (st : CopyState) :
    cancel (withTypes types st) = withTypes types (cancel st) := by
  by_cases h : st.cancelCount = 0 <;> simp [cancel, withTypes, h]

theorem common_blind (obj : UInt32) (op : UInt16) (r : Reader) :
    Alike (Retyped types) (handleCommon obj op r) := by
  apply Alike.update
  rintro cl _ rfl
  have hsession : session (withTypes types cl.st) = session cl.st := rfl
  simp only [common, hsession]
  cases cl.objects obj with
  | display | registry | callback | seat => split_ifs <;> rfl
  | _ => rfl

theorem readSession_blind : Alike (Retyped types) (readSession (σ := CopyState)) := by
  apply Alike.read
  rintro cl _ rfl
  rfl

theorem onSend_blind : Alike (Retyped types) onSend := by
  apply Alike.bind (onConn_blind _)
  intro fd
  apply Alike.read_bind
  · rintro cl _ rfl
    rfl
  · intro st
    apply Alike.bind (Alike.ite (onConn_blind _) (Alike.pure _))
    intro _
    exact setState_blind fun _ => rfl

theorem handleCopy_blind (obj : UInt32) (op : UInt16) (r : Reader) :
    Alike (Retyped types) (handleCopy obj op r) := by
  apply Alike.bind
  · apply Alike.read
    rintro cl _ rfl
    rfl
  · intro k
    apply Alike.ite
    · apply Alike.ite onSend_blind
      exact Alike.ite (setState_blind cancel_blind) (Alike.pure _)
    · exact common_blind obj op r

theorem tolerates_retyped {predicate : CopyState → Bool}
    (hstop : ∀ st, predicate (withTypes types st) = predicate st) :
    Client.Tolerates predicate copyDispatcher (Retyped types) where
  inBuf := by
    rintro cl _ rfl
    rfl
  stop := by
    rintro cl _ rfl
    exact (hstop cl.st).symm
  record _ := onConn_blind _
  handle := handleCopy_blind
  inConsume _ := onConn_blind _
  flush := onConn_blind _
  waitReadable := onConn_blind _
  pump := onConn_blind _

theorem dispatchUntil_blind {predicate : CopyState → Bool}
    (hstop : ∀ st, predicate (withTypes types st) = predicate st) :
    Alike (Retyped types) (Client.dispatchUntil predicate copyDispatcher) :=
  Client.dispatchUntil_alike (tolerates_retyped hstop)

theorem startSync_blind : Alike (Retyped types) startSync := by
  apply Alike.bind _ fun cb => modifySession_blind _
  apply Alike.bind allocId_blind
  intro cb
  apply Alike.bind (registerObject_blind cb .callback)
  intro _
  exact Alike.bind (send_blind _) fun _ => Alike.pure _

theorem bindGlobals_blind (seat : Text) :
    Alike (Retyped types) (bindGlobals copyDispatcher seat) := by
  apply Alike.bind readSession_blind
  intro s
  rcases s.g.managers with _ | ⟨mg, mgs⟩
  · exact Alike.pure _
  apply Alike.ite (Alike.pure _)
  apply Alike.bind
  · apply Alike.ite _ (Alike.pure _)
    rcases stoul seat with _ | n
    · exact Alike.halt _
    · exact Alike.pure _
  intro seatIdx
  rcases s.g.seats[seatIdx]? with _ | sg
  · exact Alike.pure _
  have hbind : ∀ (kind : ObjKind) (f : UInt32 → Session → Session) (w : UInt32 → Writer),
      Alike (Retyped types) (do
        let id ← Client.allocId
        modifySession (f id)
        Client.registerObject id kind
        send (w id)) := fun kind f w =>
    Alike.bind allocId_blind fun id => Alike.bind (modifySession_blind _) fun _ =>
      Alike.bind (registerObject_blind _ _) fun _ => send_blind _
  apply Alike.bind (hbind .seat _ _)
  intro _
  apply Alike.bind (hbind .manager _ _)
  intro _
  apply Alike.bind (modifySession_blind _)
  intro _
  apply Alike.bind startSync_blind
  intro _
  apply Alike.bind (dispatchUntil_blind fun _ => rfl)
  intro ok
  exact Alike.ite (Alike.bind readSession_blind fun _ => Alike.pure _)
    (Alike.pure _)

variable (types) in
theorem start_blind (display seat : Text) (sel : Selection) :
    Alike (Retyped types) (start copyDispatcher display seat sel) := by
  apply Alike.bind
  · apply Alike.bind (onConn_blind _)
    intro ok
    exact Alike.ite (Alike.bind (registerObject_blind _ _) fun _ => Alike.pure _)
      (Alike.pure _)
  intro ok
  apply Alike.ite _ (Alike.pure _)
  apply Alike.bind
  · apply Alike.bind
    · apply Alike.bind allocId_blind
      intro id
      apply Alike.bind (modifySession_blind _)
      intro _
      exact Alike.bind (registerObject_blind _ _) fun _ => send_blind _
    intro _
    apply Alike.bind startSync_blind
    intro _
    apply Alike.bind (dispatchUntil_blind fun _ => rfl)
    intro ok
    exact Alike.ite (bindGlobals_blind seat) (Alike.pure _)
  intro ok
  exact Alike.ite (Alike.bind readSession_blind fun _ => Alike.pure _)
    (Alike.pure _)

end Blind

/-! ## A copy that boots queues its whole script -/

/-- The whole script of the copy was queued. -/
def Announces (sel : Selection) (data : CopyData) (cl : Client CopyState) : Prop :=
  ∃ sg mg n ids,
    Scripted (dataFrame data) (bootScript sg mg ++ announceScript sel data.mimeTypes) n ids cl

variable {sel : Selection} {data : CopyData} {oneshot : Bool} {sigpipe : SigDisposition}
  {display seat : Text} {cl₀ : Client CopyState} {H : Halt → Client CopyState → Prop}

theorem started_triple (hfresh : Fresh (initialFrame (CopyState.new data oneshot) sigpipe) cl₀)
    (hstart : (start copyDispatcher display seat sel cl₀).1 = .ok true) :
    Triple (fun cl => cl = cl₀) (start copyDispatcher display seat sel)
      (fun ok cl => ok = true ∧ ∃ sg mg, Booted (dataFrame data) sg mg cl) H := by
  rintro cl rfl
  have hspoke := start_spoke (fun _ => []) (copy_initial _ _) display seat sel cl hfresh
  rcases hr : start copyDispatcher display seat sel cl with ⟨e | ok, cl'⟩ <;>
    rw [hr] at hstart hspoke
  · cases hstart
  · cases hstart
    obtain ⟨sg, mg, h, -⟩ := hspoke.1 rfl
    exact ⟨rfl, sg, mg, h.reframe (initialFrame_data h.frame)⟩

theorem flush_announces : Keeps (Announces sel data) (Client.onConn Connection.flush) := by
  rintro cl ⟨sg, mg, n, ids, h⟩
  exact flush_scripted.conseq (fun _ h => h) (fun _ _ h => ⟨sg, mg, n, ids, h⟩)
    (fun _ _ h => ⟨sg, mg, n, ids, h⟩) cl h

theorem dispatchUntil_announces (predicate : CopyState → Bool) :
    Keeps (Announces sel data) (Client.dispatchUntil predicate copyDispatcher) := by
  rintro cl ⟨sg, mg, n, ids, h⟩
  exact (dispatchUntil_scripted (copy_undisturbing data) predicate).conseq (fun _ h => h)
    (fun _ _ h => ⟨sg, mg, n, ids, h.1⟩) (fun _ _ h => ⟨sg, mg, n, ids, h⟩) cl h

theorem copyClient_announces (htypes : data.mimeTypes ≠ [])
    (hfresh : Fresh (initialFrame (CopyState.new data oneshot) sigpipe) cl₀)
    (hstart : (start copyDispatcher display seat sel cl₀).1 = .ok true) :
    Triple (fun cl => cl = cl₀) (copyClient display seat sel) (fun _ => Announces sel data)
      (fun _ => Announces sel data) := by
  refine Triple.bind (Q := fun _ => Announces sel data) ?_ fun ok => Triple.ite (fun _ => ?_)
    fun _ => Triple.pure _ fun _ h => h
  · refine Triple.bind (started_triple hfresh hstart) fun ok => Triple.assume fun hok => ?_
    rw [if_pos hok]
    refine Triple.bind (Q := fun st cl => st.data = data ∧ ∃ sg mg, Booted (dataFrame data) sg mg cl)
      (Triple.read _ ?_) fun st => Triple.assume fun hdata => ?_
    · rintro cl ⟨sg, mg, h⟩
      exact ⟨h.frame, sg, mg, h⟩
    rw [if_neg (by rwa [hdata])]
    refine Triple.bind (Q := fun _ => Announces sel data) ?_ fun _ =>
      Triple.bind flush_announces fun _ => Triple.pure _ fun _ h => h
    rintro cl ⟨sg, mg, h⟩
    exact (announce_triple data sel).conseq (fun _ h => h) (fun _ _ h => ⟨sg, mg, _, _, h⟩)
      (fun _ _ h => h) cl h
  · exact Triple.bind (dispatchUntil_announces CopyState.done) fun ok =>
      Triple.bind (Triple.read _ fun _ h => h) fun st => Triple.pure _ fun _ h => h

/-- The offer of a type that does not fit the length field. -/
theorem length_encode_offer {m : Text} (h : 65519 < m.length) (source : UInt32) :
    65536 ≤ ((Request.offer m).encode source).length := by
  have hlen := length_finalize_args source (Request.offer m).opcode (Request.offer m).args
  have harg : ((Request.offer m).args.flatMap Arg.bytes).length = 4 + pad4 (m.length + 1) := by
    simp only [Request.args, List.flatMap_singleton, length_str_bytes]
  have hpad := le_pad4 (m.length + 1)
  have hmod := pad4_mod (m.length + 1)
  rw [Request.encode, hlen, harg]
  omega

theorem Spoken.framed {cl : Client CopyState} (htypes : ∀ m ∈ data.mimeTypes, m.length ≤ 65519)
    (h : Spoken (dataFrame data) (copyRest sel data.mimeTypes) cl) : Framed cl.toProcess := by
  obtain ⟨sg, mg, rs, n, ids, h, hrs⟩ := h
  have hfits := ((accepted_boot sg mg (accepted_announce sel htypes)).cut (copyRest_cut hrs)).1
  apply Framed.of_messages (messages rs)
  rw [h.written, messages, List.map_map]
  exact List.map_congr_left fun a ha => Request.encode_eq a.1 (hfits a ha)

end Handcrafted

namespace HandcraftedBackend

open Handcrafted

theorem copy_framed (display seat : Text) (sel : Selection) (data : CopyData) (oneshot : Bool)
    (htypes : ∀ m ∈ data.mimeTypes, m.length ≤ 65519) {p : Process} (hp : p.trace = []) :
    Framed (copy display seat sel data oneshot p).2 := by
  have hrun : Triple (fun p => p.trace = []) (copy display seat sel data oneshot) (fun _ => Framed)
      (fun _ => Framed) := by
    refine Client.run_triple ?_ fun _ _ _ hlogs h => h.logs hlogs
    rintro _ ⟨p, hp, rfl⟩
    exact (copyClient_spoken display seat sel).conseq (fun _ h => h) (fun _ _ h => h.framed htypes)
      (fun _ _ h => h.framed htypes) _ (fresh_new p data oneshot hp)
  exact hrun.reached hp

/-- A copy whose start succeeds has written an offer of each of its types. -/
theorem copy_offers {display seat : Text} {sel : Selection} {data : CopyData} {oneshot : Bool}
    {p : Process} (hp : p.trace = []) {m : Text} (hm : m ∈ data.mimeTypes)
    (hstart : (start copyDispatcher display seat sel
      (Client.new p (CopyState.new data oneshot))).1 = .ok true) :
    (Request.offer m).encode 7 ∈ (copy display seat sel data oneshot p).2.written := by
  have hoffer : ∀ cl : Client CopyState, Announces sel data cl →
      (Request.offer m).encode 7 ∈ cl.written := by
    rintro cl ⟨sg, mg, n, ids, h⟩
    have hscript : (7, Request.offer m) ∈ bootScript sg mg ++ announceScript sel data.mimeTypes := by
      apply List.mem_append_right
      apply List.mem_append_left
      apply List.mem_append_right
      exact List.mem_map_of_mem (f := fun m => ((7 : UInt32), Request.offer m)) hm
    rw [h.written]
    exact List.mem_map.mpr ⟨(7, .offer m), hscript, rfl⟩
  have hrun : Triple (fun q => q = p) (copy display seat sel data oneshot)
      (fun _ q => (Request.offer m).encode 7 ∈ q.written)
      (fun _ q => (Request.offer m).encode 7 ∈ q.written) := by
    refine Client.run_triple ?_ fun _ q q' hlogs h => ?_
    · rintro _ ⟨q, rfl, rfl⟩
      exact (copyClient_announces (List.ne_nil_of_mem hm) (fresh_new q data oneshot hp) hstart).conseq
        (fun _ h => h) (fun _ => hoffer) (fun _ => hoffer) _ rfl
    · have hwritten : q'.written = q.written := hlogs.observe_eq fun _ ha => ha.io.written
      rwa [hwritten]
  exact hrun.reached rfl

theorem start_types (display seat : Text) (sel : Selection) (bytes : List UInt8) (oneshot : Bool)
    (mimes : List Text) (p : Process) :
    (start copyDispatcher display seat sel
      (Client.new p (CopyState.new ⟨bytes, mimes⟩ oneshot))).1 =
    (start copyDispatcher display seat sel
      (Client.new p (CopyState.new ⟨bytes, []⟩ oneshot))).1 :=
  (start_blind mimes display seat sel (Client.new p (CopyState.new ⟨bytes, []⟩ oneshot)) _ rfl).1.symm

theorem boots (mimes : List Text) :
    (start copyDispatcher [] [] .regular
      (Client.new (Process.fresh (bootReplies 2)) (CopyState.new ⟨[], mimes⟩ false))).1 =
        .ok true := by
  rw [start_types]
  decide +kernel

/-- The requests that a copy queues are recovered in every run, exactly if every type fits the
length field. -/
theorem copy_framed_iff (mimes : List Text) :
    (∀ display seat sel bytes oneshot p, p.trace = [] →
      Framed (copy display seat sel ⟨bytes, mimes⟩ oneshot p).2) ↔
      ∀ m ∈ mimes, m.length ≤ 65519 := by
  constructor
  · intro h m hm
    by_contra hlong
    have hframed := h [] [] .regular [] false (Process.fresh (bootReplies 2)) rfl
    have hlt := hframed.length_lt (copy_offers rfl hm (boots mimes))
    have hle := length_encode_offer (Nat.lt_of_not_le hlong) 7
    omega
  · intro htypes display seat sel bytes oneshot p hp
    exact copy_framed display seat sel ⟨bytes, mimes⟩ oneshot htypes hp

/-- A type that `copy -t` admits and that an offer is too short for. -/
def longType : Text := List.replicate 65520 0x61

theorem copy_misframed :
    CopyCommand.parse [text "-t", longType] .new =
        some { CopyCommand.CopyOpts.new with mimeTypes := [longType] } ∧
      ¬ Framed (copy [] [] .regular ⟨[], [longType]⟩ false (Process.fresh (bootReplies 2))).2 := by
  have hadmitted : ∀ t, CopyCommand.parse [text "-t", t] .new =
      some { CopyCommand.CopyOpts.new with mimeTypes := [t] } :=
    fun t => CopyCommand.parse_types [t] .new
  constructor
  · exact hadmitted longType
  · intro hframed
    have hlong : 65519 < longType.length := by
      rw [longType, List.length_replicate]
      omega
    have hlt := hframed.length_lt (copy_offers rfl List.mem_cons_self (boots [longType]))
    have hle := length_encode_offer hlong 7
    omega

end HandcraftedBackend

end WlClip
