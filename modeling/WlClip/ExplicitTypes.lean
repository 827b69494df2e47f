import WlClip.FailedReads
import WlClip.PasteOutput

/-!
# A paste of one type

A paste that is told a type asks for a type that `choose_mime` finds for it. That is the type that
was given where it is on offer, and may be any type on offer where it is not.
-/

open ScriptedProgram ScriptedProgram.Prog

namespace WlClip

/-! ## The choice -/

def akin (prefer m : Text) : Bool := startsWith m prefer || startsWith prefer m

/-- With these types on offer a paste of the type can ask for no other: the type is among them, there
are none, or the first that is akin to it is empty. -/
def Suits (mime : Text) (av : List Text) : Prop :=
  mime ∈ av ∨ av = [] ∨ av.find? (akin mime) = some []

section Choice

variable {mime : Text} {av : List Text}

theorem akin_nil (mime : Text) : akin mime [] = true := by
  simp [akin, startsWith]

theorem chooseMime_akin (hne : mime ≠ []) (hmem : mime ∉ av) {m : Text}
    (h : av.find? (akin mime) = some m) : chooseMime av mime = m := by
  have hnone : (av.find? fun m => m == mime) = none := by
    rw [List.find?_eq_none]
    intro m hm heq
    exact hmem (eq_of_beq heq ▸ hm)
  have hakin : (av.find? fun m => startsWith m mime || startsWith mime m) = some m := h
  rw [chooseMime, mimeRules, if_neg hne, List.cons_append, List.findSome?_cons, hnone]
  dsimp only
  rw [List.cons_append, List.findSome?_cons, hakin]
  rfl

/-- A type that is not on offer leads to no type where none is on offer or the first that is akin to
it is empty. -/
theorem chooseMime_nil_iff (hne : mime ≠ []) (hmem : mime ∉ av) :
    chooseMime av mime = [] ↔ av = [] ∨ av.find? (akin mime) = some [] := by
  constructor
  · intro h
    by_cases hav : av = []
    · exact .inl hav
    · have hnil : [] ∈ av := h ▸ chooseMime_mem hav mime
      have hfound : (av.find? (akin mime)).isSome := List.find?_isSome.mpr ⟨[], hnil, akin_nil mime⟩
      obtain ⟨m, hm⟩ := Option.isSome_iff_exists.mp hfound
      exact .inr (hm.trans (congrArg some ((chooseMime_akin hne hmem hm).symm.trans h)))
  · rintro (rfl | hnil)
    · exact chooseMime_nil mime
    · exact chooseMime_akin hne hmem hnil

theorem suits_iff (hne : mime ≠ []) : Suits mime av ↔ mime ∈ av ∨ chooseMime av mime = [] := by
  by_cases hmem : mime ∈ av
  · exact ⟨fun _ => .inl hmem, fun _ => .inl hmem⟩
  · rw [Suits, chooseMime_nil_iff hne hmem]

end Choice

/-! ## What the owner is asked for -/

/-- How the owner of the selection is asked: for an offer of the compositor, as a request on the
wire or through a proxy, or by a conversion. -/
inductive Owner
  | wire (offer : UInt32)
  | proxy (offer : Proxy)
  | window (x : X11.Connection)

/-- Between the two points of the run the owner was asked once, and for the payload as this type. -/
def Owner.AskedFor (mime : Text) (before after : Process) : Owner → Prop
  | .wire offer => after.queued = before.queued ++ (Request.receive mime).encode offer
  | .proxy offer => after.observe Action.asked = before.observe Action.asked ++ [(offer, mime)]
  | .window x => ∃ target p, X11.targetAtom x.atoms mime before = (.ok target, p) ∧
      after.observe Action.converts = before.observe Action.converts ++ [target]

namespace Handcrafted

def Queued (bytes : List UInt8) (cl : Client PasteState) : Prop := cl.queued = bytes

variable {bytes : List UInt8}

theorem sys_queued {α : Type} {p : Prog Halt Process α}
    (h : Within (Process.Logs Action.Silent) p) : Keeps (Queued bytes) (Client.sys p) := by
  have hconn : Within (fun c c' : Connection => c'.queued = c.queued) (Connection.sys p) :=
    fun c => (h c.toProcess).observe_eq fun _ ha => ha.io.queued
  exact (Client.onConn_within hconn).keeps fun _ _ hsame hcl => hsame.1.trans hcl

theorem flush_queued : Keeps (Queued bytes) (Client.onConn Connection.flush) := by
  have hconn : Within (fun c c' : Connection => c'.queued = c.queued) Connection.flush := fun c =>
    (Connection.flush_moves c).observe_eq fun _ ha => by cases ha <;> rfl
  exact (Client.onConn_within hconn).keeps fun _ _ hsame hcl => hsame.1.trans hcl

theorem fetch_asks (offer : UInt32) (mime : Text) (available : List Text) :
    Triple (Queued bytes) (fetch offer mime available)
      (fun r cl => r.1 = true →
        r.2.mime = mime ∧ Queued (bytes ++ (Request.receive mime).encode offer) cl)
      (fun _ _ => True) := by
  apply Triple.bind (sys_queued Process.makePipe_silent).returns
  rintro (_ | ⟨readEnd, writeEnd⟩)
  · exact Triple.pure _ fun _ _ => nofun
  apply Triple.bind (Q := fun _ => Queued (bytes ++ (Request.receive mime).encode offer))
  · intro cl hcl
    rw [send_eq]
    simp only [Queued, Process.queued, Process.observe, List.flatMap_append] at hcl ⊢
    rw [hcl, List.flatMap_singleton]
    rfl
  intro _
  apply Triple.bind (Q := fun _ => Queued (bytes ++ (Request.receive mime).encode offer))
  · intro cl hcl
    rw [outFd_eq]
    simp only [Queued, Process.queued, Process.observe, List.flatMap_append] at hcl ⊢
    rw [hcl]
    exact List.append_nil _
  intro _
  apply Triple.bind flush_queued.returns
  intro _
  apply Triple.bind (sys_queued (Process.drainFd_silent readEnd)).returns
  intro got
  apply Triple.bind (sys_queued (Process.close_silent readEnd)).returns
  exact fun _ => Triple.pure _ fun _ hcl _ => ⟨rfl, hcl⟩

end Handcrafted

namespace Libwayland

variable {σ : Type} {asked : List (Proxy × Text)}

def Requested (asked : List (Proxy × Text)) (l : Listening σ) : Prop :=
  l.observe Action.asked = asked

theorem sys_requested {α : Type} {p : Prog Halt Process α}
    (h : Within (Process.Logs Action.Silent) p) :
    Triple (Requested (σ := σ) asked) (Listening.sys p) (fun _ => Requested asked)
      fun _ _ => True := by
  have hlogs : Within (Listening.Logged (σ := σ) Action.Silent) (Listening.sys p) :=
    Listening.onState_logged (State.sys_logged h)
  refine (hlogs.keeps fun l l' hlogged hl => ?_).returns
  exact (Process.Logs.observe_eq hlogged fun _ ha => by cases ha <;> rfl).trans hl

theorem request_requested (r : WlRequest) :
    Triple (Requested (σ := σ) asked) (Listening.request r)
      (fun _ => Requested (asked ++ Action.asked (.request r))) fun _ _ => True := by
  intro l hl
  rw [request_eq]
  simp only [Requested, Process.observe, Process.after, List.flatMap_append] at hl ⊢
  rw [hl, List.flatMap_singleton]

theorem destroyOffers_requested (offers : List PendingOffer) :
    Triple (Requested (σ := σ) asked) (destroyOffers offers) (fun _ => Requested asked)
      fun _ _ => True := by
  intro l hl
  rw [destroyOffers_eq]
  have hnone : (offers.map fun o => Action.request (.destroyOffer o.proxy)).flatMap Action.asked =
      [] := by
    simp [Action.asked]
  simp only [Requested, Process.observe, Process.after, List.flatMap_append] at hl ⊢
  rw [hl, hnone, List.append_nil]

theorem fetch_asks (offer : PendingOffer) (mime : Text) (offers : List PendingOffer) :
    Triple (Requested (σ := σ) asked) (fetch offer mime offers)
      (fun r l => r.1 = true → r.2.mime = mime ∧ Requested (asked ++ [(offer.proxy, mime)]) l)
      (fun _ _ => True) := by
  apply Triple.bind (sys_requested Process.makePipe_silent)
  rintro (_ | ⟨readEnd, writeEnd⟩)
  · exact Triple.bind (request_requested _) fun _ => Triple.pure _ fun _ _ => nofun
  apply Triple.bind (request_requested _)
  intro _
  apply Triple.bind (sys_requested (Process.close_silent writeEnd))
  intro _
  apply Triple.bind (sys_requested (Process.drainFd_silent readEnd))
  intro got
  apply Triple.bind (destroyOffers_requested offers)
  intro _
  apply Triple.bind (request_requested .destroyDevice)
  intro _
  apply Triple.bind (sys_requested (Process.close_silent readEnd))
  intro _
  exact Triple.pure _ fun l hl _ => ⟨rfl, hl.trans (List.append_nil _)⟩

end Libwayland

namespace X11

theorem askData_true {x : Connection} {selatom : Atom} {mime : Text} {p q : Process}
    (h : askData x selatom mime p = (.ok true, q)) :
    ∃ target p', targetAtom x.atoms mime p = (.ok target, p') ∧
      q.observe Action.converts = p.observe Action.converts ++ [target] := by
  unfold askData at h
  split_ifs at h with hmime
  · cases h
  obtain ⟨target, p', htarget, h⟩ := bind_eq_ok h
  split_ifs at h with hzero
  · cases h
  have hasks := requestAndWait_asks x selatom target p'
  have hsame := (silent_calls.targetAtom x.atoms mime p).observe_eq (f := Action.converts)
    fun _ ha => ha
  rw [h] at hasks
  rw [htarget] at hsame
  exact ⟨target, p', htarget, hasks.trans (congrArg (· ++ [target]) hsame)⟩

end X11

/-! ## Coming to choose -/

namespace HandcraftedBackend

open Handcrafted

structure Finds (display seat : Text) (sel : Selection) (p : Process) (cl : Client PasteState)
    (o : OfferRec) : Prop where
  reached : ∃ cl₀, pasteSetup display seat sel (Client.new p .new) = (.ok true, cl₀) ∧
    Client.dispatchUntil (haveTarget sel) pasteDispatcher cl₀ = (.ok true, cl)
  named : target sel cl.st ≠ 0
  known : cl.st.offers.find? (fun o => o.id = target sel cl.st) = some o

def taken (offer : UInt32) (mimes : List Text) (preferMime : Text) :
    Prog Halt (Client PasteState) (Bool × PasteResult) :=
  if chooseMime mimes preferMime = [] then return (false, ⟨[], [], mimes⟩)
  else fetch offer (chooseMime mimes preferMime) mimes

theorem Finds.takes {display seat : Text} {sel : Selection} {preferMime : Text} {p : Process}
    {cl : Client PasteState} {o : OfferRec} (h : Finds display seat sel p cl o) :
    pasteClient display seat sel preferMime false (Client.new p .new) =
      taken (target sel cl.st) o.mimes preferMime cl := by
  obtain ⟨cl₀, hsetup, hawait⟩ := h.reached
  rw [pasteClient, bind_ok hsetup, if_pos rfl, pasteReceive, bind_ok hawait, if_pos rfl]
  simp only [take, taken, bind_apply, Prog.read_apply, h.named, if_false, h.known,
    Bool.false_eq_true]

end HandcraftedBackend

namespace X11Backend

open X11

def ask (x : X11.Connection) (sel : Selection) (mimes : List Text) (preferMime : Text) :
    Prog Halt Process (Bool × PasteResult) := do
  if ← askData x (selectionAtom x.atoms sel) (chooseMime mimes preferMime) then
    let bytes ← readProperty x
    return (true, ⟨chooseMime mimes preferMime, bytes, mimes⟩)
  else return (false, ⟨[], [], mimes⟩)

theorem ask_nil (x : X11.Connection) (sel : Selection) {mimes : List Text} {preferMime : Text}
    (h : chooseMime mimes preferMime = []) (p : Process) :
    ask x sel mimes preferMime p = (.ok (false, ⟨[], [], mimes⟩), p) := by
  have hdata : askData x (selectionAtom x.atoms sel) (chooseMime mimes preferMime) p =
      (.ok false, p) := by
    rw [askData, if_pos h]
    rfl
  rw [ask, bind_ok hdata]
  rfl

def taken (x : X11.Connection) (sel : Selection) (mimes : List Text) (preferMime : Text) :
    Prog Halt Process (Bool × PasteResult) := do
  let r ← ask x sel mimes preferMime
  destroy x
  return r

theorem paste_takes {display preferMime : Text} {sel : Selection} {p pc before : Process}
    {x : X11.Connection} {av : List Text} (hconnect : connect display p = (.ok (some x), pc))
    (htargets : askTargets x (selectionAtom x.atoms sel) pc = (.ok (some av), before)) :
    paste display sel preferMime false p = taken x sel av preferMime before := by
  have hfrom : pasteFrom x sel preferMime false pc = ask x sel av preferMime before := by
    rw [pasteFrom, bind_ok htargets]
    rfl
  rw [paste, bind_ok hconnect]
  dsimp only
  rw [bind_apply, hfrom, taken, bind_apply]

end X11Backend

namespace PasteCommand

/-- A command on libwayland that has opened the connection and has a seat and a backend. -/
structure Opens (common : CommonOptions) (kind : BackendKind) (p : Process) (seat : SeatInfo)
    (backend : Backend) (s : State) : Prop where
  branch : CopyCommand.branch kind = .libwayland
  opened : ∃ s₀ s₁, State.connect common.display (State.new p) = (.ok true, s₀) ∧
    State.initialSync s₀ = (.ok (), s₁) ∧ State.pickSeat common.seat s₁ = (.ok (some seat), s)
  backend : makeBackend s kind = some backend

/-- From `p` on the command comes to choose among the types `av`, and asks the owner after
`before`. -/
inductive Chooses (common : CommonOptions) :
    List Text → BackendKind → Process → Owner → Process → Prop
  | handcrafted {p cl o}
      (h : HandcraftedBackend.Finds common.display common.seat common.selection p cl o) :
      Chooses common o.mimes .handcraftedControl p
        (.wire (Handcrafted.target common.selection cl.st)) cl.toProcess
  | x11 {p pc before x av} (hconnect : X11.connect common.display p = (.ok (some x), pc))
      (htargets : X11.askTargets x (X11.selectionAtom x.atoms common.selection) pc =
        (.ok (some av), before)) :
      Chooses common av .x11 p (.window x) before
  | dataControl {kind p seat s l offer} (hopens : Opens common kind p seat .dataControl s)
      (h : DataControlBackend.Finds seat common.selection s l offer) :
      Chooses common offer.mimes kind p (.proxy offer.proxy) l.toProcess
  | dataDevice {kind p seat s l offer} (hopens : Opens common kind p seat .dataDevice s)
      (h : DataDeviceBackend.Finds seat common.selection s l offer) :
      Chooses common offer.mimes kind p (.proxy offer.proxy) l.toProcess

variable {common : CommonOptions} {o : PasteOpts} {kind : BackendKind} {p before : Process}
  {owner : Owner} {av : List Text}

theorem Opens.receives {seat : SeatInfo} {backend : Backend} {s : State}
    (h : Opens common kind p seat backend s) :
    receive common o kind p = ((backend.paste common seat o.type o.listTypes s).1,
      (backend.paste common seat o.type o.listTypes s).2.toProcess) := by
  obtain ⟨s₀, s₁, hconnect, hsync, hseat⟩ := h.opened
  simp only [receive, h.branch, receiveLibwayland, State.run, Prog.zoom_apply, bind_ok hconnect,
    if_true, bind_ok hsync, bind_ok hseat, bind_apply, Prog.read_apply, id_eq, h.backend]

/-- What a paste does when it has come to choose: it fails where there is no choice, and where it
returns `true` it has asked for the choice, which it reports. -/
structure Follows (mime : Text) (owner : Owner) (before : Process)
    (received : Except Halt (Bool × PasteResult) × Process) : Prop where
  refused : mime = [] → ∃ out, received.1 = .ok (false, out)
  asked : ∀ out, received.1 = .ok (true, out) →
    out.mime = mime ∧ owner.AskedFor mime before received.2

theorem Follows.handcrafted {display seat preferMime : Text} {sel : Selection}
    {cl : Client PasteState} {r : OfferRec}
    (h : HandcraftedBackend.Finds display seat sel p cl r) :
    Follows (chooseMime r.mimes preferMime) (.wire (Handcrafted.target sel cl.st)) cl.toProcess
      (HandcraftedBackend.paste display seat sel preferMime false p) := by
  have htakes : Handcrafted.pasteClient display seat sel preferMime false (Client.new p .new) = _ :=
    h.takes
  have hrun : (HandcraftedBackend.paste display seat sel preferMime false p).1 =
      (HandcraftedBackend.taken (Handcrafted.target sel cl.st) r.mimes preferMime cl).1 := by
    rw [HandcraftedBackend.paste, Client.run, htakes]
    rcases HandcraftedBackend.taken (Handcrafted.target sel cl.st) r.mimes preferMime cl with
      ⟨e | out, cl'⟩ <;> rfl
  have hqueued : (HandcraftedBackend.paste display seat sel preferMime false p).2.queued =
      (HandcraftedBackend.taken (Handcrafted.target sel cl.st) r.mimes preferMime cl).2.queued := by
    rw [← htakes]
    exact Client.observe_run (fun _ => rfl) _ _ p
  constructor
  · intro hnil
    rw [hrun, HandcraftedBackend.taken, if_pos hnil]
    exact ⟨_, rfl⟩
  · intro out hout
    rw [hrun] at hout
    simp only [Owner.AskedFor, hqueued]
    unfold HandcraftedBackend.taken at hout ⊢
    split_ifs at hout ⊢ with hnil
    · cases hout
    · have hasks := Handcrafted.fetch_asks (Handcrafted.target sel cl.st)
        (chooseMime r.mimes preferMime) r.mimes cl rfl
      rcases hfetch : Handcrafted.fetch (Handcrafted.target sel cl.st)
        (chooseMime r.mimes preferMime) r.mimes cl with ⟨e | r', cl'⟩ <;> rw [hfetch] at hout hasks
      · cases hout
      · cases hout
        exact hasks rfl

theorem Follows.libwayland {σ : Type} (preferMime : Text) (offer : Libwayland.PendingOffer)
    (offers : List Libwayland.PendingOffer) (l : Listening σ) :
    Follows (chooseMime offer.mimes preferMime) (.proxy offer.proxy) l.toProcess
      ((Libwayland.taken offer preferMime offers l).1,
        (Libwayland.taken offer preferMime offers l).2.toProcess) := by
  unfold Libwayland.taken
  split_ifs with hnil
  · exact ⟨fun _ => ⟨_, rfl⟩, nofun⟩
  · refine ⟨fun h => absurd h hnil, fun out hout => ?_⟩
    have hasks := Libwayland.fetch_asks offer (chooseMime offer.mimes preferMime) offers l rfl
    rcases hfetch : Libwayland.fetch offer (chooseMime offer.mimes preferMime) offers l with
      ⟨e | r, l'⟩ <;> rw [hfetch] at hout hasks
    · cases hout
    · cases hout
      exact hasks rfl

theorem Follows.x11 {display preferMime : Text} {sel : Selection} {pc : Process}
    {x : X11.Connection} (hconnect : X11.connect display p = (.ok (some x), pc))
    (htargets : X11.askTargets x (X11.selectionAtom x.atoms sel) pc = (.ok (some av), before)) :
    Follows (chooseMime av preferMime) (.window x) before
      (X11Backend.paste display sel preferMime false p) := by
  rw [X11Backend.paste_takes hconnect htargets]
  constructor
  · intro hnil
    rw [X11Backend.taken, bind_ok (X11Backend.ask_nil x sel hnil before)]
    exact ⟨_, rfl⟩
  · intro out hout
    rcases hrun : X11Backend.taken x sel av preferMime before with ⟨e | r, q⟩ <;> rw [hrun] at hout
    · cases hout
    cases hout
    obtain ⟨r, q₁, hask, hrun⟩ := bind_eq_ok hrun
    obtain ⟨_, q₂, hdestroy, hrun⟩ := bind_eq_ok hrun
    cases hrun
    obtain ⟨ok, q₃, hdata, hask⟩ := bind_eq_ok hask
    cases ok with
    | false => cases hask
    | true =>
        obtain ⟨bytes, q₄, hread, hask⟩ := bind_eq_ok hask
        cases hask
        obtain ⟨target, p', htarget, hasked⟩ := X11.askData_true hdata
        refine ⟨rfl, target, p', htarget, ?_⟩
        have hread' : q₁.observe Action.converts = q₃.observe Action.converts :=
          ((X11.silent_calls.readProperty x).of_eq hread).observe_eq fun _ ha => ha
        have hend : q.observe Action.converts = q₁.observe Action.converts :=
          ((X11.destroy_silent x).of_eq hdestroy).observe_eq fun _ ha => ha
        exact hend.trans (hread'.trans hasked)

theorem Chooses.receives
    {Q : Text → Owner → Process → Except Halt (Bool × PasteResult) × Process → Prop}
    (h : Chooses common av kind p owner before) (hlist : o.listTypes = false)
    (handcrafted : ∀ {cl : Client PasteState} {r : OfferRec},
      HandcraftedBackend.Finds common.display common.seat common.selection p cl r →
      Q (chooseMime r.mimes o.type) (.wire (Handcrafted.target common.selection cl.st)) cl.toProcess
        (HandcraftedBackend.paste common.display common.seat common.selection o.type false p))
    (x11 : ∀ {pc : Process} {x : X11.Connection},
      X11.connect common.display p = (.ok (some x), pc) →
      X11.askTargets x (X11.selectionAtom x.atoms common.selection) pc = (.ok (some av), before) →
      Q (chooseMime av o.type) (.window x) before
        (X11Backend.paste common.display common.selection o.type false p))
    (libwayland : ∀ {σ : Type} (offer : Libwayland.PendingOffer)
      (offers : List Libwayland.PendingOffer) (l : Listening σ),
      Q (chooseMime offer.mimes o.type) (.proxy offer.proxy) l.toProcess
        ((Libwayland.taken offer o.type offers l).1,
          (Libwayland.taken offer o.type offers l).2.toProcess)) :
    Q (chooseMime av o.type) owner before (receive common o kind p) := by
  cases h with
  | handcrafted h =>
      simp only [receive, hlist]
      exact handcrafted h
  | x11 hconnect htargets =>
      simp only [receive, hlist]
      exact x11 hconnect htargets
  | dataControl hopens h =>
      rw [hopens.receives, hlist, Backend.paste, h.takes]
      exact libwayland ..
  | dataDevice hopens h =>
      rw [hopens.receives, hlist, Backend.paste, h.takes]
      exact libwayland ..

theorem Chooses.follows (h : Chooses common av kind p owner before) (hlist : o.listTypes = false) :
    Follows (chooseMime av o.type) owner before (receive common o kind p) :=
  h.receives hlist Follows.handcrafted Follows.x11 (Follows.libwayland o.type)

/-! ## The type given -/

/-- The type given is honoured: a paste that succeeds has asked for it and reports it, and where it
is not on offer the command fails and writes nothing. -/
structure Honours (mime : Text) (av : List Text) (owner : Owner) (before : Process)
    (received : Except Halt (Bool × PasteResult) × Process)
    (run : Except Halt ℕ × Process) : Prop where
  taken : ∀ out, received.1 = .ok (true, out) →
    out.mime = mime ∧ owner.AskedFor mime before received.2
  refused : mime ∉ av → run.1 = .ok 1 ∧ run.2.output = []

/-- Every command that is told the type, on any backend and whatever it is answered, honours it
when it comes to choose among these types. -/
def Exact (mime : Text) (av : List Text) : Prop :=
  ∀ (common : CommonOptions) (args : List Text) (o : PasteOpts) (kind : BackendKind)
    (p before : Process) (owner : Owner), parse args .new = some o → o.type = mime →
    o.listTypes = false → parseBackendKind common.backend = some kind → p.trace = [] →
    Chooses common av kind p owner before →
    Honours mime av owner before (receive common o kind p) (runPaste common args p)

theorem runPaste_failed {args : List Text} {out : PasteResult}
    (hparse : parse args .new = some o) (hkind : parseBackendKind common.backend = some kind)
    (hp : p.trace = []) (h : (receive common o kind p).1 = .ok (false, out)) :
    (runPaste common args p).1 = .ok 1 ∧ (runPaste common args p).2.output = [] := by
  have hreceive : receive common o kind p = (.ok (false, out), (receive common o kind p).2) := by
    rw [← h]
  have hrun : runPaste common args p = (.ok 1, (receive common o kind p).2) := by
    simp only [runPaste, hparse, hkind, bind_ok hreceive]
    rfl
  have houtput := receive_output common o kind p
  rw [hrun]
  refine ⟨rfl, houtput.trans ?_⟩
  rw [Process.output, Process.observe, hp]
  rfl

theorem exact_of_suits {mime : Text} (hne : mime ≠ []) (h : Suits mime av) : Exact mime av := by
  intro common args o kind p before owner hparse htype hlist hkind hp hchooses
  have hfollows : Follows (chooseMime av o.type) owner before (receive common o kind p) :=
    hchooses.follows hlist
  rw [htype] at hfollows
  rcases (suits_iff hne).mp h with hmem | hnil
  · rw [chooseMime_self hne hmem] at hfollows
    exact ⟨hfollows.asked, fun hout => absurd hmem hout⟩
  · obtain ⟨out, hfailed⟩ := hfollows.refused hnil
    refine ⟨fun out' hout' => ?_, fun _ => runPaste_failed hparse hkind hp hfailed⟩
    cases hfailed.symm.trans hout'

open DataControlBackend (eventReply)

def offered (av : List Text) : Process :=
  .fresh (.displayConnect true :: .displayRoundtrip [.global 1 kIfWlSeat 8,
    .global 2 kIfZwlrMgr 2] true :: .displayRoundtrip [] true ::
      ((shown .regular 0xff000000 av).map eventReply ++
        [.pipe (.ok (7, 8)), .read (.ok [])]))

def controlOptions : CommonOptions := ⟨[], [], text "wlr", false⟩

theorem offered_opens (av : List Text) : ∃ s, Opens controlOptions .dataControl (offered av)
    plainSeat .dataControl s ∧ s.zwlrManager = true ∧
      s.script = (shown .regular 0xff000000 av).map eventReply ++
        [.pipe (.ok (7, 8)), .read (.ok [])] :=
  ⟨_, ⟨rfl, ⟨_, _, rfl, rfl, rfl⟩, rfl⟩, rfl, rfl⟩

theorem offered_finds {s : State} (hmanager : s.zwlrManager = true)
    (hs : s.script = (shown .regular 0xff000000 av).map eventReply ++
      [.pipe (.ok (7, 8)), .read (.ok [])]) :
    ∃ l, DataControlBackend.Finds plainSeat .regular s l ⟨(0xff000000 : UInt32).toNat, av⟩ ∧
      l.script = [.pipe (.ok (7, 8)), .read (.ok [])] := by
  obtain ⟨hprocessed, hsettled, hchoice⟩ := shown_run .regular 0xff000000 av
  let l₀ : Listening DataControlBackend.PasteState := Libwayland.watching plainSeat .new s
  have hscript : l₀.script =
      (Offers.State.processed .regular .initial (shown .regular 0xff000000 av)).map eventReply ++
        [.pipe (.ok (7, 8)), .read (.ok [])] := by
    rw [hprocessed]
    exact hs
  have hid : OfferId 0xff000000 := by
    rw [OfferId]
    decide
  have hfresh : ∀ o ∈ (Offers.State.initial : Tracked).offers, OfferId o.1 := List.forall_mem_nil _
  obtain ⟨l, hsees, hwatched⟩ := DataControlBackend.awaitTarget_run
    (DataControlBackend.sees_new .regular) hfresh (shown_valid hid .regular av) hscript
  rw [hprocessed] at hsees
  have hreached := hwatched.run.trans (DataControlBackend.awaitTarget_settled hsees hsettled)
  refine ⟨l, ⟨hmanager, by simp, hreached, ?_⟩, hwatched.script⟩
  rw [hsees.chosen, hchoice]
  rfl

/-- Where the types on offer do not suit the type given, a paste of another type succeeds. -/
theorem suits_of_exact {mime : Text} (hne : mime ≠ []) (h : Exact mime av) : Suits mime av := by
  by_contra hnot
  obtain ⟨hmem, hchosen⟩ := not_or.mp (mt (suits_iff hne).mpr hnot)
  obtain ⟨s, hopens, hmanager, hs⟩ := offered_opens av
  obtain ⟨l, hfinds, hscript⟩ := offered_finds hmanager hs
  have hhonours := h controlOptions [text "-t", mime] ⟨mime, false, false⟩ .dataControl
    (offered av) l.toProcess _ rfl rfl rfl rfl rfl (.dataControl hopens hfinds)
  have hreceived : (receive controlOptions ⟨mime, false, false⟩ .dataControl (offered av)).1 =
      .ok (true, ⟨chooseMime av mime, [], av⟩) := by
    have hpaste : (receive controlOptions ⟨mime, false, false⟩ .dataControl (offered av)).1 =
        (DataControlBackend.paste plainSeat .regular mime false s).1 :=
      congrArg Prod.fst hopens.receives
    rw [hpaste, hfinds.takes, Libwayland.taken, if_neg hchosen]
    exact Libwayland.fetch_returns .eof hscript
  have hmime := (hhonours.taken _ hreceived).1
  have hav : av ≠ [] := fun hnil => hchosen (hnil ▸ chooseMime_nil mime)
  exact hmem (hmime ▸ chooseMime_mem hav mime)

/-- A paste that is told a type asks for that type or fails, exactly if the type is among those on
offer, or none is on offer, or the first on offer that is akin to it is empty. -/
theorem exact_iff {mime : Text} (hne : mime ≠ []) (av : List Text) :
    Exact mime av ↔ Suits mime av :=
  ⟨suits_of_exact hne, exact_of_suits hne⟩

theorem exact_plain : Exact (text "text/plain") [text "text/html", text "text/plain"] :=
  (exact_iff (by decide) _).mpr (.inl (by decide))

/-- A short text is read to its end and written, and a newline after it. -/
def written : List Reply :=
  [.read (.ok [0x68, 0x69]), .read (.ok []), .write (.wrote 2), .write (.wrote 1)]

def plainControl : Process :=
  .fresh (.displayConnect true :: .displayRoundtrip [.global 1 kIfWlSeat 8,
    .global 2 kIfZwlrMgr 2] true :: .displayRoundtrip [] true ::
      .displayDispatch plainEvents true :: .pipe (.ok (7, 8)) :: written)

def plainDevice : Process :=
  .fresh (.displayConnect true :: .displayRoundtrip [.global 1 kIfWlSeat 8,
    .global 2 kIfWlMgr 3] true :: .displayRoundtrip [] true :: .poll (.ok (.ready true)) ::
      .displayDispatch plainEvents true :: .pipe (.ok (7, 8)) :: written)

def plainRaw : Process := HandcraftedBackend.requesting [.sendmsg (.ok 1000)] written

def plainWindow : Process :=
  .fresh (.xConnect (some (3, 42)) ::
    [300, 301, 302, 303, 304, 305, 306, 307, 308].map .xInternAtom ++
    [.clock 0, .xPollForEvent (some (.selectionNotify ⟨0, 42, 300, 301, 307⟩)),
      .xGetProperty (some ⟨X11.atomAtom, LittleEndian.u32Bytes X11.atomString, 0⟩),
      .clock 5, .xPollForEvent (some (.selectionNotify ⟨0, 42, 300, X11.atomString, 307⟩)),
      .xGetProperty (some ⟨X11.atomString, [0x68, 0x69], 0⟩),
      .write (.wrote 2), .write (.wrote 1)])

/-- The command is told an image type on the backend, succeeds and writes the text. -/
def WritesText (backend : Text) (p : Process) : Prop :=
  (runPaste ⟨[], [], backend, false⟩ [text "-t", text "image/png"] p).1 = .ok 0 ∧
    (runPaste ⟨[], [], backend, false⟩ [text "-t", text "image/png"] p).2.output =
      [0x68, 0x69, 0x0A]

/-- Where text is on offer only, a paste of an image writes the text, on every backend. -/
theorem image_pastes_text :
    ¬ Exact (text "image/png") [text "text/plain"] ∧ WritesText (text "wlr") plainControl ∧
    WritesText (text "wl") plainDevice ∧ WritesText (text "raw") plainRaw ∧
    WritesText (text "x11") plainWindow := by
  constructor
  · intro hexact
    have hsuits : Suits (text "image/png") [text "text/plain"] :=
      suits_of_exact (by decide) hexact
    revert hsuits
    unfold Suits
    decide
  · unfold WritesText
    exact ⟨by decide +kernel, by decide +kernel, by decide +kernel, by decide +kernel⟩

end PasteCommand

end WlClip
