import WlClip.SyncWait
import WlClip.X11Advertising
import WlClip.X11Conversions
import WlClip.XServer

/-!
# The clients of an X server

What a copy and a paste do to the server. An owner takes the events one by one and has replied to
each before it takes another; a requestor asks for conversions to its own window and reads the
properties of that only.
-/

open ScriptedProgram ScriptedProgram.Prog Interleaving

namespace WlClip

/-- The server may give something away with the answer. -/
def Call.takes : Call → Bool
  | .xWaitForEvent => true
  | .xPollForEvent => true
  | .xGetProperty _ _ _ _ => true
  | _ => false

/-- Makes the client known to the server, or a name. -/
def Call.introduces : Call → Bool
  | .xConnect _ => true
  | .xInternAtom _ => true
  | _ => false

/-- Leaves the server as it is. -/
def Action.Aside : Action → Prop
  | .call c r => c.takes = false ∨ r = .xWaitForEvent none ∨ r = .xPollForEvent none
  | .xRequest _ => False
  | _ => True

theorem Action.Aside.after {a : Action} (h : a.Aside) (s : XServer) (v : Window) :
    s.after v a = s := by
  cases a with
  | call c r =>
      rcases h with h | rfl | rfl
      · cases c <;> first | rfl | cases h
      · cases c <;> rfl
      · cases c <;> rfl
  | xRequest r => cases h
  | _ => rfl

def XRequest.Replies : XRequest → Prop
  | .changeProperty _ _ _ _ _ => True
  | .sendNotify _ _ => True
  | _ => False

namespace X11

inductive Peer
  | owner (ctx : CopyContext)
  | requestor

/-- An action of the client, and the replies that it has yet to make before and after. -/
inductive Takes (w : Window) : Peer → List XRequest → Action → List XRequest → Prop
  | aside {peer : Peer} {todo : List XRequest} {a : Action} (h : a.Aside) :
      Takes w peer todo a todo
  | event {ctx : CopyContext} {e : XEvent} :
      Takes w (.owner ctx) [] (.call .xWaitForEvent (.xWaitForEvent (some e)))
        (replies ctx (counted ctx.data.bytes) e)
  | reply {ctx : CopyContext} {r : XRequest} {todo : List XRequest} (h : r.Replies) :
      Takes w (.owner ctx) (r :: todo) (.xRequest r) todo
  | own {ctx : CopyContext} :
      Takes w (.owner ctx) [] (.xRequest (.setSelectionOwner w ctx.selatom)) []
  | destroy {peer : Peer} : Takes w peer [] (.xRequest (.destroyWindow w)) []
  | convert {selection target property : Atom} :
      Takes w .requestor [] (.xRequest (.convertSelection w selection target property)) []
  | poll {e : XEvent} :
      Takes w .requestor [] (.call .xPollForEvent (.xPollForEvent (some e))) []
  | read {name : Atom} {offset length : UInt32} {r : Option PropertyReply} :
      Takes w .requestor [] (.call (.xGetProperty w name offset length) (.xGetProperty r)) []

/-- The process has gone on as the client does, and has replied to all that it has taken. -/
def Goes (w : Window) (peer : Peer) (p q : Process) : Prop :=
  ∃ log, q.trace = p.trace ++ log ∧ Path (Takes w peer) [] log []

instance (w : Window) (peer : Peer) : IsPreorder Process (Goes w peer) where
  refl p := ⟨[], by simp, .nil []⟩
  trans p q r := by
    rintro ⟨log, htrace, hpath⟩ ⟨log', htrace', hpath'⟩
    exact ⟨log ++ log', by rw [htrace', htrace, List.append_assoc], hpath.append hpath'⟩

section

variable {w : Window} {peer : Peer} {p q : Process}

theorem Goes.of_logs (h : Process.Logs (fun a => Takes w peer [] a []) p q) : Goes w peer p q := by
  obtain ⟨log, htrace, -, hlog⟩ := h.log
  exact ⟨log, htrace, .stay hlog⟩

theorem Goes.of_aside (h : Process.Logs Action.Aside p q) : Goes w peer p q :=
  .of_logs (h.mono fun _ => .aside)

theorem aside_goes {α : Type} {prog : Prog Halt Process α}
    (h : Within (Process.Logs Action.Aside) prog) : Within (Goes w peer) prog :=
  h.mono fun _ _ => .of_aside

theorem ask_aside {α : Type} {c : Call} (hc : c.takes = false) (answer : Reply → Option α) :
    Within (Process.Logs Action.Aside) (Process.ask c answer) :=
  Process.ask_logs fun _ _ _ => .inl hc

theorem introduces_aside (c : Call) (r : Reply) (h : c.introduces = true) : (Action.call c r).Aside := by
  refine .inl ?_
  cases c <;> first | rfl | cases h

section

variable {A : Action → Prop}

theorem loadAtoms_logs (hA : ∀ c r, c.introduces = true → A (.call c r)) :
    Within (Process.Logs A) loadAtoms := by
  unfold loadAtoms
  repeat' first
    | exact Within.pure _
    | refine Within.bind (Process.ask_logs fun r _ _ => hA _ r rfl) fun _ => ?_

theorem connect_logs (hA : ∀ c r, c.introduces = true → A (.call c r)) (display : Text) :
    Within (Process.Logs A) (connect display) := by
  apply Within.bind (Process.ask_logs fun r _ _ => hA _ r rfl)
  rintro (_ | ⟨fd, window⟩)
  · exact Within.pure _
  · exact Within.bind (loadAtoms_logs hA) fun _ => Within.pure _

theorem internAll_logs (hA : ∀ c r, c.introduces = true → A (.call c r)) (mimes : List Text) :
    Within (Process.Logs A) (internAll mimes) := by
  induction mimes with
  | nil => exact Within.pure _
  | cons m mimes ih =>
      exact Within.bind (Process.ask_logs fun r _ _ => hA _ r rfl) fun _ =>
        Within.bind ih fun _ => Within.pure _

theorem buildTargets_logs (hA : ∀ c r, c.introduces = true → A (.call c r)) (a : Atoms)
    (mimes : List Text) : Within (Process.Logs A) (buildTargets a mimes) :=
  Within.bind (internAll_logs hA _) fun _ => Within.pure _

end

theorem loadAtoms_aside : Within (Process.Logs Action.Aside) loadAtoms :=
  loadAtoms_logs introduces_aside

theorem connect_aside (display : Text) : Within (Process.Logs Action.Aside) (connect display) :=
  connect_logs introduces_aside display

theorem buildTargets_aside (a : Atoms) (mimes : List Text) :
    Within (Process.Logs Action.Aside) (buildTargets a mimes) :=
  buildTargets_logs introduces_aside a mimes

theorem xRequest_goes {r : XRequest} (h : Takes w peer [] (.xRequest r) []) :
    Within (Goes w peer) (Process.xRequest r) :=
  (Process.record_logs h rfl).mono fun _ _ => .of_logs

end

/-! ## What the server tells -/

/-- What the server has told the client of the window. -/
structure ServedBy (t : AtomTable) (w : Window) (p : Process) : Prop where
  window : ∀ display fd v, .call (.xConnect display) (.xConnect (some (fd, v))) ∈ p.trace → v = w
  interned : ∀ name atom, .call (.xInternAtom name) (.xInternAtom atom) ∈ p.trace →
    t.names name ∧ atom = t.atomOf name
  named : ∀ atom name, .call (.xGetAtomName atom) (.xGetAtomName name) ∈ p.trace →
    name = t.nameOf atom

variable {t : AtomTable} {w : Window} {p q : Process}

theorem ServedBy.before (h : ServedBy t w q) (hlater : ∃ log, q.trace = p.trace ++ log) :
    ServedBy t w p := by
  obtain ⟨log, htrace⟩ := hlater
  have hmem : ∀ a ∈ p.trace, a ∈ q.trace := fun a ha => htrace ▸ List.mem_append_left log ha
  exact ⟨fun _ _ _ ha => h.window _ _ _ (hmem _ ha), fun _ _ ha => h.interned _ _ (hmem _ ha),
    fun _ _ ha => h.named _ _ (hmem _ ha)⟩

theorem ServedBy.assigned (h : ServedBy t w p) : AssignedBy t.atomOf p :=
  fun name atom ha => (h.interned name atom ha).2

/-- A log that the server allows tells each client what the server knows. -/
theorem servedBy_of_conforms {s : XServer} {log : List (Window × Action)} {after : List Action}
    (h : (XServer.environment t).Conforms s log) (hlog : logOf w log = p.trace ++ after) :
    ServedBy t w p := by
  have hallows : ∀ {s : XServer} {log : List (Window × Action)},
      (XServer.environment t).Conforms s log → ∀ x ∈ log, ∃ s', XServer.Allows t s' x.1 x.2 := by
    intro s log
    induction log generalizing s with
    | nil => exact fun _ _ => nofun
    | cons x log ih =>
        rintro ⟨hx, hrest⟩ y (_ | ⟨_, hy⟩)
        · exact ⟨s, hx⟩
        · exact ih hrest y hy
  have hserver : ∀ a ∈ p.trace, ∃ s', XServer.Allows t s' w a := by
    intro a ha
    have hmem : a ∈ logOf w log := hlog ▸ List.mem_append_left _ ha
    exact hallows h _ (mem_logOf.mp hmem)
  constructor
  · intro display fd v ha
    obtain ⟨s', hs'⟩ := hserver _ ha
    exact hs' fd v rfl
  · intro name atom ha
    obtain ⟨s', hs'⟩ := hserver _ ha
    exact hs'
  · intro atom name ha
    obtain ⟨s', hs'⟩ := hserver _ ha
    exact hs'

/-! ## Interning -/

/-- The server was asked for the names. -/
def Interned (names : List Text) (p : Process) : Prop :=
  ∀ n ∈ names, ∃ atom, .call (.xInternAtom n) (.xInternAtom atom) ∈ p.trace

theorem internAtom_interned (names : List Text) (name : Text) :
    Triple (Interned names) (internAtom name) (fun _ => Interned (names ++ [internName name]))
      (fun _ _ => True) := by
  refine Triple.intro ?_ fun _ _ _ _ _ => trivial
  intro p atom q hp h
  obtain ⟨r, rest, -, ha, rfl⟩ := Process.ask_ok h
  intro n hn
  rcases List.mem_append.mp hn with hn | hn
  · obtain ⟨atom', hmem⟩ := hp n hn
    exact ⟨atom', List.mem_append_left _ hmem⟩
  · obtain rfl := List.mem_singleton.mp hn
    cases r with
    | xInternAtom atom' => exact ⟨atom', List.mem_append_right _ List.mem_cons_self⟩
    | _ => cases ha

theorem loadAtoms_interned :
    Triple (Interned []) loadAtoms (fun _ => Interned loaded) (fun _ _ => True) := by
  apply Triple.bind (internAtom_interned _ (text "CLIPBOARD"))
  intro clipboard
  apply Triple.bind (internAtom_interned _ (text "TARGETS"))
  intro targets
  apply Triple.bind (internAtom_interned _ (text "TIMESTAMP"))
  intro timestamp
  apply Triple.bind (internAtom_interned _ (text "MULTIPLE"))
  intro multiple
  apply Triple.bind (internAtom_interned _ (text "INCR"))
  intro incr
  apply Triple.bind (internAtom_interned _ (text "UTF8_STRING"))
  intro utf8String
  apply Triple.bind (internAtom_interned _ (text "TEXT"))
  intro textAtom
  apply Triple.bind (internAtom_interned _ (text "WLCLIP_SELECTION"))
  intro wlSelection
  apply Triple.bind (internAtom_interned _ (text "_NET_WM_NAME"))
  intro netWmName
  exact Triple.pure _ fun _ h => h

theorem internAll_interned (names mimes : List Text) : Triple (Interned names) (internAll mimes)
    (fun _ => Interned (names ++ mimes.map internName)) (fun _ _ => True) := by
  induction mimes generalizing names with
  | nil =>
      apply Triple.pure
      intro p h
      rwa [List.map_nil, List.append_nil]
  | cons m mimes ih =>
      apply Triple.bind (internAtom_interned names m)
      intro atom
      apply Triple.bind (ih _)
      intro ts
      apply Triple.pure
      intro p h
      rwa [List.append_assoc] at h

theorem connect_known {display : Text} {x : Connection}
    (h : connect display p = (.ok (some x), q)) (hserved : ServedBy t w q) :
    x.window = w ∧ x.atoms = atomsOf t.atomOf ∧ ∀ n ∈ loaded, t.names n := by
  have hatoms := connect_told h hserved.assigned
  obtain ⟨r, p₁, hask, hload⟩ := bind_eq_ok h
  rcases r with _ | ⟨fd, window⟩
  · cases hload
  obtain ⟨atoms, p₂, hatoms', hret⟩ := bind_eq_ok hload
  cases hret
  have hlogs : Process.Logs Action.Aside p₁ q := loadAtoms_aside.of_eq hatoms'
  refine ⟨?_, hatoms, fun n hn => ?_⟩
  · obtain ⟨log, htrace, -⟩ := hlogs.log
    obtain ⟨reply, rest, -, ha, rfl⟩ := Process.ask_ok hask
    cases reply with
    | xConnect r =>
        cases ha
        refine (hserved.before ⟨log, htrace⟩).window display fd window ?_
        exact List.mem_append_right _ List.mem_cons_self
    | _ => cases ha
  · have hnone : Interned [] p₁ := List.forall_mem_nil _
    obtain ⟨atom, hmem⟩ := loadAtoms_interned.ok hatoms' hnone n hn
    exact (hserved.interned n atom hmem).1

/-! ## A copy -/

/-- What the owner of the window goes by, as the server has told it. -/
structure Owns (t : AtomTable) (w : Window) (sel : Selection) (data : CopyData) (ctx : CopyContext) :
    Prop where
  acquired : Acquired t.atomOf sel data ctx
  window : ctx.x.window = w
  advertised : Advertised ctx.targets
  loaded : ∀ n ∈ loaded, t.names n
  types : ∀ m ∈ named data.mimeTypes, t.names (internName m)

/-- A client that is an owner owns what the copy is of. -/
def Peer.Copies (t : AtomTable) (w : Window) (sel : Selection) (data : CopyData) (peer : Peer) :
    Prop :=
  ∀ ctx, peer = .owner ctx → Owns t w sel data ctx

theorem copies_requestor {sel : Selection} {data : CopyData} :
    Peer.requestor.Copies t w sel data := fun _ h => by cases h

section

variable {display : Text} {sel : Selection} {data : CopyData} {ctx : CopyContext}

theorem storing_eq (ctx : CopyContext) (payload : List UInt8) (req : SelectionRequest) :
    ∃ type format data, storing ctx payload req =
      .changeProperty req.requestor (replyProperty req) type format data := by
  unfold storing
  split_ifs
  · exact ⟨_, _, _, rfl⟩
  · exact ⟨_, _, _, rfl⟩
  · exact ⟨_, _, _, rfl⟩

theorem replies_path (todo : List XRequest) (h : ∀ r ∈ todo, r.Replies) :
    Path (Takes w (.owner ctx)) todo (todo.map .xRequest) [] := by
  induction todo with
  | nil => exact .nil _
  | cons r todo ih =>
      obtain ⟨hr, hrest⟩ := List.forall_mem_cons.mp h
      exact .cons (.reply hr) (ih hrest)

theorem replies_replies (payload : List UInt8) (e : XEvent) :
    ∀ r ∈ replies ctx payload e, r.Replies := by
  cases e with
  | selectionRequest req =>
      obtain ⟨type, format, data, hstoring⟩ := storing_eq ctx payload req
      rw [replies, reply, hstoring]
      split_ifs
      · simp [notification, XRequest.Replies]
      · simp [notification, XRequest.Replies]
  | _ => exact List.forall_mem_nil _

theorem serveRound_goes (hcount : ctx.targets.length < 2 ^ 32) (oneshot : Bool) (s : Serving) :
    Within (Goes w (.owner ctx)) (serveRound ctx oneshot s) := by
  obtain ⟨n, lost⟩ := s
  intro p
  cases lost
  · rcases next_event p.script with ⟨e, rest, hs⟩ | ⟨rest, hs⟩ | hs
    · rw [serveRound_event hcount n hs]
      exact ⟨_, rfl, .cons .event (replies_path _ (replies_replies _ e))⟩
    · rw [serveRound_closed n hs]
      exact ⟨_, rfl, .single (.aside (.inr (.inl rfl)))⟩
    · rw [serveRound_waiting n hs]
      exact refl p
  · exact refl p

theorem destroy_goes {peer : Peer} (x : Connection) : Within (Goes x.window peer) (destroy x) :=
  xRequest_goes .destroy

theorem serveAndRelease_goes (hcount : ctx.targets.length < 2 ^ 32) (oneshot : Bool) :
    Within (Goes ctx.x.window (.owner ctx)) (X11Backend.serveAndRelease ctx oneshot) :=
  Within.bind (Within.bind (Within.loop (fun s => serveRound_goes hcount oneshot s) _)
    fun _ => Within.pure _) fun _ => Within.bind (destroy_goes _) fun _ => Within.pure _

/-- A client that comes to own its selection goes by what it returns. -/
theorem acquireSelection_goes {r : Except Halt (Option CopyContext)}
    (h : acquireSelection display sel data p = (r, q)) (hserved : ServedBy t w q) :
    ∃ peer : Peer, peer.Copies t w sel data ∧ Goes w peer p q ∧
      ∀ ctx, r = .ok (some ctx) → peer = .owner ctx := by
  unfold acquireSelection at h
  split_ifs at h with hmimes
  · cases h
    exact ⟨.requestor, copies_requestor, refl _, by simp⟩
  rcases hconnect : connect display p with ⟨e | x, p₁⟩
  · rw [bind_error hconnect] at h
    cases h
    exact ⟨.requestor, copies_requestor, .of_aside ((connect_aside _).of_eq hconnect), by simp⟩
  rw [bind_ok hconnect] at h
  rcases x with _ | x
  · cases h
    exact ⟨.requestor, copies_requestor, .of_aside ((connect_aside _).of_eq hconnect), by simp⟩
  rcases hbuild : buildTargets x.atoms data.mimeTypes p₁ with ⟨e | targets, p₂⟩
  · cases (bind_error hbuild).symm.trans h
    have haside := (connect_aside _).of_eq hconnect
    exact ⟨.requestor, copies_requestor, .of_aside (haside.trans ((buildTargets_aside _ _).of_eq
      hbuild)), by simp⟩
  have h := (bind_ok hbuild).symm.trans h
  let ctx : CopyContext := ⟨x, targets, selectionAtom x.atoms sel, data⟩
  have hrest : Within (Goes x.window (.owner ctx)) (do
      Process.xRequest (.setSelectionOwner x.window ctx.selatom)
      let owner ← Process.xGetSelectionOwner ctx.selatom
      if owner = some x.window then return some ctx
      else
        destroy x
        return none) := by
    apply Within.bind (xRequest_goes .own)
    intro _
    apply Within.bind (aside_goes (ask_aside rfl _))
    intro owner
    exact Within.ite (Within.pure _) (Within.bind (destroy_goes _) fun _ => Within.pure _)
  have hgoes := hrest.of_eq h
  have hbefore : Process.Logs Action.Aside p p₂ :=
    ((connect_aside _).of_eq hconnect).trans ((buildTargets_aside _ _).of_eq hbuild)
  have hserved₂ : ServedBy t w p₂ := by
    obtain ⟨log, htrace, -⟩ := hgoes
    exact hserved.before ⟨log, htrace⟩
  obtain ⟨log, htrace, -⟩ := ((buildTargets_aside _ _).of_eq hbuild).log
  obtain ⟨rfl, hatoms, hloaded⟩ := connect_known hconnect (hserved₂.before ⟨log, htrace⟩)
  refine ⟨.owner ctx, ?_, IsTrans.trans _ _ _ (.of_aside hbefore) hgoes, ?_⟩
  · rintro _ ⟨⟩
    obtain ⟨interned, hintern, htargets⟩ := buildTargets_ok hbuild
    have hnone : Interned [] p₁ := List.forall_mem_nil _
    have hall := (internAll_told (φ := True) _).ok hintern (fun _ => trivial) hserved₂.assigned
    have hinterned := (internAll_interned [] _).ok hintern hnone
    refine ⟨⟨hatoms, ?_, by rw [← hatoms], rfl⟩, rfl, buildTargets_advertised hbuild, hloaded, ?_⟩
    · change targets = _
      rw [htargets, hall.2, hatoms]
      rfl
    · intro m hm
      obtain ⟨atom, hmem⟩ := hinterned (internName m) (List.mem_map_of_mem hm)
      exact (hserved₂.interned _ _ hmem).1
  · rintro ctx' rfl
    obtain ⟨_, p₃, -, h⟩ := bind_eq_ok h
    obtain ⟨owner, p₄, -, h⟩ := bind_eq_ok h
    split_ifs at h
    · cases h
      rfl
    · obtain ⟨_, p₅, -, h⟩ := bind_eq_ok h
      cases h

end

/-! ## A paste -/

theorem ask_goes {peer : Peer} {α : Type} {c : Call} {answer : Reply → Option α}
    (h : ∀ r a, answer r = some a → Takes w peer [] (.call c r) []) :
    Within (Goes w peer) (Process.ask c answer) :=
  (Process.ask_logs h).mono fun _ _ => .of_logs

theorem waitRound_goes (fd : Int) (start timeout : ℕ) :
    Within (Goes w .requestor) (waitRound fd start timeout ()) := by
  refine Within.bind (ask_goes fun r event hr => ?_) ?_
  · cases r with
    | xPollForEvent event =>
        cases event with
        | none => exact .aside (.inr (.inr rfl))
        | some e => exact .poll
    | _ => cases hr
  · rintro (_ | _ | _)
    · refine Within.bind (aside_goes (ask_aside rfl _)) fun now => Within.ite (Within.pure _) ?_
      exact Within.bind (aside_goes (ask_aside rfl _)) fun _ => Within.pure _
    all_goals exact Within.pure _

theorem requestAndWait_goes (x : Connection) (selatom target : Atom) :
    Within (Goes x.window .requestor) (requestAndWait x selatom target) := by
  apply Within.bind (xRequest_goes .convert)
  intro _
  apply Within.bind (aside_goes (ask_aside rfl _))
  intro start
  exact Within.loop (fun _ => waitRound_goes _ _ _) ()

theorem readProperty_goes (x : Connection) :
    Within (Goes x.window .requestor) (readProperty x) := by
  refine Within.loop (fun r => Within.bind (ask_goes fun reply a hreply => ?_) fun _ =>
    Within.pure _) _
  cases reply with
  | xGetProperty _ => exact .read
  | _ => cases hreply

theorem mimeNames_aside (a : Atoms) (ts : List Atom) :
    Within (Process.Logs Action.Aside) (mimeNames a ts) := by
  induction ts with
  | nil => exact Within.pure _
  | cons t ts ih =>
      have hname : ∀ name : Text, Within (Process.Logs Action.Aside)
          (do return name :: (← mimeNames a ts)) := fun name => Within.bind ih fun _ => Within.pure _
      refine Within.ite ih (Within.ite (hname _) (Within.ite (hname _) (Within.ite (hname _) ?_)))
      exact Within.ite ih (Within.bind (ask_aside rfl _) hname)

theorem targetAtom_aside (a : Atoms) (mime : Text) :
    Within (Process.Logs Action.Aside) (targetAtom a mime) :=
  Within.ite (Within.pure _) (Within.ite (Within.pure _) (Within.ite (Within.pure _)
    (ask_aside rfl _)))

theorem pasteFrom_goes (x : Connection) (sel : Selection) (preferMime : Text) (listOnly : Bool) :
    Within (Goes x.window .requestor) (pasteFrom x sel preferMime listOnly) := by
  have htargets : Within (Goes x.window .requestor) (askTargets x (selectionAtom x.atoms sel)) := by
    refine Within.bind (requestAndWait_goes _ _ _) fun ok => Within.ite ?_ (Within.pure _)
    refine Within.bind (readProperty_goes x) fun raw => Within.ite (Within.pure _) ?_
    exact Within.bind (aside_goes (mimeNames_aside _ _)) fun _ => Within.pure _
  have hdata : ∀ mime, Within (Goes x.window .requestor)
      (askData x (selectionAtom x.atoms sel) mime) := fun mime =>
    Within.ite (Within.pure _) (Within.bind (aside_goes (targetAtom_aside _ _)) fun target =>
      Within.ite (Within.pure _) (requestAndWait_goes _ _ _))
  apply Within.bind htargets
  rintro (_ | mimes)
  · exact Within.pure _
  refine Within.ite (Within.pure _) (Within.bind (hdata _) fun ok => Within.ite ?_ (Within.pure _))
  exact Within.bind (readProperty_goes x) fun _ => Within.pure _

end X11

namespace X11Backend

open X11

variable {t : AtomTable} {w : Window} {p : Process}

theorem copyAcquireThenDetach_goes {display : Text} {sel : Selection} {data : CopyData}
    {oneshot detach : Bool} {after : Prog Halt Process Unit}
    (hafter : Within (Process.Logs Action.Aside) after)
    (hserved : ServedBy t w (copyAcquireThenDetach display sel data oneshot detach after p).2) :
    ∃ peer : Peer, peer.Copies t w sel data ∧
      Goes w peer p (copyAcquireThenDetach display sel data oneshot detach after p).2 := by
  rcases hacq : acquireSelection display sel data p with ⟨e | ctx, q⟩
  · have hrun : copyAcquireThenDetach display sel data oneshot detach after p = (.error e, q) :=
      bind_error hacq
    rw [hrun] at hserved ⊢
    obtain ⟨peer, hcopies, hgoes, -⟩ := acquireSelection_goes hacq hserved
    exact ⟨peer, hcopies, hgoes⟩
  have hrun : copyAcquireThenDetach display sel data oneshot detach after p = _ := bind_ok hacq
  rw [hrun] at hserved ⊢
  rcases ctx with _ | ctx
  · obtain ⟨peer, hcopies, hgoes, -⟩ := acquireSelection_goes hacq hserved
    exact ⟨peer, hcopies, hgoes⟩
  have hserve := serveAndRelease_goes (acquireSelection_advertised hacq).length_lt oneshot
  have hrest : Within (Goes ctx.x.window (.owner ctx)) (if detach then do
      let pid ← Process.fork
      if pid < 0 then
        destroy ctx.x
        return false
      else if pid > 0 then
        after
        Prog.halt (.exited 0)
      else serveAndRelease ctx oneshot
    else serveAndRelease ctx oneshot) := by
    refine Within.ite (Within.bind (aside_goes (ask_aside rfl _)) fun pid => ?_) hserve
    refine Within.ite (Within.bind (destroy_goes _) fun _ => Within.pure _) (Within.ite ?_ hserve)
    exact Within.bind (aside_goes hafter) fun _ => Within.halt _
  obtain ⟨log, htrace, hpath⟩ := hrest q
  obtain ⟨peer, hcopies, hgoes, hpeer⟩ := acquireSelection_goes hacq (hserved.before ⟨log, htrace⟩)
  obtain rfl := hpeer ctx rfl
  obtain rfl := (hcopies ctx rfl).window
  exact ⟨.owner ctx, hcopies, IsTrans.trans _ _ _ hgoes ⟨log, htrace, hpath⟩⟩

theorem paste_goes {display : Text} {sel : Selection} {preferMime : Text} {listOnly : Bool}
    (hserved : ServedBy t w (paste display sel preferMime listOnly p).2) :
    Goes w .requestor p (paste display sel preferMime listOnly p).2 := by
  rcases hconnect : connect display p with ⟨e | x, q⟩
  · have hrun : paste display sel preferMime listOnly p = (.error e, q) := bind_error hconnect
    rw [hrun]
    exact .of_aside ((connect_aside _).of_eq hconnect)
  have hrun : paste display sel preferMime listOnly p = _ := bind_ok hconnect
  rw [hrun] at hserved ⊢
  have hstart : Goes w .requestor p q := .of_aside ((connect_aside _).of_eq hconnect)
  rcases x with _ | x
  · exact hstart
  have hrest : Within (Goes x.window .requestor) (do
      let r ← pasteFrom x sel preferMime listOnly
      destroy x
      return r) :=
    Within.bind (pasteFrom_goes _ _ _ _) fun r => Within.bind (destroy_goes x) fun _ => Within.pure _
  obtain ⟨log, htrace, hpath⟩ := hrest q
  obtain ⟨rfl, -⟩ := connect_known hconnect (hserved.before ⟨log, htrace⟩)
  exact IsTrans.trans _ _ _ hstart ⟨log, htrace, hpath⟩

end X11Backend

theorem watching_aside : Watching Action.Aside where
  call c _ h := .inl (by cases c <;> first | rfl | cases h)
  request _ := trivial
  close _ := trivial

namespace CopyCommand

open X11

/-- The parent of the daemon makes no request to the server. -/
theorem runX11_goes {t : AtomTable} {w : Window} {common : CommonOptions} {o : CopyOpts}
    {data : CopyData} {p : Process} (hserved : ServedBy t w (runX11 common o data p).2) :
    ∃ peer : Peer, peer.Copies t w common.selection data ∧
      Goes w peer p (runX11 common o data p).2 := by
  unfold runX11 at hserved ⊢
  by_cases hclear : o.clear = true
  · rw [if_pos hclear]
    exact ⟨.requestor, copies_requestor, refl p⟩
  · rw [if_neg hclear, bind_pure_state] at hserved ⊢
    refine X11Backend.copyAcquireThenDetach_goes (Within.ite ?_ (Within.pure _)) hserved
    exact Within.bind (watching_aside.wait _ _ _ _ _) fun _ => Within.pure _

end CopyCommand

end WlClip
