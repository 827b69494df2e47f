import WlClip.CopyCommand
import WlClip.DataControlPaste
import WlClip.LibwaylandDaemon

/-!
# Isolation of the selections through libwayland

What an operation does to the selections can be read off its log. An operation keeps to the selection
it works on, and fails where its manager cannot address that; but clearing the primary selection
through a manager of version 1 clears the regular one.
-/

open ScriptedProgram ScriptedProgram.Prog

namespace WlClip

/-! ## Contacts with a selection -/

inductive Contact (Offer : Type)
  | set (sel : Selection)
  | clear (sel : Selection)
  | read (offer : Offer)

/-- How a log tells of the selections: the events handed over, what is done to a selection, and
which events name an offer as one. -/
structure Dialect (Event Offer : Type) where
  heard : Action → List Event
  contacts : Action → List (Contact Offer)
  names : Selection → Event → Offer → Prop

namespace Dialect

variable {Event Offer : Type} (D : Dialect Event Offer) {sel : Selection} {told : List Event}
  {log log' : List Action}

/-- What an operation on the selection may do when it was told the events. -/
def Allows (sel : Selection) (told : List Event) : Contact Offer → Prop
  | .set k => k = sel
  | .clear k => k = sel
  | .read offer => ∃ e ∈ told, D.names sel e offer

/-- Whatever is done is allowed when it is done. -/
def Confined (sel : Selection) : List Event → List Action → Prop
  | _, [] => True
  | told, a :: log =>
    (∀ c ∈ D.contacts a, D.Allows sel told c) ∧ Confined sel (told ++ D.heard a) log

/-- Nothing is set or cleared. -/
def Unchanged (log : List Action) : Prop := ∀ a ∈ log, ∀ c ∈ D.contacts a, ∃ offer, c = .read offer

/-- An operation on the selection does nothing to the other one; where its manager cannot address
the selection, it fails and changes neither. -/
structure Isolated (sel : Selection) (addressed : Prop) (r : Except Halt Bool)
    (log : List Action) : Prop where
  confined : D.Confined sel [] log
  refused : ¬ addressed → r ≠ .ok true ∧ D.Unchanged log

theorem confined_append : D.Confined sel told (log ++ log') ↔
    D.Confined sel told log ∧ D.Confined sel (told ++ log.flatMap D.heard) log' := by
  induction log generalizing told with
  | nil => simp [Confined]
  | cons a log ih => simp [Confined, ih, and_assoc]

/-- An operation that contacts a selection only to set its own. -/
theorem confined_of_set (h : ∀ a ∈ log, ∀ c ∈ D.contacts a, c = .set sel) :
    D.Confined sel told log := by
  induction log generalizing told with
  | nil => trivial
  | cons a log ih =>
      refine ⟨fun c hc => ?_, ih fun b hb => h b (List.mem_cons_of_mem a hb)⟩
      rw [h a List.mem_cons_self c hc]
      rfl

/-- No contact. -/
def Quiet (log : List Action) : Prop := ∀ a ∈ log, D.contacts a = []

variable {D}

theorem quiet_nil : D.Quiet [] := fun _ ha => absurd ha List.not_mem_nil

theorem Quiet.confined (h : D.Quiet log) : D.Confined sel told log :=
  D.confined_of_set fun a ha c hc => by
    rw [h a ha] at hc
    cases hc

theorem Quiet.unchanged (h : D.Quiet log) : D.Unchanged log := fun a ha c hc => by
  rw [h a ha] at hc
  cases hc

theorem Quiet.append (h : D.Quiet log) (h' : D.Quiet log') : D.Quiet (log ++ log') := fun a ha =>
  (List.mem_append.mp ha).elim (h a) (h' a)

/-- What is done after a quiet time is judged by the events of that time. -/
theorem Quiet.confined_append (h : D.Quiet log) : D.Confined sel told (log ++ log') ↔
    D.Confined sel (told ++ log.flatMap D.heard) log' := by
  rw [D.confined_append]
  exact and_iff_right h.confined

theorem Quiet.isolated (h : D.Quiet log) {addressed : Prop} {r : Except Halt Bool}
    (hr : ¬ addressed → r ≠ .ok true) : D.Isolated sel addressed r log :=
  ⟨h.confined, fun ha => ⟨hr ha, h.unchanged⟩⟩

end Dialect

/-! ## Through libwayland -/

def WlRequest.contacts : WlRequest → List (Contact Proxy)
  | .setSelection source => [if source then .set .regular else .clear .regular]
  | .setPrimarySelection source => [if source then .set .primary else .clear .primary]
  | .receive offer _ _ => [.read offer]
  | _ => []

def libwayland : Dialect WlEvent Proxy where
  heard := Action.heard
  contacts a := a.requested.flatMap WlRequest.contacts
  names sel e offer := e = DataControlBackend.selectionEvent sel (some offer)

inductive Operation
  | copy (data : CopyData) (oneshot : Bool)
  | paste (preferMime : Text) (listOnly : Bool)
  | clear

/-- The protocols that are spoken through libwayland. -/
inductive Protocol
  | dataControl
  | dataDevice

/-- Runs an operation on the selection and says whether it succeeds. A selection is cleared through
data_control whichever backend is chosen. -/
def Protocol.perform (seat : SeatInfo) (sel : Selection) :
    Protocol → Operation → Prog Halt State Bool
  | .dataControl, .copy data oneshot => DataControlBackend.copy seat sel data oneshot
  | .dataDevice, .copy data oneshot => DataDeviceBackend.copy seat sel data oneshot
  | .dataControl, .paste preferMime listOnly => do
    let r ← DataControlBackend.paste seat sel preferMime listOnly
    return r.1
  | .dataDevice, .paste preferMime listOnly => do
    let r ← DataDeviceBackend.paste seat sel preferMime listOnly
    return r.1
  | _, .clear => do
    let code ← CopyCommand.handleClear seat (sel = .primary)
    return code = 0

/-- The manager that is bound has requests for the selection. -/
def Protocol.Addresses (s : State) (sel : Selection) : Protocol → Operation → Prop
  | .dataDevice, .copy _ _ => sel = .regular
  | .dataDevice, .paste _ _ => sel = .regular
  | _, _ => sel = .primary → ¬ s.zwlrManagerVersion < 2

def Protocol.Isolated (seat : SeatInfo) (sel : Selection) (protocol : Protocol) (op : Operation)
    (s : State) : Prop :=
  let r := protocol.perform seat sel op s
  ∃ log, r.2.trace = s.trace ++ log ∧
    libwayland.Isolated sel (protocol.Addresses s sel op) r.1 log

/-! ### What contacts no selection -/

theorem WlRequest.OfRegistry.quiet {r : WlRequest} (h : r.OfRegistry) :
    libwayland.contacts (.request r) = [] := by
  cases r <;> first | rfl | cases h

theorem Action.Silent.quiet {a : Action} (h : a.Silent) : libwayland.contacts a = [] := by
  cases h <;> rfl

/-- The action contacts a selection only to set it. -/
def Sets (sel : Selection) (a : Action) : Prop := ∀ c ∈ libwayland.contacts a, c = .set sel

theorem Sets.of_quiet {sel : Selection} {a : Action} (h : libwayland.contacts a = []) :
    Sets sel a := by
  rw [Sets, h]
  exact nofun

namespace Libwayland

variable {sel : Selection}

theorem request_sets {σ : Type} {r : WlRequest} (h : libwayland.contacts (.request r) = []) :
    Within (Listening.Logged (Sets sel)) (Listening.request r : Prog Halt (Listening σ) Unit) :=
  Listening.onState_logged (State.request_logged (.of_quiet h))

theorem offerAll_sets (mimes : List Text) :
    Within (Listening.Logged (Sets sel)) (offerAll mimes) := by
  induction mimes with
  | nil => exact Within.pure _
  | cons m mimes ih => exact Within.bind (request_sets rfl) fun _ => ih

theorem serve_sets : Within (Listening.Logged (Sets sel)) serve := by
  have hlistener := sourceListener_logged (A := Sets sel)
    (Process.serveSend_logged (fun _ _ => .of_quiet rfl) fun a ha => .of_quiet ha.quiet)
  have hdispatch : Within (Listening.Logged (Sets sel)) (Listening.dispatch sourceListener) :=
    Listening.dispatch_logged (fun _ => .of_quiet rfl) (fun r hr => .of_quiet hr.quiet) hlistener
  refine Within.loop (fun _ => Within.bind (Within.read _) fun st => Within.ite (Within.pure _) ?_) ()
  exact Within.bind hdispatch fun _ => Within.ite (Within.pure _) (Within.pure _)

theorem offer_sets (seat : SeatInfo) {setSelection : WlRequest}
    (h : WlRequest.contacts setSelection = [.set sel]) (data : CopyData) (oneshot : Bool) :
    Within (State.Logged (Sets sel)) (offer seat setSelection data oneshot) := by
  have hset : Sets sel (.request setSelection) := fun c hc => by
    change c ∈ [setSelection].flatMap WlRequest.contacts at hc
    rw [List.flatMap_singleton, h] at hc
    exact List.mem_singleton.mp hc
  refine Listening.run_logged (Within.bind ?_ fun _ => Within.bind serve_sets fun _ => ?_)
  · refine Within.bind (request_sets rfl) fun _ => Within.bind (request_sets rfl) fun _ =>
      Within.bind (Within.read _) fun st => Within.bind (offerAll_sets _) fun _ => ?_
    exact Listening.onState_logged (State.request_logged hset)
  · exact Within.bind (request_sets rfl) fun _ => Within.bind (request_sets rfl) fun _ =>
      Within.bind (Within.read _) fun _ => Within.pure _

/-! ### Watching for a selection -/

/-- An operation has contacted no selection since `t`. It was told of `es` at least, and its
listeners know what `known` says of all that it was told. -/
def Watching {σ : Type} (t : List Action) (known : List WlEvent → σ → Prop) (es : List WlEvent)
    (l : Listening σ) : Prop :=
  ∃ log, l.trace = t ++ log ∧ libwayland.Quiet log ∧
    (∀ e ∈ es, e ∈ log.flatMap Action.heard) ∧ known (log.flatMap Action.heard) l.st

/-- What the listeners know stays true when more is told, and takes in each event. -/
structure Informed {σ : Type} (known : List WlEvent → σ → Prop) (event : WlEvent → σ → σ) :
    Prop where
  mono : ∀ told told' st, (∀ e ∈ told, e ∈ told') → known told st → known told' st
  step : ∀ told e st, e ∈ told → known told st → known told (event e st)

/-- An operation on the selection has kept to it since `t`. -/
def Kept {σ : Type} (sel : Selection) (t : List Action) (l : Listening σ) : Prop :=
  ∃ log, l.trace = t ++ log ∧ libwayland.Confined sel [] log

section Watching

variable {σ α : Type} {t : List Action} {known : List WlEvent → σ → Prop} {es : List WlEvent}
  {event : WlEvent → σ → σ}

theorem Watching.kept {l : Listening σ} (h : Watching t known es l) : Kept sel t l := by
  obtain ⟨log, htrace, hquiet, -⟩ := h
  exact ⟨log, htrace, hquiet.confined⟩

theorem kept_keeps {p : Prog Halt (Listening σ) α}
    (h : Within (Listening.Logged fun a => libwayland.contacts a = []) p) :
    Keeps (Kept sel t) p := by
  refine h.keeps fun l l' hlogs ⟨log, htrace, hconfined⟩ => ?_
  obtain ⟨log', htrace', -, hquiet⟩ := hlogs.log
  refine ⟨log ++ log', by rw [htrace', htrace, List.append_assoc], ?_⟩
  exact libwayland.confined_append.mpr ⟨hconfined, Dialect.Quiet.confined hquiet⟩

theorem watching_keeps (hinformed : Informed known event) {p : Prog Halt State α}
    (h : Within (State.Logged fun a => libwayland.contacts a = []) p) :
    Keeps (Watching t known es) (Listening.onState p) := by
  refine (Listening.onState_logged h |>.and (S := fun l l' => l'.st = l.st) fun _ => rfl).keeps ?_
  rintro l l' ⟨hlogs, hst⟩ ⟨log, htrace, hquiet, htold, hknown⟩
  obtain ⟨log', htrace', -, hquiet'⟩ := hlogs.log
  have hsub : ∀ e ∈ log.flatMap Action.heard, e ∈ (log ++ log').flatMap Action.heard := by
    rw [List.flatMap_append]
    exact fun e => List.mem_append_left _
  refine ⟨log ++ log', by rw [htrace', htrace, List.append_assoc], hquiet.append hquiet',
    fun e he => hsub e (htold e he), ?_⟩
  rw [hst]
  exact hinformed.mono _ _ _ hsub hknown

theorem request_watching (hinformed : Informed known event) {r : WlRequest}
    (h : libwayland.contacts (.request r) = []) :
    Keeps (Watching t known es) (Listening.request r) :=
  watching_keeps hinformed (State.request_logged h)

theorem hear_watching (hinformed : Informed known event) {e : WlEvent} :
    Triple (Watching t known (e :: es)) (Listening.hear (fun e => Listening.setState (event e)) e)
      (fun _ => Watching t known es) (fun _ => Watching t known es) := by
  have htail : ∀ l : Listening σ, Watching t known (e :: es) l → Watching t known es l :=
    fun l ⟨log, htrace, hquiet, htold, hknown⟩ =>
      ⟨log, htrace, hquiet, fun e' he' => htold e' (List.mem_cons_of_mem e he'), hknown⟩
  have hset : Triple (Watching t known (e :: es)) (Listening.setState (event e))
      (fun _ => Watching t known es) (fun _ => Watching t known es) := by
    refine Triple.update _ fun l ⟨log, htrace, hquiet, htold, hknown⟩ => ?_
    exact ⟨log, htrace, hquiet, fun e' he' => htold e' (List.mem_cons_of_mem e he'),
      hinformed.step _ e _ (htold e List.mem_cons_self) hknown⟩
  have hregistry : ∀ r : WlRequest, r.OfRegistry → libwayland.contacts (.request r) = [] :=
    fun r hr => hr.quiet
  cases e with
  | global name interface version =>
      exact (watching_keeps hinformed (State.onGlobal_logged hregistry _ _ _)).pre htail
  | globalRemove name =>
      exact (watching_keeps hinformed (State.onGlobalRemove_logged hregistry _)).pre htail
  | seatName seat name =>
      exact (watching_keeps hinformed (State.update_logged fun _ => rfl)).pre htail
  | _ => exact hset

theorem hearAll_watching (hinformed : Informed known event) :
    Triple (Watching t known es) (Listening.hearAll (fun e => Listening.setState (event e)) es)
      (fun _ => Watching t known []) (fun _ => Watching t known []) := by
  have hnone : ∀ (es : List WlEvent) (l : Listening σ), Watching t known es l →
      Watching t known [] l := fun _ l ⟨log, htrace, hquiet, _, hknown⟩ =>
    ⟨log, htrace, hquiet, nofun, hknown⟩
  induction es with
  | nil => exact Triple.pure _ fun _ h => h
  | cons e es ih =>
      apply Triple.bind
      · exact (hear_watching hinformed).conseq (fun _ h => h) (fun _ _ h => h)
          fun _ l h => hnone es l h
      · exact fun _ => ih

theorem dispatch_watching (hinformed : Informed known event) :
    Keeps (Watching t known []) (Listening.dispatch fun e => Listening.setState (event e)) := by
  apply Triple.bind (Q := fun r => Watching t known r.1)
  · intro l ⟨log, htrace, hquiet, htold, hknown⟩
    rcases hask : Process.displayDispatch l.toProcess with ⟨e | r, q⟩ <;>
      simp only [Listening.sys, Listening.onState, State.sys, Prog.zoom_apply, hask]
    · obtain ⟨-, rfl⟩ := Process.ask_error hask
      exact ⟨log, htrace, hquiet, htold, hknown⟩
    · obtain ⟨reply, rest, -, ha, rfl⟩ := Process.ask_ok hask
      cases reply with
      | displayDispatch events ok =>
          cases ha
          have hheard : (log ++ [Action.call .displayDispatch (.displayDispatch events ok)]).flatMap
              Action.heard = log.flatMap Action.heard ++ events := by simp [Action.heard]
          refine ⟨log ++ [.call .displayDispatch (.displayDispatch events ok)], ?_, ?_, ?_, ?_⟩
          · simp [htrace]
          · exact hquiet.append fun a ha => by
              cases List.mem_singleton.mp ha
              rfl
          · rw [hheard]
            exact fun e => List.mem_append_right _
          · rw [hheard]
            exact hinformed.mono _ _ _ (fun e => List.mem_append_left _) hknown
      | _ => cases ha
  · intro r
    exact Triple.bind (hearAll_watching hinformed) fun _ => Triple.pure _ fun _ h => h

end Watching

/-! ### What a paste knows -/

open DataControlBackend (selectionEvent)

/-- The place of the current offer holds a proxy that a selection event of the kind has named. -/
def Names (sel : Selection) (told : List WlEvent) (current : Option ℕ) (proxies : List Proxy) :
    Prop :=
  ∀ i, current = some i → ∃ p, proxies[i]? = some p ∧ selectionEvent sel (some p) ∈ told

variable {told told' : List WlEvent} {current : Option ℕ} {proxies : List Proxy}

theorem Names.mono (h : Names sel told current proxies) (htold : ∀ e ∈ told, e ∈ told') :
    Names sel told' current proxies := fun i hi => by
  obtain ⟨p, hp, hnamed⟩ := h i hi
  exact ⟨p, hp, htold _ hnamed⟩

theorem Names.snoc (h : Names sel told current proxies) (p : Proxy) :
    Names sel told current (proxies ++ [p]) := fun i hi => by
  obtain ⟨q, hq, hnamed⟩ := h i hi
  refine ⟨q, ?_, hnamed⟩
  rw [List.getElem?_append_left (List.getElem?_eq_some_iff.mp hq).1]
  exact hq

theorem proxies_addMime (p : Proxy) (m : Text) (offers : List PendingOffer) :
    (addMime p m offers).map PendingOffer.proxy = offers.map PendingOffer.proxy := by
  induction offers with
  | nil => rfl
  | cons o offers ih => by_cases h : o.proxy = p <;> simp [addMime, h, ih]

theorem names_found {offers : List PendingOffer} {p : Option Proxy}
    (h : selectionEvent sel p ∈ told) :
    Names sel told (findOffer offers p) (offers.map PendingOffer.proxy) := by
  intro i hi
  rcases p with _ | p
  · cases hi
  · obtain ⟨hlt, hfound, -⟩ := List.findIdx?_eq_some_iff_getElem.mp hi
    refine ⟨p, ?_, h⟩
    rw [List.getElem?_map, List.getElem?_eq_getElem hlt]
    exact congrArg some (by simpa using hfound)

/-- The operation has contacted no selection since `t` and knows the offer that it will take. -/
def Settled {σ : Type} (sel : Selection) (t : List Action) (current : Option ℕ)
    (offers : List PendingOffer) (l : Listening σ) : Prop :=
  ∃ log, l.trace = t ++ log ∧ libwayland.Quiet log ∧
    Names sel (log.flatMap Action.heard) current (offers.map PendingOffer.proxy)

section Take

variable {σ : Type} {t : List Action} {offers : List PendingOffer}

theorem Settled.kept {l : Listening σ} (h : Settled sel t current offers l) : Kept sel t l := by
  obtain ⟨log, htrace, hquiet, -⟩ := h
  exact ⟨log, htrace, hquiet.confined⟩

theorem request_keeps {r : WlRequest} (h : libwayland.contacts (.request r) = []) :
    Keeps (Kept sel t) (Listening.request r : Prog Halt (Listening σ) Unit) :=
  kept_keeps (Listening.onState_logged (State.request_logged h))

theorem sys_keeps {α : Type} {p : Prog Halt Process α} (h : Within (Process.Logs Action.Silent) p) :
    Keeps (Kept sel t) (Listening.sys p : Prog Halt (Listening σ) α) :=
  kept_keeps (Listening.onState_logged (State.sys_logged
    (h.mono fun _ _ hlogs => hlogs.mono fun _ ha => ha.quiet)))

theorem destroyOffers_kept (offers : List PendingOffer) :
    Keeps (Kept sel t) (destroyOffers offers : Prog Halt (Listening σ) Unit) := by
  induction offers with
  | nil => exact Triple.pure _ fun _ h => h
  | cons o offers ih => exact Triple.bind (request_keeps rfl) fun _ => ih

/-- The only contact of a paste: the offer was named before. -/
theorem receive_kept {p : Proxy} (mime : Text) (fd : Int) :
    Triple (fun l : Listening σ => ∃ log, l.trace = t ++ log ∧ libwayland.Quiet log ∧
        selectionEvent sel (some p) ∈ log.flatMap Action.heard)
      (Listening.request (.receive p mime fd)) (fun _ => Kept sel t) (fun _ => Kept sel t) := by
  intro l ⟨log, htrace, hquiet, hnamed⟩
  refine ⟨log ++ [.request (.receive p mime fd)], ?_, ?_⟩
  · change l.trace ++ [_] = _
    rw [htrace, List.append_assoc]
  · refine hquiet.confined_append.mpr ⟨fun c hc => ?_, trivial⟩
    cases List.mem_singleton.mp hc
    exact ⟨_, hnamed, rfl⟩

theorem fetch_kept (offer : PendingOffer) (mime : Text) (offers : List PendingOffer) :
    Triple (fun l : Listening σ => ∃ log, l.trace = t ++ log ∧ libwayland.Quiet log ∧
        selectionEvent sel (some offer.proxy) ∈ log.flatMap Action.heard)
      (fetch offer mime offers) (fun _ => Kept sel t) (fun _ => Kept sel t) := by
  have hpipe : Keeps (fun l : Listening σ => ∃ log, l.trace = t ++ log ∧ libwayland.Quiet log ∧
      selectionEvent sel (some offer.proxy) ∈ log.flatMap Action.heard)
      (Listening.sys Process.makePipe) := by
    refine (Listening.onState_logged (State.sys_logged Process.makePipe_silent)).keeps ?_
    rintro l l' hlogs ⟨log, htrace, hquiet, hnamed⟩
    obtain ⟨log', htrace', -, hsilent⟩ := hlogs.log
    refine ⟨log ++ log', by rw [htrace', htrace, List.append_assoc],
      hquiet.append fun a ha => (hsilent a ha).quiet, ?_⟩
    rw [List.flatMap_append]
    exact List.mem_append_left _ hnamed
  have hkept : ∀ l : Listening σ, (∃ log, l.trace = t ++ log ∧ libwayland.Quiet log ∧
      selectionEvent sel (some offer.proxy) ∈ log.flatMap Action.heard) → Kept sel t l :=
    fun l ⟨log, htrace, hquiet, _⟩ => ⟨log, htrace, hquiet.confined⟩
  apply Triple.bind (hpipe.conseq (fun _ h => h) (fun _ _ h => h) fun _ l h => hkept l h)
  rintro (_ | ⟨readEnd, writeEnd⟩)
  · exact Triple.bind ((request_keeps rfl).pre hkept) fun _ => Triple.pure _ fun _ h => h
  apply Triple.bind (receive_kept mime writeEnd)
  intro _
  apply Triple.bind (sys_keeps (Process.close_silent writeEnd))
  intro _
  apply Triple.bind (sys_keeps (Process.drainFd_silent readEnd))
  intro bytes
  apply Triple.bind (destroyOffers_kept offers)
  intro _
  apply Triple.bind (request_keeps rfl)
  intro _
  apply Triple.bind (sys_keeps (Process.close_silent readEnd))
  intro _
  exact Triple.pure _ fun _ h => h

theorem take_kept (preferMime : Text) (listOnly : Bool) :
    Triple (Settled sel t current offers) (take current offers preferMime listOnly)
      (fun _ => Kept sel t) (fun _ => Kept sel (σ := σ) t) := by
  have hleave : ∀ r : Bool × PasteResult, Triple (Settled (σ := σ) sel t current offers) (do
      Listening.request .destroyDevice
      return r) (fun _ => Kept sel t) (fun _ => Kept sel t) := fun r =>
    Triple.bind ((request_keeps rfl).pre fun _ h => h.kept) fun _ => Triple.pure _ fun _ h => h
  unfold take
  split
  · exact hleave _
  next offer hoffer =>
  apply Triple.ite fun _ => hleave _
  intro _
  apply Triple.ite fun _ => hleave _
  intro _
  refine (fetch_kept offer _ offers).pre fun l ⟨log, htrace, hquiet, hnames⟩ => ?_
  obtain ⟨i, hi, hat⟩ := Option.bind_eq_some_iff.mp hoffer
  obtain ⟨p, hp, hnamed⟩ := hnames i hi
  rw [List.getElem?_map, hat] at hp
  cases hp
  exact ⟨log, htrace, hquiet, hnamed⟩

end Take

end Libwayland

open Libwayland

namespace DataControlBackend

variable {sel : Selection} {t : List Action}

/-- What the listeners of a paste on the selection know. -/
def Knows (sel : Selection) (told : List WlEvent) (st : PasteState) : Prop :=
  Names sel told (target sel st) (st.offers.map PendingOffer.proxy)

theorem informed (sel : Selection) : Informed (Knows sel) pasteEvent where
  mono _ _ _ hsub h := h.mono hsub
  step told e st he h := by
    cases e with
    | dataOffer p =>
        have hproxies := h.snoc p
        rw [Knows, pasteEvent, List.map_append]
        exact hproxies
    | offerMime p m =>
        rw [Knows, pasteEvent, proxies_addMime]
        exact h
    | selection p =>
        cases sel with
        | regular => exact names_found he
        | primary => exact h
    | primarySelection p =>
        cases sel with
        | regular => exact h
        | primary => exact names_found he
    | _ => exact h

theorem awaitTarget_watching :
    Keeps (Watching t (Knows sel) []) (awaitTarget sel) := by
  have hdone : ∀ r : Unit ⊕ Bool, Keeps (Watching t (Knows sel) []) (pure r : Prog Halt _ _) :=
    fun r => Triple.pure r fun _ h => h
  have hround : Keeps (Watching t (Knows sel) []) (awaitRound sel ()) := by
    apply Triple.bind (Q := fun _ => Watching t (Knows sel) []) (Triple.read _ fun _ h => h)
    intro st
    apply Triple.ite fun _ => hdone _
    intro _
    apply Triple.bind (dispatch_watching (informed sel))
    exact fun ok => Triple.ite (fun _ => hdone _) fun _ => hdone _
  refine Triple.loop (I := fun _ => Watching t (Knows sel) [])
    (H := fun _ => Watching t (Knows sel) []) (fun _ => ?_) (fun _ _ h => h) ()
  apply hround.conseq (fun _ h => h) _ fun _ _ h => h
  rintro (_ | _) l h <;> exact h

theorem receive_kept (seat : SeatInfo) (preferMime : Text) (listOnly : Bool) :
    Triple (fun l => l.trace = t ∧ l.st = .new) (receive seat sel preferMime listOnly)
      (fun _ => Kept sel t) (fun _ => Kept sel t) := by
  apply Triple.bind (Q := fun _ => Watching t (Knows sel) [])
  · refine ((request_watching (informed sel) rfl).pre fun l h => ?_).conseq (fun _ h => h)
      (fun _ _ h => h) fun _ _ h => h.kept
    refine ⟨[], by simp [h.1], Dialect.quiet_nil, fun _ he => absurd he List.not_mem_nil, ?_⟩
    rw [h.2]
    cases sel <;> exact nofun
  intro _
  apply Triple.bind (awaitTarget_watching.conseq (fun _ h => h) (fun _ _ h => h)
    fun _ _ h => h.kept)
  intro ok
  apply Triple.ite
  · intro _
    apply Triple.bind (Q := fun st l => Settled sel t (target sel st) st.offers l)
    · exact Triple.read Listening.st fun l ⟨log, htrace, hquiet, _, hknows⟩ =>
        ⟨log, htrace, hquiet, hknows⟩
    · exact fun st => take_kept preferMime listOnly
  · intro _
    exact Triple.bind ((request_keeps rfl).pre fun _ h => h.kept) fun _ => Triple.pure _ fun _ h => h

end DataControlBackend

namespace DataDeviceBackend

variable {t : List Action}

/-- What the listeners know; the protocol has the regular selection only. -/
def Knows (told : List WlEvent) (st : PasteState) : Prop :=
  Names .regular told st.current (st.offers.map PendingOffer.proxy)

theorem informed : Informed Knows pasteEvent where
  mono _ _ _ hsub h := h.mono hsub
  step told e st he h := by
    cases e with
    | dataOffer p =>
        have hproxies := h.snoc p
        rw [Knows, pasteEvent, List.map_append]
        exact hproxies
    | offerMime p m =>
        rw [Knows, pasteEvent, proxies_addMime]
        exact h
    | selection p => exact names_found he
    | _ => exact h

theorem awaitSelection_watching : Keeps (Watching t Knows []) awaitSelection := by
  have hdone : ∀ r : Unit ⊕ Bool, Keeps (Watching t Knows []) (pure r : Prog Halt _ _) :=
    fun r => Triple.pure r fun _ h => h
  have hround : Keeps (Watching t Knows []) (awaitRound ()) := by
    apply Triple.bind (Q := fun _ => Watching t Knows []) (Triple.read _ fun _ h => h)
    intro st
    apply Triple.ite fun _ => hdone _
    intro _
    apply Triple.bind (watching_keeps informed (State.sys_logged (Process.ask_logs fun _ _ _ => rfl)))
    intro r
    split
    · apply Triple.bind (dispatch_watching informed)
      exact fun ok => Triple.ite (fun _ => hdone _) fun _ => hdone _
    · exact hdone _
  refine Triple.loop (I := fun _ => Watching t Knows []) (H := fun _ => Watching t Knows [])
    (fun _ => ?_) (fun _ _ h => h) ()
  apply hround.conseq (fun _ h => h) _ fun _ _ h => h
  rintro (_ | _) l h <;> exact h

theorem receive_kept (seat : SeatInfo) (preferMime : Text) (listOnly : Bool) :
    Triple (fun l => l.trace = t ∧ l.st = .new) (receive seat preferMime listOnly)
      (fun _ => Kept .regular t) (fun _ => Kept .regular t) := by
  apply Triple.bind (Q := fun _ => Watching t Knows [])
  · refine ((request_watching informed rfl).pre fun l h => ?_).conseq (fun _ h => h)
      (fun _ _ h => h) fun _ _ h => h.kept
    refine ⟨[], by simp [h.1], Dialect.quiet_nil, fun _ he => absurd he List.not_mem_nil, ?_⟩
    rw [h.2]
    exact nofun
  intro _
  apply Triple.bind (awaitSelection_watching.conseq (fun _ h => h) (fun _ _ h => h)
    fun _ _ h => h.kept)
  intro ok
  apply Triple.ite
  · intro _
    apply Triple.bind (Q := fun st l => Settled .regular t st.current st.offers l)
    · exact Triple.read Listening.st fun l ⟨log, htrace, hquiet, _, hknows⟩ =>
        ⟨log, htrace, hquiet, hknows⟩
    · exact fun st => take_kept preferMime listOnly
  · intro _
    exact Triple.bind ((request_keeps rfl).pre fun _ h => h.kept) fun _ => Triple.pure _ fun _ h => h

end DataDeviceBackend

/-! ## Every operation -/

namespace Protocol

variable {seat : SeatInfo} {sel : Selection} {protocol : Protocol} {op : Operation} {s : State}

theorem isolated_refusal (h : protocol.perform seat sel op s = (.ok false, s)) :
    protocol.Isolated seat sel op s := by
  refine ⟨[], by rw [h, List.append_nil], Dialect.quiet_nil.isolated fun _ => ?_⟩
  rw [h]
  simp

theorem isolated_addressed (haddressed : protocol.Addresses s sel op)
    (h : ∃ log, (protocol.perform seat sel op s).2.trace = s.trace ++ log ∧
      libwayland.Confined sel [] log) : protocol.Isolated seat sel op s := by
  obtain ⟨log, htrace, hconfined⟩ := h
  exact ⟨log, htrace, hconfined, fun hnot => absurd haddressed hnot⟩

theorem copy_dataControl (data : CopyData) (oneshot : Bool) :
    Protocol.dataControl.Isolated seat sel (.copy data oneshot) s := by
  have hrun : Protocol.dataControl.perform seat sel (.copy data oneshot) s =
      if s.zwlrManager = false ∨ (sel = .primary ∧ s.zwlrManagerVersion < 2) ∨ data.mimeTypes = []
      then (.ok false, s)
      else offer seat (DataControlBackend.setSelection sel) data oneshot s := by
    simp only [perform, DataControlBackend.copy, bind_apply, Prog.read_apply, id]
    by_cases hmanager : s.zwlrManager <;>
      by_cases hversion : sel = .primary ∧ s.zwlrManagerVersion < 2 <;>
      by_cases htypes : data.mimeTypes = [] <;> simp [hmanager, hversion, htypes]
  by_cases hrefuse : s.zwlrManager = false ∨ (sel = .primary ∧ s.zwlrManagerVersion < 2) ∨
      data.mimeTypes = []
  · exact isolated_refusal (hrun.trans (if_pos hrefuse))
  · rw [if_neg hrefuse] at hrun
    apply isolated_addressed
    · exact fun hsel hlow => hrefuse (.inr (.inl ⟨hsel, hlow⟩))
    · rw [hrun]
      have hset : (DataControlBackend.setSelection sel).contacts = [.set sel] := by cases sel <;> rfl
      obtain ⟨log, htrace, -, hsets⟩ := (offer_sets seat hset data oneshot s).log
      exact ⟨log, htrace, libwayland.confined_of_set hsets⟩

theorem copy_dataDevice (data : CopyData) (oneshot : Bool) :
    Protocol.dataDevice.Isolated seat sel (.copy data oneshot) s := by
  have hrun : Protocol.dataDevice.perform seat sel (.copy data oneshot) s =
      if s.wlManager = false ∨ sel = .primary then (.ok false, s)
      else offer seat (.setSelection true) data oneshot s := by
    simp only [perform, DataDeviceBackend.copy, bind_apply, Prog.read_apply, id]
    by_cases hmanager : s.wlManager <;> by_cases hsel : sel = .primary <;> simp [hmanager, hsel]
  by_cases hrefuse : s.wlManager = false ∨ sel = .primary
  · exact isolated_refusal (hrun.trans (if_pos hrefuse))
  · rw [if_neg hrefuse] at hrun
    have hsel : sel = .regular := by
      cases sel with
      | regular => rfl
      | primary => exact absurd (.inr rfl) hrefuse
    have hset : (WlRequest.setSelection true).contacts = [.set sel] := by rw [hsel]; rfl
    have haddressed : Protocol.dataDevice.Addresses s sel (.copy data oneshot) := hsel
    apply isolated_addressed haddressed
    rw [hrun]
    obtain ⟨log, htrace, -, hsets⟩ := (offer_sets seat hset data oneshot s).log
    exact ⟨log, htrace, libwayland.confined_of_set hsets⟩

/-- A program whose result is only looked at reaches the same state. -/
theorem bind_pure_state {α β : Type} (p : Prog Halt State α) (f : α → β) (s : State) :
    ((do
      let a ← p
      return f a) s).2 = (p s).2 := by
  rw [bind_apply]
  rcases p s with ⟨e | a, s'⟩ <;> rfl

/-- A paste runs its listeners from the state that the operation starts in. -/
theorem kept_run {σ : Type} {st : σ} {p : Prog Halt (Listening σ) (Bool × PasteResult)}
    (h : Triple (fun l => l.trace = s.trace ∧ l.st = st) p (fun _ => Kept sel s.trace)
      (fun _ => Kept sel s.trace)) :
    ∃ log, (Listening.run st p s).2.trace = s.trace ++ log ∧ libwayland.Confined sel [] log :=
  h.reached ⟨rfl, rfl⟩

theorem paste_dataControl (preferMime : Text) (listOnly : Bool) :
    Protocol.dataControl.Isolated seat sel (.paste preferMime listOnly) s := by
  have hrun : DataControlBackend.paste seat sel preferMime listOnly s =
      if s.zwlrManager = false ∨ (sel = .primary ∧ s.zwlrManagerVersion < 2)
      then (.ok (false, .empty), s)
      else Listening.run .new (DataControlBackend.receive seat sel preferMime listOnly) s := by
    simp only [DataControlBackend.paste, bind_apply, Prog.read_apply, id]
    by_cases hmanager : s.zwlrManager <;>
      by_cases hversion : sel = .primary ∧ s.zwlrManagerVersion < 2 <;> simp [hmanager, hversion]
  by_cases hrefuse : s.zwlrManager = false ∨ (sel = .primary ∧ s.zwlrManagerVersion < 2)
  · apply isolated_refusal
    exact bind_ok (hrun.trans (if_pos hrefuse))
  · rw [if_neg hrefuse] at hrun
    apply isolated_addressed
    · exact fun hsel hlow => hrefuse (.inr ⟨hsel, hlow⟩)
    · rw [perform, bind_pure_state, hrun]
      exact kept_run (DataControlBackend.receive_kept seat preferMime listOnly)

theorem paste_dataDevice (preferMime : Text) (listOnly : Bool) :
    Protocol.dataDevice.Isolated seat sel (.paste preferMime listOnly) s := by
  have hrun : DataDeviceBackend.paste seat sel preferMime listOnly s =
      if s.wlManager = false ∨ sel = .primary then (.ok (false, .empty), s)
      else Listening.run .new (DataDeviceBackend.receive seat preferMime listOnly) s := by
    simp only [DataDeviceBackend.paste, bind_apply, Prog.read_apply, id]
    by_cases hmanager : s.wlManager <;> by_cases hsel : sel = .primary <;> simp [hmanager, hsel]
  by_cases hrefuse : s.wlManager = false ∨ sel = .primary
  · apply isolated_refusal
    exact bind_ok (hrun.trans (if_pos hrefuse))
  · rw [if_neg hrefuse] at hrun
    have hsel : sel = .regular := by
      cases sel with
      | regular => rfl
      | primary => exact absurd (.inr rfl) hrefuse
    have haddressed : Protocol.dataDevice.Addresses s sel (.paste preferMime listOnly) := hsel
    apply isolated_addressed haddressed
    rw [perform, bind_pure_state, hrun, hsel]
    exact kept_run (DataDeviceBackend.receive_kept seat preferMime listOnly)

/-! ### Clearing -/

open CopyCommand (handleClear)

/-- What is cleared depends on the version of the manager that is bound. -/
def cleared (sel : Selection) (version : UInt32) : Selection :=
  if sel = .primary ∧ version ≥ 2 then .primary else .regular

theorem clear_unbound (h : s.zwlrManager = false) :
    protocol.perform seat sel .clear s = (.ok false, s) := by
  have hrun : handleClear seat (sel = .primary) s = (.ok 1, s) := by
    simp [handleClear, bind_apply, h]
  cases protocol <;> exact bind_ok hrun

/-- The request that clears the selection. -/
def clearRequest (sel : Selection) (version : UInt32) : WlRequest :=
  if cleared sel version = .primary then .setPrimarySelection false else .setSelection false

theorem contacts_clearRequest (sel : Selection) (version : UInt32) :
    (clearRequest sel version).contacts = [.clear (cleared sel version)] := by
  unfold clearRequest
  rcases cleared sel version with _ | _ <;> rfl

theorem handleClear_bound (h : s.zwlrManager = true) :
    handleClear seat (sel = .primary) s = (do
        let _ ← State.roundtrip
        State.request .destroyDevice
        return 0)
      { s with trace := s.trace ++ [Action.request (.getDataDevice seat.proxy)] ++
        [Action.request (clearRequest sel s.zwlrManagerVersion)] } := by
  have hrequest : clearRequest sel s.zwlrManagerVersion =
      if decide (sel = .primary) = true ∧ s.zwlrManagerVersion ≥ 2 then .setPrimarySelection false
      else .setSelection false := by
    unfold clearRequest cleared
    by_cases hsel : sel = .primary <;> by_cases hversion : s.zwlrManagerVersion ≥ 2 <;>
      simp [hsel, hversion]
  rw [hrequest, handleClear, bind_ok (Prog.read_apply id s), if_neg (by simp [h])]
  rfl

/-- With a manager bound, the operation clears one selection and does nothing else. -/
theorem clear_bound (protocol : Protocol) (seat : SeatInfo) (sel : Selection)
    (h : s.zwlrManager = true) :
    ∃ after, libwayland.Quiet after ∧ (protocol.perform seat sel .clear s).2.trace = s.trace ++
      ([.request (.getDataDevice seat.proxy)] ++
        .request (clearRequest sel s.zwlrManagerVersion) :: after) := by
  have hrest : Within (State.Logged fun a => libwayland.contacts a = []) (do
      let _ ← State.roundtrip
      State.request .destroyDevice
      return 0) := by
    have hroundtrip : Within (State.Logged fun a => libwayland.contacts a = [])
        State.roundtrip := Listening.run_logged (Listening.roundtrip_logged (fun _ => rfl)
      (fun _ hr => hr.quiet) fun _ => Within.pure _)
    exact Within.bind hroundtrip fun _ => Within.bind (State.request_logged rfl) fun _ =>
      Within.pure _
  obtain ⟨after, htrace, -, hquiet⟩ := (hrest { s with
    trace := s.trace ++ [Action.request (.getDataDevice seat.proxy)] ++
      [Action.request (clearRequest sel s.zwlrManagerVersion)] }).log
  refine ⟨after, hquiet, ?_⟩
  have hstate : (protocol.perform seat sel .clear s).2 = (handleClear seat (sel = .primary) s).2 := by
    cases protocol <;> exact bind_pure_state _ _ _
  rw [hstate, handleClear_bound h, htrace]
  simp

theorem clear_isolated_iff : protocol.Isolated seat sel .clear s ↔
    (s.zwlrManager = true → cleared sel s.zwlrManagerVersion = sel) := by
  by_cases h : s.zwlrManager = true
  · obtain ⟨after, hquiet, htrace⟩ := clear_bound protocol seat sel h
    have hdevice : libwayland.Quiet [.request (.getDataDevice seat.proxy)] := fun a ha => by
      cases List.mem_singleton.mp ha
      rfl
    have hcontacts : libwayland.contacts (.request (clearRequest sel s.zwlrManagerVersion)) =
        [.clear (cleared sel s.zwlrManagerVersion)] :=
      (List.flatMap_singleton _ _).trans (contacts_clearRequest sel s.zwlrManagerVersion)
    constructor
    · rintro ⟨log, hlog, hisolated⟩ -
      have heq := List.append_cancel_left (htrace.symm.trans hlog)
      have hconfined := hisolated.confined
      rw [← heq, hdevice.confined_append] at hconfined
      refine hconfined.1 (.clear _) ?_
      rw [hcontacts]
      exact List.mem_singleton_self _
    · intro hcleared
      refine isolated_addressed ?_ ⟨_, htrace, ?_⟩
      · have haddressed : sel = .primary → ¬ s.zwlrManagerVersion < 2 := by
          rintro rfl hlow
          have hregular : cleared .primary s.zwlrManagerVersion = .regular :=
            if_neg fun hboth => absurd hlow (UInt32.not_lt.mpr hboth.2)
          cases hregular.symm.trans (hcleared h)
        cases protocol <;> exact haddressed
      · refine hdevice.confined_append.mpr ⟨fun c hc => ?_, hquiet.confined⟩
        rw [hcontacts] at hc
        cases List.mem_singleton.mp hc
        exact hcleared h
  · rw [Bool.not_eq_true] at h
    refine iff_of_true (isolated_refusal (clear_unbound h)) fun hbound => ?_
    cases h.symm.trans hbound

theorem cleared_iff (sel : Selection) (version : UInt32) :
    cleared sel version = sel ↔ ¬ (sel = .primary ∧ version < 2) := by
  unfold cleared
  cases sel with
  | regular => simp
  | primary =>
      have hle : version ≥ 2 ↔ ¬ version < 2 := UInt32.not_lt.symm
      by_cases hlow : version < 2 <;> simp [hle, hlow]

/-- An operation is isolated unless it clears the primary selection through a manager that cannot
address it. -/
theorem perform_isolated (protocol : Protocol) (seat : SeatInfo) (sel : Selection) (op : Operation)
    (s : State) : protocol.Isolated seat sel op s ↔
      ¬ (op = .clear ∧ s.zwlrManager = true ∧ sel = .primary ∧ s.zwlrManagerVersion < 2) := by
  cases op with
  | copy data oneshot =>
      refine iff_of_true ?_ nofun
      cases protocol with
      | dataControl => exact copy_dataControl data oneshot
      | dataDevice => exact copy_dataDevice data oneshot
  | paste preferMime listOnly =>
      refine iff_of_true ?_ nofun
      cases protocol with
      | dataControl => exact paste_dataControl preferMime listOnly
      | dataDevice => exact paste_dataDevice preferMime listOnly
  | clear =>
      rw [clear_isolated_iff, cleared_iff]
      tauto

end Protocol

end WlClip
