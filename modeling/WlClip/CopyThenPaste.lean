import WlClip.Outgoing
import WlClip.PasteAgreement
import WlClip.SendDescriptors

/-!
# A copy and a paste

A copy and a paste run side by side. The compositor reads what they send, tells the paste of the
types that the copy offers and hands the paste's request on to the copy, which writes to the pipe
that the paste reads. However the two are interleaved and their bytes are cut, the paste ends up
with what was copied.
-/

open ScriptedProgram ScriptedProgram.Prog

namespace WlClip

open Message (framing)
open Handcrafted
open Offers

/-! ## Interleavings -/

inductive Party
  | copier
  | paster
  deriving DecidableEq

/-- What the two processes do, in the order in which they do it. -/
abbrev Interleaving := List (Party × Action)

def Party.log (who : Party) (steps : Interleaving) : List Action :=
  steps.filterMap fun a => if a.1 = who then some a.2 else none

section

variable {who : Party} {steps : Interleaving} {before after : List Action} {a : Action}

theorem log_append (who : Party) (steps steps' : Interleaving) :
    who.log (steps ++ steps') = who.log steps ++ who.log steps' := List.filterMap_append

theorem log_map (who who' : Party) (log : List Action) :
    who.log (log.map fun a => (who', a)) = if who' = who then log else [] := by
  by_cases h : who' = who
  · simp [Party.log, List.filterMap_map, h]
  · simp [Party.log, List.filterMap_map, h]

theorem log_split (h : who.log steps = before ++ a :: after) :
    ∃ steps₁ steps₂, steps = steps₁ ++ (who, a) :: steps₂ ∧ who.log steps₁ = before ∧
      who.log steps₂ = after := by
  obtain ⟨steps₁, rest, rfl, hbefore, hrest⟩ := List.filterMap_eq_append_iff.mp h
  obtain ⟨skipped, step, steps₂, rfl, hskipped, hstep, hafter⟩ := List.filterMap_eq_cons_iff.mp hrest
  refine ⟨steps₁ ++ skipped, steps₂, ?_, ?_, hafter⟩
  · split_ifs at hstep with hwho
    cases hstep
    simp [← hwho]
  · rw [log_append, Party.log, hbefore, Party.log, List.filterMap_eq_nil_iff.mpr hskipped,
      List.append_nil]

end

/-! ## The compositor -/

namespace ObjectTable

/-- What the compositor reads in the complete messages among the bytes of a client. -/
def read (t : ObjectTable) (bytes : List UInt8) : Option Script :=
  t.session (framing.split bytes).1

def withOffer (t : ObjectTable) (i : UInt32) : ObjectTable :=
  { t with interfaces := fun j => if j = i then some .offer else t.interfaces j }

end ObjectTable

def Request.selects (sel : Selection) : Request → Option UInt32
  | .setSelection source => if sel = .regular then some source else none
  | .setPrimarySelection source => if sel = .primary then some source else none
  | _ => none

def sourceTypes (source : UInt32) (rs : Script) : List Text :=
  rs.filterMap fun
    | (i, .offer m) => if i = source then some m else none
    | _ => none

/-- The types of the source that was made the selection last. -/
def selectedTypes (sel : Selection) (rs : Script) : Option (List Text) :=
  (rs.filterMap fun a => a.2.selects sel).getLast?.map fun source => sourceTypes source rs

def receives (i : UInt32) (rs : Script) : List Text :=
  rs.filterMap fun
    | (j, .receive m) => if j = i then some m else none
    | _ => none

/-- The requests that the compositor reads in what a process has sent. -/
def understood (t : ObjectTable) (log : List Action) : Script :=
  (t.read (log.flatMap Action.sent)).getD []

/-- The events that tell a client of an offer which is the selection. -/
def shown (sel : Selection) (i : UInt32) (types : List Text) : List PasteEvent :=
  .offered i :: (types.map (.announced i) ++ [.selection sel (some i)])

def wanted (sent : List Sent) : List (List UInt8) :=
  sent.filterMap fun s => if IsSend s.message then some s.message.payload else none

/-- Between the copy and the paste the compositor shows what the copy offers, as offer `i`, and hands
on what the paste asks for. -/
structure Relayed (sel : Selection) (i : UInt32) (sent : List Sent) (events : List PasteEvent)
    (steps : Interleaving) : Prop where
  shows : ∃ before types, before <+: steps ∧
    selectedTypes sel (understood .initial (Party.copier.log before)) = some types ∧
    events = shown sel i types
  forwards : wanted sent <+: (receives i (understood (ObjectTable.initial.withOffer i)
    (Party.paster.log steps))).map fun m => [Arg.str m].flatMap Arg.bytes
  conforming : Conforming sent
  carried : Carried sent (Party.copier.log steps)

/-! ## The pipe -/

def Action.readFrom (fd : Int) : Action → List UInt8
  | .call (.read fd') (.read (.ok bytes)) => if fd' = fd then bytes else []
  | _ => []

def Action.pipes (fd : Int) : Action → Bool
  | .call .pipe (.pipe (.ok ends)) => ends.1 = fd
  | _ => false

/-- What was read from `fd` since it became the read end of a pipe. -/
def readSince (fd : Int) (log : List Action) : List UInt8 :=
  log.foldl (fun bytes a => if a.pipes fd then [] else bytes ++ a.readFrom fd) []

/-- What a write puts into the pipe. -/
def Action.wroteTo (fd : Int) : Action → List UInt8
  | .call (.write fd' bytes) (.write (.wrote n)) => if fd' = fd then bytes.take n else []
  | _ => []

def Action.serves (fd : Int) : Action → Bool
  | .serveSend fd' _ => fd' = fd
  | _ => false

def Action.closes (fd : Int) : Action → Bool
  | .close fd' => fd' = fd
  | _ => false

/-- The payload was served on the descriptor, which is closed. -/
def ServedOn (fd : Int) (log : List Action) : Prop :=
  (log.dropWhile fun a => !a.serves fd).any (Action.closes fd) = true

instance (fd : Int) (log : List Action) : Decidable (ServedOn fd log) :=
  inferInstanceAs (Decidable (_ = _))

/-- What a call has read from `fd`, which is nothing at the end of the file. -/
def Action.gotFrom (fd : Int) : Action → Option (List UInt8)
  | .call (.read fd') (.read (.ok bytes)) => if fd' = fd then some bytes else none
  | _ => none

/-- The paste reads from `readEnd` what the copy has written to `fd`, and finds the end of the file
when the copy has served the payload. -/
def Piped (readEnd fd : Int) (steps : Interleaving) : Prop :=
  ∀ before bytes after,
    steps = before ++ (.paster, .call (.read readEnd) (.read (.ok bytes))) :: after →
    let got := readSince readEnd (Party.paster.log before)
    let written := (Party.copier.log before).flatMap (Action.wroteTo fd)
    got ++ bytes <+: written ∧
      (bytes = [] → got = written ∧ ServedOn fd (Party.copier.log before))

theorem piped_of_places {readEnd fd : Int} {steps : Interleaving}
    (h : ∀ k < steps.length, ∀ bytes ∈ steps[k]?.bind fun a =>
        if a.1 = .paster then a.2.gotFrom readEnd else none,
      let got := readSince readEnd (Party.paster.log (steps.take k))
      let written := (Party.copier.log (steps.take k)).flatMap (Action.wroteTo fd)
      got ++ bytes <+: written ∧
        (bytes = [] → got = written ∧ ServedOn fd (Party.copier.log (steps.take k)))) :
    Piped readEnd fd steps := by
  rintro before bytes after rfl
  have hplace := h before.length (by simp) bytes (by simp [Action.gotFrom])
  simpa using hplace

def Action.accepted (fd : Int) : Action → Bool
  | .call (.write fd' _) (.write r) => fd' ≠ fd || match r with
    | .wrote n => 0 < n
    | .failed e => e = .EINTR ∨ e = .EAGAIN
    | .noReader => false
  | .call (.poll fd' 5000) (.poll r) => fd' ≠ fd || match r with
    | .ok (.ready _) => true
    | _ => false
  | _ => true

/-! ## What the copy writes -/

section

variable {fd : Int} {data out : List UInt8} {log calls : List Action} {fds : List Int}
  {e : Process.TransferEnd}

theorem wroteTo_transfer (h : Process.Transfer fd data calls out e) :
    calls.flatMap (Action.wroteTo fd) = out := by
  induction h with
  | complete => rfl
  | wrote n hdata hn h ih => simp [Action.wroteTo, ih]
  | interrupted hdata h ih => simp [Action.wroteTo, ih]
  | waited pollin hdata h ih => simp [Action.wroteTo, ih]
  | timedOut r hdata hr => simp [Action.wroteTo]
  | failed r hdata hr => rcases hr with rfl | ⟨e, rfl, -⟩ <;> simp [Action.wroteTo]
  | broken hdata => simp [Action.wroteTo]

theorem complete_of_accepted (h : Process.Transfer fd data calls out e)
    (haccepted : ∀ a ∈ calls, a.accepted fd = true) : e = .complete := by
  induction h with
  | complete => rfl
  | wrote n hdata hn h ih => exact ih fun a ha => haccepted a (List.mem_cons_of_mem _ ha)
  | interrupted hdata h ih => exact ih fun a ha => haccepted a (List.mem_cons_of_mem _ ha)
  | waited pollin hdata h ih =>
      exact ih fun a ha => haccepted a (List.mem_cons_of_mem _ (List.mem_cons_of_mem _ ha))
  | timedOut r hdata hr =>
      have hpoll := haccepted _ (List.mem_cons_of_mem _ List.mem_cons_self)
      rcases r with e | _ | pollin
      · simp [Action.accepted] at hpoll
      · simp [Action.accepted] at hpoll
      · exact absurd rfl (hr pollin)
  | failed r hdata hr =>
      have hwrite := haccepted _ List.mem_cons_self
      rcases hr with rfl | ⟨e, rfl, hintr, hagain⟩
      · simp [Action.accepted] at hwrite
      · simp [Action.accepted, hintr, hagain] at hwrite
  | broken hdata =>
      have hwrite := haccepted _ List.mem_cons_self
      simp [Action.accepted] at hwrite

theorem closes_of_transfer (h : Process.Transfer fd data calls out e) :
    ∀ a ∈ calls, a.closes fd = false := h.forall_mem (fun _ _ => rfl) fun _ => rfl

theorem Handcrafted.ServedInOrder.idle (h : ServedInOrder data [] log) : ∀ a ∈ log, ¬ Serves a := by
  generalize hfds : ([] : List Int) = fds at h
  induction h with
  | start => exact List.forall_mem_nil _
  | other a ha h ih =>
      exact List.forall_mem_append.mpr ⟨ih hfds, List.forall_mem_singleton.mpr ha⟩
  | request payload fd htransfer h ih => simp at hfds

theorem Handcrafted.ServedInOrder.once (h : ServedInOrder data [fd] log) :
    ∃ before payload calls after out e, Process.Transfer fd data calls out e ∧
      log = before ++ .dispatch 7 Zdcs.kEvSend payload :: .serveSend fd data :: (calls ++ after) ∧
      (∀ a ∈ before, ¬ Serves a) ∧ ∀ a ∈ after, ¬ Serves a := by
  generalize hfds : [fd] = fds at h
  induction h with
  | start => cases hfds
  | other a ha h ih =>
      obtain ⟨before, payload, calls, after, out, e, htransfer, rfl, hbefore, hafter⟩ := ih hfds
      refine ⟨before, payload, calls, after ++ [a], out, e, htransfer, by simp, hbefore, ?_⟩
      exact List.forall_mem_append.mpr ⟨hafter, List.forall_mem_singleton.mpr ha⟩
  | @request fds log calls out e payload fd' htransfer h ih =>
      obtain ⟨rfl, hfd⟩ := List.append_inj' (hfds.symm.trans (List.nil_append _).symm) rfl
      obtain rfl := List.singleton_inj.mp hfd
      exact ⟨log, payload, calls, [], out, e, htransfer, by simp, h.idle, List.forall_mem_nil _⟩

/-- Where only one element of a list has a property, there is one place for it. -/
theorem place_unique {α : Type} {P : α → Prop} {l l' r r' : List α} {x y : α}
    (h : l ++ x :: r = l' ++ y :: r') (hx : P x) (hl : ∀ a ∈ l', ¬ P a)
    (hr : ∀ a ∈ r', ¬ P a) : l = l' ∧ r = r' := by
  induction l generalizing l' with
  | nil =>
      cases l' with
      | nil => exact ⟨rfl, (List.cons.inj h).2⟩
      | cons z l' => exact absurd ((List.cons.inj h).1 ▸ hx) (hl z List.mem_cons_self)
  | cons a l ih =>
      cases l' with
      | nil =>
          have hmem : x ∈ r' := (List.cons.inj h).2 ▸ List.mem_append_right _ List.mem_cons_self
          exact absurd hx (hr x hmem)
      | cons z l' =>
          obtain ⟨rfl, htail⟩ := List.cons.inj h
          obtain ⟨rfl, rfl⟩ := ih htail fun b hb => hl b (List.mem_cons_of_mem _ hb)
          exact ⟨rfl, rfl⟩

theorem ServedOn.split (h : ServedOn fd log) : ∃ before payload after a,
    log = before ++ .serveSend fd payload :: after ∧ a ∈ after ∧ a.closes fd = true := by
  have hsplit := List.takeWhile_append_dropWhile (p := fun a => !Action.serves fd a) (l := log)
  rcases hdrop : log.dropWhile fun a => !Action.serves fd a with _ | ⟨x, after⟩
  · rw [ServedOn, hdrop] at h
    cases h
  · have hx : Action.serves fd x = true := by
      have hhead := List.head_dropWhile_not (fun a => !Action.serves fd a) (l := log) (by simp [hdrop])
      simpa [hdrop] using hhead
    rw [ServedOn, hdrop, List.any_cons] at h
    cases x with
    | serveSend fd' payload =>
        obtain rfl : fd' = fd := by simpa [Action.serves] using hx
        obtain ⟨a, ha, hcloses⟩ := List.any_eq_true.mp h
        exact ⟨_, payload, after, a, (hdrop ▸ hsplit).symm, ha, hcloses⟩
    | _ => cases hx

theorem serves_of_transfer (h : Process.Transfer fd data calls out e) :
    ∀ a ∈ calls, ¬ a.serves fd = true := h.forall_mem (fun _ _ => nofun) fun _ => nofun

theorem served_once (h : ServedSoFar data fds log) (hfds : fds <+: [fd])
    (hbegun : ∃ a ∈ log, Action.serves fd a = true) :
    ∃ before calls after, log = before ++ .serveSend fd data :: (calls ++ after) ∧
      (∀ a ∈ before, ¬ a.serves fd = true ∧ a.wroteTo fd = []) ∧
      (∀ a ∈ calls, ¬ a.serves fd = true ∧ a.closes fd = false) ∧
      (∀ a ∈ after, ¬ a.serves fd = true ∧ a.wroteTo fd = []) ∧
      (after ≠ [] → ∃ out e, Process.Transfer fd data calls out e) := by
  have hidle : ∀ {part : List Action}, (∀ a ∈ part, ¬ Serves a) →
      ∀ a ∈ part, ¬ a.serves fd = true ∧ a.wroteTo fd = [] := by
    intro part hpart a ha
    cases a with
    | serveSend fd' payload => exact absurd (.begun fd' payload) (hpart _ ha)
    | call c r =>
        cases c with
        | write fd' bytes => exact absurd (.wrote fd' bytes r) (hpart _ ha)
        | _ => exact ⟨nofun, rfl⟩
    | _ => exact ⟨nofun, rfl⟩
  have hnone : ∀ {part : List Action}, ServedInOrder data [] part →
      ¬ ∃ a ∈ part, Action.serves fd a = true := by
    rintro part hpart ⟨a, ha, hserves⟩
    exact (hidle hpart.idle a ha).1 hserves
  have hhanded : ∀ {before : List Action} (payload : List UInt8), (∀ a ∈ before, ¬ Serves a) →
      ∀ a ∈ before ++ [.dispatch 7 Zdcs.kEvSend payload], ¬ a.serves fd = true ∧ a.wroteTo fd = [] :=
    fun payload hbefore => List.forall_mem_append.mpr
      ⟨hidle hbefore, List.forall_mem_singleton.mpr ⟨nofun, rfl⟩⟩
  cases h with
  | whole h =>
      rcases List.prefix_cons_iff.mp hfds with rfl | ⟨more, rfl, hmore⟩
      · exact absurd hbegun (hnone h)
      obtain rfl := List.prefix_nil.mp hmore
      obtain ⟨before, payload, calls, after, out, e, htransfer, rfl, hbefore, hafter⟩ := h.once
      refine ⟨before ++ [.dispatch 7 Zdcs.kEvSend payload], calls, after, by simp,
        hhanded payload hbefore, ?_, hidle hafter, fun _ => ⟨out, e, htransfer⟩⟩
      exact fun a ha => ⟨serves_of_transfer htransfer a ha, closes_of_transfer htransfer a ha⟩
  | @cut fds before calls payload fd' hunfinished h =>
      obtain ⟨more, hmore⟩ := hfds
      have hlength := congrArg List.length hmore
      obtain rfl : fds = [] := by
        apply List.length_eq_zero_iff.mp
        simp only [List.length_append, List.length_singleton] at hlength
        omega
      obtain ⟨rfl, -⟩ := List.cons.inj hmore
      obtain ⟨rest, out, e, htransfer⟩ := hunfinished
      refine ⟨before ++ [.dispatch 7 Zdcs.kEvSend payload], calls, [], by simp,
        hhanded payload h.idle, ?_, List.forall_mem_nil _, fun hne => absurd rfl hne⟩
      intro a ha
      have hmem := List.mem_append_left rest ha
      exact ⟨serves_of_transfer htransfer a hmem, closes_of_transfer htransfer a hmem⟩

/-- When a copy has served the one request that it was sent, it has written the payload. -/
theorem written_served (h : ServedSoFar data fds log) (hfds : fds <+: [fd]) {part : List Action}
    (hpart : part <+: log) (hserved : ServedOn fd part)
    (haccepted : ∀ a ∈ log, a.accepted fd = true) :
    part.flatMap (Action.wroteTo fd) = data := by
  obtain ⟨before, payload, since, a, rfl, ha, hcloses⟩ := hserved.split
  obtain ⟨rest, hlog⟩ := hpart
  have hbegins : (Action.serveSend fd payload).serves fd = true := by simp [Action.serves]
  have hbegun : ∃ a ∈ log, Action.serves fd a = true := by
    refine ⟨_, ?_, hbegins⟩
    rw [← hlog]
    exact List.mem_append_left _ (List.mem_append_right _ List.mem_cons_self)
  obtain ⟨before', calls, after, rfl, hbefore, hcalls, hafter, hover⟩ :=
    served_once h hfds hbegun
  rw [List.append_assoc, List.cons_append] at hlog
  obtain ⟨rfl, hsince⟩ := place_unique (P := fun b => Action.serves fd b = true) hlog hbegins
    (fun b hb => (hbefore b hb).1)
    (List.forall_mem_append.mpr ⟨fun b hb => (hcalls b hb).1, fun b hb => (hafter b hb).1⟩)
  -- The descriptor is closed after the calls of the transfer, so that all of them are there.
  have hnotcall : ¬ since <+: calls := fun hshort => by
    have hopen := (hcalls a (hshort.subset ha)).2
    rw [hcloses] at hopen
    cases hopen
  obtain ⟨more, rfl⟩ : calls <+: since :=
    (List.prefix_or_prefix_of_prefix ⟨rest, hsince⟩ ⟨after, rfl⟩).resolve_left hnotcall
  rw [List.append_assoc, List.append_cancel_left_eq] at hsince
  have hne : after ≠ [] := by
    rintro rfl
    obtain ⟨rfl, -⟩ := List.append_eq_nil_iff.mp hsince
    exact hnotcall (by simp)
  obtain ⟨out, e, htransfer⟩ := hover hne
  have hcomplete := complete_of_accepted htransfer fun b hb => haccepted b (by simp [hb])
  have hout := htransfer.out_prefix.2.mp hcomplete
  have hnil : ∀ {part : List Action}, (∀ b ∈ part, ¬ b.serves fd = true ∧ b.wroteTo fd = []) →
      part.flatMap (Action.wroteTo fd) = [] := fun hpart =>
    List.flatMap_eq_nil_iff.mpr fun b hb => (hpart b hb).2
  have hmore : ∀ b ∈ more, ¬ b.serves fd = true ∧ b.wroteTo fd = [] := fun b hb =>
    hafter b (hsince ▸ List.mem_append_left rest hb)
  rw [List.flatMap_append, List.flatMap_cons, List.flatMap_append, hnil hbefore, hnil hmore,
    wroteTo_transfer htransfer, hout]
  simp [Action.wroteTo]

end

/-! ## What the compositor reads -/

section

variable {t : ObjectTable} {rs : Script} {sel : Selection}

theorem read_encodes (h : Accepted t rs) : t.read (encodes rs) = some rs := by
  have hsplit := framing.split_stream (messages rs) framing.first_nil
  rw [List.append_nil] at hsplit
  rw [encodes_eq h.1, ObjectTable.read, hsplit]
  exact h.2

theorem read_cut (h : Accepted t rs) {bytes : List UInt8} (hbytes : bytes <+: encodes rs) :
    ∃ rs', rs' <+: rs ∧ t.read bytes = some rs' := by
  rw [encodes_eq h.1] at hbytes
  obtain ⟨k, hpart⟩ : ∃ k, (framing.split bytes).1 = messages (rs.take k) :=
    ⟨_, (List.prefix_iff_eq_take.mp (framing.split_cut hbytes)).trans (List.map_take).symm⟩
  refine ⟨rs.take k, List.take_prefix k rs, ?_⟩
  rw [ObjectTable.read, hpart]
  exact (h.cut (List.take_prefix k rs)).2

/-- The last request of a copy makes its source the selection; no other one does. -/
theorem selectedTypes_announced {sg : SeatGlobal} {mg : ManagerGlobal} {mimes types : List Text}
    (hrs : rs <+: bootScript sg mg ++ announceScript sel mimes)
    (h : selectedTypes sel rs = some types) : types = mimes := by
  let before : Script := bootScript sg mg ++ ([(5, .createDataSource 7), (5, .getDataDevice 8 4)] ++
    mimes.map fun m => (7, .offer m))
  have hscript : bootScript sg mg ++ announceScript sel mimes =
      before ++ [(8, setSelection sel 7)] := by
    simp [before, announceScript]
  have hnone : ∀ a ∈ before, Request.selects sel a.2 = none := by
    simp [before, bootScript, Request.selects]
  have hlast : Request.selects sel (setSelection sel 7) = some 7 := by cases sel <;> rfl
  rw [hscript, List.prefix_concat_iff] at hrs
  rcases hrs with rfl | hbefore
  · rw [selectedTypes, List.filterMap_append, List.filterMap_eq_nil_iff.mpr hnone] at h
    have hoffers : sourceTypes 7 (before ++ [(8, setSelection sel 7)]) = mimes := by
      cases sel <;>
        simp [before, bootScript, sourceTypes, setSelection, List.filterMap_map]
    simpa [hlast, hoffers, eq_comm] using h
  · rw [selectedTypes, List.filterMap_eq_nil_iff.mpr fun a ha => hnone a (hbefore.subset ha)] at h
    cases h

theorem copy_understood (display seat : Text) (sel : Selection) (data : CopyData) (oneshot : Bool)
    (hmimes : ∀ m ∈ data.mimeTypes, m.length ≤ 65519) {p : Process} (hp : p.trace = [])
    {part : List Action}
    (hpart : part <+: (HandcraftedBackend.copy display seat sel data oneshot p).2.trace)
    {types : List Text} (h : selectedTypes sel (understood .initial part) = some types) :
    types = data.mimeTypes := by
  obtain ⟨sg, mg, rs, n, ids, hscripted, hrs⟩ :=
    (copyClient_spoken display seat sel).reached (fresh_new p data oneshot hp)
  have hqueued : (HandcraftedBackend.copy display seat sel data oneshot p).2.queued = encodes rs :=
    (Client.observe_run (fun _ => rfl) _ _ p).trans hscripted.queued
  have hfull := copyRest_cut hrs
  have haccepted := (accepted_boot sg mg (accepted_announce sel hmimes)).cut hfull
  have hbytes : part.flatMap Action.sent <+: encodes rs := by
    rw [← hqueued]
    exact (hpart.flatMap _).trans (HandcraftedBackend.copy_sent display seat sel data oneshot hp)
  obtain ⟨rs', hrs', hread⟩ := read_cut haccepted hbytes
  rw [understood, hread] at h
  exact selectedTypes_announced (hrs'.trans hfull) h

end

/-! ## What the paste reads -/

theorem readSince_pipe {fd : Int} (before : List Action) {a : Action} {log : List Action}
    (ha : a.pipes fd = true) (hlog : ∀ b ∈ log, b.pipes fd = false) :
    readSince fd (before ++ a :: log) = log.flatMap (Action.readFrom fd) := by
  have hread : ∀ bytes, log.foldl (fun bytes a => if a.pipes fd then [] else bytes ++ a.readFrom fd)
      bytes = bytes ++ log.flatMap (Action.readFrom fd) := by
    induction log with
    | nil => simp
    | cons b log ih =>
        intro bytes
        have hb := hlog b List.mem_cons_self
        have htail := ih (fun c hc => hlog c (List.mem_cons_of_mem _ hc)) (bytes ++ b.readFrom fd)
        simp only [List.foldl_cons, List.flatMap_cons, hb, Bool.false_eq_true, if_false, htail,
          List.append_assoc]
  rw [readSince, List.foldl_append, List.foldl_cons, if_pos ha, hread, List.nil_append]

/-- The replies to the reads of a pipe up to the end of the file. -/
inductive Drains : List UInt8 → List Reply → Prop
  | eof {rest} : Drains [] (.read (.ok []) :: rest)
  | read {out replies} (bytes : List UInt8) (hbytes : bytes ≠ []) (h : Drains out replies) :
      Drains (bytes ++ out) (.read (.ok bytes) :: replies)
  | interrupted {out replies} (h : Drains out replies) :
      Drains out (.read (.error .EINTR) :: replies)

theorem drainLoop_drains (fd : Int) {out : List UInt8} {replies : List Reply}
    (h : Drains out replies) (buf : List UInt8) {p : Process} (hs : p.script = replies) :
    ∃ log rest, loop .stuck (fun _ p => p.size) (Process.drainRound fd) buf p =
      (.ok (buf ++ out), p.after (log ++ [.call (.read fd) (.read (.ok []))]) rest) ∧
      Process.Reads fd log ∧ log.flatMap (Action.readFrom fd) = out := by
  induction h generalizing buf p with
  | @eof rest =>
      have hround := Process.drainRound_read fd buf hs
      refine ⟨[], rest, ?_, List.forall_mem_nil _, rfl⟩
      rw [loop_return (Process.drainRound_shrinks fd) hround, List.append_nil]
      rfl
  | @read out replies bytes hbytes h ih =>
      have hround := Process.drainRound_read fd buf hs
      rw [Process.drainNext, if_neg hbytes] at hround
      obtain ⟨log, rest, hrun, hreads, hout⟩ :=
        ih (buf ++ bytes) (p := p.after [.call (.read fd) (.read (.ok bytes))] replies) rfl
      refine ⟨.call (.read fd) (.read (.ok bytes)) :: log, rest, ?_, ?_, ?_⟩
      · rw [loop_next (Process.drainRound_shrinks fd) hround, hrun, Process.after_after,
          List.append_assoc]
        rfl
      · exact List.forall_mem_cons.mpr ⟨⟨_, rfl⟩, hreads⟩
      · simp [Action.readFrom, hout]
  | @interrupted out replies h ih =>
      have hround := Process.drainRound_read fd buf hs
      rw [Process.drainNext, if_pos rfl] at hround
      obtain ⟨log, rest, hrun, hreads, hout⟩ :=
        ih buf (p := p.after [.call (.read fd) (.read (.error .EINTR))] replies) rfl
      refine ⟨.call (.read fd) (.read (.error .EINTR)) :: log, rest, ?_, ?_, ?_⟩
      · rw [loop_next (Process.drainRound_shrinks fd) hround, hrun, Process.after_after]
        rfl
      · exact List.forall_mem_cons.mpr ⟨⟨_, rfl⟩, hreads⟩
      · simp [Action.readFrom, hout]

section Paste

variable {σ : Type} {cl cl₀ : Client PasteState} {i : UInt32} {mime : Text} {available : List Text}
  {r w : Int} {sends reads : List Reply} {out : List UInt8}

/-- What a paste does from its pipe on: it hands its request and the write end to the socket, and
reads up to the end of the file. -/
structure Fetches (message : List UInt8) (r w : Int) (out : List UInt8) (log : List Action) :
    Prop where
  parts : ∃ flushed got, log = .call .pipe (.pipe (.ok (r, w))) :: .queue message :: .queueFd w ::
      (flushed ++ (got ++ [.call (.read r) (.read (.ok [])), .close r])) ∧
    (∀ a ∈ flushed, Action.Sending a) ∧ flushed.flatMap Action.sent = message ∧
    flushed.flatMap Action.sentFds = [w] ∧
    Process.Reads r got ∧ got.flatMap (Action.readFrom r) = out

theorem fetch_whole (hflushed : Client.Flushed cl)
    (hsends : Connection.Sends ((Request.receive mime).encode i).length sends)
    (hall : ∀ e, .sendmsg (.error e) ∈ sends → e = .EINTR) (hreads : Drains out reads)
    (hs : cl.script = .pipe (.ok (r, w)) :: (sends ++ reads)) :
    ∃ cl' log, fetch i mime available cl = (.ok (true, ⟨mime, out, available⟩), cl') ∧
      cl'.trace = cl.trace ++ log ∧ Fetches ((Request.receive mime).encode i) r w out log := by
  let bytes := (Request.receive mime).encode i
  let c₁ := receiving i mime r w (sends ++ reads) cl
  obtain ⟨hout, hfds, hfew⟩ := receiving_queue i mime r w (sends ++ reads) hflushed
  have hunrefused : sends.any Reply.refused = false := by
    rw [List.any_eq_false]
    intro reply hreply
    unfold Reply.refused
    split
    · simp [hall _ hreply]
    · simp
  obtain ⟨ok, c, hflush, hscript, hok, -⟩ :=
    Connection.flush_outcome hsends (congrArg List.length hout) hfew rfl
  obtain rfl : ok = true := hok.mpr hunrefused
  obtain ⟨flushed, htrace, hsending, -, -, hsent, hsentFds⟩ :=
    (Connection.flush_moves.of_eq hflush).log
  have hleft : c.outBuf = [] ∧ c.outFds = [] :=
    (Connection.flush_triple.ok hflush trivial).mp rfl
  have hqueued : flushed.flatMap Action.queued = [] ∧ flushed.flatMap Action.queuedFds = [] :=
    ⟨List.flatMap_eq_nil_iff.mpr fun a ha => by cases hsending a ha <;> rfl,
      List.flatMap_eq_nil_iff.mpr fun a ha => by cases hsending a ha <;> rfl⟩
  rw [hout, hqueued.1, hleft.1, List.append_nil, List.append_nil] at hsent
  rw [hfds, hqueued.2, hleft.2, List.append_nil, List.append_nil] at hsentFds
  obtain ⟨got, rest, hdrain, hgot, hbytes⟩ := drainLoop_drains r hreads [] hscript
  rw [List.nil_append] at hdrain
  have hsys : Client.sys (Process.drainFd r) { cl with toConnection := c } = (.ok out,
      { cl with toConnection := { c with
        toProcess := c.after (got ++ [.call (.read r) (.read (.ok []))]) rest } }) := by
    have hrun : Process.drainFd r c.toProcess = _ := hdrain
    simp only [Client.sys, Client.onConn, Connection.sys, Prog.zoom_apply, hrun]
  let q := (c.after (got ++ [.call (.read r) (.read (.ok []))]) rest).after [.close r] rest
  refine ⟨{ cl with toConnection := { c with toProcess := q } }, _, ?_, ?_, flushed, got, rfl,
    hsending, hsent.symm, hsentFds.symm, hgot, hbytes⟩
  · rw [fetch_flush hs hflush, bind_ok hsys]
    rfl
  · change c.trace ++ _ ++ _ = _
    rw [htrace]
    simp [receiving]

/-- A paste that has asked for its device, and has sent all that it had to send before it reads. -/
structure PasteListens (display seat : Text) (sel : Selection) (q : Process)
    (cl : Client PasteState) : Prop where
  trace : q.trace = []
  setup : ∃ cl₀, pasteSetup display seat sel (Client.new q .new) = (.ok true, cl₀) ∧
    Client.onConn Connection.flush cl₀ = (.ok true, cl)

variable {display seat : Text} {sel : Selection} {q : Process}

theorem PasteListens.of_setup (htrace : q.trace = [])
    (hcl : (pasteSetup display seat sel (Client.new q .new)).2 = cl)
    (hok : (pasteSetup display seat sel (Client.new q .new)).1 = .ok true)
    (hflushed : Client.Flushed cl) : PasteListens display seat sel q cl :=
  ⟨htrace, cl, Prod.ext hok hcl, Client.flush_flushed hflushed⟩

theorem PasteListens.listening (h : PasteListens display seat sel q cl) :
    Tracking [] State.initial cl ∧ Sending cl ∧ HasDevice sel cl.trace ∧
      ∀ preferMime listOnly, pasteClient display seat sel preferMime listOnly (Client.new q .new) =
        pasteReceive sel preferMime listOnly cl := by
  obtain ⟨cl₀, hsetup, hflush⟩ := h.setup
  have hready := pasteSetup_triple display seat sel _ (fresh_start q rfl h.trace)
  have hsending := pasteSetup_sending display seat sel _ (new_sending q .new h.trace)
  rw [hsetup] at hready hsending
  obtain ⟨hready, hlistens⟩ := hready.1 rfl
  have hwaited := (onConn_waited Connection.flush_keepsInput).of_eq hflush
  have hflushed : Client.Flushed cl :=
    ((Client.onConn_triple Connection.flush_triple).ok hflush trivial).mp rfl
  have htracking := HandcraftedBackend.tracking_ready (hready.locals hwaited.locals) hflushed
  have hgo : haveTarget sel cl.st = false := htracking.haveTarget sel
  refine ⟨htracking, flush_sending.ok hflush hsending,
    (hlistens.waited hwaited).queued, fun preferMime listOnly => ?_⟩
  have hst : cl.st = cl₀.st :=
    congrArg (fun l : Client.Local PasteState => l.2.2) hwaited.locals
  rw [pasteClient, bind_ok hsetup, if_pos rfl, pasteReceive, bind_apply, bind_apply,
    Client.dispatchUntil_flush hflush hst hgo]

/-! ## The whole paste -/

variable {types : List Text}

def told (i : UInt32) (types : List Text) : Tracked :=
  ⟨[(i, types)], fun _ => none, fun _ => false, false⟩

theorem told_types (sel : Selection) (i : UInt32) (before types : List Text)
    (rest : List PasteEvent) :
    (told i before).processed sel (types.map (.announced i) ++ rest) =
        types.map (.announced i) ++ (told i (before ++ types)).processed sel rest ∧
      (told i before).run (types.map (.announced i) ++ rest) =
        (told i (before ++ types)).run rest := by
  induction types generalizing before with
  | nil => simp
  | cons m types ih =>
      have hstep : (told i before).step (.announced i m) = told i (before ++ [m]) := by
        simp [told, Offers.State.step, addTo]
      have htail := ih (before ++ [m])
      rw [List.map_cons, List.cons_append, State.processed_cons rfl, State.run_cons, hstep, htail.1,
        htail.2, List.append_assoc]
      exact ⟨rfl, rfl⟩

/-- A client that was shown an offer has listened to all of it, and the offer is its choice. -/
theorem shown_run (sel : Selection) (i : UInt32) (types : List Text) :
    State.initial.processed sel (shown sel i types) = shown sel i types ∧
      (State.initial.run (shown sel i types)).settled sel = true ∧
      (State.initial.run (shown sel i types)).choice sel = some (i, types) := by
  obtain ⟨hprocessed, hrun⟩ := told_types sel i [] types [.selection sel (some i)]
  have hstep : State.initial.step (.offered i) = told i [] := rfl
  refine ⟨?_, ?_, ?_⟩
  · rw [shown, State.processed_cons rfl, hstep, hprocessed]
    rfl
  · rw [shown, State.run_cons, hstep, hrun]
    simp [told, Offers.State.step, Offers.State.settled]
  · rw [shown, State.run_cons, hstep, hrun]
    simp [told, Offers.State.step, Offers.State.choice, find]

theorem shown_valid (hi : OfferId i) (sel : Selection) (types : List Text) :
    Valid OfferId [] (shown sel i types) := by
  have htypes : ∀ types : List Text,
      Valid OfferId [i] (types.map (.announced i) ++ [.selection sel (some i)]) := by
    intro types
    induction types with
    | nil => trivial
    | cons m types ih => exact ⟨List.mem_singleton_self i, ih⟩
  exact ⟨hi, nofun, htypes types⟩

theorem paste_whole (listens : PasteListens display seat sel q cl) (hi : OfferId i)
    (htypes : types ≠ []) (hnames : ∀ m ∈ types, m ≠ [])
    (hears : Hears sel .initial cl.inBuf cl.script (shown sel i types)
      (.pipe (.ok (r, w)) :: (sends ++ reads)))
    (hsends : Connection.Sends ((Request.receive (chooseMime types [])).encode i).length sends)
    (hall : ∀ e, .sendmsg (.error e) ∈ sends → e = .EINTR) (hreads : Drains out reads) :
    let p := HandcraftedBackend.paste display seat sel [] false q
    p.1 = .ok (true, ⟨chooseMime types [], out, types⟩) ∧
      ∃ before log after, p.2.trace = before ++ (log ++ after) ∧
        (∃ sg mg, before.flatMap Action.sent = encodes (bootScript sg mg ++ deviceScript)) ∧
        before.flatMap Action.sentFds = [] ∧
        Fetches ((Request.receive (chooseMime types [])).encode i) r w out log ∧
        ∀ a ∈ after, ∃ fd, a = .close fd := by
  intro p
  obtain ⟨htracking, hsending, hdevice, hclient⟩ := listens.listening
  obtain ⟨hprocessed, hsettled, hchoice⟩ := shown_run sel i types
  have hv := shown_valid hi sel types
  obtain ⟨l', cl', htrack, hheard, -⟩ := awaiting_run hears htracking hv nofun rfl rfl
  rw [hprocessed] at htrack hheard
  have hstop : awaiting sel cl' = (.ok true, cl') :=
    Client.dispatchUntil_stop ((htrack.haveTarget sel).trans hsettled)
  have hawait : awaiting sel cl = (.ok true, cl') := hheard.run.trans hstop
  have hsending' : Sending cl' :=
    ((sending_stable handlePaste_sending).dispatchUntil (haveTarget sel)).ok hawait hsending
  have hfresh : ∀ o ∈ (State.initial.run (shown sel i types)).offers, OfferId o.1 :=
    fresh_run nofun hv
  obtain ⟨j, hcurrent, hj, hfind⟩ := choice_found hfresh hchoice
  have hmime : chooseMime types [] ≠ [] := hnames _ (chooseMime_mem htypes [])
  have htake : take sel [] false cl' = fetch i (chooseMime types []) types cl' := by
    rw [take_found htrack hcurrent hj hfind, if_neg Bool.false_ne_true, if_neg hmime]
  obtain ⟨cl'', log, hfetch, htrace, hfetches⟩ :=
    fetch_whole htrack.flushed hsends hall hreads hheard.script
  have hrun : pasteClient display seat sel [] false (Client.new q .new) =
      (.ok (true, ⟨chooseMime types [], out, types⟩), cl'') := by
    rw [hclient, pasteReceive]
    exact (bind_ok hawait).trans (htake.trans hfetch)
  have hp : p = (.ok (true, ⟨chooseMime types [], out, types⟩),
      (Connection.close cl''.toConnection).2.toProcess) := by
    simp only [p, HandcraftedBackend.paste, Client.run, hrun]
  obtain ⟨closed, hclose, hclosed⟩ := Connection.close_trace cl''.toConnection
  obtain ⟨sg, mg, hwritten, -⟩ := hdevice
  rw [hp]
  refine ⟨rfl, cl'.trace, log, closed, ?_, ⟨sg, mg, ?_⟩, ?_, hfetches, hclosed⟩
  · rw [hclose, htrace, List.append_assoc]
  · have hsent := hsending'.bytes
    rw [htrack.flushed.1, List.append_nil] at hsent
    change cl'.observe Action.sent = _
    rw [← hsent, hheard.queued, Process.queued_eq]
    change (cl.trace.flatMap Action.written).flatten = _
    rw [hwritten, ← List.flatMap_def]
    rfl
  · have hsent := hsending'.fds
    rw [hsending'.none] at hsent
    exact (List.append_eq_nil_iff.mp hsent.symm).1

end Paste

/-! ## The request of the paste -/

section

variable {t : ObjectTable} {i j id : UInt32} {k : Interface}

theorem interfaces_withOffer (h : j ≠ i) : (t.withOffer i).interfaces j = t.interfaces j := if_neg h

theorem insert_withOffer (h : id ≠ i) : (t.withOffer i).insert id k = (t.insert id k).withOffer i := by
  unfold ObjectTable.insert ObjectTable.withOffer
  congr 1
  funext j
  by_cases hj : j = id
  · simp [hj, h]
  · simp [hj]

/-- An offer changes nothing for requests that have nothing to do with it. -/
theorem step_withOffer {r : Request} {t' : ObjectTable} (hstep : t.step r = some t')
    (hrefers : ∀ a ∈ r.refers, a.1 ≠ i) (hcreates : ∀ a, r.creates = some a → a.1 ≠ i) :
    (t.withOffer i).step r = some (t'.withOffer i) := by
  have hsame : (∀ a ∈ r.refers, (t.withOffer i).interfaces a.1 = some a.2) ↔
      ∀ a ∈ r.refers, t.interfaces a.1 = some a.2 :=
    forall₂_congr fun a ha => by rw [interfaces_withOffer (hrefers a ha)]
  rw [ObjectTable.step] at hstep ⊢
  rw [if_congr hsame rfl rfl]
  split_ifs at hstep ⊢ with href
  rcases hr : r.creates with _ | ⟨id, k⟩ <;> rw [hr] at hstep
  · rw [← Option.some.inj hstep]
  · change (if id = t.next then some (t.insert id k) else none) = some t' at hstep
    change (if id = t.next then some ((t.withOffer i).insert id k) else none) = _
    split_ifs at hstep ⊢
    rw [insert_withOffer (hcreates _ hr), Option.some.inj hstep]

theorem Handcrafted.Accepted.withOffer {t' : ObjectTable} {target : UInt32} {r : Request}
    {rs : Script} (h : Accepted (t'.withOffer i) rs) (hfits : r.Fits) (hi : target ≠ i)
    (htarget : t.interfaces target = some r.interface) (hstep : t.step r = some t')
    (hrefers : ∀ a ∈ r.refers, a.1 ≠ i) (hcreates : ∀ a, r.creates = some a → a.1 ≠ i) :
    Accepted (t.withOffer i) ((target, r) :: rs) :=
  h.cons hfits ((interfaces_withOffer hi).trans htarget) (step_withOffer hstep hrefers hcreates)

theorem accepted_receive (hi : OfferId i) {mime : Text} (hmime : mime.length ≤ 65519)
    (sg : SeatGlobal) (mg : ManagerGlobal) :
    Accepted (ObjectTable.initial.withOffer i)
      (bootScript sg mg ++ deviceScript ++ [(i, .receive mime)]) := by
  have hne : ∀ j : UInt32, j ≤ 7 → j ≠ i := fun j hj heq =>
    absurd (UInt32.lt_of_lt_of_le hi (heq ▸ hj)) (UInt32.lt_irrefl 7)
  have hown : ∀ (r : Request) (id : UInt32) (k : Interface), r.creates = some (id, k) → id ≤ 7 →
      ∀ a, r.creates = some a → a.1 ≠ i := by
    intro r id k hr hid a ha
    obtain rfl := Option.some.inj (hr.symm.trans ha)
    exact hne id hid
  have hseat : kIfWlSeat.length ≤ 60000 := by decide
  have hmanager : kIfZwlrMgr.length ≤ 60000 := by decide
  refine Accepted.withOffer ?_ (by decide) (hne 1 (by decide)) rfl rfl nofun
    (hown _ 2 _ rfl (by decide))
  refine Accepted.withOffer ?_ (by decide) (hne 1 (by decide)) rfl rfl nofun
    (hown _ 3 _ rfl (by decide))
  refine Accepted.withOffer ?_ (fits_bind hseat _ _ _) (hne 2 (by decide)) rfl rfl nofun
    (hown _ 4 _ rfl (by decide))
  refine Accepted.withOffer ?_ (fits_bind hmanager _ _ _) (hne 2 (by decide)) rfl rfl nofun
    (hown _ 5 _ rfl (by decide))
  refine Accepted.withOffer ?_ (by decide) (hne 1 (by decide)) rfl rfl nofun
    (hown _ 6 _ rfl (by decide))
  refine Accepted.withOffer ?_ (by decide) (hne 5 (by decide)) rfl rfl
    (List.forall_mem_singleton.mpr (hne 4 (by decide))) (hown _ 7 _ rfl (by decide))
  exact Accepted.cons ⟨nofun, rfl⟩ (fits_offer hmime) (if_pos rfl) rfl

theorem receives_receive (i : UInt32) (mime : Text) (sg : SeatGlobal) (mg : ManagerGlobal) :
    receives i (bootScript sg mg ++ deviceScript ++ [(i, .receive mime)]) = [mime] := by
  simp [receives, bootScript, deviceScript]

end

/-! ## A copy, then a paste -/

theorem length_wanted (sent : List Sent) :
    (wanted sent).length = (sent.map Sent.message).countP fun m => IsSend m := by
  induction sent with
  | nil => rfl
  | cons s sent ih =>
      by_cases hs : IsSend s.message
      · have hwanted : wanted (s :: sent) = s.message.payload :: wanted sent := by
          simp only [wanted, List.filterMap_cons, if_pos hs]
        rw [hwanted, List.map_cons, List.countP_cons, if_pos (decide_eq_true hs),
          List.length_cons, ih]
      · have hwanted : wanted (s :: sent) = wanted sent := by
          simp only [wanted, List.filterMap_cons, if_neg hs]
        rw [hwanted, List.map_cons, List.countP_cons, if_neg (fun h => hs (of_decide_eq_true h)),
          ih, Nat.add_zero]

section

variable {message out : List UInt8} {r w : Int} {log : List Action}

theorem Fetches.sent (h : Fetches message r w out log) :
    log.flatMap Action.sent = message ∧ log.flatMap Action.sentFds = [w] := by
  obtain ⟨flushed, got, rfl, -, hsent, hsentFds, hgot, -⟩ := h.parts
  have hnone : got.flatMap Action.sent = [] := hgot.flatMap fun _ => rfl
  have hnone' : got.flatMap Action.sentFds = [] := hgot.flatMap fun _ => rfl
  constructor
  · simp [Action.sent, hsent, hnone]
  · simp [Action.sentFds, hsentFds, hnone']

/-- The read that finds the end of the file comes after all that was read from the pipe. -/
theorem Fetches.eof (h : Fetches message r w out log) (before : List Action) :
    ∃ got after, log = got ++ .call (.read r) (.read (.ok [])) :: after ∧
      readSince r (before ++ got) = out := by
  obtain ⟨flushed, got, rfl, hsending, -, -, hgot, hout⟩ := h.parts
  refine ⟨.call .pipe (.pipe (.ok (r, w))) :: .queue message :: .queueFd w :: (flushed ++ got),
    [.close r], by simp, ?_⟩
  have hnone : flushed.flatMap (Action.readFrom r) = [] :=
    List.flatMap_eq_nil_iff.mpr fun a ha => by cases hsending a ha <;> rfl
  rw [readSince_pipe before (by simp [Action.pipes])]
  · simp [Action.readFrom, hnone, hout]
  · intro b hb
    rcases List.mem_cons.mp hb with rfl | hb
    · rfl
    rcases List.mem_cons.mp hb with rfl | hb
    · rfl
    rcases List.mem_append.mp hb with hb | hb
    · cases hsending b hb <;> rfl
    · obtain ⟨result, rfl⟩ := hgot b hb
      rfl

end

/-- A paste ends up with the payload and the types of the copy that it runs beside, whatever the
chunks in which their bytes travel and however their steps are interleaved, if the copy serves it. -/
theorem copy_then_paste {display seat display' seat' : Text} {sel : Selection} {data : CopyData}
    {oneshot : Bool} {p q : Process} {cl : Client PasteState} {i : UInt32} {sent : List Sent}
    {events : List PasteEvent} {steps : Interleaving} {r w fd : Int} {sends reads : List Reply}
    {out : List UInt8}
    (hp : p.trace = []) (htypes : data.mimeTypes ≠ [])
    (hnames : ∀ m ∈ data.mimeTypes, m ≠ [] ∧ m.length ≤ 65519)
    (hcopier : Party.copier.log steps =
      (HandcraftedBackend.copy display seat sel data oneshot p).2.trace)
    (listens : PasteListens display' seat' sel q cl)
    (hpaster : Party.paster.log steps =
      (HandcraftedBackend.paste display' seat' sel [] false q).2.trace)
    (relayed : Relayed sel i sent events steps) (hi : OfferId i)
    (hears : Hears sel .initial cl.inBuf cl.script events
      (.pipe (.ok (r, w)) :: (sends ++ reads)))
    (hsends : Connection.Sends
      ((Request.receive (chooseMime data.mimeTypes [])).encode i).length sends)
    (hall : ∀ e, .sendmsg (.error e) ∈ sends → e = .EINTR) (hreads : Drains out reads)
    (hfd : fd ∈ sent.filterMap Sent.fd) (piped : Piped r fd steps)
    (haccepted : ∀ a ∈ Party.copier.log steps, a.accepted fd = true) :
    ∃ mime ∈ data.mimeTypes,
      (HandcraftedBackend.paste display' seat' sel [] false q).1 =
        .ok (true, ⟨mime, data.bytes, data.mimeTypes⟩) ∧
      receives i (understood (ObjectTable.initial.withOffer i) (Party.paster.log steps)) = [mime] ∧
      (Party.paster.log steps).flatMap Action.sentFds = [w] := by
  have hmime := chooseMime_mem htypes []
  obtain ⟨before, types, hbefore, hselected, rfl⟩ := relayed.shows
  obtain rfl : types = data.mimeTypes := by
    refine copy_understood display seat sel data oneshot (fun m hm => (hnames m hm).2) hp ?_ hselected
    rw [← hcopier]
    exact hbefore.filterMap _
  obtain ⟨hresult, start, log, closed, htrace, ⟨sg, mg, hstart⟩, hstartFds, hfetches, hclosed⟩ :=
    paste_whole listens hi htypes (fun m hm => (hnames m hm).1) hears hsends hall hreads
  rw [htrace] at hpaster
  -- What the paste has sent is read as the request for the offer shown to it.
  have hunderstood : receives i (understood (ObjectTable.initial.withOffer i)
      (Party.paster.log steps)) = [chooseMime data.mimeTypes []] := by
    have hbytes : (Party.paster.log steps).flatMap Action.sent = encodes (bootScript sg mg ++
        deviceScript ++ [(i, .receive (chooseMime data.mimeTypes []))]) := by
      rw [hpaster, List.flatMap_append, List.flatMap_append, hstart, hfetches.sent.1,
        Process.flatMap_closes (fun _ => rfl) hclosed]
      simp [encodes]
    have hread := read_encodes (accepted_receive hi (hnames _ hmime).2 sg mg)
    rw [understood, hbytes, hread]
    exact receives_receive i _ sg mg
  -- It is handed on once, so that the copy serves no other descriptor.
  have hfds : sent.filterMap Sent.fd = [fd] := by
    have hcount := relayed.conforming.count (List.prefix_refl sent)
    have hforwards := relayed.forwards.length_le
    rw [hunderstood, length_wanted, ← hcount] at hforwards
    obtain ⟨fd', hfd'⟩ := List.length_eq_one_iff.mp
      (Nat.le_antisymm hforwards (List.length_pos_of_mem hfd))
    rw [hfd'] at hfd ⊢
    rw [List.mem_singleton.mp hfd]
  obtain ⟨got, after, hlog, hout⟩ := hfetches.eof start
  -- The end of the file comes when the copy has served the request.
  have hread : Party.paster.log steps =
      (start ++ got) ++ .call (.read r) (.read (.ok [])) :: (after ++ closed) := by
    rw [hpaster, hlog]
    simp
  obtain ⟨earlier, later, rfl, hearlier, -⟩ := log_split hread
  obtain ⟨-, heof⟩ := piped earlier [] later rfl
  obtain ⟨hwritten, hserved⟩ := heof rfl
  rw [hearlier, hout] at hwritten
  have hpart : Party.copier.log earlier <+:
      (HandcraftedBackend.copy display seat sel data oneshot p).2.trace := by
    rw [← hcopier, log_append]
    exact List.prefix_append _ _
  obtain ⟨-, fds, hsofar, hservedSoFar⟩ := HandcraftedBackend.copy_outcome display seat sel data
    oneshot hp relayed.conforming (hcopier ▸ relayed.carried)
  rw [hfds] at hsofar
  rw [hcopier] at haccepted
  obtain rfl : out = data.bytes :=
    hwritten.trans (written_served hservedSoFar hsofar hpart hserved haccepted)
  refine ⟨_, hmime, hresult, hunderstood, ?_⟩
  rw [hpaster, List.flatMap_append, List.flatMap_append, hstartFds, hfetches.sent.2,
    Process.flatMap_closes (fun _ => rfl) hclosed]
  rfl

def showing : List PasteEvent := shown .regular 0xff000000 [text "text/plain"]

def fetching : Process :=
  .fresh (bootReplies 2 ++ .sendmsg (.ok 1000) ::
    ((State.initial.processed .regular showing).flatMap eventReads ++
      .pipe (.ok (7, 8)) :: ([.sendmsg (.ok 1000)] ++
        [.read (.ok [0x68]), .read (.error .EINTR), .read (.ok [0x69]), .read (.ok [])])))

def fetchingClient : Client PasteState := (pasteSetup [] [] .regular (Client.new fetching .new)).2

def copied : List Action :=
  (HandcraftedBackend.copy [] [] .regular ⟨[0x68, 0x69], [text "text/plain"]⟩ true
    HandcraftedBackend.servedOnce).2.trace

def pasted : List Action := (HandcraftedBackend.paste [] [] .regular [] false fetching).2.trace

/-- The copy announces its type, the paste asks for it, the copy serves it and the paste reads. -/
def inTurns : Interleaving :=
  (copied.take 22).map (fun a => (.copier, a)) ++ (pasted.take 33).map (fun a => (.paster, a)) ++
    ((copied.drop 22).map (fun a => (.copier, a)) ++ (pasted.drop 33).map (fun a => (.paster, a)))

theorem log_inTurns : Party.copier.log inTurns = copied ∧ Party.paster.log inTurns = pasted := by
  simp only [inTurns, log_append, log_map, reduceCtorEq, if_true, if_false, List.append_nil,
    List.nil_append, List.take_append_drop, and_self]

theorem copy_then_paste_inTurns :
    ∃ mime ∈ [text "text/plain"],
      (HandcraftedBackend.paste [] [] .regular [] false fetching).1 =
        .ok (true, ⟨mime, [0x68, 0x69], [text "text/plain"]⟩) ∧
      receives 0xff000000 (understood (ObjectTable.initial.withOffer 0xff000000)
        (Party.paster.log inTurns)) = [mime] ∧
      (Party.paster.log inTurns).flatMap Action.sentFds = [8] := by
  have listens : PasteListens [] [] .regular fetching fetchingClient :=
    .of_setup rfl rfl (by decide +kernel) ⟨by decide +kernel, by decide +kernel⟩
  have hi : OfferId 0xff000000 := show (7 : UInt32) < 0xff000000 by decide
  have relayed : Relayed .regular 0xff000000 HandcraftedBackend.sentOnce showing inTurns := by
    refine ⟨⟨(copied.take 22).map fun a => (.copier, a), [text "text/plain"], ?_, ?_, rfl⟩,
      ?_, ⟨by decide +kernel, by decide +kernel, by decide +kernel⟩, ?_⟩
    · exact (List.prefix_append _ _).trans (List.prefix_append _ _)
    · rw [log_map, if_pos rfl]
      decide +kernel
    · rw [log_inTurns.2]
      decide +kernel
    · rw [log_inTurns.1]
      exact carried_of_takes (by decide +kernel) (by decide +kernel) (by decide +kernel)
  have hears : Hears .regular .initial fetchingClient.inBuf fetchingClient.script showing
      (.pipe (.ok (7, 8)) :: ([.sendmsg (.ok 1000)] ++
        [.read (.ok [0x68]), .read (.error .EINTR), .read (.ok [0x69]), .read (.ok [])])) := by
    have hbuf : fetchingClient.inBuf = [] := by decide +kernel
    have hscript : fetchingClient.script = (State.initial.processed .regular showing).flatMap
        eventReads ++ .pipe (.ok (7, 8)) :: ([.sendmsg (.ok 1000)] ++
        [.read (.ok [0x68]), .read (.error .EINTR), .read (.ok [0x69]), .read (.ok [])]) := by
      decide +kernel
    rw [hbuf, hscript]
    exact hears_singly .regular .initial showing _ (by decide)
  have reads : Drains [0x68, 0x69]
      [.read (.ok [0x68]), .read (.error .EINTR), .read (.ok [0x69]), .read (.ok [])] :=
    .read [0x68] (by decide) (.interrupted (.read [0x69] (by decide) .eof))
  have piped : Piped 7 9 inTurns := piped_of_places (by decide +kernel)
  exact copy_then_paste rfl (List.cons_ne_nil _ _) (by decide) log_inTurns.1 listens log_inTurns.2
    relayed hi hears (Connection.sends_once (by decide +kernel) (by decide +kernel))
    (by simp) reads (by decide) piped (by decide +kernel)

end WlClip
