import WlClip.ExplicitTypes

/-!
# Finding a usable type

An empty name on offer is taken for a type: it is a prefix of every preference, and it may be the
first of the list. A paste that comes to choose it fails, though it could have asked for another.
-/

open ScriptedProgram ScriptedProgram.Prog

namespace WlClip

/-! ## The choice -/

def leading (av : List Text) : List Text := av.takeWhile fun m => m ≠ []

def textLike (m : Text) : Bool := m == text "UTF8_STRING" || startsWith m (text "text/")

/-- The search comes to a name that is not empty before an empty one stops it: no name is empty, or
the preference is on offer, or a name akin to it leads, or, without a preference, the first name is
not empty or some name is that of a text. -/
def Reaches (prefer : Text) (av : List Text) : Prop :=
  [] ∉ av ∨ if prefer = [] then leading av ≠ [] ∨ ∃ m ∈ av, textLike m = true
    else prefer ∈ av ∨ ∃ m ∈ leading av, akin prefer m = true

instance (prefer : Text) (av : List Text) : Decidable (Reaches prefer av) := by
  unfold Reaches
  infer_instance

section Choice

variable {prefer : Text} {av : List Text}

/-- A search that an empty name satisfies ends with one exactly if no name before it does. -/
theorem find?_empty_iff {q : Text → Bool} (hq : q [] = true) (h : [] ∈ av) :
    av.find? q = some [] ↔ ∀ m ∈ leading av, q m = false := by
  induction av with
  | nil => cases h
  | cons m av ih =>
      by_cases hm : m = []
      · subst hm
        simp [leading, hq]
      · have hrest : [] ∈ av := (List.mem_cons.mp h).resolve_left (Ne.symm hm)
        have hlead : leading (m :: av) = m :: leading av := List.takeWhile_cons_of_pos (by simp [hm])
        rw [hlead, List.forall_mem_cons, ← ih hrest]
        by_cases hqm : q m = true
        · rw [List.find?_cons_of_pos hqm]
          simp [hm, hqm]
        · rw [List.find?_cons_of_neg hqm]
          simp [hqm]

theorem preferred_nil_iff (hne : prefer ≠ []) (h : [] ∈ av) :
    chooseMime av prefer = [] ↔ prefer ∉ av ∧ ∀ m ∈ leading av, akin prefer m = false := by
  by_cases hmem : prefer ∈ av
  · rw [chooseMime_self hne hmem]
    exact iff_of_false hne fun hno => hno.1 hmem
  · have hav : av ≠ [] := List.ne_nil_of_mem h
    rw [chooseMime_nil_iff hne hmem, find?_empty_iff (akin_nil prefer) h]
    simp [hav, hmem]

theorem textLike_ne_nil {m : Text} (h : textLike m = true) : m ≠ [] := by
  rintro rfl
  revert h
  decide

theorem unpreferred_cases (av : List Text) :
    (∃ m ∈ av, textLike m = true ∧ chooseMime av [] = m) ∨
      (∀ m ∈ av, textLike m = false) ∧ chooseMime av [] = (av.find? fun _ => true).getD [] := by
  have hrules : chooseMime av [] =
      ([fun m => m == text "text/plain;charset=utf-8", fun m => m == text "UTF8_STRING",
        fun m => startsWith m (text "text/"), fun _ => true].findSome? fun rule =>
          av.find? rule).getD [] := rfl
  have hnone : ∀ {rule : Text → Bool} {m : Text}, av.find? rule = none → m ∈ av → rule m = false :=
    fun h hm => Bool.eq_false_iff.mpr (List.find?_eq_none.mp h _ hm)
  rw [hrules, List.findSome?_cons]
  rcases hfirst : av.find? fun m => m == text "text/plain;charset=utf-8" with _ | m
  · rw [List.findSome?_cons]
    rcases hsecond : av.find? fun m => m == text "UTF8_STRING" with _ | m
    · rw [List.findSome?_cons]
      rcases hthird : av.find? fun m => startsWith m (text "text/") with _ | m
      · refine .inr ⟨fun m hm => ?_, ?_⟩
        · rw [textLike, hnone hsecond hm, hnone hthird hm]
          rfl
        · rw [List.findSome?_cons]
          rcases av.find? fun _ => true with _ | m <;> rfl
      · have hm : startsWith m (text "text/") = true :=
          List.find?_some (p := fun m => startsWith m (text "text/")) hthird
        exact .inl ⟨m, List.mem_of_find?_eq_some hthird, by rw [textLike, hm, Bool.or_true], rfl⟩
    · have hm : (m == text "UTF8_STRING") = true :=
        List.find?_some (p := fun m => m == text "UTF8_STRING") hsecond
      exact .inl ⟨m, List.mem_of_find?_eq_some hsecond, by rw [textLike, hm, Bool.true_or], rfl⟩
  · have hm : (m == text "text/plain;charset=utf-8") = true :=
      List.find?_some (p := fun m => m == text "text/plain;charset=utf-8") hfirst
    refine .inl ⟨m, List.mem_of_find?_eq_some hfirst, ?_, rfl⟩
    rw [eq_of_beq hm]
    decide

theorem unpreferred_nil_iff (h : [] ∈ av) :
    chooseMime av [] = [] ↔ leading av = [] ∧ ∀ m ∈ av, textLike m = false := by
  rcases unpreferred_cases av with ⟨m, hm, htext, hchosen⟩ | ⟨hnone, hchosen⟩
  · rw [hchosen]
    refine iff_of_false (textLike_ne_nil htext) fun hno => ?_
    rw [hno.2 m hm] at htext
    cases htext
  · have hstops : av.find? (fun _ => true) = some [] ↔ leading av = [] := by
      rw [find?_empty_iff rfl h, List.eq_nil_iff_forall_not_mem]
      simp
    rw [hchosen, ← hstops]
    rcases hfirst : av.find? fun _ => true with _ | m
    · exact absurd rfl (List.find?_eq_none.mp hfirst [] h)
    · simpa using fun _ => hnone

theorem chooseMime_ne_nil_iff (hav : av ≠ []) : chooseMime av prefer ≠ [] ↔ Reaches prefer av := by
  by_cases h : [] ∈ av
  · unfold Reaches
    by_cases hne : prefer = []
    · subst hne
      rw [Ne, unpreferred_nil_iff h, if_pos rfl]
      simp only [h, not_true, false_or, not_and_or]
      simp
    · rw [Ne, preferred_nil_iff hne h, if_neg hne]
      simp only [h, not_true, false_or, not_and_or, not_not]
      simp
  · have hmem := chooseMime_mem hav prefer
    exact iff_of_true (fun hnil => h (hnil ▸ hmem)) (.inl h)

end Choice

/-! ## What the choice leads to -/

namespace Process

def Answered (n : ℕ) (p : Process) : Prop := p.size < n

variable {A : Action → Prop} {n : ℕ} {p p' : Process}

theorem Logs.answered (h : Logs A p p') (hp : p.Answered n) : p'.Answered n :=
  Nat.lt_of_le_of_lt h.size_le hp

theorem makePipe_size {ends : Option (Int × Int)} (h : makePipe p = (.ok ends, p')) :
    p'.size < p.size := by
  obtain ⟨r, q, hpipe, hrest⟩ := bind_eq_ok h
  have hlt := ask_size hpipe
  cases r with
  | error e =>
      cases hrest
      exact hlt
  | ok ends =>
      cases hrest
      exact hlt

end Process

open Process (Answered)

namespace Handcrafted

variable {n : ℕ}

def Replied (n : ℕ) (cl : Client PasteState) : Prop := cl.Answered n

theorem onConn_replied {α : Type} {p : Prog Halt Connection α}
    (h : Within Connection.KeepsInput p) :
    Triple (Replied n) (Client.onConn p) (fun _ => Replied n) fun _ _ => True :=
  ((Client.onConn_within h).keeps fun _ _ hkeeps hcl => hkeeps.1.logs.answered hcl).returns

theorem fetch_replied (offer : UInt32) (mime : Text) (available : List Text) :
    Triple (fun cl => cl.toProcess.size = n) (fetch offer mime available) (fun _ => Replied n)
      fun _ _ => True := by
  have hsys : ∀ {α : Type} {p : Prog Halt Process α}, Within (Process.Logs Action.Silent) p →
      Triple (Replied n) (Client.sys p) (fun _ => Replied n) fun _ _ => True :=
    fun h => onConn_replied (Connection.sys_keepsInput h)
  apply Triple.bind (Q := fun _ => Replied n)
  · intro cl hcl
    rcases hpipe : Process.makePipe cl.toProcess with ⟨e | ends, q⟩ <;>
      simp only [Client.sys, Client.onConn, Connection.sys, Prog.zoom_apply, hpipe]
    exact Nat.lt_of_lt_of_eq (Process.makePipe_size hpipe) hcl
  rintro (_ | ⟨readEnd, writeEnd⟩)
  · exact Triple.pure _ fun _ h => h
  apply Triple.bind (Q := fun _ => Replied n)
  · intro cl hcl
    rw [send_eq]
    exact hcl
  intro _
  apply Triple.bind (Q := fun _ => Replied n)
  · intro cl hcl
    rw [outFd_eq]
    exact hcl
  intro _
  apply Triple.bind (onConn_replied Connection.flush_keepsInput)
  intro _
  apply Triple.bind (hsys (Process.drainFd_silent readEnd))
  intro got
  apply Triple.bind (hsys (Process.close_silent readEnd))
  exact fun _ => Triple.pure _ fun _ h => h

end Handcrafted

namespace Libwayland

variable {σ : Type} {n : ℕ}

def Replied (n : ℕ) (l : Listening σ) : Prop := l.Answered n

theorem logged_replied {α : Type} {A : Action → Prop} {p : Prog Halt (Listening σ) α}
    (h : Within (Listening.Logged A) p) :
    Triple (Replied n) p (fun _ => Replied n) fun _ _ => True :=
  (h.keeps fun _ _ hlogged hl => Process.Logs.answered hlogged hl).returns

theorem fetch_replied (offer : PendingOffer) (mime : Text) (offers : List PendingOffer) :
    Triple (fun l : Listening σ => l.toProcess.size = n) (fetch offer mime offers) (fun _ => Replied n)
      fun _ _ => True := by
  apply Triple.bind (Q := fun _ => Replied n)
  · intro l hl
    rcases hpipe : Process.makePipe l.toProcess with ⟨e | ends, q⟩ <;>
      simp only [Listening.sys, Listening.onState, State.sys, Prog.zoom_apply, hpipe]
    exact Nat.lt_of_lt_of_eq (Process.makePipe_size hpipe) hl
  rintro (_ | ⟨readEnd, writeEnd⟩)
  · apply Triple.bind (logged_replied (Listening.request_mute _))
    exact fun _ => Triple.pure _ fun _ h => h
  apply Triple.bind (logged_replied (Listening.request_mute _))
  intro _
  apply Triple.bind (logged_replied (Listening.sys_mute (Process.close_mute writeEnd)))
  intro _
  apply Triple.bind (logged_replied (Listening.sys_mute (Process.drainFd_mute readEnd)))
  intro got
  apply Triple.bind (logged_replied (destroyOffers_mute offers))
  intro _
  apply Triple.bind (logged_replied (Listening.request_mute _))
  intro _
  apply Triple.bind (logged_replied (Listening.sys_mute (Process.close_mute readEnd)))
  exact fun _ => Triple.pure _ fun _ h => h

end Libwayland

namespace X11

/-- The display has an atom for each of the names that stand for a text. -/
structure Atoms.TextsNamed (a : Atoms) : Prop where
  utf8String : a.utf8String ≠ 0
  string : a.string ≠ 0
  text : a.text ≠ 0

variable {p q : Process}

theorem targetAtom_answered {a : Atoms} (hnamed : a.TextsNamed) {mime : Text} {t : Atom}
    (h : targetAtom a mime p = (.ok t, q)) : t ≠ 0 ∧ q.size ≤ p.size ∨ q.size < p.size := by
  unfold targetAtom at h
  split_ifs at h
  · cases h
    exact .inl ⟨hnamed.utf8String, le_rfl⟩
  · cases h
    exact .inl ⟨hnamed.string, le_rfl⟩
  · cases h
    exact .inl ⟨hnamed.text, le_rfl⟩
  · exact .inr (Process.ask_size h)

theorem requestAndWait_answered {x : Connection} {selatom t : Atom} {ok : Bool}
    (h : requestAndWait x selatom t p = (.ok ok, q)) : q.size < p.size := by
  obtain ⟨_, p₁, hrecord, h⟩ := bind_eq_ok h
  obtain ⟨start, p₂, hclock, hloop⟩ := bind_eq_ok h
  have hlt := Process.ask_size hclock
  have hle := ((Within.loop (fun _ => any_calls.waitRound x.fd start timeoutMs) ()).of_eq
    hloop).size_le
  cases hrecord
  exact Nat.lt_of_le_of_lt hle hlt

theorem askData_answered {x : Connection} (hnamed : x.atoms.TextsNamed) {selatom : Atom}
    {mime : Text} (hmime : mime ≠ []) {ok : Bool} (h : askData x selatom mime p = (.ok ok, q)) :
    q.size < p.size := by
  rw [askData, if_neg hmime] at h
  obtain ⟨t, p₁, htarget, h⟩ := bind_eq_ok h
  have hatom := targetAtom_answered hnamed htarget
  split_ifs at h with hzero
  · cases h
    exact hatom.resolve_left fun hno => hno.1 hzero
  · have hlt := requestAndWait_answered h
    rcases hatom with ⟨-, hle⟩ | hlt'
    · exact Nat.lt_of_lt_of_le hlt hle
    · exact hlt.trans hlt'

end X11

/-- The display, if one is asked, has an atom for each of the names that stand for a text. -/
def Owner.TextsNamed : Owner → Prop
  | .window x => x.atoms.TextsNamed
  | _ => True

namespace PasteCommand

variable {common : CommonOptions} {o : PasteOpts} {kind : BackendKind} {p before : Process}
  {owner : Owner} {av : List Text}

/-- The paste fails for lack of a type that it could ask for: when it has come to choose it makes no
call any more, and no atom of a text was missing. -/
structure Denied (owner : Owner) (before : Process)
    (received : Except Halt (Bool × PasteResult) × Process) : Prop where
  failed : ∃ out, received.1 = .ok (false, out)
  idle : received.2.script = before.script
  named : owner.TextsNamed

/-- What a paste does when it has come to choose: nothing where there is no choice, and where there
is one it is answered before it returns. -/
structure Attempts (mime : Text) (owner : Owner) (before : Process)
    (received : Except Halt (Bool × PasteResult) × Process) : Prop where
  idle : mime = [] → received.2.script = before.script
  answered : mime ≠ [] → owner.TextsNamed → ∀ r, received.1 = .ok r →
    received.2.Answered before.size

theorem Attempts.handcrafted {display seat preferMime : Text} {sel : Selection}
    {cl : Client PasteState} {r : OfferRec}
    (h : HandcraftedBackend.Finds display seat sel p cl r) :
    Attempts (chooseMime r.mimes preferMime) (.wire (Handcrafted.target sel cl.st)) cl.toProcess
      (HandcraftedBackend.paste display seat sel preferMime false p) := by
  have htakes : Handcrafted.pasteClient display seat sel preferMime false (Client.new p .new) = _ :=
    h.takes
  rw [HandcraftedBackend.paste, Client.run, htakes]
  unfold HandcraftedBackend.taken
  split_ifs with hnil
  · exact ⟨fun _ => rfl, fun hne => absurd hnil hne⟩
  · refine ⟨fun h => absurd h hnil, fun _ _ r' hr' => ?_⟩
    have hreplied := Handcrafted.fetch_replied (Handcrafted.target sel cl.st)
      (chooseMime r.mimes preferMime) r.mimes cl rfl
    rcases hfetch : Handcrafted.fetch (Handcrafted.target sel cl.st)
      (chooseMime r.mimes preferMime) r.mimes cl with ⟨e | out, cl'⟩ <;> rw [hfetch] at hr' hreplied
    · cases hr'
    · exact (Connection.close_silent cl'.toConnection).answered hreplied

theorem Attempts.libwayland {σ : Type} (preferMime : Text) (offer : Libwayland.PendingOffer)
    (offers : List Libwayland.PendingOffer) (l : Listening σ) :
    Attempts (chooseMime offer.mimes preferMime) (.proxy offer.proxy) l.toProcess
      ((Libwayland.taken offer preferMime offers l).1,
        (Libwayland.taken offer preferMime offers l).2.toProcess) := by
  unfold Libwayland.taken
  split_ifs with hnil
  · exact ⟨fun _ => rfl, fun hne => absurd hnil hne⟩
  · refine ⟨fun h => absurd h hnil, fun _ _ r hr => ?_⟩
    have hreplied := Libwayland.fetch_replied offer (chooseMime offer.mimes preferMime) offers l rfl
    rcases hfetch : Libwayland.fetch offer (chooseMime offer.mimes preferMime) offers l with
      ⟨e | out, l'⟩ <;> rw [hfetch] at hr hreplied
    · cases hr
    · exact hreplied

theorem Attempts.x11 {display preferMime : Text} {sel : Selection} {pc : Process}
    {x : X11.Connection} (hconnect : X11.connect display p = (.ok (some x), pc))
    (htargets : X11.askTargets x (X11.selectionAtom x.atoms sel) pc = (.ok (some av), before)) :
    Attempts (chooseMime av preferMime) (.window x) before
      (X11Backend.paste display sel preferMime false p) := by
  rw [X11Backend.paste_takes hconnect htargets]
  constructor
  · intro hnil
    rw [X11Backend.taken, bind_ok (X11Backend.ask_nil x sel hnil before)]
    rfl
  · intro hne hnamed r hr
    rcases hrun : X11Backend.taken x sel av preferMime before with ⟨e | r', q⟩ <;> rw [hrun] at hr
    · cases hr
    obtain ⟨r, q₁, hask, hrun⟩ := bind_eq_ok hrun
    obtain ⟨_, q₂, hdestroy, hrun⟩ := bind_eq_ok hrun
    cases hrun
    obtain ⟨ok, q₃, hdata, hask⟩ := bind_eq_ok hask
    have hanswered : q₃.Answered before.size := X11.askData_answered hnamed hne hdata
    have hrest : Process.Logs (fun _ => True) q₃ q₁ := by
      cases ok with
      | false =>
          cases hask
          exact .refl _
      | true => exact (Within.bind (X11.any_calls.readProperty x) fun _ => Within.pure _).of_eq hask
    exact ((X11.destroy_silent x).of_eq hdestroy).answered (hrest.answered hanswered)

theorem Chooses.attempts (h : Chooses common av kind p owner before) (hlist : o.listTypes = false) :
    Attempts (chooseMime av o.type) owner before (receive common o kind p) :=
  h.receives hlist Attempts.handcrafted Attempts.x11 (Attempts.libwayland o.type)

/-- A paste is denied a type where it has not chosen one, and nowhere else. -/
theorem Chooses.denied_iff (h : Chooses common av kind p owner before)
    (hlist : o.listTypes = false) :
    Denied owner before (receive common o kind p) ↔
      owner.TextsNamed ∧ chooseMime av o.type = [] := by
  have hattempts : Attempts (chooseMime av o.type) owner before (receive common o kind p) :=
    h.attempts hlist
  constructor
  · intro hdenied
    obtain ⟨out, hfailed⟩ := hdenied.failed
    refine ⟨hdenied.named, ?_⟩
    by_contra hne
    have hanswered : (receive common o kind p).2.size < before.size :=
      hattempts.answered hne hdenied.named _ hfailed
    have hsame : (receive common o kind p).2.size = before.size := by
      rw [Process.size, Process.size, hdenied.idle]
    omega
  · rintro ⟨hnamed, hnil⟩
    exact ⟨(h.follows hlist).refused hnil, hattempts.idle hnil, hnamed⟩

/-! ## A usable type -/

/-- Among these types a usable one is found: it is among them, it is not empty, and no paste that
comes to choose among them fails for lack of one. -/
structure Found (prefer : Text) (av : List Text) : Prop where
  offered : chooseMime av prefer ∈ av
  usable : chooseMime av prefer ≠ []
  pursued : ∀ (common : CommonOptions) (o : PasteOpts) (kind : BackendKind) (p before : Process)
    (owner : Owner), o.type = prefer → o.listTypes = false → Chooses common av kind p owner before →
    ¬ Denied owner before (receive common o kind p)

/-- Where a type on offer is not empty, a usable one is found exactly if the search comes to one
before an empty one stops it. -/
theorem found_iff {av : List Text} (h : ∃ m ∈ av, m ≠ []) (prefer : Text) :
    Found prefer av ↔ Reaches prefer av := by
  obtain ⟨m, hm, -⟩ := h
  have hav : av ≠ [] := List.ne_nil_of_mem hm
  rw [← chooseMime_ne_nil_iff hav]
  constructor
  · exact fun hfound => hfound.usable
  · intro hne
    refine ⟨chooseMime_mem hav prefer, hne, ?_⟩
    intro common o kind p before owner htype hlist hchooses hdenied
    have hnil := ((hchooses.denied_iff hlist).mp hdenied).2
    rw [htype] at hnil
    exact hne hnil

theorem found_behind_empty : Found (text "text/plain") [[], text "text/plain"] :=
  (found_iff ⟨text "text/plain", by decide, by decide⟩ _).mpr (by decide)

/-- A name that is empty before that of a text. -/
def nameless : List Text := [[], text "text/plain"]

def payload : List Reply := [.pipe (.ok (7, 8)), .sendmsg (.ok 1000)] ++ written

def namelessDevice : Process :=
  .fresh (.displayConnect true :: .displayRoundtrip [.global 1 kIfWlSeat 8,
    .global 2 kIfWlMgr 3] true :: .displayRoundtrip [] true :: .poll (.ok (.ready true)) ::
      .displayDispatch (.dataOffer 4 :: nameless.map (.offerMime 4) ++ [.selection (some 4)]) true ::
        payload)

def namelessRaw : Process :=
  .fresh (Handcrafted.bootReplies 2 ++ .sendmsg (.ok 1000) ::
    ((Offers.State.initial.processed .regular (shown .regular 0xff000000 nameless)).flatMap
      Handcrafted.eventReads ++ payload))

/-- The owner offers an atom that has no name and that of a text. -/
def namelessWindow : Process :=
  .fresh (.xConnect (some (3, 42)) ::
    [300, 301, 302, 303, 304, 305, 306, 307, 308].map .xInternAtom ++
    [.clock 0, .xPollForEvent (some (.selectionNotify ⟨0, 42, 300, 301, 307⟩)),
      .xGetProperty (some ⟨X11.atomAtom, [400, X11.atomString].flatMap LittleEndian.u32Bytes, 0⟩),
      .xGetAtomName [], .clock 5])

/-- The paste is told an image type, lists a text and fails. -/
def Misses (backend : Text) (kind : BackendKind) (p : Process) : Prop :=
  parseBackendKind backend = some kind ∧
    (receive ⟨[], [], backend, false⟩ ⟨text "image/png", false, false⟩ kind p).1 =
      .ok (false, ⟨[], [], nameless⟩) ∧
    (runPaste ⟨[], [], backend, false⟩ [text "-t", text "image/png"] p).1 = .ok 1

/-- An empty name that comes first is chosen for want of the preference, or of a text without one,
and the paste fails on every backend. -/
theorem nameless_missed :
    (∃ m ∈ nameless, m ≠ []) ∧ ¬ Found (text "image/png") nameless ∧
    ¬ Found [] [[], text "image/png"] ∧ Misses (text "wlr") .dataControl (offered nameless) ∧
    Misses (text "wl") .dataDevice namelessDevice ∧
    Misses (text "raw") .handcraftedControl namelessRaw ∧
    Misses (text "x11") .x11 namelessWindow := by
  have hstops : ∀ {prefer : Text} {av : List Text}, chooseMime av prefer = [] → ¬ Found prefer av :=
    fun hnil hfound => hfound.usable hnil
  refine ⟨by decide, hstops (by decide), hstops (by decide), ?_⟩
  unfold Misses
  exact ⟨by decide +kernel, by decide +kernel, by decide +kernel, by decide +kernel⟩

end PasteCommand

end WlClip
