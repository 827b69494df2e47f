import WlClip.HandcraftedScript

/-!
# What every step of an operation keeps

A fact that the connection operations, the dispatcher and the changes of the client's own state
keep holds wherever an operation comes to, and where it halts in one of them the fact makes of it
what it does there. `Stable` names these steps; the rules carry a fact over `dispatch_until`, the
start of both operations, and the announcement of a copy.
-/

open ScriptedProgram ScriptedProgram.Prog

namespace WlClip

namespace Client

variable {σ : Type}

/-- The steps of `dispatch_until` keep `I`; where one halts, `H` holds. -/
structure Stable (d : Dispatcher σ) (I : Client σ → Prop) (H : Halt → Client σ → Prop) :
    Prop where
  flush : Triple I (onConn Connection.flush) (fun _ => I) H
  waitReadable : Triple I (onConn (Connection.waitReadable (-1))) (fun _ => I) H
  pump : Triple I (onConn Connection.pump) (fun _ => I) H
  deliver : ∀ m, Triple (fun cl => I cl ∧ headMessage cl.inBuf = some m) (deliver d m)
    (fun _ => I) H

variable {d : Dispatcher σ} {I : Client σ → Prop} {H : Halt → Client σ → Prop}

theorem Stable.scan (h : Stable d I H) (predicate : σ → Bool) :
    Triple I (scan predicate d) (fun _ => I) H := by
  refine Triple.loop_total (I := fun _ => I) (scanRound_shrinks predicate d) ?_ false
  intro consumedAny cl hcl
  rcases hm : headMessage cl.inBuf with _ | m
  · rw [scanRound_none predicate d consumedAny hm]
    cases consumedAny <;> exact hcl
  · have hstep := h.deliver m cl ⟨hcl, hm⟩
    rw [scanRound_some predicate d consumedAny hm]
    rcases hr : Client.deliver d m cl with ⟨e | u, cl'⟩ <;> rw [hr] at hstep
    · exact hstep
    · dsimp only
      split_ifs <;> exact hstep

theorem Stable.receiveRound (h : Stable d I H) : Triple I receiveRound (fun _ => I) H := by
  have hdone : ∀ r : Unit ⊕ Bool, Triple I (pure r) (fun _ => I) H :=
    fun r => Triple.pure r fun _ hcl => hcl
  apply Triple.bind h.waitReadable
  intro ready
  apply Triple.ite _ fun _ => hdone _
  intro _
  apply Triple.bind h.pump
  intro n
  exact Triple.ite (fun _ => hdone _) fun _ => Triple.ite (fun _ => hdone _) fun _ => hdone _

theorem Stable.dispatchUntil (h : Stable d I H) (predicate : σ → Bool) :
    Triple I (dispatchUntil predicate d) (fun _ => I) H := by
  have hdone : ∀ r : Unit ⊕ Bool, Triple I (pure r) (fun _ => I) H :=
    fun r => Triple.pure r fun _ hcl => hcl
  have hround : Triple I (dispatchRound predicate d ()) (fun _ => I) H := by
    apply Triple.bind (Q := fun _ => I) (Triple.read _ fun _ hcl => hcl)
    intro st
    apply Triple.ite fun _ => hdone _
    intro _
    apply Triple.bind h.flush
    intro ok
    apply Triple.ite _ fun _ => hdone _
    intro _
    apply Triple.bind (h.scan predicate)
    rintro (_ | _ | _)
    · exact hdone _
    · exact hdone _
    · exact h.receiveRound
  refine Triple.loop_total (I := fun _ => I) (dispatchRound_shrinks predicate d) ?_ ()
  rintro ⟨⟩
  apply hround.conseq (fun _ hcl => hcl) _ fun _ _ hcl => hcl
  rintro (_ | ok) cl hcl <;> exact hcl

end Client

namespace Handcrafted

variable {σ : Type} [HasSession σ]

/-- The steps of the start of an operation, which makes no object of a manager, keep `I`. -/
structure Stable (d : Dispatcher σ) (I : Client σ → Prop) (H : Halt → Client σ → Prop) : Prop
    extends Client.Stable d I H where
  halts : ∀ e cl, I cl → H e cl
  queue : ∀ bytes, Triple I (Client.onConn (Connection.outBytes bytes)) (fun _ => I) H
  allocId : Triple I Client.allocId (fun _ => I) H
  register : ∀ id k, (k = .display → id = kDisplayId) → ¬ k.Special →
    Triple I (Client.registerObject id k) (fun _ => I) H
  modifySession : ∀ f, Triple I (modifySession f) (fun _ => I) H

variable {d : Dispatcher σ} {I : Client σ → Prop} {H : Halt → Client σ → Prop}

namespace Stable

theorem readSession : Triple I (readSession (σ := σ)) (fun _ => I) H := Triple.read _ fun _ h => h

theorem startSync (h : Stable d I H) : Triple I startSync (fun _ => I) H := by
  apply Triple.bind _ fun cb => h.modifySession _
  apply Triple.bind h.allocId
  intro cb
  apply Triple.bind (h.register cb .callback nofun (by simp [ObjKind.Special]))
  intro _
  exact Triple.bind (h.queue _) fun _ => Triple.pure _ fun _ hcl => hcl

theorem bindGlobals (h : Stable d I H) (seat : Text) :
    Triple I (bindGlobals d seat) (fun _ => I) H := by
  have hdone : ∀ ok : Bool, Triple I (pure ok) (fun _ => I) H :=
    fun ok => Triple.pure ok fun _ hcl => hcl
  have hbind : ∀ (kind : ObjKind) (f : UInt32 → Session → Session) (w : UInt32 → Writer),
      kind ≠ .display → ¬ kind.Special →
      Triple I (do
        let id ← Client.allocId
        Handcrafted.modifySession (f id)
        Client.registerObject id kind
        send (w id)) (fun _ => I) H := fun kind f w hdisplay hspecial =>
    Triple.bind h.allocId fun id => Triple.bind (h.modifySession _) fun _ =>
      Triple.bind (h.register id kind (fun hk => absurd hk hdisplay) hspecial) fun _ => h.queue _
  apply Triple.bind readSession
  intro s
  rcases s.g.managers with _ | ⟨mg, mgs⟩
  · exact hdone false
  apply Triple.ite fun _ => hdone false
  intro _
  apply Triple.bind (seatIndex_triple seat h.halts)
  intro seatIdx
  rcases s.g.seats[seatIdx]? with _ | sg
  · exact hdone false
  apply Triple.bind (hbind .seat _ _ (by simp) (by simp [ObjKind.Special]))
  intro _
  apply Triple.bind (hbind .manager _ _ (by simp) (by simp [ObjKind.Special]))
  intro _
  apply Triple.bind (h.modifySession _)
  intro _
  apply Triple.bind h.startSync
  intro _
  apply Triple.bind (h.dispatchUntil _)
  intro ok
  exact Triple.ite (fun _ => Triple.bind readSession fun _ => hdone _) fun _ => hdone false

/-- The connection is opened first, from a state of its own. -/
theorem start (h : Stable d I H) {P : Client σ → Prop} {display : Text}
    (hconnect : Triple P (Client.onConn (Connection.connect display)) (fun _ => I) H) (seat : Text)
    (sel : Selection) : Triple P (start d display seat sel) (fun _ => I) H := by
  have hdone : ∀ ok : Bool, Triple I (pure ok) (fun _ => I) H :=
    fun ok => Triple.pure ok fun _ hcl => hcl
  have hregister : ∀ id k, (k = .display → id = kDisplayId) → k = .display ∨ k = .registry →
      Triple I (Client.registerObject id k) (fun _ => I) H := by
    intro id k hid hk
    apply h.register id k hid
    rcases hk with rfl | rfl <;> simp [ObjKind.Special]
  apply Triple.bind
  · apply Triple.bind hconnect
    intro ok
    exact Triple.ite (fun _ => Triple.bind (hregister _ .display (fun _ => rfl) (.inl rfl))
      fun _ => hdone _) fun _ => hdone _
  intro ok
  apply Triple.ite _ fun _ => hdone _
  intro _
  apply Triple.bind
  · apply Triple.bind
    · apply Triple.bind h.allocId
      intro id
      apply Triple.bind (h.modifySession _)
      intro _
      exact Triple.bind (hregister id .registry (by simp) (.inr rfl)) fun _ => h.queue _
    intro _
    apply Triple.bind h.startSync
    intro _
    apply Triple.bind (h.dispatchUntil _)
    intro ok
    exact Triple.ite (fun _ => h.bindGlobals seat) fun _ => hdone _
  intro ok
  exact Triple.ite (fun _ => Triple.bind readSession fun _ => hdone _) fun _ => hdone _

end Stable

theorem announce_stable {I : Client CopyState → Prop} {H : Halt → Client CopyState → Prop}
    (hqueue : ∀ bytes, Triple I (Client.onConn (Connection.outBytes bytes)) (fun _ => I) H)
    (halloc : Triple I Client.allocId (fun _ => I) H)
    (hregister : ∀ id k, k.Special → Triple I (Client.registerObject id k) (fun _ => I) H)
    (hstate : ∀ f, Triple I (Client.setState f) (fun _ => I) H) (sel : Selection) :
    Triple I (announce sel) (fun _ => I) H := by
  have hoffers : ∀ source mimes, Triple I (sendOffers source mimes) (fun _ => I) H := by
    intro source mimes
    induction mimes with
    | nil => exact Triple.pure _ fun _ hcl => hcl
    | cons m mimes ih => exact Triple.bind (hqueue _) fun _ => ih
  apply Triple.bind halloc
  intro sourceId
  apply Triple.bind (hstate _)
  intro _
  apply Triple.bind (hregister sourceId .source (.inl rfl))
  intro _
  apply Triple.bind (Q := fun _ => I) (Triple.read _ fun _ hcl => hcl)
  intro st
  apply Triple.bind (hqueue _)
  intro _
  apply Triple.bind halloc
  intro deviceId
  apply Triple.bind (hstate _)
  intro _
  apply Triple.bind (hregister deviceId .device (.inr (.inl rfl)))
  intro _
  apply Triple.bind (hqueue _)
  intro _
  exact Triple.bind (hoffers _ _) fun _ => hqueue _

/-! ## The paste -/

section Paste

variable {I P : Client PasteState → Prop} {H : Halt → Client PasteState → Prop} {display : Text}

/-- A fact that the steps of the start keep, and those that make the device, outlives the start of
a paste. -/
theorem pasteSetup_stable (h : Stable pasteDispatcher I H)
    (hconnect : Triple P (Client.onConn (Connection.connect display)) (fun _ => I) H)
    (hregister : ∀ id, Triple I (Client.registerObject id .device) (fun _ => I) H)
    (hdevice : ∀ id, Triple I (Client.setState fun st => { st with deviceId := id }) (fun _ => I) H)
    (seat : Text) (sel : Selection) :
    Triple P (pasteSetup display seat sel) (fun _ => I) H := by
  have hdone : ∀ ok : Bool, Triple I (pure ok) (fun _ => I) H :=
    fun ok => Triple.pure ok fun _ hcl => hcl
  apply Triple.bind (h.start hconnect seat sel)
  intro ok
  apply Triple.ite _ fun _ => hdone _
  intro _
  apply Triple.bind (Q := fun _ => I)
  · apply Triple.bind h.allocId
    intro deviceId
    apply Triple.bind (hdevice deviceId)
    intro _
    apply Triple.bind (hregister deviceId)
    intro _
    apply Triple.bind (Q := fun _ => I) (Triple.read _ fun _ hcl => hcl)
    exact fun st => h.queue _
  intro _
  exact Triple.bind h.flush fun _ => hdone _

theorem pasteClient_stable (h : Stable pasteDispatcher I H)
    (hconnect : Triple P (Client.onConn (Connection.connect display)) (fun _ => I) H)
    (hregister : ∀ id, Triple I (Client.registerObject id .device) (fun _ => I) H)
    (hdevice : ∀ id, Triple I (Client.setState fun st => { st with deviceId := id }) (fun _ => I) H)
    (hfetch : ∀ offer mime available, Triple I (fetch offer mime available) (fun _ => I) H)
    (seat : Text) (sel : Selection) (preferMime : Text) (listOnly : Bool) :
    Triple P (pasteClient display seat sel preferMime listOnly) (fun _ => I) H := by
  have hdone : ∀ out : Bool × PasteResult, Triple I (pure out) (fun _ => I) H :=
    fun out => Triple.pure out fun _ hcl => hcl
  have htake : Triple I (take sel preferMime listOnly) (fun _ => I) H := by
    apply Triple.bind (Q := fun _ => I) (Triple.read _ fun _ hcl => hcl)
    intro st
    apply Triple.ite fun _ => hdone _
    intro _
    split
    · exact hdone _
    · apply Triple.ite fun _ => hdone _
      intro _
      exact Triple.ite (fun _ => hdone _) fun _ => hfetch _ _ _
  apply Triple.bind (pasteSetup_stable h hconnect hregister hdevice seat sel)
  intro ok
  apply Triple.ite _ fun _ => hdone _
  intro _
  apply Triple.bind (h.dispatchUntil _)
  intro ok
  exact Triple.ite (fun _ => htake) fun _ => hdone _

end Paste

end Handcrafted

end WlClip
